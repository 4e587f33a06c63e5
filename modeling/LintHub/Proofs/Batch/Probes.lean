import LintHub.Proofs.Batch.Turn

/-! # What tools know of their programs

A tool looks for its program once. A step of work on the hub looks for programs first, if it does so
at all, and in the world that there is then; whatever else it does, tools know of their programs what
they knew before or what they learnt from that look.
-/

namespace LintHub

def Tool.probe : Tool → Probe
  | .external r => r.probe
  | .scripted t => .laid t.available

namespace Hub

/-- What the tool at a place knows of its program. -/
def probe? (h : Hub) (i : ToolId) : Option Probe :=
  (h.toolAt? i).map Tool.probe

/-! ## Changes of a hub -/

/-- Tools know what they knew. -/
structure Rests (h h' : Hub) : Prop where
  names : h'.names = h.names
  probes : ∀ i, h'.probe? i = h.probe? i

/-- Whatever else has changed, tools know what they knew or what they learnt from looking for their
programs in the world that there was. -/
structure Sees (h h' : Hub) : Prop where
  names : h'.names = h.names
  probes : ∀ i, h'.probe? i = h.probe? i ∨ h'.probe? i = (h.probe? i).map (·.looked h.world)

/-- The world has not changed meanwhile. -/
structure Looks (h h' : Hub) : Prop extends Sees h h' where
  world : h'.world = h.world

theorem Rests.refl (h : Hub) : Rests h h :=
  ⟨rfl, fun _ => rfl⟩

theorem Rests.trans {h₁ h₂ h₃ : Hub} (a : Rests h₁ h₂) (b : Rests h₂ h₃) : Rests h₁ h₃ :=
  ⟨b.names.trans a.names, fun i => (b.probes i).trans (a.probes i)⟩

theorem Rests.sees {h h' : Hub} (rests : Rests h h') : Sees h h' :=
  ⟨rests.names, fun i => .inl (rests.probes i)⟩

theorem Looks.refl (h : Hub) : Looks h h :=
  { (Rests.refl h).sees with world := rfl }

theorem looked_looked (w : World) (p : Probe) : (p.looked w).looked w = p.looked w := by
  rcases p with _ | ⟨a, _ | path⟩
  · rfl
  · unfold Probe.looked Probe.path
    dsimp only
    cases found : Bench.locate w a with
    | ok path => rfl
    | error f => simp only [Except.toOption]
  · rfl

theorem Looks.trans {h₁ h₂ h₃ : Hub} (a : Looks h₁ h₂) (b : Looks h₂ h₃) : Looks h₁ h₃ where
  names := b.names.trans a.names
  world := b.world.trans a.world
  probes := fun i => by
    have again := b.probes i
    rw [a.world] at again
    rcases a.probes i with kept | looked
    · rw [kept] at again
      exact again
    · rw [looked, Option.map_map] at again
      have twice : (fun p => Probe.looked h₁.world p) ∘ (fun p => Probe.looked h₁.world p) =
          fun p => p.looked h₁.world := funext (looked_looked h₁.world)
      rw [twice, or_self] at again
      exact .inr again

/-- What is done after a look may change the world. -/
theorem Looks.before {h₁ h₂ h₃ : Hub} (a : Looks h₁ h₂) (b : Rests h₂ h₃) : Sees h₁ h₃ where
  names := b.names.trans a.names
  probes := fun i => by
    rw [b.probes]
    exact a.probes i

/-! ## Single changes -/

theorem world_rests (h : Hub) (w : World) : Rests h { h with world := w } :=
  ⟨rfl, fun _ => rfl⟩

theorem setTool_rests {i : ToolId} {h : Hub} {t t' : Tool} (ht : h.toolAt? i = some t)
    (same : t'.probe = t.probe) : Rests h (h.setTool i t') where
  names := rfl
  probes := fun j => by
    unfold probe?
    by_cases hj : j = i
    · subst hj
      rw [toolAt?_setTool_self ht, ht]
      exact congrArg some same
    · rw [toolAt?_setTool_ne hj]

/-- What tools know after the bench of one of them was set. -/
theorem probe?_setBench (i : ToolId) (spare : Runner) (h : Hub) (b : Bench) (j : ToolId) :
    (h.setBench i b).probe? j = h.probe? j ∨
      h.probe? j = some ((bench i spare).get h).runner.probe ∧
        (h.setBench i b).probe? j = some b.runner.probe := by
  by_cases hj : j = i
  · subst hj
    unfold probe? toolAt? setBench
    rw [List.getElem?_modify_eq]
    cases there : h.tools[j]? with
    | none => exact .inl rfl
    | some t =>
      cases t with
      | scripted t => exact .inl rfl
      | external r =>
        have here : ((bench j spare).get h).runner = r := by
          unfold bench
          simp only [toolAt?, there]
        exact .inr ⟨by rw [here]; rfl, rfl⟩
  · unfold probe?
    rw [toolAt?_setBench_ne hj]
    exact .inl rfl

theorem bench_world (i : ToolId) (spare : Runner) (h : Hub) : ((bench i spare).get h).world = h.world := by
  unfold bench
  dsimp only
  split <;> rfl

theorem setBench_sees {i : ToolId} {spare : Runner} {h : Hub} {b : Bench}
    (sees : Bench.Sees ((bench i spare).get h) b) : Sees h (h.setBench i b) where
  names := rfl
  probes := fun j => by
    rcases probe?_setBench i spare h b j with same | ⟨before, after⟩
    · exact .inl same
    · rw [before, after]
      rw [Bench.Sees, bench_world] at sees
      exact sees.imp (congrArg some) (congrArg some)

/-! ## Acts that change nothing -/

theorem toolAt_still (i : ToolId) : Act.Still (toolAt i) :=
  toolAt_within (R := fun h h' => h' = h) (fun _ => rfl) i

theorem outcome_require (name : String) (h : Hub) :
    (require name).outcome h =
      (match h.idOf? name with
        | some i => .ok i
        | none => .error (.toolNotFound name), h) := by
  unfold require
  rw [Act.outcome_bind_ok (Act.outcome_get h)]
  cases h.idOf? name <;> rfl

theorem require_still (name : String) : Act.Still (require name) := by
  intro h
  rw [outcome_require]

theorem configuration_still (name : String) : Act.Still (configuration name) :=
  .bind (require_still name) fun i => .bind (toolAt_still i) fun _ _ => rfl

theorem validateAt_still (i : ToolId) : Act.Still (validateAt i) := by
  unfold validateAt
  exact .bind (fun _ => rfl) fun h => .bind (toolAt_still i) fun _ _ => rfl

theorem validate_still (name : String) : Act.Still (validate name) :=
  .bind (require_still name) validateAt_still

theorem validateMany_still (names : List String) : Act.Still (validateMany names) :=
  .mapM (fun name => .bind (validate_still name) fun _ _ => rfl) _

theorem checkNames_still (names : List String) : Act.Still (checkNames names) := by
  intro h
  unfold checkNames
  split
  · rfl
  · rw [Act.outcome_bind_ok (Act.outcome_get h)]
    cases names.find? fun name => (h.idOf? name).isNone <;> rfl

section
variable {α : Type} {R : Hub → Hub → Prop}

/-- What is done with a tool depends on what it is. -/
theorem withTool (hrefl : ∀ h, R h h) {i : ToolId} {k : Tool → Act Hub α}
    (hk : ∀ h t, h.toolAt? i = some t → R h ((k t).outcome h).2) : Act.Within R (toolAt i >>= k) := by
  intro h
  cases ht : h.toolAt? i with
  | none =>
    rw [Act.outcome_bind_error (outcome_toolAt_none ht)]
    exact hrefl h
  | some t =>
    rw [Act.outcome_bind_ok (outcome_toolAt ht)]
    exact hk h t ht

/-! ## Acts that look for no program -/

theorem Rests.bind {β : Type} {m : Act Hub α} {k : α → Act Hub β} (hm : Act.Within Rests m)
    (hk : ∀ a, Act.Within Rests (k a)) : Act.Within Rests (m >>= k) :=
  Act.Within.bind hm hk fun _ _ _ => Rests.trans

theorem still_rests {m : Act Hub α} (hm : Act.Still m) : Act.Within Rests m :=
  hm.within Rests.refl

theorem say_rests (level : LogLevel) (tool message : String) : Act.Within Rests (say level tool message) :=
  fun h => world_rests h _

theorem inWorld_rests (m : Act World α) : Act.Within Rests (inWorld m) :=
  fun h => world_rests h _

theorem setRunning_rests (b : Bool) : Act.Within Rests (setRunning b) :=
  fun _ => ⟨rfl, fun _ => rfl⟩

theorem clearCancel_rests : Act.Within Rests clearCancel :=
  fun _ => ⟨rfl, fun _ => rfl⟩

theorem submit_rests : Act.Within Rests submit := by
  refine Rests.bind clearCancel_rests fun _ => Rests.bind (fun h => .refl h) fun h => ?_
  split <;> exact fun h => .refl h

/-- Work on the bench of a tool that looks for no program. -/
theorem bench_rests {m : Act Bench α} (i : ToolId) (spare : Runner)
    (hm : ∀ b, (m.outcome b).2.runner.probe = b.runner.probe) :
    Act.Within Rests ((bench i spare).act m) := by
  intro h
  rw [Act.outcome_view]
  refine ⟨rfl, fun j => ?_⟩
  rcases probe?_setBench i spare h (m.outcome ((bench i spare).get h)).2 j with same | ⟨before, after⟩
  · exact same
  · rw [before, hm] at *
    exact after

theorem remember_rests (i : ToolId) (r : Request) : Act.Within Rests (remember i r) := by
  refine withTool Rests.refl fun h t ht => ?_
  cases t with
  | scripted t => exact setTool_rests ht rfl
  | external runner => exact .refl h

theorem cancelTool_rests (i : ToolId) : Act.Within Rests (cancelTool i) := by
  refine withTool Rests.refl fun h t ht => ?_
  cases t with
  | scripted t => exact setTool_rests ht rfl
  | external runner =>
    refine bench_rests i runner (fun b => ?_) h
    unfold Bench.cancel
    rw [Act.outcome_bind_ok (Act.outcome_get b)]
    split <;> rfl

theorem stopTool_rests (i : ToolId) : Act.Within Rests (stopTool i) := by
  refine withTool Rests.refl fun h t ht => ?_
  cases t with
  | scripted t => exact setTool_rests ht rfl
  | external runner => exact .refl h

theorem cancel_rests : Act.Within Rests cancel := by
  refine Rests.bind (fun h => ⟨rfl, fun _ => rfl⟩) fun _ => Rests.bind (fun h => .refl h) fun h => ?_
  refine Rests.bind (.forM (fun p => ?_) Rests.refl fun _ _ _ => Rests.trans) fun _ h => .refl h
  refine Rests.bind (still_rests (toolAt_still _)) fun t => ?_
  split
  · refine Rests.bind (say_rests _ _ _) fun _ => Rests.bind (cancelTool_rests _) fun _ h => .refl h
  · exact fun h => .refl h

theorem shutdown_rests : Act.Within Rests shutdown :=
  Rests.bind (fun h => .refl h) fun _ =>
    .forM (fun p => stopTool_rests p.2) Rests.refl fun _ _ _ => Rests.trans

theorem probe_configure {o : Offer} {t t' : Tool} (takes : t.configure o = .ok t') :
    t'.probe = t.probe := by
  cases t with
  | scripted t =>
    cases takes
    rfl
  | external r =>
    cases o with
    | value v => cases takes
    | config c =>
      unfold Tool.configure at takes
      dsimp only at takes
      split at takes <;> cases takes
      rfl

theorem configureAt_rests (i : ToolId) (o : Offer) : Act.Within Rests (configureAt i o) := by
  refine withTool Rests.refl fun h t ht => ?_
  rw [Act.outcome_bind, Act.outcome_except]
  cases takes : t.configure o with
  | error f => exact .refl h
  | ok t' => exact setTool_rests ht (probe_configure takes)

theorem analysisOfFile_rests (i : ToolId) (output source : String) :
    Act.Within Rests (analysisOfFile i output source) := by
  refine withTool Rests.refl fun h t ht => ?_
  cases t with
  | scripted t => exact .refl h
  | external runner =>
    refine bench_rests i runner (fun b => congrArg Runner.probe ?_) h
    have reads : Act.Within Bench.Rests (Bench.analysisOfFile output source) := by
      refine Bench.Rests.bind Bench.Rests.get fun b => Bench.Rests.bind (.attempt ?_) fun e => ?_
      · exact Bench.Rests.bind (Bench.Rests.except _) fun text => Bench.readReport_rests _ _
      · rcases e with f | ⟨issues, files⟩
        · dsimp only
          split
          · exact Bench.Rests.pure _
          · exact fun b => rfl
        · exact Bench.Rests.pure _
    exact reads b

theorem stopsBefore_rests (name : String) : Act.Within Rests (stopsBefore name) := by
  intro h
  rw [outcome_stopsBefore]
  split
  · exact world_rests h _
  · exact .refl h

/-! ## Acts that look for programs -/

theorem bench_sees {m : Act Bench α} (i : ToolId) (spare : Runner) (hm : Act.Within Bench.Sees m) :
    Act.Within Sees ((bench i spare).act m) := fun h =>
  setBench_sees (hm ((bench i spare).get h))

theorem bench_looks {m : Act Bench α} (i : ToolId) (spare : Runner) (hm : Act.Within Bench.Looks m) :
    Act.Within Looks ((bench i spare).act m) := by
  intro h
  refine { bench_sees i spare (fun b => (hm b).moves.sees) h with world := ?_ }
  rw [Act.outcome_view]
  rcases hm ((bench i spare).get h) with same | same <;>
    exact (congrArg Bench.world same).trans (bench_world i spare h)

theorem outcome_isAvailable_none {i : ToolId} {h : Hub} (ht : h.toolAt? i = none) :
    (isAvailable i).outcome h = (.error (.toolNotFound ""), h) :=
  Act.outcome_bind_error (outcome_toolAt_none ht)

theorem outcome_isAvailable_scripted {i : ToolId} {h : Hub} {t : ScriptedTool}
    (ht : h.toolAt? i = some (.scripted t)) : (isAvailable i).outcome h = (.ok t.available, h) :=
  Act.outcome_bind_ok (outcome_toolAt ht)

theorem outcome_isAvailable_external {i : ToolId} {h : Hub} {r : Runner}
    (ht : h.toolAt? i = some (.external r)) :
    (isAvailable i).outcome h =
      ((⟨r, h.world⟩ : Bench).seen.map (!·.isEmpty), h.setBench i (⟨r, h.world⟩ : Bench).looked) := by
  have here : (bench i r).get h = ⟨r, h.world⟩ := by
    unfold bench
    simp only [ht]
  unfold isAvailable
  rw [Act.outcome_bind_ok (outcome_toolAt ht)]
  dsimp only
  rw [Act.outcome_view, here, Bench.outcome_isAvailable_eq]
  rfl

theorem isAvailable_looks (i : ToolId) : Act.Within Looks (isAvailable i) := by
  refine withTool Looks.refl fun h t _ => ?_
  cases t with
  | scripted t => exact Looks.refl h
  | external r => exact bench_looks i r Bench.isAvailable_looks h

theorem pathOf_looks (i : ToolId) : Act.Within Looks (pathOf i) := by
  refine withTool Looks.refl fun h t _ => ?_
  cases t with
  | scripted t => exact Looks.refl h
  | external r => exact bench_looks i r Bench.executablePath_looks h

theorem commandLine_looks (i : ToolId) (r : Request) : Act.Within Looks (commandLine i r) := by
  refine withTool Looks.refl fun h t _ => ?_
  cases t with
  | scripted t => exact Looks.refl h
  | external runner => exact bench_looks i runner (Bench.commandLine_looks r) h

theorem versionOf_sees (i : ToolId) : Act.Within Sees (versionOf i) := by
  refine withTool (fun h => (Looks.refl h).toSees) fun h t _ => ?_
  cases t with
  | scripted t => exact (Looks.refl h).toSees
  | external r => exact bench_sees i r Bench.version_sees h

theorem readyTool_sees (name : String) : Act.Within Sees (readyTool name) := by
  intro h
  rw [outcome_readyTool]
  cases h.idOf? name with
  | none => exact (world_rests h _).sees
  | some i =>
    have looked := isAvailable_looks i h
    dsimp only
    generalize (isAvailable i).outcome h = found at looked
    rcases found with ⟨f | _ | _, h₁⟩
    · exact looked.toSees
    · exact looked.before (world_rests h₁ _)
    · exact looked.toSees

end

end Hub

end LintHub
