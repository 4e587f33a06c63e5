import LintHub.Proofs.Lists
import LintHub.Proofs.Run.Frame
import LintHub.Hub.Batch

/-! # What the turn of a tool can touch

`Kept` is what every step of a batch keeps, apart from what scripted tools remember of the requests
they get. `Apart i` is what is kept besides while nobody cancels: the flag, and every tool but the
one at `i`.
-/

namespace LintHub

/-- A scripted tool after it was asked for more. -/
def ScriptedTool.asked (t : ScriptedTool) (rs : List Request) : ScriptedTool :=
  { t with requests := t.requests ++ rs }

theorem ScriptedTool.asked_nil (t : ScriptedTool) : t.asked [] = t := by
  unfold asked
  rw [List.append_nil]

/-- A scripted tool as it is while nobody cancels it. -/
def Tool.player? : Tool → Option ScriptedTool
  | scripted t => some { t with cancelled := false }
  | external _ => none

namespace Hub

def player? (h : Hub) (i : ToolId) : Option ScriptedTool :=
  (h.toolAt? i).bind Tool.player?

structure Kept (h h' : Hub) : Prop where
  names : h'.names = h.names
  running : h'.running = h.running
  cancelled : h.cancelled = true → h'.cancelled = true
  players : ∀ i, h'.player? i = h.player? i

structure Apart (i : ToolId) (h h' : Hub) : Prop extends Kept h h' where
  flag : h'.cancelled = h.cancelled
  others : ∀ j, j ≠ i → h'.toolAt? j = h.toolAt? j

theorem Kept.refl (h : Hub) : Kept h h :=
  ⟨rfl, rfl, fun hc => hc, fun _ => rfl⟩

theorem Kept.trans {h₁ h₂ h₃ : Hub} (a : Kept h₁ h₂) (b : Kept h₂ h₃) : Kept h₁ h₃ where
  names := b.names.trans a.names
  running := b.running.trans a.running
  cancelled := fun hc => b.cancelled (a.cancelled hc)
  players := fun i => (b.players i).trans (a.players i)

theorem Apart.refl (i : ToolId) (h : Hub) : Apart i h h :=
  { Kept.refl h with flag := rfl, others := fun _ _ => rfl }

theorem Apart.trans {i : ToolId} {h₁ h₂ h₃ : Hub} (a : Apart i h₁ h₂) (b : Apart i h₂ h₃) :
    Apart i h₁ h₃ :=
  { a.toKept.trans b.toKept with
    flag := b.flag.trans a.flag
    others := fun j hj => (b.others j hj).trans (a.others j hj) }

/-! ## Single changes -/

theorem world_apart (i : ToolId) (h : Hub) (w : World) : Apart i h { h with world := w } where
  names := rfl
  running := rfl
  cancelled := fun hc => hc
  players := fun _ => rfl
  flag := rfl
  others := fun _ _ => rfl

theorem toolAt?_setTool_ne {i j : ToolId} (hj : j ≠ i) (h : Hub) (t : Tool) :
    (h.setTool i t).toolAt? j = h.toolAt? j := by
  unfold toolAt? setTool
  exact List.getElem?_set_ne (Ne.symm hj)

theorem toolAt?_setTool_self {i : ToolId} {h : Hub} {t : Tool} (ht : h.toolAt? i = some t)
    (t' : Tool) : (h.setTool i t').toolAt? i = some t' := by
  obtain ⟨hi, -⟩ := List.getElem?_eq_some_iff.mp ht
  unfold toolAt? setTool
  exact List.getElem?_set_self hi

theorem toolAt?_setBench_ne {i j : ToolId} (hj : j ≠ i) (h : Hub) (b : Bench) :
    (h.setBench i b).toolAt? j = h.toolAt? j := by
  unfold toolAt? setBench
  exact List.getElem?_modify_ne _ _ (Ne.symm hj)

theorem player?_setBench (i j : ToolId) (h : Hub) (b : Bench) :
    (h.setBench i b).player? j = h.player? j := by
  unfold player?
  by_cases hj : j = i
  · subst hj
    unfold toolAt? setBench
    rw [List.getElem?_modify_eq]
    rcases h.tools[j]? with _ | _ | t <;> rfl
  · rw [toolAt?_setBench_ne hj]

theorem setBench_apart (i : ToolId) (h : Hub) (b : Bench) : Apart i h (h.setBench i b) where
  names := rfl
  running := rfl
  cancelled := fun hc => hc
  players := fun j => player?_setBench i j h b
  flag := rfl
  others := fun _ hj => toolAt?_setBench_ne hj h b

/-- A scripted tool is changed in nothing but its mark of having been cancelled. -/
theorem setTool_kept {i : ToolId} {h : Hub} {t : ScriptedTool}
    (ht : h.toolAt? i = some (.scripted t)) (c : Bool) :
    Kept h (h.setTool i (.scripted { t with cancelled := c })) where
  names := rfl
  running := rfl
  cancelled := fun hc => hc
  players := fun j => by
    unfold player?
    by_cases hj : j = i
    · subst hj
      rw [toolAt?_setTool_self ht, ht]
      rfl
    · rw [toolAt?_setTool_ne hj]

/-! ## Acts -/

theorem outcome_toolAt {i : ToolId} {h : Hub} {t : Tool} (ht : h.toolAt? i = some t) :
    (toolAt i).outcome h = (.ok t, h) := by
  unfold toolAt
  rw [Act.outcome_bind]
  simp [ht]

theorem outcome_toolAt_none {i : ToolId} {h : Hub} (ht : h.toolAt? i = none) :
    (toolAt i).outcome h = (.error (.toolNotFound ""), h) := by
  unfold toolAt
  rw [Act.outcome_bind]
  simp [ht]

/-- The hub after a message about a tool. -/
def noted (h : Hub) (level : LogLevel) (tool message : String) : Hub :=
  { h with world := h.world.record ⟨level, .orchestrator, message, some tool, none, none⟩ }

@[simp] theorem outcome_say (level : LogLevel) (tool message : String) (h : Hub) :
    (say level tool message).outcome h = (.ok (), h.noted level tool message) := rfl

/-- The hub with one more tool. -/
def enter (h : Hub) (t : Tool) : Hub :=
  { h with tools := h.tools ++ [t], names := setNamed h.names t.name h.tools.length }

theorem outcome_register {t : Tool} (named : t.name ≠ "") (h : Hub) :
    (register (some t)).outcome h =
      (.ok (), (h.enter t).noted .info t.name ("Registered tool " ++ t.name)) := by
  unfold register
  simp only [String.isEmpty_iff, if_neg named]
  rfl

theorem noted_apart (i : ToolId) (h : Hub) (level : LogLevel) (tool message : String) :
    Apart i h (h.noted level tool message) :=
  world_apart i h _

theorem bench_apart {α : Type} (i : ToolId) (spare : Runner) (m : Act Bench α) :
    Act.Within (Apart i) ((bench i spare).act m) :=
  fun h => setBench_apart i h _

theorem toolAt_within {R : Hub → Hub → Prop} (hrefl : ∀ h, R h h) (i : ToolId) :
    Act.Within R (toolAt i) := by
  intro h
  cases ht : h.toolAt? i with
  | none =>
    rw [outcome_toolAt_none ht]
    exact hrefl h
  | some t =>
    rw [outcome_toolAt ht]
    exact hrefl h

theorem isAvailable_apart (i : ToolId) : Act.Within (Apart i) (isAvailable i) := by
  refine .bind (toolAt_within (Apart.refl i) i) (fun t => ?_) fun _ _ _ => Apart.trans
  cases t with
  | scripted t => exact Apart.refl i
  | external r => exact bench_apart i r _

theorem cancelTool_kept (i : ToolId) : Act.Within Kept (cancelTool i) := by
  intro h
  unfold cancelTool
  cases ht : h.toolAt? i with
  | none =>
    rw [Act.outcome_bind_error (outcome_toolAt_none ht)]
    exact Kept.refl h
  | some t =>
    rw [Act.outcome_bind_ok (outcome_toolAt ht)]
    cases t with
    | scripted t => exact setTool_kept ht true
    | external r => exact (bench_apart i r Bench.cancel h).toKept

/-- Once the flag is set, nothing that a cancel still does is more than a mark or a message. -/
theorem cancel_after_flag (h : Hub) : Kept { h with cancelled := true } (cancel.outcome h).2 := by
  unfold cancel
  rw [Act.outcome_bind_ok (Act.outcome_modify _ h)]
  rw [Act.outcome_bind_ok (Act.outcome_get _)]
  generalize ({ h with cancelled := true } : Hub) = h₁
  refine Act.Within.bind ?_ (fun _ => .pure Kept.refl true) (fun _ _ _ => Kept.trans) h₁
  refine .forM (fun p => ?_) Kept.refl fun _ _ _ => Kept.trans
  refine .bind (toolAt_within Kept.refl _) (fun t => ?_) fun _ _ _ => Kept.trans
  split
  · refine .bind (fun h => (noted_apart 0 h _ _ _).toKept) (fun _ => ?_) fun _ _ _ => Kept.trans
    exact .bind (cancelTool_kept _) (fun _ => Kept.refl) fun _ _ _ => Kept.trans
  · exact Kept.refl

theorem cancel_kept : Act.Within Kept cancel := by
  intro h
  have flagged : Kept h { h with cancelled := true } :=
    ⟨rfl, rfl, fun _ => rfl, fun _ => rfl⟩
  exact flagged.trans (cancel_after_flag h)

/-- Whatever becomes of the tools, the batches that go on have been asked to stop. -/
theorem cancel_sets (h : Hub) : (cancel.outcome h).2.cancelled = true :=
  (cancel_after_flag h).cancelled rfl

/-! ## Runs of tools -/

theorem execute_external {i : ToolId} {h : Hub} {runner : Runner}
    (ht : h.toolAt? i = some (.external runner)) (r : Request) :
    Apart i h ((execute View.whole i r).outcome h).2 := by
  unfold execute
  rw [Work.outcome_bind_ok (Work.outcome_whole _ h ▸ outcome_toolAt ht)]
  exact Work.Within.outcome (Execution.execute_within (fun s b _ => setBench_apart i s b)
    Listeners.nobody_within r) (Apart.refl i) (fun _ _ _ => Apart.trans) h

/-- The hub after the scripted tool `t` at `i` was asked for something. -/
def reminded (h : Hub) (i : ToolId) (t : ScriptedTool) (r : Request) : Hub :=
  h.setTool i (.scripted (t.asked [r]))

theorem outcome_remember {i : ToolId} {h : Hub} {t : ScriptedTool}
    (ht : h.toolAt? i = some (.scripted t)) (r : Request) :
    (remember i r).outcome h = (.ok (), h.reminded i t r) := by
  unfold remember
  rw [Act.outcome_bind_ok (outcome_toolAt ht)]
  simp [reminded, ScriptedTool.asked]

theorem execute_quiet {i : ToolId} {h : Hub} {t : ScriptedTool}
    (ht : h.toolAt? i = some (.scripted t)) (quiet : t.script.cancels = false) (r : Request) :
    (execute View.whole i r).outcome h = (t.outcome h.world.stamp, h.reminded i t r) := by
  unfold execute play
  rw [Work.outcome_bind_ok (Work.outcome_whole _ h ▸ outcome_toolAt ht)]
  dsimp only
  rw [Work.outcome_bind_ok (Work.outcome_whole _ h ▸ outcome_remember ht r)]
  cases t.script.waits <;> simp [quiet, Work.outcome_bind, Act.outcome_bind, reminded, setTool]

theorem execute_cancels {i : ToolId} {h : Hub} {t : ScriptedTool}
    (ht : h.toolAt? i = some (.scripted t)) (cancels : t.script.cancels = true) (r : Request) :
    ((execute View.whole i r).outcome h).2 = (cancel.outcome (h.reminded i t r)).2 := by
  unfold execute play
  rw [Work.outcome_bind_ok (Work.outcome_whole _ h ▸ outcome_toolAt ht)]
  dsimp only
  rw [Work.outcome_bind_ok (Work.outcome_whole _ h ▸ outcome_remember ht r)]
  have said : ((discard (View.whole.work cancel) : Work Hub Unit).outcome (h.reminded i t r)).2 =
      (cancel.outcome (h.reminded i t r)).2 := by
    rw [Work.outcome_discard, Work.outcome_whole]
  cases t.script.waits <;>
    simp only [cancels, if_true, if_false, Bool.false_eq_true, Work.outcome_bind, Work.outcome_pause] <;>
    rw [← said] <;>
    rcases (discard (View.whole.work cancel) : Work Hub Unit).outcome (h.reminded i t r) with
      ⟨_ | _, h₁⟩ <;>
    simp [Act.outcome_bind]

/-- What running the tool at `i` leaves as it was: a scripted tool there remembers what it was asked
for, and one that cancels sets the flag and leaves its marks. -/
structure Touched (i : ToolId) (rs : List Request) (cancels : Bool) (h h' : Hub) : Prop where
  names : h'.names = h.names
  running : h'.running = h.running
  players : ∀ j, h'.player? j = (h.player? j).map (·.asked (if i = j then rs else []))
  flag : h'.cancelled = (h.cancelled || cancels)
  others : cancels = false → ∀ j, j ≠ i → h'.toolAt? j = h.toolAt? j

theorem map_asked_nil (p : Option ScriptedTool) : p.map (·.asked []) = p := by
  cases p with
  | none => rfl
  | some t => exact congrArg some t.asked_nil

theorem Apart.touched {i : ToolId} {h h' : Hub} (apart : Apart i h h') : Touched i [] false h h' where
  names := apart.names
  running := apart.running
  players := fun j => by rw [ite_self, map_asked_nil, apart.players]
  flag := by rw [apart.flag, Bool.or_false]
  others := fun _ => apart.others

theorem Touched.trans_apart {i : ToolId} {rs : List Request} {c : Bool} {h₁ h₂ h₃ : Hub}
    (a : Touched i rs c h₁ h₂) (b : Apart i h₂ h₃) : Touched i rs c h₁ h₃ where
  names := b.names.trans a.names
  running := b.running.trans a.running
  players := fun j => (b.players j).trans (a.players j)
  flag := b.flag.trans a.flag
  others := fun hc j hj => (b.others j hj).trans (a.others hc j hj)

theorem Apart.trans_touched {i : ToolId} {rs : List Request} {c : Bool} {h₁ h₂ h₃ : Hub}
    (a : Apart i h₁ h₂) (b : Touched i rs c h₂ h₃) : Touched i rs c h₁ h₃ where
  names := b.names.trans a.names
  running := b.running.trans a.running
  players := fun j => by rw [b.players, a.players]
  flag := by rw [b.flag, a.flag]
  others := fun hc j hj => (b.others hc j hj).trans (a.others j hj)

theorem player?_reminded {i : ToolId} {h : Hub} {t : ScriptedTool}
    (ht : h.toolAt? i = some (.scripted t)) (r : Request) (j : ToolId) :
    (h.reminded i t r).player? j = (h.player? j).map (·.asked (if i = j then [r] else [])) := by
  unfold player? reminded
  by_cases hj : j = i
  · subst hj
    rw [toolAt?_setTool_self ht, ht, if_pos rfl]
    rfl
  · rw [toolAt?_setTool_ne hj, if_neg (Ne.symm hj), map_asked_nil]

theorem reminded_touched {i : ToolId} {h : Hub} {t : ScriptedTool}
    (ht : h.toolAt? i = some (.scripted t)) (r : Request) :
    Touched i [r] false h (h.reminded i t r) where
  names := rfl
  running := rfl
  players := player?_reminded ht r
  flag := (Bool.or_false _).symm
  others := fun _ _ hj => toolAt?_setTool_ne hj h _

/-- Whether there is a scripted tool at a place that cancels everything when it is run. -/
def cancelsAt (h : Hub) (i : ToolId) : Bool :=
  (h.player? i).any fun t => t.script.cancels

/-- A tool that is not scripted remembers nothing. -/
theorem Apart.touched_absent {i : ToolId} {h h' : Hub} (apart : Apart i h h')
    (absent : h.player? i = none) (rs : List Request) : Touched i rs false h h' :=
  { apart.touched with
    players := fun j => by
      rw [apart.players]
      by_cases hj : i = j
      · subst hj
        rw [absent]
        rfl
      · rw [if_neg hj, map_asked_nil] }

theorem execute_touched (i : ToolId) (r : Request) (h : Hub) :
    Touched i [r] (h.cancelsAt i) h ((execute View.whole i r).outcome h).2 := by
  unfold cancelsAt
  cases ht : h.toolAt? i with
  | none =>
    have absent : h.player? i = none := by
      unfold player?
      rw [ht]
      rfl
    have fails : (execute View.whole i r).outcome h = (.error (.toolNotFound ""), h) := by
      unfold execute
      rw [Work.outcome_bind_error (Work.outcome_whole _ h ▸ outcome_toolAt_none ht)]
    rw [absent, fails]
    exact (Apart.refl i h).touched_absent absent [r]
  | some t =>
    cases t with
    | external runner =>
      have absent : h.player? i = none := by
        unfold player?
        rw [ht]
        rfl
      rw [absent]
      exact (execute_external ht r).touched_absent absent [r]
    | scripted t =>
      have there : h.player? i = some { t with cancelled := false } := by
        unfold player?
        rw [ht]
        rfl
      rw [there]
      have remembers := reminded_touched ht r
      cases cancels : t.script.cancels with
      | false =>
        rw [execute_quiet ht cancels r]
        simpa [cancels] using remembers
      | true =>
        rw [execute_cancels ht cancels r]
        have kept := cancel_kept (h.reminded i t r)
        exact
          { names := kept.names.trans remembers.names
            running := kept.running.trans remembers.running
            players := fun j => (kept.players j).trans (remembers.players j)
            flag := by simp [cancels, cancel_sets]
            others := fun hc => by simp [cancels] at hc }

/-! ## Small hubs -/

/-- A hub with some tools, each under its own name. -/
def holding (w : World) (tools : List Tool) : Hub :=
  { Hub.new w with tools, names := tools.mapIdx fun i t => (t.name, i) }

/-- An available tool that finds nothing. -/
def quietTool (name : String) : Tool :=
  .scripted (.new (.quiet name) true)

/-- A request with nothing set but where the report goes. -/
def reportTo (output : String) : Request :=
  ⟨.str ".", .str output, [], [], []⟩

end Hub

end LintHub
