import LintHub.Proofs.Batch.Frame

/-! # The turn of a tool

A batch is a chain of turns. A turn is skipped, refused, broken off or run to an end; `TurnOf` has one
rule for each way it can go, and `Breaks` one for each way a turn can take the whole batch with it.
-/

namespace LintHub

instance {σ : Type} : LawfulMonad (Routine σ) :=
  LawfulMonad.mk' (Routine σ) Routine.bind_pure (fun _ _ => rfl) Routine.bind_assoc

namespace Hub

section
variable {σ : Type} (v : View σ Hub)

/-- The turn of a tool: its analysis, or none if the tool is not available. -/
def turn (r : Request) (listener : Option (BatchListener σ)) (name : String) :
    Work σ (Option Analysis) := do
  match ← v.work (readyTool name) with
  | none => return none
  | some i =>
    let own ← Work.ofExcept (requestFor name r)
    return some (← runTool v name i own listener)

theorem runNames_cons (r : Request) (listener : Option (BatchListener σ)) (name : String)
    (names : List String) :
    runNames v r listener (name :: names) = (do
      if ← v.work (stopsBefore name) then return []
      else
        match ← turn v r listener name with
        | none => runNames v r listener names
        | some a => return a :: (← runNames v r listener names)) := by
  unfold turn
  rw [runNames]
  congr 1
  funext stops
  cases stops with
  | true => rfl
  | false =>
    simp only [Bool.false_eq_true, if_false, bind_assoc]
    congr 1
    funext i
    cases i with
    | none => simp only [pure_bind]
    | some i => simp only [bind_assoc, pure_bind]

end

/-! ## The ways a turn can go -/

/-- How the turn of a tool went. -/
inductive Fate where
  | skipped
  /-- The configuration has errors. -/
  | refused (found : Validation)
  /-- The configuration could not be checked. -/
  | unchecked (f : Fault)
  | raised (i : ToolId) (own : Request) (f : Fault)
  | ended (i : ToolId) (own : Request) (a : Analysis)

namespace Fate

/-- The tool that was run, and the request it was run with. -/
def ran? : Fate → Option (ToolId × Request)
  | raised i own _ | ended i own _ => some (i, own)
  | _ => none

/-- What the tool at a place was asked for. -/
def received (fate : Fate) (j : ToolId) : List Request :=
  match fate.ran? with
  | some (i, own) => if i = j then [own] else []
  | none => []

/-- Why there is no analysis of the tool's own, if the turn was not skipped. -/
def complaint? : Fate → Option String
  | refused found => some ("Invalid configuration: " ++ String.intercalate "; " found.errors)
  | unchecked f | raised _ _ f => some ("Tool execution failed: " ++ reason f)
  | _ => none

/-- Whether a scripted tool was run that cancels everything. -/
def cancels (fate : Fate) (h : Hub) : Bool :=
  match fate.ran? with
  | some (i, _) => h.cancelsAt i
  | none => false

end Fate

/-- The hub after the warnings about a configuration. -/
def warned (h : Hub) (name : String) : List String → Hub
  | [] => h
  | w :: ws => (h.noted .warning name w).warned name ws

/-- The hub after it was reported that a tool failed. -/
def reported (h : Hub) (name : String) (f : Fault) : Hub :=
  { h with
    world := h.world.record
      ⟨.error, .orchestrator, s!"Tool {name} failed", some name, none, some f⟩ }

/-- The hub as a tool finds it that is run after its configuration was checked. -/
def begun (h : Hub) (name : String) (found : Validation) : Hub :=
  (h.warned name found.warnings).noted .info name s!"Running {name} ..."

/-- A name leads to a tool whose program can be found. -/
def Ready (h : Hub) (name : String) (i : ToolId) (h₁ : Hub) : Prop :=
  h.idOf? name = some i ∧ (isAvailable i).outcome h = (.ok true, h₁)

inductive TurnOf (r : Request) (name : String) : Hub → Fate → Hub → Prop where
  | unknown {h : Hub} (nowhere : h.idOf? name = none) :
    TurnOf r name h .skipped (h.noted .info name ("Skipping unavailable tool " ++ name))
  | skipped {h h₁ : Hub} {i : ToolId} (leads : h.idOf? name = some i)
    (missing : (isAvailable i).outcome h = (.ok false, h₁)) :
    TurnOf r name h .skipped (h₁.noted .info name ("Skipping unavailable tool " ++ name))
  | refused {h h₁ : Hub} {i : ToolId} {own : Request} {found : Validation}
    (ready : h.Ready name i h₁) (asks : requestFor name r = .ok own)
    (checks : (validateForAt i own).outcome h₁ = (.ok found, h₁)) (bad : found.isValid = false) :
    TurnOf r name h (.refused found) (h₁.warned name found.warnings)
  | unchecked {h h₁ : Hub} {i : ToolId} {own : Request} {f : Fault}
    (ready : h.Ready name i h₁) (asks : requestFor name r = .ok own)
    (checks : (validateForAt i own).outcome h₁ = (.error f, h₁)) :
    TurnOf r name h (.unchecked f) (h₁.reported name f)
  | raised {h h₁ h₂ : Hub} {i : ToolId} {own : Request} {found : Validation} {f : Fault}
    (ready : h.Ready name i h₁) (asks : requestFor name r = .ok own)
    (checks : (validateForAt i own).outcome h₁ = (.ok found, h₁)) (good : found.isValid = true)
    (runs : (execute View.whole i own).outcome (h₁.begun name found) = (.error f, h₂)) :
    TurnOf r name h (.raised i own f) (h₂.reported name f)
  | ended {h h₁ h₂ : Hub} {i : ToolId} {own : Request} {found : Validation} {a : Analysis}
    (ready : h.Ready name i h₁) (asks : requestFor name r = .ok own)
    (checks : (validateForAt i own).outcome h₁ = (.ok found, h₁)) (good : found.isValid = true)
    (runs : (execute View.whole i own).outcome (h₁.begun name found) = (.ok a, h₂)) :
    TurnOf r name h (.ended i own a) h₂

/-- The turn of a tool takes the whole batch with it. -/
inductive Breaks (r : Request) (name : String) : Hub → Fault → Hub → Prop where
  /-- Looking for the program of the tool fails. -/
  | probe {h h₁ : Hub} {i : ToolId} {f : Fault} (leads : h.idOf? name = some i)
    (fails : (isAvailable i).outcome h = (.error f, h₁)) : Breaks r name h f h₁
  /-- There is no file of its own that the report of the tool could go to. -/
  | path {h h₁ : Hub} {i : ToolId} {f : Fault} (ready : h.Ready name i h₁)
    (fails : requestFor name r = .error f) : Breaks r name h f h₁

/-- The turn of a tool in a batch. -/
structure Turn where
  name : String
  before : Hub
  fate : Fate
  after : Hub

/-- The analysis that a turn adds to those of the batch. -/
def Turn.result? (t : Turn) : Option Analysis :=
  match t.fate.complaint? with
  | some why => some (Analysis.failed t.after.world.stamp t.name why)
  | none =>
    match t.fate with
    | .ended _ _ a => some a.explained
    | _ => none

/-! ## Outcomes -/

theorem outcome_stopsBefore (name : String) (h : Hub) :
    (stopsBefore name).outcome h =
      if h.cancelled then (.ok true, h.noted .info name ("Batch cancelled before " ++ name))
      else (.ok false, h) := by
  unfold stopsBefore
  rw [Act.outcome_bind_ok (Act.outcome_get h)]
  cases h.cancelled <;> rfl

theorem outcome_readyTool (name : String) (h : Hub) :
    (readyTool name).outcome h =
      match h.idOf? name with
      | none => (.ok none, h.noted .info name ("Skipping unavailable tool " ++ name))
      | some i =>
        match (isAvailable i).outcome h with
        | (.ok true, h₁) => (.ok (some i), h₁)
        | (.ok false, h₁) =>
          (.ok none, h₁.noted .info name ("Skipping unavailable tool " ++ name))
        | (.error f, h₁) => (.error f, h₁) := by
  unfold readyTool readyTool.skip
  rw [Act.outcome_bind_ok (Act.outcome_get h)]
  cases h.idOf? name with
  | none => rfl
  | some i =>
    dsimp only
    rw [Act.outcome_bind]
    rcases (isAvailable i).outcome h with ⟨_ | _ | _, h₁⟩ <;> rfl

theorem outcome_forM_say (name : String) (ws : List String) (h : Hub) :
    (ws.forM fun w => (View.whole : View Hub Hub).work (say .warning name w)).outcome h =
      (.ok (), h.warned name ws) := by
  induction ws generalizing h with
  | nil => rfl
  | cons w ws ih =>
    show (_ >>= fun _ => ws.forM _ : Work Hub PUnit).outcome h = _
    rw [Work.outcome_bind_ok (Work.outcome_whole _ h ▸ outcome_say _ _ _ h)]
    exact ih _

/-- The configuration of a tool is only looked at. -/
theorem outcome_validateForAt_state (i : ToolId) (r : Request) (h : Hub) :
    ((validateForAt i r).outcome h).2 = h := by
  unfold validateForAt
  rw [Act.outcome_bind_ok (Act.outcome_get h)]
  cases ht : h.toolAt? i with
  | none => rw [Act.outcome_bind_error (outcome_toolAt_none ht)]
  | some t =>
    rw [Act.outcome_bind_ok (outcome_toolAt ht)]
    rfl

theorem outcome_checkAndRun_unchecked {name : String} {i : ToolId} {r : Request} {h : Hub} {f : Fault}
    (checks : (validateForAt i r).outcome h = (.error f, h)) :
    (checkAndRun View.whole name i r none).outcome h = (.error f, h) := by
  unfold checkAndRun
  rw [Work.outcome_bind_error (Work.outcome_whole _ h ▸ checks)]

theorem outcome_checkAndRun_refused {name : String} {i : ToolId} {r : Request} {h : Hub}
    {found : Validation} (checks : (validateForAt i r).outcome h = (.ok found, h))
    (bad : found.isValid = false) :
    (checkAndRun View.whole name i r none).outcome h =
      (.ok (Analysis.failed (h.warned name found.warnings).world.stamp name
        ("Invalid configuration: " ++ String.intercalate "; " found.errors)),
        h.warned name found.warnings) := by
  unfold checkAndRun
  rw [Work.outcome_bind_ok (Work.outcome_whole _ h ▸ checks)]
  rw [Work.outcome_bind_ok (outcome_forM_say name found.warnings h)]
  rw [bad]
  rfl

theorem outcome_checkAndRun_run {name : String} {i : ToolId} {r : Request} {h : Hub}
    {found : Validation} (checks : (validateForAt i r).outcome h = (.ok found, h))
    (good : found.isValid = true) :
    (checkAndRun View.whole name i r none).outcome h =
      (execute View.whole i r).outcome (h.begun name found) := by
  unfold checkAndRun
  rw [Work.outcome_bind_ok (Work.outcome_whole _ h ▸ checks)]
  rw [Work.outcome_bind_ok (outcome_forM_say name found.warnings h)]
  rw [good]
  rfl

theorem outcome_runTool_ok {name : String} {i : ToolId} {r : Request} {h h₁ : Hub} {a : Analysis}
    (runs : (checkAndRun View.whole name i r none).outcome h = (.ok a, h₁)) :
    (runTool View.whole name i r none).outcome h = (.ok a.explained, h₁) := by
  unfold runTool
  rw [Work.outcome_bind_ok (Work.outcome_attempt _ h), runs]
  rfl

theorem outcome_runTool_error {name : String} {i : ToolId} {r : Request} {h h₁ : Hub} {f : Fault}
    (runs : (checkAndRun View.whole name i r none).outcome h = (.error f, h₁)) :
    (runTool View.whole name i r none).outcome h =
      (.ok (Analysis.failed (h₁.reported name f).world.stamp name
        ("Tool execution failed: " ++ reason f)), h₁.reported name f) := by
  unfold runTool
  rw [Work.outcome_bind_ok (Work.outcome_attempt _ h), runs]
  rfl

/-- The turn of a tool that is there. -/
theorem outcome_turn_ready {name : String} {h h₁ : Hub} {i : ToolId} {r own : Request}
    (ready : h.Ready name i h₁) (asks : requestFor name r = .ok own) :
    (turn View.whole r none name).outcome h =
      ((runTool View.whole name i own none).outcome h₁).map (.map some) id := by
  have found : (readyTool name).outcome h = (.ok (some i), h₁) := by
    rw [outcome_readyTool, ready.1]
    dsimp only
    rw [ready.2]
  unfold turn
  rw [Work.outcome_bind_ok (Work.outcome_whole _ h ▸ found)]
  dsimp only
  rw [asks, Work.outcome_bind_ok (Work.outcome_ofExcept _ h₁), Work.outcome_bind]
  rcases (runTool View.whole name i own none).outcome h₁ with ⟨_ | _, _⟩ <;> rfl

theorem TurnOf.outcome {r : Request} {name : String} {h h' : Hub} {fate : Fate}
    (taken : TurnOf r name h fate h') :
    (turn View.whole r none name).outcome h = (.ok (Turn.mk name h fate h').result?, h') := by
  cases taken with
  | unknown nowhere =>
    unfold turn
    rw [Work.outcome_bind, Work.outcome_whole, outcome_readyTool, nowhere]
    rfl
  | skipped leads missing =>
    unfold turn
    rw [Work.outcome_bind, Work.outcome_whole, outcome_readyTool, leads]
    dsimp only
    rw [missing]
    rfl
  | refused ready asks checks bad =>
    rw [outcome_turn_ready ready asks, outcome_runTool_ok (outcome_checkAndRun_refused checks bad)]
    rfl
  | unchecked ready asks checks =>
    rw [outcome_turn_ready ready asks, outcome_runTool_error (outcome_checkAndRun_unchecked checks)]
    rfl
  | raised ready asks checks good runs =>
    rw [outcome_turn_ready ready asks,
      outcome_runTool_error ((outcome_checkAndRun_run checks good).trans runs)]
    rfl
  | ended ready asks checks good runs =>
    rw [outcome_turn_ready ready asks,
      outcome_runTool_ok ((outcome_checkAndRun_run checks good).trans runs)]
    rfl

theorem Breaks.outcome {r : Request} {name : String} {h h' : Hub} {f : Fault}
    (broken : Breaks r name h f h') : (turn View.whole r none name).outcome h = (.error f, h') := by
  cases broken with
  | probe leads fails =>
    unfold turn
    rw [Work.outcome_bind, Work.outcome_whole, outcome_readyTool, leads]
    dsimp only
    rw [fails]
  | path ready fails =>
    unfold turn
    rw [Work.outcome_bind, Work.outcome_whole, outcome_readyTool, ready.1]
    dsimp only
    rw [ready.2]
    dsimp only
    rw [fails, Work.outcome_bind_error (Work.outcome_ofExcept _ _)]

/-- A turn goes one of these ways, or the batch is over with it. -/
theorem turn_total (r : Request) (name : String) (h : Hub) :
    (∃ fate h', TurnOf r name h fate h') ∨ ∃ f h', Breaks r name h f h' := by
  cases leads : h.idOf? name with
  | none => exact .inl ⟨_, _, .unknown leads⟩
  | some i =>
    rcases found : (isAvailable i).outcome h with ⟨f | _ | _, h₁⟩
    · exact .inr ⟨f, h₁, .probe leads found⟩
    · exact .inl ⟨_, _, .skipped leads found⟩
    · have ready : h.Ready name i h₁ := ⟨leads, found⟩
      cases asks : requestFor name r with
      | error f => exact .inr ⟨f, h₁, .path ready asks⟩
      | ok own =>
        have same := outcome_validateForAt_state i own h₁
        rcases checks : (validateForAt i own).outcome h₁ with ⟨f | c, h₂⟩ <;> rw [checks] at same <;>
          subst same
        · exact .inl ⟨_, _, .unchecked ready asks checks⟩
        · cases good : c.isValid with
          | false => exact .inl ⟨_, _, .refused ready asks checks good⟩
          | true =>
            rcases runs : (execute View.whole i own).outcome (h₂.begun name c) with ⟨f | a, h₃⟩
            · exact .inl ⟨_, _, .raised ready asks checks good runs⟩
            · exact .inl ⟨_, _, .ended ready asks checks good runs⟩

/-! ## What a turn leaves as it was -/

theorem warned_apart (i : ToolId) (h : Hub) (name : String) (ws : List String) :
    Apart i h (h.warned name ws) := by
  induction ws generalizing h with
  | nil => exact Apart.refl i h
  | cons w ws ih => exact (noted_apart i h _ _ _).trans (ih _)

theorem begun_apart (i : ToolId) (h : Hub) (name : String) (found : Validation) :
    Apart i h (h.begun name found) :=
  (warned_apart i h name found.warnings).trans (noted_apart i _ _ _ _)

theorem Ready.apart {name : String} {h h₁ : Hub} {i : ToolId} (ready : h.Ready name i h₁) :
    Apart i h h₁ := by
  have probed := isAvailable_apart i h
  rwa [ready.2] at probed

/-- What a tool is asked for in its turn. -/
def Fate.asks (fate : Fate) : List Request :=
  (fate.ran?.map (·.2)).toList

/-- A run of the tool at `i`, with what comes before and after it in the turn. -/
theorem touched_by_run {name : String} {h h₁ h₂ h₃ : Hub} {i : ToolId} {own : Request}
    {found : Validation} {e : Except Fault Analysis} (ready : h.Ready name i h₁)
    (runs : (execute View.whole i own).outcome (h₁.begun name found) = (e, h₂))
    (ends : Apart i h₂ h₃) : Touched i [own] (h.cancelsAt i) h h₃ := by
  have starts := ready.apart.trans (begun_apart i h₁ name found)
  have touched := execute_touched i own (h₁.begun name found)
  have same : (h₁.begun name found).cancelsAt i = h.cancelsAt i := by
    unfold cancelsAt
    rw [starts.players]
  rw [runs, same] at touched
  exact (starts.trans_touched touched).trans_apart ends

theorem sole {name : String} {h : Hub} {i : ToolId} (leads : h.idOf? name = some i) (j : ToolId)
    (hj : h.idOf? name = some j) : j = i :=
  Option.some.inj (hj.symm.trans leads)

/-- The name may lead nowhere; then nothing is touched, wherever one looks. -/
theorem TurnOf.touched {r : Request} {name : String} {h h' : Hub} {fate : Fate}
    (taken : TurnOf r name h fate h') {i : ToolId} (only : ∀ j, h.idOf? name = some j → j = i) :
    (∀ p, fate.ran? = some p → p.1 = i) ∧ Touched i fate.asks (fate.cancels h) h h' := by
  cases taken with
  | unknown nowhere => exact ⟨fun p hp => (nomatch hp), (noted_apart i h _ _ _).touched⟩
  | skipped leads missing =>
    cases only _ leads
    have probed := isAvailable_apart i h
    rw [missing] at probed
    exact ⟨fun p hp => (nomatch hp), (probed.trans (noted_apart i _ _ _ _)).touched⟩
  | refused ready asks checks bad =>
    cases only _ ready.1
    exact ⟨fun p hp => (nomatch hp), (ready.apart.trans (warned_apart i _ _ _)).touched⟩
  | unchecked ready asks checks =>
    cases only _ ready.1
    exact ⟨fun p hp => (nomatch hp), (ready.apart.trans (world_apart i _ _)).touched⟩
  | raised ready asks checks good runs =>
    cases only _ ready.1
    refine ⟨fun p hp => ?_, touched_by_run ready runs (world_apart i _ _)⟩
    cases hp
    rfl
  | ended ready asks checks good runs =>
    cases only _ ready.1
    refine ⟨fun p hp => ?_, touched_by_run ready runs (Apart.refl i _)⟩
    cases hp
    rfl

end Hub

end LintHub
