import LintHub.Proofs.Batch.Probes
import LintHub.Proofs.Batch.Turns
import LintHub.Proofs.Files.OutputPath
import LintHub.Proofs.Files.Refusal

/-! # The law of batches

What every batch promises of its turns and of its answer, and when there is no answer: looking for
the program of a tool whose turn has come is refused, or there is no file for its report. Nothing
that a tool does in its turn can take the batch with it.
-/

namespace LintHub.Hub

/-! ## Looking for a program -/

/-- Looking for the program of the tool at `i` fails: the settings ask for one at a path that cannot
be looked at. -/
def ProbeFails (h : Hub) (i : ToolId) (f : Fault) : Prop :=
  (h.toolAt? i = none ∧ f = .toolNotFound "") ∨
    ∃ runner, h.toolAt? i = some (.external runner) ∧ runner.path = none ∧
      runner.adapter.chosenProgram h.world.settings ≠ "" ∧
      h.world.disk.isFile (Path.ofText (runner.adapter.chosenProgram h.world.settings)) = .error f

theorem locate_error_iff {w : World} {a : Adapter} {f : Fault} :
    Bench.locate w a = .error f ↔
      a.chosenProgram w.settings ≠ "" ∧
        w.disk.isFile (Path.ofText (a.chosenProgram w.settings)) = .error f := by
  unfold Bench.locate
  by_cases chosen : a.chosenProgram w.settings = ""
  · simp [chosen, pure, Except.pure]
  · rcases found : w.disk.isFile (Path.ofText (a.chosenProgram w.settings)) with e | _ | _ <;>
      simp [chosen, found, bind, Except.bind, pure, Except.pure]

theorem seen_error_iff {b : Bench} {f : Fault} :
    b.seen = .error f ↔ b.runner.path = none ∧ Bench.locate b.world b.runner.adapter = .error f := by
  unfold Bench.seen
  cases b.runner.path <;> simp

theorem isAvailable_error_iff {h : Hub} {i : ToolId} {f : Fault} :
    ((isAvailable i).outcome h).1 = .error f ↔ ProbeFails h i f := by
  unfold ProbeFails
  cases ht : h.toolAt? i with
  | none =>
    rw [outcome_isAvailable_none ht]
    constructor
    · intro h
      cases h
      exact .inl ⟨rfl, rfl⟩
    · rintro (⟨-, rfl⟩ | ⟨runner, absurd, -⟩)
      · rfl
      · cases absurd
  | some t =>
    cases t with
    | scripted t =>
      rw [outcome_isAvailable_scripted ht]
      simp
    | external runner =>
      rw [outcome_isAvailable_external ht, map_error_iff, seen_error_iff, locate_error_iff]
      simp

/-! ## What a turn promises -/

/-- What the check of the configuration tells in a turn, and what the tool is asked for after it. -/
structure Checks (r : Request) (t : Turn) (i : ToolId) (own : Request) (h₁ : Hub)
    (e : Except Fault Validation) : Prop where
  ready : t.before.Ready t.name i h₁
  asks : requestFor t.name r = .ok own
  tells : ((validateForAt i own).outcome h₁).1 = e

structure TurnLaw (r : Request) (t : Turn) : Prop where
  /-- Nobody had asked the batch to stop. -/
  flag : t.before.cancelled = false
  /-- There is an analysis exactly if the tool is available. -/
  answered : t.result?.isSome = true ↔ ∃ i h₁, t.before.Ready t.name i h₁
  /-- A tool is asked for what the batch is, save the file that its report goes to. -/
  requested : ∀ i own, t.fate.ran? = some (i, own) → t.before.idOf? t.name = some i ∧
    ∃ p, toolOutputPath r.outputFile t.name = .ok p ∧ own = { r with outputFile := p }
  refused : ∀ i own h₁ found, Checks r t i own h₁ (.ok found) → found.isValid = false →
    t.fate = .refused found
  unchecked : ∀ i own h₁ f, Checks r t i own h₁ (.error f) → t.fate = .unchecked f
  raised : ∀ i own h₁ found f, Checks r t i own h₁ (.ok found) → found.isValid = true →
    ((execute View.whole i own).outcome (h₁.begun t.name found)).1 = .error f →
    t.fate = .raised i own f
  ended : ∀ i own h₁ found a, Checks r t i own h₁ (.ok found) → found.isValid = true →
    ((execute View.whole i own).outcome (h₁.begun t.name found)).1 = .ok a →
    t.fate = .ended i own a ∧ t.result? = some a.explained
  /-- What goes wrong is told under the name of the tool. -/
  failed : ∀ why, t.fate.complaint? = some why → ∃ a, t.result? = some a ∧
    a.toolName = .str t.name ∧ a.success = false ∧ a.errorMessage = .str why
  explained : ∀ a, t.result? = some a → a.success = false → a.errorMessage.isBlank = false
  /-- Scripted tools are asked for nothing but that. -/
  remembered : ∀ j, t.after.player? j = (t.before.player? j).map (·.asked (t.fate.received j))
  names : t.after.names = t.before.names
  running : t.after.running = t.before.running
  /-- Only a tool that cancels everything asks the batch to stop, or touches other tools. -/
  cancels : t.after.cancelled = t.fate.cancels t.before
  others : t.fate.cancels t.before = false → ∀ j, t.before.idOf? t.name ≠ some j →
    t.after.toolAt? j = t.before.toolAt? j

theorem explained_isBlank (a : Analysis) (failed : a.explained.success = false) :
    a.explained.errorMessage.isBlank = false := by
  unfold Analysis.explained at *
  cases silent : !a.success && a.errorMessage.isBlank with
  | true => rfl
  | false =>
    rw [silent] at failed
    simp only [Bool.false_eq_true, if_false] at failed ⊢
    simpa [failed] using silent

theorem complaint_ne_empty {fate : Fate} {why : String} (h : fate.complaint? = some why) :
    why ≠ "" := by
  cases fate with
  | skipped => cases h
  | ended => cases h
  | refused found =>
    cases h
    simp
  | unchecked f =>
    cases h
    simp
  | raised i own f =>
    cases h
    simp

theorem TurnOf.unique {r : Request} {name : String} {h h₁ h₂ : Hub} {fate₁ fate₂ : Fate}
    (a : TurnOf r name h fate₁ h₁) (b : TurnOf r name h fate₂ h₂) : fate₁ = fate₂ := by
  cases a <;> cases b <;> simp_all [Ready]

theorem Checks.outcome {r : Request} {t : Turn} {i : ToolId} {own : Request} {h₁ : Hub}
    {e : Except Fault Validation} (checks : Checks r t i own h₁ e) :
    (validateForAt i own).outcome h₁ = (e, h₁) :=
  Prod.ext checks.tells (outcome_validateForAt_state i own h₁)

/-- A turn is answered unless the tool is not available. -/
theorem TurnOf.answered {r : Request} {name : String} {h h' : Hub} {fate : Fate}
    (went : TurnOf r name h fate h') :
    (Turn.mk name h fate h').result?.isSome = true ↔ ∃ i h₁, h.Ready name i h₁ := by
  cases went with
  | unknown nowhere =>
    refine ⟨fun h => (nomatch h), fun ⟨i, h₁, ready⟩ => ?_⟩
    rw [ready.1] at nowhere
    cases nowhere
  | skipped leads missing =>
    refine ⟨fun h => (nomatch h), fun ⟨i, h₁, ready⟩ => ?_⟩
    rw [sole leads i ready.1] at ready
    have outcomes := missing.symm.trans ready.2
    cases outcomes
  | refused ready => exact ⟨fun _ => ⟨_, _, ready⟩, fun _ => rfl⟩
  | unchecked ready => exact ⟨fun _ => ⟨_, _, ready⟩, fun _ => rfl⟩
  | raised ready => exact ⟨fun _ => ⟨_, _, ready⟩, fun _ => rfl⟩
  | ended ready => exact ⟨fun _ => ⟨_, _, ready⟩, fun _ => rfl⟩

theorem requestFor_ok {name : String} {r own : Request} (asks : requestFor name r = .ok own) :
    ∃ p, toolOutputPath r.outputFile name = .ok p ∧ own = { r with outputFile := p } := by
  unfold requestFor at asks
  cases path : toolOutputPath r.outputFile name with
  | error f =>
    rw [path] at asks
    cases asks
  | ok p =>
    rw [path] at asks
    cases asks
    exact ⟨p, rfl, rfl⟩

theorem TurnOf.requested {r : Request} {name : String} {h h' : Hub} {fate : Fate}
    (went : TurnOf r name h fate h') {i : ToolId} {own : Request} (ran : fate.ran? = some (i, own)) :
    h.idOf? name = some i ∧ requestFor name r = .ok own := by
  cases went with
  | unknown | skipped | refused | unchecked => cases ran
  | raised ready asks =>
    cases ran
    exact ⟨ready.1, asks⟩
  | ended ready asks =>
    cases ran
    exact ⟨ready.1, asks⟩

/-- A name leads to one tool at most. -/
theorem exists_sole (h : Hub) (name : String) : ∃ i, ∀ k, h.idOf? name = some k → k = i := by
  cases leads : h.idOf? name with
  | none => exact ⟨0, fun k found => nomatch found⟩
  | some i => exact ⟨i, fun k found => (Option.some.inj found).symm⟩

/-- A name that does not lead to the tool at `j` leads to one elsewhere, if to any. -/
theorem exists_sole_ne {h : Hub} {name : String} {j : ToolId} (other : h.idOf? name ≠ some j) :
    ∃ i, i ≠ j ∧ ∀ k, h.idOf? name = some k → k = i := by
  cases leads : h.idOf? name with
  | none => exact ⟨j + 1, Nat.succ_ne_self j, fun k found => nomatch found⟩
  | some i =>
    refine ⟨i, fun same => other ?_, fun k found => (Option.some.inj found).symm⟩
    rw [leads, same]

theorem Fate.received_eq {fate : Fate} {i : ToolId} (ran : ∀ p, fate.ran? = some p → p.1 = i)
    (j : ToolId) : fate.received j = if i = j then fate.asks else [] := by
  unfold received asks
  cases came : fate.ran? with
  | none => simp
  | some p =>
    rw [← ran p came]
    rfl

namespace Turn

variable {t : Turn}

theorem result?_ended {i : ToolId} {own : Request} {a : Analysis} (fate : t.fate = .ended i own a) :
    t.result? = some a.explained := by
  unfold result?
  rw [fate]
  rfl

theorem result?_complaint {why : String} (complaint : t.fate.complaint? = some why) :
    t.result? = some (Analysis.failed t.after.world.stamp t.name why) := by
  unfold result?
  rw [complaint]

/-- An analysis that did not succeed says why. -/
theorem result?_explained {a : Analysis} (result : t.result? = some a) (failed : a.success = false) :
    a.errorMessage.isBlank = false := by
  cases complaint : t.fate.complaint? with
  | some why =>
    rw [result?_complaint complaint] at result
    cases result
    simpa [Analysis.failed, Json.isBlank] using complaint_ne_empty complaint
  | none =>
    unfold result? at result
    rw [complaint] at result
    cases fate : t.fate <;> rw [fate] at result <;> cases result
    exact explained_isBlank _ failed

end Turn

namespace Taken

variable {r : Request} {t : Turn}

theorem remembered (taken : Taken r t) (j : ToolId) :
    t.after.player? j = (t.before.player? j).map (·.asked (t.fate.received j)) := by
  obtain ⟨i, only⟩ := exists_sole t.before t.name
  obtain ⟨ran, touched⟩ := taken.went.touched only
  rw [Fate.received_eq ran, touched.players]

/-- Tools that the name does not lead to are left alone. -/
theorem others (taken : Taken r t) (quiet : t.fate.cancels t.before = false) {j : ToolId}
    (other : t.before.idOf? t.name ≠ some j) : t.after.toolAt? j = t.before.toolAt? j := by
  obtain ⟨i, apart, only⟩ := exists_sole_ne other
  exact (taken.went.touched only).2.others quiet j apart.symm

theorem law (taken : Taken r t) : TurnLaw r t := by
  obtain ⟨i, only⟩ := exists_sole t.before t.name
  obtain ⟨-, touched⟩ := taken.went.touched only
  exact {
    flag := taken.flag
    answered := taken.went.answered
    requested := fun i own h => by
      obtain ⟨leads, asks⟩ := taken.went.requested h
      exact ⟨leads, requestFor_ok asks⟩
    refused := fun i own h₁ found checks bad =>
      taken.went.unique (.refused checks.ready checks.asks checks.outcome bad)
    unchecked := fun i own h₁ f checks =>
      taken.went.unique (.unchecked checks.ready checks.asks checks.outcome)
    raised := fun i own h₁ found f checks good fails =>
      taken.went.unique (.raised checks.ready checks.asks checks.outcome good (Prod.ext fails rfl))
    ended := fun i own h₁ found a checks good gives => by
      have fate := taken.went.unique
        (.ended checks.ready checks.asks checks.outcome good (Prod.ext gives rfl))
      exact ⟨fate, Turn.result?_ended fate⟩
    failed := fun why complaint => ⟨_, Turn.result?_complaint complaint, rfl, rfl, rfl⟩
    explained := fun a => Turn.result?_explained
    remembered := taken.remembered
    names := touched.names
    running := touched.running
    cancels := by rw [touched.flag, taken.flag, Bool.false_or]
    others := fun quiet j => taken.others quiet }

end Taken

/-! ## What a batch promises -/

/-- The hub as the first turn of a batch finds it. -/
def opened (h : Hub) : Hub :=
  { h with cancelled := false, running := true }

/-- What the tool at `j` was asked for in some turns. -/
def askedIn (ts : List Turn) (j : ToolId) : List Request :=
  ts.flatMap fun t => t.fate.received j

theorem outcome_checkNames {h : Hub} {names : List String} (some_name : names ≠ [])
    (registered : ∀ name ∈ names, (h.idOf? name).isSome = true) :
    (checkNames names).outcome h = (.ok (), h) := by
  have known : (names.find? fun name => (h.idOf? name).isNone) = none := by
    rw [List.find?_eq_none]
    intro name mem
    simpa [Option.isSome_iff_ne_none] using registered name mem
  unfold checkNames
  rw [if_neg (by simpa using some_name), Act.outcome_bind_ok (Act.outcome_get h), known]
  rfl

theorem outcome_runBatch {h : Hub} {names : List String} (some_name : names ≠ [])
    (registered : ∀ name ∈ names, (h.idOf? name).isSome = true) (r : Request) :
    (runBatch View.whole names r).outcome h =
      ((runNames View.whole r none names).outcome h.opened).map id
        fun h' => { h' with running := false } := by
  unfold runBatch executeBatch
  rw [Work.outcome_bind_ok (Work.outcome_whole _ h ▸ outcome_checkNames some_name registered)]
  rw [Work.outcome_bind_ok (Work.outcome_whole _ h ▸ Act.outcome_modify _ h)]
  rw [Work.outcome_bind_ok (Work.outcome_whole _ _ ▸ Act.outcome_modify _ _)]
  rw [Work.outcome_bind_ok (Work.outcome_attempt _ _)]
  rw [Work.outcome_bind_ok (Work.outcome_whole _ _ ▸ Act.outcome_modify _ _)]
  rw [Work.outcome_ofExcept]
  rfl

theorem Linked.players {r : Request} {h h₁ : Hub} {ts : List Turn} (linked : Linked h ts h₁)
    (taken : ∀ t ∈ ts, Taken r t) (j : ToolId) :
    h₁.player? j = (h.player? j).map (·.asked (askedIn ts j)) := by
  induction ts generalizing h with
  | nil =>
    cases linked
    exact (map_asked_nil _).symm
  | cons t ts ih =>
    obtain ⟨rfl, linked⟩ := linked
    rw [ih linked fun t' ht => taken t' (List.mem_cons_of_mem _ ht),
      (taken t (List.mem_cons_self ..)).law.remembered, Option.map_map]
    congr 1
    funext p
    unfold askedIn ScriptedTool.asked
    simp

/-- What a batch promises: `ts` are its turns in the order of the names, each of them as it should be,
and all that scripted tools were asked for. It answers with the analyses of these turns, unless the
program of the tool whose turn is next cannot be looked for. -/
def BatchLaw (h : Hub) (names : List String) (r : Request) : Prop :=
  ∃ (ts : List Turn) (rest : List String) (h₁ : Hub),
    names = ts.map (·.name) ++ rest ∧ Linked h.opened ts h₁ ∧ (∀ t ∈ ts, TurnLaw r t) ∧
    (∀ j, h₁.player? j = (h.player? j).map (·.asked (askedIn ts j))) ∧
    ((runBatch View.whole names r).outcome h).2.running = false ∧
    ((((runBatch View.whole names r).outcome h).1 = .ok (ts.filterMap Turn.result?) ∧
        (rest = [] ∨ h₁.cancelled = true)) ∨
      ∃ name i f, rest.head? = some name ∧ h₁.cancelled = false ∧ h₁.idOf? name = some i ∧
        ProbeFails h₁ i f ∧ ((runBatch View.whole names r).outcome h).1 = .error f)

theorem runBatch_takes_turns {h : Hub} {names : List String} {r : Request} (some_name : names ≠ [])
    (registered : ∀ name ∈ names, (h.idOf? name).isSome = true)
    (paths : ∀ name ∈ names, ∃ p, toolOutputPath r.outputFile name = .ok p) :
    BatchLaw h names r := by
  obtain ⟨ts, rest, h₁, stop, h', chain⟩ := chain_exists r names h.opened
  have answer := outcome_runBatch some_name registered r
  rw [chain.outcome] at answer
  refine ⟨ts, rest, h₁, chain.order, chain.linked, fun t ht => (chain.taken t ht).law,
    chain.linked.players chain.taken, by rw [answer]; rfl, ?_⟩
  rw [answer]
  have stops := chain.stops
  have order := chain.order
  cases stops with
  | finished => exact .inl ⟨rfl, .inl rfl⟩
  | asked flag => exact .inl ⟨rfl, .inr flag⟩
  | @broken _ _ name rest f flag breaks =>
    cases breaks with
    | @probe _ i _ leads fails =>
      exact .inr ⟨name, i, f, rfl, flag, leads, isAvailable_error_iff.mp (by rw [fails]), rfl⟩
    | path ready fails =>
      obtain ⟨p, path⟩ := paths name (by rw [order]; simp)
      unfold requestFor at fails
      rw [path] at fails
      cases fails

/-- A tool that cancels everything, one that would come after it, and one that is not available. -/
theorem runBatch_takes_turns_cancelling :
    BatchLaw
      (holding (.bare .default)
        [.scripted (.new (.quiet "gamma") false),
          .scripted (.new { Script.quiet "alpha" with cancels := true } true), quietTool "beta"])
      ["gamma", "alpha", "beta", "alpha"] (reportTo "out.json") :=
  runBatch_takes_turns (by decide) (by decide) fun name mem =>
    toolOutputPath_ok (by
      revert name
      decide) (by decide)

/-! ## When a batch has no answer -/

theorem requestFor_error_iff {name : String} {r : Request} {f : Fault} :
    requestFor name r = .error f ↔ NoFile name r.outputFile f := by
  rw [← toolOutputPath_error_iff]
  unfold requestFor
  cases toolOutputPath r.outputFile name <;> simp [bind, Except.bind, pure, Except.pure]

theorem breaks_iff {r : Request} {name : String} {h : Hub} {f : Fault} :
    (∃ h', Breaks r name h f h') ↔ ∃ i, h.idOf? name = some i ∧
      (ProbeFails h i f ∨
        ((isAvailable i).outcome h).1 = .ok true ∧ NoFile name r.outputFile f) := by
  constructor
  · rintro ⟨h', breaks⟩
    cases breaks with
    | probe leads fails => exact ⟨_, leads, .inl (isAvailable_error_iff.mp (by rw [fails]))⟩
    | path ready fails =>
      exact ⟨_, ready.1, .inr ⟨by rw [ready.2], requestFor_error_iff.mp fails⟩⟩
  · rintro ⟨i, leads, fails | ⟨found, fails⟩⟩
    · exact ⟨_, .probe leads (Prod.ext (isAvailable_error_iff.mpr fails) rfl)⟩
    · exact ⟨_, .path ⟨leads, Prod.ext found rfl⟩ (requestFor_error_iff.mpr fails)⟩

/-- A batch that came to its end took a turn for every name. -/
theorem chain_of_answer {r : Request} {names : List String} {h h₁ : Hub} {as : List Analysis}
    (answer : (runNames View.whole r none names).outcome h = (.ok as, h₁))
    (flag : h₁.cancelled = false) : ∃ ts, Chain r names h ts [] h₁ .finished h₁ := by
  obtain ⟨ts, rest, h₂, stop, h', chain⟩ := chain_exists r names h
  have same := chain.outcome.symm.trans answer
  have stops := chain.stops
  cases stops with
  | finished =>
    obtain ⟨-, rfl⟩ := Prod.mk.inj same
    exact ⟨ts, chain⟩
  | asked asked =>
    obtain ⟨-, rfl⟩ := Prod.mk.inj same
    rw [show (h₂.noted _ _ _).cancelled = h₂.cancelled from rfl, asked] at flag
    cases flag
  | broken => cases same

/-- The names before the one whose turn breaks have been dealt with, and their analyses are lost. -/
theorem runNames_breaks {r : Request} {done names : List String} {name : String} {h h₁ : Hub}
    {as : List Analysis} {f : Fault}
    (answer : (runNames View.whole r none done).outcome h = (.ok as, h₁))
    (flag : h₁.cancelled = false) (breaks : ∃ h', Breaks r name h₁ f h') :
    ((runNames View.whole r none (done ++ name :: names)).outcome h).1 = .error f := by
  obtain ⟨ts, chain⟩ := chain_of_answer answer flag
  obtain ⟨h', breaks⟩ := breaks
  have broken : Chain r (done ++ name :: names) h ts (name :: names) h₁ (.broken f) h' := by
    refine ⟨?_, chain.linked, chain.taken, .broken flag breaks⟩
    rw [chain.order, List.append_nil]
  rw [broken.outcome]
  rfl

/-- The only ways for a batch to end without an answer. The tools of `done` have been run, and their
analyses `as` are lost. -/
theorem runBatch_fails_iff {h : Hub} {names : List String} {r : Request} (some_name : names ≠ [])
    (registered : ∀ name ∈ names, (h.idOf? name).isSome = true) (f : Fault) :
    ((runBatch View.whole names r).outcome h).1 = .error f ↔
      ∃ done name rest as h₁ i, names = done ++ name :: rest ∧
        (runNames View.whole r none done).outcome h.opened = (.ok as, h₁) ∧
        h₁.cancelled = false ∧ h₁.idOf? name = some i ∧
        (ProbeFails h₁ i f ∨
          ((isAvailable i).outcome h₁).1 = .ok true ∧ NoFile name r.outputFile f) := by
  rw [outcome_runBatch some_name registered r]
  show ((runNames View.whole r none names).outcome h.opened).1 = .error f ↔ _
  constructor
  · intro fails
    obtain ⟨ts, rest, h₁, stop, h', chain⟩ := chain_exists r names h.opened
    rw [chain.outcome] at fails
    have stops := chain.stops
    cases stops with
    | finished => cases fails
    | asked => cases fails
    | @broken _ _ name rest _ flag breaks =>
      cases fails
      have done : Chain r (ts.map (·.name)) h.opened ts [] h₁ .finished h₁ :=
        ⟨(List.append_nil _).symm, chain.linked, chain.taken, .finished⟩
      obtain ⟨i, leads, why⟩ := breaks_iff.mp ⟨h', breaks⟩
      exact ⟨_, name, rest, _, h₁, i, chain.order, done.outcome, flag, leads, why⟩
  · rintro ⟨done, name, rest, as, h₁, i, rfl, answer, flag, leads, why⟩
    exact runNames_breaks answer flag (breaks_iff.mpr ⟨i, leads, why⟩)

/-- A batch of two tools whose report has nowhere to go. -/
theorem runBatch_fails_iff_pair :
    ((runBatch View.whole ["alpha", "beta"] (reportTo ".")).outcome
        (holding (.bare .default) [quietTool "alpha", quietTool "beta"])).1 =
      .error (.emptyName ".") :=
  (runBatch_fails_iff (by decide) (by decide) _).mpr
    ⟨[], "alpha", ["beta"], [], _, 0, rfl, rfl, rfl, rfl, .inr ⟨rfl, .noName (by decide) (by decide)⟩⟩

/-- Two tools, the second of which is to be looked for under a name that is too long. -/
def unlucky : Hub :=
  holding (.bare { Settings.default with ruffBin := longName })
    [quietTool "alpha", .external (.new .ruff)]

theorem not_every_batch_returns :
    ¬ ∀ (h : Hub) (names : List String) (r : Request), names ≠ [] →
      (∀ name ∈ names, (h.idOf? name).isSome = true) →
      (∀ name ∈ names, ∃ p, toolOutputPath r.outputFile name = .ok p) →
      ∃ as, ((runBatch View.whole names r).outcome h).1 = .ok as := by
  intro claim
  have registered : ∀ name ∈ ["alpha", "ruff"], (unlucky.idOf? name).isSome = true := by decide
  obtain ⟨as, returns⟩ := claim unlucky ["alpha", "ruff"] (reportTo "") (by decide) registered
    fun name mem => ⟨.str "", rfl⟩
  obtain ⟨done, h₁, answer, chosen, flag, there, leads⟩ : ∃ done h₁,
      (runNames View.whole (reportTo "") none ["alpha"]).outcome unlucky.opened = (.ok done, h₁) ∧
      h₁.world.settings.ruffBin = longName ∧ h₁.cancelled = false ∧
      h₁.toolAt? 1 = some (.external (.new .ruff)) ∧ h₁.idOf? "ruff" = some 1 :=
    ⟨_, _, rfl, rfl, rfl, rfl, rfl⟩
  have probe : ProbeFails h₁ 1 (.refused .nameTooLong longName) := by
    refine .inr ⟨.new .ruff, there, rfl, ?_, ?_⟩
    · show h₁.world.settings.ruffBin ≠ ""
      rw [chosen]
      decide +kernel
    · show (h₁.world.disk.status (Path.ofText h₁.world.settings.ruffBin)).map _ = _
      rw [chosen, longName_refused]
      rfl
  have fails := @runNames_breaks (reportTo "") ["alpha"] [] "ruff" _ h₁ done _ answer flag
    (breaks_iff.mpr ⟨1, leads, .inl probe⟩)
  rw [outcome_runBatch (by decide) registered, Prod.map_fst, id] at returns
  rw [List.cons_append, List.nil_append, returns] at fails
  cases fails

theorem not_every_report_has_a_file :
    ¬ ∀ (h : Hub) (names : List String) (r : Request), names ≠ [] →
      (∀ name ∈ names, (h.idOf? name).isSome = true) →
      ∃ as, ((runBatch View.whole names r).outcome h).1 = .ok as := by
  intro claim
  obtain ⟨as, returns⟩ := claim (holding (.bare .default) [quietTool "alpha", quietTool "beta"])
    ["alpha", "beta"] (reportTo ".") (by decide) (by decide)
  have fails : ((runBatch View.whole ["alpha", "beta"] (reportTo ".")).outcome
      (holding (.bare .default) [quietTool "alpha", quietTool "beta"])).1 =
      .error (.emptyName ".") := rfl
  cases fails.symm.trans returns

end LintHub.Hub
