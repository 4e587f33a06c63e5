import LintHub.Proofs.Run.Frame
import LintHub.Proofs.Work.Owned

/-! # The progress of a run

Once its files are counted a run tells that it starts, and if all goes well that it has done them all;
nothing else is told. What is noted of it is owned by those who note it: others may do anything else
in between.
-/

namespace LintHub

variable {σ τ α β : Type}

namespace Act

/-- Whatever the act answers, `P` holds of it. -/
def Gives (P : α → Prop) (m : Act σ α) : Prop :=
  ∀ s a, (m.outcome s).1 = .ok a → P a

theorem Gives.pure {P : α → Prop} {a : α} (h : P a) : Gives P (pure a : Act σ α) := by
  rintro s _ ⟨⟩
  exact h

theorem Gives.bind {P : β → Prop} {m : Act σ α} {k : α → Act σ β} (hk : ∀ a, Gives P (k a)) :
    Gives P (m >>= k) := by
  intro s b answer
  rw [outcome_bind] at answer
  rcases first : m.outcome s with ⟨f | a, t⟩ <;> rw [first] at answer
  · cases answer
  · exact hk a t b answer

end Act

/-- A fault, or an analysis of a run that did not go well. -/
def Unsuccessful (e : Except Fault Analysis) : Prop :=
  ∀ a, e = .ok a → a.success = false

theorem Unsuccessful.error (f : Fault) : Unsuccessful (.error f) :=
  fun _ bad => nomatch bad

/-- A time that cannot be told. -/
def Fault.OfTime (f : Fault) : Prop :=
  (∃ e, f = .span e) ∨ f = .undefinedInteger

/-- A run that went well, but for the time it took. -/
def Whole (e : Except Fault Analysis) : Prop :=
  (∃ a, e = .ok a ∧ a.success = true) ∨ ∃ f, e = .error f ∧ f.OfTime

namespace Bench

theorem failed_gives (started : Binary64) (message : String) :
    Act.Gives (fun a => a.success = false) (failed started message) := by
  unfold failed
  exact .bind fun _ => .bind fun _ => .bind fun _ => .bind fun _ => .pure rfl

theorem since_faults (started : Binary64) (b : Bench) {f : Fault}
    (fails : ((since started).outcome b).1 = .error f) : f.OfTime := by
  unfold since at fails
  rw [Act.outcome_bind_ok (Act.outcome_get b)] at fails
  rcases told : Time.Span.ofSeconds? (b.world.clock.sub started) with _ | e | span <;>
    rw [told] at fails <;> cases fails
  · exact .inr rfl
  · exact .inl ⟨e, rfl⟩

theorem succeeded_whole (started : Binary64) (issues : List Issue) (files : Int) (b : Bench) :
    Whole ((succeeded started issues files).outcome b).1 := by
  unfold succeeded
  rw [Act.outcome_bind]
  rcases told : (since started).outcome b with ⟨f | span, b'⟩
  · exact .inr ⟨f, rfl, since_faults started b (congrArg Prod.fst told)⟩
  · exact .inl ⟨_, rfl, rfl⟩

end Bench

/-! ## What is told -/

/-- What is told before a program is started. -/
def Progress.starts (a : Adapter) (files : Int) : Progress :=
  ⟨files, 0, "", "Starting " ++ a.name⟩

/-- What is told after a report was read. -/
def Progress.completes (a : Adapter) (files : Int) : Progress :=
  ⟨files, files, "", a.name ++ " completed"⟩

/-- What a run comes to that was told to start, and what is left of `x` after what is told since.
`is` says which tool may be meant. -/
inductive Ends (note : τ → Progress → τ) (is : τ → Adapter → Prop) (files : Int) (x : τ) :
    Except Fault Analysis → τ → Prop where
  | short {e : Except Fault Analysis} (bad : Unsuccessful e) : Ends note is files x e x
  | full {e : Except Fault Analysis} {a : Adapter} (tool : is x a) (whole : Whole e) :
    Ends note is files x e (note x (.completes a files))

namespace Execution

open Bench

/-- The source and the files of a run. -/
def collect (c : Config) (r : Request) (a : Adapter) : Act Bench (Path × List Path) := do
  let source ← (Path.ofJson (c.targetFor r).sourcePath : Except Fault Path)
  let disk := (← get).world.disk
  let files ← (disk.sources source a.extensions : Except Fault (List Path))
  return (source, files)

/-- A run whose files are counted. -/
def proceed (v : View σ Bench) (c : Config) (r : Request) (l : Listeners σ) (a : Adapter)
    (started : Binary64) (source : Path) (files : Int) : Work σ Analysis := do
  emit v l.progress (.starts a files)
  if ← v.work do return (← get).runner.cancelled then
    v.work (failed started "Analysis cancelled")
  else launch v c r l started source files

theorem run_eq (v : View σ Bench) (c : Config) (r : Request) (l : Listeners σ) :
    run v c r l = (do
      let a ← v.work adapter
      let started ← v.work do return (← get).world.clock
      if !(← v.work isAvailable) then
        v.work (failed started s!"{a.name} not installed. {a.requirements}")
      else
        let (source, files) ← v.work (collect c r a)
        proceed v c r l a started source files.length) := rfl

section
variable {v : View σ Bench} {look : σ → τ}
variable (hv : ∀ s b, Moves (v.get s) b → look (v.set s b) = look s)
variable {note : τ → Progress → τ} {is : τ → Adapter → Prop} {l : Listeners σ}
  {listener : Progress → Work σ Unit}
include hv

/-- A run that did not go well ends without another note. -/
theorem failed_owned (started : Binary64) (message : String) (x : τ) :
    Work.Owned look (fun e x' => x' = x ∧ Unsuccessful e) (v.work (failed started message)) x := by
  refine .work fun s hs => ⟨?_, fun a => failed_gives started message (v.get s) a⟩
  rw [hv s _ (failed_rests started message (v.get s)).moves, hs]

/-- Whether those who listen fail or not, they have noted what they were told. -/
theorem emit_owned {p : Progress} {x y : τ}
    (notes : Work.Owned look (fun _ x' => x' = y) (listener p) x) :
    Work.Owned look (fun e x' => ∃ u, e = .ok u ∧ x' = y) (emit v (some listener) p) x := by
  refine .bind_ok (.attempt notes) ?_
  rintro e _ rfl
  cases e with
  | ok u => exact ⟨u, rfl, rfl⟩
  | error f => exact .work fun s hs => ⟨(), rfl, (hv s _ (world_rests _ _).moves).trans hs⟩

variable (tool : ∀ s, is (look s) (v.get s).runner.adapter) (hp : l.progress = some listener)
  (notes : ∀ p x, Work.Owned look (fun _ x' => x' = note x p) (listener p) x)
include tool hp notes

theorem conclude_owned (c : Config) (r : Request) (started : Binary64) (source : Path)
    (files : Int) (done : Finished) (x : τ) :
    Work.Owned look (Ends note is files x) (conclude v c r l started source files done) x := by
  have asked : Work.Owned look (fun e x' => ∃ a, e = .ok a ∧ x = x' ∧ is x a) (v.work adapter) x :=
    .work fun s hs => ⟨_, rfl, hs.symm.trans (hv s _ (.inl rfl)).symm, hs ▸ tool s⟩
  unfold conclude
  refine .bind_ok asked ?_
  rintro a _ ⟨rfl, meant⟩
  refine .after (rests_within hv (Act.Within.attempt (judge_rests c r source done))) (fun e => ?_)
    fun f => .short (.error f)
  cases e with
  | error f =>
    dsimp only
    split
    · refine (failed_owned hv _ _ _).mono ?_
      rintro e _ ⟨rfl, bad⟩
      exact .short bad
    · exact Ends.short (.error f)
  | ok found =>
    rw [hp]
    refine .bind_ok (emit_owned hv (notes (.completes a files) _)) ?_
    rintro _ _ rfl
    refine .work fun s hs => ?_
    rw [hv s _ (found_rests _ _ _ _ (v.get s)).moves, hs]
    exact .full meant (succeeded_whole _ _ _ _)

variable (takes : ∀ f, l.output = some f → ∀ line, Work.Within (fun s s' => look s' = look s) (f line))
include takes

theorem launch_owned (c : Config) (r : Request) (started : Binary64) (source : Path)
    (files : Int) (x : τ) :
    Work.Owned look (Ends note is files x) (launch v c r l started source files) x := by
  have fails (message : String) :
      Work.Owned look (Ends note is files x) (v.work (failed started message)) x := by
    refine (failed_owned hv started message x).mono ?_
    rintro e _ ⟨rfl, bad⟩
    exact .short bad
  unfold launch
  refine .after (rests_within hv adapter_rests) (fun a => ?_) fun f => .short (.error f)
  refine .after (moves_within hv (command_moves r)) (fun command => ?_) fun f => .short (.error f)
  refine .after (.attempt (runProgram_within (fun s w => hv s _ (world_rests _ w).moves) _ _))
    (fun e => ?_) fun f => .short (.error f)
  cases e with
  | error f =>
    dsimp only
    split
    · exact fails _
    · split
      · exact fails _
      · exact Ends.short (.error f)
  | ok done =>
    have judged : Work.Owned look (Ends note is files x) (if Adapter.acceptsExit done.exit then
        conclude v c r l started source files done
      else
        v.work (failed started
          s!"{a.name} exited with code {Text.intText done.exit}: {complaint done.stderr}")) x := by
      split
      · exact conclude_owned hv tool hp notes c r _ _ _ _ x
      · exact fails _
    dsimp only
    split
    · exact judged
    · next f hf =>
      exact .after (.forM (takes f hf)) (fun _ => judged) fun f => .short (.error f)

variable (is) in
/-- From the first note on, whether the run is cancelled or not. -/
theorem proceed_owned (c : Config) (r : Request) (a : Adapter) (started : Binary64) (source : Path)
    (files : Int) (x : τ) :
    Work.Owned look (Ends note is files (note x (.starts a files)))
      (proceed v c r l a started source files) x := by
  unfold proceed
  rw [hp]
  refine .bind_ok (emit_owned hv (notes (.starts a files) x)) ?_
  rintro _ _ rfl
  refine .after (rests_within hv Rests.get) (fun stopped => ?_) fun f => .short (.error f)
  split
  · refine (failed_owned hv _ _ _).mono ?_
    rintro e _ ⟨rfl, bad⟩
    exact .short bad
  · exact launch_owned hv tool hp notes takes c r _ _ _ _

end

end Execution

end LintHub
