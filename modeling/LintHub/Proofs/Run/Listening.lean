import LintHub.Proofs.Run.Leeway
import LintHub.Proofs.Work.Agree

/-! # Listening changes nothing

Those who listen to a run, do not fail and leave what a view shows alone make no difference to the
run: it comes to the same analysis or fault, and leaves the same.
-/

namespace LintHub

variable {σ τ : Type} {v : View σ τ}

/-- Who listens never fails and leaves alone what a view shows. -/
structure Listeners.Quiet (v : View σ τ) (l : Listeners σ) : Prop where
  progress : ∀ f, l.progress = some f → ∀ p, Work.Agrees v (f p) (pure ())
  output : ∀ f, l.output = some f → ∀ line, Work.Agrees v (f line) (pure ())

theorem Listeners.Quiet.nobody : Listeners.Quiet v .nobody := by
  constructor
  · intro f hf
    cases hf
  · intro f hf
    cases hf

namespace Execution

variable {u : View σ Bench} (hu : v.Over u)

/-- Progress is told and taken in without a trace. -/
theorem emit_agrees {listener : Option (Progress → Work σ Unit)}
    (hl : ∀ f, listener = some f → ∀ p, Work.Agrees v (f p) (pure ())) (p : Progress) :
    Work.Agrees v (emit u listener p) (pure ()) := by
  intro s t same
  cases listener with
  | none => exact ⟨rfl, same⟩
  | some f =>
    obtain ⟨answer, left⟩ := hl f rfl p s t same
    have heard : (emit u (some f) p).outcome s = (.ok (), ((f p).outcome s).2) := by
      unfold emit
      rw [Work.outcome_bind_ok (Work.outcome_attempt _ s), answer]
      rfl
    rw [heard]
    exact ⟨rfl, left⟩

theorem hearing_quiet {l : Listeners σ} (hl : l.Quiet v) (r : Request) :
    Hearing (.exact r) (fun s t => v.get s = v.get t) u u l .nobody where
  progress := emit_agrees hl.progress
  output lines w w' agree := by
    cases output : l.output with
    | none => exact agree
    | some f => exact Work.Alike.skip (.forM_skip (hl.output f output)) agree

include hu in
theorem start_agrees {l : Listeners σ} (hl : l.Quiet v) (r : Request) :
    Work.Agrees v (start u r l) (start u r .nobody) :=
  start_alike (Leeway.exact_alike ▸ hu.match) (hearing_quiet hl r)

end Execution

end LintHub
