import LintHub.Proofs.Run.Leeway
import LintHub.Proofs.Run.Replay

/-! # Runs that are not disturbed

A run that is started resolves as one that is waited for, although those who are told of its
progress may fail: that is reported and has no other effect. Afterwards the tool is free, unless
another run went on before. Faults in taking the output are not held back.
-/

namespace LintHub

variable {σ : Type} {r : Request} {b b' : Bench}

/-- A report of one who failed when told of the progress. -/
def LogEvent.isComplaint (e : LogEvent) : Bool :=
  e.source == .external && e.message == "Progress callback failed"

/-- The bench as if nobody had failed when told of the progress. -/
def Bench.withoutComplaints (b : Bench) : Bench :=
  { b with world := { b.world with log := b.world.log.filter fun e => !e.isComplaint } }

theorem Bench.withoutComplaints_record {e : LogEvent} (complaint : e.isComplaint = true)
    (b : Bench) :
    { b with world := b.world.record e }.withoutComplaints = b.withoutComplaints := by
  simp [withoutComplaints, World.record, complaint]

namespace Leeway

/-- Benches that differ in who has failed when told of the progress. -/
def complaints (r : Request) : Leeway r r where
  config := Eq
  log xs ys := xs.filter (fun e => !e.isComplaint) = ys.filter fun e => !e.isComplaint
  same := sameOrder_refl
  next e same := by rw [List.filter_append, List.filter_append, same]

theorem complaints_alike_iff :
    (complaints r).Alike b b' ↔ b.withoutComplaints = b'.withoutComplaints := by
  constructor
  · rintro ⟨rfl, same⟩
    unfold Bench.withoutComplaints
    rw [same]
  · obtain ⟨runner, disk, settings, stamp, programs, clock, live, versionRun, runs, log, calls⟩ := b
    obtain ⟨runner', disk', settings', stamp', programs', clock', live', versionRun', runs', log',
      calls'⟩ := b'
    intro same
    obtain ⟨rfl, same⟩ := Bench.mk.inj same
    obtain ⟨rfl, rfl, rfl, rfl, rfl, rfl, rfl, rfl, same, rfl⟩ := World.mk.inj same
    exact ⟨rfl, same⟩

end Leeway

/-! ## Those who listen -/

namespace Listeners

/-- Those who listen leave the bench alone. They may fail. -/
structure Apart (u : View σ Bench) (l : Listeners σ) : Prop where
  progress : ∀ f, l.progress = some f → ∀ p s, u.get ((f p).outcome s).2 = u.get s
  output : ∀ f, l.output = some f → ∀ line s, u.get ((f line).outcome s).2 = u.get s

/-- Every line of output is taken without a fault. -/
def TakesOutput (l : Listeners σ) : Prop :=
  ∀ f, l.output = some f → ∀ line s, ((f line).outcome s).1 = .ok ()

end Listeners

namespace Execution

open Bench

variable {u : View σ Bench} {l : Listeners σ} {c : Config} {s : σ}

section lawful

variable (get_set : ∀ s b, u.get (u.set s b) = b)
include get_set

/-- Who fails when told of the progress is complained about, and that is all. -/
theorem emit_undisturbed (apart : l.Apart u) (p : Progress) (s : σ) :
    ((emit u l.progress p).outcome s).1 = .ok () ∧
      (u.get ((emit u l.progress p).outcome s).2).withoutComplaints =
        (u.get s).withoutComplaints := by
  cases listener : l.progress with
  | none => exact ⟨rfl, rfl⟩
  | some f =>
    have alone := apart.progress f listener p s
    unfold emit
    rw [Work.outcome_bind_ok (Work.outcome_attempt _ s)]
    rcases heard : (f p).outcome s with ⟨fault | ⟨⟩, t⟩ <;> rw [heard] at alone
    · refine ⟨rfl, ?_⟩
      rw [← alone]
      refine Eq.trans (congrArg withoutComplaints (get_set t _)) ?_
      exact withoutComplaints_record (by rfl) (u.get t)
    · exact ⟨rfl, congrArg withoutComplaints alone⟩

theorem hearing_complaints (apart : l.Apart u) (takes : l.TakesOutput) (r : Request) :
    Hearing (.complaints r) (fun s b => (Leeway.complaints r).Alike (u.get s) b) u View.whole l
      .nobody where
  progress p s b alike := by
    obtain ⟨answer, left⟩ := emit_undisturbed get_set apart p s
    have same := left.trans (Leeway.complaints_alike_iff.mp alike)
    exact ⟨answer, Leeway.complaints_alike_iff.mpr same⟩
  output lines w w' alike := by
    cases output : l.output with
    | none => exact alike
    | some f =>
      refine Work.Alike.skip (.forM_skip fun line s b same => ⟨takes f output line s, ?_⟩) alike
      show (Leeway.complaints r).Alike _ b
      rw [apart.output f output line s]
      exact same

/-! ## The start -/

theorem outcome_ask (configured : (u.get s).runner.config = some c) :
    ∃ t, (u.work requireConfig).outcome s = (.ok c, t) ∧ u.get t = u.get s := by
  refine ⟨u.set s (u.get s), ?_, get_set _ _⟩
  rw [Work.outcome_work, outcome_requireConfig configured]

/-- On a free tool the run is done, whatever comes of it, and the tool is free again. -/
theorem start_opens (configured : (u.get s).runner.config = some c)
    (free : (u.get s).runner.running = false) :
    ∃ s', u.get s' = (u.get s).opened ∧
      ((start u r l).outcome s).1 = .ok ((run u c r l).outcome s').1 ∧
      (u.get ((start u r l).outcome s).2).runner.running = false := by
  obtain ⟨s₁, asked, same⟩ := outcome_ask get_set configured
  have tried : (u.work tryStart).outcome s₁ = (.ok true, u.set s₁ (u.get s).opened) := by
    rw [Work.outcome_work, same, outcome_tryStart, free]
    rfl
  unfold start
  rw [Work.outcome_bind_ok asked, Work.outcome_bind_ok tried, if_pos rfl,
    Work.outcome_bind_ok (Work.outcome_attempt _ _)]
  exact ⟨_, get_set _ _, rfl, congrArg (·.runner.running) (get_set _ _)⟩

/-- On a tool that is busy nothing is done and nobody is told of anything. -/
theorem start_refuses (configured : (u.get s).runner.config = some c)
    (busy : (u.get s).runner.running = true) :
    ∃ t, u.get t = u.get s ∧ ∀ l : Listeners σ, (start u r l).outcome s =
      (.ok (.ok (Analysis.failed (u.get s).world.stamp (u.get s).runner.adapter.name
        "Analysis already running")), t) := by
  obtain ⟨s₁, asked, same⟩ := outcome_ask get_set configured
  have tried : (u.work tryStart).outcome s₁ = (.ok false, u.set s₁ (u.get s)) := by
    rw [Work.outcome_work, same, outcome_tryStart, busy]
    rfl
  have told : (u.work Execution.busy).outcome (u.set s₁ (u.get s)) =
      (.ok (Analysis.failed (u.get s).world.stamp (u.get s).runner.adapter.name
        "Analysis already running"), u.set (u.set s₁ (u.get s)) (u.get s)) := by
    rw [Work.outcome_work, get_set]
    rfl
  refine ⟨u.set (u.set s₁ (u.get s)) (u.get s), get_set _ _, fun l => ?_⟩
  unfold start
  rw [Work.outcome_bind_ok asked, Work.outcome_bind_ok tried, if_neg (by decide),
    Work.outcome_bind_ok told]
  rfl

theorem start_resolves (configured : (u.get s).runner.config = some c) :
    ∃ e t, (start u r l).outcome s = (.ok e, t) := by
  cases running : (u.get s).runner.running with
  | false =>
    obtain ⟨s', -, resolves, -⟩ := start_opens (r := r) (l := l) get_set configured running
    exact ⟨_, _, Prod.ext resolves rfl⟩
  | true =>
    obtain ⟨t, -, resolves⟩ := start_refuses (r := r) get_set configured running
    exact ⟨_, t, resolves l⟩

omit get_set in
theorem outcome_execute_of_start {e : Except Fault Analysis} {t : σ}
    (resolves : (start u r l).outcome s = (.ok e, t)) : (execute u r l).outcome s = (e, t) := by
  unfold execute
  rw [Work.outcome_bind_ok resolves]
  rfl

/-- A run with those who listen resolves as one to which nobody listens ends, and leaves the same
but for complaints about them. -/
theorem start_undisturbed (apart : l.Apart u) (takes : l.TakesOutput)
    (configured : (u.get s).runner.config = some c) :
    ((start u r l).outcome s).1 = .ok ((execute View.whole r .nobody).outcome (u.get s)).1 ∧
      (u.get ((start u r l).outcome s).2).withoutComplaints =
        ((execute View.whole r .nobody).outcome (u.get s)).2.withoutComplaints := by
  obtain ⟨answer, left⟩ := start_alike (.part get_set) (hearing_complaints get_set apart takes r) s
    (u.get s) (Leeway.complaints_alike_iff.mpr rfl)
  obtain ⟨e, t, resolves⟩ := start_resolves (u := View.whole) (r := r) (l := .nobody)
    (fun _ _ => rfl) configured
  rw [outcome_execute_of_start resolves]
  rw [resolves] at answer left
  exact ⟨answer, Leeway.complaints_alike_iff.mp left⟩

end lawful

/-! ## The law -/

/-- How a run resolves that is started while others listen, and how it leaves the tool. -/
structure FutureLaw (u : View σ Bench) (r : Request) (l : Listeners σ) (s : σ) : Prop where
  resolves : l.TakesOutput →
    ((start u r l).outcome s).1 = .ok ((execute View.whole r .nobody).outcome (u.get s)).1
  leaves : l.TakesOutput → (u.get ((start u r l).outcome s).2).withoutComplaints =
    ((execute View.whole r .nobody).outcome (u.get s)).2.withoutComplaints
  free : (u.get s).runner.running = false →
    (u.get ((start u r l).outcome s).2).runner.running = false
  busy : (u.get s).runner.running = true → ∃ t, u.get t = u.get s ∧
    ∀ l' : Listeners σ, (start u r l').outcome s =
      (.ok (.ok (Analysis.failed (u.get s).world.stamp (u.get s).runner.adapter.name
        "Analysis already running")), t)

/-- Whether those who are told of the progress fail or not, a run that is started resolves as one
that is waited for. Afterwards the tool is free if it was, and else nothing has happened. -/
theorem started_run_resolves_as_execute (get_set : ∀ s b, u.get (u.set s b) = b) (apart : l.Apart u)
    (configured : (u.get s).runner.config = some c) : FutureLaw u r l s where
  resolves takes := (start_undisturbed get_set apart takes configured).1
  leaves takes := (start_undisturbed get_set apart takes configured).2
  free idle := by
    obtain ⟨-, -, -, free⟩ := start_opens (r := r) (l := l) get_set configured idle
    exact free
  busy busy := start_refuses get_set configured busy

/-- A bench, and what those who listen have heard of it. -/
def watched : View (Bench × List String) Bench :=
  ⟨fun s => s.1, fun s b => (b, s.2)⟩

/-- Notes what is heard, and fails each time that progress is told. -/
def grumbling : Listeners (Bench × List String) where
  progress := some fun p => do
    View.whole.work (modify fun s => (s.1, s.2 ++ [p.status]))
    throw (.foreign .runtime [.str "progress callback"])
  output := some fun line => View.whole.work (modify fun s => (s.1, s.2 ++ [line]))

theorem started_run_resolves_as_execute_grumbling :
    let s := (printing twoLines .zero, [])
    ∃ a, ((start watched keepReport grumbling).outcome s).1 = .ok (.ok a) ∧
      a.issues.length = 1 ∧
      ((start watched keepReport grumbling).outcome s).2.1.runner.running = false := by
  intro s
  have law : FutureLaw watched keepReport grumbling s := by
    refine started_run_resolves_as_execute (fun _ _ => rfl) ⟨?_, ?_⟩ rfl
    · rintro f ⟨⟩ p s
      rfl
    · rintro f ⟨⟩ line s
      rfl
  obtain ⟨a, answer, -, one, -⟩ := keepReport_succeeds
  refine ⟨a, ?_, one, law.free rfl⟩
  rw [law.resolves (by rintro f ⟨⟩ line s; rfl)]
  exact congrArg Except.ok answer

def refusal : Fault :=
  .foreign .runtime [.str "output callback"]

/-- Takes no line of output. -/
def refusing : Listeners Bench :=
  ⟨none, some fun _ => throw refusal⟩

theorem refusing_apart : refusing.Apart View.whole := by
  constructor
  · rintro f ⟨⟩
  · rintro f ⟨⟩ line s
    rfl

/-- The first line that is refused ends the run. -/
theorem launch_refusing {path line : String} {source : Path} {args : List Json}
    {texts rest : List String} {started : Binary64} {fileCount : Int} {done : Finished}
    {ran : Bench}
    (configured : b.runner.config = some c) (built : b.arguments c r path = .ok args)
    (textual : textsFrom 0 args = .ok texts)
    (ends : (runProgram worldView texts c.timeout).outcome (b.begun path texts) = (.ok done, ran))
    (prints : Text.lines done.stdout = line :: rest) :
    ((launch View.whole c r refusing started source fileCount).outcome (b.ready path)).1 =
      .error refusal := by
  unfold launch
  rw [Work.outcome_bind_ok (Work.outcome_whole _ _ ▸ outcome_adapter (b.ready path)),
    Work.outcome_bind_ok (outcome_command configured built textual),
    Work.outcome_bind_ok (Work.outcome_attempt _ _)]
  rw [show (View.whole.trans worldView : View Bench World) = worldView from rfl, ends]
  dsimp only [refusing]
  rw [prints]
  rfl

theorem refusing_resolves :
    ((start View.whole keepReport refusing).outcome (printing twoLines .zero)).1 =
      .ok (.error refusal) := by
  obtain ⟨b, opened, resolves, -⟩ := start_opens (u := View.whole) (r := keepReport) (l := refusing)
    (s := printing twoLines .zero) (fun _ _ => rfl) rfl rfl
  obtain rfl : b = (printing twoLines .zero).opened := opened
  obtain ⟨ran, ends, -⟩ := printing_ends twoLines .zero
  have found : (executablePath.outcome (printing twoLines .zero)).1 = .ok "/usr/bin/ruff" := rfl
  have named : Path.ofJson ((Config.new .default .ruff "ruff").targetFor keepReport).sourcePath =
      .ok (.ofText "a.py") := rfl
  have listed : (printing twoLines .zero).world.disk.sources (.ofText "a.py")
      (printing twoLines .zero).runner.adapter.extensions = .ok [] :=
    Disk.sources_absent (by decide) rfl _
  have prints : Text.lines twoLines = ["[", "\x7b\"filename\":\"./pkg/a.py\"\x7d]"] := by rfl
  rw [resolves, outcome_run_silent rfl found named, if_neg (by decide), listed]
  exact congrArg Except.ok (launch_refusing rfl rfl rfl ends prints)

/-- Those who take the output may turn the analysis into a fault, and another run that went on goes
on. -/
theorem not_every_future_resolves :
    ¬ (∀ (b : Bench) (c : Config) (r : Request) (l : Listeners Bench) (a : Analysis),
        b.runner.config = some c → l.Apart View.whole →
        ((execute View.whole r .nobody).outcome b).1 = .ok a →
        ((start View.whole r l).outcome b).1 = .ok (.ok a)) ∧
      ¬ ∀ (b : Bench) (c : Config) (r : Request) (l : Listeners Bench),
        b.runner.config = some c → l.Apart View.whole →
        ((start View.whole r l).outcome b).2.runner.running = false := by
  constructor
  · intro claim
    obtain ⟨a, answer, -⟩ := keepReport_succeeds
    cases refusing_resolves.symm.trans (claim _ _ keepReport refusing a rfl refusing_apart answer)
  · intro claim
    have silent : (Listeners.nobody : Listeners Bench).Apart View.whole := ⟨nofun, nofun⟩
    let b := (printing twoLines .zero).opened
    obtain ⟨t, same, resolves⟩ := start_refuses (u := View.whole) (s := b) (r := keepReport)
      (fun _ _ => rfl) rfl rfl
    have free := claim b _ keepReport .nobody rfl silent
    rw [resolves .nobody] at free
    obtain rfl : t = b := same
    cases free

end Execution

end LintHub
