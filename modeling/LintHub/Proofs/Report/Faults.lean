import LintHub.Proofs.Files.Refusal
import LintHub.Proofs.Json.Values
import LintHub.Tool.Execution

/-! # What can go wrong in a report

Whatever the text of a report and the files around it, reading it fails with a fault that is told in a
failed analysis, or with one of two that are not: an integer is asked of an infinite number, or a path
leads through a loop of links.
-/

namespace LintHub

namespace Fault

/-- A fault of a report that is told in a failed analysis. -/
def Caught (f : Fault) : Prop :=
  f.isOneOf Bench.reportFaults = true

/-- A fault of a report that is not. -/
inductive Leaks : Fault → Prop where
  | infinite : Leaks .infiniteInteger
  | loop (path : String) : Leaks (.linkLoop path)

def OfReport (f : Fault) : Prop :=
  f.Caught ∨ f.Leaks

theorem Leaks.not_caught {f : Fault} (h : f.Leaks) : ¬ f.Caught := by
  cases h <;> exact Bool.false_ne_true

theorem caught_refused (r : Refusal) (path : String) : (refused r path).Caught := by
  cases r <;> rfl

theorem caught_json (e : Json.ReadError) : (json e).Caught := by
  cases e <;> rfl

end Fault

theorem Faults.report {α : Type} {e : Except Fault α} (he : Faults Fault.Caught e) :
    Faults Fault.OfReport e :=
  he.mono fun _ => .inl

open Fault

/-! ## Values -/

theorem Fault.Malformed.caught {f : Fault} (h : f.Malformed) : f.Caught := by
  obtain ⟨kind, mem, is⟩ := List.any_eq_true.mp h
  have wider : ∀ k ∈ [FaultKind.value, .type, .member, .key], k ∈ Bench.reportFaults := by decide
  exact List.any_eq_true.mpr ⟨kind, wider kind mem, is⟩

theorem toInt_faults (v : Json) : Faults OfReport v.toInt := by
  intro f h
  rcases toInt_error h with malformed | ⟨rfl, -⟩
  · exact .inl malformed.caught
  · exact .inr .infinite

theorem fieldsFor_faults (member : String) (v : Json) : Faults Caught (v.fieldsFor member) :=
  (fieldsFor_malformed member v).mono fun _ => Malformed.caught

theorem textFor_faults (member : String) (v : Json) : Faults Caught (v.textFor member) :=
  (textFor_malformed member v).mono fun _ => Malformed.caught

theorem items_faults (v : Json) : Faults Caught v.items :=
  (items_malformed v).mono fun _ => Malformed.caught

/-! ## Paths -/

/-- A fault of a path. -/
def Fault.OfPath (f : Fault) : Prop :=
  f.Caught ∨ ∃ path, f = .linkLoop path

theorem Fault.OfPath.ofReport {f : Fault} (h : f.OfPath) : f.OfReport := by
  rcases h with caught | ⟨path, rfl⟩
  · exact .inl caught
  · exact .inr (.loop path)

theorem resolve_faults (d : Disk) (p : Path) : Faults OfPath (d.resolve p) := by
  unfold Disk.resolve
  split
  · exact .error (.inl rfl)
  · dsimp only
    split
    · exact .error (.inr ⟨_, rfl⟩)
    · exact .ok _

theorem within_faults (d : Disk) (base p : Path) : Faults OfPath (d.within base p) := by
  refine .bind (resolve_faults d base) fun base => ?_
  split
  · exact .bind (resolve_faults d p) fun _ => .pure _
  · exact .pure _

theorem status_faults (d : Disk) (p : Path) : Faults Caught (d.status p) := by
  intro f h
  rw [Disk.status_error h]
  exact caught_refused _ _

theorem relativePath_faults (d : Disk) (name : Json) (root : Option Path) :
    Faults OfPath (relativePath d name root) := by
  unfold relativePath
  split
  · exact .pure _
  · refine .bind ((textFor_faults _ _).mono fun _ => .inl) fun text => ?_
    cases root with
    | none => exact .pure _
    | some root =>
      refine .bind ((Faults.map (status_faults d root)).mono fun _ => .inl) fun b => ?_
      dsimp only
      split
      · exact .pure _
      · exact .pure _
      · next f h =>
        split
        · exact .pure _
        · exact .throw (within_faults _ _ _ f h)

/-! ## Findings -/

theorem classifyFinding_faults (code : Json) : Faults Caught (RuffReport.classifyFinding code) := by
  unfold RuffReport.classifyFinding RuffReport.classifyValue
  split
  · exact .ok _
  · exact .map (textFor_faults _ _)

theorem columnOf_faults (d : Fields) : Faults OfReport (BanditReport.columnOf d) := by
  unfold BanditReport.columnOf
  split
  · exact .ok _
  · exact .map (toInt_faults _)

theorem RuffReport.issueOf_faults (d : Disk) (root : Option Path) (v : Json) :
    Faults OfReport (issueOf d root v) := by
  refine .bind (fieldsFor_faults _ _).report fun fields => ?_
  refine .bind ((relativePath_faults _ _ _).mono fun _ => OfPath.ofReport) fun path => ?_
  refine .bind (fieldsFor_faults _ _).report fun place => ?_
  refine .bind (toInt_faults _) fun line => ?_
  refine .bind (toInt_faults _) fun column => ?_
  refine .bind (classifyFinding_faults _).report fun kind => ?_
  exact .bind (fieldsFor_faults _ _).report fun fix => .pure _

theorem RuffReport.issuesOf_faults (d : Disk) (root : Option Path) (text : String) :
    Faults OfReport (issuesOf d root text) := by
  refine .bind (.mapError fun e => .inl (caught_json e)) fun doc => ?_
  cases doc with
  | arr items => exact .mapM (issueOf_faults d root)
  | _ => exact .throw (.inl rfl)

theorem BanditReport.issueOf_faults (d : Disk) (root : Option Path) (v : Json) :
    Faults OfReport (issueOf d root v) := by
  refine .bind (fieldsFor_faults _ _).report fun fields => ?_
  refine .bind ((relativePath_faults _ _ _).mono fun _ => OfPath.ofReport) fun path => ?_
  refine .bind (toInt_faults _) fun line => ?_
  refine .bind (columnOf_faults _) fun column => ?_
  exact .bind (textFor_faults _ _).report fun severity => .pure _

theorem BanditReport.read_faults (root : Option Path) (text : String) :
    Act.Faults OfReport (read root text) := by
  refine .bind (.lift (.mapError fun e => .inl (caught_json e))) fun doc => ?_
  refine .bind (.lift (fieldsFor_faults _ _).report) fun fields => ?_
  refine .bind (.lift (items_faults _).report) fun errors => ?_
  refine .bind (.forM fun v => ?_) fun _ => .bind .get fun w => ?_
  · exact .bind (.lift (fieldsFor_faults _ _).report) fun d => fun _ => .ok _
  · refine .bind (.lift (items_faults _).report) fun found => ?_
    refine .bind (.lift (.mapM (issueOf_faults _ _))) fun issues => ?_
    exact .bind (.lift (.bind (items_faults _).report fun _ => .pure _)) fun files => .pure _

/-! ## The text of a report -/

theorem caught_absence {f : Fault} (h : Disk.isAbsence f = true) : f.Caught := by
  unfold Disk.isAbsence at h
  split at h
  · rfl
  · exact caught_refused _ _
  · cases h

theorem arrive_faults (d : Disk) (follow : Bool) (s : String) : Faults Caught (d.arrive follow s) := by
  intro f h
  rcases Disk.arrive_error h with absent | rfl
  · exact caught_absence absent
  · exact caught_refused _ _

theorem open?_faults (d : Disk) (s : String) : Faults Caught (d.open? s) := by
  refine .bind (arrive_faults d true s) fun a => ?_
  cases a.entry with
  | none => exact .throw (caught_refused _ _)
  | some e => exact .pure e

theorem readText_faults (d : Disk) (p : Path) : Faults Caught (d.readText p) := by
  refine .bind (.bind (open?_faults d p.text) fun e => ?_) fun bytes => ?_
  · cases e with
    | file => exact .pure _
    | _ => exact .throw (caught_refused _ _)
  · exact .bind (.mapError fun _ => rfl) fun _ => .pure _

theorem writeText_faults (d : Disk) (p : Path) (s : String) : Faults Caught (d.writeText p s) := by
  refine .bind (arrive_faults d true p.text) fun a => ?_
  rcases a.entry with _ | _ | _ | _
  · exact .pure _
  · exact .throw (caught_refused _ _)
  · exact .pure _
  · exact .throw (caught_refused _ _)

theorem pathOfJson_faults (v : Json) : Faults Caught (Path.ofJson v) := by
  cases v <;> first | exact .ok _ | exact .error rfl

namespace Bench

theorem reportText_faults (c : Config) (r : Request) (printed : String) :
    Act.Faults Caught (reportText c r printed) := by
  refine .bind (.bind .get fun b => .pure _) fun a => ?_
  cases a with
  | ruff =>
    dsimp only
    split
    · refine .bind (.lift (pathOfJson_faults _)) fun p => .bind .get fun b => ?_
      refine .bind (.lift (writeText_faults _ p printed)) fun disk => ?_
      exact .bind (.modify _) fun _ => .pure _
    · exact .pure _
  | bandit =>
    dsimp only
    split
    · exact .pure _
    · refine .bind (.lift (pathOfJson_faults _)) fun p => .bind .get fun b => ?_
      refine .bind (.lift (.map (status_faults _ p))) fun there => ?_
      split
      · exact .lift (readText_faults _ p)
      · exact .pure _

theorem readReport_faults (root : Option Path) (text : String) :
    Act.Faults OfReport (readReport root text) := by
  refine .bind (.bind .get fun b => .pure _) fun a => ?_
  cases a with
  | ruff =>
    exact .bind .get fun b =>
      .bind (.lift (RuffReport.issuesOf_faults _ _ _)) fun issues => .pure _
  | bandit => exact .view (BanditReport.read_faults root text)

end Bench

end LintHub
