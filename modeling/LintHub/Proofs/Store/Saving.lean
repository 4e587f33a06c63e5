import LintHub.Store
import LintHub.Proofs.Work.Outcome
import LintHub.Proofs.Files.Kept

/-! # Saving and loading step by step

What a save does to the world, and what a load comes to, which leaves the world as it is.
-/

namespace LintHub

/-- A file can be written at a path once the directories that lead to it are made. -/
def Disk.Writable (d : Disk) (p : Path) : Prop :=
  ∃ made bytes written, d.makeDirectories p.parent = .ok made ∧ made.writeBytes p bytes = .ok written

/-- Whether a file can be written does not depend on what is written. -/
theorem Disk.writeBytes_any {d written : Disk} {p : Path} {bytes : List UInt8}
    (h : d.writeBytes p bytes = .ok written) (other : List UInt8) :
    ∃ written', d.writeBytes p other = .ok written' := by
  obtain ⟨a, arrived, h⟩ := bind_ok_iff.mp h
  unfold writeBytes
  rw [arrived]
  cases entry : a.entry with
  | none => exact ⟨_, by simp only [bind, Except.bind, entry]; rfl⟩
  | some e =>
    rw [entry] at h
    cases e with
    | directory => cases h
    | file old executable => exact ⟨_, by simp only [bind, Except.bind, entry]; rfl⟩
    | link target => cases h

namespace Store

/-- What is left on the disk and the fault, if there is one, of a document that is written. -/
def written (d : Disk) (p : Path) (doc : Json) : Except Fault Unit × Disk :=
  match d.makeDirectories p.parent with
  | .error f => (.error f, d)
  | .ok made =>
    match fileText doc with
    | .error f => (.error f, made)
    | .ok text =>
      match made.writeText p text with
      | .error f => (.error f, made)
      | .ok d => (.ok (), d)

theorem outcome_writeFile (p : Path) (doc : Json) (w : World) :
    (writeFile p doc).outcome w =
      ((written w.disk p doc).1, { w with disk := (written w.disk p doc).2 }) := by
  unfold writeFile written
  rw [Act.outcome_bind_ok (Act.outcome_get w), Act.outcome_bind, Act.outcome_except]
  cases w.disk.makeDirectories p.parent with
  | error f => rfl
  | ok made =>
    dsimp only
    rw [Act.outcome_bind_ok (Act.outcome_set _ _), Act.outcome_bind, Act.outcome_except]
    cases fileText doc with
    | error f => rfl
    | ok text =>
      dsimp only
      rw [Act.outcome_bind, Act.outcome_except]
      cases made.writeText p text <;> rfl

/-- A fault of writing as a save tells it: system faults become store faults. -/
def savingFault (p : Path) (f : Fault) : Fault :=
  if f.isOneOf [.system] then .store s!"Cannot open file for writing: {p.text}: {f.message}" else f

/-- The event of a save that succeeded. -/
def savedEvent (p : Path) : LogEvent :=
  ⟨.info, .store, "Saved results to " ++ p.text, none, none, none⟩

theorem outcome_save (path : String) (doc : Json) (w : World) :
    (save path doc).outcome w =
      match written w.disk (Path.ofText path) doc with
      | (.ok (), d) =>
        (.ok (Path.ofText path), ({ w with disk := d } : World).record (savedEvent (Path.ofText path)))
      | (.error f, d) => (.error (savingFault (Path.ofText path) f), { w with disk := d }) := by
  have tried := outcome_writeFile (Path.ofText path) doc w
  unfold save
  dsimp only
  rw [Act.outcome_bind, Act.outcome_tryCatch, tried]
  rcases written w.disk (Path.ofText path) doc with ⟨_ | _, d⟩
  · rfl
  · rfl

theorem outcome_saveOne (a : Analysis) (path : String) (w : World) :
    (saveOne a path).outcome w =
      match a.toJson with
      | .ok doc => (save path doc).outcome w
      | .error f => (.error f, w) := by
  unfold saveOne
  rw [Act.outcome_bind, Act.outcome_except]
  cases a.toJson <;> rfl

theorem outcome_saveAll (as : List Analysis) (path : String) (w : World) :
    (saveAll as path).outcome w =
      match as.mapM Analysis.toJson with
      | .ok docs => (save path (.arr docs)).outcome w
      | .error f => (.error f, w) := by
  unfold saveAll
  rw [Act.outcome_bind, Act.outcome_mapM_except]
  cases as.mapM Analysis.toJson <;> rfl

/-- The files after several analyses were saved, as far as that went well. -/
def filesSaved (as : List Analysis) (path : String) (d : Disk) : Disk :=
  match as.mapM Analysis.toJson with
  | .ok docs => (written d (Path.ofText path) (.arr docs)).2
  | .error _ => d

theorem disk_saveAll (as : List Analysis) (path : String) (w : World) :
    ((saveAll as path).outcome w).2.disk = filesSaved as path w.disk := by
  rw [outcome_saveAll, filesSaved]
  cases as.mapM Analysis.toJson with
  | error f => rfl
  | ok docs =>
    dsimp only
    rw [outcome_save]
    rcases written w.disk (Path.ofText path) (.arr docs) with ⟨_ | _, d⟩ <;> rfl

theorem outcome_loadAll (path : String) (w : World) :
    (loadAll path).outcome w =
      (analysesOf w.stamp.time path (w.disk.readBytes (.ofText path)), w) := rfl

theorem outcome_load (path : String) (w : World) :
    (load path).outcome w =
      (analysisOf w.stamp.time path (w.disk.readBytes (.ofText path)), w) := rfl

end Store

end LintHub
