import LintHub.Files.Disk
import LintHub.Proofs.Files.OutputPath

/-! # Refused paths

A walk is refused in four ways. Three of them only say that nothing is there, so that looking at a
path fails in one way: its name is too long.
-/

namespace LintHub.Disk

theorem walk_error {d : Disk} {follow : Bool} {links : Nat} {l : Location} {steps : List String}
    {e : Refusal} (h : d.walk follow links l steps = .error e) :
    e = .nameTooLong ∨ e = .noEntry ∨ e = .notDirectory ∨ e = .tooManyLinks := by
  fun_induction walk d follow links l steps <;> simp_all

theorem arrive_error {d : Disk} {follow : Bool} {s : String} {f : Fault}
    (h : d.arrive follow s = .error f) : isAbsence f = true ∨ f = .refused .nameTooLong s := by
  unfold arrive at h
  split at h
  · cases h
    exact .inl rfl
  · split at h
    · cases h
      exact .inl rfl
    · split at h
      · cases h
        exact .inr rfl
      · cases hw : d.walk follow linkLimit (if startsAtRoot s then [] else d.here) (rawSteps s) with
        | ok a =>
          rw [hw] at h
          cases h
        | error e =>
          rw [hw] at h
          cases h
          rcases walk_error hw with rfl | rfl | rfl | rfl
          · exact .inr rfl
          · exact .inl rfl
          · exact .inl rfl
          · exact .inl rfl

theorem open?_error {d : Disk} {s : String} {f : Fault} (h : d.open? s = .error f) :
    isAbsence f = true ∨ f = .refused .nameTooLong s := by
  unfold open? at h
  cases ha : d.arrive true s with
  | error e =>
    rw [ha] at h
    cases h
    exact arrive_error ha
  | ok a =>
    rw [ha] at h
    rcases he : a.entry with _ | e
    · simp only [bind, Except.bind, he] at h
      cases h
      exact .inl rfl
    · simp only [bind, Except.bind, he] at h
      cases h

theorem status_error {d : Disk} {p : Path} {f : Fault} (h : d.status p = .error f) :
    f = .refused .nameTooLong p.text := by
  unfold status at h
  cases ho : d.open? p.text with
  | ok e =>
    rw [ho] at h
    cases h
  | error e =>
    rw [ho] at h
    rcases open?_error ho with absent | rfl
    · simp only [absent, if_true] at h
      cases h
    · cases h
      rfl

theorem map_status_error {α : Type} {d : Disk} {p : Path} {f : Fault} {g : Option Entry → α}
    (h : (d.status p).map g = .error f) : f = .refused .nameTooLong p.text := by
  cases hs : d.status p with
  | ok e =>
    rw [hs] at h
    cases h
  | error e =>
    rw [hs] at h
    cases h
    exact status_error hs

theorem isFile_error {d : Disk} {p : Path} {f : Fault} (h : d.isFile p = .error f) :
    f = .refused .nameTooLong p.text :=
  map_status_error h

theorem isDirectory_error {d : Disk} {p : Path} {f : Fault} (h : d.isDirectory p = .error f) :
    f = .refused .nameTooLong p.text :=
  map_status_error h

theorem arrive_of_isDirectory {d : Disk} {p : Path} (h : d.isDirectory p = .ok true) :
    ∃ a, d.arrive true p.text = .ok a := by
  unfold isDirectory status open? at h
  cases arrived : d.arrive true p.text with
  | ok a => exact ⟨a, rfl⟩
  | error f =>
    rw [arrived] at h
    rcases arrive_error arrived with absent | rfl
    · simp [bind, Except.bind, absent, Except.map] at h
    · cases h

/-- A single step that is too long cannot be looked at, whatever there is on the disk. -/
theorem status_tooLong (d : Disk) {s : String} (slashless : '/' ∉ s.toList)
    (noNull : '\x00' ∉ s.toList) (long : nameLimit < s.utf8ByteSize)
    (fits : s.utf8ByteSize ≤ pathLimit) :
    d.status (Path.ofText s) = .error (.refused .nameTooLong s) := by
  have ne (t : String) (short : t.utf8ByteSize ≤ 2) : s ≠ t := by
    rintro rfl
    unfold nameLimit at long
    omega
  have notEmpty : s ≠ "" := ne "" (by decide)
  have step : Path.isStep s.toList = true := by
    have noDot : s.toList ≠ ['.'] := fun h => ne "." (by decide) (String.toList_inj.mp h)
    unfold Path.isStep
    simp [notEmpty, noDot]
  have ends : s.toList.getLast? ≠ some '/' := fun h => slashless (List.mem_of_getLast? h)
  have starts : s.toList.head? ≠ some '/' := fun h => slashless (List.mem_of_head? h)
  have raw : rawSteps s = [s] := by
    unfold rawSteps
    rw [Path.splitSteps_of_slashless slashless]
    simp [ends, notEmpty]
  have walked : d.walk true linkLimit d.here [s] = .error .nameTooLong := by
    rw [walk, if_neg (ne "." (by decide)), if_neg (ne ".." (by decide)), if_pos long]
  have arrived : d.arrive true s = .error (.refused .nameTooLong s) := by
    unfold arrive startsAtRoot
    have relative : (s.toList.head? == some '/') = false := by simpa using starts
    rw [if_neg (by simpa using noNull), if_neg (by simpa using notEmpty),
      if_neg (Nat.not_lt.mpr fits), raw, relative, if_neg (by decide), walked]
    rfl
  have opened : d.open? s = .error (.refused .nameTooLong s) := by
    unfold open?
    rw [arrived]
    rfl
  unfold status
  rw [Path.text_of_slashless slashless step, opened]
  rfl

end LintHub.Disk

namespace LintHub

/-- Three hundred letters. -/
def longName : String :=
  String.ofList (List.replicate 300 'x')

theorem longName_toList : longName.toList = List.replicate 300 'x' :=
  String.toList_ofList

theorem longName_refused (d : Disk) :
    d.status (Path.ofText longName) = .error (.refused .nameTooLong longName) := by
  refine Disk.status_tooLong d ?_ ?_ (by decide +kernel) (by decide +kernel)
  · rw [longName_toList]
    decide
  · rw [longName_toList]
    decide

end LintHub
