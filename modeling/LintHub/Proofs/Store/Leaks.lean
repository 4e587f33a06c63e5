import LintHub.Proofs.Files.Refusal
import LintHub.Proofs.Store.Entries
import LintHub.Proofs.Store.Saving

/-! # Files that are not told of

What is wrong with a file is told in a store fault if the system refuses it or its text is no
document. Four things are not told: a path with a null character in it, bytes that are no text, an
integer of too many digits, and a time that has no form in UTC.
-/

namespace LintHub

open Fault

/-! ## The system -/

/-- A fault of the operating system. -/
def Fault.System (f : Fault) : Prop :=
  f.isOneOf [.system] = true

theorem system_refused (r : Refusal) (path : String) : (refused r path).System := by
  cases r <;> rfl

theorem nullByte_not_system : ¬ nullByte.System := by
  intro h
  cases h

namespace Disk

/-- A refusal of the system, or a path that is none. -/
def Refuses (p : Path) (f : Fault) : Prop :=
  f.System ∨ f = .nullByte ∧ p.IsNull

theorem arrive_null {d : Disk} {follow : Bool} {p : Path} (null : p.IsNull) :
    d.arrive follow p.text = .error .nullByte :=
  if_pos (Path.isNull_text.mpr null)

theorem arrive_refuses (d : Disk) (follow : Bool) (p : Path) :
    Faults (Refuses p) (d.arrive follow p.text) := by
  intro f h
  unfold arrive at h
  split at h
  · next null =>
    cases h
    exact .inr ⟨rfl, Path.isNull_text.mp null⟩
  · split at h
    · cases h
      exact .inl (system_refused _ _)
    · split at h
      · cases h
        exact .inl (system_refused _ _)
      · obtain ⟨r, -, rfl⟩ := mapError_error_iff.mp h
        exact .inl (system_refused _ _)

/-- What fails in no other way than a walk, and fails on a path that is none. -/
theorem leaks_iff {α : Type} {e : Except Fault α} {p : Path} {f : Fault}
    (refuses : Faults (Refuses p) e) (null : p.IsNull → e = .error .nullByte) :
    (e = .error f ∧ ¬ f.System) ↔ f = .nullByte ∧ p.IsNull := by
  constructor
  · rintro ⟨h, other⟩
    exact (refuses f h).resolve_left other
  · rintro ⟨rfl, isNull⟩
    exact ⟨null isNull, nullByte_not_system⟩

theorem readBytes_leaks_iff {d : Disk} {p : Path} {f : Fault} :
    (d.readBytes p = .error f ∧ ¬ f.System) ↔ f = .nullByte ∧ p.IsNull := by
  refine leaks_iff (.bind (.bind (arrive_refuses d true p) fun a => ?_) fun e => ?_) fun null => ?_
  · cases a.entry with
    | none => exact .throw (.inl (system_refused _ _))
    | some e => exact .pure e
  · cases e with
    | file => exact .pure _
    | _ => exact .throw (.inl (system_refused _ _))
  · unfold readBytes open?
    rw [arrive_null null]
    rfl

theorem writeBytes_leaks_iff {d : Disk} {p : Path} {bytes : List UInt8} {f : Fault} :
    (d.writeBytes p bytes = .error f ∧ ¬ f.System) ↔ f = .nullByte ∧ p.IsNull := by
  refine leaks_iff (.bind (arrive_refuses d true p) fun a => ?_) fun null => ?_
  · rcases a.entry with _ | _ | _ | _
    · exact .pure _
    · exact .throw (.inl (system_refused _ _))
    · exact .pure _
    · exact .throw (.inl (system_refused _ _))
  · unfold writeBytes
    rw [arrive_null null]
    rfl

theorem makeDirectory_refuses (d : Disk) (p : Path) : Faults (Refuses p) (d.makeDirectory p) := by
  refine .bind (arrive_refuses d false p) fun a => ?_
  cases a.entry with
  | none => exact .pure _
  | some e => exact .throw (.inl (system_refused _ _))

theorem ensureDirectory_refuses (d : Disk) (p : Path) :
    Faults (Refuses p) (d.ensureDirectory p) := by
  unfold ensureDirectory
  split
  · exact .ok _
  · next g made =>
    have refuses := makeDirectory_refuses d p g made
    split
    · exact .error refuses
    · refine .bind (.map fun f h => ?_) fun is => ?_
      · rw [status_error h]
        exact .inl (system_refused _ _)
      · split
        · exact .pure _
        · exact .throw refuses

theorem ensureDirectory_null {d : Disk} {p : Path} (null : p.IsNull) :
    d.ensureDirectory p = .error .nullByte := by
  unfold ensureDirectory makeDirectory
  rw [arrive_null null]
  rfl

/-- By induction on the directories that are missing: a null character in one of them stands in the
whole path too. -/
theorem ensureDirectories_refuses (d : Disk) (slashes : Nat) (parts : List String) :
    Faults (Refuses ⟨slashes, parts⟩) (d.ensureDirectories slashes parts) := by
  fun_induction ensureDirectories d slashes parts with
  | case1 parts d' made => exact .ok _
  | case2 parts f failed missing ih =>
    refine .bind (ih.mono fun g h => ?_) fun d' => ensureDirectory_refuses d' _
    exact h.imp_right (And.imp_right Path.isNull_of_dropLast)
  | case3 parts f failed other => exact .error (ensureDirectory_refuses d _ f failed)

theorem makeDirectories_leaks_iff {d : Disk} {p : Path} {f : Fault} :
    (d.makeDirectories p = .error f ∧ ¬ f.System) ↔ f = .nullByte ∧ p.IsNull := by
  refine leaks_iff (ensureDirectories_refuses d p.slashes p.parts) fun null => ?_
  unfold makeDirectories
  rw [ensureDirectories, ensureDirectory_null null]
  rfl

end Disk

namespace Store

/-! ## Reading -/

/-- A file of which the store does not tell what is wrong with it. -/
inductive Unreadable (d : Disk) (p : Path) : Fault → Prop where
  | null (null : p.IsNull) : Unreadable d p .nullByte
  | bytes {bs : List UInt8} {e : Text.Utf8Error} (read : d.readBytes p = .ok bs)
    (text : Text.decodeUtf8 bs = .error e) : Unreadable d p (.encoding e)
  | digits {text : String} {count : Nat} (read : textOf (d.readBytes p) = .ok text)
    (document : Json.read text = .error (.tooManyDigits count)) :
    Unreadable d p (.json (.tooManyDigits count))

theorem Unreadable.not_store {d : Disk} {p : Path} {f : Fault} (h : Unreadable d p f) :
    ¬ f.IsStore := by
  rintro ⟨text, rfl⟩
  cases h

theorem textOf_error_iff {content : Except Fault (List UInt8)} {f : Fault} :
    textOf content = .error f ↔
      content = .error f ∨
        ∃ bs e, content = .ok bs ∧ Text.decodeUtf8 bs = .error e ∧ f = .encoding e := by
  unfold textOf
  simp only [bind_error_iff, mapError_error_iff]
  constructor
  · rintro (h | ⟨bs, read, ⟨e, text, rfl⟩ | ⟨s, -, h⟩⟩)
    · exact .inl h
    · exact .inr ⟨bs, e, read, text, rfl⟩
    · cases h
  · rintro (h | ⟨bs, e, read, text, rfl⟩)
    · exact .inl h
    · exact .inr ⟨bs, read, .inl ⟨e, text, rfl⟩⟩

theorem documentOf_leaks_iff {d : Disk} {path : String} {f : Fault} :
    (documentOf path (d.readBytes (.ofText path)) = .error f ∧ ¬ f.IsStore) ↔
      Unreadable d (.ofText path) f := by
  constructor
  · rintro ⟨h, other⟩
    unfold documentOf at h
    dsimp only at h
    split at h
    · next g fails =>
      split at h
      · cases h
        exact (other ⟨_, rfl⟩).elim
      · next kept =>
        cases h
        rcases textOf_error_iff.mp fails with fails | ⟨bs, e, read, text, rfl⟩
        · obtain ⟨rfl, null⟩ := Disk.readBytes_leaks_iff.mp ⟨fails, kept⟩
          exact .null null
        · exact .bytes read text
    · next text read =>
      split at h
      · next e document =>
        cases e with
        | malformed problem place =>
          cases h
          exact (other ⟨_, rfl⟩).elim
        | tooManyDigits count =>
          cases h
          exact .digits read document
      · cases h
      · cases h
      · cases h
        exact (other ⟨_, rfl⟩).elim
  · intro h
    refine ⟨?_, h.not_store⟩
    unfold documentOf
    dsimp only
    cases h with
    | null null =>
      rw [(Disk.readBytes_leaks_iff.mpr ⟨rfl, null⟩).1]
      rfl
    | bytes read text =>
      rw [textOf_error_iff.mpr (.inr ⟨_, _, read, text, rfl⟩)]
      rfl
    | digits read document =>
      rw [read]
      dsimp only
      rw [document]
      rfl

/-- The entries of a document in a file. -/
def entries : Json → List Json
  | .arr docs => docs
  | doc => [doc]

theorem analysesOf_leaks_iff {now : Time.Moment} {d : Disk} {path : String} {f : Fault} :
    (analysesOf now path (d.readBytes (.ofText path)) = .error f ∧ ¬ f.IsStore) ↔
      Unreadable d (.ofText path) f ∨
        ∃ doc, documentOf path (d.readBytes (.ofText path)) = .ok doc ∧
          Overflows now (entries doc) f := by
  have unfolded : analysesOf now path (d.readBytes (.ofText path)) =
      documentOf path (d.readBytes (.ofText path)) >>= fun doc =>
        ofDocumentsFrom now path 0 (entries doc) := by
    unfold analysesOf
    congr 1
    funext doc
    cases doc <;> rfl
  rw [unfolded, bind_error_iff]
  constructor
  · rintro ⟨h | ⟨doc, read, h⟩, other⟩
    · exact .inl (documentOf_leaks_iff.mp ⟨h, other⟩)
    · exact .inr ⟨doc, read, (ofDocumentsFrom_leaks_iff path 0).mp ⟨h, other⟩⟩
  · rintro (h | ⟨doc, read, overflows⟩)
    · obtain ⟨fails, other⟩ := documentOf_leaks_iff.mpr h
      exact ⟨.inl fails, other⟩
    · obtain ⟨fails, other⟩ := (ofDocumentsFrom_leaks_iff path 0).mpr overflows
      exact ⟨.inr ⟨doc, read, fails⟩, other⟩

theorem analysisOf_leaks_iff {now : Time.Moment} {d : Disk} {path : String} {f : Fault} :
    (analysisOf now path (d.readBytes (.ofText path)) = .error f ∧ ¬ f.IsStore) ↔
      Unreadable d (.ofText path) f ∨
        ∃ doc fs, documentOf path (d.readBytes (.ofText path)) = .ok doc ∧
          entries doc = [.obj fs] ∧ Analysis.Overflows now fs f := by
  unfold analysisOf
  rw [bind_error_iff]
  constructor
  · rintro ⟨h | ⟨doc, read, h⟩, other⟩
    · exact .inl (documentOf_leaks_iff.mp ⟨h, other⟩)
    · refine .inr ⟨doc, ?_⟩
      split at h
      · next single =>
        obtain ⟨fs, rfl, overflows⟩ := (ofDocument_leaks_iff path 0).mp ⟨h, other⟩
        exact ⟨fs, read, rfl, overflows⟩
      · cases h
        exact (other ⟨_, rfl⟩).elim
      · obtain ⟨fs, rfl, overflows⟩ := (ofDocument_leaks_iff path 0).mp ⟨h, other⟩
        exact ⟨fs, read, rfl, overflows⟩
  · rintro (h | ⟨doc, fs, read, one, overflows⟩)
    · obtain ⟨fails, other⟩ := documentOf_leaks_iff.mpr h
      exact ⟨.inl fails, other⟩
    · obtain ⟨fails, other⟩ := (ofDocument_leaks_iff path 0).mpr
        ⟨fs, rfl, overflows⟩
      refine ⟨.inr ⟨doc, read, ?_⟩, other⟩
      cases doc with
      | arr docs =>
        rw [entries] at one
        rw [one]
        exact fails
      | obj fields =>
        cases one
        exact fails
      | _ => cases one

/-! ## Writing -/

/-- A document that is not written, with a fault that the store does not tell of. -/
inductive Unwritten (d : Disk) (p : Path) (doc : Json) : Fault → Prop where
  | directory (null : p.parent.IsNull) : Unwritten d p doc .nullByte
  | digits {made : Disk} (directories : d.makeDirectories p.parent = .ok made)
    (long : doc.integersFit = false) : Unwritten d p doc .integerTooLong
  | name {made : Disk} (directories : d.makeDirectories p.parent = .ok made)
    (short : doc.integersFit = true) (null : p.IsNull) : Unwritten d p doc .nullByte

theorem written_leaks_iff {d : Disk} {p : Path} {doc : Json} {f : Fault} :
    ((written d p doc).1 = .error f ∧ ¬ f.System) ↔ Unwritten d p doc f := by
  unfold written fileText
  constructor
  · rintro ⟨h, other⟩
    cases made : d.makeDirectories p.parent with
    | error g =>
      rw [made] at h
      cases h
      obtain ⟨rfl, null⟩ := Disk.makeDirectories_leaks_iff.mp ⟨made, other⟩
      exact .directory null
    | ok made' =>
      rw [made] at h
      dsimp only at h
      cases fit : doc.integersFit with
      | false =>
        rw [fit] at h
        cases h
        exact .digits made fit
      | true =>
        rw [fit, if_pos rfl] at h
        dsimp only at h
        split at h
        · next g fails =>
          cases h
          obtain ⟨rfl, null⟩ := Disk.writeBytes_leaks_iff.mp ⟨fails, other⟩
          exact .name made fit null
        · cases h
  · intro h
    cases h with
    | directory null =>
      obtain ⟨fails, other⟩ := Disk.makeDirectories_leaks_iff.mpr ⟨rfl, null⟩
      rw [fails]
      exact ⟨rfl, other⟩
    | digits directories long =>
      rw [directories, long]
      exact ⟨rfl, fun h => (nomatch h)⟩
    | name directories short null =>
      obtain ⟨fails, other⟩ := Disk.writeBytes_leaks_iff.mpr ⟨rfl, null⟩
      rw [directories, short, if_pos rfl]
      dsimp only
      rw [Disk.writeText, fails]
      exact ⟨rfl, other⟩

theorem save_leaks_iff {path : String} {doc : Json} {w : World} {f : Fault} :
    (((save path doc).outcome w).1 = .error f ∧ ¬ f.IsStore) ↔
      Unwritten w.disk (.ofText path) doc f := by
  rw [← written_leaks_iff, outcome_save]
  rcases written w.disk (Path.ofText path) doc with ⟨g | ⟨⟩, d⟩
  · dsimp only
    constructor
    · rintro ⟨h, other⟩
      unfold savingFault at h
      split at h
      · cases h
        exact (other ⟨_, rfl⟩).elim
      · next kept =>
        cases h
        exact ⟨rfl, kept⟩
    · rintro ⟨h, kept⟩
      cases h
      refine ⟨congrArg Except.error (if_neg kept), ?_⟩
      rintro ⟨text, rfl⟩
      exact kept rfl
  · constructor
    · rintro ⟨h, -⟩
      cases h
    · rintro ⟨h, -⟩
      cases h

/-- What a save that succeeds leaves in the file. -/
theorem save_ok {path : String} {doc : Json} {w w' : World} {p : Path}
    (h : (save path doc).outcome w = (.ok p, w')) :
    p = .ofText path ∧ ∃ text, fileText doc = .ok text ∧
      w'.disk.readBytes p = .ok (Text.encodeUtf8 text) := by
  rw [outcome_save] at h
  cases done : written w.disk (Path.ofText path) doc with
  | mk result d =>
    rw [done] at h
    cases result with
    | error f => cases h
    | ok =>
      cases h
      refine ⟨rfl, ?_⟩
      unfold written at done
      split at done
      · cases done
      · split at done
        · cases done
        · next text fit =>
          split at done
          · cases done
          · next wrote =>
            cases done
            exact ⟨text, fit, Disk.readBytes_writeBytes wrote⟩

theorem toJson_error_iff {a : Analysis} {f : Fault} :
    a.toJson = .error f ↔ ∃ e, a.timestamp.toUtc = .error e ∧ f = .moment e := by
  unfold Analysis.toJson Time.Moment.text
  cases a.timestamp.toUtc with
  | ok u => exact ⟨fun h => (nomatch h), fun ⟨_, h, _⟩ => (nomatch h)⟩
  | error e =>
    constructor
    · intro h
      cases h
      exact ⟨e, rfl, rfl⟩
    · rintro ⟨_, h, rfl⟩
      cases h
      rfl

theorem toJson_ok_iff {a : Analysis} :
    (∃ doc, a.toJson = .ok doc) ↔ ∃ u, a.timestamp.toUtc = .ok u := by
  unfold Analysis.toJson Time.Moment.text
  cases a.timestamp.toUtc with
  | ok u => exact ⟨fun _ => ⟨u, rfl⟩, fun _ => ⟨_, rfl⟩⟩
  | error e => exact ⟨fun ⟨_, h⟩ => (nomatch h), fun ⟨_, h⟩ => (nomatch h)⟩

end Store

end LintHub
