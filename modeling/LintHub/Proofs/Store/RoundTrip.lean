import LintHub.Proofs.Run.Frame
import LintHub.Proofs.Store.Documents
import LintHub.Proofs.Store.Saving
import LintHub.Proofs.Text.Newlines
import LintHub.Proofs.Text.Utf8

/-! # Saving and loading

What is saved is loaded again: every document as it was written, so every analysis up to the precision
that its document has.
-/

namespace LintHub.Store

open Json (Plain IsLined)

/-! ## The file -/

theorem textOf_encoded {s : String} (h : IsLined s.toList) :
    textOf (.ok (Text.encodeUtf8 s)) = .ok s := by
  show ((Text.decodeUtf8 (Text.encodeUtf8 s)).mapError Fault.encoding >>= _) = _
  rw [Text.decodeUtf8_encodeUtf8]
  show Except.ok (String.ofList (Text.unifyNewlines s.toList)) = _
  rw [Text.unifyNewlines_of_unreturned h.unreturned, String.ofList_toList]

theorem fileText_plain {doc : Json} (plain : doc.Plain) :
    fileText doc = .ok (doc.writeIndented 0) :=
  if_pos (Json.integersFit_of_plain doc plain)

/-- A document that is written where a file can be written is what the file holds afterwards. -/
theorem save_plain {w : World} {path : String} {doc : Json}
    (writable : w.disk.Writable (Path.ofText path)) (plain : doc.Plain) :
    ∃ w', (save path doc).outcome w = (.ok (Path.ofText path), w') ∧
      w'.disk.readBytes (Path.ofText path) = .ok (Text.encodeUtf8 (doc.writeIndented 0)) := by
  obtain ⟨made, bytes, _, dirs, writes⟩ := writable
  obtain ⟨d, wrote⟩ := Disk.writeBytes_any writes (Text.encodeUtf8 (doc.writeIndented 0))
  have done : written w.disk (Path.ofText path) doc = (.ok (), d) := by
    unfold written
    rw [dirs, fileText_plain plain]
    dsimp only
    rw [Disk.writeText, wrote]
  refine ⟨({ w with disk := d } : World).record (savedEvent (Path.ofText path)), ?_,
    Disk.readBytes_writeBytes wrote⟩
  rw [outcome_save, done]

/-- The document in a file is what is read of its text. -/
theorem documentOf_ok {path : String} {content : Except Fault (List UInt8)} {doc : Json}
    (made : documentOf path content = .ok doc) :
    ∃ s, textOf content = .ok s ∧ Json.read s = .ok doc := by
  unfold documentOf at made
  cases text : textOf content with
  | error f =>
    rw [text] at made
    dsimp only at made
    split at made <;> cases made
  | ok s =>
    rw [text] at made
    dsimp only at made
    refine ⟨s, rfl, ?_⟩
    cases read : Json.read s with
    | error e =>
      rw [read] at made
      dsimp only at made
      split at made <;> cases made
    | ok v =>
      rw [read] at made
      cases v with
      | arr items => rw [← Except.ok.inj made]
      | obj fields => rw [← Except.ok.inj made]
      | _ => cases made

theorem documentOf_encoded {path : String} {doc : Json} (plain : doc.Plain)
    (kind : doc.kind = .list ∨ doc.kind = .object) :
    documentOf path (.ok (Text.encodeUtf8 (doc.writeIndented 0))) = .ok doc := by
  unfold documentOf
  dsimp only
  rw [textOf_encoded (Json.isLined_indented 0 doc)]
  dsimp only
  rw [Json.read_writeIndented plain]
  cases doc with
  | arr items => rfl
  | obj fields => rfl
  | _ => rcases kind with kind | kind <;> cases kind

/-! ## Analyses -/

theorem toJson_kind {a : Analysis} {doc : Json} (h : a.toJson = .ok doc) : ∃ fs, doc = .obj fs := by
  unfold Analysis.toJson at h
  split at h
  · cases h
  · cases h
    exact ⟨_, rfl⟩

theorem ofDocument_toJson {a : Analysis} {doc : Json} (now : Time.Moment) (path : String) (index : Nat)
    (typed : a.Typed) (h : a.toJson = .ok doc) :
    ∃ b, ofDocument now path index doc = .ok b ∧ a.Restores b := by
  obtain ⟨b, read, restored⟩ := Analysis.ofJson_toJson now typed h
  obtain ⟨fs, rfl⟩ := toJson_kind h
  refine ⟨b, ?_, restored⟩
  unfold ofDocument
  dsimp only
  rw [read]

theorem mapM_toJson {as : List Analysis} (typed : ∀ a ∈ as, a.Typed) :
    ∃ docs, as.mapM Analysis.toJson = .ok docs ∧ Json.PlainItems docs ∧
      ∀ now path index, ∃ bs, ofDocumentsFrom now path index docs = .ok bs ∧
        List.Forall₂ Analysis.Restores as bs := by
  induction as with
  | nil => exact ⟨[], rfl, trivial, fun _ _ _ => ⟨[], rfl, .nil⟩⟩
  | cons a as ih =>
    rw [List.forall_mem_cons] at typed
    obtain ⟨doc, written, plain⟩ := typed.1.toJson
    obtain ⟨docs, rest, plains, read⟩ := ih typed.2
    refine ⟨doc :: docs, ?_, ⟨plain, plains⟩, fun now path index => ?_⟩
    · rw [List.mapM_cons, written, rest]
      rfl
    · obtain ⟨b, first, restored⟩ := ofDocument_toJson now path index typed.1 written
      obtain ⟨bs, others, all⟩ := read now path (index + 1)
      refine ⟨b :: bs, ?_, .cons restored all⟩
      rw [ofDocumentsFrom, first]
      show (ofDocumentsFrom now path (index + 1) docs >>= fun rest => pure (b :: rest)) = _
      rw [others]
      rfl

/-- Every list of analyses and every single one that is saved where a file can be written is loaded
again from the path that the save answers. -/
theorem load_save {w : World} {path : String} (writable : w.disk.Writable (Path.ofText path)) :
    (∀ as : List Analysis, (∀ a ∈ as, a.Typed) →
      ∃ p w' bs, (saveAll as path).outcome w = (.ok p, w') ∧
        (loadAll p.text).outcome w' = (.ok bs, w') ∧ List.Forall₂ Analysis.Restores as bs) ∧
    ∀ a : Analysis, a.Typed →
      ∃ p w' b, (saveOne a path).outcome w = (.ok p, w') ∧
        (load p.text).outcome w' = (.ok b, w') ∧ a.Restores b := by
  constructor
  · intro as typed
    obtain ⟨docs, made, plain, read⟩ := mapM_toJson typed
    have whole : (Json.arr docs).Plain := plain
    obtain ⟨w', saved, bytes⟩ := save_plain writable whole
    obtain ⟨bs, loaded, restored⟩ := read w'.stamp.time (Path.ofText path).text 0
    refine ⟨Path.ofText path, w', bs, ?_, ?_, restored⟩
    · rw [outcome_saveAll, made]
      exact saved
    · rw [outcome_loadAll, Path.ofText_text, bytes, analysesOf, documentOf_encoded whole (.inl rfl)]
      exact congrArg (·, w') loaded
  · intro a typed
    obtain ⟨doc, made, plain⟩ := typed.toJson
    obtain ⟨w', saved, bytes⟩ := save_plain writable plain
    obtain ⟨b, loaded, restored⟩ := ofDocument_toJson w'.stamp.time (Path.ofText path).text 0
      typed made
    obtain ⟨fs, rfl⟩ := toJson_kind made
    refine ⟨Path.ofText path, w', b, ?_, ?_, restored⟩
    · rw [outcome_saveOne, made]
      exact saved
    · rw [outcome_load, Path.ofText_text, bytes, analysisOf, documentOf_encoded plain (.inr rfl)]
      exact congrArg (·, w') loaded

/-- A failed analysis that does not say why, two hours ahead of UTC around the turn of a year. -/
def yearsEnd : Analysis where
  toolName := .str "ruff"
  id := .str "r1"
  timestamp := ⟨⟨2024, 1, 1⟩, 0, 30, 15, 123456, 7200000000⟩
  issues :=
    [⟨.str "i1", .str "unused \u00e9\n", .str "a.py", 3, -1, .error, .bug, .str "F401", .str "ruff",
      some (.str "")⟩]
  filesAnalyzed := 7
  executionTime := ⟨1234567, by decide⟩
  success := false
  errorMessage := .str ""

theorem isShort_of_digit {i : Int} (h : i.natAbs < 10 ^ 1) : IsShort i :=
  Nat.lt_of_lt_of_le h (Nat.pow_le_pow_right (by decide) (by decide))

theorem yearsEnd_typed : yearsEnd.Typed where
  toolName := ⟨_, rfl⟩
  id := ⟨_, rfl⟩
  timestamp := ⟨by decide, ⟨by decide, by decide⟩, by decide, by decide, by decide, by decide⟩
  utc := ⟨⟨⟨2023, 12, 31⟩, 22, 30, 15, 123456, 0⟩, by decide, by decide⟩
  issues := by
    intro i hi
    rw [List.mem_singleton.mp hi]
    exact ⟨⟨_, rfl⟩, ⟨_, rfl⟩, ⟨_, rfl⟩, isShort_of_digit (by decide), isShort_of_digit (by decide),
      ⟨_, rfl⟩, ⟨_, rfl⟩, fun v hv => ⟨"", (Option.some.inj hv).symm⟩⟩
  issueCount := isShort_of_digit (i := 1) (by decide)
  filesAnalyzed := isShort_of_digit (by decide)
  executionTime := by decide
  errorMessage := ⟨_, rfl⟩

theorem bare_writable : (World.bare .default).disk.Writable (Path.ofText "r.json") := by
  refine ⟨.empty [], [], (Disk.empty []).put ["r.json"] (.file [] false),
    Disk.makeDirectories_here _ (by decide), ?_⟩
  have arrived := Disk.arrive_name (d := .empty []) (s := "r.json") true (by decide)
    fun target h => nomatch h
  exact bind_ok_iff.mpr ⟨_, arrived, rfl⟩

/-- With the year and the day of the time in UTC. -/
theorem load_save_yearsEnd :
    (∃ p w' bs,
      (saveAll [yearsEnd, yearsEnd] "r.json").outcome (World.bare .default) = (.ok p, w') ∧
      (loadAll p.text).outcome w' = (.ok bs, w') ∧
      List.Forall₂ Analysis.Restores [yearsEnd, yearsEnd] bs) ∧
    ∃ p w' b, (saveOne yearsEnd "r.json").outcome (World.bare .default) = (.ok p, w') ∧
      (load p.text).outcome w' = (.ok b, w') ∧ yearsEnd.Restores b := by
  obtain ⟨lists, single⟩ := load_save bare_writable
  exact ⟨lists _ (by simpa using yearsEnd_typed), single _ yearsEnd_typed⟩

end LintHub.Store
