import LintHub.Tool.Check
import LintHub.Proofs.Files.Refusal
import LintHub.Proofs.Text.Forms
import LintHub.Proofs.Work.Faults

/-! # Names in configurations

Which target versions, rule selectors and test ids pass the check of a configuration, and that the
check tells of all others, each by its label. The forms that are meant are those of plain digits and
nothing else; what passes beyond them is a newline at the end, and digits of other scripts.
-/

namespace LintHub

open Text (OnLine DigitForm IsPlainDigit IsScriptDigit Stray)

namespace Config

variable {disk : Disk} {c : Config} {v v' : Validation} {s label : String} {cs : List Char}

/-! ## The forms -/

/-- `py3` and one or two digits. -/
def Version (Digit : Char → Prop) (cs : List Char) : Prop :=
  ∃ digits, cs = 'p' :: 'y' :: '3' :: digits ∧ (digits.length = 1 ∨ digits.length = 2) ∧
    ∀ c ∈ digits, Digit c

/-- Capital letters, at least one, and then plain digits, whatever other class of digits there is. -/
def Selector (_Digit : Char → Prop) (cs : List Char) : Prop :=
  ∃ letters digits, cs = letters ++ digits ∧ letters ≠ [] ∧ (∀ c ∈ letters, isCapital c = true) ∧
    ∀ c ∈ digits, IsPlainDigit c

/-- `B` and three digits. -/
def TestId (Digit : Char → Prop) (cs : List Char) : Prop :=
  ∃ digits, cs = 'B' :: digits ∧ digits.length = 3 ∧ ∀ c ∈ digits, Digit c

theorem isAlphanum_of_isCapital {c : Char} (capital : isCapital c = true) : c.isAlphanum = true := by
  have upper : c.isUpper = true := by
    obtain ⟨lower, upper⟩ := (Bool.and_eq_true _ _).mp capital
    exact decide_eq_true ⟨of_decide_eq_true lower, of_decide_eq_true upper⟩
  show (c.isUpper || c.isLower || c.isDigit) = true
  rw [upper, Bool.true_or, Bool.true_or]

theorem isAlphanum_of_isPlainDigit {c : Char} (digit : IsPlainDigit c) : c.isAlphanum = true := by
  unfold Char.isAlphanum
  rw [show c.isDigit = true from digit, Bool.or_true]

theorem version_digitForm : DigitForm Version where
  made := by
    rintro Digit cs ⟨digits, rfl, -, each⟩ c mem
    simp only [List.mem_cons] at mem
    rcases mem with rfl | rfl | rfl | mem
    · exact .inr rfl
    · exact .inr rfl
    · exact .inr rfl
    · exact .inl (each c mem)
  wider := by
    rintro Digit Digit' cs ⟨digits, rfl, count, each⟩ wider
    exact ⟨digits, rfl, count, fun c mem => wider c (by simp [mem]) (each c mem)⟩

theorem selector_digitForm : DigitForm Selector where
  made := by
    rintro Digit cs ⟨letters, digits, rfl, -, capital, plain⟩ c mem
    rcases List.mem_append.mp mem with mem | mem
    · exact .inr (isAlphanum_of_isCapital (capital c mem))
    · exact .inr (isAlphanum_of_isPlainDigit (plain c mem))
  wider h _ := h

theorem testId_digitForm : DigitForm TestId where
  made := by
    rintro Digit cs ⟨digits, rfl, -, each⟩ c mem
    rcases List.mem_cons.mp mem with rfl | mem
    · exact .inr rfl
    · exact .inl (each c mem)
  wider := by
    rintro Digit Digit' cs ⟨digits, rfl, count, each⟩ wider
    exact ⟨digits, rfl, count, fun c mem => wider c (by simp [mem]) (each c mem)⟩

/-! ## What passes -/

theorem isTargetVersion_iff : isTargetVersion s = true ↔ OnLine (Version IsScriptDigit) s.toList := by
  refine Text.holdsOnLine_iff fun cs => ?_
  split
  · next digits =>
    rw [Bool.and_eq_true, List.all_eq_true, Bool.or_eq_true, decide_eq_true_eq, decide_eq_true_eq]
    constructor
    · rintro ⟨count, each⟩
      exact ⟨digits, rfl, count, each⟩
    · rintro ⟨_, ⟨⟩, count, each⟩
      exact ⟨count, each⟩
  · next other =>
    constructor
    · rintro ⟨⟩
    · rintro ⟨digits, rfl, -, -⟩
      exact (other digits rfl).elim

theorem isTestId_iff : isTestId s = true ↔ OnLine (TestId IsScriptDigit) s.toList := by
  refine Text.holdsOnLine_iff fun cs => ?_
  split
  · next digits =>
    rw [Bool.and_eq_true, List.all_eq_true, decide_eq_true_eq]
    constructor
    · rintro ⟨count, each⟩
      exact ⟨digits, rfl, count, each⟩
    · rintro ⟨_, ⟨⟩, count, each⟩
      exact ⟨count, each⟩
  · next other =>
    constructor
    · rintro ⟨⟩
    · rintro ⟨digits, rfl, -, -⟩
      exact (other digits rfl).elim

theorem not_isCapital_of_isPlainDigit {c : Char} (digit : IsPlainDigit c) : isCapital c = false := by
  have range := Text.range_of_isDigit digit
  unfold isCapital
  rw [Bool.and_eq_false_iff, decide_eq_false_iff_not]
  left
  rw [Char.le_def, UInt32.le_iff_toNat_le]
  change ¬ 65 ≤ c.toNat
  omega

theorem isRuleSelector_iff : isRuleSelector s = true ↔ OnLine (Selector IsScriptDigit) s.toList := by
  refine Text.holdsOnLine_iff fun cs => ?_
  rw [Bool.and_eq_true, Bool.not_eq_true', List.isEmpty_eq_false_iff, List.all_eq_true]
  constructor
  · rintro ⟨some, plain⟩
    refine ⟨_, _, List.takeWhile_append_dropWhile.symm, some, fun c mem => ?_, plain⟩
    exact List.all_eq_true.mp List.all_takeWhile c mem
  · rintro ⟨letters, digits, rfl, some, capital, plain⟩
    have none (c : Char) (mem : c ∈ digits) : ¬ isCapital c = true := by
      simp [not_isCapital_of_isPlainDigit (plain c mem)]
    rw [List.takeWhile_append_of_pos capital, List.dropWhile_append_of_pos capital]
    have front : digits.takeWhile isCapital = [] := by
      cases digits with
      | nil => rfl
      | cons d digits => rw [List.takeWhile_cons, if_neg (none d (by simp))]
    have rest : digits.dropWhile isCapital = digits := by
      cases digits with
      | nil => rfl
      | cons d digits => rw [List.dropWhile_cons, if_neg (none d (by simp))]
    rw [front, rest, List.append_nil]
    exact ⟨some, plain⟩

/-! ## Messages -/

/-- The messages that begin with a label. -/
def told (label : String) (messages : List String) : List String :=
  messages.filter fun m => label.toList.isPrefixOf m.toList

/-- Two labels neither of which begins with the other. -/
def Apart (label head : String) : Prop :=
  ¬ label.toList <+: head.toList ∧ ¬ head.toList <+: label.toList

instance (label head : String) : Decidable (Apart label head) := by
  unfold Apart; infer_instance

/-- What messages of the rules that all tools share begin with. -/
def commonHeads : List String :=
  [ "Tool name cannot be empty", "Source path cannot be empty", "Source path does not exist: ",
    "Output file not specified, results may not be saved", "Output directory does not exist: ",
    "Include path does not exist: ", "Empty definition found", "Definition contains spaces: ",
    "Timeout must be a positive number of seconds" ]

/-- A message of one of the rules that all tools share. -/
def IsCommon (m : String) : Prop :=
  ∃ head ∈ commonHeads, head.toList <+: m.toList

/-- Nothing was told so far but by the rules that all tools share. -/
structure Shared (v : Validation) : Prop where
  errors : ∀ m ∈ v.errors, IsCommon m
  warnings : ∀ m ∈ v.warnings, IsCommon m

theorem told_append (label : String) (xs ys : List String) :
    told label (xs ++ ys) = told label xs ++ told label ys :=
  List.filter_append ..

theorem told_of_apart {messages : List String}
    (apart : ∀ m ∈ messages, ∃ head, Apart label head ∧ head.toList <+: m.toList) :
    told label messages = [] := by
  refine List.filter_eq_nil_iff.mpr fun m mem same => ?_
  obtain ⟨head, ⟨shorter, longer⟩, begins⟩ := apart m mem
  rw [List.isPrefixOf_iff_prefix] at same
  rcases List.prefix_or_prefix_of_prefix same begins with le | le
  · exact shorter le
  · exact longer le

theorem told_labelled (names : List String) :
    told label (names.map (label ++ ·)) = names.map (label ++ ·) := by
  refine List.filter_eq_self.mpr fun m mem => ?_
  obtain ⟨name, -, rfl⟩ := List.mem_map.mp mem
  rw [List.isPrefixOf_iff_prefix, String.toList_append]
  exact List.prefix_append ..

/-- A label under which no shared rule tells anything. -/
def IsOwn (label : String) : Prop :=
  ∀ head ∈ commonHeads, Apart label head

instance (label : String) : Decidable (IsOwn label) := by
  unfold IsOwn; infer_instance

theorem untold {messages : List String} (common : ∀ m ∈ messages, IsCommon m) (own : IsOwn label) :
    told label messages = [] := by
  refine told_of_apart fun m mem => ?_
  obtain ⟨head, known, begins⟩ := common m mem
  exact ⟨head, own head known, begins⟩

theorem isCommon_append {head : String} (known : head ∈ commonHeads) (rest : String) :
    IsCommon (head ++ rest) :=
  ⟨head, known, by rw [String.toList_append]; exact List.prefix_append ..⟩

theorem isCommon_of_mem {head : String} (known : head ∈ commonHeads) : IsCommon head :=
  ⟨head, known, List.prefix_refl _⟩

theorem isOwn_version : IsOwn "Unknown target version: " := by decide +kernel

theorem Shared.empty : Shared .empty where
  errors _ mem := nomatch mem
  warnings _ mem := nomatch mem

theorem Shared.error (shared : Shared v) {m : String} (common : IsCommon m) : Shared (v.error m) where
  errors other mem := by
    rcases List.mem_append.mp mem with mem | mem
    · exact shared.errors other mem
    · rw [List.mem_singleton.mp mem]
      exact common
  warnings := shared.warnings

theorem Shared.warning (shared : Shared v) {m : String} (common : IsCommon m) :
    Shared (v.warning m) where
  errors := shared.errors
  warnings other mem := by
    rcases List.mem_append.mp mem with mem | mem
    · exact shared.warnings other mem
    · rw [List.mem_singleton.mp mem]
      exact common

/-! ## The shared rules -/

/-- The paths that the check of a configuration looks at. -/
def lookedAt (c : Config) : List Path :=
  (if c.sourcePath.isEmpty then [] else [Path.ofText c.sourcePath]) ++
  (if c.outputFile.isEmpty || (Path.ofText c.outputFile).parent.text == "." then []
    else [(Path.ofText c.outputFile).parent]) ++
  c.includePaths.map Path.ofText

/-- A path at which the system looks, whatever is there. -/
def Seen (disk : Disk) (p : Path) : Prop :=
  ∃ there, disk.exists p = .ok there

/-- A rule that answers if the paths it looks at can be seen, and tells only what all tools share. -/
structure Rule (disk : Disk) (paths : List Path) (check : Validation → Except Fault Validation) :
    Prop where
  answers : ∀ v, (∃ v', check v = .ok v') ↔ ∀ p ∈ paths, Seen disk p
  shared : ∀ v v', Shared v → check v = .ok v' → Shared v'

namespace Rule

variable {check check' : Validation → Except Fault Validation} {paths paths' : List Path}

theorem still {f : Validation → Validation} (shared : ∀ v, Shared v → Shared (f v)) :
    Rule disk [] fun v => .ok (f v) where
  answers v := by simp
  shared v v' before h := by
    cases h
    exact shared v before

/-- A rule that tells something if nothing is at a path. -/
theorem looks {p : Path} {f : Validation → Validation} (shared : ∀ v, Shared v → Shared (f v)) :
    Rule disk [p] fun v => disk.exists p >>= fun there => if there then pure v else pure (f v) where
  answers v := by
    simp only [List.mem_singleton, forall_eq, Seen]
    cases disk.exists p with
    | error fault => exact ⟨nofun, nofun⟩
    | ok there => cases there <;> exact ⟨fun _ => ⟨_, rfl⟩, fun _ => ⟨_, rfl⟩⟩
  shared v v' before h := by
    obtain ⟨there, -, h⟩ := bind_ok_iff.mp h
    cases there with
    | true =>
      cases h
      exact before
    | false =>
      cases h
      exact shared v before

theorem next (h : Rule disk paths check) (h' : Rule disk paths' check') :
    Rule disk (paths ++ paths') fun v => check v >>= check' where
  answers v := by
    simp only [List.forall_mem_append]
    rw [← h.answers v]
    constructor
    · rintro ⟨v₂, ends⟩
      obtain ⟨v₁, first, second⟩ := bind_ok_iff.mp ends
      exact ⟨⟨v₁, first⟩, (h'.answers v₁).mp ⟨v₂, second⟩⟩
    · rintro ⟨⟨v₁, first⟩, seen⟩
      obtain ⟨v₂, second⟩ := (h'.answers v₁).mpr seen
      exact ⟨v₂, bind_ok_iff.mpr ⟨v₁, first, second⟩⟩
  shared v v₂ before ends := by
    obtain ⟨v₁, first, second⟩ := bind_ok_iff.mp ends
    exact h'.shared v₁ v₂ (h.shared v v₁ before first) second

/-- By induction on the list: a rule for each of its items, one after another. -/
theorem each {α : Type} {check : Validation → α → Except Fault Validation} {path : α → List Path}
    (h : ∀ x, Rule disk (path x) fun v => check v x) (xs : List α) :
    Rule disk (xs.flatMap path) fun v => xs.foldlM check v := by
  induction xs with
  | nil => exact still fun _ before => before
  | cons x xs ih =>
    rw [List.flatMap_cons]
    exact (h x).next ih

end Rule

theorem ofJson_text (s : String) : Path.ofJson (.str s) = pure (Path.ofText s) := by
  rw [Path.ofJson]
  rfl

theorem display_text (s : String) : (Json.str s).display = s := by
  rw [Json.display]

theorem checkSource_rule (s : String) :
    Rule disk (if s.isEmpty then [] else [Path.ofText s]) fun v => checkSource disk (.str s) v := by
  unfold checkSource
  cases blank : s.isEmpty with
  | true =>
    rw [if_pos rfl]
    simp only [show (Json.str s).isBlank = true from blank, if_true]
    exact .still fun v before => before.error (isCommon_of_mem (by decide))
  | false =>
    rw [if_neg (by decide)]
    simp only [show (Json.str s).isBlank = false from blank, Bool.false_eq_true, if_false,
      ofJson_text, pure_bind, display_text]
    exact .looks fun v before => before.error (isCommon_append (by decide) s)

theorem checkOutput_rule (s : String) :
    Rule disk (if s.isEmpty || (Path.ofText s).parent.text == "." then []
      else [(Path.ofText s).parent]) fun v => checkOutput disk (.str s) v := by
  unfold checkOutput
  cases blank : s.isEmpty with
  | true =>
    rw [Bool.true_or, if_pos rfl]
    simp only [show (Json.str s).isBlank = true from blank, if_true]
    exact .still fun v before => before.warning (isCommon_of_mem (by decide))
  | false =>
    rw [Bool.false_or]
    simp only [show (Json.str s).isBlank = false from blank, Bool.false_eq_true, if_false,
      ofJson_text, pure_bind]
    cases (Path.ofText s).parent.text == "." with
    | true => exact .still fun v before => before
    | false => exact .looks fun v before => before.error (isCommon_append (by decide) _)

theorem checkInclude_rule (s : String) :
    Rule disk [Path.ofText s] fun v => checkInclude disk v (.str s) := by
  unfold checkInclude
  simp only [ofJson_text, pure_bind, display_text]
  exact .looks fun v before => before.warning (isCommon_append (by decide) s)

theorem checkDefinition_rule (s : String) : Rule disk [] fun v => checkDefinition v (.str s) := by
  unfold checkDefinition
  cases blank : s.isEmpty with
  | true =>
    simp only [show (Json.str s).isBlank = true from blank, if_true]
    exact .still fun v before => before.warning (isCommon_of_mem (by decide))
  | false =>
    have holds : holdsBlank (.str s) = pure (s.toList.contains ' ') := by rw [holdsBlank]; rfl
    simp only [show (Json.str s).isBlank = false from blank, Bool.false_eq_true, if_false, holds,
      pure_bind, display_text]
    cases s.toList.contains ' ' with
    | true => exact .still fun v before => before.warning (isCommon_append (by decide) s)
    | false => exact .still fun v before => before

/-- What a configuration is told of before the rules of its own kind. -/
def beforeOwn (disk : Disk) (c : Config) (v : Validation) : Except Fault Validation := do
  let v ← checkSource disk (.str c.sourcePath) v
  let v ← checkOutput disk (.str c.outputFile) v
  let v ← (c.includePaths.map Json.str).foldlM (checkInclude disk) v
  let v ← (c.definitions.map Json.str).foldlM checkDefinition v
  return if c.timeout ≤ 0 then v.error "Timeout must be a positive number of seconds" else v

theorem beforeOwn_rule (disk : Disk) (c : Config) :
    Rule disk c.lookedAt fun v => beforeOwn disk c v := by
  have includes : Rule disk _ _ := .each checkInclude_rule c.includePaths
  rw [← List.map_eq_flatMap] at includes
  have definitions : Rule disk _ _ := .each checkDefinition_rule c.definitions
  rw [List.flatMap_eq_nil_iff.mpr fun _ _ => rfl] at definitions
  have timeout : Rule disk [] fun v => .ok (if c.timeout ≤ 0 then
      v.error "Timeout must be a positive number of seconds" else v) := by
    refine .still fun v before => ?_
    split
    · exact before.error (isCommon_of_mem (by decide))
    · exact before
  have all := (checkSource_rule c.sourcePath).next ((checkOutput_rule c.outputFile).next
    (includes.next (definitions.next timeout)))
  unfold lookedAt beforeOwn
  simp only [List.foldlM_map, List.append_assoc]
  rw [List.append_nil, List.append_nil] at all
  exact all

theorem validate_eq (disk : Disk) (c : Config) :
    c.validate disk = do
      let v ← beforeOwn disk c
        (if c.toolName.isEmpty then Validation.empty.error "Tool name cannot be empty" else .empty)
      return checkSpecialRules c.special v := by
  unfold validate validateFor beforeOwn target
  simp only [bind_assoc, pure_bind]

/-- A configuration is checked if its paths can be looked at, and before its own rules it is told only
what all tools share. -/
theorem validate_rule (disk : Disk) (c : Config) :
    ((∃ v, c.validate disk = .ok v) ↔ ∀ p ∈ c.lookedAt, Seen disk p) ∧
    ∀ v, c.validate disk = .ok v → ∃ before, Shared before ∧ v = checkSpecialRules c.special before := by
  have rule := beforeOwn_rule disk c
  rw [validate_eq]
  have first : Shared (if c.toolName.isEmpty then
      Validation.empty.error "Tool name cannot be empty" else .empty) := by
    split
    · exact Shared.empty.error (isCommon_of_mem (by decide))
    · exact .empty
  constructor
  · rw [← rule.answers]
    constructor
    · rintro ⟨v, ends⟩
      obtain ⟨before, checked, -⟩ := bind_ok_iff.mp ends
      exact ⟨before, checked⟩
    · rintro ⟨before, checked⟩
      exact ⟨_, bind_ok_iff.mpr ⟨before, checked, rfl⟩⟩
  · intro v ends
    obtain ⟨before, checked, ends⟩ := bind_ok_iff.mp ends
    cases ends
    exact ⟨before, rule.shared _ _ first checked, rfl⟩

/-! ## The rules of one kind of tool -/

theorem foldl_warning (label : String) (names : List String) (v : Validation) :
    names.foldl (fun v s => v.warning (label ++ s)) v =
      { v with warnings := v.warnings ++ names.map (label ++ ·) } := by
  induction names generalizing v with
  | nil => simp
  | cons name names ih =>
    rw [List.foldl_cons, ih]
    simp [Validation.warning]

/-- Messages that all begin with a head. -/
def Headed (head : String) (messages : List String) : Prop :=
  ∀ m ∈ messages, head.toList <+: m.toList

theorem headed_one (head rest : String) : Headed head [head ++ rest] := by
  intro m mem
  rw [List.mem_singleton.mp mem, String.toList_append]
  exact List.prefix_append ..

theorem Headed.untold {head : String} {messages : List String} (headed : Headed head messages)
    (apart : Apart label head) : told label messages = [] :=
  told_of_apart fun m mem => ⟨head, apart, headed m mem⟩

/-- The target version that is asked for, if one is. -/
def versions (o : RuffOptions) : List String :=
  o.targetVersion.toList.filter fun s => !s.isEmpty

/-- The rule about the line length. -/
def checkLength (o : RuffOptions) (v : Validation) : Validation :=
  match o.lineLength with
  | some n =>
    if 1 ≤ n ∧ n ≤ 320 then v
    else v.error ("Line length must be between 1 and 320: " ++ Text.intText n)
  | none => v

/-- The rule about the target version. -/
def checkVersion (o : RuffOptions) (v : Validation) : Validation :=
  match o.targetVersion with
  | some s =>
    if s.isEmpty || isTargetVersion s then v else v.error ("Unknown target version: " ++ s)
  | none => v

/-- A warning that lists names, unless there are none. -/
def warnOf (label : String) (names : List String) (v : Validation) : Validation :=
  if names.isEmpty then v else v.warning (label ++ String.intercalate ", " names)

theorem checkRuff_eq (o : RuffOptions) (v : Validation) :
    checkRuff o v =
      warnOf "Rules both selected and ignored: " (inBoth o.select o.ignore)
        (((o.select ++ o.extendSelect ++ o.ignore).filter fun s => !isRuleSelector s).foldl
          (fun v s => v.warning ("Suspicious rule selector: " ++ s))
          (checkVersion o (checkLength o v))) :=
  rfl

theorem checkLength_eq (o : RuffOptions) : ∃ lengths,
    Headed "Line length must be between 1 and 320: " lengths ∧
      ∀ v, checkLength o v = { v with errors := v.errors ++ lengths } := by
  unfold checkLength
  cases o.lineLength with
  | none => exact ⟨[], nofun, fun v => by simp⟩
  | some n =>
    by_cases right : 1 ≤ n ∧ n ≤ 320
    · exact ⟨[], nofun, fun v => by simp [right]⟩
    · refine ⟨[_], headed_one _ (Text.intText n), fun v => ?_⟩
      dsimp only
      rw [if_neg right]
      rfl

theorem checkVersion_eq (o : RuffOptions) (v : Validation) :
    checkVersion o v = { v with errors := v.errors ++
      ((versions o).filter fun s => !isTargetVersion s).map ("Unknown target version: " ++ ·) } := by
  unfold checkVersion versions
  cases o.targetVersion with
  | none => simp
  | some s =>
    cases blank : s.isEmpty <;> cases right : isTargetVersion s <;>
      simp [blank, right, Validation.error]

theorem warnOf_eq (label : String) (names : List String) : ∃ overlaps,
    Headed label overlaps ∧
      ∀ v, warnOf label names v = { v with warnings := v.warnings ++ overlaps } := by
  unfold warnOf
  cases names with
  | nil => exact ⟨[], nofun, fun v => by simp⟩
  | cons name names => exact ⟨[_], headed_one _ _, fun v => rfl⟩

theorem checkRuff_messages (o : RuffOptions) (v : Validation) :
    ∃ lengths overlaps, Headed "Line length must be between 1 and 320: " lengths ∧
      Headed "Rules both selected and ignored: " overlaps ∧
      (checkRuff o v).errors = v.errors ++ lengths ++
        ((versions o).filter fun s => !isTargetVersion s).map ("Unknown target version: " ++ ·) ∧
      (checkRuff o v).warnings = v.warnings ++
        ((o.select ++ o.extendSelect ++ o.ignore).filter fun s => !isRuleSelector s).map
          ("Suspicious rule selector: " ++ ·) ++ overlaps := by
  obtain ⟨lengths, measured, length⟩ := checkLength_eq o
  obtain ⟨overlaps, twice, overlap⟩ :=
    warnOf_eq "Rules both selected and ignored: " (inBoth o.select o.ignore)
  refine ⟨lengths, overlaps, measured, twice, ?_⟩
  rw [checkRuff_eq, overlap, foldl_warning, checkVersion_eq, length]
  exact ⟨rfl, rfl⟩

theorem checkBandit_messages (o : BanditOptions) (v : Validation) :
    ∃ overlaps, Headed "Tests both selected and skipped: " overlaps ∧
      (checkBandit o v).warnings = v.warnings ++
        ((o.skips ++ o.tests).filter fun s => !isTestId s).map ("Unknown bandit test id: " ++ ·) ++
          overlaps := by
  obtain ⟨overlaps, twice, overlap⟩ :=
    warnOf_eq "Tests both selected and skipped: " (inBoth o.skips o.tests)
  refine ⟨overlaps, twice, ?_⟩
  have unwarned (v : Validation) (right : Bool) (m : String) :
      (if right then v else v.error m).warnings = v.warnings := by
    cases right <;> rfl
  have stages : checkBandit o v = warnOf "Tests both selected and skipped: " (inBoth o.skips o.tests)
      (((o.skips ++ o.tests).filter fun s => !isTestId s).foldl
        (fun v s => v.warning ("Unknown bandit test id: " ++ s)) _) := rfl
  rw [stages, overlap, foldl_warning]
  simp only [unwarned]

/-! ## The law of names -/

/-- Which of the names in a list are told of under a label, in their order. -/
inductive Reports (label : String) (Bad : String → Prop) : List String → List String → Prop where
  | done : Reports label Bad [] []
  | tells {s : String} {names told : List String} (bad : Bad s) (rest : Reports label Bad names told) :
    Reports label Bad (s :: names) ((label ++ s) :: told)
  | passes {s : String} {names told : List String} (good : ¬ Bad s)
    (rest : Reports label Bad names told) : Reports label Bad (s :: names) told

/-- How names that are meant to be of a form are judged. -/
structure Judged (label : String) (Form : (Char → Prop) → List Char → Prop)
    (names told : List String) : Prop where
  /-- A newline at the end and digits of all scripts are let pass, and nothing else. -/
  reports : Reports label (fun s => ¬ OnLine (Form IsScriptDigit) s.toList) names told
  plain : ∀ s ∈ names, Form IsPlainDigit s.toList → label ++ s ∉ told
  stray : ∀ s ∈ names, label ++ s ∉ told → (Form IsPlainDigit s.toList ↔ ¬ Stray s.toList)

theorem reports_filter {Bad : String → Prop} {bad : String → Bool} (h : ∀ s, bad s = true ↔ Bad s)
    (label : String) (names : List String) :
    Reports label Bad names ((names.filter bad).map (label ++ ·)) := by
  induction names with
  | nil => exact .done
  | cons s names ih =>
    rw [List.filter_cons]
    split
    · next is => exact .tells ((h s).mp is) ih
    · next is => exact .passes (fun wrong => is ((h s).mpr wrong)) ih

theorem mem_labelled {bad : String → Bool} {names : List String} :
    label ++ s ∈ (names.filter bad).map (label ++ ·) ↔ s ∈ names ∧ bad s = true := by
  rw [List.mem_map, ← List.mem_filter]
  constructor
  · rintro ⟨s', mem, same⟩
    rwa [← String.append_right_inj label |>.mp same]
  · exact fun mem => ⟨s, mem, rfl⟩

theorem judged_of_iff {Form : (Char → Prop) → List Char → Prop} (form : DigitForm Form)
    {passes : String → Bool} (h : ∀ s, passes s = true ↔ OnLine (Form IsScriptDigit) s.toList)
    (label : String) (names : List String) :
    Judged label Form names ((names.filter fun s => !passes s).map (label ++ ·)) where
  reports := reports_filter (fun s => by rw [← h, Bool.not_eq_true', Bool.not_eq_true]) label names
  plain s mem plain told := by
    have wrong := (mem_labelled.mp told).2
    rw [(h s).mpr (form.onLine plain)] at wrong
    cases wrong
  stray s mem untold := by
    refine form.plain_iff ((h s).mp ?_)
    cases right : passes s with
    | true => rfl
    | false => exact (untold (mem_labelled.mpr ⟨mem, by rw [right]; rfl⟩)).elim

/-- What the check of a configuration tells of the names in it. -/
structure NamesLaw (disk : Disk) (c : Config) : Prop where
  /-- It answers unless a path that it looks at is too long. -/
  answers : (∃ v, c.validate disk = .ok v) ↔ ∀ p ∈ c.lookedAt, Seen disk p
  versions : ∀ o v, c.special = .ruff o → c.validate disk = .ok v →
    Judged "Unknown target version: " Version (versions o) (told "Unknown target version: " v.errors)
  selectors : ∀ o v, c.special = .ruff o → c.validate disk = .ok v →
    Judged "Suspicious rule selector: " Selector (o.select ++ o.extendSelect ++ o.ignore)
      (told "Suspicious rule selector: " v.warnings)
  testIds : ∀ o v, c.special = .bandit o → c.validate disk = .ok v →
    Judged "Unknown bandit test id: " TestId (o.skips ++ o.tests)
      (told "Unknown bandit test id: " v.warnings)

theorem validate_judges_names (disk : Disk) (c : Config) : NamesLaw disk c where
  answers := (validate_rule disk c).1
  versions o v ruff checked := by
    obtain ⟨before, shared, rfl⟩ := (validate_rule disk c).2 v checked
    obtain ⟨lengths, overlaps, measured, -, errors, -⟩ := checkRuff_messages o before
    rw [ruff, checkSpecialRules, errors, told_append, told_append,
      untold shared.errors isOwn_version, measured.untold (by decide +kernel), told_labelled]
    exact judged_of_iff version_digitForm (fun s => isTargetVersion_iff) ..
  selectors o v ruff checked := by
    obtain ⟨before, shared, rfl⟩ := (validate_rule disk c).2 v checked
    obtain ⟨lengths, overlaps, -, twice, -, warnings⟩ := checkRuff_messages o before
    rw [ruff, checkSpecialRules, warnings, told_append, told_append,
      untold shared.warnings (by decide +kernel), twice.untold (by decide +kernel), told_labelled,
      List.nil_append, List.append_nil]
    exact judged_of_iff selector_digitForm (fun s => isRuleSelector_iff) ..
  testIds o v bandit checked := by
    obtain ⟨before, shared, rfl⟩ := (validate_rule disk c).2 v checked
    obtain ⟨overlaps, twice, warnings⟩ := checkBandit_messages o before
    rw [bandit, checkSpecialRules, warnings, told_append, told_append,
      untold shared.warnings (by decide +kernel), twice.untold (by decide +kernel), told_labelled,
      List.nil_append, List.append_nil]
    exact judged_of_iff testId_digitForm (fun s => isTestId_iff) ..

/-- A configuration that asks for a target version with a newline after it. -/
def newlineVersion : Config :=
  { Config.new .default .ruff "ruff" with
    special := .ruff { RuffOptions.default with targetVersion := some "py311\n" } }

/-- A version that is not of its form passes if only a newline at its end is wrong. -/
theorem not_every_odd_version_is_told :
    ¬ ∀ (disk : Disk) (c : Config) (o : RuffOptions) (v : Validation) (s : String),
      c.special = .ruff o → c.validate disk = .ok v → o.targetVersion = some s →
      ("Unknown target version: " ++ s ∈ v.errors ↔ s ≠ "" ∧ ¬ Version IsPlainDigit s.toList) := by
  intro all
  obtain ⟨answers, kept⟩ := validate_rule (.empty []) newlineVersion
  obtain ⟨v, checked⟩ := answers.mpr (by rintro p ⟨⟩)
  have odd : ¬ Version IsPlainDigit "py311\n".toList :=
    fun plain => version_digitForm.not_stray plain (.inl (by decide))
  have told' := (all _ _ _ v "py311\n" rfl checked rfl).mpr ⟨by decide, odd⟩
  obtain ⟨before, shared, rfl⟩ := kept v checked
  obtain ⟨lengths, overlaps, measured, -, errors, -⟩ :=
    checkRuff_messages { RuffOptions.default with targetVersion := some "py311\n" } before
  have silent : told "Unknown target version: " (checkSpecialRules newlineVersion.special before).errors =
      [] := by
    rw [newlineVersion, checkSpecialRules, errors, told_append, told_append,
      untold shared.errors isOwn_version, measured.untold (by decide +kernel)]
    decide +kernel
  have heard : "Unknown target version: " ++ "py311\n" ∈
      told "Unknown target version: " (checkSpecialRules newlineVersion.special before).errors :=
    List.mem_filter.mpr ⟨told', by decide +kernel⟩
  rw [silent] at heard
  cases heard

end Config

end LintHub
