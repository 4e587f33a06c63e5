import LintHub.Gate.Arguments
import LintHub.Proofs.Json.Values
import LintHub.Proofs.Text.Numerals
import Mathlib.Data.List.TakeWhile

/-! # Reading the arguments of the gate

A report, a severity and a budget are read as what was meant: an integer in decimal notation is a
value and no option, also with a minus sign in front.
-/

namespace LintHub

open Text (ne_of_isDigit range_of_isDigit)

/-! ## Integers -/

theorem digitsOf?_ascii {cs : List Char} (given : cs ≠ []) (digits : ∀ c ∈ cs, c.isDigit = true) :
    digitsOf? cs = some (cs.map fun c => c.toNat - 48) := by
  fun_induction digitsOf? cs with
  | case1 => exact (given rfl).elim
  | case2 c =>
    rw [Text.digitValue?_of_isDigit (digits c (List.mem_singleton.mpr rfl))]
    rfl
  | case3 c cs =>
    have underscore := digits '_' (by simp)
    cases underscore
  | case4 c cs one other ih =>
    rw [List.forall_mem_cons] at digits
    rw [Text.digitValue?_of_isDigit digits.1, ih one digits.2]
    rfl

theorem dropWhile_of_none {p : Char → Bool} {cs : List Char} (h : ∀ c ∈ cs, p c = false) :
    cs.dropWhile p = cs := by
  cases cs with
  | nil => rfl
  | cons c cs => rw [List.dropWhile_cons, h c (List.mem_cons_self ..)]; rfl

theorem trimChars_of_none {p : Char → Bool} {cs : List Char} (h : ∀ c ∈ cs, p c = false) :
    Text.trimChars p cs = cs := by
  rw [Text.trimChars, dropWhile_of_none h,
    dropWhile_of_none fun c hc => h c (List.mem_reverse.mp hc), List.reverse_reverse]

theorem mem_intText {i : Int} {c : Char} (h : c ∈ (Text.intText i).toList) :
    c = '-' ∨ c.isDigit = true := by
  rw [Text.intText_toList, List.mem_append] at h
  rcases h with sign | digit
  · split at sign
    · exact .inl (List.mem_singleton.mp sign)
    · cases sign
  · exact .inr (Text.isDigit_toDigits digit)

theorem intText_unblank {i : Int} :
    ∀ c ∈ (Text.intText i).toList, Text.isNumberBlank c = false := by
  intro c h
  rcases mem_intText h with rfl | digit
  · rfl
  · have range := range_of_isDigit digit
    simp [Text.isNumberBlank, Text.isBlank]
    omega

/-- Decimal notation is read as the integer unless it has too many digits. -/
theorem intOfText_numeral (i : Int) :
    intOfText (Text.intText i) =
      if Json.digitLimit < (Text.natText i.natAbs).length then
        .error (.integerDigits (Text.natText i.natAbs).length)
      else .ok i := by
  have digits := fun c => Text.isDigit_toDigits (n := i.natAbs) (c := c)
  have read := digitsOf?_ascii Nat.toDigits_ne_nil digits
  have value : Text.natOfDigits ((Nat.toDigits 10 i.natAbs).map fun c => c.toNat - 48) = i.natAbs := by
    rw [Text.natOfDigits_map, Nat.ofDigitChars_ten_toDigits]
  rw [Text.natText_length]
  unfold intOfText
  rw [trimChars_of_none intText_unblank, Text.intText_toList]
  by_cases negative : i < 0
  · simp only [negative, if_true, List.singleton_append, List.head?_cons, beq_self_eq_true,
      Bool.true_or, List.drop_succ_cons, List.drop_zero, read, List.length_map, value]
    rw [show -(i.natAbs : Int) = i by omega]
  · obtain ⟨d, ds, split⟩ := List.exists_cons_of_ne_nil (Nat.toDigits_ne_nil (b := 10) (n := i.natAbs))
    have first := digits d (by simp [split])
    have minus : (some d == some '-') = false := by simpa using ne_of_isDigit first (by decide)
    have plus : (some d == some '+') = false := by simpa using ne_of_isDigit first (by decide)
    rw [split] at read value
    simp only [negative, if_false, List.nil_append, split, List.head?_cons, minus, plus,
      Bool.or_false, Bool.false_eq_true, read, List.length_map, value]
    rw [show (i.natAbs : Int) = i by omega]

/-! ## Positionals -/

namespace Gate

theorem classify_undashed {s : String} {c : Char} {cs : List Char} (h : s.toList = c :: cs)
    (other : c ≠ '-') : classify s = .ok .positional := by
  unfold classify
  rw [h]
  split
  · next eq =>
    cases eq
    exact (other rfl).elim
  · rfl

theorem isNegativeNumber_digits {s : String} {ds : List Char} (h : s.toList = '-' :: ds)
    (given : ds ≠ []) (digits : ∀ d ∈ ds, d.isDigit = true) : isNegativeNumber s = true := by
  have all : ∀ d ∈ ds, Text.isDigit d = true := fun d hd => Text.isDigit_of_ascii (digits d hd)
  unfold isNegativeNumber
  rw [h]
  simp [Text.holdsOnLine, List.dropWhile_eq_nil_iff.mpr all, List.takeWhile_eq_self_iff.mpr all,
    given]

/-- The names of options are a dash and a character that is no digit at least. -/
theorem flagNames_undigited :
    ∀ p ∈ flagNames, ∃ c cs, p.1.toList = '-' :: c :: cs ∧ c.isDigit = false := by
  simp only [flagNames, List.forall_mem_cons]
  exact ⟨⟨'h', _, rfl, rfl⟩, ⟨'-', _, rfl, rfl⟩, ⟨'-', _, rfl, rfl⟩, ⟨'-', _, rfl, rfl⟩,
    ⟨'-', _, rfl, rfl⟩, fun p h => (nomatch h)⟩

section negative

variable {s : String} {d : Char} {ds : List Char} (h : s.toList = '-' :: d :: ds)
include h

/-- A minus sign and a digit are no name of an option and start none. -/
theorem flagName_ne_negative (first : d.isDigit = true) {p : String × Flag} (mem : p ∈ flagNames) :
    s ≠ p.1 ∧ p.1.toList ≠ ['-', d] ∧ s.toList.isPrefixOf p.1.toList = false := by
  obtain ⟨c, cs, name, undigited⟩ := flagNames_undigited p mem
  have ne := ne_of_isDigit first undigited
  refine ⟨?_, ?_, ?_⟩
  · rintro rfl
    cases h.symm.trans name
    exact ne rfl
  · rw [name]
    intro eq
    cases eq
    exact ne rfl
  · rw [h, name]
    simp [List.isPrefixOf, ne]

theorem candidates_negative (first : d.isDigit = true) : candidates s = [] := by
  unfold candidates
  rw [h]
  split
  · next eq =>
    cases eq
    cases first
  · next eq =>
    cases eq
    rw [List.filterMap_eq_nil_iff]
    intro p mem
    obtain ⟨-, short, long⟩ := flagName_ne_negative h first mem
    rw [h] at long
    simp [short, long]
  · rfl

variable (digits : ∀ c ∈ d :: ds, c.isDigit = true)
include digits

theorem splitValue_negative : splitValue s = (s, none) := by
  have value : (d :: ds).takeWhile (· != '=') = d :: ds :=
    List.takeWhile_eq_self_iff.mpr fun c hc => by
      simpa using ne_of_isDigit (digits c hc) (show '='.isDigit = false by decide)
  unfold splitValue
  rw [h]
  simp only [List.takeWhile_cons, value]
  simp

/-- A minus sign and digits are the name of no option and abbreviate none. -/
theorem classify_negative : classify s = .ok .positional := by
  have first := digits d (List.mem_cons_self ..)
  have unnamed : flagNames.lookup s = none := by
    rw [List.lookup_eq_none_iff]
    intro p mem
    simpa using (flagName_ne_negative h first mem).1
  unfold classify
  rw [h, unnamed]
  dsimp only
  rw [splitValue_negative h digits]
  dsimp only [classify.byPrefix]
  rw [candidates_negative h first]
  dsimp only
  rw [isNegativeNumber_digits h (by simp) digits]
  rfl

end negative

theorem classify_intText (i : Int) : classify (Text.intText i) = .ok .positional := by
  obtain ⟨d, ds, split⟩ := List.exists_cons_of_ne_nil (Nat.toDigits_ne_nil (b := 10) (n := i.natAbs))
  have chars := Text.intText_toList i
  rw [split] at chars
  have digits : ∀ c ∈ d :: ds, c.isDigit = true := fun c h => Text.isDigit_toDigits (split ▸ h)
  by_cases negative : i < 0
  · rw [if_pos negative] at chars
    exact classify_negative chars digits
  · rw [if_neg negative] at chars
    exact classify_undashed chars (ne_of_isDigit (digits d (List.mem_cons_self ..)) (by decide))

theorem classify_label (t : Severity) : classify t.label = .ok .positional := by
  cases t <;> rfl

theorem classifyAll_cons {s : String} {rest : List String} {t : Token} {as : List Argument}
    (token : classify s = .ok t) (after : classifyAll rest = .ok as) :
    classifyAll (s :: rest) = .ok (⟨t, s⟩ :: as) := by
  have other : (s == "--") = false := by
    rw [beq_eq_false_iff_ne]
    rintro rfl
    cases token
  rw [classifyAll, other, token, after]
  rfl

/-! ## A report and a budget -/

/-- The arguments for a report, a severity and a budget. -/
def budgetArguments (report : String) (t : Severity) (m : Int) (allow : Bool) : List String :=
  [report, "--fail-on", t.label, "--max-issues", Text.intText m] ++
    if allow then ["--allow-tool-failures"] else []

theorem applyFlag_failOn (r : Reading) (t : Severity) :
    applyFlag r .failOn t.label = .ok { r with failOn := t.label } := by
  cases t <;> rfl

/-- A budget of too many digits is refused. -/
theorem applyFlag_maxIssues (r : Reading) (m : Int) :
    applyFlag r .maxIssues (Text.intText m) =
      if Json.digitLimit < (Text.natText m.natAbs).length then
        complain .maxIssues ("invalid int value: " ++ Text.quoted (Text.intText m))
      else .ok { r with maxIssues := m } := by
  have other : (Text.intText m == "--") = false := by
    rw [beq_eq_false_iff_ne]
    intro eq
    have token := classify_intText m
    rw [eq] at token
    cases token
  unfold applyFlag
  dsimp only
  rw [other, intOfText_numeral]
  by_cases long : Json.digitLimit < (Text.natText m.natAbs).length <;> simp [long]

theorem readFrom_report {fuel : Nat} {r : Reading} {s text : String} {flag : Option Flag}
    {name : String} {value : Option String} {rest : List Argument} (first : r.report = none) :
    readFrom (fuel + 1) r (⟨.positional, s⟩ :: ⟨.option flag name value, text⟩ :: rest) =
      readFrom fuel { r with report := some s } (⟨.option flag name value, text⟩ :: rest) := by
  rw [readFrom, first]
  · rfl
  · nofun
  · nofun

theorem readFrom_value {fuel : Nat} {r : Reading} {flag : Flag} {name text value : String}
    {rest : List Argument} (takes : flag.takesValue = true) :
    readFrom (fuel + 1) r (⟨.option (some flag) name none, text⟩ :: ⟨.positional, value⟩ :: rest) =
      applyFlag r flag value >>= fun r' => readFrom fuel r' rest := by
  rw [readFrom, takeOption]
  simp only [takes, if_true]
  cases applyFlag r flag value <;> rfl

/-- What the arguments for a report and a budget are taken for. -/
def budgetTokens (report : String) (t : Severity) (m : Int) (allow : Bool) : List Argument :=
  [ ⟨.positional, report⟩, ⟨.option (some .failOn) "--fail-on" none, "--fail-on"⟩,
    ⟨.positional, t.label⟩, ⟨.option (some .maxIssues) "--max-issues" none, "--max-issues"⟩,
    ⟨.positional, Text.intText m⟩ ] ++
    if allow then
      [⟨.option (some .allowToolFailures) "--allow-tool-failures" none, "--allow-tool-failures"⟩]
    else []

theorem classifyAll_budget {report : String} (t : Severity) (m : Int) (allow : Bool)
    (path : classify report = .ok .positional) :
    classifyAll (budgetArguments report t m allow) = .ok (budgetTokens report t m allow) := by
  refine classifyAll_cons path (classifyAll_cons rfl (classifyAll_cons (classify_label t)
    (classifyAll_cons rfl (classifyAll_cons (classify_intText m) ?_))))
  cases allow <;> rfl

/-- A budget that can be read is taken with the severity; another one is refused. -/
theorem ofArguments_budget_eq {report : String} (t : Severity) (m : Int) (allow : Bool)
    (path : classify report = .ok .positional) :
    Options.ofArguments (budgetArguments report t m allow) =
      if Json.digitLimit < (Text.natText m.natAbs).length then
        .error (.complaint ("argument --max-issues: invalid int value: " ++
          Text.quoted (Text.intText m)))
      else .ok ⟨report, t.label, m, allow⟩ := by
  unfold Options.ofArguments
  rw [classifyAll_budget t m allow path]
  unfold budgetTokens
  dsimp only [bind, Except.bind, List.cons_append, List.length_cons]
  rw [readFrom_report rfl, readFrom_value rfl, applyFlag_failOn]
  dsimp only [bind, Except.bind]
  rw [readFrom_value rfl, applyFlag_maxIssues]
  by_cases long : Json.digitLimit < (Text.natText m.natAbs).length
  · rw [if_pos long, if_pos long]
    rfl
  · rw [if_neg long, if_neg long]
    cases allow <;> rfl

theorem ofArguments_budget {report : String} {t : Severity} {m : Int} {allow : Bool}
    (path : classify report = .ok .positional)
    (short : (Text.natText m.natAbs).length ≤ Json.digitLimit) :
    Options.ofArguments (budgetArguments report t m allow) = .ok ⟨report, t.label, m, allow⟩ := by
  rw [ofArguments_budget_eq t m allow path, if_neg (Nat.not_lt.mpr short)]

end Gate

end LintHub
