import Mathlib.Data.List.Count
import LintHub.Proofs.Work.Faults
import LintHub.Proofs.Text.Numerals
import LintHub.Tool.Adapter
import LintHub.Tool.Report.Bandit
import LintHub.Tool.Report.Ruff

/-! # Findings and their identifiers

The identifier of a finding is the digest of its parts with bars between them. A bar in a file's name
or a rule can be taken for one of these: the parts are told apart where files have as many bars as one
another, and so have rules.
-/

namespace LintHub

open Text

/-- What the identifier of an adapter's finding is made of. -/
structure Finding where
  tool : Adapter
  file : String
  line : Int
  rule : String
  message : String
  deriving DecidableEq, Repr

namespace Finding

def idText (f : Finding) : String :=
  issueIdText (.str f.tool.name) (.str f.file) (.int f.line) (.str f.rule) (.str f.message)

def id (f : Finding) : String :=
  issueId (.str f.tool.name) (.str f.file) (.int f.line) (.str f.rule) (.str f.message)

theorem id_eq (f : Finding) : f.id = Sha1.hexOfText f.idText := rfl

/-- The issue is the finding, under its identifier. -/
structure Identifies (f : Finding) (i : Issue) : Prop where
  id : i.id = .str f.id
  tool : i.toolName = .str f.tool.name
  file : i.filePath = .str f.file
  line : i.line = f.line
  rule : i.ruleId = .str f.rule
  message : i.message = .str f.message

end Finding

/-! ## Parts with bars between them -/

/-- How many bars stand in a text. -/
def bars (s : String) : Nat :=
  s.toList.count '|'

/-- Where as many bars stand before it, it is the same bar. By induction on what stands before. -/
theorem append_bar_injective {xs xs' ys ys' : List Char} (count : xs.count '|' = xs'.count '|')
    (same : xs ++ '|' :: ys = xs' ++ '|' :: ys') : xs = xs' ∧ ys = ys' := by
  induction xs generalizing xs' with
  | nil =>
    cases xs' with
    | nil => exact ⟨rfl, (List.cons.inj same).2⟩
    | cons c xs' =>
      obtain ⟨rfl, -⟩ := List.cons.inj same
      simp at count
  | cons c xs ih =>
    cases xs' with
    | nil =>
      obtain ⟨rfl, -⟩ := List.cons.inj same
      simp at count
    | cons d xs' =>
      obtain ⟨rfl, rest⟩ := List.cons.inj same
      rw [List.count_cons, List.count_cons, Nat.add_right_cancel_iff] at count
      obtain ⟨rfl, rfl⟩ := ih count rest
      exact ⟨rfl, rfl⟩

theorem count_intText (i : Int) : (intText i).toList.count '|' = 0 := by
  rw [List.count_eq_zero, intText_toList, List.mem_append, not_or]
  constructor
  · split <;> decide
  · intro mem
    exact ne_of_isDigit (isDigit_toDigits mem) (show '|'.isDigit = false by decide) rfl

theorem Finding.idText_toList (f : Finding) :
    f.idText.toList = f.tool.name.toList ++ '|' :: (f.file.toList ++ '|' ::
      ((intText f.line).toList ++ '|' :: (f.rule.toList ++ '|' :: f.message.toList))) := by
  unfold Finding.idText issueIdText
  rw [String.toList_intercalate]
  simp [List.intercalate_cons_cons, Json.display, Json.shown]

theorem Adapter.count_name (a : Adapter) : a.name.toList.count '|' = 0 := by
  cases a <;> decide

theorem Adapter.name_injective : Function.Injective Adapter.name := by
  intro a b same
  cases a <;> cases b <;> first | rfl | exact absurd same (by decide)

namespace Finding

variable {f g : Finding}

/-- No tool has a bar in its name. -/
theorem tool_of_idText (same : f.idText = g.idText) :
    f.tool = g.tool ∧ f.file.toList ++ '|' :: ((intText f.line).toList ++ '|' ::
        (f.rule.toList ++ '|' :: f.message.toList)) =
      g.file.toList ++ '|' :: ((intText g.line).toList ++ '|' ::
        (g.rule.toList ++ '|' :: g.message.toList)) := by
  have texts := congrArg String.toList same
  rw [idText_toList, idText_toList] at texts
  have none : f.tool.name.toList.count '|' = g.tool.name.toList.count '|' := by
    rw [Adapter.count_name, Adapter.count_name]
  obtain ⟨name, rest⟩ := append_bar_injective none texts
  exact ⟨Adapter.name_injective (String.toList_injective name), rest⟩

theorem eq_of_idText (files : bars f.file = bars g.file) (rules : bars f.rule = bars g.rule)
    (same : f.idText = g.idText) : f = g := by
  obtain ⟨tool, rest⟩ := tool_of_idText same
  obtain ⟨file, rest⟩ := append_bar_injective files rest
  have none : (intText f.line).toList.count '|' = (intText g.line).toList.count '|' := by
    rw [count_intText, count_intText]
  obtain ⟨line, rest⟩ := append_bar_injective none rest
  obtain ⟨rule, message⟩ := append_bar_injective rules rest
  cases f
  cases g
  cases tool
  cases String.toList_injective file
  cases intText_injective (String.toList_injective line)
  cases String.toList_injective rule
  cases String.toList_injective message
  rfl

end Finding

/-! ## What the adapters report -/

/-- The issue that an adapter makes of an entry of its report. -/
def Adapter.issueOf : Adapter → Disk → Option Path → Json → Except Fault Issue
  | .ruff => RuffReport.issueOf
  | .bandit => BanditReport.issueOf

theorem RuffReport.code_text {code : Json} {c : Severity × Category}
    (classed : classifyFinding code = .ok c) : ∃ s, code = .str s := by
  cases code with
  | str s => exact ⟨s, rfl⟩
  | _ => cases classed

/-- An issue with a text as its message is a finding of its adapter. -/
theorem Adapter.identifies_of_issueOf {a : Adapter} {disk : Disk} {root : Option Path} {v : Json}
    {i : Issue} {message : String} (made : a.issueOf disk root v = .ok i)
    (text : i.message = .str message) : ∃ f : Finding, f.tool = a ∧ f.Identifies i := by
  cases a with
  | ruff =>
    unfold Adapter.issueOf RuffReport.issueOf at made
    simp only [bind_ok_iff] at made
    obtain ⟨d, -, file, -, place, -, line, -, column, -, ⟨severity, category⟩, classed, fix, -, made⟩ :=
      made
    cases made
    obtain ⟨rule, code⟩ := RuffReport.code_text classed
    refine ⟨⟨.ruff, file, line, rule, message⟩, rfl, ⟨?_, rfl, rfl, rfl, code, text⟩⟩
    exact congrArg Json.str (congrArg₂ (issueId (.str "ruff") (.str file) (.int line)) code text)
  | bandit =>
    unfold Adapter.issueOf BanditReport.issueOf at made
    simp only [bind_ok_iff] at made
    obtain ⟨d, -, file, -, line, -, column, -, severity, -, made⟩ := made
    cases made
    refine ⟨⟨.bandit, file, line, _, message⟩, rfl, ⟨?_, rfl, rfl, rfl, rfl, text⟩⟩
    exact congrArg Json.str (congrArg (issueId (.str "bandit") (.str file) (.int line) _) text)

/-! ## The law -/

/-- Two texts with one digest. -/
def Sha1.Collide (s t : String) : Prop :=
  s ≠ t ∧ Sha1.hexOfText s = Sha1.hexOfText t

theorem Finding.eq_or_collide {f g : Finding} (files : bars f.file = bars g.file)
    (rules : bars f.rule = bars g.rule) (same : f.id = g.id) :
    f = g ∨ Sha1.Collide f.idText g.idText := by
  by_cases texts : f.idText = g.idText
  · exact .inl (eq_of_idText files rules texts)
  · rw [id_eq, id_eq] at same
    exact .inr ⟨texts, same⟩

/-- Identifiers are made of texts that tell tools apart, and all else where the files of two findings
have as many bars in their names as one another, and so have their rules. What the adapters report is
identified so. -/
theorem identifiers_tell_apart :
    (∀ f g : Finding, f.idText = g.idText → f.tool = g.tool) ∧
    (∀ f g : Finding, bars f.file = bars g.file → bars f.rule = bars g.rule →
      (f.idText = g.idText → f = g) ∧
      (f.id = g.id → f = g ∨ Sha1.Collide f.idText g.idText)) ∧
    ∀ (a : Adapter) (disk : Disk) (root : Option Path) (v : Json) (i : Issue) (message : String),
      a.issueOf disk root v = .ok i → i.message = .str message →
        ∃ f : Finding, f.tool = a ∧ f.Identifies i :=
  ⟨fun _ _ same => (Finding.tool_of_idText same).1,
    fun _ _ files rules => ⟨Finding.eq_of_idText files rules, Finding.eq_or_collide files rules⟩,
    fun _ _ _ _ _ _ => Adapter.identifies_of_issueOf⟩

/-! ## Bars that are taken for others -/

/-- A finding in the file `a`, which tells what another one looks like. -/
def telling : Finding := ⟨.ruff, "a", 1, "E501", "b|2|F401|c"⟩

/-- A finding in a file with bars in its name. -/
def barred : Finding := ⟨.ruff, "a|1|E501|b", 2, "F401", "c"⟩

/-- The entry of a report from which a finding is made. -/
def Finding.entry (f : Finding) : Json :=
  .obj
    [ ("filename", .str f.file), ("location", .obj [("row", .int f.line), ("column", .int 1)]),
      ("code", .str f.rule), ("message", .str f.message) ]

/-- The issue that is made of it. -/
def Finding.issue (f : Finding) : Issue :=
  ⟨.str f.id, .str f.message, .str f.file, f.line, 1, (RuffReport.classify f.rule).1,
    (RuffReport.classify f.rule).2, .str f.rule, .str f.tool.name, none⟩

/-- Two different findings, both of which an adapter reports, under one identifier: it is the digest of
one text. -/
theorem not_every_finding_stands_apart :
    (¬ ∀ f g : Finding, f.idText = g.idText → f = g) ∧ telling.id = barred.id ∧
      ∀ disk : Disk, Adapter.issueOf .ruff disk none telling.entry = .ok telling.issue ∧
        Adapter.issueOf .ruff disk none barred.entry = .ok barred.issue := by
  have same : telling.idText = barred.idText := by rfl
  refine ⟨fun apart => ?_, by rw [Finding.id_eq, Finding.id_eq, same], fun disk => ⟨rfl, rfl⟩⟩
  exact absurd (apart _ _ same) (by decide)

/-- The tool is told apart; where the bars in the names are as many, so are two messages; and what is
reported of a file with bars in its name is under its own identifier. -/
theorem identifiers_tell_apart_barred :
    telling.tool = barred.tool ∧ barred.idText ≠ { barred with message := "d" }.idText ∧
      ∃ f : Finding, f.tool = .ruff ∧ f.Identifies barred.issue := by
  obtain ⟨tools, apart, reported⟩ := identifiers_tell_apart
  refine ⟨tools _ _ rfl, fun same => ?_, ?_⟩
  · exact absurd ((apart barred { barred with message := "d" } rfl rfl).1 same) (by decide)
  · exact reported .ruff ⟨[], []⟩ none barred.entry _ "c" rfl rfl

end LintHub
