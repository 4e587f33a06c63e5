import LintHub.Json.Coerce
import LintHub.Text.Casing

/-! # Severities and categories -/

namespace LintHub

inductive Severity where
  | info
  | warning
  | error
  | critical
  deriving DecidableEq, Repr

namespace Severity

def all : List Severity := [info, warning, error, critical]

/-- The place of a severity in the order. -/
def rank : Severity → Nat
  | info => 0
  | warning => 1
  | error => 2
  | critical => 3

instance : LE Severity := ⟨fun a b => a.rank ≤ b.rank⟩

instance (a b : Severity) : Decidable (a ≤ b) :=
  inferInstanceAs (Decidable (a.rank ≤ b.rank))

def label : Severity → String
  | info => "info"
  | warning => "warning"
  | error => "error"
  | critical => "critical"

/-- The severity of a name, whatever its case and the blanks around it. -/
def ofText? (s : String) : Option Severity :=
  all.find? fun v => Text.upper v.label == Text.upper (Text.strip s)

/-- An unknown name and a missing value count as a warning. -/
def ofJson (v : Json) : Except Fault Severity :=
  if v.isBlank then .ok warning
  else (v.textFor "strip").map fun s => (ofText? s).getD warning

end Severity

inductive Category where
  | style
  | performance
  | security
  | bug
  | portability
  | modernization
  | maintainability
  deriving DecidableEq, Repr

namespace Category

def all : List Category :=
  [style, performance, security, bug, portability, modernization, maintainability]

def label : Category → String
  | style => "style"
  | performance => "performance"
  | security => "security"
  | bug => "bug"
  | portability => "portability"
  | modernization => "modernization"
  | maintainability => "maintainability"

def ofText? (s : String) : Option Category :=
  all.find? fun v => v.label == Text.lower (Text.strip s)

/-- An unknown name and a missing value count as style. -/
def ofJson (v : Json) : Except Fault Category :=
  if v.isBlank then .ok style
  else (v.textFor "strip").map fun s => (ofText? s).getD style

end Category

end LintHub
