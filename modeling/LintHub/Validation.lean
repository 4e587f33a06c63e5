/-! # Outcomes of checks

Errors make a configuration unusable; warnings do not.
-/

namespace LintHub

structure Validation where
  errors : List String
  warnings : List String
  deriving DecidableEq, Repr

namespace Validation

def empty : Validation := ⟨[], []⟩

def isValid (v : Validation) : Bool := v.errors.isEmpty

def isClean (v : Validation) : Bool := v.errors.isEmpty && v.warnings.isEmpty

def error (v : Validation) (text : String) : Validation :=
  { v with errors := v.errors ++ [text] }

def warning (v : Validation) (text : String) : Validation :=
  { v with warnings := v.warnings ++ [text] }

def merge (v w : Validation) : Validation :=
  ⟨v.errors ++ w.errors, v.warnings ++ w.warnings⟩

end Validation

end LintHub
