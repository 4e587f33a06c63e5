import LintHub.Tool.Config

/-! # Adapters

The analysers that are known: what they are called, what they look at, and which configuration they
take.
-/

namespace LintHub

inductive Adapter where
  | ruff
  | bandit
  deriving DecidableEq, Repr

namespace Adapter

def all : List Adapter := [ruff, bandit]

/-- The name of the tool and of its program. -/
def name : Adapter → String
  | ruff => "ruff"
  | bandit => "bandit"

def ofName? (s : String) : Option Adapter :=
  all.find? fun a => a.name == s

def configKind : Adapter → ConfigKind
  | ruff => .ruff
  | bandit => .bandit

/-- The program that the settings ask for; empty if they leave it open. -/
def chosenProgram (settings : Settings) : Adapter → String
  | ruff => settings.ruffBin
  | bandit => settings.banditBin

def description : Adapter → String
  | ruff => "Ruff: fast Python linter covering pyflakes, pycodestyle, bugbear and more."
  | bandit => "Bandit: finds common security issues in Python code."

def extensions : Adapter → List String
  | ruff => [".py", ".pyi"]
  | bandit => [".py"]

def help : Adapter → String
  | ruff =>
    "Ruff options:\n" ++
    "- select / extend_select: rule codes or prefixes to enable (e.g. E, F, B)\n" ++
    "- ignore: rule codes to disable\n" ++
    "- line_length: maximum line length (1-320)\n" ++
    "- target_version: minimum Python version, e.g. py311\n" ++
    "- preview: enable preview rules\n" ++
    "- extend_exclude: extra glob patterns to skip\n" ++
    "Include paths and definitions do not apply to Python sources and are ignored."
  | bandit =>
    "Bandit options:\n" ++
    "- severity_level / confidence_level: all, low, medium or high\n" ++
    "- skips: test ids to skip (e.g. B101)\n" ++
    "- tests: only run these test ids\n" ++
    "- exclude: paths to exclude from the scan\n" ++
    "Include paths and definitions do not apply to Python sources and are ignored."

def requirements (a : Adapter) : String :=
  a.name ++ " must be installed and available in PATH."

/-- The exit codes of a run that went well; one means that something was found. -/
def acceptsExit (code : Int) : Bool :=
  code == 0 || code == 1

end Adapter

end LintHub
