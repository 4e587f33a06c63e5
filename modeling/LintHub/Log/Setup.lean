import LintHub.Log.Record

/-! # Which records are printed

The level of the root logger comes from the environment; a few loggers that talk too much have one of
their own.
-/

namespace LintHub

def noisyLoggers : List String := ["uvicorn.access", "httpcore", "httpx"]

def noisyLevel : Int := 30

/-- The layout that goes by the name of a level without being one. -/
def basicFormat : String := "%(levelname)s:%(name)s:%(message)s"

/-- The root level that a name asks for, whatever its case; an unknown one counts as `INFO`. -/
def rootLevel (name : Option String) : Except Fault Int :=
  let name := Text.upper (name.getD "INFO")
  if name == "BASIC_FORMAT" then .error (.loggingLevel basicFormat)
  else .ok ((levelOfName? name).getD 20)

/-- Whether a logger is `parent` or lies below it. -/
def isUnder (parent logger : String) : Bool :=
  logger == parent || (parent ++ ".").toList.isPrefixOf logger.toList

def effectiveLevel (root : Int) (logger : String) : Int :=
  if noisyLoggers.any (isUnder · logger) then noisyLevel else root

/-- Whether a record of a level is printed. -/
def isPrinted (root : Int) (logger : String) (level : Int) : Bool :=
  decide (0 < level) && decide (effectiveLevel root logger ≤ level)

end LintHub
