import LintHub.Fault

/-! # Log events

What the parts of the library report while they work: a message with its source, the tool or job it
is about, and a fault where one was caught.
-/

namespace LintHub

inductive LogLevel where
  | info
  | warning
  | error
  deriving DecidableEq, Repr

def LogLevel.label : LogLevel → String
  | info => "INFO"
  | warning => "WARNING"
  | error => "ERROR"

/-- The parts of the library that report. -/
inductive LogSource where
  | store
  | bandit
  | external
  | registry
  | orchestrator
  | routes
  deriving DecidableEq, Repr

def LogSource.label : LogSource → String
  | store => "services.result_store"
  | bandit => "tools.bandit"
  | external => "tools.external"
  | registry => "tools.registry"
  | orchestrator => "services.orchestrator"
  | routes => "api.analysis_routes"

structure LogEvent where
  level : LogLevel
  source : LogSource
  message : String
  tool : Option String
  job : Option String
  fault : Option Fault
  deriving Repr

namespace LogEvent

def toJson (e : LogEvent) : Json :=
  .obj <|
    [("level", .str e.level.label), ("logger", .str e.source.label), ("msg", .str e.message)] ++
    (e.tool.map fun s => ("tool", Json.str s)).toList ++
    (e.job.map fun s => ("job_id", Json.str s)).toList ++
    (e.fault.map fun f => ("exc", Json.str f.trace)).toList

end LogEvent

end LintHub
