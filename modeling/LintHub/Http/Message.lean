import LintHub.Fault
import LintHub.Json.Writer

/-! # Requests and replies -/

namespace LintHub.Http

structure HttpRequest where
  method : String
  /-- The path with its query. -/
  target : String
  body : Option String
  deriving DecidableEq, Repr

inductive Reply where
  | document (v : Json)
  /-- A refusal with a status and a reason. -/
  | refusal (status : Nat) (reason : String)
  /-- A request that is not of the form that is asked for. -/
  | unfit (issues : List SchemaIssue)
  /-- A configuration that is not of the form that is asked for. -/
  | unfitConfig (model : String) (issues : List SchemaIssue)
  deriving Repr

namespace Reply

def status : Reply → Nat
  | document _ => 200
  | refusal status _ => status
  | unfit _ => 422
  | unfitConfig .. => 400

def stepJson : Step → Json
  | .field name => .str name
  | .index i => .int i

def issueJson (i : SchemaIssue) : Json :=
  .obj [("loc", .arr (i.location.map stepJson)), ("type", .str i.rule)]

/-- The place of an issue as one text. -/
def dottedJson (i : SchemaIssue) : Json :=
  .obj
    [ ("loc", .str (String.intercalate "." (i.location.map Step.text))), ("type", .str i.rule) ]

mutual

/-- A value as it can be sent: numbers that are none are null. -/
def sendable : Json → Json
  | .float x => if x.toRatio?.isSome then .float x else .null
  | .arr vs => .arr (sendableItems vs)
  | .obj fs => .obj (sendableFields fs)
  | v => v

def sendableItems : List Json → List Json
  | [] => []
  | v :: vs => sendable v :: sendableItems vs

def sendableFields : List (String × Json) → List (String × Json)
  | [] => []
  | (name, v) :: fs => (name, sendable v) :: sendableFields fs

end

def body : Reply → Json
  | document v => sendable v
  | refusal _ reason => .obj [("detail", .str reason)]
  | unfit issues => .arr (issues.map issueJson)
  | unfitConfig model issues =>
    .obj
      [ ("detail", .str (Fault.schemaHeading model issues)),
        ("errors", .arr (issues.map dottedJson)) ]

/-- The reply as it is sent; an integer of too many digits cannot be. -/
def sent (r : Reply) : Except Fault Reply :=
  if r.body.integersFit then .ok r else .error .integerTooLong

end Reply

end LintHub.Http
