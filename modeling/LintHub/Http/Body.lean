import LintHub.Http.Address
import LintHub.Http.Message
import LintHub.Schema
import LintHub.Request

/-! # Bodies of requests

What a body has to hold. A body that is no JSON is refused at once; everything else that is wrong
with a request is reported together.
-/

namespace LintHub.Http

open Checked Schema

/-! ## From text to value -/

/-- The value of a body, null if there is none. A byte order mark in front does not count. -/
def bodyValue (text : Option String) : Except Reply Json :=
  let cs := (text.getD "").toList
  if cs.isEmpty then .ok .null
  else
    match Json.read (String.ofList (if cs.head? == some (Char.ofNat 0xfeff) then cs.drop 1 else cs))
      with
    | .ok v => .ok v
    | .error (.malformed _ place) =>
      .error (.unfit [⟨[.field "body", .index place.offset], "json_invalid"⟩])
    | .error (.tooManyDigits _) => .error (.refusal 400 "There was an error parsing the body")

/-- A body that has to be there. -/
def checkBody {α : Type} (check : Json → Checked α) (v : Json) : Checked α :=
  within (.field "body") <|
    match v with
    | .null => refuse "missing"
    | v => check v

def fitting {α : Type} (c : Checked α) : Except Reply α :=
  c.mapError .unfit

/-- The body of a request. -/
def readBody {α : Type} (check : Json → Checked α) (text : Option String) : Except Reply α := do
  fitting (checkBody check (← bodyValue text))

/-! ## Parameters -/

/-- An integer among the parameters. -/
def checkInteger (a : Address) (name : String) (fallback : Int) : Checked Int :=
  match a.get? name with
  | none => .ok fallback
  | some s => within (.field "query") (within (.field name) (integer (.str s)))

/-! ## Models -/

/-- An object with the fields of a model. -/
def model {α : Type} (check : Fields → Checked α) : Json → Checked α
  | .obj fs => check fs
  | _ => refuse "model_attributes_type"

def requestOf (source output : String) (includes definitions : List String) (options : Fields) :
    Request :=
  { sourcePath := .str source
    outputFile := .str output
    includePaths := includes.map .str
    definitions := definitions.map .str
    toolOptions := options.map fun p => (.str p.1, p.2) }

def checkRequest : Json → Checked Request :=
  model fun fs =>
    .ok requestOf
      |> (both · (required fs "source_path" text))
      |> (both · (field fs "output_file" "" text))
      |> (both · (field fs "include_paths" [] Schema.texts))
      |> (both · (field fs "definitions" [] Schema.texts))
      |> (both · (field fs "tool_specific_options" [] fields))

/-- A batch that is asked for, and where its results are to be saved. -/
structure BatchOrder where
  tools : List String
  request : Request
  saveTo : Option String
  deriving Repr

def checkOrder : Json → Checked BatchOrder :=
  model fun fs =>
    .ok BatchOrder.mk
      |> (both · (required fs "tools" Schema.texts))
      |> (both · (required fs "request" checkRequest))
      |> (both · (field fs "save_to" none (optional text)))

/-- Objects, each with any fields. -/
def documents : Json → Checked (List Json) :=
  list fun v => (fields v).map .obj

def checkResults : Json → Checked (List Json) :=
  model fun fs => required fs "results" documents

/-- The two sides of a comparison. -/
def checkSides : Json → Checked (List Json × List Json) :=
  model fun fs =>
    .ok Prod.mk
      |> (both · (required fs "baseline" documents))
      |> (both · (required fs "current" documents))

end LintHub.Http
