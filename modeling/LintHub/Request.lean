import LintHub.Json.Coerce

/-! # Requests

What to analyse and where the raw output of the tools goes. Options are kept by tool.
-/

namespace LintHub

/-- Options by key; each key stands once. -/
abbrev Options := List (Scalar × Json)

namespace Options

/-- Sets an option; a key that says the same keeps its place and its form. -/
def put (o : Options) (k : Scalar) (v : Json) : Options :=
  setBy Scalar.identity o k v

def get? (o : Options) (name : String) : Option Json :=
  (o.find? fun p => p.1.identity = .str name).map (·.2)

/-- A key and a value: two items of a list, two characters, or the two names of an object. -/
def pairOf (index : Nat) (v : Json) : Except Fault (Json × Json) :=
  match v.items with
  | .error _ => .error (.pairKind index)
  | .ok [k, w] => .ok (k, w)
  | .ok vs => .error (.pairSize index vs.length)

/-- Options from pairs, the first of which has an index. -/
def ofPairs (done : Options) (index : Nat) : List Json → Except Fault Options
  | [] => .ok done
  | v :: vs => do
    let (k, w) ← pairOf index v
    ofPairs (done.put (← k.toScalar) w) (index + 1) vs

/-- Options from an object or a list of pairs. -/
def ofJson (v : Json) : Except Fault Options :=
  match v with
  | .obj fields => .ok (fields.map fun f => (.str f.1, f.2))
  | v => do ofPairs [] 0 (← v.items)

def toJson (o : Options) : Json :=
  .obj (o.map fun p => (p.1.fieldName, p.2))

end Options

structure Request where
  sourcePath : Json
  outputFile : Json
  includePaths : List Json
  definitions : List Json
  toolOptions : Options
  deriving Repr

namespace Request

def toJson (r : Request) : Json :=
  .obj
    [ ("source_path", r.sourcePath), ("output_file", r.outputFile),
      ("include_paths", .arr r.includePaths), ("definitions", .arr r.definitions),
      ("tool_specific_options", r.toolOptions.toJson) ]

def ofJson (v : Json) : Except Fault Request := do
  let d ← v.fieldsFor "get"
  let includePaths ← (d.valueOr "include_paths" (.arr [])).items
  let definitions ← (d.valueOr "definitions" (.arr [])).items
  let toolOptions ← Options.ofJson (d.valueOr "tool_specific_options" (.obj []))
  return {
    sourcePath := d.valueOr "source_path" (.str "")
    outputFile := d.valueOr "output_file" (.str "")
    includePaths, definitions, toolOptions }

/-- The options nested under a tool's name; anything but an object counts as none. -/
def optionsFor (r : Request) (tool : String) : Fields :=
  match r.toolOptions.get? tool with
  | some (.obj fields) => fields
  | _ => []

end Request

end LintHub
