import LintHub.Tool.Runner
import LintHub.Files.Resolve

/-! # Command lines

What a tool's program is started with: what the request gives comes before what is configured, and
further arguments of either come last.
-/

namespace LintHub.Bench

/-- The configuration, which a tool has to have before it can be run. -/
def requireConfig : Act Bench Config := do
  let r := (← get).runner
  match r.config with
  | some c => return c
  | none => throw (.configMissing r.adapter.name)

/-- An option with its values, unless there are none. -/
def listOption (name : String) (values : List String) : List Json :=
  if values.isEmpty then [] else [.str name, .str (String.intercalate "," values)]

/-- Further arguments: whatever can be gone through, each item as text. -/
def extraArguments (options : Fields) : Except Fault (List Json) := do
  let items ← ((options.get? "extra_args").getD (.arr [])).items
  return items.map fun v => .str v.display

def ruffOptions (o : RuffOptions) : List Json :=
  listOption "--select" o.select ++
  listOption "--extend-select" o.extendSelect ++
  listOption "--ignore" o.ignore ++
  (match o.lineLength with
    | some n => [.str "--line-length", .str (Text.intText n)]
    | none => []) ++
  (match o.targetVersion with
    | some s => if s.isEmpty then [] else [.str "--target-version", .str s]
    | none => []) ++
  (if o.preview then [.str "--preview"] else []) ++
  listOption "--extend-exclude" o.extendExclude

/-- A level, unless it is the widest. -/
def levelOption (name level : String) : List Json :=
  if level == "all" then [] else [.str name, .str level]

def banditOptions (o : BanditOptions) : List Json :=
  levelOption "--severity-level" o.severityLevel ++
  levelOption "--confidence-level" o.confidenceLevel ++
  listOption "--skip" o.skips ++
  listOption "--tests" o.tests ++
  listOption "--exclude" o.exclude

/-- Where the program writes its report itself. -/
def reportOption (disk : Disk) (output : Json) : Except Fault (List Json) := do
  if output.isBlank then return []
  else return [.str "-o", .str (← disk.resolve (← Path.ofJson output)).text]

/-- What stands between the program and the further arguments. -/
def ownArguments (disk : Disk) (c : Config) (r : Request) : Except Fault (List Json) := do
  let t := c.targetFor r
  match c.special with
  | .ruff o =>
    return [.str "check", t.sourcePath, .str "--output-format", .str "json", .str "--no-cache"] ++
      ruffOptions o
  | .bandit o =>
    return [.str "-r", t.sourcePath, .str "-f", .str "json"] ++
      (← reportOption disk t.outputFile) ++ banditOptions o
  | .base => return []

/-- The program and its arguments. -/
def commandLine (r : Request) : Act Bench (List Json) := do
  let c ← requireConfig
  let a ← adapter
  let path ← executablePath
  let disk := (← get).world.disk
  let own ← (ownArguments disk c r : Except Fault (List Json))
  let configured ← (extraArguments c.customOptions : Except Fault (List Json))
  let requested ← (extraArguments (r.optionsFor a.name) : Except Fault (List Json))
  return .str (if path.isEmpty then a.name else path) :: own ++ configured ++ requested

/-- The arguments as texts, if all of them are. -/
def textsFrom (index : Nat) : List Json → Except Fault (List String)
  | [] => .ok []
  | .str s :: vs => do return s :: (← textsFrom (index + 1) vs)
  | v :: _ => .error (.misused (.join index) v.kind)

end LintHub.Bench
