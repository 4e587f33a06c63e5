import LintHub.Schema
import LintHub.Request
import LintHub.Settings

/-! # Tool configurations

Settings that every tool has, and those of one kind of tool.
-/

namespace LintHub

inductive ConfigKind where
  | base
  | ruff
  | bandit
  deriving DecidableEq, Repr

/-- The name under which messages speak of a kind of configuration. -/
def ConfigKind.label : ConfigKind → String
  | base => "ToolConfig"
  | ruff => "RuffConfig"
  | bandit => "BanditConfig"

/-- The name of the tools that use a kind of configuration; none for the general kind. -/
def ConfigKind.toolName : ConfigKind → String
  | base => ""
  | ruff => "ruff"
  | bandit => "bandit"

structure RuffOptions where
  select : List String
  extendSelect : List String
  ignore : List String
  lineLength : Option Int
  targetVersion : Option String
  preview : Bool
  extendExclude : List String
  deriving DecidableEq, Repr

def RuffOptions.default : RuffOptions :=
  ⟨[], [], [], none, none, false, []⟩

structure BanditOptions where
  severityLevel : String
  confidenceLevel : String
  skips : List String
  tests : List String
  exclude : List String
  deriving DecidableEq, Repr

def BanditOptions.default : BanditOptions :=
  ⟨"all", "all", [], [], []⟩

/-- The settings of one kind of tool. -/
inductive Special where
  | base
  | ruff (o : RuffOptions)
  | bandit (o : BanditOptions)
  deriving DecidableEq, Repr

def Special.kind : Special → ConfigKind
  | base => .base
  | ruff _ => .ruff
  | bandit _ => .bandit

structure Config where
  toolName : String
  sourcePath : String
  outputFile : String
  includePaths : List String
  definitions : List String
  customOptions : Fields
  timeout : Int
  special : Special
  deriving Repr

namespace Config

def kind (c : Config) : ConfigKind := c.special.kind

/-- The name of a configuration for people to read. -/
def displayName (c : Config) : String :=
  match c.special with
  | .base => c.toolName
  | .ruff _ => "Ruff"
  | .bandit _ => "Bandit"

/-! ## Documents -/

def texts (ss : List String) : Json :=
  .arr (ss.map .str)

def specialFields : Special → Fields
  | .base => []
  | .ruff o =>
    [ ("select", texts o.select), ("extend_select", texts o.extendSelect),
      ("ignore", texts o.ignore), ("line_length", (o.lineLength.map Json.int).getD .null),
      ("target_version", (o.targetVersion.map Json.str).getD .null), ("preview", .bool o.preview),
      ("extend_exclude", texts o.extendExclude) ]
  | .bandit o =>
    [ ("severity_level", .str o.severityLevel), ("confidence_level", .str o.confidenceLevel),
      ("skips", texts o.skips), ("tests", texts o.tests), ("exclude", texts o.exclude) ]

def toJson (c : Config) : Json :=
  .obj <|
    [ ("tool_name", .str c.toolName), ("source_path", .str c.sourcePath),
      ("output_file", .str c.outputFile), ("include_paths", texts c.includePaths),
      ("definitions", texts c.definitions), ("custom_options", .obj c.customOptions),
      ("timeout_sec", .int c.timeout) ] ++ specialFields c.special

open Checked Schema

def checkRuffOptions (fs : Fields) : Checked RuffOptions :=
  .ok RuffOptions.mk
    |> (both · (field fs "select" [] Schema.texts))
    |> (both · (field fs "extend_select" [] Schema.texts))
    |> (both · (field fs "ignore" [] Schema.texts))
    |> (both · (field fs "line_length" none (optional integer)))
    |> (both · (field fs "target_version" none (optional text)))
    |> (both · (field fs "preview" false bool))
    |> (both · (field fs "extend_exclude" [] Schema.texts))

def checkBanditOptions (fs : Fields) : Checked BanditOptions :=
  .ok BanditOptions.mk
    |> (both · (field fs "severity_level" "all" text))
    |> (both · (field fs "confidence_level" "all" text))
    |> (both · (field fs "skips" [] Schema.texts))
    |> (both · (field fs "tests" [] Schema.texts))
    |> (both · (field fs "exclude" [] Schema.texts))

def checkSpecial (kind : ConfigKind) (fs : Fields) : Checked Special :=
  match kind with
  | .base => .ok .base
  | .ruff => (checkRuffOptions fs).map .ruff
  | .bandit => (checkBanditOptions fs).map .bandit

def check (timeout : Int) (kind : ConfigKind) (v : Json) : Checked Config :=
  match v with
  | .obj fs =>
    .ok Config.mk
      |> (both · (field fs "tool_name" kind.toolName text))
      |> (both · (field fs "source_path" "" text))
      |> (both · (field fs "output_file" "" text))
      |> (both · (field fs "include_paths" [] Schema.texts))
      |> (both · (field fs "definitions" [] Schema.texts))
      |> (both · (field fs "custom_options" [] fields))
      |> (both · (field fs "timeout_sec" timeout integer))
      |> (both · (checkSpecial kind fs))
  | _ => refuse "model_type"

/-- The configuration that a document describes. -/
def ofJson (settings : Settings) (kind : ConfigKind) (v : Json) : Except Fault Config :=
  (check settings.toolTimeout kind v).mapError (.schema kind.label)

def defaultSpecial : ConfigKind → Special
  | .base => .base
  | .ruff => .ruff .default
  | .bandit => .bandit .default

/-- A configuration with nothing set but the tool's name. -/
def new (settings : Settings) (kind : ConfigKind) (toolName : String) : Config :=
  ⟨toolName, "", "", [], [], [], settings.toolTimeout, defaultSpecial kind⟩

end Config

/-- Something that is offered to a tool as its configuration. -/
inductive Offer where
  | config (c : Config)
  | value (v : Json)
  deriving Repr

/-- The name under which messages speak of what was offered. -/
def Offer.label : Offer → String
  | config c => c.kind.label
  | value v => v.kind.label

end LintHub
