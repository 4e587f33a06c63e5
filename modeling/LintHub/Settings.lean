import LintHub.Json.Coerce

/-! # Settings

Where results are kept, which programs are run, and the limits; each can be set in the environment.
-/

namespace LintHub

structure Settings where
  dataDir : String
  resultsDir : String
  ruffBin : String
  banditBin : String
  toolTimeout : Int
  asyncWorkers : Int
  topFilesLimit : Int
  deriving DecidableEq, Repr

/-- `name` below a directory, with one slash between them. -/
def below (directory name : String) : String :=
  if directory.isEmpty || directory.toList.getLast? == some '/' then directory ++ name
  else directory ++ "/" ++ name

namespace Settings

def default : Settings :=
  ⟨"data", "data/results", "", "", 180, 2, 10⟩

/-- A number from the environment. -/
def number (env : String → Option String) (name : String) (fallback : Int) : Except Fault Int :=
  match env name with
  | some s => intOfText s
  | none => .ok fallback

/-- The settings of an environment. -/
def ofEnvironment (env : String → Option String) : Except Fault Settings := do
  let dataDir := (env "DATA_DIR").getD "data"
  let toolTimeout ← number env "DEFAULT_TOOL_TIMEOUT_SEC" 180
  let asyncWorkers ← number env "ASYNC_WORKERS" 2
  let topFilesLimit ← number env "TOP_FILES_LIMIT" 10
  return {
    dataDir
    resultsDir := (env "RESULTS_DIR").getD (below dataDir "results")
    ruffBin := (env "RUFF_BIN").getD ""
    banditBin := (env "BANDIT_BIN").getD ""
    toolTimeout, asyncWorkers, topFilesLimit }

def toJson (s : Settings) : Json :=
  .obj
    [ ("DATA_DIR", .str s.dataDir), ("RESULTS_DIR", .str s.resultsDir),
      ("RUFF_BIN", .str s.ruffBin), ("BANDIT_BIN", .str s.banditBin),
      ("DEFAULT_TOOL_TIMEOUT_SEC", .int s.toolTimeout), ("ASYNC_WORKERS", .int s.asyncWorkers),
      ("TOP_FILES_LIMIT", .int s.topFilesLimit) ]

end Settings

end LintHub
