import LintHub.Text.Lines

/-! # Endpoints

What can be asked for, and under which paths and methods.
-/

namespace LintHub.Http

inductive Endpoint where
  | listTools
  | listAvailable
  | getConfig (tool : String)
  | putConfig (tool : String)
  | validate (tool : String)
  | command (tool : String)
  | analyse
  | startJob
  | getJob (job : String)
  | cancel
  | aggregate
  | statistics
  | compare
  | health
  deriving DecidableEq, Repr

namespace Endpoint

/-- The endpoints at the steps of a path, with their methods. A step that can be anything is not
empty. -/
def atSteps : List String → List (String × Endpoint)
  | ["", "api", "tools"] => [("GET", listTools)]
  | ["", "api", "tools", "available"] => [("GET", listAvailable)]
  | ["", "api", "tools", tool, "config"] =>
    if tool.isEmpty then [] else [("GET", getConfig tool), ("PUT", putConfig tool)]
  | ["", "api", "tools", tool, "validate"] =>
    if tool.isEmpty then [] else [("POST", validate tool)]
  | ["", "api", "tools", tool, "command"] =>
    if tool.isEmpty then [] else [("POST", command tool)]
  | ["", "api", "analyse"] => [("POST", analyse)]
  | ["", "api", "analyse", "jobs"] => [("POST", startJob)]
  | ["", "api", "analyse", "jobs", job] => if job.isEmpty then [] else [("GET", getJob job)]
  | ["", "api", "analyse", "cancel"] => [("POST", cancel)]
  | ["", "api", "aggregate"] => [("POST", aggregate)]
  | ["", "api", "statistics"] => [("POST", statistics)]
  | ["", "api", "compare"] => [("POST", compare)]
  | ["", "health"] => [("GET", health)]
  | _ => []

def atPath (cs : List Char) : List (String × Endpoint) :=
  atSteps (Text.parts '/' (String.ofList cs))

/-- The endpoints of a path. A newline at its end is dropped if there is none otherwise, then all
slashes at its end. -/
def ofPath (path : String) : List (String × Endpoint) :=
  let cs := path.toList
  let here := onLine cs
  if here.isEmpty && cs.getLast? == some '/' then onLine (cs.reverse.dropWhile (· = '/')).reverse
  else here
where
  onLine (cs : List Char) : List (String × Endpoint) :=
    let here := atPath cs
    if here.isEmpty && cs.getLast? == some '\n' then atPath cs.dropLast else here

end Endpoint

end LintHub.Http
