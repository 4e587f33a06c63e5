import LintHub.Severity
import LintHub.Text.Lines

/-! # Arguments of the gate

One report and three options, each of which may be abbreviated as long as only one option is meant.
Reading ends in the options, in a request for help or in a complaint.
-/

namespace LintHub.Gate

structure Options where
  report : String
  failOn : String
  maxIssues : Int
  allowToolFailures : Bool
  deriving DecidableEq, Repr

/-- The options that can be given. -/
inductive Flag where
  | help
  | failOn
  | maxIssues
  | allowToolFailures
  deriving DecidableEq, Repr

/-- What ends the reading of arguments before all are read. -/
inductive Halt where
  | help
  | complaint (text : String)
  | fault (f : Fault)
  deriving Repr

def flagNames : List (String × Flag) :=
  [ ("-h", .help), ("--help", .help), ("--fail-on", .failOn), ("--max-issues", .maxIssues),
    ("--allow-tool-failures", .allowToolFailures) ]

/-- How complaints speak of an option. -/
def Flag.label : Flag → String
  | help => "-h/--help"
  | failOn => "--fail-on"
  | maxIssues => "--max-issues"
  | allowToolFailures => "--allow-tool-failures"

/-- Whether an option takes a value. -/
def Flag.takesValue : Flag → Bool
  | failOn | maxIssues => true
  | help | allowToolFailures => false

/-- What an argument is taken for. `option` holds the name it was given by and a value joined to it;
an option that is not known has no flag. -/
inductive Token where
  | option (flag : Option Flag) (name : String) (value : Option String)
  | terminator
  | positional
  deriving DecidableEq, Repr

structure Argument where
  token : Token
  text : String
  deriving DecidableEq, Repr

/-- Splits at the first equals sign. -/
def splitValue (s : String) : String × Option String :=
  let cs := s.toList
  let name := cs.takeWhile (· != '=')
  match cs.drop name.length with
  | [] => (s, none)
  | _ :: value => (String.ofList name, some (String.ofList value))

/-- The options that an argument may mean when it is none by name. -/
def candidates (s : String) : List (Flag × String × Option String) :=
  match s.toList with
  | '-' :: '-' :: _ =>
    let (name, value) := splitValue s
    flagNames.filterMap fun (n, f) =>
      if name.toList.isPrefixOf n.toList then some (f, n, value) else none
  | '-' :: c :: rest =>
    flagNames.filterMap fun (n, f) =>
      if n.toList = ['-', c] then some (f, n, some (String.ofList rest))
      else if s.toList.isPrefixOf n.toList then some (f, n, none)
      else none
  | _ => []

/-- A minus sign and a number with or without a point. -/
def isNegativeNumber (s : String) : Bool :=
  let number (cs : List Char) : Bool :=
    let tail := cs.dropWhile Text.isDigit
    let whole := cs.takeWhile Text.isDigit
    match tail with
    | [] => !whole.isEmpty
    | '.' :: part => !part.isEmpty && part.all Text.isDigit
    | _ => false
  match s.toList with
  | '-' :: cs => Text.holdsOnLine number cs
  | _ => false

/-- What an argument is taken for before any double dash. -/
def classify (s : String) : Except Halt Token :=
  match s.toList with
  | '-' :: _ :: _ =>
    match flagNames.lookup s with
    | some f => .ok (.option (some f) s none)
    | none =>
      match splitValue s with
      | (name, some value) =>
        match flagNames.lookup name with
        | some f => .ok (.option (some f) name (some value))
        | none => byPrefix
      | _ => byPrefix
  | _ => .ok .positional
where
  byPrefix : Except Halt Token :=
    match candidates s with
    | [(f, name, value)] => .ok (.option (some f) name value)
    | [] =>
      if isNegativeNumber s || s.toList.contains ' ' then .ok .positional
      else .ok (.option none s none)
    | several =>
      .error (.complaint ("ambiguous option: " ++ s ++ " could match " ++
        String.intercalate ", " (several.map (·.2.1))))

/-- Everything after the first double dash is positional. -/
def classifyAll : List String → Except Halt (List Argument)
  | [] => .ok []
  | s :: rest =>
    if s == "--" then .ok (⟨.terminator, s⟩ :: rest.map fun t => ⟨.positional, t⟩)
    else do
      let t ← classify s
      return ⟨t, s⟩ :: (← classifyAll rest)

/-- What has been read so far. -/
structure Reading where
  report : Option String
  failOn : String
  maxIssues : Int
  allowToolFailures : Bool
  /-- Arguments that belong to nothing. -/
  extras : List String
  deriving Repr

def Reading.start : Reading :=
  ⟨none, "error", 0, false, []⟩

def complain (flag : Flag) (text : String) : Except Halt Reading :=
  .error (.complaint ("argument " ++ flag.label ++ ": " ++ text))

def choicesText : String :=
  String.intercalate ", " (Severity.all.map fun s => Text.quoted s.label)

/-- Takes an option with its value. -/
def applyFlag (r : Reading) (flag : Flag) (value : String) : Except Halt Reading :=
  match flag with
  | .help => .error .help
  | .allowToolFailures => .ok { r with allowToolFailures := true }
  | .failOn =>
    if value == "--" then .error (.fault (.formatValue "not enough values to unpack (expected 1, got 0)"))
    else if Severity.all.any fun s => s.label == value then .ok { r with failOn := value }
    else complain flag ("invalid choice: " ++ Text.quoted value ++ " (choose from " ++ choicesText ++ ")")
  | .maxIssues =>
    if value == "--" then .error (.fault (.formatValue "not enough values to unpack (expected 1, got 0)"))
    else
      match intOfText value with
      | .ok n => .ok { r with maxIssues := n }
      | .error _ => complain flag ("invalid int value: " ++ Text.quoted value)

/-- Takes the letters after a single dash. Help is the only short option: it is asked for by the first
letter, whatever other letters follow, unless a value is joined to one of its own. -/
def applyLetters (r : Reading) : List Char → Except Halt Reading
  | 'h' :: '=' :: value => ignored value
  | 'h' :: '-' :: value => ignored ('-' :: value)
  | 'h' :: letters => applyLetters r letters
  | _ => applyFlag r .help ""
where
  ignored (value : List Char) : Except Halt Reading :=
    complain .help ("ignored explicit argument " ++ Text.quoted (String.ofList value))

/-- Takes the option at the front; `rest` are the arguments after it. -/
def takeOption (r : Reading) (text : String) (flag : Option Flag) (name : String)
    (value : Option String) (rest : List Argument) : Except Halt (Reading × List Argument) :=
  match flag, value with
  | none, _ => .ok ({ r with extras := r.extras ++ [text] }, rest)
  | some flag, some value =>
    if flag.takesValue then return (← applyFlag r flag value, rest)
    else if name == "-h" then return (← applyLetters r (text.toList.drop 1), rest)
    else do
      let r ← complain flag ("ignored explicit argument " ++ Text.quoted value)
      return (r, rest)
  | some flag, none =>
    if flag.takesValue then
      match rest with
      | ⟨.positional, value⟩ :: rest => return (← applyFlag r flag value, rest)
      | _ => do
        let r ← complain flag "expected one argument"
        return (r, rest)
    else return (← applyFlag r flag "", rest)

/-- The report at the front, with the double dash that may stand before or after it, and what is left
behind it. -/
def takeReport (as : List Argument) : Option (String × List Argument) :=
  let undashed := match as with
    | ⟨.terminator, _⟩ :: rest => rest
    | as => as
  match undashed with
  | ⟨.positional, s⟩ :: ⟨.terminator, _⟩ :: rest => some (s, rest)
  | ⟨.positional, s⟩ :: rest => some (s, rest)
  | _ => none

def isOption (a : Argument) : Bool :=
  match a.token with
  | .option .. => true
  | _ => false

/-- Reads arguments one option or report at a time. -/
def readFrom (fuel : Nat) (r : Reading) (as : List Argument) : Except Halt Reading :=
  match fuel with
  | 0 => .ok r
  | fuel + 1 =>
    match as with
    | [] => .ok r
    | ⟨.option flag name value, text⟩ :: rest => do
      let (r, rest) ← takeOption r text flag name value rest
      readFrom fuel r rest
    | as =>
      match (if r.report.isNone then takeReport as else none) with
      | some (s, rest) => readFrom fuel { r with report := some s } rest
      | none =>
        let skipped := (as.takeWhile fun a => !isOption a).map (·.text)
        readFrom fuel { r with extras := r.extras ++ skipped } (as.drop skipped.length)

/-- The options that arguments give. -/
def Options.ofArguments (arguments : List String) : Except Halt Options := do
  let as ← classifyAll arguments
  let r ← readFrom (as.length + 1) Reading.start as
  match r.report with
  | none => throw (.complaint "the following arguments are required: report")
  | some report =>
    if r.extras.isEmpty then return ⟨report, r.failOn, r.maxIssues, r.allowToolFailures⟩
    else throw (.complaint ("unrecognized arguments: " ++ String.intercalate " " r.extras))

end LintHub.Gate
