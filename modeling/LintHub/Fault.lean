import LintHub.Json.Reader
import LintHub.Json.Display
import LintHub.Text.Utf8
import LintHub.Time.Parse

/-! # Faults

What can go wrong, by cause. Each fault has a kind, which decides who may treat it as ordinary, and
one message.
-/

namespace LintHub

/-- Kinds of fault. `other` is a kind known by its label only. -/
inductive FaultKind where
  | member
  | type
  | value
  | key
  | overflow
  | runtime
  | system
  | notFound
  | permission
  | isDirectory
  | notDirectory
  | alreadyExists
  | json
  | encoding
  | program
  | timeout
  | toolNotFound
  | toolUnavailable
  | invalidArgument
  | configType
  | configMissing
  | store
  | schema
  | other (label : String)
  deriving DecidableEq, Repr

namespace FaultKind

def label : FaultKind → String
  | member => "AttributeError"
  | type => "TypeError"
  | value => "ValueError"
  | key => "KeyError"
  | overflow => "OverflowError"
  | runtime => "RuntimeError"
  | system => "OSError"
  | notFound => "FileNotFoundError"
  | permission => "PermissionError"
  | isDirectory => "IsADirectoryError"
  | notDirectory => "NotADirectoryError"
  | alreadyExists => "FileExistsError"
  | json => "JSONDecodeError"
  | encoding => "UnicodeDecodeError"
  | program => "SubprocessError"
  | timeout => "TimeoutExpired"
  | toolNotFound => "ToolNotFoundError"
  | toolUnavailable => "ToolUnavailableError"
  | invalidArgument => "InvalidArgumentError"
  | configType => "InvalidConfigTypeError"
  | configMissing => "ConfigurationMissingError"
  | store => "ResultStoreError"
  | schema => "ValidationError"
  | other label => label

/-- The kinds that have a label of their own. -/
def named : List FaultKind :=
  [ member, type, value, key, overflow, runtime, system, notFound, permission, isDirectory,
    notDirectory, alreadyExists, json, encoding, program, timeout, toolNotFound, toolUnavailable,
    invalidArgument, configType, configMissing, store, schema ]

/-- The kind with a label; system faults have two more of them. -/
def ofLabel (s : String) : FaultKind :=
  if s == "IOError" || s == "EnvironmentError" then system
  else (named.find? fun k => k.label == s).getD (other s)

/-- The module under which log lines name a kind; common kinds have none. -/
def home : FaultKind → String
  | json => "json.decoder."
  | program | timeout | other "CalledProcessError" => "subprocess."
  | toolNotFound | toolUnavailable | invalidArgument | configType | configMissing | store =>
    "analysis_engine.core.errors."
  | schema => "pydantic_core._pydantic_core."
  | _ => ""

/-- The wider kind that a kind belongs to. -/
def parent? : FaultKind → Option FaultKind
  | notFound | permission | isDirectory | notDirectory | alreadyExists | store => some system
  | json | encoding | invalidArgument | schema => some value
  | timeout => some program
  | configType => some type
  | toolUnavailable | configMissing => some runtime
  | other "UnicodeError" | other "UnicodeEncodeError" => some value
  | other "NotImplementedError" | other "RecursionError" => some runtime
  | other "CalledProcessError" => some program
  | other "ConnectionError" | other "TimeoutError" | other "BrokenPipeError"
  | other "InterruptedError" | other "BlockingIOError" | other "ChildProcessError"
  | other "ProcessLookupError" | other "ConnectionResetError" | other "ConnectionRefusedError"
  | other "ConnectionAbortedError" => some system
  | _ => none

/-- Whether a kind is `wide` or belongs to it. -/
def isA (kind wide : FaultKind) : Bool :=
  kind == wide || kind.parent? == some wide

end FaultKind

/-- Refusals of the operating system. -/
inductive Refusal where
  | noEntry
  | noAccess
  | alreadyThere
  | notDirectory
  | isDirectory
  | nameTooLong
  | tooManyLinks
  | badFormat
  deriving DecidableEq, Repr

namespace Refusal

def code : Refusal → Nat
  | noEntry => 2
  | badFormat => 8
  | noAccess => 13
  | alreadyThere => 17
  | notDirectory => 20
  | isDirectory => 21
  | nameTooLong => 36
  | tooManyLinks => 40

def text : Refusal → String
  | noEntry => "No such file or directory"
  | badFormat => "Exec format error"
  | noAccess => "Permission denied"
  | alreadyThere => "File exists"
  | notDirectory => "Not a directory"
  | isDirectory => "Is a directory"
  | nameTooLong => "File name too long"
  | tooManyLinks => "Too many levels of symbolic links"

def kind : Refusal → FaultKind
  | noEntry => .notFound
  | noAccess => .permission
  | alreadyThere => .alreadyExists
  | notDirectory => .notDirectory
  | isDirectory => .isDirectory
  | nameTooLong | tooManyLinks | badFormat => .system

end Refusal

/-- The kinds of the system faults with codes of their own. -/
def FaultKind.byCode : List (Int × FaultKind) :=
  [ (1, .permission), (2, .notFound), (3, .other "ProcessLookupError"),
    (4, .other "InterruptedError"), (10, .other "ChildProcessError"),
    (11, .other "BlockingIOError"), (13, .permission), (17, .alreadyExists), (20, .notDirectory),
    (21, .isDirectory), (32, .other "BrokenPipeError"), (103, .other "ConnectionAbortedError"),
    (104, .other "ConnectionResetError"), (108, .other "BrokenPipeError"),
    (110, .other "TimeoutError"), (111, .other "ConnectionRefusedError"),
    (114, .other "BlockingIOError"), (115, .other "BlockingIOError") ]

/-- The kind of a system fault with a code. -/
def FaultKind.ofCode (code : Int) : FaultKind :=
  (byCode.lookup code).getD .system

/-- What an argument of the wrong sort was used for. -/
inductive Misuse where
  /-- Only texts name a path. -/
  | path
  /-- Only texts are joined; the item stands at an index. -/
  | join (index : Nat)
  /-- A list ends where an integer says. -/
  | slice
  /-- Integers are read from texts and numbers. -/
  | integer
  /-- Texts name a moment. -/
  | moment
  deriving DecidableEq, Repr

/-- A step into a document: a field's name or an index. -/
inductive Step where
  | field (name : String)
  | index (i : Nat)
  deriving DecidableEq, Repr

def Step.text : Step → String
  | field name => name
  | index i => Text.natText i

/-- A value that a model of a document refuses: where it stands and the rule it breaks. -/
structure SchemaIssue where
  location : List Step
  rule : String
  deriving DecidableEq, Repr

inductive Fault where
  | noMember (kind : ValueKind) (member : String)
  | notIterable (kind : ValueKind)
  | notHashable (kind : ValueKind)
  | misused (use : Misuse) (kind : ValueKind)
  | integerText (text : String)
  | integerDigits (count : Nat)
  | integerTooLong
  | infiniteInteger
  | undefinedInteger
  | divisionTooLarge
  | pairSize (index size : Nat)
  | pairKind (index : Nat)
  | moment (e : Time.MomentError)
  | span (e : Time.SpanError)
  | json (e : Json.ReadError)
  | encoding (e : Text.Utf8Error)
  | refused (r : Refusal) (path : String)
  | nullByte
  | emptyName (path : String)
  | invalidName (name : String)
  | linkLoop (path : String)
  | silentFailure
  | notDiagnostics
  | toolNotFound (name : String)
  | toolUnavailable (name : String)
  | noTools
  | unknownTool (name : String)
  | nullTool
  | namelessTool
  | emptyToolName
  | notAFactory (name : String)
  | configType (tool expected got : String)
  | configMissing (tool : String)
  | store (text : String)
  | schema (model : String) (issues : List SchemaIssue)
  | timeout (command : List Json) (seconds : Json)
  | noWorkers
  | format (text : String)
  | formatValue (text : String)
  | loggingLevel (text : String)
  | foreign (kind : FaultKind) (args : List Json)
  deriving Repr

namespace Fault

def jsonKind : Json.ReadError → FaultKind
  | .malformed _ _ => .json
  | .tooManyDigits _ => .value

def momentKind : Time.MomentError → FaultKind
  | .outOfRange => .overflow
  | _ => .value

/-- A foreign system fault with a code is of that code's kind. -/
def foreignKind (kind : FaultKind) (args : List Json) : FaultKind :=
  match kind, args with
  | .system, .int code :: _ :: paths => if paths.length ≤ 3 then .ofCode code else .system
  | kind, _ => kind

def kind : Fault → FaultKind
  | noMember .. => .member
  | notIterable .. | notHashable .. | misused .. | pairKind .. => .type
  | integerText .. | integerDigits .. | integerTooLong | undefinedInteger | pairSize .. => .value
  | infiniteInteger | divisionTooLarge => .overflow
  | moment e => momentKind e
  | span _ => .overflow
  | json e => jsonKind e
  | encoding _ => .encoding
  | refused r _ => r.kind
  | nullByte | emptyName _ | invalidName _ | silentFailure | notDiagnostics => .value
  | linkLoop _ => .runtime
  | toolNotFound _ => .toolNotFound
  | toolUnavailable _ => .toolUnavailable
  | noTools | unknownTool _ | nullTool | namelessTool => .invalidArgument
  | emptyToolName | notAFactory _ | noWorkers | formatValue _ | loggingLevel _ => .value
  | configType .. => .configType
  | configMissing _ => .configMissing
  | store _ => .store
  | schema .. => .schema
  | timeout .. => .timeout
  | format _ => .type
  | foreign kind args => foreignKind kind args

def digitsText (count : Nat) : String :=
  "Exceeds the limit (4300 digits) for integer string conversion: value has " ++
    Text.natText count ++ " digits; use sys.set_int_max_str_digits() to increase the limit"

def jsonText : Json.ReadError → String
  | .malformed problem place => problem.text ++ ": " ++ place.text
  | .tooManyDigits count => digitsText count

def misuseText (use : Misuse) (kind : ValueKind) : String :=
  match use with
  | .path => "expected str, bytes or os.PathLike object, not " ++ kind.label
  | .join index =>
    "sequence item " ++ Text.natText index ++ ": expected str instance, " ++ kind.label ++ " found"
  | .slice => "slice indices must be integers or None or have an __index__ method"
  | .integer =>
    "int() argument must be a string, a bytes-like object or a real number, not '" ++ kind.label ++
      "'"
  | .moment => "strptime() argument 1 must be str, not " ++ kind.label

/-- The paths that follow the code and the text of a system fault: the first one, and the third one as
where that one would have led. -/
def pathsText : List Json → String
  | [] | .null :: _ => ""
  | [path] | [path, _] | [path, _, .null] => ": " ++ path.shown
  | path :: _ :: target :: _ => ": " ++ path.shown ++ " -> " ++ target.shown

/-- The message of a fault from outside: its one argument, or all of them in parentheses; a missing
key in quotes, and a system fault with its code. -/
def foreignText (kind : FaultKind) (args : List Json) : String :=
  match args with
  | [] => ""
  | [v] => if kind == .key then v.shown else v.display
  | code :: text :: paths =>
    if kind.isA .system && paths.length ≤ 3 then
      s!"[Errno {code.display}] {text.display}" ++ pathsText paths
    else Json.shownTuple args

def schemaHeading (model : String) (issues : List SchemaIssue) : String :=
  Text.natText issues.length ++ " validation error" ++ (if issues.length = 1 then "" else "s") ++
    " for " ++ model

def schemaText (model : String) (issues : List SchemaIssue) : String :=
  String.intercalate "\n" (schemaHeading model issues ::
    issues.map fun i => String.intercalate "." (i.location.map Step.text) ++ " [type=" ++ i.rule ++ "]")

def message : Fault → String
  | noMember kind member => "'" ++ kind.label ++ "' object has no attribute '" ++ member ++ "'"
  | notIterable kind => "'" ++ kind.label ++ "' object is not iterable"
  | notHashable kind => "unhashable type: '" ++ kind.label ++ "'"
  | misused use kind => misuseText use kind
  | integerText text =>
    "invalid literal for int() with base 10: " ++ Text.firstChars 200 (Text.quoted text)
  | integerDigits count => digitsText count
  | integerTooLong =>
    "Exceeds the limit (4300 digits) for integer string conversion; " ++
      "use sys.set_int_max_str_digits() to increase the limit"
  | infiniteInteger => "cannot convert float infinity to integer"
  | undefinedInteger => "cannot convert float NaN to integer"
  | divisionTooLarge => "integer division result too large for a float"
  | pairSize index size =>
    "dictionary update sequence element #" ++ Text.natText index ++ " has length " ++
      Text.natText size ++ "; 2 is required"
  | pairKind index =>
    "cannot convert dictionary update sequence element #" ++ Text.natText index ++ " to a sequence"
  | moment e => e.message
  | span e => e.message
  | json e => jsonText e
  | encoding e => e.message
  | refused r path => s!"[Errno {r.code}] {r.text}: {Text.quoted path}"
  | nullByte => "embedded null byte"
  | emptyName path => "PosixPath(" ++ Text.quoted path ++ ") has an empty name"
  | invalidName name => "Invalid name " ++ Text.quoted name
  | linkLoop path => "Symlink loop from " ++ Text.quoted path
  | silentFailure => "A failed result needs an error message"
  | notDiagnostics => "expected a JSON array of diagnostics"
  | toolNotFound name => "Tool not found: " ++ name
  | toolUnavailable name => "Tool not available: " ++ name
  | noTools => "At least one tool name must be specified"
  | unknownTool name => "Tool not found: " ++ name
  | nullTool => "Cannot register null tool"
  | namelessTool => "Tool must have a non-empty name"
  | emptyToolName => "Tool name cannot be empty"
  | notAFactory name => "Tool factory for '" ++ name ++ "' must be callable"
  | configType tool expected got =>
    s!"Invalid configuration type for {tool}: expected {expected}, got {got}"
  | configMissing tool => "Tool is not configured: " ++ tool
  | store text => text
  | schema model issues => schemaText model issues
  | timeout command seconds =>
    "Command '" ++ (Json.arr command).shown ++ "' timed out after " ++ seconds.display ++ " seconds"
  | noWorkers => "max_workers must be greater than 0"
  | format text => text
  | formatValue text => text
  | loggingLevel text => "Unknown level: " ++ Text.quoted text
  | foreign kind args => foreignText kind args

/-- A fault from outside, by the label of its kind. -/
def ofLabel (label : String) (args : List Json) : Fault :=
  match FaultKind.ofLabel label, args with
  | .toolNotFound, [name] => toolNotFound name.display
  | .toolUnavailable, [name] => toolUnavailable name.display
  | .configMissing, [name] => configMissing name.display
  | kind, args => foreign kind args

/-- Whether the fault is of one of these kinds. -/
def isOneOf (kinds : List FaultKind) (f : Fault) : Bool :=
  kinds.any f.kind.isA

/-- The fault as the log shows it: kind and message, or the kind alone. -/
def trace (f : Fault) : String :=
  let name := f.kind.home ++ f.kind.label
  if f.message.isEmpty then name else name ++ ": " ++ f.message

end Fault

end LintHub
