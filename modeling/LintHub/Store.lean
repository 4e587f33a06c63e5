import LintHub.World
import LintHub.Json.Writer

/-! # The result store

Analyses are kept as documents in files: one object for one analysis, a list for several. Whatever is
wrong with a file or a document is a store fault, unless the text of the file itself cannot be read.
-/

namespace LintHub.Store

/-- Faults of a document that are turned into a store fault. -/
def documentFaults : List FaultKind := [.value, .type, .member, .key]

/-- The analysis that entry `index` of `source` describes. -/
def ofDocument (now : Time.Moment) (source : String) (index : Nat) (doc : Json) :
    Except Fault Analysis :=
  let refuse (text : String) : Fault :=
    .store s!"Invalid result document {source}: entry {Text.natText index}{text}"
  match doc with
  | .obj _ =>
    match Analysis.ofJson now doc with
    | .ok a => .ok a
    | .error f => if f.isOneOf documentFaults then .error (refuse (": " ++ f.message)) else .error f
  | _ => .error (refuse " is not an object")

/-- The analyses that entries of `source` describe, the first of which has an index. -/
def ofDocumentsFrom (now : Time.Moment) (source : String) (index : Nat) :
    List Json → Except Fault (List Analysis)
  | [] => .ok []
  | doc :: docs => do
    let a ← ofDocument now source index doc
    let rest ← ofDocumentsFrom now source (index + 1) docs
    return a :: rest

def ofDocuments (now : Time.Moment) (source : String) (docs : List Json) :
    Except Fault (List Analysis) :=
  ofDocumentsFrom now source 0 docs

/-- The source of documents that come with a request. -/
def requestSource : String := "request"

/-! ## Reading -/

/-- The text of a file, every line end a newline. -/
def textOf (content : Except Fault (List UInt8)) : Except Fault String := do
  let s ← (Text.decodeUtf8 (← content)).mapError .encoding
  return String.ofList (Text.unifyNewlines s.toList)

/-- The document in a file: an object or a list. -/
def documentOf (path : String) (content : Except Fault (List UInt8)) : Except Fault Json :=
  let p := (Path.ofText path).text
  match textOf content with
  | .error f =>
    if f.isOneOf [.system] then
      .error (.store s!"Cannot open file for reading: {p}: {f.message}")
    else .error f
  | .ok text =>
    match Json.read text with
    | .error e =>
      let f := Fault.json e
      if f.isOneOf [.json] then .error (.store s!"Invalid result document {p}: {f.message}")
      else .error f
    | .ok (.arr items) => .ok (.arr items)
    | .ok (.obj fields) => .ok (.obj fields)
    | .ok _ => .error (.store s!"Invalid result document {p}: expected an object or array")

/-- The analyses in a file. -/
def analysesOf (now : Time.Moment) (path : String) (content : Except Fault (List UInt8)) :
    Except Fault (List Analysis) := do
  match ← documentOf path content with
  | .arr items => ofDocuments now path items
  | doc => ofDocuments now path [doc]

/-- The only analysis in a file. -/
def analysisOf (now : Time.Moment) (path : String) (content : Except Fault (List UInt8)) :
    Except Fault Analysis := do
  match ← documentOf path content with
  | .arr [doc] => ofDocument now path 0 doc
  | .arr docs =>
    throw (.store s!"Expected a single result in {path}, found {Text.natText docs.length}")
  | doc => ofDocument now path 0 doc

def loadAll (path : String) : Act World (List Analysis) := do
  let w ← get
  analysesOf w.stamp.time path (w.disk.readBytes (Path.ofText path))

def load (path : String) : Act World Analysis := do
  let w ← get
  analysisOf w.stamp.time path (w.disk.readBytes (Path.ofText path))

/-! ## Writing -/

/-- The text of a document as it stands in a file. -/
def fileText (doc : Json) : Except Fault String :=
  if doc.integersFit then .ok (doc.writeIndented 0) else .error .integerTooLong

/-- Writes a document to a file and makes the directories that lead to it. Directories stay even if
the file cannot be written. -/
def writeFile (p : Path) (doc : Json) : Act World Unit := do
  let w ← get
  let disk ← (w.disk.makeDirectories p.parent : Except Fault Disk)
  set { w with disk }
  let text ← (fileText doc : Except Fault String)
  let disk ← (disk.writeText p text : Except Fault Disk)
  set { w with disk }

/-- Writes a document to a file; the path that was written is the answer. -/
def save (path : String) (doc : Json) : Act World Path := do
  let p := Path.ofText path
  tryCatch (writeFile p doc) fun f =>
    throw <|
      if f.isOneOf [.system] then .store s!"Cannot open file for writing: {p.text}: {f.message}"
      else f
  note .info .store ("Saved results to " ++ p.text) none
  return p

def saveOne (a : Analysis) (path : String) : Act World Path := do
  save path (← a.toJson)

def saveAll (as : List Analysis) (path : String) : Act World Path := do
  save path (.arr (← as.mapM fun a => a.toJson))

end LintHub.Store
