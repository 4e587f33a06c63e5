import LintHub.Http.Body
import LintHub.Http.Endpoint
import LintHub.Hub.Batch
import LintHub.Report.Comparison
import LintHub.Report.Statistics
import LintHub.Store

/-! # The service

A hub that is asked over HTTP. Batches can be run as jobs in the background; the outcome of a job is
kept until it has been handed out once.
-/

namespace LintHub.Http

structure Job where
  /-- The last progress of each tool. -/
  progress : List (String × Progress)
  /-- How the job ended, once it has. -/
  outcome : Option (Except Fault (List Analysis))
  deriving Repr

def Job.new : Job := ⟨[], none⟩

structure Service where
  hub : Hub
  jobs : List (String × Job)
  /-- How many jobs have been started. -/
  started : Nat
  /-- Jobs that are not in the table any more; who found one before still holds it. -/
  gone : List (String × Job)
  deriving Repr

namespace Service

def new (h : Hub) : Service := ⟨h, [], 0, []⟩

def hubView : View Service Hub :=
  ⟨fun s => s.hub, fun s hub => { s with hub }⟩

def inHub {α : Type} (m : Act Hub α) : Act Service α :=
  hubView.act m

def inWorld {α : Type} (m : Act World α) : Act Service α :=
  inHub (Hub.inWorld m)

/-! ## Jobs -/

def job? (s : Service) (id : String) : Option Job :=
  s.jobs.lookup id

/-- A job as those see it who have found it, whether it is still in the table or not. -/
def held? (s : Service) (id : String) : Option Job :=
  (s.jobs.lookup id).or (s.gone.lookup id)

def changeJob (f : Job → Job) (id : String) : List (String × Job) → List (String × Job)
  | [] => []
  | (i, j) :: rest => if i = id then (i, f j) :: rest else (i, j) :: changeJob f id rest

def noteProgress (id tool : String) (p : Progress) : Act Service Unit :=
  modify fun s =>
    { s with
      jobs := changeJob (fun j => { j with progress := setNamed j.progress tool p }) id s.jobs }

def finishJob (id : String) (outcome : Except Fault (List Analysis)) : Act Service Unit :=
  modify fun s =>
    { s with jobs := changeJob (fun j => { j with outcome := some outcome }) id s.jobs }

def dropJob (id : String) : Act Service Unit :=
  modify fun s =>
    { s with
      jobs := s.jobs.filter fun p => p.1 ≠ id
      gone := (s.jobs.filter fun p => p.1 = id) ++ s.gone }

/-- The names of jobs are their numbers in hexadecimal. -/
def jobName (n : Nat) : String :=
  Text.hexText 32 n

/-- What is done when the batch of a job has ended: its results are saved if that was asked for and
there are any. -/
def completeJob (id : String) (order : BatchOrder) (as : List Analysis) : Act Service Unit := do
  inWorld (report ⟨.info, .routes, s!"Job finished with {Text.natText as.length} results", none,
    some id, none⟩)
  match order.saveTo with
  | none => return ()
  | some path =>
    if path.isEmpty || as.isEmpty then return ()
    else
      match ← (inWorld (Store.saveAll as path)).attempt with
      | .ok _ => return ()
      | .error f =>
        if f.isOneOf [.store] then
          inWorld (report ⟨.error, .routes, "Could not save job results", none, some id, some f⟩)
        else throw f

/-- The work of a job. -/
def jobRoutine {σ : Type} (v : View σ Service) (id : String) (order : BatchOrder) :
    Routine σ Unit := do
  let batch := Hub.task (v.trans hubView) order.tools order.request
    (some fun tool p => v.work (noteProgress id tool p))
    (some fun as => v.work (completeJob id order as))
  let outcome ← batch.run
  discard (v.work (finishJob id outcome)).run

/-- Starts a job: its name, and the work that is left to be done. -/
def startJob {σ : Type} (v : View σ Service) (order : BatchOrder) :
    Act Service (String × Routine σ Unit) := do
  let id := jobName ((← get).started + 1)
  modify fun s => { s with started := s.started + 1 }
  inHub Hub.submit
  modify fun s => { s with jobs := s.jobs ++ [(id, .new)] }
  return (id, jobRoutine v id order)

/-! ## Documents of replies -/

def progressJson (p : Progress) : Json :=
  .obj
    [ ("total_files", .int p.total), ("processed_files", .int p.processed),
      ("current_file", .str p.currentFile), ("status_message", .str p.status) ]

def jobJson (id status : String) (progress : List (String × Progress)) (results error : Json) :
    Json :=
  .obj
    [ ("job_id", .str id), ("status", .str status),
      ("progress", .obj (progress.map fun p => (p.1, progressJson p.2))), ("results", results),
      ("error", error) ]

def validationJson (v : Validation) : Json :=
  .obj
    [ ("is_valid", .bool v.isValid), ("errors", Config.texts v.errors),
      ("warnings", Config.texts v.warnings) ]

def analysesJson (as : List Analysis) : Except Fault Json := do
  return .arr (← as.mapM Analysis.toJson)

/-! ## Answers -/

/-- A reply, or the fault that no reply is made for. -/
abbrev Answer := Act Service Reply

/-- Turns faults of some kinds into a refusal. -/
def refusing (status : Nat) (kinds : List FaultKind) (m : Act Service Reply) : Answer := do
  match ← m.attempt with
  | .ok r => return r
  | .error f => if f.isOneOf kinds then return .refusal status f.message else throw f

def toolJson (name : String) (i : ToolId) : Act Hub Json := do
  let available ← Hub.isAvailable i
  let version ← Hub.versionOf i
  let t ← Hub.toolAt i
  let path ← Hub.pathOf i
  return .obj
    [ ("name", .str name), ("available", .bool available), ("version", .str version),
      ("description", .str t.description), ("supported_extensions", Config.texts t.extensions),
      ("executable_path", .str path) ]

def listTools : Answer := do
  let docs ← inHub do
    (← get).names.mapM fun (name, i) => toolJson name i
  return .document (.arr docs)

def listAvailable : Answer := do
  return .document (Config.texts (← inHub Hub.available))

/-- The document of a configuration; a value that is none has no document. -/
def offerJson : Option Offer → Except Fault Json
  | none => .ok .null
  | some (.config c) => .ok c.toJson
  | some (.value v) => .error (.noMember v.kind "model_dump")

def getConfig (tool : String) : Answer := do
  match ← (inHub (Hub.configuration tool)).attempt with
  | .ok o => return .document (← (offerJson o : Except Fault Json))
  | .error f => if f.isOneOf [.toolNotFound] then return .refusal 404 f.message else throw f

/-- The tool of a name, or the reply that there is none. -/
def withTool (name : String) (f : ToolId → Answer) : Answer := do
  match (← get).hub.idOf? name with
  | some i => f i
  | none => return .refusal 404 (Fault.toolNotFound name).message

def putConfig (tool : String) (fields : Fields) : Answer :=
  withTool tool fun i => do
    let t ← inHub (Hub.toolAt i)
    let settings := (← get).hub.world.settings
    let doc := fields.foldl (fun d p => setNamed d p.1 p.2) [("tool_name", .str tool)]
    match Config.ofJson settings t.configKind (.obj doc) with
    | .error (.schema model issues) => return .unfitConfig model issues
    | .error f => throw f
    | .ok c =>
      match ← (inHub (Hub.configure tool (.config c))).attempt with
      | .ok () => return .document (validationJson (← inHub (Hub.validateAt i)))
      | .error f => if f.isOneOf [.configType] then return .refusal 400 f.message else throw f

def validate (tool : String) : Answer :=
  refusing 404 [.toolNotFound] do
    return .document (validationJson (← inHub (Hub.validate tool)))

def command (tool : String) (r : Request) : Answer :=
  withTool tool fun i =>
    refusing 400 [.configMissing] do
      return .document (.arr (← inHub (Hub.commandLine i r)))

def cancel : Answer := do
  return .document (.obj [("cancelled", .bool (← inHub Hub.cancel))])

/-- The analyses of documents that come with a request. -/
def analysesOf (docs : List Json) : Act Service (List Analysis) := do
  let now := (← get).hub.world.stamp.time
  (Store.ofDocuments now Store.requestSource docs : Except Fault (List Analysis))

/-- Answers a request that brings documents; one that describes no analysis is refused. -/
def withAnalyses (docs : List Json) (f : List Analysis → Answer) : Answer := do
  match ← (analysesOf docs).attempt with
  | .ok as => f as
  | .error e => if e.isOneOf [.store] then return .refusal 400 e.message else throw e

def aggregate (docs : List Json) : Answer :=
  withAnalyses docs fun as => do
    let stamp := (← get).hub.world.stamp
    let merged ← (LintHub.aggregate stamp as : Except Fault Analysis)
    return .document (← (merged.toJson : Except Fault Json))

def statistics (docs : List Json) (limit : Int) : Answer :=
  withAnalyses docs fun as => do
    let s ← (LintHub.statistics as (.int limit) : Except Fault Statistics)
    return .document s.toJson

def compare (baseline current : List Json) : Answer :=
  withAnalyses baseline fun before =>
    withAnalyses current fun after => do
      let stamp := (← get).hub.world.stamp
      let c ← (LintHub.compare stamp before after : Except Fault Comparison)
      return .document c.toJson

/-- Tells of a job at once. One that has ended is dropped when its outcome has been told. -/
def getJob (id : String) : Answer := do
  match (← get).job? id with
  | none => return .refusal 404 "Job not found"
  | some j =>
    match j.outcome with
    | none => return .document (jobJson id "running" j.progress .null .null)
    | some (.error f) =>
      dropJob id
      return .document (jobJson id "failed" j.progress .null (.str f.message))
    | some (.ok as) =>
      let results ← (analysesJson as : Except Fault Json)
      dropJob id
      return .document (jobJson id "done" j.progress results .null)

/-- Goes on to tell of a job whose progress has been copied. Only now it is seen whether it has ended. -/
def tellJob {σ : Type} (v : View σ Service) (id : String) (progress : List (String × Progress)) :
    Work σ Reply := do
  match ← v.work do return (← get).held? id >>= Job.outcome with
  | none => return .document (jobJson id "running" progress .null .null)
  | some (.error f) =>
    v.work (dropJob id)
    return .document (jobJson id "failed" progress .null (.str f.message))
  | some (.ok as) =>
    let results ← Work.ofExcept (analysesJson as)
    v.work (dropJob id)
    return .document (jobJson id "done" progress results .null)

/-- Tells of a job section by section: it is looked for, its progress is copied, it is told of. The
job may go on in between. -/
def pollJob {σ : Type} (v : View σ Service) (id : String) : Work σ Reply := do
  match ← v.work do return (← get).job? id with
  | none => return .refusal 404 "Job not found"
  | some j =>
    let progress ← v.work do return (((← get).held? id).getD j).progress
    tellJob v id progress

/-- Saves the results of a batch if that was asked for. -/
def saveResults (order : BatchOrder) (as : List Analysis) : Act Service Unit := do
  match order.saveTo with
  | none => return ()
  | some path => if path.isEmpty then return () else discard (inWorld (Store.saveAll as path))

/-- Tells of a batch that has ended. -/
def batchJson (as : List Analysis) : Act Service Json := do
  let stamp := (← get).hub.world.stamp
  let limit := (← get).hub.world.settings.topFilesLimit
  let results ← (analysesJson as : Except Fault Json)
  let merged ← (LintHub.aggregate stamp as : Except Fault Analysis)
  let aggregated ← (merged.toJson : Except Fault Json)
  let s ← (LintHub.statistics as (.int limit) : Except Fault Statistics)
  return .obj [("results", results), ("aggregated", aggregated), ("statistics", s.toJson)]

/-- Saves the results of a batch and tells of them. -/
def tellBatch (order : BatchOrder) (as : List Analysis) : Answer := do
  match ← (saveResults order as).attempt with
  | .ok () => return .document (← batchJson as)
  | .error f => if f.isOneOf [.store] then return .refusal 500 f.message else throw f

def healthJson : Json :=
  .obj [("status", .str "healthy"), ("version", .str "0.1.0")]

/-! ## Requests -/

variable {σ : Type} (v : View σ Service)

/-- Runs a batch and waits for it. -/
def analyse (order : BatchOrder) : Work σ Reply := do
  match ← (Hub.runBatch (v.trans hubView) order.tools order.request).attempt with
  | .ok as => v.work (tellBatch order as)
  | .error f => if f.isOneOf [.invalidArgument] then return .refusal 400 f.message else throw f

/-- A reply, and work that goes on in the background. -/
structure Served (σ : Type) where
  reply : Reply
  background : Option (Routine σ Unit)

/-- Goes on with what a request brings if it is of the form that is asked for. -/
def given {α : Type} (e : Except Reply α) (f : α → Work σ (Served σ)) : Work σ (Served σ) :=
  match e with
  | .ok a => f a
  | .error r => return ⟨r, none⟩

/-- Answers at once. -/
def atOnce (m : Answer) : Work σ (Served σ) := do
  return ⟨← v.work m, none⟩

/-- Answers a request to an endpoint. -/
def serveAt (e : Endpoint) (a : Address) (body : Option String) : Work σ (Served σ) :=
  match e with
  | .listTools => atOnce v listTools
  | .listAvailable => atOnce v listAvailable
  | .getConfig tool => atOnce v (getConfig tool)
  | .putConfig tool =>
    given (readBody Schema.fields body) fun fields => atOnce v (putConfig tool fields)
  | .validate tool => atOnce v (validate tool)
  | .command tool => given (readBody checkRequest body) fun r => atOnce v (command tool r)
  | .analyse =>
    given (readBody checkOrder body) fun order => do
      return ⟨← analyse v order, none⟩
  | .startJob =>
    given (readBody checkOrder body) fun order => do
      let (id, routine) ← v.work (startJob v order)
      return ⟨.document (jobJson id "running" [] .null .null), some routine⟩
  | .getJob id => do
    return ⟨← pollJob v id, none⟩
  | .cancel => atOnce v cancel
  | .aggregate => given (readBody checkResults body) fun docs => atOnce v (aggregate docs)
  | .statistics =>
    let both (doc : Json) : Checked (Int × List Json) :=
      Checked.both ((checkInteger a "top_n" 10).map Prod.mk) (checkBody checkResults doc)
    given (do fitting (both (← bodyValue body))) fun (limit, docs) =>
      atOnce v (statistics docs limit)
  | .compare => given (readBody checkSides body) fun (before, after) => atOnce v (compare before after)
  | .health => atOnce v (return .document healthJson)

/-- Answers a request. -/
def serve (r : HttpRequest) : Work σ (Served σ) :=
  let a := Address.ofText r.target
  match Endpoint.ofPath a.path with
  | [] => return ⟨.refusal 404 "Not Found", none⟩
  | endpoints =>
    match endpoints.lookup r.method with
    | some e => do
      let served ← serveAt v e a r.body
      return { served with reply := ← Work.ofExcept served.reply.sent }
    | none => return ⟨.refusal 405 "Method Not Allowed", none⟩

end Service

end LintHub.Http
