import LintHub.Proofs.Batch.Background
import LintHub.Proofs.Http.Answers
import LintHub.Proofs.Http.Jobs
import LintHub.Proofs.Store.RoundTrip

/-! # Reports that are saved

A batch whose results are to be saved is waited for, or it goes on as a job. Either way the same is
saved, save for a batch that comes to no analysis at all: who waits has an empty report written, and
a job leaves the report that was there before.
-/

namespace LintHub

/-! ## The end of a batch in the background -/

namespace Hub

variable {σ : Type} {v : View σ Hub} {listener : Option (BatchListener σ)}

/-- The state in which the end of a batch is told: a fault has been reported by then. -/
def faultNoted (v : View σ Hub) (e : Except Fault (List Analysis)) (s : σ) : σ :=
  match e with
  | .ok _ => s
  | .error f =>
    ((v.work (inWorld (report
      ⟨.error, .orchestrator, "Batch analysis failed", none, none, some f⟩))).outcome s).2

/-- What a batch in the background leaves is what telling of its end leaves: of its analyses, or of
none if it failed. -/
theorem left_by_task {names : List String} {r : Request} {s s' : σ}
    {e : Except Fault (List Analysis)} (completion : List Analysis → Work σ Unit)
    (body : (do
      v.work (checkNames names)
      executeBatch v names r listener : Work σ (List Analysis)).outcome s = (e, s')) :
    ((task v names r listener (some completion)).outcome s).2 =
      ((completion (e.toOption.getD [])).outcome (faultNoted v e s')).2 := by
  unfold task
  rw [Work.outcome_bind_ok (Work.outcome_attempt _ s), body]
  cases e with
  | ok as =>
    dsimp only
    rw [Work.outcome_bind]
    show _ = ((completion as).outcome s').2
    rcases (completion as).outcome s' with ⟨f | u, t⟩ <;> rfl
  | error fault =>
    dsimp only
    rw [Work.outcome_bind_ok (show (v.work _).outcome s' = (.ok (), faultNoted v (.error fault) s')
      from rfl), Work.outcome_bind]
    show _ = ((completion []).outcome (faultNoted v (.error fault) s')).2
    rcases (completion []).outcome (faultNoted v (.error fault) s') with ⟨f | u, t⟩ <;> rfl

end Hub

namespace Http.Service

/-- The files of a service. -/
def files (s : Service) : Disk :=
  s.hub.world.disk

/-! ## Bodies -/

/-- A document that was written over several lines is read from a body. -/
theorem bodyValue_written {v : Json} (plain : v.Plain) : bodyValue (some (v.writeIndented 0)) = .ok v := by
  obtain ⟨c, cs, text, printed, -⟩ := (Json.spells_indented 0 v plain).head
  have mark : c ≠ Char.ofNat 0xfeff := by
    rintro rfl
    exact absurd printed.2 (by decide)
  have all : String.ofList (c :: cs) = v.writeIndented 0 := by rw [← text, String.ofList_toList]
  unfold bodyValue
  rw [Option.getD_some, text]
  dsimp only
  rw [if_neg (by simp), if_neg (by simpa using mark), all, Json.read_writeIndented plain]

/-! ## Saving -/

variable {o : BatchOrder} {path : String}

theorem files_inWorld_report (e : LogEvent) (s : Service) :
    ((inWorld (report e)).outcome s).2.files = s.files := rfl

theorem files_inWorld_saveAll (as : List Analysis) (path : String) (s : Service) :
    ((inWorld (Store.saveAll as path)).outcome s).2.files = Store.filesSaved as path s.files :=
  Store.disk_saveAll as path s.hub.world

/-- What is done about the outcome of saving does not matter to the files. -/
theorem files_afterSaving {α : Type} (as : List Analysis) (path : String) {s : Service}
    (k : Except Fault Path → Act Service α) (idle : ∀ e t, ((k e).outcome t).2.files = t.files) :
    (((inWorld (Store.saveAll as path)).attempt >>= k).outcome s).2.files =
      Store.filesSaved as path s.files := by
  rw [Act.outcome_bind_ok (Act.outcome_attempt _ s), idle]
  exact files_inWorld_saveAll as path s

/-- The end of a job: analyses are saved unless there are none. -/
theorem files_completeJob (saves : o.saveTo = some path) (named : path ≠ "") (id : String)
    (as : List Analysis) (s : Service) :
    ((completeJob id o as).outcome s).2.files =
      if as = [] then s.files else Store.filesSaved as path s.files := by
  unfold completeJob
  rw [Act.outcome_bind_ok (show (inWorld _).outcome s = (.ok (), _) from rfl), saves]
  have written : path.isEmpty = false := by
    rwa [Bool.eq_false_iff, ne_eq, String.isEmpty_iff]
  cases as with
  | nil =>
    have nothing : (path.isEmpty || ([] : List Analysis).isEmpty) = true := Bool.or_true _
    dsimp only
    rw [if_pos nothing, if_pos rfl]
    rfl
  | cons a as =>
    have several : (path.isEmpty || (a :: as).isEmpty) = false := by
      rw [written]
      rfl
    dsimp only
    rw [if_neg (ne_true_of_eq_false several), if_neg (List.cons_ne_nil a as)]
    refine (files_afterSaving (a :: as) path _ ?_).trans (congrArg _ (files_inWorld_report _ s))
    rintro (f | p) t
    · dsimp only
      split <;> rfl
    · rfl

/-- Telling of a batch that was waited for changes nothing. -/
theorem batchJson_idle (as : List Analysis) : Act.Within (fun s t : Service => t = s) (batchJson as) := by
  have trans (s t u : Service) (h : t = s) (h' : u = t) : u = s := h'.trans h
  unfold batchJson
  refine .bind (fun s => rfl) (fun _ => .bind (fun s => rfl) (fun _ => ?_) trans) trans
  refine .bind (fun s => rfl) (fun _ => .bind (fun s => rfl) (fun _ => ?_) trans) trans
  exact .bind (fun s => rfl) (fun _ => .bind (fun s => rfl) (fun _ => fun s => rfl) trans) trans

theorem files_tellBatch (saves : o.saveTo = some path) (named : path ≠ "") (as : List Analysis)
    (s : Service) :
    ((tellBatch o as).outcome s).2.files = Store.filesSaved as path s.files := by
  have written : path.isEmpty = false := by
    rwa [Bool.eq_false_iff, ne_eq, String.isEmpty_iff]
  have saved : ((saveResults o as).outcome s).2.files = Store.filesSaved as path s.files := by
    unfold saveResults
    rw [saves]
    dsimp only
    rw [if_neg (by rw [written]; exact Bool.false_ne_true)]
    show ((((fun _ => ()) <$> inWorld (Store.saveAll as path) : Act Service Unit)).outcome s).2.files = _
    rw [Act.outcome_map]
    exact files_inWorld_saveAll as path s
  unfold tellBatch
  rw [Act.outcome_bind_ok (Act.outcome_attempt _ s), ← saved]
  generalize (saveResults o as).outcome s = came
  obtain ⟨f | u, t⟩ := came
  · dsimp only
    split <;> rfl
  · dsimp only
    rw [Act.outcome_bind]
    have idle := batchJson_idle as t
    generalize (batchJson as).outcome t = told at idle
    obtain ⟨f | doc, t'⟩ := told
    · exact congrArg files idle
    · exact congrArg files idle

/-! ## Requests for batches -/

/-- The files after a request was served and what goes on behind it has ended. -/
def filesAfter (s : Service) (r : HttpRequest) : Disk :=
  match (serve View.whole r).outcome s with
  | (.ok ⟨_, some routine⟩, t) => (routine.run t).2.files
  | (_, t) => t.files

/-- The files that are left when a batch that came to something has been waited for. -/
def filesWaited (path : String) (left : Disk) : Except Fault (List Analysis) → Disk
  | .ok as => Store.filesSaved as path left
  | .error _ => left

/-- The files that are left when a batch that came to something was a job. -/
def filesOfJob (path : String) (left : Disk) : Except Fault (List Analysis) → Disk
  | .ok (a :: as) => Store.filesSaved (a :: as) path left
  | .ok [] => left
  | .error _ => left

/-- The batch of an order, waited for. -/
def ordered (o : BatchOrder) : Work Service (List Analysis) :=
  Hub.runBatch hubOf o.tools o.request

theorem files_analyse (saves : o.saveTo = some path) (named : path ≠ "") {s t : Service}
    {e : Except Fault (List Analysis)} (came : (ordered o).outcome s = (e, t)) :
    ((analyse View.whole o).outcome s).2.files = filesWaited path t.files e := by
  unfold analyse
  rw [Work.outcome_bind_ok (Work.outcome_attempt _ s), show (Hub.runBatch _ _ _).outcome s = _ from came]
  cases e with
  | ok as => exact files_tellBatch saves named as t
  | error f =>
    dsimp only
    split <;> rfl

/-- The service after it took on a job. -/
def tookOn (s : Service) : Service :=
  { s with
    hub := { s.hub with cancelled := false }
    jobs := s.jobs ++ [(jobName (s.started + 1), .new)]
    started := s.started + 1 }

theorem outcome_startJob_of_workers (o : BatchOrder) {s : Service} (workers : 0 < s.hub.workers) :
    (startJob View.whole o).outcome s =
      (.ok (jobName (s.started + 1), jobRoutine View.whole (jobName (s.started + 1)) o), tookOn s) := by
  unfold startJob
  have submitted : (inHub Hub.submit).outcome { s with started := s.started + 1 } =
      (.ok (), { s with started := s.started + 1, hub := { s.hub with cancelled := false } }) := by
    unfold inHub
    rw [Act.outcome_view, Hub.outcome_submit,
      if_pos (show 0 < (hubView.get { s with started := s.started + 1 }).workers from workers)]
    rfl
  rw [Act.outcome_bind_ok (Act.outcome_get s), Act.outcome_bind_ok (Act.outcome_modify _ s),
    Act.outcome_bind_ok submitted]
  rfl

/-- A job does nothing to the files but what its batch does. -/
theorem files_jobRoutine (id : String) (o : BatchOrder) (s : Service) :
    ((jobRoutine View.whole id o).run s).2.files = ((batch id o).outcome s).2.files := by
  show (Routine.run (Routine.bind (batch id o).run _) s).2.files = _
  rw [Routine.run_bind]
  rfl

/-- The batch of a job comes to what it comes to if it is waited for, and it starts in a hub that has
forgotten earlier cancels. -/
theorem files_batch (saves : o.saveTo = some path) (named : path ≠ "") (id : String) {s t : Service}
    {e : Except Fault (List Analysis)} (came : (ordered o).outcome s = (e, t)) :
    ((batch id o).outcome (tookOn s)).2.files = filesOfJob path t.files e := by
  have get_set (s : Service) (h : Hub) : hubOf.get (hubOf.set s h) = h := rfl
  have quiet : ∀ f, (some fun tool p => View.whole.work (noteProgress id tool p)) =
      some (f : Hub.BatchListener Service) →
      ∀ name p, Work.Agrees hubOf (f name p) (pure ()) := by
    rintro f ⟨⟩ name p s t same
    exact ⟨rfl, same⟩
  -- the table of jobs and their number are nothing that a batch looks at
  let s₁ : Service := { tookOn s with hub := s.hub }
  obtain ⟨e', s', body, same, world, -⟩ :=
    Hub.body_alike get_set quiet o.tools o.request s₁
  obtain ⟨answer, left⟩ := Hub.runBatch_agrees (.refl get_set) o.tools o.request s₁ s rfl
  rw [show (Hub.runBatch hubOf o.tools o.request).outcome s = (e, t) from came] at answer left
  have ended : e' = e := same.trans answer
  have disk : s'.files = t.files := by
    show (hubOf.get s').world.disk = _
    rw [world, left]
    rfl
  subst ended
  have told : ((batch id o).outcome (tookOn s)).2 =
      ((completeJob id o (e'.toOption.getD [])).outcome (Hub.faultNoted hubOf e' s')).2 :=
    Hub.left_by_task _ body
  rw [told, files_completeJob saves named, ← disk]
  rcases e' with f | _ | ⟨a, as⟩ <;> rfl

/-! ## Both ways -/

/-- The files after a batch that was waited for and after one that was a job, by what the batch came to
and left. -/
structure SaveLaw (path : String) (e : Except Fault (List Analysis)) (left waited job : Disk) :
    Prop where
  /-- A batch that fails has nothing saved. -/
  failed : ∀ f, e = .error f → waited = left ∧ job = left
  saved : ∀ as, e = .ok as → as ≠ [] → waited = Store.filesSaved as path left ∧ job = waited
  /-- Of a batch without analyses an empty report is saved if it was waited for, else nothing. -/
  nothing : e = .ok [] → waited = Store.filesSaved [] path left ∧ job = left ∧
    (left.Writable (Path.ofText path) →
      waited.readBytes (Path.ofText path) = .ok (Text.encodeUtf8 "[]"))

theorem readBytes_filesSaved_nil {d : Disk} (writable : d.Writable (Path.ofText path)) :
    (Store.filesSaved [] path d).readBytes (Path.ofText path) = .ok (Text.encodeUtf8 "[]") := by
  let w : World := { World.bare .default with disk := d }
  obtain ⟨w', saved, bytes⟩ : ∃ w', (Store.save path (.arr [])).outcome w = (.ok (.ofText path), w') ∧ _ :=
    Store.save_plain writable trivial
  have all : (Store.saveAll [] path).outcome w = (Store.save path (.arr [])).outcome w := rfl
  rw [show d = w.disk from rfl, ← Store.disk_saveAll, all, saved, bytes]
  rfl

/-- What a request for a batch to be waited for leaves, by what the batch comes to. -/
theorem filesAfter_analyse {s t : Service} {r : HttpRequest} {e : Except Fault (List Analysis)}
    (waits : Asks r .analyse) (given : readBody checkOrder r.body = .ok o)
    (saves : o.saveTo = some path) (named : path ≠ "") (came : (ordered o).outcome s = (e, t)) :
    filesAfter s r = filesWaited path t.files e := by
  rw [← files_analyse saves named came]
  unfold filesAfter
  rw [outcome_serve_asks waits]
  unfold serveAt Service.given
  dsimp only
  rw [given]
  dsimp only
  rw [Work.outcome_bind]
  rcases (analyse View.whole o).outcome s with ⟨f | reply, t'⟩
  · rfl
  · dsimp only [Work.outcome_pure, Prod.map]
    show (match (reply.sent.map fun reply => (⟨reply, none⟩ : Served Service), t') with
      | (.ok ⟨_, some routine⟩, t) => (routine.run t).2.files
      | (_, t) => t.files) = t'.files
    cases reply.sent <;> rfl

/-- What a request for a job leaves once the job has ended, by what the batch comes to if it is waited
for. -/
theorem filesAfter_startJob {s t : Service} {r : HttpRequest} {e : Except Fault (List Analysis)}
    (starts : Asks r .startJob) (given : readBody checkOrder r.body = .ok o)
    (saves : o.saveTo = some path) (named : path ≠ "") (workers : 0 < s.hub.workers)
    (came : (ordered o).outcome s = (e, t)) :
    filesAfter s r = filesOfJob path t.files e := by
  rw [← files_batch saves named (jobName (s.started + 1)) came, ← files_jobRoutine]
  unfold filesAfter
  rw [outcome_serve_asks starts]
  unfold serveAt Service.given
  dsimp only
  rw [given]
  dsimp only
  rw [Work.outcome_bind_ok (show (View.whole.work (startJob View.whole o)).outcome s = _ from
    outcome_startJob_of_workers o workers)]
  rfl

/-- Waiting for a batch and running it as a job leave the same files unless it comes to no analysis. -/
theorem saved_either_way {s : Service} {r r' : HttpRequest} (waits : Asks r .analyse)
    (starts : Asks r' .startJob) (body : r'.body = r.body)
    (given : readBody checkOrder r.body = .ok o) (saves : o.saveTo = some path) (named : path ≠ "")
    (workers : 0 < s.hub.workers) :
    ∃ e t, (ordered o).outcome s = (e, t) ∧
      SaveLaw path e t.files (filesAfter s r) (filesAfter s r') := by
  obtain ⟨e, t, came⟩ : ∃ e t, (ordered o).outcome s = (e, t) := ⟨_, _, rfl⟩
  have waited := filesAfter_analyse waits given saves named came
  have job := filesAfter_startJob starts (body ▸ given) saves named workers came
  refine ⟨e, t, came, ?_, ?_, ?_⟩
  · rintro f rfl
    exact ⟨waited, job⟩
  · rintro (_ | ⟨a, as⟩) rfl several
    · exact absurd rfl several
    · exact ⟨waited, job.trans waited.symm⟩
  · rintro rfl
    exact ⟨waited, job, fun writable => waited ▸ readBytes_filesSaved_nil writable⟩

/-! ## A batch of one tool -/

/-- A body that asks for a batch of one tool. -/
def bodyFor (tool path : String) : Json :=
  .obj [("tools", .arr [.str tool]), ("request", .obj [("source_path", .str "a.py")]),
    ("save_to", .str path)]

def orderFor (tool path : String) : BatchOrder :=
  ⟨[tool], ⟨.str "a.py", .str "", [], [], []⟩, some path⟩

theorem readBody_bodyFor (tool path : String) :
    readBody checkOrder (some ((bodyFor tool path).writeIndented 0)) = .ok (orderFor tool path) := by
  have plain : (bodyFor tool path).Plain := by
    simp [bodyFor, Json.Plain, Json.PlainItems, Json.PlainFields, Fields.names]
  unfold readBody
  rw [bodyValue_written plain]
  rfl

def waitedFor : HttpRequest :=
  ⟨"POST", "/api/analyse", some ((bodyFor "alpha" "out.json").writeIndented 0)⟩

def asJob : HttpRequest :=
  { waitedFor with target := "/api/analyse/jobs" }

theorem asks_waitedFor : Asks waitedFor .analyse := by
  unfold Asks
  decide +kernel

theorem asks_asJob : Asks asJob .startJob := by
  unfold Asks
  decide +kernel

/-- Files with a report of an earlier batch. -/
def reported : Disk :=
  ⟨[(["out.json"], .file (Text.encodeUtf8 "old") false)], []⟩

theorem reported_writable : reported.Writable (.ofText "out.json") := by
  refine ⟨reported, [], reported.put ["out.json"] (.file [] false),
    Disk.makeDirectories_here _ (by decide), ?_⟩
  have arrived := Disk.arrive_name (d := reported) (s := "out.json") true (by decide)
    fun target h => nomatch h
  exact bind_ok_iff.mpr ⟨_, arrived, rfl⟩

/-- A service with one tool and a report of an earlier batch. -/
def withReport (t : Tool) : Service :=
  .new (Hub.holding { World.bare .default with disk := reported } [t])

theorem saved_either_way_alpha :
    ∃ e t, (ordered (orderFor "alpha" "out.json")).outcome (withReport (Hub.quietTool "alpha")) = (e, t) ∧
      SaveLaw "out.json" e t.files (filesAfter (withReport (Hub.quietTool "alpha")) waitedFor)
        (filesAfter (withReport (Hub.quietTool "alpha")) asJob) :=
  saved_either_way asks_waitedFor asks_asJob rfl (readBody_bodyFor "alpha" "out.json") rfl (by decide)
    (by decide)

/-- A tool whose program cannot be found. -/
def missingTool (name : String) : Tool :=
  .scripted (.new (.quiet name) false)

/-- The report of an earlier batch stays after a job without analyses, and not if it was waited for. -/
theorem not_every_report_is_replaced :
    ¬ ∀ (s : Service) (r r' : HttpRequest) (o : BatchOrder) (path : String), Asks r .analyse →
      Asks r' .startJob → r'.body = r.body → readBody checkOrder r.body = .ok o →
      o.saveTo = some path → path ≠ "" → 0 < s.hub.workers →
      (filesAfter s r').readBytes (.ofText path) = (filesAfter s r).readBytes (.ofText path) := by
  intro all
  have same := all (withReport (missingTool "alpha")) waitedFor asJob (orderFor "alpha" "out.json")
    "out.json" asks_waitedFor asks_asJob rfl (readBody_bodyFor "alpha" "out.json") rfl (by decide)
    (by decide)
  obtain ⟨t, came, left⟩ : ∃ t, (ordered (orderFor "alpha" "out.json")).outcome
      (withReport (missingTool "alpha")) = (.ok [], t) ∧ t.files = reported := ⟨_, rfl, rfl⟩
  rw [filesAfter_analyse asks_waitedFor (readBody_bodyFor "alpha" "out.json") rfl (by decide) came,
    filesAfter_startJob asks_asJob (readBody_bodyFor "alpha" "out.json") rfl (by decide) (by decide)
      came, left] at same
  have old : reported.readBytes (.ofText "out.json") = .ok (Text.encodeUtf8 "old") :=
    Disk.readBytes_name (by decide) rfl
  have kept := old.symm.trans (same.trans (readBytes_filesSaved_nil reported_writable))
  exact absurd (Except.ok.inj kept) (by decide +kernel)

end Http.Service

end LintHub
