import LintHub.Proofs.Http.Answers
import LintHub.Proofs.Report.Merging

/-! # Reports on request

Documents that come with a request are refused if they describe no analyses. If they do, the answer
is the report on them, as far as there is one and it can be sent.
-/

namespace LintHub

open Fault

/-! ## When there is a report -/

/-- Which analyses there is a report on, and what goes wrong with the others. -/
structure ReportLaw (stamp : Stamp) : Prop where
  aggregate : ∀ as, (∃ m, aggregate stamp as = .ok m) ↔ Mergeable as
  statistics : ∀ as n, (∃ s, statistics as (.int n) = .ok s) ↔ Countable as
  worstFiles : ∀ as n, (∃ r, worstFiles as (.int n) = .ok r) ↔
    ∀ i ∈ as.flatMap (·.issues), i.filePath.IsKey
  compare : ∀ baseline current, (∃ c, compare stamp baseline current = .ok c) ↔
    Mergeable baseline ∧ Mergeable current
  aggregateFaults : ∀ as, Faults Unreported (LintHub.aggregate stamp as)
  statisticsFaults : ∀ as n, Faults Unreported (LintHub.statistics as (.int n))
  worstFilesFaults : ∀ as n, Faults Unreported (LintHub.worstFiles as (.int n))
  compareFaults : ∀ baseline current, Faults Unreported (LintHub.compare stamp baseline current)

theorem reportLaw (stamp : Stamp) : ReportLaw stamp where
  aggregate _ := aggregate_ok_iff stamp
  statistics _ _ := statistics_ok_iff
  worstFiles _ _ := worstFiles_ok_iff
  compare _ _ := compare_ok_iff stamp
  aggregateFaults := aggregate_unreported stamp
  statisticsFaults := statistics_unreported
  worstFilesFaults := worstFiles_unreported
  compareFaults := compare_unreported stamp

namespace Http.Service

variable {α : Type}

/-! ## Replies -/

/-- A document whose integers can be sent. -/
def Sends (doc : Json) : Prop :=
  (Reply.document doc).body.integersFit = true

/-- The analyses that the documents of a request describe. -/
def described (s : Service) (docs : List Json) : Except Fault (List Analysis) :=
  Store.ofDocuments s.hub.world.stamp.time Store.requestSource docs

/-- The reply to what a request brings: the report on it, unless it cannot be read. -/
def replyTo (read : Except Fault α) (report : α → Except Fault Json) : Except Fault Reply :=
  match read with
  | .ok a => (report a).map .document
  | .error f => refused f

def aggregateReport (s : Service) (as : List Analysis) : Except Fault Json :=
  LintHub.aggregate s.hub.world.stamp as >>= Analysis.toJson

def statisticsReport (limit : Int) (as : List Analysis) : Except Fault Json :=
  (LintHub.statistics as (.int limit)).map Statistics.toJson

/-- The analyses of both sides of a comparison. -/
def describedSides (s : Service) (baseline current : List Json) :
    Except Fault (List Analysis × List Analysis) := do
  let before ← described s baseline
  let after ← described s current
  return (before, after)

def compareReport (s : Service) (sides : List Analysis × List Analysis) : Except Fault Json :=
  (LintHub.compare s.hub.world.stamp sides.1 sides.2).map Comparison.toJson

/-- Documents are replied to as their analyses are. -/
theorem outcome_replyTo {docs : List Json} {k : List Analysis → Answer} {s : Service}
    {report : List Analysis → Except Fault Json}
    (reports : ∀ as, (k as).outcome s = ((report as).map .document, s)) :
    (withAnalyses docs k).outcome s = (replyTo (described s docs) report, s) := by
  rw [outcome_withAnalyses]
  unfold described replyTo
  cases Store.ofDocuments s.hub.world.stamp.time Store.requestSource docs with
  | ok as => exact reports as
  | error f => rfl

theorem outcome_aggregate (docs : List Json) (s : Service) :
    (aggregate docs).outcome s = (replyTo (described s docs) (aggregateReport s), s) := by
  refine outcome_replyTo fun as => ?_
  unfold aggregateReport
  rw [Act.outcome_bind, Act.outcome_get]
  dsimp only
  rw [Act.outcome_bind, Act.outcome_except]
  cases LintHub.aggregate s.hub.world.stamp as with
  | error f => rfl
  | ok m =>
    dsimp only [bind, Except.bind]
    cases m.toJson <;> rfl

theorem outcome_statistics (docs : List Json) (limit : Int) (s : Service) :
    (statistics docs limit).outcome s =
      (replyTo (described s docs) (statisticsReport limit), s) := by
  refine outcome_replyTo fun as => ?_
  unfold statisticsReport
  rw [Act.outcome_bind, Act.outcome_except]
  cases LintHub.statistics as (.int limit) <;> rfl

theorem outcome_compare (baseline current : List Json) (s : Service) :
    (compare baseline current).outcome s =
      (replyTo (describedSides s baseline current) (compareReport s), s) := by
  have sides (before : List Analysis) :
      (withAnalyses current fun after => do
        let stamp := (← get).hub.world.stamp
        let c ← (LintHub.compare stamp before after : Except Fault Comparison)
        return .document c.toJson).outcome s =
      (replyTo (described s current) fun after => compareReport s (before, after), s) := by
    refine outcome_replyTo fun after => ?_
    unfold compareReport
    rw [Act.outcome_bind, Act.outcome_get]
    dsimp only
    rw [Act.outcome_bind, Act.outcome_except]
    cases LintHub.compare s.hub.world.stamp before after <;> rfl
  unfold compare describedSides
  rw [outcome_withAnalyses]
  show _ = (replyTo (described s baseline >>= _) _, s)
  unfold described
  cases Store.ofDocuments s.hub.world.stamp.time Store.requestSource baseline with
  | error f => rfl
  | ok before =>
    dsimp only
    rw [sides]
    unfold described
    cases Store.ofDocuments s.hub.world.stamp.time Store.requestSource current <;> rfl

/-! ## Answers -/

/-- What a request for a report comes to, from what it brings, whether there is a report on that, and
the report. Nothing changes; a refusal tells a store fault. -/
structure Answers (s : Service) (r : HttpRequest) (read : Except Fault α) (fit : α → Prop)
    (report : α → Except Fault Json) : Prop where
  told : ∀ served t, (serve View.whole r).outcome s = (.ok served, t) → t = s ∧
    ((∃ text, read = .error (.store text) ∧ served = ⟨.refusal 400 text, none⟩) ∨
      ∃ a doc, read = .ok a ∧ report a = .ok doc ∧ served = ⟨.document doc, none⟩)
  fails : (∃ f, ((serve View.whole r).outcome s).1 = .error f) ↔
    (∃ f, read = .error f ∧ ¬ f.IsStore) ∨
      ∃ a, read = .ok a ∧ ¬ (fit a ∧ ∀ doc, report a = .ok doc → Sends doc)

theorem sentAlone_sent {reply : Reply} {served : Served Service}
    (h : sentAlone reply = .ok served) : served = ⟨reply, none⟩ := by
  unfold sentAlone Reply.sent at h
  split at h
  · cases h
    rfl
  · cases h

theorem sentAlone_document {doc : Json} :
    (∃ f, (sentAlone (.document doc) : Except Fault (Served Service)) = .error f) ↔ ¬ Sends doc := by
  unfold sentAlone Reply.sent Sends
  split
  · next fits => exact ⟨fun ⟨_, h⟩ => (nomatch h), fun h => (h fits).elim⟩
  · next long => exact ⟨fun _ => long, fun _ => ⟨_, rfl⟩⟩

theorem replyTo_eq_ok {read : Except Fault α} {report : α → Except Fault Json} {reply : Reply}
    (h : replyTo read report = .ok reply) :
    (∃ text, read = .error (.store text) ∧ reply = .refusal 400 text) ∨
      ∃ a doc, read = .ok a ∧ report a = .ok doc ∧ reply = .document doc := by
  unfold replyTo at h
  split at h
  · obtain ⟨doc, made, rfl⟩ := map_ok_iff.mp h
    exact .inr ⟨_, doc, rfl, made, rfl⟩
  · next f =>
    cases f <;> cases h
    exact .inl ⟨_, rfl, rfl⟩

theorem refused_error {f : Fault} (other : ¬ f.IsStore) : refused f = .error f := by
  cases f with
  | store text => exact (other ⟨text, rfl⟩).elim
  | _ => rfl

section
variable {report : α → Except Fault Json}

theorem replyTo_error_fails {f : Fault} :
    (∃ g, (replyTo (.error f) report >>= sentAlone : Except Fault (Served Service)) = .error g) ↔
      ¬ f.IsStore := by
  by_cases told : f.IsStore
  · obtain ⟨text, rfl⟩ := told
    exact ⟨fun ⟨_, h⟩ => (nomatch h), fun other => (other ⟨text, rfl⟩).elim⟩
  · rw [replyTo, refused_error told]
    exact ⟨fun _ => told, fun _ => ⟨f, rfl⟩⟩

theorem replyTo_ok_fails {a : α} :
    (∃ g, (replyTo (.ok a) report >>= sentAlone : Except Fault (Served Service)) = .error g) ↔
      ¬ ((∃ doc, report a = .ok doc) ∧ ∀ doc, report a = .ok doc → Sends doc) := by
  unfold replyTo
  dsimp only
  cases made : report a with
  | error f =>
    refine ⟨fun _ => ?_, fun _ => ⟨f, rfl⟩⟩
    rintro ⟨⟨doc, h⟩, -⟩
    cases h
  | ok doc =>
    show (∃ g, sentAlone (.document doc) = .error g) ↔ _
    rw [sentAlone_document, not_iff_not]
    refine ⟨fun sends => ⟨⟨doc, rfl⟩, ?_⟩, fun all => all.2 doc rfl⟩
    rintro _ ⟨⟩
    exact sends

/-- A request that is answered at once with the reply to what it brings. -/
theorem answers_of {s : Service} {r : HttpRequest} {e : Endpoint} {m : Answer}
    {read : Except Fault α} {fit : α → Prop} (asks : Asks r e)
    (now : serveAt View.whole e (Address.ofText r.target) r.body = atOnce View.whole m)
    (reply : m.outcome s = (replyTo read report, s))
    (fits : ∀ a, (∃ doc, report a = .ok doc) ↔ fit a) : Answers s r read fit report := by
  have whole : (serve View.whole r).outcome s = (replyTo read report >>= sentAlone, s) := by
    rw [outcome_serve asks now s, reply]
  constructor
  · intro served t h
    rw [whole] at h
    obtain ⟨told, rfl⟩ := Prod.mk.inj h
    obtain ⟨reply, replied, sent⟩ := bind_ok_iff.mp told
    cases sentAlone_sent sent
    refine ⟨rfl, ?_⟩
    rcases replyTo_eq_ok replied with ⟨text, refused, rfl⟩ | ⟨a, doc, accepted, made, rfl⟩
    · exact .inl ⟨text, refused, rfl⟩
    · exact .inr ⟨a, doc, accepted, made, rfl⟩
  · rw [whole]
    dsimp only
    cases read with
    | error f =>
      rw [replyTo_error_fails]
      simp
    | ok a =>
      rw [replyTo_ok_fails, fits]
      simp

end

/-! ## The law -/

/-- What requests for reports come to. -/
structure RouteLaw (s : Service) : Prop where
  aggregate : ∀ r docs, Asks r .aggregate → readBody checkResults r.body = .ok docs →
    Answers s r (described s docs)
      (fun as => Mergeable as ∧ ∃ u, s.hub.world.stamp.time.toUtc = .ok u) (aggregateReport s)
  statistics : ∀ r v limit docs, Asks r .statistics → bodyValue r.body = .ok v →
    checkInteger (Address.ofText r.target) "top_n" 10 = .ok limit →
    checkBody checkResults v = .ok docs →
    Answers s r (described s docs) Countable (statisticsReport limit)
  compare : ∀ r baseline current, Asks r .compare →
    readBody checkSides r.body = .ok (baseline, current) →
    Answers s r (describedSides s baseline current)
      (fun sides => Mergeable sides.1 ∧ Mergeable sides.2) (compareReport s)

theorem aggregateReport_ok_iff {s : Service} {as : List Analysis} :
    (∃ doc, aggregateReport s as = .ok doc) ↔
      Mergeable as ∧ ∃ u, s.hub.world.stamp.time.toUtc = .ok u := by
  unfold aggregateReport
  simp only [bind_ok_iff, ← aggregate_ok_iff s.hub.world.stamp]
  have stamped {m : Analysis} (h : LintHub.aggregate s.hub.world.stamp as = .ok m) :
      (∃ doc, m.toJson = .ok doc) ↔ ∃ u, s.hub.world.stamp.time.toUtc = .ok u := by
    obtain ⟨time, es, -, -, rfl⟩ := aggregate_eq_ok_iff.mp h
    exact Store.toJson_ok_iff
  constructor
  · rintro ⟨doc, m, made, told⟩
    exact ⟨⟨m, made⟩, (stamped made).mp ⟨doc, told⟩⟩
  · rintro ⟨⟨m, made⟩, utc⟩
    obtain ⟨doc, told⟩ := (stamped made).mpr utc
    exact ⟨doc, m, made, told⟩

theorem routeLaw (s : Service) : RouteLaw s where
  aggregate r docs asks given := by
    refine answers_of asks (m := Service.aggregate docs) ?_ (outcome_aggregate docs s)
      fun as => aggregateReport_ok_iff
    unfold serveAt Service.given
    dsimp only
    rw [given]
  statistics r v limit docs asks body top given := by
    refine answers_of asks (m := Service.statistics docs limit) ?_ (outcome_statistics docs limit s)
      fun as => ?_
    · unfold serveAt Service.given
      dsimp only
      rw [body, top]
      dsimp only [bind, Except.bind, Except.map]
      rw [given]
      rfl
    · unfold statisticsReport
      simp only [map_ok_iff, ← statistics_ok_iff (n := limit)]
      exact ⟨fun ⟨_, x, made, _⟩ => ⟨x, made⟩, fun ⟨x, made⟩ => ⟨_, x, made, rfl⟩⟩
  compare r baseline current asks given := by
    refine answers_of asks (m := Service.compare baseline current) ?_
      (outcome_compare baseline current s) fun sides => ?_
    · unfold serveAt Service.given
      dsimp only
      rw [given]
    · unfold compareReport
      simp only [map_ok_iff, ← compare_ok_iff s.hub.world.stamp]
      exact ⟨fun ⟨_, x, made, _⟩ => ⟨x, made⟩, fun ⟨x, made⟩ => ⟨_, x, made, rfl⟩⟩

end Http.Service

/-- For whatever analyses, and whatever documents a service is sent. -/
theorem reports_tell (stamp : Stamp) (s : Http.Service) :
    ReportLaw stamp ∧ Http.Service.RouteLaw s :=
  ⟨reportLaw stamp, Http.Service.routeLaw s⟩

/-- An issue in a list of files is accepted, but has no key. -/
theorem not_every_analysis_is_merged :
    ¬ ∀ (stamp : Stamp) (source : String) (docs : List Json) (as : List Analysis),
        Store.ofDocuments stamp.time source docs = .ok as →
        ∃ m, LintHub.aggregate stamp as = .ok m := by
  intro claim
  let stamp : Stamp := ⟨"", ⟨⟨2024, 1, 2⟩, 3, 4, 5, 0, 0⟩⟩
  let issue : Issue :=
    ⟨.str "", .str "", .arr [.str "x"], 0, 0, .warning, .style, .str "", .str "", none⟩
  let analysis : Analysis := { Analysis.new stamp (.str "") with id := .str "", issues := [issue] }
  have accepted : Store.ofDocuments stamp.time "r.json"
      [.obj [("issues", .arr [.obj [("file_path", .arr [.str "x"])]])]] = .ok [analysis] := by
    rfl
  have mergeable := (aggregate_ok_iff stamp).mp (claim stamp _ _ _ accepted)
  exact (mergeable.keys issue (List.mem_singleton.mpr rfl)).1.1 rfl

end LintHub
