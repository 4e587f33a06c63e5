import LintHub.Http.Service
import LintHub.Proofs.Store.Leaks

/-! # Answers of the service

What a request comes to that is answered at once, and what one comes to that brings documents.
-/

namespace LintHub

namespace Http.Service

/-- The hub of a service. -/
abbrev hubOf : View Service Hub :=
  View.whole.trans hubView

/-! ## Documents -/

/-- The answer to documents that describe no analyses. -/
def refused : Fault → Except Fault Reply
  | .store text => .ok (.refusal 400 text)
  | f => .error f

theorem isOneOf_store {now : Time.Moment} {source : String} {docs : List Json} {f : Fault}
    (fails : Store.ofDocuments now source docs = .error f) :
    (if f.isOneOf [.store] then .ok (.refusal 400 f.message) else .error f) = refused f := by
  by_cases told : f.IsStore
  · obtain ⟨text, rfl⟩ := told
    rfl
  · obtain ⟨before, d, after, -, -, overflows⟩ :=
      (Store.ofDocumentsFrom_leaks_iff source 0).mp ⟨fails, told⟩
    cases overflows <;> rfl

theorem outcome_withAnalyses (docs : List Json) (k : List Analysis → Answer) (s : Service) :
    (withAnalyses docs k).outcome s =
      match Store.ofDocuments s.hub.world.stamp.time Store.requestSource docs with
      | .ok as => (k as).outcome s
      | .error f => (refused f, s) := by
  have asked : (analysesOf docs).outcome s =
      (Store.ofDocuments s.hub.world.stamp.time Store.requestSource docs, s) := rfl
  unfold withAnalyses
  rw [Act.outcome_bind, Act.outcome_attempt, asked]
  cases fails : Store.ofDocuments s.hub.world.stamp.time Store.requestSource docs with
  | ok as => rfl
  | error f =>
    dsimp only
    rw [← isOneOf_store fails]
    split <;> rfl

/-! ## Requests -/

/-- A request that an endpoint answers. -/
def Asks (r : HttpRequest) (e : Endpoint) : Prop :=
  (Endpoint.ofPath (Address.ofText r.target).path).lookup r.method = some e

/-- A reply that is sent, with nothing left to be done. -/
def sentAlone {σ : Type} (reply : Reply) : Except Fault (Served σ) :=
  reply.sent.map fun r => ⟨r, none⟩

theorem outcome_atOnce (m : Answer) (s : Service) :
    (atOnce View.whole m).outcome s = ((m.outcome s).1.map (⟨·, none⟩), (m.outcome s).2) := by
  unfold atOnce
  rw [Work.outcome_bind, Work.outcome_whole]
  rcases m.outcome s with ⟨f | r, t⟩ <;> rfl

/-- What an endpoint answers is sent if it can be; what goes on behind it stays. -/
theorem outcome_serve_asks {r : HttpRequest} {e : Endpoint} (asks : Asks r e) (s : Service) :
    (serve View.whole r).outcome s =
      ((serveAt View.whole e (Address.ofText r.target) r.body).outcome s).map
        (· >>= fun served => served.reply.sent.map fun reply => { served with reply }) id := by
  unfold Asks at asks
  unfold serve
  dsimp only
  split
  · next none =>
    rw [none] at asks
    cases asks
  · rw [asks]
    dsimp only
    rw [Work.outcome_bind]
    rcases (serveAt View.whole e (Address.ofText r.target) r.body).outcome s with ⟨f | served, t⟩
    · rfl
    · dsimp only
      rw [Work.outcome_bind, Work.outcome_ofExcept]
      show _ = (served.reply.sent.map _, t)
      cases served.reply.sent <;> rfl

theorem outcome_serve {r : HttpRequest} {e : Endpoint} {m : Answer} (asks : Asks r e)
    (now : serveAt View.whole e (Address.ofText r.target) r.body = atOnce View.whole m)
    (s : Service) :
    (serve View.whole r).outcome s = ((m.outcome s).1 >>= sentAlone, (m.outcome s).2) := by
  rw [outcome_serve_asks asks, now, outcome_atOnce]
  rcases m.outcome s with ⟨f | reply, t⟩
  · rfl
  · show (reply.sent.map _, t) = (reply.sent.map _, t)
    rfl

end Http.Service

end LintHub
