import LintHub.Proofs.Batch.Law
import LintHub.Proofs.Batch.Probes
import LintHub.Proofs.Http.Answers
import LintHub.Tool.Registry
import Mathlib.Data.List.Forall2

/-! # Calls that are refused

A call that is refused for a mistake of the caller, before any tool was started, leaves the service,
its tools and the registry as they were. All that may have changed is that the program of a tool has
been looked for.
-/

namespace LintHub

/-! ## Acts that are undone when they fail -/

namespace Act

variable {σ α β : Type}

/-- The act leaves the state as it was if it fails. -/
def Undone (m : Act σ α) : Prop :=
  ∀ s f s', m.outcome s = (.error f, s') → s' = s

theorem Still.undone {m : Act σ α} (hm : Still m) : Undone m := by
  intro s f s' fails
  have left := hm s
  rw [fails] at left
  exact left

theorem Undone.after {m : Act σ α} {k : α → Act σ β} (hm : Still m) (hk : ∀ a, Undone (k a)) :
    Undone (m >>= k) := by
  intro s f s' fails
  have left := hm s
  rw [outcome_bind] at fails
  rcases first : m.outcome s with ⟨f₁ | a, t⟩ <;> rw [first] at fails left
  · cases fails
    exact left
  · exact (hk a t f s' fails).trans left

theorem undone_modify (g : σ → σ) : Undone (modify g : Act σ PUnit) :=
  fun _ _ _ fails => nomatch fails

end Act

/-! ## Looking for programs -/

/-- A tool after its program was looked for: where it is, or that it is nowhere, is found out once. -/
inductive Tool.Looked : Tool → Tool → Prop where
  | same (t : Tool) : Looked t t
  | found {r : Runner} (first : r.path = none) (path : String) :
    Looked (.external r) (.external { r with path := some path })

/-- A hub after the programs of some of its tools were looked for. -/
structure Hub.Looked (h h' : Hub) : Prop where
  world : h'.world = h.world
  names : h'.names = h.names
  running : h'.running = h.running
  cancelled : h'.cancelled = h.cancelled
  workers : h'.workers = h.workers
  tools : List.Forall₂ Tool.Looked h.tools h'.tools

theorem Bench.looked_runner (b : Bench) :
    Tool.Looked (.external b.runner) (.external b.looked.runner) := by
  rcases b with ⟨⟨adapter, config, running, cancelled, known, version⟩, world⟩
  unfold looked seen
  cases known with
  | some path => exact .same _
  | none =>
    dsimp only
    cases locate world adapter with
    | error f => exact .same _
    | ok path => exact .found rfl path

namespace Hub

theorem Looked.refl (h : Hub) : Looked h h :=
  ⟨rfl, rfl, rfl, rfl, rfl, List.forall₂_same.mpr fun t _ => .same t⟩

theorem forall₂_modify {i : ToolId} {g : Tool → Tool} {ts : List Tool}
    (there : ∀ t, ts[i]? = some t → t.Looked (g t)) : List.Forall₂ Tool.Looked ts (ts.modify i g) := by
  induction ts generalizing i with
  | nil =>
    rw [List.modify_nil]
    exact .nil
  | cons t ts ih =>
    cases i with
    | zero => exact .cons (there t rfl) (List.forall₂_same.mpr fun t _ => .same t)
    | succ i => exact .cons (.same t) (ih there)

theorem isAvailable_looked (i : ToolId) : Act.Within Looked (isAvailable i) := by
  intro h
  cases here : h.toolAt? i with
  | none =>
    rw [outcome_isAvailable_none here]
    exact .refl h
  | some t =>
    cases t with
    | scripted t =>
      rw [outcome_isAvailable_scripted here]
      exact .refl h
    | external r =>
      rw [outcome_isAvailable_external here]
      refine ⟨rfl, rfl, rfl, rfl, rfl, forall₂_modify fun t at' => ?_⟩
      cases at'.symm.trans here
      exact Bench.looked_runner ⟨r, h.world⟩

/-! ## Acts on the hub -/

theorem outcome_unknown {α : Type} {name : String} {h : Hub} (unknown : h.idOf? name = none)
    (k : ToolId → Act Hub α) : (require name >>= k).outcome h = (.error (.toolNotFound name), h) := by
  refine Act.outcome_bind_error ?_
  rw [outcome_require, unknown]

theorem outcome_known {α : Type} {name : String} {h : Hub} {i : ToolId}
    (leads : h.idOf? name = some i) (k : ToolId → Act Hub α) :
    (require name >>= k).outcome h = (k i).outcome h := by
  refine Act.outcome_bind_ok ?_
  rw [outcome_require, leads]

/-- A configuration of another kind than the tool takes. -/
theorem configure_misfit {name : String} {h : Hub} {i : ToolId} {r : Runner} {o : Offer}
    (leads : h.idOf? name = some i) (there : h.toolAt? i = some (.external r))
    (other : ∀ c, o = .config c → c.kind ≠ r.adapter.configKind) :
    (configure name o).outcome h =
      (.error (.configType r.adapter.name r.adapter.configKind.label o.label), h) := by
  have refused : (Tool.external r).configure o =
      .error (.configType r.adapter.name r.adapter.configKind.label o.label) := by
    cases o with
    | config c => exact if_neg (other c rfl)
    | value v => rfl
  unfold configure
  rw [outcome_known leads, configureAt, Act.outcome_bind_ok (outcome_toolAt there), refused]
  rfl

theorem register_nameless {t : Tool} (blank : t.name = "") (h : Hub) :
    (register (some t)).outcome h = (.error .namelessTool, h) := by
  unfold register
  dsimp only
  rw [if_pos (by rw [blank]; rfl)]
  rfl

theorem register_undone (t : Option Tool) : Act.Undone (register t) := by
  intro h f h' fails
  unfold register at fails
  cases t with
  | none =>
    cases fails
    rfl
  | some t =>
    dsimp only at fails
    split at fails <;> cases fails
    rfl

theorem configureAt_undone (i : ToolId) (o : Offer) : Act.Undone (configureAt i o) := by
  unfold configureAt
  refine .after (toolAt_still i) fun t => .after (fun _ => rfl) fun t' => Act.undone_modify _

theorem configure_undone (name : String) (o : Offer) : Act.Undone (configure name o) :=
  .after (require_still name) fun i => configureAt_undone i o

/-- Of several names the first one that nothing is known of is told, if those before it can be
checked. -/
theorem validateMany_unknown {names before after : List String} {name : String} {h : Hub}
    (order : names.eraseDups = before ++ name :: after)
    (fine : ∀ n ∈ before, ∃ found, ((validate n).outcome h).1 = .ok found)
    (unknown : h.idOf? name = none) :
    ((validateMany names).outcome h).1 = .error (.toolNotFound name) := by
  unfold validateMany
  rw [order]
  clear order
  induction before with
  | nil =>
    rw [List.nil_append, List.mapM_cons, Act.outcome_bind_error]
    exact Act.outcome_bind_error (outcome_unknown unknown _)
  | cons n before ih =>
    obtain ⟨found, checked⟩ := fine n (List.mem_cons_self ..)
    have one : (validate n).outcome h = (.ok found, h) := Prod.ext checked (validate_still n h)
    have rest := ih fun n mem => fine n (List.mem_cons_of_mem _ mem)
    rw [List.cons_append, List.mapM_cons, Act.outcome_bind_ok (by rw [Act.outcome_bind_ok one]; rfl),
      Act.outcome_bind_error (Prod.ext rest rfl)]

/-! ## Batches -/

/-- The first name that nothing is known of is told. -/
theorem checkNames_unknown {before after : List String} {name : String} {h : Hub}
    (known : ∀ n ∈ before, (h.idOf? n).isSome = true) (unknown : h.idOf? name = none) :
    (checkNames (before ++ name :: after)).outcome h = (.error (.unknownTool name), h) := by
  have found : ((before ++ name :: after).find? fun n => (h.idOf? n).isNone) = some name := by
    rw [List.find?_append, List.find?_eq_none.mpr fun n mem => by
      simpa [Option.isSome_iff_ne_none] using known n mem,
      List.find?_cons_of_pos (by rw [unknown]; rfl)]
    rfl
  unfold checkNames
  rw [if_neg (by simp), Act.outcome_bind_ok (Act.outcome_get h), found]
  rfl

section
variable {σ : Type} {v : View σ Hub}

/-- A fault that is not told as an argument that nothing can be done with. -/
def NoArgument (f : Fault) : Prop :=
  f.isOneOf [.invalidArgument] = false

theorem isAvailable_noArgument (i : ToolId) : Act.Faults NoArgument (isAvailable i) := by
  intro h f fails
  rcases isAvailable_error_iff.mp fails with ⟨-, rfl⟩ | ⟨runner, -, -, -, refused⟩
  · rfl
  · rw [Disk.isFile_error refused]
    rfl

theorem requestFor_noArgument (name : String) (r : Request) : Faults NoArgument (requestFor name r) := by
  intro f fails
  have none := requestFor_error_iff.mp fails
  generalize r.outputFile = output at none
  cases none <;> rfl

theorem runTool_noArgument (name : String) (i : ToolId) (r : Request)
    (listener : Option (BatchListener σ)) : Work.Faults NoArgument (runTool v name i r listener) := by
  intro s
  unfold runTool
  rw [Work.outcome_bind_ok (Work.outcome_attempt _ s)]
  rcases (checkAndRun v name i r listener).outcome s with ⟨f | a, t⟩
  · exact .ok _
  · exact .ok _

/-- Once the names of a batch have been checked, nothing is told as a wrong argument. -/
theorem runNames_noArgument (r : Request) (listener : Option (BatchListener σ)) (names : List String) :
    Work.Faults NoArgument (runNames v r listener names) := by
  induction names with
  | nil => exact .pure _
  | cons name names ih =>
    rw [runNames]
    refine .bind (.work ?_) fun stops => ?_
    · intro h
      unfold stopsBefore
      rw [Act.outcome_bind_ok (Act.outcome_get h)]
      split <;> exact .ok _
    · split
      · exact .pure _
      · refine .bind (.work ?_) fun i => ?_
        · intro h
          unfold readyTool
          rw [Act.outcome_bind_ok (Act.outcome_get h)]
          split
          · refine Act.Faults.bind (isAvailable_noArgument _) (fun b => ?_) h
            split
            · exact .pure _
            · exact fun h => .ok _
          · exact .ok _
        · cases i with
          | none => exact ih
          | some i =>
            refine .bind (.ofExcept (requestFor_noArgument name r)) fun own => ?_
            exact .bind (runTool_noArgument name i own listener) fun a =>
              .bind ih fun as => .pure _

theorem executeBatch_noArgument (names : List String) (r : Request)
    (listener : Option (BatchListener σ)) :
    Work.Faults NoArgument (executeBatch v names r listener) := by
  refine .bind (.work fun h => .ok _) fun _ => ?_
  refine .attempt (runNames_noArgument r listener names) fun e he => ?_
  exact .bind (.work fun h => .ok _) fun _ => .ofExcept he

end

end Hub

namespace Http.Service

/-! ## Calls -/

/-- A service and the kinds of tool that there are. -/
structure House where
  service : Service
  registry : Registry

inductive Call where
  /-- A tool for the hub, if it is one. -/
  | register (t : Option Tool)
  /-- A kind of tool for the registry, if it is one. -/
  | registerKind (name : String) (f : Option Factory)
  | configure (name : String) (o : Offer)
  | configuration (name : String)
  | validate (name : String)
  | validateMany (names : List String)
  | runSingle (name : String) (r : Request)
  | runBatch (names : List String) (r : Request)
  | putConfig (tool : String) (r : HttpRequest) (asks : Asks r (.putConfig tool))

/-- What a call comes to: a fault, or an answer that may be a reply. -/
abbrev Answered := Except Fault (Option Reply)

def House.doing {α : Type} (h : House) (w : Work Service α) (told : α → Option Reply) :
    Answered × House :=
  ((w.outcome h.service).1.map told, { h with service := (w.outcome h.service).2 })

/-- Makes a call. -/
def House.answer (h : House) : Call → Answered × House
  | .register t => h.doing (hubOf.work (Hub.register t)) fun _ => none
  | .registerKind name f =>
    match h.registry.register name f with
    | .ok g => (.ok none, { h with registry := g })
    | .error e => (.error e, h)
  | .configure name o => h.doing (hubOf.work (Hub.configure name o)) fun _ => none
  | .configuration name => h.doing (hubOf.work (Hub.configuration name)) fun _ => none
  | .validate name => h.doing (hubOf.work (Hub.validate name)) fun _ => none
  | .validateMany names => h.doing (hubOf.work (Hub.validateMany names)) fun _ => none
  | .runSingle name r => h.doing (Hub.runSingle hubOf name r) fun _ => none
  | .runBatch names r => h.doing (Hub.runBatch hubOf names r) fun _ => none
  | .putConfig _ r _ => h.doing (serve View.whole r) fun served => some served.reply

/-- The kinds of fault that tell of a mistake of the caller. -/
def Call.mistakes : Call → List FaultKind
  | register _ | runBatch .. => [.invalidArgument]
  | registerKind .. => [.value]
  | configure .. => [.toolNotFound, .configType]
  | configuration _ | validate _ | validateMany _ => [.toolNotFound]
  | runSingle .. => [.toolNotFound, .toolUnavailable]
  | putConfig .. => []

/-- A call that is refused for a mistake of the caller. -/
def Call.Refused (c : Call) : Answered → Prop
  | .error f => f.isOneOf c.mistakes = true
  | .ok (some reply) => reply.status = 400 ∨ reply.status = 404
  | .ok none => False

/-- A call that starts a tool: its name leads to one whose program can be found. -/
def Call.Starts (h : House) : Call → Prop
  | runSingle name _ => ∃ i, h.service.hub.idOf? name = some i ∧
      ((Hub.isAvailable i).outcome h.service.hub).1 = .ok true
  | _ => False

/-- Nothing has changed, but that programs may have been looked for. -/
structure House.Untouched (h h' : House) : Prop where
  registry : h'.registry = h.registry
  jobs : h'.service.jobs = h.service.jobs
  started : h'.service.started = h.service.started
  hub : h.service.hub.Looked h'.service.hub

/-! ## Nothing is changed -/

section
variable {h : House}

theorem House.Untouched.refl (h : House) : h.Untouched h :=
  ⟨rfl, rfl, rfl, .refl _⟩

/-- A service whose programs were looked for, and nothing else. -/
structure Looked (s s' : Service) : Prop where
  jobs : s'.jobs = s.jobs
  started : s'.started = s.started
  hub : s.hub.Looked s'.hub

theorem Looked.refl (s : Service) : Looked s s :=
  ⟨rfl, rfl, .refl _⟩

theorem Looked.untouched {s' : Service} (looked : Looked h.service s') :
    h.Untouched { h with service := s' } :=
  ⟨rfl, looked.jobs, looked.started, looked.hub⟩

/-- Work that only looks for programs if it fails for a mistake. -/
theorem untouched_doing {α : Type} {c : Call} {w : Work Service α}
    (fails : ∀ f s', w.outcome h.service = (.error f, s') → f.isOneOf c.mistakes = true →
      Looked h.service s')
    (refused : c.Refused (h.doing w fun _ => none).1) : h.Untouched (h.doing w fun _ => none).2 := by
  unfold House.doing at refused ⊢
  rcases came : w.outcome h.service with ⟨f | a, s'⟩ <;> rw [came] at refused
  · exact (fails f s' came refused).untouched
  · cases refused

/-- An act on the hub that is undone when it fails. -/
theorem untouched_of_undone {α : Type} {c : Call} {m : Act Hub α} (undone : Act.Undone m)
    (refused : c.Refused (h.doing (hubOf.work m) fun _ => none).1) :
    h.Untouched (h.doing (hubOf.work m) fun _ => none).2 := by
  refine untouched_doing (fun f s' fails _ => ?_) refused
  rw [Work.outcome_work] at fails
  obtain ⟨failed, left⟩ := Prod.mk.inj fails
  have same : (m.outcome h.service.hub).2 = h.service.hub := undone _ f _ (Prod.ext failed rfl)
  rw [← left]
  refine ⟨rfl, rfl, ?_⟩
  show h.service.hub.Looked (m.outcome h.service.hub).2
  rw [same]
  exact .refl _

end

theorem outcome_runSingle_unknown {name : String} {s : Service} (unknown : s.hub.idOf? name = none)
    (r : Request) : (Hub.runSingle hubOf name r).outcome s = (.error (.toolNotFound name), s) := by
  have asked : (hubOf.work (Hub.require name)).outcome s = (.error (.toolNotFound name), s) := by
    have none := Hub.outcome_require name s.hub
    rw [unknown] at none
    rw [Work.outcome_work, show (Hub.require name).outcome (hubOf.get s) = _ from none]
    rfl
  exact Work.outcome_bind_error asked

/-- A batch with a name that nothing is known of. -/
theorem outcome_runBatch_unknown {before after : List String} {name : String} {s : Service}
    (known : ∀ n ∈ before, (s.hub.idOf? n).isSome = true) (unknown : s.hub.idOf? name = none)
    (r : Request) :
    (Hub.runBatch hubOf (before ++ name :: after) r).outcome s = (.error (.unknownTool name), s) := by
  have checked : (hubOf.work (Hub.checkNames (before ++ name :: after))).outcome s =
      (.error (.unknownTool name), s) :=
    congrArg (fun came => (came.1, hubOf.set s came.2)) (Hub.checkNames_unknown known unknown)
  exact Work.outcome_bind_error checked

/-- What a single run comes to whose tool is not available, or cannot be looked for. -/
def withoutTool (name : String) : Except Fault Bool → Fault
  | .error f => f
  | .ok _ => .toolUnavailable name

theorem outcome_runSingle_missing {name : String} {s : Service} {i : ToolId} {e : Except Fault Bool}
    {hub : Hub} (leads : s.hub.idOf? name = some i)
    (looks : (Hub.isAvailable i).outcome s.hub = (e, hub)) (missing : e ≠ .ok true) (r : Request) :
    (Hub.runSingle hubOf name r).outcome s = (.error (withoutTool name e), { s with hub }) := by
  have asked : (hubOf.work (Hub.require name)).outcome s = (.ok i, s) := by
    have some := Hub.outcome_require name s.hub
    rw [leads] at some
    rw [Work.outcome_work, show (Hub.require name).outcome (hubOf.get s) = _ from some]
    rfl
  unfold Hub.runSingle
  rw [Work.outcome_bind_ok asked, Work.outcome_bind, Work.outcome_work,
    show (Hub.isAvailable i).outcome (hubOf.get s) = _ from looks]
  rcases e with f | _ | _
  · rfl
  · rfl
  · exact absurd rfl missing

/-- A single run whose name leads to no available tool. -/
theorem runSingle_looked {name : String} {s : Service}
    (before : ¬ ∃ i, s.hub.idOf? name = some i ∧ ((Hub.isAvailable i).outcome s.hub).1 = .ok true)
    (r : Request) : Looked s ((Hub.runSingle hubOf name r).outcome s).2 := by
  cases leads : s.hub.idOf? name with
  | none =>
    rw [outcome_runSingle_unknown leads]
    exact .refl s
  | some i =>
    have looked := Hub.isAvailable_looked i s.hub
    rcases looks : (Hub.isAvailable i).outcome s.hub with ⟨e, hub⟩
    rw [looks] at looked
    rw [outcome_runSingle_missing leads looks fun found => before ⟨i, leads, by rw [looks, found]⟩]
    exact ⟨rfl, rfl, looked⟩

/-- A batch that is refused for its names. -/
theorem runBatch_looked {names : List String} {r : Request} {s s' : Service} {f : Fault}
    (fails : (Hub.runBatch hubOf names r).outcome s = (.error f, s'))
    (mistake : f.isOneOf [.invalidArgument] = true) : Looked s s' := by
  have still := Hub.checkNames_still names s.hub
  unfold Hub.runBatch at fails
  rw [Work.outcome_bind, Work.outcome_work] at fails
  rcases checked : (Hub.checkNames names).outcome s.hub with ⟨g | u, hub⟩ <;>
    rw [checked] at still <;>
    rw [show (Hub.checkNames names).outcome (hubOf.get s) = _ from checked] at fails
  · cases fails
    exact ⟨rfl, rfl, still ▸ .refl _⟩
  · have clean : Work.Faults Hub.NoArgument (do
        hubOf.work Hub.clearCancel
        Hub.executeBatch hubOf names r none) :=
      .bind (.work fun h => .ok _) fun _ => Hub.executeBatch_noArgument names r none
    have told := clean _ f (congrArg Prod.fst fails)
    unfold Hub.NoArgument at told
    rw [mistake] at told
    cases told

/-! ## Configurations over HTTP -/

/-- The service is left as it was if the answer is a refusal. -/
def Reserved (m : Answer) : Prop :=
  ∀ s reply s', m.outcome s = (.ok reply, s') → reply.status = 400 ∨ reply.status = 404 → s' = s

theorem Reserved.pure (reply : Reply) : Reserved (pure reply : Answer) := by
  rintro s _ _ ⟨⟩ -
  rfl

theorem Reserved.throw (f : Fault) : Reserved (throw f : Answer) :=
  fun _ _ _ answer => nomatch answer

theorem Reserved.after {α : Type} {m : Act Service α} {k : α → Answer} (hm : Act.Still m)
    (hk : ∀ a, Reserved (k a)) : Reserved (m >>= k) := by
  intro s reply s' answer refused
  have left := hm s
  rw [Act.outcome_bind] at answer
  rcases first : m.outcome s with ⟨f | a, t⟩ <;> rw [first] at answer left
  · cases answer
  · exact (hk a t reply s' answer refused).trans left

theorem inHub_still {α : Type} {m : Act Hub α} (hm : Act.Still m) : Act.Still (inHub m) := by
  intro s
  show ({ s with hub := (m.outcome s.hub).2 } : Service) = s
  rw [hm s.hub]

theorem inHub_undone {α : Type} {m : Act Hub α} (hm : Act.Undone m) : Act.Undone (inHub m) := by
  intro s f s' fails
  obtain ⟨failed, left⟩ := Prod.mk.inj fails
  have same : (m.outcome s.hub).2 = s.hub := hm s.hub f _ (Prod.ext failed rfl)
  rw [← left]
  exact congrArg (fun hub => ({ s with hub } : Service)) same

/-- A configuration that is not taken is not there. -/
theorem putConfig_reserved (tool : String) (fields : Fields) : Reserved (putConfig tool fields) := by
  unfold putConfig withTool
  refine .after (fun _ => rfl) fun s => ?_
  split
  · refine .after (inHub_still (Hub.toolAt_still _)) fun t => .after (fun _ => rfl) fun s => ?_
    dsimp only
    split
    · exact .pure _
    · exact .throw _
    · intro s reply s' answer refused
      rw [Act.outcome_bind_ok (Act.outcome_attempt _ s)] at answer
      rcases taken : (inHub (Hub.configure tool _)).outcome s with ⟨f | u, t⟩ <;> rw [taken] at answer
      · have same := inHub_undone (Hub.configure_undone tool _) s f t taken
        dsimp only at answer
        split at answer <;> cases answer
        exact same
      · dsimp only at answer
        obtain ⟨doc, u, -, told⟩ := Act.outcome_bind_ok_iff.mp answer
        cases told
        rcases refused with bad | bad <;> cases bad
  · exact .pure _

theorem putConfig_untouched {tool : String} {r : HttpRequest} (asks : Asks r (.putConfig tool))
    {s s' : Service} {served : Served Service} (answer : (serve View.whole r).outcome s = (.ok served, s'))
    (refused : served.reply.status = 400 ∨ served.reply.status = 404) : s' = s := by
  rw [outcome_serve_asks asks] at answer
  unfold serveAt given at answer
  dsimp only at answer
  cases body : readBody Schema.fields r.body with
  | error reply =>
    rw [body] at answer
    exact (Prod.mk.inj answer).2.symm
  | ok fields =>
    rw [body] at answer
    dsimp only at answer
    rw [outcome_atOnce] at answer
    rcases came : (putConfig tool fields).outcome s with ⟨f | reply, t⟩ <;> rw [came] at answer
    · cases answer
    · obtain ⟨told, left⟩ := Prod.mk.inj answer
      obtain ⟨sent, is, rfl⟩ := map_ok_iff.mp (show reply.sent.map _ = .ok served from told)
      have same : sent = reply := by
        unfold Reply.sent at is
        split at is <;> cases is
        rfl
      rw [← show t = s' from left]
      exact putConfig_reserved tool fields s reply t came (same ▸ refused)

/-! ## Mistakes -/

/-- What a caller can get wrong in a call, and what it comes to. -/
inductive Mistaken (h : House) : Call → Answered → Prop where
  | noTool : Mistaken h (.register none) (.error .nullTool)
  | nameless {t : Tool} (blank : t.name = "") : Mistaken h (.register (some t)) (.error .namelessTool)
  | namelessKind (f : Option Factory) : Mistaken h (.registerKind "" f) (.error .emptyToolName)
  | noFactory {name : String} (named : name ≠ "") :
    Mistaken h (.registerKind name none) (.error (.notAFactory name))
  | configures {name : String} (unknown : h.service.hub.idOf? name = none) (o : Offer) :
    Mistaken h (.configure name o) (.error (.toolNotFound name))
  | misfit {name : String} {i : ToolId} {r : Runner} {o : Offer}
    (leads : h.service.hub.idOf? name = some i)
    (there : h.service.hub.toolAt? i = some (.external r))
    (other : ∀ c, o = .config c → c.kind ≠ r.adapter.configKind) :
    Mistaken h (.configure name o)
      (.error (.configType r.adapter.name r.adapter.configKind.label o.label))
  | asks {name : String} (unknown : h.service.hub.idOf? name = none) :
    Mistaken h (.configuration name) (.error (.toolNotFound name))
  | validates {name : String} (unknown : h.service.hub.idOf? name = none) :
    Mistaken h (.validate name) (.error (.toolNotFound name))
  | validatesMany {names before after : List String} {name : String}
    (order : names.eraseDups = before ++ name :: after)
    (fine : ∀ n ∈ before, ∃ found, ((Hub.validate n).outcome h.service.hub).1 = .ok found)
    (unknown : h.service.hub.idOf? name = none) :
    Mistaken h (.validateMany names) (.error (.toolNotFound name))
  | runs {name : String} (unknown : h.service.hub.idOf? name = none) (r : Request) :
    Mistaken h (.runSingle name r) (.error (.toolNotFound name))
  | unavailable {name : String} {i : ToolId} (leads : h.service.hub.idOf? name = some i)
    (missing : ((Hub.isAvailable i).outcome h.service.hub).1 = .ok false) (r : Request) :
    Mistaken h (.runSingle name r) (.error (.toolUnavailable name))
  | noNames (r : Request) : Mistaken h (.runBatch [] r) (.error .noTools)
  | unknownName {before after : List String} {name : String}
    (known : ∀ n ∈ before, (h.service.hub.idOf? n).isSome = true)
    (unknown : h.service.hub.idOf? name = none) (r : Request) :
    Mistaken h (.runBatch (before ++ name :: after) r) (.error (.unknownTool name))
  | putsNowhere {tool : String} {r : HttpRequest} {fields : Fields} (asks : Asks r (.putConfig tool))
    (reads : readBody Schema.fields r.body = .ok fields)
    (unknown : h.service.hub.idOf? tool = none) :
    Mistaken h (.putConfig tool r asks) (.ok (some (.refusal 404 (Fault.toolNotFound tool).message)))
  | putsUnfit {tool : String} {r : HttpRequest} {fields : Fields} {i : ToolId} {t : Tool}
    {model : String} {issues : List SchemaIssue} {reply : Reply} (asks : Asks r (.putConfig tool))
    (reads : readBody Schema.fields r.body = .ok fields)
    (leads : h.service.hub.idOf? tool = some i) (there : h.service.hub.toolAt? i = some t)
    (bad : Config.ofJson h.service.hub.world.settings t.configKind
      (.obj (fields.foldl (fun d p => setNamed d p.1 p.2) [("tool_name", .str tool)])) =
        .error (.schema model issues))
    (sends : (Reply.unfitConfig model issues).sent = .ok reply) :
    Mistaken h (.putConfig tool r asks) (.ok (some reply))

section
variable {h : House}

theorem doing_fails {α : Type} {w : Work Service α} {f : Fault} {told : α → Option Reply}
    (fails : (w.outcome h.service).1 = .error f) : (h.doing w told).1 = .error f := by
  unfold House.doing
  rw [fails]
  rfl

theorem doing_tells {α : Type} {w : Work Service α} {a : α} {told : α → Option Reply}
    (tells : (w.outcome h.service).1 = .ok a) : (h.doing w told).1 = .ok (told a) := by
  unfold House.doing
  rw [tells]
  rfl

/-- Whatever begins with the tool of a name, if nothing is known of that. -/
theorem doing_unknown {α : Type} {name : String} (unknown : h.service.hub.idOf? name = none)
    (k : ToolId → Act Hub α) :
    (h.doing (hubOf.work (Hub.require name >>= k)) fun _ => none).1 = .error (.toolNotFound name) :=
  doing_fails (congrArg Prod.fst (Hub.outcome_unknown unknown k))

theorem answer_noFactory {name : String} (named : name ≠ "") :
    (h.answer (.registerKind name none)).1 = .error (.notAFactory name) := by
  have refused : h.registry.register name none = .error (.notAFactory name) := by
    unfold Registry.register
    rw [if_neg (by simpa using named)]
  unfold House.answer
  dsimp only
  rw [refused]

/-- A configuration over HTTP that changes nothing. -/
theorem answer_putConfig {tool : String} {r : HttpRequest} {fields : Fields} {reply sent : Reply}
    (asks : Asks r (.putConfig tool)) (reads : readBody Schema.fields r.body = .ok fields)
    (answer : (putConfig tool fields).outcome h.service = (.ok reply, h.service))
    (sends : reply.sent = .ok sent) : (h.answer (.putConfig tool r asks)).1 = .ok (some sent) := by
  have now : serveAt View.whole (.putConfig tool) (Address.ofText r.target) r.body =
      atOnce View.whole (putConfig tool fields) := by
    unfold serveAt given
    dsimp only
    rw [reads]
  have served : ((serve View.whole r).outcome h.service).1 = .ok ⟨sent, none⟩ := by
    rw [outcome_serve asks now, answer]
    show reply.sent.map _ = _
    rw [sends]
    rfl
  exact doing_tells served

end

section
variable {tool : String} {fields : Fields} {s : Service}

theorem putConfig_nowhere (unknown : s.hub.idOf? tool = none) :
    (putConfig tool fields).outcome s = (.ok (.refusal 404 (Fault.toolNotFound tool).message), s) := by
  unfold putConfig withTool
  rw [Act.outcome_bind_ok (Act.outcome_get s), unknown]
  rfl

theorem putConfig_unfit {i : ToolId} {t : Tool} {model : String} {issues : List SchemaIssue}
    (leads : s.hub.idOf? tool = some i) (there : s.hub.toolAt? i = some t)
    (bad : Config.ofJson s.hub.world.settings t.configKind
      (.obj (fields.foldl (fun d p => setNamed d p.1 p.2) [("tool_name", .str tool)])) =
        .error (.schema model issues)) :
    (putConfig tool fields).outcome s = (.ok (.unfitConfig model issues), s) := by
  have found : (inHub (Hub.toolAt i)).outcome s = (.ok t, s) :=
    congrArg (fun came => (came.1, hubView.set s came.2)) (Hub.outcome_toolAt there)
  unfold putConfig withTool
  rw [Act.outcome_bind_ok (Act.outcome_get s), leads]
  dsimp only
  rw [Act.outcome_bind_ok found, Act.outcome_bind_ok (Act.outcome_get s), bad]
  rfl

end

theorem Mistaken.answered {h : House} {c : Call} {e : Answered} (mistake : Mistaken h c e) :
    (h.answer c).1 = e := by
  cases mistake with
  | noTool => rfl
  | nameless blank => exact doing_fails (congrArg Prod.fst (Hub.register_nameless blank _))
  | namelessKind f => rfl
  | noFactory named => exact answer_noFactory named
  | configures unknown o => exact doing_unknown unknown _
  | misfit leads there other =>
    exact doing_fails (congrArg Prod.fst (Hub.configure_misfit leads there other))
  | asks unknown => exact doing_unknown unknown _
  | validates unknown => exact doing_unknown unknown _
  | validatesMany order fine unknown => exact doing_fails (Hub.validateMany_unknown order fine unknown)
  | runs unknown r => exact doing_fails (by rw [outcome_runSingle_unknown unknown])
  | unavailable leads missing r =>
    refine doing_fails ?_
    rw [outcome_runSingle_missing leads (Prod.ext missing rfl) (by simp)]
    rfl
  | noNames r => rfl
  | unknownName known unknown r => exact doing_fails (by rw [outcome_runBatch_unknown known unknown])
  | putsNowhere asks reads unknown =>
    exact answer_putConfig asks reads (putConfig_nowhere unknown) rfl
  | putsUnfit asks reads leads there bad sends =>
    exact answer_putConfig asks reads (putConfig_unfit leads there bad) sends

theorem Mistaken.refused {h : House} {c : Call} {e : Answered} (mistake : Mistaken h c e) :
    c.Refused e := by
  cases mistake with
  | putsNowhere => exact .inr rfl
  | @putsUnfit tool r fields i t model issues reply asks reads leads there bad sends =>
    refine .inl ?_
    unfold Reply.sent at sends
    split at sends <;> cases sends
    rfl
  | _ => rfl

theorem Mistaken.not_starts {h : House} {c : Call} {e : Answered} (mistake : Mistaken h c e) :
    ¬ c.Starts h := by
  cases mistake with
  | runs unknown r =>
    rintro ⟨i, leads, -⟩
    rw [unknown] at leads
    cases leads
  | unavailable leads missing r =>
    rintro ⟨i, leads', found⟩
    rw [leads] at leads'
    cases leads'
    rw [missing] at found
    cases found
  | _ => exact id

/-! ## The law -/

theorem untouched_of_refused {h : House} {c : Call} (before : ¬ c.Starts h)
    (refused : c.Refused (h.answer c).1) : h.Untouched (h.answer c).2 := by
  cases c with
  | register t => exact untouched_of_undone (Hub.register_undone t) refused
  | registerKind name f =>
    unfold House.answer at refused ⊢
    dsimp only at refused ⊢
    cases registered : h.registry.register name f with
    | ok g =>
      rw [registered] at refused
      cases refused
    | error e => exact .refl h
  | configure name o => exact untouched_of_undone (Hub.configure_undone name o) refused
  | configuration name => exact untouched_of_undone (Hub.configuration_still name).undone refused
  | validate name => exact untouched_of_undone (Hub.validate_still name).undone refused
  | validateMany names => exact untouched_of_undone (Hub.validateMany_still names).undone refused
  | runSingle name r =>
    refine untouched_doing (fun f s' fails _ => ?_) refused
    have looked := runSingle_looked before r
    rw [fails] at looked
    exact looked
  | runBatch names r =>
    refine untouched_doing (fun f s' fails mistake => ?_) refused
    exact runBatch_looked fails mistake
  | putConfig tool r asks =>
    unfold House.answer House.doing at refused ⊢
    dsimp only at refused ⊢
    rcases came : (serve View.whole r).outcome h.service with ⟨f | served, s'⟩ <;> rw [came] at refused
    · cases refused
    · rw [putConfig_untouched asks came refused]
      exact .refl h

structure RefusalLaw (h : House) (c : Call) : Prop where
  /-- A mistake is told before any tool is started. -/
  told : ∀ e, Mistaken h c e → (h.answer c).1 = e ∧ c.Refused e ∧ ¬ c.Starts h
  /-- Whatever a call is refused for, nothing has changed if it started no tool. -/
  untouched : c.Refused (h.answer c).1 → ¬ c.Starts h → h.Untouched (h.answer c).2

/-- Refused calls change nothing. -/
theorem refused_calls_change_nothing (h : House) (c : Call) : RefusalLaw h c where
  told _ mistake := ⟨mistake.answered, mistake.refused, mistake.not_starts⟩
  untouched refused before := untouched_of_refused before refused

end Http.Service

end LintHub
