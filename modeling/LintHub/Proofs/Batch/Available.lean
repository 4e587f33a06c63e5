import Mathlib.Data.List.Nodup
import LintHub.Proofs.Batch.Cancel
import LintHub.Proofs.Work.Faults

/-! # Which tools are available

A hub is asked which of its tools are available: those whose program is found. Every tool looks for
its program once, whatever it is needed for first, and says ever after what it found then. The law
covers all that is done with a hub from its making on, by calls that go on at the same time, while the
world changes: what a tool says was true when it first looked, and the answer is true now exactly as
long as nothing has changed since.
-/

namespace LintHub

/-- Nothing has been looked for. -/
def Tool.Fresh (t : Tool) : Prop :=
  ∀ a path, t.probe ≠ .program a (some path)

namespace Probe

/-- Whether a tool that knows this much says that it is available. -/
def shown (w : World) : Probe → Except Fault Bool
  | laid available => .ok available
  | program a known => (path w a known).map (!·.isEmpty)

/-- Whether the program can be located now. -/
def located (w : World) : Probe → Except Fault Bool
  | laid available => .ok available
  | program a _ => (Bench.locate w a).map (!·.isEmpty)

theorem shown_looked (w : World) (p : Probe) : (p.looked w).shown w = p.shown w := by
  rcases p with _ | ⟨a, _ | found⟩
  · rfl
  · unfold looked shown path
    dsimp only
    cases found : Bench.locate w a with
    | ok here => rfl
    | error f =>
      simp only [Except.toOption]
  · rfl

theorem shown_error_iff {w : World} {p : Probe} {f : Fault} :
    p.shown w = .error f ↔ ∃ a, p = .program a none ∧ Bench.locate w a = .error f := by
  rcases p with _ | ⟨a, _ | found⟩
  · simp [shown]
  · simp only [shown, path, map_error_iff, program.injEq, and_true, exists_eq_left']
  · simp [shown, path, Except.map]

/-- A tool says what is true now exactly if it has not looked yet or would find the same. -/
theorem shown_eq_located_iff {w : World} {p : Probe} :
    p.shown w = p.located w ↔ ∀ a found, p = .program a (some found) →
      (Bench.locate w a).map (·.isEmpty) = .ok found.isEmpty := by
  rcases p with _ | ⟨a, _ | found⟩
  · simp [shown, located]
  · simp [shown, located, path]
  · simp only [shown, located, path, program.injEq, Option.some.injEq, and_imp, forall_apply_eq_imp_iff,
      forall_eq']
    cases Bench.locate w a with
    | error f => simp [Except.map]
    | ok here => simp [Except.map, eq_comm]

end Probe

namespace Hub

/-! ## The answer -/

/-- What is told of the tool at a place, by what it knows of its program. -/
def tells (look : World → Probe → Except Fault Bool) (h : Hub) (i : ToolId) : Except Fault Bool :=
  match h.probe? i with
  | none => .error (.toolNotFound "")
  | some p => look h.world p

/-- The names, in their order, of the tools of which it is told that they are available. -/
def listed (look : World → Probe → Except Fault Bool) (h : Hub) : Except Fault (List String) :=
  (h.names.filterM fun p => h.tells look p.2).map (·.map (·.1))

/-- The tool at a place has looked for its program. -/
def Settled (h : Hub) (i : ToolId) : Prop :=
  ∀ a, h.probe? i ≠ some (.program a none)

section
variable {look : World → Probe → Except Fault Bool} {h : Hub}

theorem tells_eq {i : ToolId} {known : Probe} (there : h.probe? i = some known) :
    h.tells look i = look h.world known := by
  unfold tells
  rw [there]

theorem listed_ok_iff {names : List String} : h.listed look = .ok names ↔
    (∀ p ∈ h.names, ∃ b, h.tells look p.2 = .ok b) ∧
      names = (h.names.filter fun p => (h.tells look p.2).toOption.getD false).map (·.1) := by
  unfold listed
  cases filtered : h.names.filterM fun p => h.tells look p.2 with
  | ok ps =>
    obtain ⟨all, rfl⟩ := filterM_ok_iff.mp filtered
    constructor
    · intro told
      cases told
      exact ⟨all, rfl⟩
    · rintro ⟨-, rfl⟩
      rfl
  | error f =>
    refine ⟨fun told => (nomatch told), fun both => ?_⟩
    rw [filterM_ok_iff.mpr ⟨both.1, rfl⟩] at filtered
    cases filtered

theorem listed_error_iff : (∃ f, h.listed look = .error f) ↔
    ∃ p ∈ h.names, ∃ f, h.tells look p.2 = .error f := by
  constructor
  · rintro ⟨f, fails⟩
    by_contra none
    have all : ∀ p ∈ h.names, ∃ b, h.tells look p.2 = .ok b := fun p mem => by
      cases told : h.tells look p.2 with
      | ok b => exact ⟨b, rfl⟩
      | error f => exact absurd ⟨p, mem, f, told⟩ none
    rw [listed_ok_iff.mpr ⟨all, rfl⟩] at fails
    cases fails
  · rintro ⟨p, mem, f, fails⟩
    cases told : h.listed look with
    | error f => exact ⟨f, rfl⟩
    | ok names =>
      obtain ⟨b, answers⟩ := (listed_ok_iff.mp told).1 p mem
      rw [fails] at answers
      cases answers

end

/-- Of what is filtered by distinct names the names tell which tests were passed. -/
theorem same_of_names {ps : List (String × ToolId)} {f g : String × ToolId → Bool}
    (distinct : (ps.map (·.1)).Nodup) (same : (ps.filter f).map (·.1) = (ps.filter g).map (·.1)) :
    ∀ p ∈ ps, f p = g p := by
  have passed (f : String × ToolId → Bool) (p) (mem : p ∈ ps) :
      f p = true ↔ p.1 ∈ (ps.filter f).map (·.1) := by
    constructor
    · exact fun passes => List.mem_map_of_mem (List.mem_filter.mpr ⟨mem, passes⟩)
    · intro named
      obtain ⟨p', kept, same⟩ := List.mem_map.mp named
      obtain ⟨mem', passes⟩ := List.mem_filter.mp kept
      rw [List.inj_on_of_nodup_map distinct mem' mem same] at passes
      exact passes
  intro p mem
  rw [Bool.eq_iff_iff, passed f p mem, passed g p mem, same]

theorem probe?_setBench_self {i : ToolId} {h : Hub} {r : Runner}
    (ht : h.toolAt? i = some (.external r)) (b : Bench) :
    (h.setBench i b).probe? i = some b.runner.probe := by
  unfold probe? toolAt? setBench
  rw [List.getElem?_modify_eq, show h.tools[i]? = _ from ht]
  rfl

theorem outcome_isAvailable_tells (i : ToolId) (h : Hub) :
    ((isAvailable i).outcome h).1 = h.tells Probe.shown i := by
  unfold tells probe?
  cases ht : h.toolAt? i with
  | none =>
    rw [outcome_isAvailable_none ht]
    rfl
  | some t =>
    cases t with
    | scripted t =>
      rw [outcome_isAvailable_scripted ht]
      rfl
    | external r =>
      rw [outcome_isAvailable_external ht]
      show (Bench.seen _).map _ = (Probe.path h.world r.adapter r.path).map _
      unfold Bench.seen Probe.path
      cases r.path <;> rfl

theorem isAvailable_settles {i : ToolId} {h h' : Hub} {b : Bool}
    (told : (isAvailable i).outcome h = (.ok b, h')) : h'.Settled i := by
  intro a unknown
  have answered : ((isAvailable i).outcome h).1 = .ok b := by rw [told]
  cases ht : h.toolAt? i with
  | none =>
    rw [outcome_isAvailable_none ht] at told
    cases told
  | some t =>
    cases t with
    | scripted t =>
      rw [outcome_isAvailable_scripted ht] at told
      cases told
      rw [probe?, ht] at unknown
      cases unknown
    | external r =>
      rw [outcome_isAvailable_external ht] at told answered
      obtain ⟨-, rfl⟩ := Prod.mk.inj told
      rw [probe?_setBench_self ht] at unknown
      cases found : (⟨r, h.world⟩ : Bench).seen with
      | error f =>
        rw [found] at answered
        cases answered
      | ok path =>
        rw [Bench.looked, found] at unknown
        cases unknown

theorem Looks.tells {h h' : Hub} (looks : Looks h h') (i : ToolId) :
    h'.tells Probe.shown i = h.tells Probe.shown i := by
  unfold Hub.tells
  rw [looks.world]
  rcases looks.probes i with same | looked
  · rw [same]
  · rw [looked]
    cases h.probe? i with
    | none => rfl
    | some p => exact Probe.shown_looked h.world p

theorem Looks.settled {h h' : Hub} (looks : Looks h h') {i : ToolId} (settled : h.Settled i) :
    h'.Settled i := by
  intro a unknown
  rcases looks.probes i with same | looked
  · exact settled a (same.symm.trans unknown)
  · rw [looked] at unknown
    cases known : h.probe? i with
    | none =>
      rw [known] at unknown
      cases unknown
    | some p =>
      rw [known] at unknown
      rcases p with _ | ⟨a', _ | path⟩
      · cases unknown
      · exact settled a' known
      · cases unknown

theorem named_looks (p : String × ToolId) : Act.Within Looks (isAvailable p.2) :=
  isAvailable_looks p.2

theorem outcome_available (h : Hub) : (available.outcome h).1 = h.listed Probe.shown := by
  have told (p : String × ToolId) (t : Hub) (looks : Looks h t) :
      ((isAvailable p.2).outcome t).1 = h.tells Probe.shown p.2 := by
    rw [outcome_isAvailable_tells, looks.tells]
  have all := Act.filterM_tells named_looks (fun _ _ _ => Looks.trans) told h.names (Looks.refl h)
  have names (m : Act Hub (List (String × ToolId))) :
      ((do return (← m).map (·.1) : Act Hub (List String)).outcome h).1 =
        (m.outcome h).1.map (·.map (·.1)) := by
    rw [Act.outcome_bind]
    rcases m.outcome h with ⟨e | ps, t⟩ <;> rfl
  unfold available listed
  rw [Act.outcome_bind_ok (Act.outcome_get h)]
  exact (names _).trans (congrArg _ all)

/-- After an answer every registered tool has looked for its program. -/
theorem available_settles {h h' : Hub} {names : List String}
    (told : available.outcome h = (.ok names, h')) : ∀ p ∈ h.names, h'.Settled p.2 := by
  unfold available at told
  rw [Act.outcome_bind_ok (Act.outcome_get h)] at told
  obtain ⟨ps, t, filtered, rest⟩ := Act.outcome_bind_ok_iff.mp told
  cases rest
  have brings (p : String × ToolId) (s : Hub) (b : Bool) (t : Hub)
      (told : (isAvailable p.2).outcome s = (.ok b, t)) : t.Settled p.2 := isAvailable_settles told
  have stays (p : String × ToolId) (s t : Hub) (looks : Looks s t) (settled : s.Settled p.2) :
      t.Settled p.2 := looks.settled settled
  exact Act.filterM_leaves named_looks brings stays filtered

namespace Availability

/-! ## What is done with a hub -/

/-- What a single tool is used for. -/
inductive Use where
  | path
  | version
  | available
  | commandLine (r : Request)
  | configure (o : Offer)
  | validate
  | validateFor (r : Request)
  | execute (r : Request)
  | start (r : Request) (l : Listeners Hub)
  | cancel
  | stop
  | analysisOfFile (output source : String)

/-- What is done with a hub, or happens around it. -/
inductive Deed where
  | register (t : Option Tool)
  | available
  | isAvailable (name : String)
  | configure (name : String) (o : Offer)
  | configuration (name : String)
  | validate (names : List String)
  /-- A cancel, a single run or a batch. -/
  | call (c : Call)
  | shutdown
  | use (i : ToolId) (u : Use)
  /-- Whatever else happens in the world: programs come and go, files and settings change, reports are
  kept. -/
  | outside (m : Act World Unit)

section
variable {α : Type}

/-- Work whose answer is left out. -/
def doing (m : Act Hub α) : Work Hub Unit := do
  discard (View.whole.work m)

def Use.work (i : ToolId) : Use → Work Hub Unit
  | path => doing (pathOf i)
  | version => doing (versionOf i)
  | available => doing (Hub.isAvailable i)
  | commandLine r => doing (Hub.commandLine i r)
  | configure o => doing (configureAt i o)
  | validate => doing (validateAt i)
  | validateFor r => doing (validateForAt i r)
  | execute r => do discard (Hub.execute View.whole i r)
  | start r l => do discard (Hub.start View.whole i r l)
  | cancel => doing (cancelTool i)
  | stop => doing (stopTool i)
  | analysisOfFile output source => doing (Hub.analysisOfFile i output source)

def Deed.work : Deed → Work Hub Unit
  | register t => doing (Hub.register t)
  | available => doing Hub.available
  | isAvailable name => doing (isToolAvailable name)
  | configure name o => doing (Hub.configure name o)
  | configuration name => doing (Hub.configuration name)
  | validate names => doing (validateMany names)
  | call c => c.work
  | shutdown => doing Hub.shutdown
  | use i u => u.work i
  | outside m => doing (inWorld m)

/-- One step of all that is done with a hub: a tool that has not looked for its program is registered,
or tools know what they knew or what they learn from looking now. -/
inductive Goes (h : Hub) : Hub → Prop where
  | sees {h' : Hub} (sees : Sees h h') : Goes h h'
  | enters {t : Tool} (fresh : t.Fresh) (w : World) : Goes h { h.enter t with world := w }

/-- Tools are new when they are registered, and those who listen do what can be done with a hub. -/
def Deed.Fair : Deed → Prop
  | register t => ∀ t', t = some t' → t'.Fresh
  | call c => c.Callbacks Goes
  | use _ (.start _ l) => l.Within Goes
  | _ => True

theorem Goes.refl (h : Hub) : Goes h h :=
  .sees (Rests.refl h).sees

theorem doing_goes {m : Act Hub α} (hm : Act.Within Goes m) : Work.Within Goes (doing m) :=
  .bind (.work hm) fun _ => .pure _

theorem doing_sees {m : Act Hub α} (hm : Act.Within Sees m) : Work.Within Goes (doing m) :=
  doing_goes fun h => .sees (hm h)

theorem doing_looks {m : Act Hub α} (hm : Act.Within Looks m) : Work.Within Goes (doing m) :=
  doing_sees fun h => (hm h).toSees

theorem doing_rests {m : Act Hub α} (hm : Act.Within Rests m) : Work.Within Goes (doing m) :=
  doing_sees fun h => (hm h).sees

theorem register_goes {t : Option Tool} (fresh : ∀ t', t = some t' → t'.Fresh) :
    Act.Within Goes (register t) := by
  intro h
  cases t with
  | none => exact .refl h
  | some t =>
    by_cases named : t.name = ""
    · unfold register
      simp only [String.isEmpty_iff, if_pos named]
      exact .refl h
    · rw [outcome_register named]
      exact .enters (fresh t rfl) _

theorem available_looks : Act.Within Looks available := by
  refine .bind Looks.refl (fun h => ?_) fun _ _ _ => Looks.trans
  refine .bind ?_ (fun _ => Looks.refl) fun _ _ _ => Looks.trans
  exact .filterM named_looks Looks.refl (fun _ _ _ => Looks.trans) _

theorem isToolAvailable_looks (name : String) : Act.Within Looks (isToolAvailable name) := by
  refine .bind Looks.refl (fun h => ?_) fun _ _ _ => Looks.trans
  cases h.idOf? name with
  | none => exact Looks.refl
  | some i => exact isAvailable_looks i

theorem call_goes {c : Call} (callbacks : c.Callbacks Goes) : Work.Within Goes c.work := by
  have goes (h h' : Hub) (sees : Sees h h') : Goes h h' := .sees sees
  cases c with
  | cancel => exact doing_rests cancel_rests
  | single name r => exact .bind (runSingle_bounded (v := View.whole) goes name r) fun _ => .pure _
  | batch names r => exact .bind (runBatch_bounded (v := View.whole) goes names r) fun _ => .pure _
  | background names r listener completion =>
    refine .bind (rests_within (v := View.whole) goes submit_rests) fun _ => ?_
    exact .bind (task_bounded (v := View.whole) goes callbacks.1 callbacks.2 names r) fun _ => .pure _

theorem use_goes {i : ToolId} {u : Use} (fair : (Deed.use i u).Fair) : Work.Within Goes (u.work i) := by
  have goes (h h' : Hub) (_ : Steady h h') (sees : Sees h h') : Goes h h' := .sees sees
  cases u with
  | path => exact doing_looks (pathOf_looks i)
  | version => exact doing_sees (versionOf_sees i)
  | available => exact doing_looks (isAvailable_looks i)
  | commandLine r => exact doing_looks (commandLine_looks i r)
  | configure o => exact doing_rests (configureAt_rests i o)
  | validate => exact doing_rests (still_rests (validateAt_still i))
  | validateFor r => exact doing_rests (still_rests (outcome_validateForAt_state i r))
  | execute r => exact .bind (execute_bounded (v := View.whole) goes i r) fun _ => .pure _
  | start r l => exact .bind (start_bounded (v := View.whole) goes i r fair) fun _ => .pure _
  | cancel => exact doing_rests (cancelTool_rests i)
  | stop => exact doing_rests (stopTool_rests i)
  | analysisOfFile output source => exact doing_rests (analysisOfFile_rests i output source)

theorem deed_goes {d : Deed} (fair : d.Fair) : Work.Within Goes d.work := by
  cases d with
  | register t => exact doing_goes (register_goes fair)
  | available => exact doing_looks available_looks
  | isAvailable name => exact doing_looks (isToolAvailable_looks name)
  | configure name o =>
    exact doing_rests (Rests.bind (still_rests (require_still name)) fun i => configureAt_rests i o)
  | configuration name => exact doing_rests (still_rests (configuration_still name))
  | validate names => exact doing_rests (still_rests (validateMany_still names))
  | call c => exact call_goes fair
  | shutdown => exact doing_rests shutdown_rests
  | use i u => exact use_goes fair
  | outside m => exact doing_rests (inWorld_rests m)

end

/-! ## Histories -/

/-- Calls of all sorts come at any time, and go on together. -/
def Comes (r : Routine Hub (Except Fault Unit)) : Prop :=
  ∃ d : Deed, d.Fair ∧ d.work.run = r

/-- What can have happened since a hub was made. -/
def History (w : World) (q : Pool Hub (Routine Hub (Except Fault Unit))) : Prop :=
  Happens Comes ⟨Hub.new w, []⟩ q

theorem comes_within (r : Routine Hub (Except Fault Unit)) (came : Comes r) : r.Within Goes := by
  obtain ⟨d, fair, rfl⟩ := came
  exact deed_goes fair

/-- The tool at a place looked for its program at an earlier moment, for the first time, and found it
where it was then. -/
def FirstLook (w : World) (q : Pool Hub (Routine Hub (Except Fault Unit))) (i : ToolId) (a : Adapter)
    (found : String) : Prop :=
  ∃ q₁, History w q₁ ∧ Happens Comes q₁ q ∧ q₁.state.probe? i = some (.program a none) ∧
    Bench.locate q₁.state.world a = .ok found

section
variable {w : World} {q : Pool Hub (Routine Hub (Except Fault Unit))} (history : History w q)
include history

/-- By induction on the history of a hub. -/
theorem History.follow {P : Pool Hub (Routine Hub (Except Fault Unit)) → Prop}
    (start : P ⟨Hub.new w, []⟩) (goes : ∀ q q', History w q → Happens Comes q q' →
      Goes q.state q'.state → P q → P q') : P q :=
  Happens.follow Goes.refl comes_within (by simp) start goes history

/-- No name comes twice, and every name leads to a tool. -/
structure Registered (h : Hub) : Prop where
  distinct : (h.names.map (·.1)).Nodup
  there : ∀ p ∈ h.names, ∃ known, h.probe? p.2 = some known

omit history in
theorem probe?_enter (h : Hub) (t : Tool) (w : World) (i : ToolId) :
    ({ h.enter t with world := w } : Hub).probe? i =
      if i = h.tools.length then some t.probe else h.probe? i := by
  unfold probe? toolAt? enter
  dsimp only
  split
  · next last =>
    rw [last, List.getElem?_concat_length]
    rfl
  · next other =>
    rw [List.getElem?_append]
    split
    · rfl
    · next outside =>
      have behind : h.tools.length < i := Nat.lt_of_le_of_ne (Nat.le_of_not_lt outside) (Ne.symm other)
      rw [List.getElem?_singleton, if_neg (Nat.sub_ne_zero_of_lt behind),
        List.getElem?_eq_none (Nat.le_of_not_lt outside)]

omit history in
theorem Registered.goes {h h' : Hub} (registered : Registered h) (goes : Goes h h') :
    Registered h' := by
  cases goes with
  | sees sees =>
    refine ⟨sees.names ▸ registered.distinct, fun p mem => ?_⟩
    rw [sees.names] at mem
    obtain ⟨known, there⟩ := registered.there p mem
    rcases sees.probes p.2 with same | looked
    · exact ⟨known, same.trans there⟩
    · exact ⟨_, looked.trans (by rw [there]; rfl)⟩
  | @enters t fresh w =>
    constructor
    · show ((setNamed h.names t.name h.tools.length).map (·.1)).Nodup
      exact nodup_setNamed registered.distinct
    · intro p mem
      rw [probe?_enter]
      split
      · exact ⟨_, rfl⟩
      · next old =>
        have mem : p ∈ setNamed h.names t.name h.tools.length := mem
        rcases mem_setNamed mem with old' | rfl
        · exact registered.there p old'
        · exact absurd rfl old

theorem History.registered : Registered q.state :=
  history.follow (P := fun q => Registered q.state) ⟨by simp [Hub.new], by simp [Hub.new]⟩
    fun _ _ _ _ goes registered => registered.goes goes

/-- What a tool has found it found when it first looked. -/
theorem History.first {i : ToolId} {a : Adapter} {found : String}
    (known : q.state.probe? i = some (.program a (some found))) : FirstLook w q i a found := by
  revert known
  refine history.follow (P := fun q => q.state.probe? i = some (.program a (some found)) →
    FirstLook w q i a found) (fun known => by cases known) fun q q' before after goes earlier known => ?_
  have later (same : q.state.probe? i = some (.program a (some found))) : FirstLook w q' i a found := by
    obtain ⟨q₁, looked, since, unlooked, here⟩ := earlier same
    exact ⟨q₁, looked, since.trans after, unlooked, here⟩
  rcases q' with ⟨h', rs⟩
  cases goes with
  | sees sees =>
    rcases sees.probes i with same | looked
    · exact later (same.symm.trans known)
    · have learnt := looked.symm.trans known
      cases knew : q.state.probe? i with
      | none =>
        rw [knew] at learnt
        cases learnt
      | some p =>
        rw [knew] at learnt
        rcases p with _ | ⟨a', _ | path⟩
        · cases learnt
        · simp only [Option.map_some, Probe.looked, Probe.path, Option.some.injEq, Probe.program.injEq]
            at learnt
          obtain ⟨rfl, here⟩ := learnt
          refine ⟨q, before, after, knew, ?_⟩
          cases located : Bench.locate q.state.world a' with
          | error f =>
            rw [located] at here
            cases here
          | ok path =>
            rw [located] at here
            cases here
            rfl
        · cases learnt
          exact later knew
  | @enters t fresh w =>
    rw [probe?_enter] at known
    split at known
    · exact absurd (Option.some.inj known) (fresh a found)
    · exact later known

/-- A tool looks once. -/
theorem History.kept {i : ToolId} {a : Adapter} {found : String}
    (known : q.state.probe? i = some (.program a (some found)))
    {q' : Pool Hub (Routine Hub (Except Fault Unit))} (after : Happens Comes q q') :
    q'.state.probe? i = some (.program a (some found)) := by
  have calls := Happens.within comes_within (by simp) history
  refine after.follow (P := fun q => q.state.probe? i = some (.program a (some found))) Goes.refl
    comes_within calls known fun q q' _ _ goes known => ?_
  rcases q' with ⟨h', rs⟩
  cases goes with
  | sees sees =>
    rcases sees.probes i with same | looked
    · exact same.trans known
    · rw [looked, known]
      rfl
  | @enters t fresh w =>
    rw [probe?_enter, if_neg, known]
    intro last
    rw [probe?, toolAt?, last, List.getElem?_eq_none (Nat.le_refl _)] at known
    cases known

end

/-! ## The law -/

/-- What holds of a hub at any moment of its history. -/
structure AvailabilityLaw (w : World) (q : Pool Hub (Routine Hub (Except Fault Unit))) : Prop where
  /-- The answer: in the order of their names, the tools that say that they are available. -/
  answer : (available.outcome q.state).1 = q.state.listed Probe.shown
  /-- There is none exactly if a tool that has yet to look for its program cannot do so. -/
  refused : (∃ f, (available.outcome q.state).1 = .error f) ↔
    ∃ p ∈ q.state.names, ∃ a f, q.state.probe? p.2 = some (.program a none) ∧
      Bench.locate q.state.world a = .error f
  /-- It is the list of the tools whose program can be located now, exactly if all tools that have
  looked would come to the same now. -/
  current : ∀ now, q.state.listed Probe.located = .ok now →
    ((available.outcome q.state).1 = .ok now ↔ ∀ p ∈ q.state.names, ∀ a found,
      q.state.probe? p.2 = some (.program a (some found)) →
        (Bench.locate q.state.world a).map (·.isEmpty) = .ok found.isEmpty)
  /-- What a tool has found was there when it first looked. -/
  first : ∀ i a found, q.state.probe? i = some (.program a (some found)) → FirstLook w q i a found
  /-- It says so ever after. -/
  kept : ∀ i a found, q.state.probe? i = some (.program a (some found)) →
    ∀ q', Happens Comes q q' → q'.state.probe? i = some (.program a (some found))
  /-- After an answer all registered tools have looked. -/
  settles : ∀ names h', available.outcome q.state = (.ok names, h') →
    ∀ p ∈ q.state.names, h'.Settled p.2

theorem refused_iff {h : Hub} (registered : Registered h) :
    (∃ f, h.listed Probe.shown = .error f) ↔
      ∃ p ∈ h.names, ∃ a f, h.probe? p.2 = some (.program a none) ∧
        Bench.locate h.world a = .error f := by
  rw [listed_error_iff]
  refine exists_congr fun p => and_congr_right fun mem => ?_
  obtain ⟨known, there⟩ := registered.there p mem
  rw [tells_eq there, there]
  simp only [Probe.shown_error_iff, Option.some.injEq]
  exact exists_comm

theorem current_iff {h : Hub} (registered : Registered h) {now : List String}
    (locates : h.listed Probe.located = .ok now) : h.listed Probe.shown = .ok now ↔
      ∀ p ∈ h.names, ∀ a found, h.probe? p.2 = some (.program a (some found)) →
        (Bench.locate h.world a).map (·.isEmpty) = .ok found.isEmpty := by
  have agrees (p) (mem : p ∈ h.names) : h.tells Probe.shown p.2 = h.tells Probe.located p.2 ↔
      ∀ a found, h.probe? p.2 = some (.program a (some found)) →
        (Bench.locate h.world a).map (·.isEmpty) = .ok found.isEmpty := by
    obtain ⟨known, there⟩ := registered.there p mem
    rw [tells_eq there, tells_eq there, Probe.shown_eq_located_iff, there]
    simp only [Option.some.injEq]
  obtain ⟨all, rfl⟩ := listed_ok_iff.mp locates
  constructor
  · intro told p mem
    obtain ⟨shown, names⟩ := listed_ok_iff.mp told
    have same := same_of_names registered.distinct names p mem
    obtain ⟨b, told'⟩ := shown p mem
    obtain ⟨b', now⟩ := all p mem
    rw [told', now] at same
    cases same
    exact (agrees p mem).mp (told'.trans now.symm)
  · intro found
    have same (p) (mem : p ∈ h.names) := (agrees p mem).mpr (found p mem)
    refine listed_ok_iff.mpr ⟨fun p mem => same p mem ▸ all p mem, congrArg _ ?_⟩
    exact List.filter_congr fun p mem => by rw [same p mem]

theorem availability_as_first_looked {w : World} {q : Pool Hub (Routine Hub (Except Fault Unit))}
    (history : History w q) : AvailabilityLaw w q where
  answer := outcome_available q.state
  refused := by
    rw [outcome_available]
    exact refused_iff history.registered
  current := fun now locates => by
    rw [outcome_available]
    exact current_iff history.registered locates
  first := fun _ _ _ known => history.first known
  kept := fun _ _ _ known _ after => history.kept known after
  settles := fun _ _ told => available_settles told

/-! ## One call after the other -/

/-- The hub after some deeds, each of them done before the next. -/
def after (h : Hub) (ds : List Deed) : Hub :=
  ds.foldl (fun h d => (d.work.outcome h).2) h

theorem History.after {w : World} {h : Hub} {rs : List (Routine Hub (Except Fault Unit))}
    (history : History w ⟨h, rs⟩) {ds : List Deed} (fair : ∀ d ∈ ds, d.Fair) :
    ∃ rs, History w ⟨Availability.after h ds, rs⟩ := by
  induction ds generalizing h rs with
  | nil => exact ⟨rs, history⟩
  | cons d ds ih =>
    have came : Comes d.work.run := ⟨d, fair d (List.mem_cons_self ..), rfl⟩
    exact ih (Happens.whole history came) fun d' mem => fair d' (List.mem_cons_of_mem _ mem)

/-- A world in which ruff is found by its name, and no other program. -/
def onlyRuff : World :=
  { World.bare .default with programs := [("ruff", "/usr/bin/ruff")] }

/-- Ruff and bandit are registered and asked for while there is only ruff, which then goes; bandit
comes. -/
def swapped : List Deed :=
  [.register (some (.external (.new .ruff))), .register (some (.external (.new .bandit))), .available,
    .outside (modify fun w => { w with programs := [("bandit", "/usr/bin/bandit")] })]

theorem swapped_fair : ∀ d ∈ swapped, d.Fair := by
  intro d mem
  simp only [swapped, List.mem_cons, List.not_mem_nil, or_false] at mem
  rcases mem with rfl | rfl | rfl | rfl
  · intro t is a path known
    cases is
    cases known
  · intro t is a path known
    cases is
    cases known
  · trivial
  · trivial

/-- What is told in the end, and what is there. -/
theorem stale_swapped : (available.outcome (after (Hub.new onlyRuff) swapped)).1 = .ok ["ruff"] := rfl

theorem located_swapped : (after (Hub.new onlyRuff) swapped).listed Probe.located = .ok ["bandit"] := rfl

theorem availability_as_first_looked_swapped : ∃ rs,
    AvailabilityLaw onlyRuff ⟨after (Hub.new onlyRuff) swapped, rs⟩ ∧
      (available.outcome (after (Hub.new onlyRuff) swapped)).1 = .ok ["ruff"] ∧
      (after (Hub.new onlyRuff) swapped).listed Probe.located = .ok ["bandit"] := by
  obtain ⟨rs, history⟩ := History.after (w := onlyRuff) .none swapped_fair
  exact ⟨rs, availability_as_first_looked history, stale_swapped, located_swapped⟩

theorem not_every_answer_is_current : ¬ ∀ (w : World) (q : Pool Hub (Routine Hub (Except Fault Unit))),
    History w q → ∀ now, q.state.listed Probe.located = .ok now →
      (available.outcome q.state).1 = .ok now := by
  intro claim
  obtain ⟨rs, history⟩ := History.after (w := onlyRuff) .none swapped_fair
  have told := claim onlyRuff _ history ["bandit"] located_swapped
  exact absurd (Except.ok.inj (stale_swapped.symm.trans told)) (by decide)

end Availability

end Hub

end LintHub
