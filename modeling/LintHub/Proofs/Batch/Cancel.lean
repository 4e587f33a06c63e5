import LintHub.Proofs.Batch.Bounds
import LintHub.Proofs.Batch.Story

/-! # What becomes of a cancel

All batches look at one flag. What calls tell obeys one rule, however their steps come in between each
other: a batch that looks sees the flag as it is, and a tool is run only in a turn that began with a
look at a flag that was not set. A cancel is therefore kept until somebody takes it back, and
everybody who submits or runs something does.
-/

namespace LintHub.Hub

/-- A cancel is not taken back. -/
def Holds (h h' : Hub) : Prop :=
  h.cancelled = true → h'.cancelled = true

/-- The turn that a call is in: the name it looked at last, if it was not to stop. -/
def turnAfter (m : Option String) (e : Told) : Option String :=
  match e.what with
  | .looks name stopped => if stopped then none else some name
  | _ => m

/-- The rule of what is told. `R` is what those who listen keep. -/
structure Admits (R : Hub → Hub → Prop) (m : Option String) (h : Hub) (e : Told) (h' : Hub) :
    Prop where
  flag : e.flag = h'.cancelled
  keeps : e.what ≠ .clears → R h h'
  cancels : e.what = .cancels → h'.cancelled = true
  clears : e.what = .clears → h'.cancelled = false
  looks : ∀ name stopped, e.what = .looks name stopped →
    stopped = h.cancelled ∧ h'.cancelled = h.cancelled
  turn : ∀ name, e.what = .turn name → m = some name

theorem Steady.holds {h h' : Hub} (steady : Steady h h') : Holds h h' :=
  steady.cancelled

theorem steady_of_holds {R : Hub → Hub → Prop} (hR : ∀ h h', Holds h h' → R h h') (h h' : Hub)
    (steady : Steady h h') (_ : Sees h h') : R h h' :=
  hR h h' steady.holds

/-- A story that obeys the rule, whatever turn its call is in. -/
def Story.Fair {α : Type} (R : Hub → Hub → Prop) (w : Story α) : Prop :=
  ∀ m, Trail.Obeys (Admits R) turnAfter m w.run

section
variable {R : Hub → Hub → Prop} {α β : Type}

namespace Story.Fair

theorem pure (a : α) : Story.Fair R (Pure.pure a : Story α) := fun _ => trivial

theorem throw (f : Fault) : Story.Fair R (throw f : Story α) := fun _ => trivial

theorem ofExcept (e : Except Fault α) : Story.Fair R (Story.ofExcept e) := fun _ => trivial

theorem bind {w : Story α} {k : α → Story β} (hw : w.Fair R) (hk : ∀ a, (k a).Fair R) :
    Story.Fair R (w >>= k) := by
  intro m
  refine Trail.Obeys.bind (hw m) fun e m => ?_
  cases e with
  | ok a => exact hk a m
  | error f => trivial

theorem attempt {w : Story α} (hw : w.Fair R) : w.attempt.Fair R := fun m =>
  Trail.Obeys.bind (hw m) fun _ _ => trivial

theorem discard {w : Story α} (hw : w.Fair R) : Story.Fair R (discard w) := fun m =>
  Trail.Obeys.bind (hw m) fun e _ => by cases e <;> trivial

/-- Work outside of any turn. -/
theorem other {w : Work Hub α} (hw : Work.Within R w) : (Story.of (fun _ => .other) w).Fair R := by
  intro m
  refine Trail.Obeys.mark hw (fun _ _ => rfl) fun h h' held => ?_
  exact ⟨rfl, fun _ => held, by simp, by simp, by simp, by simp⟩

theorem cancels {m : Act Hub α} (hR : ∀ h, R h (m.outcome h).2)
    (hm : ∀ h, (m.outcome h).2.cancelled = true) :
    (Story.of (fun _ => .cancels) (View.whole.work m)).Fair R := by
  intro mode
  have set : Work.Within (fun h h' => R h h' ∧ h'.cancelled = true) (View.whole.work m) :=
    .work fun h => ⟨hR h, hm h⟩
  refine Trail.Obeys.mark set (fun _ _ => rfl) fun h h' held => ?_
  exact ⟨rfl, fun _ => held.1, fun _ => held.2, by simp, by simp, by simp⟩

theorem clears {m : Act Hub α} (hm : ∀ h, (m.outcome h).2.cancelled = false) :
    (Story.of (fun _ => .clears) (View.whole.work m)).Fair R := by
  intro mode
  have cleared : Work.Within (fun _ h' => h'.cancelled = false) (View.whole.work m) :=
    .work fun h => hm h
  refine Trail.Obeys.mark cleared (fun _ _ => rfl) fun h h' held => ?_
  exact ⟨rfl, by simp, by simp, fun _ => held, by simp, by simp⟩

end Story.Fair

/-- In the turn of a tool. -/
theorem turn_obeys {w : Work Hub α} (hw : Work.Within R w) (name : String) :
    Trail.Obeys (Admits R) turnAfter (some name) (Story.of (fun _ => .turn name) w).run := by
  refine Trail.Obeys.mark hw (fun _ _ => rfl) fun h h' held => ?_
  exact ⟨rfl, fun _ => held, by simp, by simp, by simp, by simp⟩

/-! ## The stories of the calls -/

theorem telling_fair {completion : Option (List Analysis → Work Hub Unit)}
    (hc : ∀ f, completion = some f → ∀ as, Work.Within R (f as)) (as : List Analysis) :
    (Story.of (fun _ => .other)
      (match completion with
      | none => pure ()
      | some f => f as)).Fair R := by
  refine .other ?_
  cases completion with
  | none => exact .pure _
  | some f => exact hc f rfl as

variable (hR : ∀ h h', Holds h h' → R h h')
include hR

theorem silently_fair {m : Act Hub α} (hm : Act.Within Holds m) : (silently m).Fair R :=
  .other (.work fun h => hR _ _ (hm h))

/-- Where a batch looks whether to stop, and what it does if it is not to. -/
theorem looks_fair (name : String) {k : Bool → Story α} (stop : (k true).Fair R)
    (go : Trail.Obeys (Admits R) turnAfter (some name) (k false).run) :
    Story.Fair R (Story.of (fun h => .looks name h.cancelled)
      (View.whole.work (stopsBefore name)) >>= k) := by
  intro m h
  have looked := outcome_stopsBefore name h
  have same : ((stopsBefore name).outcome h).2.cancelled = h.cancelled := by
    rw [looked]
    split
    · rfl
    · rfl
  refine ⟨⟨rfl, fun _ => hR _ _ fun set => same.trans set, by simp, by simp, ?_, by simp⟩, ?_⟩
  · intro name' stopped told
    cases told
    exact ⟨rfl, same⟩
  · show Trail.Obeys _ _ _ (ExceptT.bindCont k ((stopsBefore name).outcome h).1)
    rw [looked]
    cases flag : h.cancelled with
    | true => exact stop _
    | false =>
      simp only [turnAfter, flag]
      exact go

theorem namesStory_fair (r : Request) {listener : Option (BatchListener Hub)}
    (hl : ∀ f, listener = some f → ∀ name p, Work.Within R (f name p)) (names : List String) :
    (namesStory r listener names).Fair R := by
  induction names with
  | nil => exact .pure _
  | cons name names ih =>
    refine looks_fair hR name (.pure _) ?_
    refine Trail.Obeys.bind (turn_obeys (turn_bounded (steady_of_holds hR) hl r name) name) fun e m => ?_
    rcases e with f | _ | a
    · trivial
    · exact ih m
    · exact Story.Fair.bind ih (fun as => .pure _) m

theorem executeStory_fair (names : List String) (r : Request)
    {listener : Option (BatchListener Hub)}
    (hl : ∀ f, listener = some f → ∀ name p, Work.Within R (f name p)) :
    (executeStory names r listener).Fair R := by
  refine .bind (silently_fair hR fun h set => set) fun _ => ?_
  refine .bind (.attempt (namesStory_fair hR r hl names)) fun e => ?_
  exact .bind (silently_fair hR fun h set => set) fun _ => .ofExcept e

/-- Those who listen to a call keep a relation. -/
def Call.Callbacks (R : Hub → Hub → Prop) : Call → Prop
  | background _ _ listener completion =>
    (∀ f, listener = some f → ∀ name p, Work.Within R (f name p)) ∧
      ∀ f, completion = some f → ∀ as, Work.Within R (f as)
  | _ => True

omit hR in
theorem submit_clears (h : Hub) : (submit.outcome h).2.cancelled = false := by
  rw [outcome_submit]

theorem taskStory_fair (names : List String) (r : Request) {listener : Option (BatchListener Hub)}
    {completion : Option (List Analysis → Work Hub Unit)}
    (hl : ∀ f, listener = some f → ∀ name p, Work.Within R (f name p))
    (hc : ∀ f, completion = some f → ∀ as, Work.Within R (f as)) :
    (taskStory names r listener completion).Fair R := by
  unfold taskStory
  refine .bind (.attempt (.bind (silently_fair hR fun h => (checkNames_steady names h).holds) fun _ =>
    executeStory_fair hR names r hl)) fun e => ?_
  cases e with
  | ok as => exact .bind (telling_fair hc as) fun _ => .pure _
  | error f =>
    refine .bind (silently_fair hR fun h => (world_apart 0 h _).steady.holds) fun _ => ?_
    exact .bind (telling_fair hc []) fun _ => .throw f

theorem runSingleStory_fair (name : String) (r : Request) : (runSingleStory name r).Fair R := by
  unfold runSingleStory
  refine .bind (silently_fair hR fun h => (require_steady name h).holds) fun i => ?_
  refine .bind (silently_fair hR fun h => (isAvailable_apart i h).steady.holds) fun found => ?_
  split
  · exact .throw _
  · refine .bind (silently_fair hR fun h set => set) fun _ => ?_
    refine .bind (.clears fun h => rfl) fun _ => .other ?_
    refine .bind (.work fun h => hR _ _ (noted_apart i h _ _ _).steady.holds) fun _ => ?_
    refine .bind (.attempt (execute_bounded (steady_of_holds hR) i r)) fun e => ?_
    exact .bind (.work fun h => hR _ _ fun set => set) fun _ => .ofExcept e

theorem story_fair {c : Call} (hc : c.Callbacks R) : c.story.Fair R := by
  cases c with
  | cancel => exact .discard (.cancels (fun h => hR _ _ (cancel_kept h).cancelled) cancel_sets)
  | single name r => exact .discard (runSingleStory_fair hR name r)
  | batch names r =>
    refine .discard (.bind (silently_fair hR fun h => (checkNames_steady names h).holds) fun _ => ?_)
    exact .bind (.clears fun h => rfl) fun _ =>
      executeStory_fair hR names r fun f hf => (nomatch hf)
  | background names r listener completion =>
    exact .bind (.clears submit_clears) fun _ =>
      .discard (taskStory_fair hR names r hc.1 hc.2)

end

/-! ## Calls that go on together -/

/-- What comes are calls of a sort. -/
def Comes (ok : Call → Prop) (t : Trail Hub Told (Except Fault Unit)) : Prop :=
  ∃ c, ok c ∧ c.story.run = t

/-- The flag after what has been told. -/
def flagAfter (start : Bool) (es : List (Nat × Told)) : Bool :=
  (es.getLast?.map (·.2.flag)).getD start

/-- The turn that the call `i` is in after what has been told. -/
def turnOf (i : Nat) (es : List (Nat × Told)) : Option String :=
  modeAfter turnAfter none i es

theorem flagAfter_append (start : Bool) (es : List (Nat × Told)) (e : Nat × Told) :
    flagAfter start (es ++ [e]) = e.2.flag := by
  unfold flagAfter
  rw [List.getLast?_concat]
  rfl

section
variable {R : Hub → Hub → Prop} (hR : ∀ h h', Holds h h' → R h h') {ok : Call → Prop}
variable (callbacks : ∀ c, ok c → c.Callbacks R) {h₀ : Hub} {es : List (Nat × Told)}
variable {q : Pool Hub (Trail Hub Told (Except Fault Unit))}
include hR callbacks

theorem comes_obeys (t : Trail Hub Told (Except Fault Unit)) (new : Comes ok t) :
    Trail.Obeys (Admits R) turnAfter none t := by
  obtain ⟨c, hc, rfl⟩ := new
  exact story_fair hR (callbacks c hc) none

theorem flag_of_steps (steps : Steps (Comes ok) ⟨h₀, []⟩ es q) :
    q.state.cancelled = flagAfter h₀.cancelled es := by
  induction steps with
  | none => rfl
  | call before new ih => exact ih
  | @act es s ts i step tells next before here ih =>
    rw [flagAfter_append]
    exact (before.obeys (comes_obeys hR callbacks) here s).1.flag.symm
  | wait before here ih => exact ih

/-- Whatever is told is admitted between the flags before and after it. -/
theorem told_admitted (steps : Steps (Comes ok) ⟨h₀, []⟩ es q) {before after : List (Nat × Told)}
    {i : Nat} {e : Told} (told : es = before ++ (i, e) :: after) :
    ∃ h h', Admits R (turnOf i before) h e h' ∧ h.cancelled = flagAfter h₀.cancelled before := by
  obtain ⟨q₁, q₂, first, -, admits⟩ :=
    steps.admits_of_told (comes_obeys hR callbacks) told
  exact ⟨_, _, admits, flag_of_steps hR callbacks first⟩

end

/-- A turn that a call is in after looks that all told it to stop began before them. -/
theorem turn_began {m : Option String} {i : Nat} {name : String} {es : List (Nat × Told)}
    (stopped : ∀ e ∈ es, ∀ n b, e.2.what = .looks n b → b = true)
    (now : modeAfter turnAfter m i es = some name) : m = some name := by
  induction es generalizing m with
  | nil => exact now
  | cons e es ih =>
    have later : (if e.1 = i then turnAfter m e.2 else m) = some name :=
      ih (fun e' he' => stopped e' (List.mem_cons_of_mem _ he')) now
    by_cases own : e.1 = i
    · rw [if_pos own] at later
      unfold turnAfter at later
      cases what : e.2.what with
      | looks n b =>
        rw [what, stopped e (List.mem_cons_self ..) n b what] at later
        cases later
      | _ =>
        rw [what] at later
        exact later
    · rw [if_neg own] at later
      exact later

theorem flagAfter_split (start : Bool) (before after : List (Nat × Told)) (e : Nat × Told) :
    flagAfter start (before ++ e :: after) = flagAfter e.2.flag after := by
  unfold flagAfter
  rw [List.getLast?_append, List.getLast?_cons]
  cases after.getLast? <;> rfl

theorem flagAfter_of_all {start : Bool} {es : List (Nat × Told)} (set : start = true)
    (all : ∀ e ∈ es, e.2.flag = true) : flagAfter start es = true := by
  unfold flagAfter
  cases last : es.getLast? with
  | none => exact set
  | some e => exact all e (List.mem_of_getLast? last)

/-- What holds of everything that calls tell, in whatever order they take their steps. -/
structure CancelLaw (h₀ : Hub) (es : List (Nat × Told)) : Prop where
  /-- A batch that looks sees what the last step left. -/
  looks : ∀ before i name stopped flag after,
    es = before ++ (i, ⟨.looks name stopped, flag⟩) :: after →
    stopped = flagAfter h₀.cancelled before
  /-- After a cancel that nobody takes back, tools are run only in turns that had begun. -/
  kept : ∀ before c flag after, es = before ++ (c, ⟨.cancels, flag⟩) :: after →
    (∀ e ∈ after, e.2.flag = true) →
    ∀ i name flag', (i, ⟨.turn name, flag'⟩) ∈ after → turnOf i before = some name

/-- Nobody takes a cancel back but those who submit or run something. -/
def OnlyEntriesClear (h₀ : Hub) (es : List (Nat × Told)) : Prop :=
  ∀ before i e after, es = before ++ (i, e) :: after → flagAfter h₀.cancelled before = true →
    e.flag = false → e.what = .clears

/-- Whoever listens. -/
theorem callbacks_any (c : Call) : c.Callbacks fun _ _ => True := by
  have any {α : Type} (w : Work Hub α) : Work.Within (fun _ _ => True) w :=
    Routine.Within.of_all (fun _ _ => trivial) w.run
  cases c with
  | background => exact ⟨fun f _ name p => any _, fun f _ as => any _⟩
  | _ => trivial

section
variable {ok : Call → Prop} {h₀ : Hub} {es : List (Nat × Told)}
variable {q : Pool Hub (Trail Hub Told (Except Fault Unit))}

theorem looks_law (steps : Steps (Comes ok) ⟨h₀, []⟩ es q) {before after : List (Nat × Told)}
    {i : Nat} {name : String} {stopped flag : Bool}
    (told : es = before ++ (i, ⟨.looks name stopped, flag⟩) :: after) :
    stopped = flagAfter h₀.cancelled before := by
  have callbacks : ∀ c, ok c → c.Callbacks fun _ _ => True := fun c _ => callbacks_any c
  obtain ⟨h, h', admits, flag⟩ := told_admitted (fun _ _ _ => trivial) callbacks steps told
  rw [(admits.looks name stopped rfl).1, flag]

theorem kept_law (steps : Steps (Comes ok) ⟨h₀, []⟩ es q) {before after : List (Nat × Told)}
    {c : Nat} {flag : Bool} (told : es = before ++ (c, ⟨.cancels, flag⟩) :: after)
    (set : ∀ e ∈ after, e.2.flag = true) {i : Nat} {name : String} {flag' : Bool}
    (runs : (i, ⟨.turn name, flag'⟩) ∈ after) : turnOf i before = some name := by
  have callbacks : ∀ c, ok c → c.Callbacks fun _ _ => True := fun c _ => callbacks_any c
  obtain ⟨mid, rest, rfl⟩ := List.append_of_mem runs
  obtain ⟨_, h₁, cancels, -⟩ := told_admitted (fun _ _ _ => trivial) callbacks steps told
  have first : flag = true := cancels.flag.trans (cancels.cancels rfl)
  have told' : es = (before ++ (c, ⟨.cancels, flag⟩) :: mid) ++ (i, ⟨.turn name, flag'⟩) :: rest := by
    rw [told, List.append_assoc, List.cons_append]
  obtain ⟨h, h', turn, -⟩ := told_admitted (fun _ _ _ => trivial) callbacks steps told'
  have now := turn.turn name rfl
  -- no look between the cancel and the step can have begun the turn
  have stopped : ∀ e ∈ mid, ∀ n b, e.2.what = .looks n b → b = true := by
    intro e he n b what
    obtain ⟨m₁, m₂, rfl⟩ := List.append_of_mem he
    obtain ⟨j, ⟨_, f⟩⟩ := e
    cases what
    have told'' : es = (before ++ (c, ⟨.cancels, flag⟩) :: m₁) ++
        (j, ⟨.looks n b, f⟩) :: (m₂ ++ (i, ⟨.turn name, flag'⟩) :: rest) := by
      rw [told']
      simp
    rw [looks_law steps told'', flagAfter_split]
    exact flagAfter_of_all first fun e he => set e (by simp [he])
  unfold turnOf modeAfter at now
  rw [List.foldl_append, List.foldl_cons] at now
  have began := turn_began stopped now
  by_cases own : c = i
  · rw [if_pos own] at began
    exact began
  · rw [if_neg own] at began
    exact began

theorem entries_law (steps : Steps (Comes ok) ⟨h₀, []⟩ es q)
    (callbacks : ∀ c, ok c → c.Callbacks Holds) : OnlyEntriesClear h₀ es := by
  intro before i e after told set cleared
  obtain ⟨h, h', admits, flag⟩ := told_admitted (fun _ _ held => held) callbacks steps told
  refine Classical.byContradiction fun other => ?_
  have kept := admits.keeps other (flag.trans set)
  rw [← admits.flag, cleared] at kept
  cases kept

theorem cancel_stops_batches (steps : Steps (Comes ok) ⟨h₀, []⟩ es q) :
    CancelLaw h₀ es ∧ ((∀ c, ok c → c.Callbacks Holds) → OnlyEntriesClear h₀ es) :=
  ⟨⟨fun _ _ _ _ _ _ told => looks_law steps told,
    fun _ _ _ _ told set _ _ _ runs => kept_law steps told set runs⟩, entries_law steps⟩

end

/-- A batch of two tools, a cancel, and the submission of a batch with an unknown name. -/
def threeCalls : List Call :=
  [.background ["alpha", "beta"] (reportTo "") none none, .cancel,
    .background ["nope"] (reportTo "") none none]

def threeTogether : Pool Hub (Trail Hub Told (Except Fault Unit)) :=
  ⟨holding (.bare .default) [quietTool "alpha", quietTool "beta"], threeCalls.map (·.story.run)⟩

theorem three_come (is : List Nat) :
    Steps (Comes fun _ => True) ⟨threeTogether.state, []⟩ (threeTogether.play is).2
      (threeTogether.play is).1 := by
  refine Steps.playAll (fun t ht => ?_) is
  obtain ⟨c, -, rfl⟩ := List.mem_map.mp ht
  exact ⟨c, trivial, rfl⟩

theorem cancel_stops_batches_three :
    CancelLaw threeTogether.state (threeTogether.play [0, 0, 0, 0, 1, 0, 0, 0, 0, 0, 0, 0, 0]).2 :=
  (cancel_stops_batches (three_come _)).1

/-- The cancel comes in the turn of the first tool. The submission takes it back, and the batch goes on
with the second one. -/
theorem not_every_cancel_is_kept :
    ¬ ∀ (h₀ : Hub) (es : List (Nat × Told)) (q : Pool Hub (Trail Hub Told (Except Fault Unit))),
      Steps (Comes fun _ => True) ⟨h₀, []⟩ es q →
      ∀ before c flag after, es = before ++ (c, ⟨.cancels, flag⟩) :: after →
      ∀ i name flag', (i, ⟨.clears, false⟩) ∈ before → (i, ⟨.turn name, flag'⟩) ∈ after →
        turnOf i before = some name := by
  intro claim
  have first := claim _ _ _ (three_come [0, 0, 0, 0, 0, 0, 1, 2, 0, 0, 0, 0, 0, 0])
    [(0, ⟨.clears, false⟩), (0, ⟨.other, false⟩), (0, ⟨.other, false⟩),
      (0, ⟨.looks "alpha" false, false⟩), (0, ⟨.turn "alpha", false⟩), (0, ⟨.turn "alpha", false⟩)]
    1 true
    [(2, ⟨.clears, false⟩), (0, ⟨.turn "alpha", false⟩), (0, ⟨.turn "alpha", false⟩),
      (0, ⟨.turn "alpha", false⟩), (0, ⟨.turn "alpha", false⟩),
      (0, ⟨.looks "beta" false, false⟩), (0, ⟨.turn "beta", false⟩)]
    rfl 0 "beta" false (by decide) (by decide)
  exact absurd first (by decide)

end LintHub.Hub
