import LintHub.Proofs.Run.Uses

/-! # One run at a time

However many callers use a tool at the same time: at most one run goes on, the tool counts as running
while one does, and a run is told to stop if and only if somebody asked after its own start. That is
an invariant of what the callers have told, `Current`; the laws of single steps follow from it.
-/

namespace LintHub.Execution

open Bench

/-- What comes are uses of a sort. -/
def Comes (ok : Use → Prop) (t : Trail Bench Told (Except Fault Answer)) : Prop :=
  ∃ u, ok u ∧ u.account.run = t

/-- How far the call `i` has come after what has been told. -/
def partOf (i : Nat) (es : List (Nat × Told)) : Part :=
  modeAfter Part.next .fresh i es

/-- The call `i` is a run that goes on. -/
def Runs (i : Nat) (es : List (Nat × Told)) : Prop :=
  partOf i es = .inside

/-- The last start was that of the call `i`, and `asked` says whether the run that goes on was asked
to stop after it. -/
def Since (es : List (Nat × Told)) (i : Nat) (asked : Bool) : Prop :=
  ∃ first start rest, es = first ++ (i, start) :: rest ∧ start.what = .starts ∧
    (∀ e ∈ rest, e.2.what ≠ .starts) ∧ (asked = true ↔ ∃ e ∈ rest, e.2.what = .cancels true)

theorem partOf_self (i : Nat) (es : List (Nat × Told)) (e : Told) :
    partOf i (es ++ [(i, e)]) = (partOf i es).next e :=
  modeAfter_self Part.next .fresh i es e

theorem partOf_ne {i j : Nat} (other : j ≠ i) (es : List (Nat × Told)) (e : Told) :
    partOf i (es ++ [(j, e)]) = partOf i es :=
  modeAfter_ne Part.next .fresh other es e

/-! ## What a step does -/

section
variable {p : Part} {b b' : Bench} {e : Told}

theorem Allows.before (h : Allows p b e b') : e.before = b := by
  cases h <;> rfl

theorem Allows.after (h : Allows p b e b') : e.after = b' := by
  cases h <;> rfl

theorem Allows.adapter (h : Allows p b e b') : b'.runner.adapter = b.runner.adapter := by
  cases h with
  | cancels who does => exact does.adapter
  | other who leaves => exact leaves.adapter
  | _ => rfl

theorem Allows.configured (h : Allows p b e b') (some : b.runner.config.isSome = true) :
    b'.runner.config.isSome = true := by
  cases h with
  | cancels who does => exact does.configured some
  | other who leaves => exact leaves.configured some
  | _ => exact some

/-- What is told is true of the bench on which it is told. -/
structure Honest (p : Part) (b : Bench) (what : What) : Prop where
  asks : ∀ configured, what = .asks configured → configured = b.runner.config.isSome
  starts : what = .starts → b.runner.running = false
  refused : what = .refused → b.runner.running = true
  checks : ∀ asked, what = .checks asked → p = .inside ∧ asked = b.runner.cancelled
  cancels : ∀ stops, what = .cancels stops → stops = b.runner.running

theorem Allows.honest (h : Allows p b e b') : Honest p b e.what := by
  cases h with
  | starts free => exact ⟨by simp, fun _ => free, by simp, by simp, by simp⟩
  | refused busy => exact ⟨by simp, by simp, fun _ => busy, by simp, by simp⟩
  | _ => constructor <;> simp

/-- Who is ready to start or inside was so before, or has just found the tool configured. -/
theorem Allows.entered (h : Allows p b e b') (now : p.next e = .ready ∨ p.next e = .inside) :
    p = .ready ∨ p = .inside ∨ b.runner.config.isSome = true := by
  cases h with
  | asks =>
    cases configured : b.runner.config with
    | none => simp [Part.next, configured] at now
    | some c => exact .inr (.inr rfl)
  | starts | refused => exact .inl rfl
  | checks | finishes => exact .inr (.inl rfl)
  | cancels who does =>
    rcases who with rfl | rfl
    · simp [Part.next] at now
    · exact .inr (.inl rfl)
  | looks => cases p <;> simp [Part.next] at now ⊢
  | other who leaves =>
    rcases who with rfl | rfl | rfl
    · simp [Part.next] at now
    · exact .inr (.inl rfl)
    · simp [Part.next] at now

/-- Up to here a caller has only looked. -/
def Part.Still (p : Part) : Prop :=
  p = .fresh ∨ p = .ready ∨ p = .bare ∨ p = .refused

theorem Allows.still (h : Allows p b e b') (now : (p.next e).Still) :
    p.Still ∧ e.after = e.before := by
  cases h with
  | asks => exact ⟨.inl rfl, rfl⟩
  | starts => simp [Part.next, Part.Still] at now
  | refused => exact ⟨.inr (.inl rfl), rfl⟩
  | checks | finishes => simp [Part.next, Part.Still] at now
  | cancels who does => rcases who with rfl | rfl <;> simp [Part.next, Part.Still] at now
  | looks => exact ⟨by cases p <;> simpa [Part.next] using now, rfl⟩
  | other who leaves => rcases who with rfl | rfl | rfl <;> simp [Part.next, Part.Still] at now

/-- What a step does to the run that goes on: it starts one, finishes it, or lets it go on. -/
inductive Phase (p : Part) (b : Bench) (e : Told) (b' : Bench) : Prop where
  | opens (told : e.what = .starts) (free : b.runner.running = false)
    (busy : b'.runner.running = true) (unasked : b'.runner.cancelled = false)
    (inside : p.next e = .inside)
  | closes (told : e.what = .finishes) (own : p = .inside) (free : b'.runner.running = false)
    (past : p.next e = .past)
  | goesOn (told : e.what ≠ .starts) (same : b'.runner.running = b.runner.running)
    (inside : p.next e = .inside ↔ p = .inside)
    (asked : b.runner.running = true →
      (b'.runner.cancelled = true ↔ b.runner.cancelled = true ∨ e.what = .cancels true))

theorem Allows.phase (h : Allows p b e b') : Phase p b e b' := by
  cases h with
  | asks =>
    refine .goesOn (by simp) rfl ?_ (by simp)
    cases configured : b.runner.config <;> simp [Part.next]
  | starts free => exact .opens rfl free rfl rfl rfl
  | refused busy => exact .goesOn (by simp) rfl (by simp [Part.next]) (by simp)
  | checks => exact .goesOn (by simp) rfl (by simp [Part.next]) (by simp)
  | finishes => exact .closes rfl rfl rfl rfl
  | cancels who does =>
    refine .goesOn (by simp) does.running ?_ fun busy => ?_
    · rcases who with rfl | rfl <;> simp [Part.next]
    · simp [does.cancelled, busy]
  | looks => exact .goesOn (by simp) rfl (by cases p <;> simp [Part.next]) (by simp)
  | other who leaves =>
    refine .goesOn (by simp) leaves.running ?_ fun busy => ?_
    · rcases who with rfl | rfl | rfl <;> simp [Part.next]
    · simp [leaves.cancelled]

end

/-! ## The invariant -/

/-- What the bench is after what has been told. -/
structure Current (es : List (Nat × Told)) (b : Bench) : Prop where
  alone : ∀ i j, Runs i es → Runs j es → i = j
  running : b.runner.running = true ↔ ∃ i, Runs i es
  since : ∀ i, Runs i es → Since es i b.runner.cancelled
  configured : ∀ i, partOf i es = .ready ∨ partOf i es = .inside →
    b.runner.config.isSome = true

theorem Current.first {b : Bench} (idle : b.runner.running = false) : Current [] b where
  alone i j inside := by cases inside
  running := by
    rw [idle]
    constructor
    · intro busy
      cases busy
    · rintro ⟨i, inside⟩
      cases inside
  since i inside := by cases inside
  configured i inside := by rcases inside with ready | inside <;> contradiction

section
variable {es : List (Nat × Told)} {b b' : Bench} {i : Nat} {e : Told}

theorem Since.goesOn {j : Nat} {asked asked' : Bool} (h : Since es j asked) (told : e.what ≠ .starts)
    (flag : asked' = true ↔ asked = true ∨ e.what = .cancels true) :
    Since (es ++ [(i, e)]) j asked' := by
  obtain ⟨first, start, rest, rfl, starts, none, cancels⟩ := h
  refine ⟨first, start, rest ++ [(i, e)], by simp, starts, ?_, ?_⟩
  · intro x hx
    rcases List.mem_append.mp hx with old | new
    · exact none x old
    · rw [List.mem_singleton.mp new]
      exact told
  · rw [flag, cancels]
    simp only [List.mem_append, List.mem_singleton]
    constructor
    · rintro (⟨x, hx, told⟩ | told)
      · exact ⟨x, .inl hx, told⟩
      · exact ⟨_, .inr rfl, told⟩
    · rintro ⟨x, old | rfl, told⟩
      · exact .inl ⟨x, old, told⟩
      · exact .inr told

/-- Who is configured stays so, and who asks finds out. -/
theorem Current.configured_step (h : Current es b) (admits : Allows (partOf i es) b e b') {j : Nat}
    (now : partOf j (es ++ [(i, e)]) = .ready ∨ partOf j (es ++ [(i, e)]) = .inside) :
    b'.runner.config.isSome = true := by
  refine admits.configured ?_
  by_cases own : i = j
  · subst own
    rw [partOf_self] at now
    rcases admits.entered now with ready | inside | found
    · exact h.configured i (.inl ready)
    · exact h.configured i (.inr inside)
    · exact found
  · rw [partOf_ne own] at now
    exact h.configured j now

theorem Current.opens (h : Current es b) (admits : Allows (partOf i es) b e b')
    (told : e.what = .starts) (inside : (partOf i es).next e = .inside)
    (free : b.runner.running = false) (busy : b'.runner.running = true)
    (unasked : b'.runner.cancelled = false) : Current (es ++ [(i, e)]) b' := by
  have only : ∀ j, Runs j (es ++ [(i, e)]) ↔ j = i := by
    intro j
    unfold Runs
    by_cases own : i = j
    · subst own
      rw [partOf_self, inside]
      simp
    · rw [partOf_ne own]
      constructor
      · intro runs
        have running := h.running.mpr ⟨j, runs⟩
        rw [free] at running
        cases running
      · intro same
        exact absurd same.symm own
  refine ⟨?_, ?_, ?_, fun j => h.configured_step admits⟩
  · intro j k hj hk
    rw [(only j).mp hj, (only k).mp hk]
  · exact ⟨fun _ => ⟨i, (only i).mpr rfl⟩, fun _ => busy⟩
  · intro j hj
    rw [(only j).mp hj, unasked]
    exact ⟨es, e, [], rfl, told, by simp, by simp⟩

theorem Current.closes (h : Current es b) (admits : Allows (partOf i es) b e b')
    (own : partOf i es = .inside) (past : (partOf i es).next e = .past)
    (free : b'.runner.running = false) : Current (es ++ [(i, e)]) b' := by
  have nobody : ∀ j, ¬ Runs j (es ++ [(i, e)]) := by
    intro j runs
    unfold Runs at runs
    by_cases same : i = j
    · subst same
      rw [partOf_self, past] at runs
      cases runs
    · rw [partOf_ne same] at runs
      exact same (h.alone i j own runs)
  refine ⟨?_, ?_, ?_, fun j => h.configured_step admits⟩
  · intro j k hj
    exact absurd hj (nobody j)
  · rw [free]
    constructor
    · intro busy
      cases busy
    · rintro ⟨j, hj⟩
      exact absurd hj (nobody j)
  · intro j hj
    exact absurd hj (nobody j)

theorem Current.goesOn (h : Current es b) (admits : Allows (partOf i es) b e b')
    (told : e.what ≠ .starts) (inside : (partOf i es).next e = .inside ↔ partOf i es = .inside)
    (same : b'.runner.running = b.runner.running)
    (asked : b.runner.running = true →
      (b'.runner.cancelled = true ↔ b.runner.cancelled = true ∨ e.what = .cancels true)) :
    Current (es ++ [(i, e)]) b' := by
  have still : ∀ j, Runs j (es ++ [(i, e)]) ↔ Runs j es := by
    intro j
    unfold Runs
    by_cases own : i = j
    · subst own
      rw [partOf_self]
      exact inside
    · rw [partOf_ne own]
  refine ⟨?_, ?_, ?_, fun j => h.configured_step admits⟩
  · intro j k hj hk
    exact h.alone j k ((still j).mp hj) ((still k).mp hk)
  · rw [same, h.running]
    simp only [still]
  · intro j hj
    have runs := (still j).mp hj
    exact (h.since j runs).goesOn told (asked (h.running.mpr ⟨j, runs⟩))

theorem Current.step (h : Current es b) (admits : Allows (partOf i es) b e b') :
    Current (es ++ [(i, e)]) b' := by
  cases admits.phase with
  | opens told free busy unasked inside => exact h.opens admits told inside free busy unasked
  | closes told own free past => exact h.closes admits own past free
  | goesOn told same inside asked => exact h.goesOn admits told inside same asked

theorem unchanged_step (unchanged : ∀ j, (partOf j es).Still → ∀ x, (j, x) ∈ es → x.after = x.before)
    (admits : Allows (partOf i es) b e b') (j : Nat) (now : (partOf j (es ++ [(i, e)])).Still)
    (x : Told) (told : (j, x) ∈ es ++ [(i, e)]) : x.after = x.before := by
  by_cases own : i = j
  · subst own
    rw [partOf_self] at now
    obtain ⟨before, same⟩ := admits.still now
    rcases List.mem_append.mp told with old | new
    · exact unchanged i before x old
    · cases List.mem_singleton.mp new
      exact same
  · rw [partOf_ne own] at now
    rcases List.mem_append.mp told with old | new
    · exact unchanged j now x old
    · cases List.mem_singleton.mp new
      exact absurd rfl own

end

/-! ## The law -/

/-- What holds of everything that the users of a tool tell, in whatever order they take their steps. -/
structure UseLaw (b₀ : Bench) (es : List (Nat × Told))
    (q : Pool Bench (Trail Bench Told (Except Fault Answer))) : Prop where
  /-- At most one run goes on. -/
  alone : ∀ i j, Runs i es → Runs j es → i = j
  /-- The tool counts as running while one does. -/
  running : q.state.runner.running = true ↔ ∃ i, Runs i es
  /-- A call that is done, with an answer or with a fault, is no run that goes on. -/
  ended : ∀ i e, q.calls[i]? = some (.done e) → ¬ Runs i es
  /-- Who starts finds no other run. -/
  started : ∀ before i e after, es = before ++ (i, e) :: after → e.what = .starts →
    ∀ j, ¬ Runs j before
  /-- Who is refused finds one, -/
  refused : ∀ before i e after, es = before ++ (i, e) :: after → e.what = .refused →
    ∃ j, Runs j before
  /-- and so nobody misses the configuration while a run goes on. -/
  unready : ∀ before i e after, es = before ++ (i, e) :: after → e.what = .asks false →
    ∀ j, ¬ Runs j before
  /-- Who is refused changes nothing, -/
  unchanged : ∀ i, partOf i es = .refused → ∀ e, (i, e) ∈ es → e.after = e.before
  /-- and is told so. -/
  answered : ∀ i e, partOf i es = .refused → q.calls[i]? = some (.done e) → ∃ stamp,
    e = .ok (.analysis (Analysis.failed stamp b₀.runner.adapter.name "Analysis already running"))
  /-- Who asks to stop is told whether a run goes on. -/
  cancels : ∀ before i e after stops, es = before ++ (i, e) :: after → e.what = .cancels stops →
    (stops = true ↔ ∃ j, Runs j before)
  told : ∀ i e stops, partOf i es = .asked stops → q.calls[i]? = some (.done e) →
    e = .ok (.stopped stops)
  /-- A run that checks sees whether somebody asked it to stop after its own start. -/
  checks : ∀ before i e after seen, es = before ++ (i, e) :: after → e.what = .checks seen →
    Since before i seen

section
variable {ok : Use → Prop} {b₀ : Bench} {es : List (Nat × Told)}
variable {q : Pool Bench (Trail Bench Told (Except Fault Answer))}
variable (polite : ∀ u, ok u → u.Polite)
include polite

theorem comes_keeps (t : Trail Bench Told (Except Fault Answer)) (new : Comes ok t) :
    t.Leads (fun b => b.runner.adapter = b₀.runner.adapter) Allows Part.next
      (Ended b₀.runner.adapter) .fresh := by
  obtain ⟨u, hu, rfl⟩ := new
  exact Use.account_keeps (polite u hu)

omit polite in
theorem adapter_kept (p : Part) (b : Bench) (e : Told) (b' : Bench)
    (tool : b.runner.adapter = b₀.runner.adapter) (admits : Allows p b e b') :
    b'.runner.adapter = b₀.runner.adapter :=
  admits.adapter.trans tool

theorem current_of_steps (idle : b₀.runner.running = false) (steps : Steps (Comes ok) ⟨b₀, []⟩ es q) :
    Current es q.state :=
  steps.history (comes_keeps polite) adapter_kept rfl (.first idle)
    fun _ _ _ _ _ current admits => current.step admits

theorem unchanged_of_steps (steps : Steps (Comes ok) ⟨b₀, []⟩ es q) :
    ∀ i, (partOf i es).Still → ∀ e, (i, e) ∈ es → e.after = e.before := by
  refine steps.history (P := fun es _ =>
      ∀ i, (partOf i es).Still → ∀ e, (i, e) ∈ es → e.after = e.before)
    (comes_keeps polite) adapter_kept rfl (by simp) ?_
  exact fun _ _ _ _ _ unchanged admits => unchanged_step unchanged admits

theorem ended_of_steps (steps : Steps (Comes ok) ⟨b₀, []⟩ es q) {i : Nat} {e : Except Fault Answer}
    (done : q.calls[i]? = some (.done e)) : Ended b₀.runner.adapter (partOf i es) e :=
  (steps.leads (comes_keeps polite) adapter_kept rfl).2 i _ done

/-- What was told was admitted on the bench of its time. -/
theorem told_allowed (idle : b₀.runner.running = false) (steps : Steps (Comes ok) ⟨b₀, []⟩ es q)
    {before after : List (Nat × Told)} {i : Nat} {e : Told} (told : es = before ++ (i, e) :: after) :
    ∃ b b', Current before b ∧ Allows (partOf i before) b e b' := by
  obtain ⟨q₁, q₂, first, -, admits⟩ :=
    steps.admits_of_leads (comes_keeps polite) adapter_kept rfl told
  exact ⟨_, _, current_of_steps polite idle first, admits⟩

theorem law_of_steps (idle : b₀.runner.running = false) (steps : Steps (Comes ok) ⟨b₀, []⟩ es q) :
    UseLaw b₀ es q := by
  have current := current_of_steps polite idle steps
  have ended := fun i e => ended_of_steps polite steps (i := i) (e := e)
  have allowed : ∀ before i e after, es = before ++ (i, e) :: after →
      ∃ b b', Current before b ∧ Allows (partOf i before) b e b' :=
    fun _ _ _ _ => told_allowed polite idle steps
  refine ⟨current.alone, current.running, ?_, ?_, ?_, ?_, ?_, ?_, ?_, ?_, ?_⟩
  · intro i e done
    exact (ended i e done).finished
  · intro before i e after told starts j runs
    obtain ⟨b, b', current, admits⟩ := allowed before i e after told
    have busy := current.running.mpr ⟨j, runs⟩
    rw [admits.honest.starts starts] at busy
    cases busy
  · intro before i e after told refused
    obtain ⟨b, b', current, admits⟩ := allowed before i e after told
    exact current.running.mp (admits.honest.refused refused)
  · intro before i e after told asks j runs
    obtain ⟨b, b', current, admits⟩ := allowed before i e after told
    have configured := current.configured j (.inr runs)
    rw [← admits.honest.asks false asks] at configured
    cases configured
  · intro i refused
    exact unchanged_of_steps polite steps i (.inr (.inr (.inr refused)))
  · intro i e refused done
    exact (ended i e done).refused refused
  · intro before i e after stops told cancels
    obtain ⟨b, b', current, admits⟩ := allowed before i e after told
    rw [admits.honest.cancels stops cancels]
    exact current.running
  · intro i e stops asked done
    exact (ended i e done).asked stops asked
  · intro before i e after seen told checks
    obtain ⟨b, b', current, admits⟩ := allowed before i e after told
    obtain ⟨inside, rfl⟩ := admits.honest.checks seen checks
    exact current.since i inside

/-- Whatever happens to those who use a tool is told by their accounts, and whatever these tell of it
obeys the law. -/
theorem runs_exclude_each_other (idle : b₀.runner.running = false)
    {p : Pool Bench (Routine Bench (Except Fault Answer))}
    (happens : Happens (fun r => ∃ u, ok u ∧ u.work.run = r) ⟨b₀, []⟩ p) :
    (∃ es q, Steps (Comes ok) ⟨b₀, []⟩ es q ∧ q.erase = p) ∧
      ∀ es q, Steps (Comes ok) ⟨b₀, []⟩ es q → q.erase = p → UseLaw b₀ es q :=
  ⟨happens.accounted Use.erase_account, fun _ _ steps _ => law_of_steps polite idle steps⟩

end

/-- Ruff as it comes, in a world without files. -/
def idleRuff : Bench where
  runner := { Runner.new .ruff with
    config := some (.new .default .ruff "ruff"), path := some "/usr/bin/ruff" }
  world := .bare .default

/-- Two callers run the tool, and a third one stops it. -/
def threeUses : List Use :=
  [.run ⟨.str "a.py", .str "", [], [], []⟩ .nobody, .run ⟨.str "b.py", .str "", [], [], []⟩ .nobody,
    .stop]

/-- The first caller is let in, the second one is refused, the third one stops the run. -/
def usedTogether : Pool Bench (Trail Bench Told (Except Fault Answer)) × List (Nat × Told) :=
  Pool.play ⟨idleRuff, threeUses.map (·.account.run)⟩ [0, 0, 1, 1, 1, 2]

theorem runs_exclude_each_other_together : UseLaw idleRuff usedTogether.2 usedTogether.1 ∧
    usedTogether.2.map (fun e => (e.1, e.2.what)) = [(0, .asks true), (0, .starts), (1, .asks true),
      (1, .refused), (1, .looks), (2, .cancels true)] := by
  have polite : ∀ u ∈ threeUses, u.Polite := by
    intro u hu
    simp only [threeUses, List.mem_cons, List.not_mem_nil, or_false] at hu
    rcases hu with rfl | rfl | rfl
    · exact Listeners.nobody_within
    · exact Listeners.nobody_within
    · trivial
  have steps : Steps (Comes (· ∈ threeUses)) ⟨idleRuff, []⟩ usedTogether.2 usedTogether.1 := by
    refine Steps.playAll (fun t ht => ?_) _
    obtain ⟨u, hu, rfl⟩ := List.mem_map.mp ht
    exact ⟨u, hu, rfl⟩
  have told := (runs_exclude_each_other polite rfl (steps.accounted Use.erase_account)).2
  exact ⟨told _ _ steps rfl, by rfl⟩

end LintHub.Execution
