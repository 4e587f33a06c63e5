import LintHub.Proofs.Work.Steps

/-! # Trails

A trail is a routine whose steps tell what they are. `erase` forgets what they tell. Several calls
that go on at the same time take their steps in any order, and new calls come at any time: `Steps`
lists what was told and by which call. Erasing all trails, these are the steps of the routines
themselves.
-/

namespace LintHub

inductive Trail (σ ε α : Type) where
  | done (a : α)
  /-- One atomic step and what it tells, which may depend on the state before it. -/
  | act (step : σ → σ) (tells : σ → ε) (next : σ → Trail σ ε α)
  | wait (next : Trail σ ε α)

namespace Trail

variable {σ ε α β : Type}

def bind : Trail σ ε α → (α → Trail σ ε β) → Trail σ ε β
  | done a, k => k a
  | act step tells next, k => act step tells fun s => bind (next s) k
  | wait next, k => wait (bind next k)

instance : Monad (Trail σ ε) where
  pure := done
  bind := bind

def erase : Trail σ ε α → Routine σ α
  | done a => .done a
  | act step _ next => .act step fun s => erase (next s)
  | wait next => .wait (erase next)

/-- A routine whose steps tell what a function makes of the state before and after them. -/
def mark (tell : σ → σ → ε) : Routine σ α → Trail σ ε α
  | .done a => done a
  | .act step next => act step (fun s => tell s (step s)) fun s => mark tell (next s)
  | .wait next => wait (mark tell next)

@[simp] theorem erase_mark (tell : σ → σ → ε) (p : Routine σ α) : (mark tell p).erase = p := by
  induction p with
  | done a => rfl
  | act step next ih => simp only [mark, erase, ih]
  | wait next ih => simp only [mark, erase, ih]

@[simp] theorem erase_bind (t : Trail σ ε α) (k : α → Trail σ ε β) :
    (t.bind k).erase = t.erase.bind fun a => (k a).erase := by
  induction t with
  | done a => rfl
  | act step tells next ih => simp only [bind, erase, Routine.bind, ih]
  | wait next ih => simp only [bind, erase, Routine.bind, ih]

end Trail

/-! ## Calls that go on together -/

/-- A state and the calls that work on it. -/
structure Pool (σ ι : Type) where
  state : σ
  calls : List ι

variable {σ ε α : Type}

/-- Everything that can happen from one pool to another: a call comes, or one goes on by a step or
after it stood still. -/
inductive Happens (comes : Routine σ α → Prop) (p : Pool σ (Routine σ α)) :
    Pool σ (Routine σ α) → Prop where
  | none : Happens comes p p
  | call {s : σ} {rs : List (Routine σ α)} {r : Routine σ α} (before : Happens comes p ⟨s, rs⟩)
    (new : comes r) : Happens comes p ⟨s, rs ++ [r]⟩
  | act {s : σ} {rs : List (Routine σ α)} {i : Nat} {step : σ → σ} {next : σ → Routine σ α}
    (before : Happens comes p ⟨s, rs⟩) (here : rs[i]? = some (.act step next)) :
    Happens comes p ⟨step s, rs.set i (next s)⟩
  | wait {s : σ} {rs : List (Routine σ α)} {i : Nat} {next : Routine σ α}
    (before : Happens comes p ⟨s, rs⟩) (here : rs[i]? = some (.wait next)) :
    Happens comes p ⟨s, rs.set i next⟩

theorem Happens.mono {comes comes' : Routine σ α → Prop} {p q : Pool σ (Routine σ α)}
    (h : Happens comes p q) (more : ∀ r, comes r → comes' r) : Happens comes' p q := by
  induction h with
  | none => exact .none
  | call _ new ih => exact .call ih (more _ new)
  | act _ here ih => exact .act ih here
  | wait _ here ih => exact .wait ih here

theorem Happens.trans {comes : Routine σ α → Prop} {p q u : Pool σ (Routine σ α)}
    (first : Happens comes p q) (second : Happens comes q u) : Happens comes p u := by
  induction second with
  | none => exact first
  | call _ new ih => exact .call ih new
  | act _ here ih => exact .act ih here
  | wait _ here ih => exact .wait ih here

/-! ## Histories of routines -/

section
variable {R : σ → σ → Prop} {comes : Routine σ α → Prop} {p q : Pool σ (Routine σ α)}

/-- The steps of the calls that go on stay within what the steps of all calls do that come. -/
theorem Happens.within (new : ∀ r, comes r → r.Within R) (calls : ∀ r ∈ p.calls, r.Within R)
    (h : Happens comes p q) : ∀ r ∈ q.calls, r.Within R := by
  induction h with
  | none => exact calls
  | @call s rs r _ came ih =>
    intro r' mem
    rcases List.mem_append.mp mem with old | last
    · exact ih r' old
    · rw [List.mem_singleton.mp last]
      exact new r came
  | @act s rs i step next _ here ih =>
    intro r mem
    rcases List.mem_or_eq_of_mem_set mem with old | rfl
    · exact ih r old
    · exact (ih _ (List.mem_of_getElem? here)).2 s
  | @wait s rs i next _ here ih =>
    intro r mem
    rcases List.mem_or_eq_of_mem_set mem with old | rfl
    · exact ih r old
    · have still : Routine.Within R (.wait r) := ih _ (List.mem_of_getElem? here)
      exact still

/-- By induction on what happens: what holds at first and is kept from one pool to the next, holds
always. Between one pool and the next the state changes by one step, if at all. -/
theorem Happens.follow {P : Pool σ (Routine σ α) → Prop} (hrefl : ∀ s, R s s)
    (new : ∀ r, comes r → r.Within R) (calls : ∀ r ∈ p.calls, r.Within R) (start : P p)
    (goes : ∀ q q', Happens comes p q → Happens comes q q' → R q.state q'.state → P q → P q')
    (h : Happens comes p q) : P q := by
  induction h with
  | none => exact start
  | call before came ih => exact goes _ _ before (.call .none came) (hrefl _) ih
  | @act s rs i step next before here ih =>
    have moved := (before.within new calls _ (List.mem_of_getElem? here)).1 s
    exact goes _ _ before (.act .none here) moved ih
  | wait before here ih => exact goes _ _ before (.wait .none here) (hrefl _) ih

/-- A call that comes may go on to its end before anything else happens. -/
theorem Happens.whole {s : σ} {rs : List (Routine σ α)} {r : Routine σ α}
    (before : Happens comes p ⟨s, rs⟩) (came : comes r) :
    Happens comes p ⟨(r.run s).2, rs ++ [.done (r.run s).1]⟩ := by
  have begun : Happens comes p ⟨s, rs ++ [r]⟩ := .call before came
  clear came before
  have here (r : Routine σ α) : (rs ++ [r])[rs.length]? = some r := List.getElem?_concat_length
  have goes (r r' : Routine σ α) : (rs ++ [r]).set rs.length r' = rs ++ [r'] := by
    rw [List.set_append_right _ _ (Nat.le_refl _), Nat.sub_self]
    rfl
  induction r generalizing s with
  | done a => exact begun
  | act step next ih =>
    have moved := Happens.act begun (here _)
    rw [goes] at moved
    exact ih s moved
  | wait next ih =>
    have moved := Happens.wait begun (here _)
    rw [goes] at moved
    exact ih moved

end

/-- The same for trails, with what was told by which call. -/
inductive Steps (comes : Trail σ ε α → Prop) (p : Pool σ (Trail σ ε α)) :
    List (Nat × ε) → Pool σ (Trail σ ε α) → Prop where
  | none : Steps comes p [] p
  | call {es : List (Nat × ε)} {s : σ} {ts : List (Trail σ ε α)} {t : Trail σ ε α}
    (before : Steps comes p es ⟨s, ts⟩) (new : comes t) : Steps comes p es ⟨s, ts ++ [t]⟩
  | act {es : List (Nat × ε)} {s : σ} {ts : List (Trail σ ε α)} {i : Nat} {step : σ → σ}
    {tells : σ → ε} {next : σ → Trail σ ε α} (before : Steps comes p es ⟨s, ts⟩)
    (here : ts[i]? = some (.act step tells next)) :
    Steps comes p (es ++ [(i, tells s)]) ⟨step s, ts.set i (next s)⟩
  | wait {es : List (Nat × ε)} {s : σ} {ts : List (Trail σ ε α)} {i : Nat} {next : Trail σ ε α}
    (before : Steps comes p es ⟨s, ts⟩) (here : ts[i]? = some (.wait next)) :
    Steps comes p es ⟨s, ts.set i next⟩

/-- The pool of the routines themselves. -/
def Pool.erase (p : Pool σ (Trail σ ε α)) : Pool σ (Routine σ α) :=
  ⟨p.state, p.calls.map Trail.erase⟩

theorem Steps.happens {comes : Trail σ ε α → Prop} {p q : Pool σ (Trail σ ε α)}
    {es : List (Nat × ε)} (h : Steps comes p es q) :
    Happens (fun r => ∃ t, comes t ∧ t.erase = r) p.erase q.erase := by
  induction h with
  | none => exact .none
  | call before new ih =>
    have next := Happens.call ih ⟨_, new, rfl⟩
    simpa only [Pool.erase, List.map_append, List.map_cons, List.map_nil] using next
  | @act es s ts i step tells next before here ih =>
    have here' : (ts.map Trail.erase)[i]? = some (.act step fun s => (next s).erase) := by
      rw [List.getElem?_map, here]
      rfl
    simpa only [Pool.erase, List.map_set] using Happens.act ih here'
  | @wait es s ts i next before here ih =>
    have here' : (ts.map Trail.erase)[i]? = some (.wait next.erase) := by
      rw [List.getElem?_map, here]
      rfl
    simpa only [Pool.erase, List.map_set] using Happens.wait ih here'

/-- Whatever happens to the routines is told by their trails. -/
theorem Happens.steps {comes : Trail σ ε α → Prop} {p : Pool σ (Trail σ ε α)}
    {q : Pool σ (Routine σ α)} (h : Happens (fun r => ∃ t, comes t ∧ t.erase = r) p.erase q) :
    ∃ es q', Steps comes p es q' ∧ q'.erase = q := by
  induction h with
  | none => exact ⟨[], p, .none, rfl⟩
  | call before new ih =>
    obtain ⟨es, ⟨s, ts⟩, steps, erased⟩ := ih
    obtain ⟨t, comes, rfl⟩ := new
    cases erased
    exact ⟨es, _, .call steps comes, by simp only [Pool.erase, List.map_append]; rfl⟩
  | @act _ _ i step next before here ih =>
    obtain ⟨es, ⟨s, ts⟩, steps, erased⟩ := ih
    cases erased
    rw [List.getElem?_map] at here
    obtain ⟨t, there, erased⟩ := Option.map_eq_some_iff.mp here
    cases t with
    | act step tells next' =>
      cases erased
      exact ⟨_, _, .act steps there, by simp only [Pool.erase, List.map_set]⟩
    | done a => cases erased
    | wait next' => cases erased
  | @wait _ _ i next before here ih =>
    obtain ⟨es, ⟨s, ts⟩, steps, erased⟩ := ih
    cases erased
    rw [List.getElem?_map] at here
    obtain ⟨t, there, erased⟩ := Option.map_eq_some_iff.mp here
    cases t with
    | wait next' =>
      cases erased
      exact ⟨_, _, .wait steps there, by simp only [Pool.erase, List.map_set]⟩
    | done a => cases erased
    | act step tells next' => cases erased

/-- Whatever happens to calls is told by their accounts. -/
theorem Happens.accounted {ι : Type} {work : ι → Routine σ α} {account : ι → Trail σ ε α}
    (erases : ∀ x, (account x).erase = work x) {ok : ι → Prop} {s₀ : σ} {q : Pool σ (Routine σ α)}
    (h : Happens (fun r => ∃ x, ok x ∧ work x = r) ⟨s₀, []⟩ q) :
    ∃ es q', Steps (fun t => ∃ x, ok x ∧ account x = t) ⟨s₀, []⟩ es q' ∧ q'.erase = q := by
  have told : Happens (fun r => ∃ t, (∃ x, ok x ∧ account x = t) ∧ t.erase = r)
      (Pool.erase (⟨s₀, []⟩ : Pool σ (Trail σ ε α))) q := by
    refine h.mono fun r new => ?_
    obtain ⟨x, hx, rfl⟩ := new
    exact ⟨account x, ⟨x, hx, rfl⟩, erases x⟩
  exact told.steps

/-- And what accounts tell happens to the calls. -/
theorem Steps.accounted {ι : Type} {work : ι → Routine σ α} {account : ι → Trail σ ε α}
    (erases : ∀ x, (account x).erase = work x) {ok : ι → Prop} {s₀ : σ} {es : List (Nat × ε)}
    {q : Pool σ (Trail σ ε α)} (h : Steps (fun t => ∃ x, ok x ∧ account x = t) ⟨s₀, []⟩ es q) :
    Happens (fun r => ∃ x, ok x ∧ work x = r) ⟨s₀, []⟩ q.erase := by
  refine h.happens.mono fun r new => ?_
  obtain ⟨t, ⟨x, hx, rfl⟩, rfl⟩ := new
  exact ⟨x, hx, (erases x).symm⟩

/-- The pool in which something was told, and the one after it. -/
theorem Steps.split {comes : Trail σ ε α → Prop} {p q : Pool σ (Trail σ ε α)}
    {es before after : List (Nat × ε)} {i : Nat} {e : ε} (h : Steps comes p es q)
    (told : es = before ++ (i, e) :: after) :
    ∃ s ts step tells next, Steps comes p before ⟨s, ts⟩ ∧
      ts[i]? = some (.act step tells next) ∧ tells s = e ∧
      Steps comes p (before ++ [(i, e)]) ⟨step s, ts.set i (next s)⟩ := by
  induction h generalizing after with
  | none => simp at told
  | call _ _ ih => exact ih told
  | wait _ _ ih => exact ih told
  | @act es s ts j step tells next steps here ih =>
    rcases List.eq_nil_or_concat after with rfl | ⟨after, last, rfl⟩
    · obtain ⟨rfl, last⟩ := List.append_inj' told rfl
      cases last
      exact ⟨s, ts, step, tells, next, steps, here, rfl, .act steps here⟩
    · rw [List.concat_eq_append, ← List.cons_append, ← List.append_assoc] at told
      exact ih (List.append_inj' told rfl).1

/-! ## Trails that obey a rule -/

namespace Trail

variable {μ : Type}

/-- What a trail may tell depends on a mode, which what it tells sets anew. `admits` relates the mode,
the state before a step, what is told and the state after it. -/
def Obeys (admits : μ → σ → ε → σ → Prop) (moves : μ → ε → μ) : μ → Trail σ ε α → Prop
  | _, done _ => True
  | m, act step tells next =>
    ∀ s, admits m s (tells s) (step s) ∧ Obeys admits moves (moves m (tells s)) (next s)
  | m, wait next => Obeys admits moves m next

variable {admits : μ → σ → ε → σ → Prop} {moves : μ → ε → μ}

theorem Obeys.bind {β : Type} {t : Trail σ ε α} {k : α → Trail σ ε β} {m : μ}
    (ht : t.Obeys admits moves m) (hk : ∀ a m, (k a).Obeys admits moves m) :
    (t.bind k).Obeys admits moves m := by
  induction t generalizing m with
  | done a => exact hk a m
  | act step tells next ih => exact fun s => ⟨(ht s).1, ih s (ht s).2⟩
  | wait next ih => exact ih ht

/-- A marked routine that tells nothing which would set its mode anew. -/
theorem Obeys.mark {tell : σ → σ → ε} {R : σ → σ → Prop} {r : Routine σ α} {m : μ}
    (hr : r.Within R) (still : ∀ s s', moves m (tell s s') = m)
    (told : ∀ s s', R s s' → admits m s (tell s s') s') :
    (Trail.mark tell r).Obeys admits moves m := by
  induction r with
  | done a => trivial
  | act step next ih =>
    intro s
    refine ⟨told _ _ (hr.1 s), ?_⟩
    rw [still]
    exact ih s (hr.2 s)
  | wait next ih => exact ih hr

end Trail

/-- The mode of a call after what has been told. -/
def modeAfter {μ : Type} (moves : μ → ε → μ) (m : μ) (i : Nat) (es : List (Nat × ε)) : μ :=
  es.foldl (fun m e => if e.1 = i then moves m e.2 else m) m

theorem modeAfter_append {μ : Type} (moves : μ → ε → μ) (m : μ) (i j : Nat) (es : List (Nat × ε))
    (e : ε) : modeAfter moves m i (es ++ [(j, e)]) =
      if j = i then moves (modeAfter moves m i es) e else modeAfter moves m i es := by
  unfold modeAfter
  rw [List.foldl_append]
  rfl

theorem modeAfter_self {μ : Type} (moves : μ → ε → μ) (m : μ) (i : Nat) (es : List (Nat × ε)) (e : ε) :
    modeAfter moves m i (es ++ [(i, e)]) = moves (modeAfter moves m i es) e := by
  rw [modeAfter_append, if_pos rfl]

theorem modeAfter_ne {μ : Type} (moves : μ → ε → μ) (m : μ) {i j : Nat} (other : j ≠ i)
    (es : List (Nat × ε)) (e : ε) :
    modeAfter moves m i (es ++ [(j, e)]) = modeAfter moves m i es := by
  rw [modeAfter_append, if_neg other]

theorem modeAfter_of_absent {μ : Type} (moves : μ → ε → μ) (m : μ) {i : Nat} {es : List (Nat × ε)}
    (absent : ∀ e ∈ es, e.1 ≠ i) : modeAfter moves m i es = m := by
  unfold modeAfter
  induction es generalizing m with
  | nil => rfl
  | cons e es ih =>
    rw [List.foldl_cons, if_neg (absent e (List.mem_cons_self ..))]
    exact ih m fun e' h => absent e' (List.mem_cons_of_mem _ h)

section
variable {μ : Type} {admits : μ → σ → ε → σ → Prop} {moves : μ → ε → μ} {m : μ}
variable {comes : Trail σ ε α → Prop} {s₀ : σ} {q : Pool σ (Trail σ ε α)} {es : List (Nat × ε)}

theorem Steps.known {p : Pool σ (Trail σ ε α)} (h : Steps comes p es q) :
    ∀ e ∈ es, e.1 < q.calls.length := by
  induction h with
  | none => simp
  | call before new ih =>
    intro e he
    have old := ih e he
    simp only [List.length_append, List.length_singleton] at old ⊢
    omega
  | @act es s ts i step tells next before here ih =>
    intro e he
    rw [List.length_set]
    rcases List.mem_append.mp he with he | he
    · exact ih e he
    · rw [List.mem_singleton.mp he]
      exact (List.getElem?_eq_some_iff.mp here).1
  | wait before here ih =>
    intro e he
    rw [List.length_set]
    exact ih e he

/-- Who is among the calls after one came. -/
theorem of_getElem?_concat {ι : Type} {xs : List ι} {x y : ι} {i : Nat}
    (there : (xs ++ [x])[i]? = some y) : xs[i]? = some y ∨ i = xs.length ∧ x = y := by
  rcases Nat.lt_or_ge i xs.length with old | fresh
  · rw [List.getElem?_append_left old] at there
    exact .inl there
  · rw [List.getElem?_append_right fresh] at there
    obtain ⟨last, same⟩ := List.getElem?_eq_some_iff.mp there
    rw [List.length_singleton] at last
    rw [List.getElem_singleton] at same
    exact .inr ⟨by omega, same⟩

/-- Who is among the calls after one went on. -/
theorem of_getElem?_set {ι : Type} {xs : List ι} {x y : ι} {i j : Nat}
    (there : (xs.set j x)[i]? = some y) : j = i ∧ x = y ∨ j ≠ i ∧ xs[i]? = some y := by
  by_cases same : j = i
  · subst same
    obtain ⟨bound, found⟩ := List.getElem?_eq_some_iff.mp there
    rw [List.getElem_set_self] at found
    exact .inl ⟨rfl, found⟩
  · rw [List.getElem?_set_ne same] at there
    exact .inr ⟨same, there⟩

/-- By induction on what happens: what holds of every call at first, and is kept by its steps as long
as `G` holds of the state, holds of all calls in the modes that they are in. -/
theorem Steps.keeps {P : Nat → μ → Trail σ ε α → Prop} {G : σ → Prop}
    {ts₀ : List (Trail σ ε α)} (start : G s₀)
    (first : ∀ i t, ts₀[i]? = some t → P i m t) (rule : ∀ i t, comes t → P i m t)
    (acts : ∀ i m step tells next s, G s → P i m (.act step tells next) →
      G (step s) ∧ P i (moves m (tells s)) (next s))
    (waits : ∀ i m next, P i m (.wait next) → P i m next)
    (h : Steps comes ⟨s₀, ts₀⟩ es q) :
    G q.state ∧ ∀ i t, q.calls[i]? = some t → P i (modeAfter moves m i es) t := by
  induction h with
  | none => exact ⟨start, first⟩
  | @call es s ts t' before new ih =>
    refine ⟨ih.1, fun i t there => ?_⟩
    rcases of_getElem?_concat there with old | ⟨rfl, rfl⟩
    · exact ih.2 i t old
    · have absent : ∀ e ∈ es, e.1 ≠ ts.length := fun e he => Nat.ne_of_lt (before.known e he)
      rw [modeAfter_of_absent moves m absent]
      exact rule _ t' new
  | @act es s ts j step tells next before here ih =>
    have moved := acts j _ step tells next s ih.1 (ih.2 j _ here)
    refine ⟨moved.1, fun i t there => ?_⟩
    rcases of_getElem?_set there with ⟨rfl, rfl⟩ | ⟨other, there⟩
    · rw [modeAfter_self]
      exact moved.2
    · rw [modeAfter_ne moves m other]
      exact ih.2 i t there
  | @wait es s ts j next before here ih =>
    refine ⟨ih.1, fun i t there => ?_⟩
    rcases of_getElem?_set there with ⟨rfl, rfl⟩ | ⟨-, there⟩
    · exact waits j _ _ (ih.2 j _ here)
    · exact ih.2 i t there

/-- Every call obeys the rule in the mode that it is in. -/
theorem Steps.obeys (rule : ∀ t, comes t → Trail.Obeys admits moves m t)
    (h : Steps comes ⟨s₀, []⟩ es q) {i : Nat} {t : Trail σ ε α} (there : q.calls[i]? = some t) :
    Trail.Obeys admits moves (modeAfter moves m i es) t := by
  refine (h.keeps (G := fun _ => True) trivial (fun i t there => by simp at there) (fun _ => rule)
    ?_ ?_).2 i t there
  · exact fun _ _ _ _ _ s _ obeys => ⟨trivial, (obeys s).2⟩
  · exact fun _ _ _ obeys => obeys

/-- Whatever is told is admitted, in the mode of its call and between the states around it. -/
theorem Steps.admits_of_told (rule : ∀ t, comes t → Trail.Obeys admits moves m t)
    (h : Steps comes ⟨s₀, []⟩ es q) {before after : List (Nat × ε)} {i : Nat} {e : ε}
    (told : es = before ++ (i, e) :: after) :
    ∃ q₁ q₂, Steps comes ⟨s₀, []⟩ before q₁ ∧ Steps comes ⟨s₀, []⟩ (before ++ [(i, e)]) q₂ ∧
      admits (modeAfter moves m i before) q₁.state e q₂.state := by
  obtain ⟨s, ts, step, tells, next, first, here, rfl, second⟩ := h.split told
  exact ⟨_, _, first, second, (first.obeys rule here s).1⟩

end

/-! ## A given order -/

/-- Lets calls go on in a given order, one step for each number; where one has ended or stands still,
nothing happens. -/
def Pool.play (p : Pool σ (Trail σ ε α)) : List Nat → Pool σ (Trail σ ε α) × List (Nat × ε)
  | [] => (p, [])
  | i :: is =>
    match p.calls[i]? with
    | some (.act step tells next) =>
      let (q, es) := Pool.play ⟨step p.state, p.calls.set i (next p.state)⟩ is
      (q, (i, tells p.state) :: es)
    | _ => Pool.play p is

theorem Steps.play {comes : Trail σ ε α → Prop} {p₀ p : Pool σ (Trail σ ε α)}
    {es : List (Nat × ε)} (before : Steps comes p₀ es p) (is : List Nat) :
    Steps comes p₀ (es ++ (p.play is).2) (p.play is).1 := by
  induction is generalizing p es with
  | nil =>
    rw [Pool.play, List.append_nil]
    exact before
  | cons i is ih =>
    rw [Pool.play]
    split
    · next step tells next here =>
      have later := ih (.act before here)
      rw [List.append_assoc] at later
      exact later
    · exact ih before

theorem Steps.come {comes : Trail σ ε α → Prop} {p : Pool σ (Trail σ ε α)} {es : List (Nat × ε)}
    {s : σ} {us ts : List (Trail σ ε α)} (before : Steps comes p es ⟨s, us⟩)
    (new : ∀ t ∈ ts, comes t) : Steps comes p es ⟨s, us ++ ts⟩ := by
  induction ts generalizing us with
  | nil =>
    rw [List.append_nil]
    exact before
  | cons t ts ih =>
    have next := before.call (new t (List.mem_cons_self ..))
    have rest := ih next fun u hu => new u (List.mem_cons_of_mem _ hu)
    rw [List.append_assoc] at rest
    exact rest

/-- Several calls come at once and go on in a given order. -/
theorem Steps.playAll {comes : Trail σ ε α → Prop} {s : σ} {ts : List (Trail σ ε α)}
    (new : ∀ t ∈ ts, comes t) (is : List Nat) :
    Steps comes ⟨s, []⟩ (Pool.play ⟨s, ts⟩ is).2 (Pool.play ⟨s, ts⟩ is).1 :=
  Steps.play (Steps.come .none new) is

/-- Some routines go on in a given order. -/
theorem Happens.play {s : σ} (rs : List (Routine σ α)) (is : List Nat) :
    Happens (fun _ => False) ⟨s, rs⟩
      (Pool.play ⟨s, rs.map (Trail.mark fun _ _ => ())⟩ is).1.erase := by
  have start : Pool.erase ⟨s, rs.map (Trail.mark fun _ _ => ())⟩ = ⟨s, rs⟩ := by
    unfold Pool.erase
    rw [List.map_map]
    have same : Trail.erase ∘ Trail.mark (fun _ _ => ()) = (id : Routine σ α → Routine σ α) :=
      funext (Trail.erase_mark _)
    rw [same, List.map_id]
  have played : Steps (fun _ => False) ⟨s, rs.map (Trail.mark fun _ _ => ())⟩ _ _ :=
    Steps.play .none is
  have happens := played.happens
  rw [start] at happens
  exact happens.mono fun _ ⟨_, never, _⟩ => never

end LintHub
