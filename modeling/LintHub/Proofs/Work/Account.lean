import LintHub.Proofs.Work.Trail

/-! # Accounts

An account is work that tells of its steps. A rule says what may be told in which mode; `Leads` says
that an account keeps to it and what it comes to. A rule may rely on what all steps that it admits
keep of the state.
-/

namespace LintHub

variable {σ ε α β μ : Type}

namespace Trail

variable {given : σ → Prop} {admits : μ → σ → ε → σ → Prop} {moves : μ → ε → μ}

/-- A trail that keeps to a rule, on states of which `given` holds; `post` holds of what it comes to
and of the mode that it ends in. -/
def Leads (given : σ → Prop) (admits : μ → σ → ε → σ → Prop) (moves : μ → ε → μ)
    (post : μ → α → Prop) : μ → Trail σ ε α → Prop
  | m, done a => post m a
  | m, act step tells next => ∀ s, given s →
    admits m s (tells s) (step s) ∧ Leads given admits moves post (moves m (tells s)) (next s)
  | m, wait next => Leads given admits moves post m next

theorem Leads.bind {t : Trail σ ε α} {k : α → Trail σ ε β} {mid : μ → α → Prop}
    {post : μ → β → Prop} {m : μ} (ht : t.Leads given admits moves mid m)
    (hk : ∀ m a, mid m a → (k a).Leads given admits moves post m) :
    (t.bind k).Leads given admits moves post m := by
  induction t generalizing m with
  | done a => exact hk m a ht
  | act step tells next ih => exact fun s hs => ⟨(ht s hs).1, ih s (ht s hs).2⟩
  | wait next ih => exact ih ht

theorem Leads.mono {t : Trail σ ε α} {post post' : μ → α → Prop} {m : μ}
    (ht : t.Leads given admits moves post m) (h : ∀ m a, post m a → post' m a) :
    t.Leads given admits moves post' m := by
  induction t generalizing m with
  | done a => exact h m a ht
  | act step tells next ih => exact fun s hs => ⟨(ht s hs).1, ih s (ht s hs).2⟩
  | wait next ih => exact ih ht

/-- A marked routine that stays in modes of a sort comes to what the routine can come to. -/
theorem Leads.mark_yields {tell : σ → σ → ε} {R : σ → σ → Prop} {I : μ → Prop} {r : Routine σ α}
    (hr : r.Within R) (stays : ∀ m s s', I m → R s s' → I (moves m (tell s s')))
    (told : ∀ m s s', I m → given s → R s s' → admits m s (tell s s') s') {m : μ} (hm : I m) :
    (Trail.mark tell r).Leads given admits moves (fun m' a => I m' ∧ r.Yields a) m := by
  induction r generalizing m with
  | done a => exact ⟨hm, rfl⟩
  | act step next ih =>
    refine fun s hs => ⟨told m _ _ hm hs (hr.1 s), ?_⟩
    refine (ih s (hr.2 s) (stays m _ _ hm (hr.1 s))).mono ?_
    exact fun m' a ⟨stayed, yields⟩ => ⟨stayed, s, yields⟩
  | wait next ih => exact ih hr hm

theorem Leads.mark {tell : σ → σ → ε} {R : σ → σ → Prop} {I : μ → Prop} {r : Routine σ α}
    (hr : r.Within R) (stays : ∀ m s s', I m → R s s' → I (moves m (tell s s')))
    (told : ∀ m s s', I m → given s → R s s' → admits m s (tell s s') s') {m : μ} (hm : I m) :
    (Trail.mark tell r).Leads given admits moves (fun m' _ => I m') m :=
  (Leads.mark_yields hr stays told hm).mono fun _ _ stayed => stayed.1

end Trail

/-- By induction on what happens: all calls keep to the rule in the modes that they are in, and what
the rule relies on holds of the state. -/
theorem Steps.leads {given : σ → Prop} {admits : μ → σ → ε → σ → Prop} {moves : μ → ε → μ}
    {post : μ → α → Prop} {m : μ} {comes : Trail σ ε α → Prop} {s₀ : σ} {q : Pool σ (Trail σ ε α)}
    {es : List (Nat × ε)} (rule : ∀ t, comes t → t.Leads given admits moves post m)
    (kept : ∀ m s e s', given s → admits m s e s' → given s') (start : given s₀)
    (h : Steps comes ⟨s₀, []⟩ es q) :
    given q.state ∧ ∀ i (t : Trail σ ε α), q.calls[i]? = some t →
      t.Leads given admits moves post (modeAfter moves m i es) := by
  refine h.keeps start (fun i t there => by simp at there) (fun _ => rule) ?_ fun _ _ _ ht => ht
  exact fun _ m _ _ _ s hs ht => ⟨kept m s _ _ hs (ht s hs).1, (ht s hs).2⟩

/-- Each of some calls comes to what it is to come to, whatever the state is. -/
theorem Steps.leads_each {admits : μ → σ → ε → σ → Prop} {moves : μ → ε → μ}
    {post : Nat → μ → α → Prop} {m : μ} {s₀ : σ} {ts : List (Trail σ ε α)} {q : Pool σ (Trail σ ε α)}
    {es : List (Nat × ε)}
    (rule : ∀ (i : Nat) (t : Trail σ ε α), ts[i]? = some t → t.Leads (fun _ => True) admits moves (post i) m)
    (h : Steps (fun _ => False) ⟨s₀, ts⟩ es q) {i : Nat} {a : α} (done : q.calls[i]? = some (.done a)) :
    post i (modeAfter moves m i es) a := by
  refine (h.keeps (G := fun _ => True)
    (P := fun i m t => Trail.Leads (fun _ => True) admits moves (post i) m t)
    trivial rule (fun _ _ never => never.elim) ?_ fun _ _ _ ht => ht).2 i _ done
  exact fun _ m _ _ _ s _ ht => ⟨trivial, (ht s trivial).2⟩

/-- Whatever is told is admitted, in the mode of its call and between the states around it. -/
theorem Steps.admits_of_leads {given : σ → Prop} {admits : μ → σ → ε → σ → Prop}
    {moves : μ → ε → μ} {post : μ → α → Prop} {m : μ} {comes : Trail σ ε α → Prop} {s₀ : σ}
    {q : Pool σ (Trail σ ε α)} {es before after : List (Nat × ε)} {i : Nat} {e : ε}
    (rule : ∀ t, comes t → t.Leads given admits moves post m)
    (kept : ∀ m s e s', given s → admits m s e s' → given s') (start : given s₀)
    (h : Steps comes ⟨s₀, []⟩ es q) (told : es = before ++ (i, e) :: after) :
    ∃ q₁ q₂, Steps comes ⟨s₀, []⟩ before q₁ ∧ Steps comes ⟨s₀, []⟩ (before ++ [(i, e)]) q₂ ∧
      admits (modeAfter moves m i before) q₁.state e q₂.state := by
  obtain ⟨s, ts, step, tells, next, first, here, rfl, second⟩ := h.split told
  obtain ⟨holds, all⟩ := first.leads rule kept start
  exact ⟨_, _, first, second, (all i _ here s holds).1⟩

/-- What holds at first of what was told and of the state, and is kept by everything that is admitted,
holds after whatever happens. -/
theorem Steps.history {given : σ → Prop} {admits : μ → σ → ε → σ → Prop} {moves : μ → ε → μ}
    {post : μ → α → Prop} {m : μ} {comes : Trail σ ε α → Prop} {s₀ : σ} {q : Pool σ (Trail σ ε α)}
    {es : List (Nat × ε)} {P : List (Nat × ε) → σ → Prop}
    (rule : ∀ t, comes t → t.Leads given admits moves post m)
    (kept : ∀ m s e s', given s → admits m s e s' → given s') (start : given s₀) (first : P [] s₀)
    (next : ∀ es i s e s', P es s → admits (modeAfter moves m i es) s e s' → P (es ++ [(i, e)]) s')
    (h : Steps comes ⟨s₀, []⟩ es q) : P es q.state := by
  induction h with
  | none => exact first
  | call before new ih => exact ih
  | @act es s ts i step tells go before here ih =>
    obtain ⟨holds, all⟩ := before.leads rule kept start
    exact next es i s _ _ ih (all i _ here s holds).1
  | wait before here ih => exact ih

/-! ## Work that tells of its steps -/

/-- Work that tells of its steps and may fail. -/
abbrev Account (σ ε α : Type) := ExceptT Fault (Trail σ ε) α

namespace Account

/-- Work of whose steps is told what a function makes of the states before and after them. -/
def of (tell : σ → σ → ε) (w : Work σ α) : Account σ ε α :=
  ExceptT.mk (Trail.mark tell w.run)

def ofExcept (e : Except Fault α) : Account σ ε α :=
  ExceptT.mk (.done e)

def attempt (w : Account σ ε α) : Account σ ε (Except Fault α) :=
  ExceptT.mk (Trail.bind w.run fun r => .done (.ok r))

/-- The work without what it tells. -/
def erase (w : Account σ ε α) : Work σ α :=
  ExceptT.mk (Trail.erase w.run)

@[simp] theorem erase_pure (a : α) : erase (pure a : Account σ ε α) = pure a := rfl

@[simp] theorem erase_throw (f : Fault) : erase (throw f : Account σ ε α) = throw f := rfl

@[simp] theorem erase_ofExcept (e : Except Fault α) :
    erase (ofExcept e : Account σ ε α) = Work.ofExcept e := rfl

@[simp] theorem erase_of (tell : σ → σ → ε) (w : Work σ α) : erase (of tell w) = w :=
  Trail.erase_mark _ _

@[simp] theorem erase_bind (w : Account σ ε α) (k : α → Account σ ε β) :
    erase (w >>= k) = erase w >>= fun a => erase (k a) := by
  show Trail.erase (Trail.bind w.run (ExceptT.bindCont k)) = _
  rw [Trail.erase_bind]
  show _ = Routine.bind _ _
  congr 1
  funext r
  cases r <;> rfl

@[simp] theorem erase_map (g : α → β) (w : Account σ ε α) : erase (g <$> w) = g <$> erase w := by
  show Trail.erase (Trail.bind w.run _) = _
  rw [Trail.erase_bind]
  show _ = Routine.bind _ _
  congr 1
  funext r
  cases r <;> rfl

@[simp] theorem erase_discard (w : Account σ ε α) : erase (discard w) = discard (erase w) :=
  erase_map _ w

@[simp] theorem erase_attempt (w : Account σ ε α) : erase w.attempt = w.erase.attempt :=
  Trail.erase_bind _ _

/-! ## Accounts that keep to a rule -/

variable {given : σ → Prop} {admits : μ → σ → ε → σ → Prop} {moves : μ → ε → μ}
variable {post : μ → Except Fault β → Prop} {m : μ}

theorem leads_bind {w : Account σ ε α} {k : α → Account σ ε β} {mid : μ → Except Fault α → Prop}
    (hw : w.run.Leads given admits moves mid m)
    (ok : ∀ m a, mid m (.ok a) → (k a).run.Leads given admits moves post m)
    (error : ∀ m f, mid m (.error f) → post m (.error f)) :
    (w >>= k).run.Leads given admits moves post m :=
  Trail.Leads.bind hw fun m e he => by
    cases e with
    | ok a => exact ok m a he
    | error f => exact error m f he

/-- Work that never fails, and what comes after it. -/
theorem leads_bind_ok {w : Account σ ε α} {k : α → Account σ ε β} {mid : μ → α → Prop}
    (hw : w.run.Leads given admits moves (fun m e => ∃ a, e = .ok a ∧ mid m a) m)
    (ok : ∀ m a, mid m a → (k a).run.Leads given admits moves post m) :
    (w >>= k).run.Leads given admits moves post m := by
  refine leads_bind hw ?_ ?_
  · rintro m a ⟨_, ⟨⟩, ha⟩
    exact ok m a ha
  · rintro m f ⟨_, bad, -⟩
    cases bad

theorem leads_attempt {w : Account σ ε α} {mid : μ → Except Fault α → Prop}
    (hw : w.run.Leads given admits moves mid m) :
    w.attempt.run.Leads given admits moves (fun m e => ∃ o, e = .ok o ∧ mid m o) m :=
  Trail.Leads.bind hw fun _ o ho => ⟨o, rfl, ho⟩

theorem leads_map {w : Account σ ε α} {g : α → β} {mid : μ → Except Fault α → Prop}
    (hw : w.run.Leads given admits moves mid m) (h : ∀ m e, mid m e → post m (e.map g)) :
    (g <$> w).run.Leads given admits moves post m :=
  Trail.Leads.bind hw fun m e he => by
    have mapped := h m e he
    cases e <;> exact mapped

/-- One atomic step. -/
theorem leads_step {act : Act σ α} {tell : σ → σ → ε} {post : μ → Except Fault α → Prop}
    (told : ∀ s, given s → ∃ e s', act.outcome s = (e, s') ∧
      admits m s (tell s s') s' ∧ post (moves m (tell s s')) e) :
    (of tell (View.whole.work act)).run.Leads given admits moves post m := by
  intro s hs
  obtain ⟨e, s', outcome, admitted, holds⟩ := told s hs
  show admits m s (tell s (act.outcome s).2) (act.outcome s).2 ∧
    post (moves m (tell s (act.outcome s).2)) (act.outcome s).1
  rw [outcome]
  exact ⟨admitted, holds⟩

/-- Work that stays in modes of a sort. -/
theorem leads_of {w : Work σ α} {tell : σ → σ → ε} {R : σ → σ → Prop} {I : μ → Prop}
    (hw : Work.Within R w) (stays : ∀ m s s', I m → R s s' → I (moves m (tell s s')))
    (told : ∀ m s s', I m → given s → R s s' → admits m s (tell s s') s') (hm : I m) :
    (of tell w).run.Leads given admits moves (fun m' _ => I m') m :=
  Trail.Leads.mark hw stays told hm

end Account

end LintHub
