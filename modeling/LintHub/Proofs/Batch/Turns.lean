import LintHub.Proofs.Batch.Turn

/-! # Batches as chains of turns

`Linked h ts h'`: the turns follow each other from `h` to `h'`. `Stops` says why no turn follows the
last one: there is no name left, the flag is seen, or the next turn breaks. Every batch whose names
have been checked is such a chain, and its answer can be read off it.
-/

namespace LintHub.Hub

/-- Why no more turns follow. -/
inductive Stop where
  | finished
  | asked
  | broken (f : Fault)

/-- What a batch answers that collected these analyses. -/
def Stop.answer (as : List Analysis) : Stop → Except Fault (List Analysis)
  | broken f => .error f
  | _ => .ok as

inductive Stops (r : Request) : List String → Hub → Stop → Hub → Prop where
  | finished {h : Hub} : Stops r [] h .finished h
  | asked {h : Hub} {name : String} {names : List String} (flag : h.cancelled = true) :
    Stops r (name :: names) h .asked (h.noted .info name ("Batch cancelled before " ++ name))
  | broken {h h' : Hub} {name : String} {names : List String} {f : Fault}
    (flag : h.cancelled = false) (breaks : Breaks r name h f h') :
    Stops r (name :: names) h (.broken f) h'

def Linked : Hub → List Turn → Hub → Prop
  | h, [], h' => h = h'
  | h, t :: ts, h' => t.before = h ∧ Linked t.after ts h'

/-- A turn that was taken: nobody had asked the batch to stop. -/
structure Taken (r : Request) (t : Turn) : Prop where
  flag : t.before.cancelled = false
  went : TurnOf r t.name t.before t.fate t.after

/-- The turns that a batch takes from `h` on, the names that are left, and why. -/
structure Chain (r : Request) (names : List String) (h : Hub) (ts : List Turn) (rest : List String)
    (h₁ : Hub) (stop : Stop) (h' : Hub) : Prop where
  order : names = ts.map (·.name) ++ rest
  linked : Linked h ts h₁
  taken : ∀ t ∈ ts, Taken r t
  stops : Stops r rest h₁ stop h'

theorem outcome_runNames_asked {r : Request} {name : String} {names : List String} {h : Hub}
    (flag : h.cancelled = true) :
    (runNames View.whole r none (name :: names)).outcome h =
      (.ok [], h.noted .info name ("Batch cancelled before " ++ name)) := by
  rw [runNames_cons, Work.outcome_bind, Work.outcome_whole, outcome_stopsBefore, flag]
  rfl

theorem outcome_runNames_turn {r : Request} {name : String} {names : List String} {h : Hub}
    (flag : h.cancelled = false) :
    (runNames View.whole r none (name :: names)).outcome h =
      match (turn View.whole r none name).outcome h with
      | (.ok a?, h₁) =>
        ((runNames View.whole r none names).outcome h₁).map (.map (a?.toList ++ ·)) id
      | (.error f, h₁) => (.error f, h₁) := by
  rw [runNames_cons, Work.outcome_bind, Work.outcome_whole, outcome_stopsBefore, flag]
  simp only [Bool.false_eq_true, if_false]
  rw [Work.outcome_bind]
  rcases (turn View.whole r none name).outcome h with ⟨f | a?, h₁⟩
  · rfl
  · cases a? with
    | none =>
      dsimp only
      rcases (runNames View.whole r none names).outcome h₁ with ⟨_ | _, _⟩ <;> rfl
    | some a =>
      dsimp only
      rw [Work.outcome_bind]
      rcases (runNames View.whole r none names).outcome h₁ with ⟨_ | _, _⟩ <;> rfl

/-- By induction on the names: each one is the next turn, or the batch stops before it or with it. -/
theorem chain_exists (r : Request) (names : List String) (h : Hub) :
    ∃ ts rest h₁ stop h', Chain r names h ts rest h₁ stop h' := by
  induction names generalizing h with
  | nil => exact ⟨[], [], h, .finished, h, rfl, rfl, by simp, .finished⟩
  | cons name names ih =>
    cases flag : h.cancelled with
    | true => exact ⟨[], name :: names, h, .asked, _, rfl, rfl, by simp, .asked flag⟩
    | false =>
      rcases turn_total r name h with ⟨fate, h₂, went⟩ | ⟨f, h₂, breaks⟩
      · obtain ⟨ts, rest, h₁, stop, h', order, linked, taken, stops⟩ := ih h₂
        refine ⟨⟨name, h, fate, h₂⟩ :: ts, rest, h₁, stop, h', ?_, ⟨rfl, linked⟩, ?_, stops⟩
        · rw [order]
          rfl
        · intro t ht
          rcases List.mem_cons.mp ht with rfl | ht
          · exact ⟨flag, went⟩
          · exact taken t ht
      · exact ⟨[], name :: names, h, .broken f, h₂, rfl, rfl, by simp, .broken flag breaks⟩

theorem Stops.outcome {r : Request} {names : List String} {h h' : Hub} {stop : Stop}
    (stops : Stops r names h stop h') :
    (runNames View.whole r none names).outcome h = (stop.answer [], h') := by
  cases stops with
  | finished => rfl
  | asked flag => exact outcome_runNames_asked flag
  | broken flag breaks =>
    rw [outcome_runNames_turn flag, breaks.outcome]
    rfl

theorem Chain.outcome {r : Request} {names rest : List String} {h h₁ h' : Hub} {ts : List Turn}
    {stop : Stop} (chain : Chain r names h ts rest h₁ stop h') :
    (runNames View.whole r none names).outcome h =
      (stop.answer (ts.filterMap Turn.result?), h') := by
  obtain ⟨order, linked, taken, stops⟩ := chain
  subst order
  induction ts generalizing h with
  | nil =>
    cases linked
    exact stops.outcome
  | cons t ts ih =>
    obtain ⟨rfl, linked⟩ := linked
    have first := taken t (List.mem_cons_self ..)
    have others := ih linked fun t' ht => taken t' (List.mem_cons_of_mem _ ht)
    rw [List.map_cons, List.cons_append, outcome_runNames_turn first.flag, first.went.outcome]
    dsimp only
    rw [others, List.filterMap_cons]
    cases stop <;> cases t.result? <;> rfl

end LintHub.Hub
