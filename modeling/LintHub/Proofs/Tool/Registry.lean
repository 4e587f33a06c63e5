import Mathlib.Data.List.Induction
import Mathlib.Data.String.Basic
import LintHub.Proofs.Batch.Frame
import LintHub.Proofs.Lists
import LintHub.Tool.Registry

/-! # The registry and the hubs built from it

The registry knows the factories that were accepted last and not cleared away since. A hub that is
built from it holds what they make, one tool for each time it is asked for: its names stand in the
order in which they first came, and lead to the tool that came last.
-/

namespace LintHub

namespace Registry

/-! ## What is done to a registry -/

inductive Change where
  /-- What is given may be no factory. -/
  | register (name : String) (f : Option Factory)
  /-- Registers a kind of tool where it is defined. -/
  | decorate (name : String) (f : Factory)
  | clear

namespace Change

/-- The registry after a change, unless it is refused. -/
def make (g : Registry) : Change → Except Fault Registry
  | register name f => g.register name f
  | decorate name f => g.register name (some f)
  | clear => .ok g.clear

/-- The change registers a factory under a name. -/
inductive Registers : Change → String → Factory → Prop where
  | register {name : String} {f : Factory} (named : name ≠ "") :
    Registers (register name (some f)) name f
  | decorate {name : String} {f : Factory} (named : name ≠ "") : Registers (decorate name f) name f

theorem Registers.unique {c : Change} {n n' : String} {f f' : Factory} (h : c.Registers n f)
    (h' : c.Registers n' f') : n = n' ∧ f = f' := by
  cases h <;> cases h' <;> exact ⟨rfl, rfl⟩

theorem Registers.ne_clear {c : Change} {n : String} {f : Factory} (h : c.Registers n f) :
    c ≠ .clear := by
  cases h <;> exact Change.noConfusion

end Change

/-- The registry after a change; one that is refused leaves it as it is. -/
def change (g : Registry) (c : Change) : Registry :=
  match c.make g with
  | .ok g' => g'
  | .error _ => g

/-- What some changes make of a new registry. -/
def after (cs : List Change) : Registry :=
  cs.foldl change empty

/-- A factory was registered under a name, and what was registered was not cleared away since. -/
def Kept (cs : List Change) (n : String) : Prop :=
  ∃ before c rest f, cs = before ++ c :: rest ∧ c.Registers n f ∧ .clear ∉ rest

/-- The last factory that was registered under a name since what was registered was cleared away. -/
def Last (cs : List Change) (n : String) (f : Factory) : Prop :=
  ∃ before c rest, cs = before ++ c :: rest ∧ c.Registers n f ∧ .clear ∉ rest ∧
    ∀ c' ∈ rest, ∀ f', ¬ c'.Registers n f'

/-! ## One change -/

/-- The ways a change can go. -/
inductive Change.Goes (g : Registry) : Change → Except Fault Registry → Prop where
  | registers {c : Change} {n : String} {f : Factory} (registers : c.Registers n f) :
    Goes g c (.ok ⟨setNamed g.factories n f⟩)
  | clears : Goes g .clear (.ok empty)
  | refused {c : Change} {fault : Fault} (no : ∀ n f, ¬ c.Registers n f) (other : c ≠ .clear) :
    Goes g c (.error fault)

theorem register_some (g : Registry) (name : String) (f : Factory) :
    g.register name (some f) =
      if name = "" then .error .emptyToolName else .ok ⟨setNamed g.factories name f⟩ := by
  simp only [register, String.isEmpty_iff]

theorem register_none (g : Registry) (name : String) : ∃ fault, g.register name none = .error fault := by
  unfold register
  split <;> exact ⟨_, rfl⟩

theorem Change.goes (g : Registry) (c : Change) : c.Goes g (c.make g) := by
  cases c with
  | clear => exact .clears
  | decorate name f =>
    rw [make, register_some]
    split
    · next empty =>
      refine .refused (fun n f' h => ?_) Change.noConfusion
      cases h with
      | decorate named => exact named empty
    · next named => exact .registers (.decorate named)
  | register name f =>
    cases f with
    | none =>
      obtain ⟨fault, refused⟩ := g.register_none name
      rw [make, refused]
      exact .refused (fun n f' h => nomatch h) Change.noConfusion
    | some f =>
      rw [make, register_some]
      split
      · next empty =>
        refine .refused (fun n f' h => ?_) Change.noConfusion
        cases h with
        | register named => exact named empty
      · next named => exact .registers (.register named)

theorem after_concat (cs : List Change) (c : Change) : after (cs ++ [c]) = (after cs).change c := by
  rw [after, List.foldl_append]
  rfl

/-- The factories after a change. -/
theorem change_cases (g : Registry) (c : Change) :
    (∃ n f, c.Registers n f ∧ (g.change c).factories = setNamed g.factories n f) ∨
      (c = .clear ∧ (g.change c).factories = []) ∨
      ((∀ n f, ¬ c.Registers n f) ∧ c ≠ .clear ∧ g.change c = g) := by
  have goes := c.goes g
  unfold change
  revert goes
  generalize c.make g = e
  intro goes
  cases goes with
  | registers registers => exact .inl ⟨_, _, registers, rfl⟩
  | clears => exact .inr (.inl ⟨rfl, rfl⟩)
  | refused no other => exact .inr (.inr ⟨no, other, rfl⟩)

/-! ## Some changes -/

section
variable {cs : List Change} {c : Change} {n : String} {f : Factory}

theorem last_concat : Last (cs ++ [c]) n f ↔
    c.Registers n f ∨ Last cs n f ∧ c ≠ .clear ∧ ∀ f', ¬ c.Registers n f' := by
  constructor
  · rintro ⟨before, c', rest, split, registers, held, last⟩
    rcases split_concat split with ⟨-, -, rfl⟩ | ⟨rest', rfl, rfl⟩
    · exact .inl registers
    · refine .inr ⟨⟨before, c', rest', rfl, registers, ?_, ?_⟩, ?_, ?_⟩
      · exact fun cleared => held (List.mem_append_left _ cleared)
      · exact fun c'' mem => last c'' (List.mem_append_left _ mem)
      · rintro rfl
        exact held (List.mem_append_right _ (List.mem_singleton.mpr rfl))
      · exact last c (List.mem_append_right _ (List.mem_singleton.mpr rfl))
  · rintro (registers | ⟨⟨before, c', rest, rfl, registers, held, last⟩, no_clear, no_other⟩)
    · exact ⟨cs, c, [], rfl, registers, List.not_mem_nil, fun _ mem => nomatch mem⟩
    · refine ⟨before, c', rest ++ [c], by simp, registers, ?_, fun c'' mem => ?_⟩
      · rw [List.mem_append, List.mem_singleton, not_or]
        exact ⟨held, Ne.symm no_clear⟩
      · rcases List.mem_append.mp mem with old | new
        · exact last c'' old
        · exact List.mem_singleton.mp new ▸ no_other

theorem kept_concat : Kept (cs ++ [c]) n ↔ (∃ f, c.Registers n f) ∨ Kept cs n ∧ c ≠ .clear := by
  constructor
  · rintro ⟨before, c', rest, f, split, registers, held⟩
    rcases split_concat split with ⟨-, -, rfl⟩ | ⟨rest', rfl, rfl⟩
    · exact .inl ⟨f, registers⟩
    · refine .inr ⟨⟨before, c', rest', f, rfl, registers, ?_⟩, ?_⟩
      · exact fun cleared => held (List.mem_append_left _ cleared)
      · rintro rfl
        exact held (List.mem_append_right _ (List.mem_singleton.mpr rfl))
  · rintro (⟨f, registers⟩ | ⟨⟨before, c', rest, f, rfl, registers, held⟩, no_clear⟩)
    · exact ⟨cs, c, [], f, rfl, registers, List.not_mem_nil⟩
    · refine ⟨before, c', rest ++ [c], f, by simp, registers, ?_⟩
      rw [List.mem_append, List.mem_singleton, not_or]
      exact ⟨held, Ne.symm no_clear⟩

end

theorem factory?_after (cs : List Change) (n : String) (f : Factory) :
    (after cs).factory? n = some f ↔ Last cs n f := by
  induction cs using List.reverseRecOn with
  | nil =>
    refine iff_of_false (fun found => nomatch found) ?_
    rintro ⟨before, c, rest, split, -⟩
    simp at split
  | append_singleton cs c ih =>
    rw [last_concat, after_concat, ← ih, factory?, factory?]
    rcases change_cases (after cs) c with ⟨m, f', registers, factories⟩ | ⟨rfl, none⟩ | ⟨no, other, same⟩
    · rw [factories, lookup_setNamed]
      by_cases here : n = m
      · subst here
        have this : c.Registers n f ↔ f' = f :=
          ⟨fun h => (registers.unique h).2, fun h => h ▸ registers⟩
        simp only [if_true, Option.some.injEq, this]
        exact ⟨.inl, fun h => h.resolve_right fun old => old.2.2 f' registers⟩
      · have no (f'') : ¬ c.Registers n f'' := fun h => here (h.unique registers).1
        rw [if_neg here]
        exact ⟨fun old => .inr ⟨old, registers.ne_clear, no⟩, fun h => (h.resolve_left (no f)).1⟩
    · rw [none]
      refine iff_of_false (fun found => nomatch found) ?_
      rintro (registers | old)
      · cases registers
      · exact old.2.1 rfl
    · rw [same]
      exact ⟨fun old => .inr ⟨old, other, no n⟩, fun h => (h.resolve_left (no n f)).1⟩

theorem kept_iff_last (cs : List Change) (n : String) : Kept cs n ↔ ∃ f, Last cs n f := by
  induction cs using List.reverseRecOn with
  | nil => simp [Kept, Last]
  | append_singleton cs c ih =>
    rw [kept_concat, ih]
    simp only [last_concat, exists_or]
    constructor
    · rintro (here | ⟨⟨f, old⟩, no_clear⟩)
      · exact .inl here
      · by_cases here : ∃ f, c.Registers n f
        · exact .inl here
        · exact .inr ⟨f, old, no_clear, fun f' h => here ⟨f', h⟩⟩
    · rintro (here | ⟨f, old, no_clear, -⟩)
      · exact .inl here
      · exact .inr ⟨⟨f, old⟩, no_clear⟩

theorem nodup_after (cs : List Change) : ((after cs).factories.map (·.1)).Nodup := by
  induction cs using List.reverseRecOn with
  | nil => exact List.nodup_nil
  | append_singleton cs c ih =>
    rw [after_concat]
    rcases change_cases (after cs) c with ⟨n, f, -, factories⟩ | ⟨-, none⟩ | ⟨-, -, same⟩
    · exact factories ▸ nodup_setNamed ih
    · exact none ▸ List.nodup_nil
    · rw [same]
      exact ih

/-! ## What a registry says -/

theorem list_perm (g : Registry) : g.list.Perm (g.factories.map (·.1)) :=
  List.mergeSort_perm ..

theorem list_sorted {g : Registry} (distinct : (g.factories.map (·.1)).Nodup) :
    g.list.Pairwise (· < ·) := by
  have trans (a b c : String) (first : decide (a ≤ b) = true) (second : decide (b ≤ c) = true) :
      decide (a ≤ c) = true :=
    decide_eq_true (le_trans (of_decide_eq_true first) (of_decide_eq_true second))
  have total (a b : String) : (decide (a ≤ b) || decide (b ≤ a)) = true := by
    simpa using le_total a b
  have sorted : g.list.Pairwise (· ≤ ·) :=
    (List.pairwise_mergeSort trans total _).imp of_decide_eq_true
  have nodup : g.list.Pairwise (· ≠ ·) := g.list_perm.nodup_iff.mpr distinct
  exact (sorted.and nodup).imp fun h => lt_of_le_of_ne h.1 h.2

theorem mem_list_after (cs : List Change) (n : String) : n ∈ (after cs).list ↔ Kept cs n := by
  rw [(after cs).list_perm.mem_iff, ← lookup_isSome_iff, kept_iff_last]
  exact exists_congr (factory?_after cs n)

/-- The tool that the factory of a name makes. -/
def made? (g : Registry) (n : String) : Option Tool :=
  match g.factory? n with
  | some (.makes t) => some t
  | _ => none

theorem made?_after (cs : List Change) (n : String) (t : Tool) :
    (after cs).made? n = some t ↔ Last cs n (.makes t) := by
  rw [← factory?_after, made?]
  rcases (after cs).factory? n with _ | t' | f <;> simp

theorem made?_after_none (cs : List Change) (n : String) :
    (after cs).made? n = none ↔ ¬ Kept cs n ∨ ∃ f, Last cs n (.fails f) := by
  rw [kept_iff_last]
  simp only [← factory?_after, made?]
  rcases (after cs).factory? n with _ | t' | f <;> simp

theorem outcome_create (g : Registry) (n : String) (w : World) :
    ∃ w', (g.create n).outcome w = (.ok (g.made? n), w') := by
  unfold create made?
  rcases g.factory? n with _ | t | f <;> exact ⟨_, rfl⟩

end Registry

namespace Hub

/-! ## What is built from a registry -/

/-- The last tool with a name. -/
def LastNamed (ts : List Tool) (n : String) (i : ToolId) : Prop :=
  ∃ t, ts[i]? = some t ∧ t.name = n ∧ ∀ j t', i < j → ts[j]? = some t' → t'.name ≠ n

/-- The hub holds some tools, in the order in which they were made. Each name leads to the last one
that has it, and the names stand in the order in which they first came. -/
structure Carries (h : Hub) (ts : List Tool) : Prop where
  tools : h.tools = ts
  names : h.registered = (ts.map Tool.name).eraseDups
  leads : ∀ n i, h.idOf? n = some i ↔ LastNamed ts n i

theorem getElem?_concat_iff {ts : List Tool} {t t' : Tool} {j : Nat} :
    (ts ++ [t])[j]? = some t' ↔ ts[j]? = some t' ∨ j = ts.length ∧ t' = t := by
  rw [List.getElem?_append]
  split
  · next inside =>
    exact ⟨.inl, fun h => h.resolve_right fun last => absurd last.1 (Nat.ne_of_lt inside)⟩
  · next outside =>
    rw [List.getElem?_eq_none (Nat.le_of_not_lt outside), List.getElem?_singleton]
    by_cases last : j = ts.length
    · simp [last, eq_comm]
    · rw [if_neg (by omega)]
      simp [last]

theorem lastNamed_concat {ts : List Tool} {t : Tool} {n : String} {i : ToolId} :
    LastNamed (ts ++ [t]) n i ↔ if n = t.name then i = ts.length else LastNamed ts n i := by
  have inside {j t'} (h : ts[j]? = some t') : j < ts.length := (List.getElem?_eq_some_iff.mp h).1
  simp only [LastNamed, getElem?_concat_iff]
  split
  · next same =>
    constructor
    · rintro ⟨t', old | ⟨rfl, -⟩, -, last⟩
      · exact absurd same.symm (last ts.length t (inside old) (.inr ⟨rfl, rfl⟩))
      · rfl
    · rintro rfl
      refine ⟨t, .inr ⟨rfl, rfl⟩, same.symm, fun j t' after there => ?_⟩
      rcases there with old | ⟨rfl, -⟩
      · exact absurd (inside old) (Nat.lt_asymm after)
      · exact absurd after (Nat.lt_irrefl _)
  · next other =>
    constructor
    · rintro ⟨t', old | ⟨-, rfl⟩, named, last⟩
      · exact ⟨t', old, named, fun j t'' after there => last j t'' after (.inl there)⟩
      · exact absurd named.symm other
    · rintro ⟨t', old, named, last⟩
      refine ⟨t', .inl old, named, fun j t'' after there => ?_⟩
      rcases there with old | ⟨-, rfl⟩
      · exact last j t'' after old
      · exact Ne.symm other

theorem new_carries (w : World) : (new w).Carries [] where
  tools := rfl
  names := rfl
  leads n i := by simp [idOf?, new, LastNamed]

section
variable {h : Hub} {ts : List Tool}

theorem Carries.withWorld (carries : h.Carries ts) (w : World) : Carries { h with world := w } ts :=
  ⟨carries.tools, carries.names, carries.leads⟩

theorem Carries.enter (carries : h.Carries ts) (t : Tool) : (h.enter t).Carries (ts ++ [t]) where
  tools := congrArg (· ++ [t]) carries.tools
  names := by
    show (setNamed h.names t.name h.tools.length).map (·.1) = _
    have old : h.names.map (·.1) = _ := carries.names
    rw [names_setNamed, old, List.map_append, List.map_singleton, eraseDups_concat]
    simp only [List.mem_eraseDups]
  leads n i := by
    show (setNamed h.names t.name h.tools.length).lookup n = some i ↔ _
    have old : h.names.lookup n = some i ↔ _ := carries.leads n i
    rw [lookup_setNamed, carries.tools, lastNamed_concat]
    split
    · rw [Option.some.injEq, eq_comm]
    · exact old

variable {g : Registry}

theorem registerFrom_carries (carries : h.Carries ts) (n : String)
    (named : ∀ t, g.made? n = some t → t.name ≠ "") :
    ∃ h', (registerFrom g n).outcome h = (.ok (), h') ∧ h'.Carries (ts ++ (g.made? n).toList) := by
  obtain ⟨w', creates⟩ := g.outcome_create n h.world
  have asks : (inWorld (g.create n)).outcome h = (.ok (g.made? n), { h with world := w' }) := by
    have created : (g.create n).outcome (worldView.get h) = _ := creates
    rw [inWorld, Act.outcome_view, created]
    rfl
  unfold registerFrom
  rw [Act.outcome_bind_ok asks]
  cases made : g.made? n with
  | none =>
    rw [Option.toList_none, List.append_nil]
    exact ⟨_, outcome_say .warning n _ _, (carries.withWorld w').withWorld _⟩
  | some t =>
    refine ⟨_, outcome_register (named t made) _, ?_⟩
    exact ((carries.withWorld w').enter t).withWorld _

/-- One tool after the other is made and registered. -/
theorem registerAll_carries (carries : h.Carries ts) (ns : List String)
    (named : ∀ n ∈ ns, ∀ t, g.made? n = some t → t.name ≠ "") :
    ∃ h', (registerAll g ns).outcome h = (.ok (), h') ∧ h'.Carries (ts ++ ns.filterMap g.made?) := by
  induction ns generalizing h ts with
  | nil => exact ⟨h, rfl, by simpa using carries⟩
  | cons n ns ih =>
    obtain ⟨h₁, first, carries₁⟩ := registerFrom_carries carries n (named n List.mem_cons_self)
    obtain ⟨h₂, rest, carries₂⟩ := ih carries₁ fun m mem => named m (List.mem_cons_of_mem n mem)
    refine ⟨h₂, (Act.outcome_bind_ok first).trans rest, ?_⟩
    cases made : g.made? n <;> simpa [made] using carries₂

end

end Hub

namespace Registry

/-- What holds of a registry after some changes, and of the hubs that are built from it. -/
structure Law (cs : List Change) : Prop where
  accepts : ∀ c : Change, (∃ g, c.make (after cs) = .ok g) ↔ c = .clear ∨ ∃ n f, c.Registers n f
  sorted : (after cs).list.Pairwise (· < ·)
  lists : ∀ n, n ∈ (after cs).list ↔ Kept cs n
  creates : ∀ n w, (((after cs).create n).outcome w).1 = .ok ((after cs).made? n)
  makes : ∀ n t, (after cs).made? n = some t ↔ Last cs n (.makes t)
  lacks : ∀ n, (after cs).made? n = none ↔ ¬ Kept cs n ∨ ∃ fault, Last cs n (.fails fault)
  builds : ∀ names w, ∃ h, (Hub.registerAll (after cs) names).outcome (Hub.new w) = (.ok (), h) ∧
    h.Carries (names.filterMap (after cs).made?)

/-- The registry knows the last factories, whatever was done to it, and what they make is there in the
hubs that are built from it, as long as it has a name. -/
theorem registry_keeps_last_factories {cs : List Change}
    (named : ∀ c ∈ cs, ∀ n t, c.Registers n (.makes t) → t.name ≠ "") : Law cs where
  accepts c := by
    have goes := c.goes (after cs)
    revert goes
    generalize c.make (after cs) = e
    intro goes
    cases goes with
    | registers registers => exact iff_of_true ⟨_, rfl⟩ (.inr ⟨_, _, registers⟩)
    | clears => exact iff_of_true ⟨_, rfl⟩ (.inl rfl)
    | refused no other =>
      refine iff_of_false (fun ⟨_, accepted⟩ => nomatch accepted) ?_
      rintro (here | ⟨n, f, registers⟩)
      · exact other here
      · exact no n f registers
  sorted := list_sorted (nodup_after cs)
  lists := mem_list_after cs
  creates n w := by
    obtain ⟨w', created⟩ := (after cs).outcome_create n w
    rw [created]
  makes := made?_after cs
  lacks := made?_after_none cs
  builds names w := by
    refine Hub.registerAll_carries (Hub.new_carries w) names fun n _ t made => ?_
    obtain ⟨before, c, rest, rfl, registers, -⟩ := (made?_after cs n t).mp made
    exact named c (by simp) n t registers

/-- Two names for one kind of tool, and one whose factory fails; what has no name is refused. -/
def aliases : List Change :=
  [.register "lint" (some (.makes (.external (Runner.new .ruff)))),
    .register "" (some (.makes (.external (Runner.new .ruff)))),
    .decorate "scan" (.makes (.external (Runner.new .bandit))),
    .register "scan" none,
    .register "again" (some (.makes (.external (Runner.new .ruff)))),
    .register "broken" (some (.fails .nullTool))]

theorem aliases_named (c : Change) (mem : c ∈ aliases) (n : String) (t : Tool)
    (registers : c.Registers n (.makes t)) : t.name ≠ "" := by
  simp only [aliases, List.mem_cons, List.not_mem_nil, or_false] at mem
  rcases mem with rfl | rfl | rfl | rfl | rfl | rfl <;> cases registers <;> decide

theorem registry_keeps_last_factories_aliases : Law aliases ∧
    ∃ h, (Hub.registerAll (after aliases) ["scan", "lint", "nowhere", "broken", "again", "lint"]).outcome
        (Hub.new (.bare .default)) = (.ok (), h) ∧
      h.registered = ["bandit", "ruff"] ∧ h.idOf? "ruff" = some 3 := by
  have law : Law aliases := registry_keeps_last_factories aliases_named
  obtain ⟨h, built, carries⟩ := law.builds ["scan", "lint", "nowhere", "broken", "again", "lint"]
    (.bare .default)
  refine ⟨law, h, built, carries.names.trans (by decide), (carries.leads _ _).mpr ?_⟩
  refine ⟨.external (Runner.new .ruff), rfl, rfl, fun j t after there => ?_⟩
  exact absurd (List.getElem?_eq_some_iff.mp there).1 (Nat.not_lt.mpr after)

end Registry

end LintHub
