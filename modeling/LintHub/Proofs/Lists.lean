import LintHub.Named

/-! # Lists that grow

Values by key are kept in the order in which their keys first came: to set the value of a key in use
leaves it its place. A history grows at its end.
-/

namespace LintHub

/-! ## Values by key -/

section
variable {κ ι α : Type} [DecidableEq ι] (identity : κ → ι) {xs : List (κ × α)} {k : κ} {a : α}

theorem setBy_of_fresh (fresh : identity k ∉ xs.map (identity ·.1)) :
    setBy identity xs k a = xs ++ [(k, a)] := by
  induction xs with
  | nil => rfl
  | cons x xs ih =>
    rw [List.map_cons, List.mem_cons, not_or] at fresh
    rw [setBy, if_neg (Ne.symm fresh.1), ih fresh.2]
    rfl

theorem keys_setBy : (setBy identity xs k a).map (identity ·.1) =
    if identity k ∈ xs.map (identity ·.1) then xs.map (identity ·.1)
    else xs.map (identity ·.1) ++ [identity k] := by
  split
  · next used =>
    induction xs with
    | nil => cases used
    | cons x xs ih =>
      rw [setBy]
      split
      · rfl
      · next other =>
        have rest := (List.mem_cons.mp used).resolve_left (Ne.symm other)
        rw [List.map_cons, ih rest, List.map_cons]
  · next fresh => rw [setBy_of_fresh identity fresh, List.map_append, List.map_singleton]

theorem nodup_setBy (distinct : (xs.map (identity ·.1)).Nodup) :
    ((setBy identity xs k a).map (identity ·.1)).Nodup := by
  rw [keys_setBy]
  split
  · exact distinct
  · next fresh =>
    refine List.nodup_append.mpr ⟨distinct, by simp, ?_⟩
    rintro n mem _ last rfl
    exact fresh (List.mem_singleton.mp last ▸ mem)

theorem mem_setBy {x : κ × α} (mem : x ∈ setBy identity xs k a) :
    x ∈ xs ∨ identity x.1 = identity k ∧ x.2 = a := by
  induction xs with
  | nil =>
    cases List.mem_singleton.mp mem
    exact .inr ⟨rfl, rfl⟩
  | cons y xs ih =>
    rw [setBy] at mem
    split at mem
    · next same =>
      rcases List.mem_cons.mp mem with rfl | old
      · exact .inr ⟨same, rfl⟩
      · exact .inl (List.mem_cons_of_mem _ old)
    · rcases List.mem_cons.mp mem with rfl | rest
      · exact .inl (List.mem_cons_self ..)
      · exact (ih rest).imp_left (List.mem_cons_of_mem _)

end

/-! ## Values by name -/

variable {α : Type}

theorem lookup_cons_ite (i x : String) (a : α) (xs : List (String × α)) :
    List.lookup x ((i, a) :: xs) = if x = i then some a else xs.lookup x := by
  rw [List.lookup_cons]
  by_cases same : x = i
  · subst same
    simp
  · rw [if_neg same, show (x == i) = false by simpa using same]

/-- A name that leads to a value is one of the names. -/
theorem lookup_isSome_iff {xs : List (String × α)} {name : String} :
    (∃ a, xs.lookup name = some a) ↔ name ∈ xs.map (·.1) := by
  induction xs with
  | nil => simp
  | cons x xs ih =>
    obtain ⟨n, b⟩ := x
    rw [lookup_cons_ite, List.map_cons, List.mem_cons, ← ih]
    by_cases same : name = n <;> simp [same]

variable {xs : List (String × α)} {name : String} {a : α}

theorem setNamed_of_fresh (fresh : name ∉ xs.map (·.1)) : setNamed xs name a = xs ++ [(name, a)] :=
  setBy_of_fresh id fresh

theorem names_setNamed : (setNamed xs name a).map (·.1) =
    if name ∈ xs.map (·.1) then xs.map (·.1) else xs.map (·.1) ++ [name] :=
  keys_setBy id

theorem nodup_setNamed (distinct : (xs.map (·.1)).Nodup) :
    ((setNamed xs name a).map (·.1)).Nodup :=
  nodup_setBy id distinct

theorem mem_setNamed {x : String × α} (mem : x ∈ setNamed xs name a) : x ∈ xs ∨ x = (name, a) :=
  (mem_setBy id mem).imp_right fun ⟨key, value⟩ => Prod.ext key value

theorem lookup_setNamed (n : String) :
    (setNamed xs name a).lookup n = if n = name then some a else xs.lookup n := by
  induction xs with
  | nil => exact lookup_cons_ite ..
  | cons x xs ih =>
    obtain ⟨m, b⟩ := x
    show (if m = name then (m, a) :: xs else (m, b) :: setNamed xs name a).lookup n = _
    by_cases here : m = name
    · subst here
      rw [if_pos rfl, lookup_cons_ite, lookup_cons_ite]
      split <;> rfl
    · rw [if_neg here, lookup_cons_ite, lookup_cons_ite, ih]
      by_cases same : n = m
      · rw [if_pos same, if_pos same, if_neg (same ▸ here)]
      · rw [if_neg same, if_neg same]

/-! ## Histories -/

/-- How a list with something in it was before its last entry came. -/
theorem split_concat {es before rest : List α} {e x : α} (split : es ++ [e] = before ++ x :: rest) :
    (rest = [] ∧ es = before ∧ x = e) ∨ ∃ rest', rest = rest' ++ [e] ∧ es = before ++ x :: rest' := by
  rcases List.eq_nil_or_concat rest with rfl | ⟨rest', last, rfl⟩
  · obtain ⟨same, last⟩ := List.append_inj' split rfl
    cases last
    exact .inl ⟨rfl, same, rfl⟩
  · rw [List.concat_eq_append, ← List.cons_append, ← List.append_assoc] at split
    obtain ⟨same, last⟩ := List.append_inj' split rfl
    cases last
    exact .inr ⟨rest', List.concat_eq_append, same⟩

/-- The names in the order in which they first came. -/
theorem eraseDups_concat (names : List String) (name : String) : (names ++ [name]).eraseDups =
    if name ∈ names then names.eraseDups else names.eraseDups ++ [name] := by
  rw [List.eraseDups_append, List.removeAll]
  by_cases used : name ∈ names
  · rw [if_pos used, List.filter_cons_of_neg (by simpa using used)]
    simp
  · rw [if_neg used, List.filter_cons_of_pos (by simpa using used)]
    simp [List.eraseDups_cons]

end LintHub
