import LintHub.Files.Resolve
import LintHub.Proofs.Files.Kept

/-! # Where walks lead

A walk that comes to an end is finite, however often links cross on it. Resolving a path follows the
same links, each once, and so comes to the same place.
-/

namespace LintHub

namespace Disk

variable {d : Disk} {l l' at' mid : Location} {step target : String} {steps rest : List String}
  {k k' n : Nat}

/-! ## Walks that end -/

/-- A step that is none in place and none upwards. -/
def IsForward (step : String) : Prop :=
  step ≠ "." ∧ step ≠ ".."

/-- Where the target of a link is followed from. -/
def linkStart (at' : Location) (target : String) : Location :=
  if startsAtRoot target then [] else at'

/-- Steps lead from one place to another, and `k` links are followed on the way. -/
inductive Leads (d : Disk) : Location → List String → Location → Nat → Prop where
  | arrived {at' : Location} : Leads d at' [] at' 0
  | stay {at' l : Location} {step : String} {rest : List String} {k : Nat} (dot : step = ".")
    (goesOn : Leads d at' rest l k) : Leads d at' (step :: rest) l k
  | up {at' l : Location} {step : String} {rest : List String} {k : Nat} (dots : step = "..")
    (goesOn : Leads d at'.dropLast rest l k) : Leads d at' (step :: rest) l k
  | forward {at' l : Location} {step : String} {rest : List String} {k : Nat}
    (named : IsForward step) (unlinked : ∀ target, d.lookup (at' ++ [step]) ≠ some (.link target))
    (goesOn : Leads d (at' ++ [step]) rest l k) : Leads d at' (step :: rest) l k
  | follow {at' mid l : Location} {step target : String} {rest : List String} {j k : Nat}
    (named : IsForward step) (link : d.lookup (at' ++ [step]) = some (.link target))
    (inner : Leads d (linkStart at' target) (rawSteps target) mid j)
    (goesOn : Leads d mid rest l k) : Leads d at' (step :: rest) l (j + k + 1)

/-- By induction on the steps: those of the first part end somewhere, where the rest goes on. -/
theorem Leads.split {xs ys : List String} (h : Leads d at' (xs ++ ys) l n) :
    ∃ mid j k, Leads d at' xs mid j ∧ Leads d mid ys l k ∧ n = j + k := by
  induction xs generalizing at' n with
  | nil => exact ⟨at', 0, n, .arrived, h, by omega⟩
  | cons x xs ih =>
    rw [List.cons_append] at h
    cases h with
    | stay dot goesOn =>
      obtain ⟨mid, j, k, first, second, sum⟩ := ih goesOn
      exact ⟨mid, j, k, .stay dot first, second, sum⟩
    | up dots goesOn =>
      obtain ⟨mid, j, k, first, second, sum⟩ := ih goesOn
      exact ⟨mid, j, k, .up dots first, second, sum⟩
    | forward named unlinked goesOn =>
      obtain ⟨mid, j, k, first, second, sum⟩ := ih goesOn
      exact ⟨mid, j, k, .forward named unlinked first, second, sum⟩
    | @follow _ _ _ _ _ _ i _ named link inner goesOn =>
      obtain ⟨mid, j, k, first, second, sum⟩ := ih goesOn
      exact ⟨mid, i + j + 1, k, .follow named link inner first, second, by omega⟩

/-- A walk that is not refused leads where it says, over no more links than it may follow. -/
theorem Leads.of_walk {e : Entry} (h : d.walk true n at' steps = .ok ⟨l, some e⟩) :
    ∃ k ≤ n, Leads d at' steps l k := by
  fun_induction walk d true n at' steps with
  | case1 =>
    cases h
    exact ⟨0, Nat.zero_le _, .arrived⟩
  | case2 n at' rest ih =>
    obtain ⟨k, few, goesOn⟩ := ih h
    exact ⟨k, few, .stay rfl goesOn⟩
  | case3 n at' rest dot ih =>
    obtain ⟨k, few, goesOn⟩ := ih h
    exact ⟨k, few, .up rfl goesOn⟩
  | case7 n at' step rest dot up short next dir ih =>
    obtain ⟨k, few, goesOn⟩ := ih h
    exact ⟨k, few, .forward ⟨dot, up⟩ (fun target link => by cases dir.symm.trans link) goesOn⟩
  | case8 n at' step rest dot up short next bytes x is last =>
    have place : next = l := congrArg Arrival.location (Except.ok.inj h)
    rw [← place, List.isEmpty_iff.mp last]
    exact ⟨0, Nat.zero_le _, .forward ⟨dot, up⟩ (fun target link => by cases is.symm.trans link)
      .arrived⟩
  | case12 at' step rest dot up short next target is stay n ih =>
    obtain ⟨k, few, goesOn⟩ := ih h
    obtain ⟨mid, i, j, inner, outer, rfl⟩ := goesOn.split
    exact ⟨i + j + 1, by omega, .follow ⟨dot, up⟩ is inner outer⟩
  | _ => simp_all

/-- Steps lead to one place only, over the same links. -/
theorem Leads.functional (h : Leads d at' steps l k) (h' : Leads d at' steps l' k') :
    l = l' ∧ k = k' := by
  induction h generalizing l' k' with
  | arrived =>
    cases h'
    exact ⟨rfl, rfl⟩
  | stay dot _ ih =>
    cases h' with
    | stay _ goesOn => exact ih goesOn
    | up dots => exact absurd (dot.symm.trans dots) (by decide)
    | forward named => exact (named.1 dot).elim
    | follow named => exact (named.1 dot).elim
  | up dots _ ih =>
    cases h' with
    | stay dot => exact absurd (dot.symm.trans dots) (by decide)
    | up _ goesOn => exact ih goesOn
    | forward named => exact (named.2 dots).elim
    | follow named => exact (named.2 dots).elim
  | forward named unlinked _ ih =>
    cases h' with
    | stay dot => exact (named.1 dot).elim
    | up dots => exact (named.2 dots).elim
    | forward _ _ goesOn => exact ih goesOn
    | follow _ link => exact (unlinked _ link).elim
  | follow named link _ _ inner outer =>
    cases h' with
    | stay dot => exact (named.1 dot).elim
    | up dots => exact (named.2 dots).elim
    | forward _ unlinked => exact (unlinked _ link).elim
    | follow _ link' inner' goesOn =>
      cases link.symm.trans link'
      obtain ⟨rfl, rfl⟩ := inner inner'
      obtain ⟨rfl, rfl⟩ := outer goesOn
      exact ⟨rfl, rfl⟩

/-- Steps that stay in place can be left out. -/
theorem Leads.filter (h : Leads d at' steps l k) :
    Leads d at' (steps.filter (· != ".")) l k := by
  induction h with
  | arrived => exact .arrived
  | stay dot _ ih => simpa [dot] using ih
  | up dots _ ih =>
    rw [List.filter_cons_of_pos (by simp [dots])]
    exact .up dots ih
  | forward named unlinked _ ih =>
    rw [List.filter_cons_of_pos (by simpa using named.1)]
    exact .forward named unlinked ih
  | follow named link inner _ _ ih =>
    rw [List.filter_cons_of_pos (by simpa using named.1)]
    exact .follow named link inner ih

/-- Steps without links and without steps upwards lead where they say. -/
theorem Leads.straight (h : Leads d at' steps l 0) (level : ".." ∉ steps) :
    l = at' ++ steps.filter (· != ".") := by
  generalize zero : 0 = k at h
  induction h with
  | arrived => simp
  | stay dot _ ih => simpa [dot] using ih (fun mem => level (List.mem_cons_of_mem _ mem)) zero
  | up dots => exact (level (dots ▸ List.mem_cons_self ..)).elim
  | forward named _ _ ih =>
    rw [List.filter_cons_of_pos (by simpa using named.1),
      ih (fun mem => level (List.mem_cons_of_mem _ mem)) zero, List.append_assoc]
    rfl
  | follow => omega

/-! ## Resolving follows the same links -/

/-- The link at a location leads to a place, over `k` further links. -/
def Jumps (d : Disk) (link l : Location) (k : Nat) : Prop :=
  ∃ target, d.lookup link = some (.link target) ∧
    Leads d (linkStart link.dropLast target) (rawSteps target) l k

theorem Jumps.functional {link : Location} (h : d.Jumps link l k) (h' : d.Jumps link l' k') :
    l = l' ∧ k = k' := by
  obtain ⟨target, there, leads⟩ := h
  obtain ⟨target', there', leads'⟩ := h'
  cases there.symm.trans there'
  exact leads.functional leads'

/-- What is known of the links met so far: where those lead that were followed to their end, and
which ones are still being followed. -/
structure Knows (d : Disk) (pending : List Location) (seen : Followed) : Prop where
  ended : ∀ link l, seen.lookup link = some (some l) → ∃ k, d.Jumps link l k
  going : ∀ link, seen.lookup link = some none → link ∈ pending

/-- The links that are being followed are different ones, and none of them leads over fewer links
than are still to come. -/
structure Pending (d : Disk) (k : Nat) (pending : List Location) : Prop where
  distinct : pending.Nodup
  longer : ∀ link ∈ pending, ∃ l j, d.Jumps link l j ∧ k ≤ j

theorem Pending.mono {pending : List Location} (h : Pending d n pending) (le : k ≤ n) :
    Pending d k pending where
  distinct := h.distinct
  longer link mem := by
    obtain ⟨l, j, jumps, longer⟩ := h.longer link mem
    exact ⟨l, j, jumps, Nat.le_trans le longer⟩

theorem mem_of_link (there : d.lookup l = some (.link target)) : (l, .link target) ∈ d.entries := by
  unfold lookup at there
  split at there
  · cases there
  · obtain ⟨before, after, split, -⟩ := List.lookup_eq_some_iff.mp there
    simp [split]

/-- There are no more of them than entries on the disk. -/
theorem Pending.room {pending : List Location} (h : Pending d k pending) :
    pending.length ≤ d.entries.length := by
  have known : pending ⊆ d.entries.map Prod.fst := by
    intro link mem
    obtain ⟨l, j, ⟨target, there, -⟩, -⟩ := h.longer link mem
    exact List.mem_map.mpr ⟨_, mem_of_link there, rfl⟩
  simpa using h.distinct.length_le_of_subset known

section follow

variable {link : Location} {pending : List Location} {seen : Followed}

theorem Pending.begin (h : Pending d n pending) (fresh : link ∉ pending)
    (jumps : d.Jumps link l k) (le : k ≤ n) : Pending d k (link :: pending) where
  distinct := List.nodup_cons.mpr ⟨fresh, h.distinct⟩
  longer := List.forall_mem_cons.mpr ⟨⟨l, k, jumps, Nat.le_refl k⟩, (h.mono le).longer⟩

theorem Knows.begin (h : Knows d pending seen) : Knows d (link :: pending) ((link, none) :: seen) := by
  constructor
  · intro other l known
    rw [List.lookup_cons] at known
    split at known
    · cases known
    · exact h.ended other l known
  · intro other known
    rw [List.lookup_cons] at known
    split at known
    · next same => simp [beq_iff_eq.mp same]
    · exact List.mem_cons_of_mem _ (h.going other known)

theorem Knows.finish (h : Knows d (link :: pending) seen) (jumps : d.Jumps link l k) :
    Knows d pending ((link, some l) :: seen) := by
  constructor
  · intro other l' known
    rw [List.lookup_cons] at known
    split at known
    · next same =>
      cases known
      rw [beq_iff_eq.mp same]
      exact ⟨k, jumps⟩
    · exact h.ended other l' known
  · intro other known
    rw [List.lookup_cons] at known
    split at known
    · cases known
    · next differs =>
      exact (List.mem_cons.mp (h.going other known)).resolve_left (by simpa using differs)

end follow

/-- By induction on where the steps lead: a link that is still being followed is not met again, since
it would lead over fewer links than itself. -/
theorem trace_leads (h : Leads d at' steps l k) {fuel : Nat} {seen : Followed}
    {pending : List Location} (knows : Knows d pending seen) (going : Pending d k pending)
    (room : fuel + pending.length = d.entries.length + 1) :
    ∃ seen', d.trace fuel seen at' steps = (l, true, seen') ∧ Knows d pending seen' := by
  induction h generalizing fuel seen pending with
  | arrived =>
    rw [trace]
    exact ⟨seen, rfl, knows⟩
  | stay dot _ ih =>
    rw [trace, if_pos dot]
    exact ih knows going room
  | up dots _ ih =>
    rw [trace, if_neg (by simp [dots]), if_pos dots]
    exact ih knows going room
  | @forward at' l step rest k named unlinked _ ih =>
    obtain ⟨seen', goesOn, knows'⟩ := ih knows going room
    refine ⟨seen', ?_, knows'⟩
    rw [trace, if_neg named.1, if_neg named.2]
    dsimp only
    split
    · next target link => exact (unlinked target link).elim
    · exact goesOn
  | @follow at' mid l step target rest j k named link inner _ ihInner ih =>
    have jumps : d.Jumps (at' ++ [step]) mid j :=
      ⟨target, link, by rw [List.dropLast_concat]; exact inner⟩
    have fresh : at' ++ [step] ∉ pending := by
      intro mem
      obtain ⟨l', j', jumps', longer⟩ := going.longer _ mem
      obtain ⟨-, rfl⟩ := jumps.functional jumps'
      omega
    rw [trace, if_neg named.1, if_neg named.2]
    dsimp only
    rw [link]
    dsimp only
    rcases known : seen.lookup (at' ++ [step]) with _ | _ | mid'
    · have going' := going.begin fresh jumps (by omega)
      have few := going'.room
      rw [List.length_cons] at few
      obtain ⟨fuel, rfl⟩ : ∃ f, fuel = f + 1 := ⟨fuel - 1, by omega⟩
      obtain ⟨seen', ends, knows'⟩ := ihInner knows.begin going'
        (by rw [List.length_cons]; omega : fuel + (_ :: pending).length = _)
      unfold linkStart at ends
      dsimp only
      rw [ends]
      exact ih (knows'.finish jumps) (going.mono (by omega)) room
    · exact (fresh (knows.going _ known)).elim
    · obtain ⟨j', jumps'⟩ := knows.ended _ _ known
      obtain ⟨rfl, -⟩ := jumps.functional jumps'
      exact ih knows (going.mono (by omega)) room

/-! ## Locations without links -/

/-- A step that is a name. -/
structure IsPlain (step : String) : Prop where
  slashless : '/' ∉ step.toList
  given : step ≠ ""
  forward : IsForward step

/-- Names only, and no link stands in front. -/
structure Real (d : Disk) (l : Location) : Prop where
  plain : ∀ step ∈ l, IsPlain step
  unlinked : ∀ front, front <+: l → ∀ target, d.lookup front ≠ some (.link target)

theorem Real.root : Real d [] where
  plain := by simp
  unlinked front le target := by
    rw [List.prefix_nil.mp le]
    simp [lookup]

theorem Real.of_prefix (h : Real d l) (le : l' <+: l) : Real d l' where
  plain step mem := h.plain step (le.subset mem)
  unlinked front le' := h.unlinked front (le'.trans le)

theorem Real.forward (h : Real d at') (plain : IsPlain step)
    (unlinked : ∀ target, d.lookup (at' ++ [step]) ≠ some (.link target)) :
    Real d (at' ++ [step]) where
  plain other mem := by
    rcases List.mem_append.mp mem with mem | mem
    · exact h.plain other mem
    · rw [List.mem_singleton.mp mem]
      exact plain
  unlinked front le target := by
    rcases List.prefix_concat_iff.mp le with rfl | le
    · exact unlinked target
    · exact h.unlinked front le target

theorem Real.linkStart (h : Real d at') (target : String) : Real d (linkStart at' target) := by
  unfold Disk.linkStart
  split
  · exact .root
  · exact h

theorem rawSteps_spelled {s : String} (mem : step ∈ rawSteps s) :
    '/' ∉ step.toList ∧ step ≠ "" := by
  have spelled (step : String)
      (mem : step ∈ ((Path.splitSteps s.toList).filter (!·.isEmpty)).map String.ofList) :
      '/' ∉ step.toList ∧ step ≠ "" := by
    obtain ⟨cs, kept, rfl⟩ := List.mem_map.mp mem
    obtain ⟨split, given⟩ := List.mem_filter.mp kept
    rw [String.toList_ofList]
    refine ⟨Path.splitSteps_slashless split, fun empty => ?_⟩
    rw [show cs = [] by simpa using congrArg String.toList empty] at given
    cases given
  unfold rawSteps at mem
  dsimp only at mem
  split at mem
  · rcases List.mem_append.mp mem with mem | mem
    · exact spelled step mem
    · rw [List.mem_singleton.mp mem]
      decide
  · exact spelled step mem

/-- Where steps lead there is no link in front, as there was none where they start. -/
theorem Leads.real (h : Leads d at' steps l k) (start : Real d at')
    (spelled : ∀ step ∈ steps, '/' ∉ step.toList ∧ step ≠ "") : Real d l := by
  induction h with
  | arrived => exact start
  | stay _ _ ih => exact ih start (fun step mem => spelled step (List.mem_cons_of_mem _ mem))
  | up _ _ ih =>
    exact ih (start.of_prefix (List.dropLast_prefix _))
      (fun step mem => spelled step (List.mem_cons_of_mem _ mem))
  | forward named unlinked _ ih =>
    obtain ⟨slashless, given⟩ := spelled _ (List.mem_cons_self ..)
    exact ih (start.forward ⟨slashless, given, named⟩ unlinked)
      (fun step mem => spelled step (List.mem_cons_of_mem _ mem))
  | follow _ _ _ _ ihInner ih =>
    exact ih (ihInner (start.linkStart _) fun _ => rawSteps_spelled)
      (fun step mem => spelled step (List.mem_cons_of_mem _ mem))

/-- A walk along names without links meets no link. -/
theorem walk_real {follow : Bool} (real : Real d (at' ++ steps.filter (· != "."))) :
    d.walk follow n at' steps ≠ .error .tooManyLinks := by
  fun_induction walk d follow n at' steps with
  | case2 n at' rest ih => exact ih (by simpa using real)
  | case3 n at' rest dot ih =>
    have up := real.plain ".." (by simp)
    exact (up.forward.2 rfl).elim
  | case7 n at' step rest dot up short next dir ih =>
    exact ih (by simpa [next, dot] using real)
  | case11 at' step rest dot up short next target is stay =>
    have front : at' ++ [step] <+: at' ++ (step :: rest).filter (· != ".") := by
      simp [dot]
    exact (real.unlinked _ front target is).elim
  | case12 at' step rest dot up short next target is stay n ih =>
    have front : at' ++ [step] <+: at' ++ (step :: rest).filter (· != ".") := by
      simp [dot]
    exact (real.unlinked _ front target is).elim
  | _ => simp

theorem foldSteps_forward (forward : ∀ step ∈ l, IsForward step) : foldSteps l = l := by
  have each (done : Location) : l.foldl (fun done step =>
      if step = ".." then done.dropLast
      else if step = "." then done
      else done ++ [step]) done = done ++ l := by
    induction l generalizing done with
    | nil => simp
    | cons step rest ih =>
      obtain ⟨named, forward⟩ := List.forall_mem_cons.mp forward
      rw [List.foldl_cons, if_neg named.2, if_neg named.1, ih forward, List.append_assoc]
      rfl
  exact each []

/-! ## Resolving a path -/

theorem normal_of_plain (plain : ∀ step ∈ l, IsPlain step) (few : n ≤ 2) : Path.Normal ⟨n, l⟩ := by
  refine ⟨few, fun part mem => (plain part mem).slashless, fun part mem => ?_⟩
  obtain ⟨-, given, dot, -⟩ := plain part mem
  have dot : part.toList ≠ ['.'] := fun same => dot (String.toList_inj.mp same)
  simpa [Path.isStep, dot] using given

/-- The path of a location without links is not refused for its links. -/
theorem Real.unlooped (h : d.Real l) (path : String) :
    d.arrive true (Path.text ⟨1, l⟩) ≠ .error (.refused .tooManyLinks path) := by
  have back := (normal_of_plain h.plain (Nat.le_succ 1)).ofText_text
  have parts : (rawSteps (Path.text ⟨1, l⟩)).filter (· != ".") = l := by
    rw [← Path.parts_ofText, back]
  have front : startsAtRoot (Path.text ⟨1, l⟩) = true := by
    rw [← Path.isAbsolute_ofText, back]
    rfl
  intro looped
  unfold arrive at looped
  split at looped
  · cases looped
  · split at looped
    · cases looped
    · split at looped
      · cases looped
      · obtain ⟨refusal, walked, same⟩ := mapError_error_iff.mp looped
        cases same
        exact walk_real (by simpa [parts] using h) walked

/-- A path is resolved to where its steps lead. -/
theorem resolve_leads {p : Path} (clean : ¬ p.IsNull) (real : d.Real l)
    (leads : d.Leads (if p.isAbsolute then [] else d.here) p.parts l k) :
    d.resolve p = .ok ⟨1, l⟩ := by
  have knows : Knows d [] [] := ⟨by simp, by simp⟩
  have going : Pending d k [] := ⟨List.nodup_nil, by simp⟩
  obtain ⟨seen, traced, -⟩ :=
    trace_leads leads knows going (show d.entries.length + 1 + 0 = _ from rfl)
  unfold resolve
  rw [if_neg ((not_congr Path.isNull_text).mpr clean)]
  dsimp only
  rw [traced]
  dsimp only
  rw [foldSteps_forward fun step mem => (real.plain step mem).forward]
  split
  · next looped => exact (real.unlooped _ looped).elim
  · rfl

/-- What a path leads to is what it is resolved to. -/
theorem resolve_ofText (here : d.Real d.here) {s : String} {e : Entry}
    (leads : d.arrive true s = .ok ⟨l, some e⟩) : d.resolve (Path.ofText s) = .ok ⟨1, l⟩ := by
  obtain ⟨clean, -, -, walked⟩ := arrive_ok_iff.mp leads
  obtain ⟨k, -, walks⟩ := Leads.of_walk walked
  have start : d.Real (if startsAtRoot s then [] else d.here) := by
    split
    · exact .root
    · exact here
  have parts : d.Leads (if startsAtRoot s then [] else d.here) (Path.ofText s).parts l k := by
    rw [Path.parts_ofText]
    exact walks.filter
  refine resolve_leads ?_ (walks.real start fun _ => rawSteps_spelled) (k := k) ?_
  · rw [Path.isNull_ofText, ← List.contains_iff_mem, clean]
    exact Bool.false_ne_true
  · rwa [Path.isAbsolute_ofText]

end Disk

end LintHub
