import LintHub.Files.Sources
import LintHub.Proofs.Files.Paths
import LintHub.Proofs.Work.Faults

/-! # What a file keeps

Bytes that were written at a path are read there afterwards, and directories that were made for them
change nothing that was there.
-/

namespace LintHub

namespace Disk

theorem lookup_put_self {d : Disk} {l : Location} (e : Entry) (below : l ≠ []) :
    (d.put l e).lookup l = some e := by
  rw [lookup, if_neg (by simpa using below), put, List.lookup_cons_self]

theorem lookup_put_ne {d : Disk} {l l' : Location} (e : Entry) (ne : l' ≠ l) :
    (d.put l e).lookup l' = d.lookup l' := by
  have others (entries : List (Location × Entry)) :
      (entries.filter fun p => p.1 != l).lookup l' = entries.lookup l' := by
    induction entries with
    | nil => rfl
    | cons p entries ih =>
      obtain ⟨k, v⟩ := p
      by_cases same : k = l
      · rw [List.filter_cons_of_neg (by simpa using same), ih, List.lookup_cons,
          show (l' == k) = false by simpa [same] using ne]
      · rw [List.filter_cons_of_pos (by simpa using same), List.lookup_cons, List.lookup_cons, ih]
  unfold lookup put
  rw [List.lookup_cons, show (l' == l) = false by simpa using ne, others]

theorem lookup_put {d : Disk} {l l' : Location} (e : Entry) :
    (d.put l e).lookup l' = d.lookup l' ∨ l' = l ∧ (d.put l e).lookup l' = some e := by
  by_cases same : l' = l
  · subst same
    by_cases root : l' = []
    · left
      subst root
      rfl
    · exact .inr ⟨rfl, lookup_put_self e root⟩
  · exact .inl (lookup_put_ne e same)

/-- Where the text of a path leads is where its steps lead. -/
theorem arrive_ok_iff {d : Disk} {follow : Bool} {s : String} {a : Arrival} :
    d.arrive follow s = .ok a ↔
      s.toList.contains '\x00' = false ∧ s.isEmpty = false ∧ s.utf8ByteSize ≤ pathLimit ∧
        d.walk follow linkLimit (if startsAtRoot s then [] else d.here) (rawSteps s) = .ok a := by
  unfold arrive
  split
  · next null =>
      rw [null]
      simp
  · next clean =>
    split
    · next empty => simp [empty]
    · next given =>
      split
      · next long => simp [Nat.not_le.mpr long]
      · next short =>
        rw [mapError_ok_iff]
        simp only [Bool.not_eq_true] at clean given
        simp only [clean, given, Nat.not_lt.mp short, true_and]

/-! ## One step of a walk -/

section
variable {d : Disk} {follow : Bool} {links : Nat} {l : Location} {step target : String}
  {rest : List String}

theorem walk_nil : d.walk follow links l [] = .ok ⟨l, some .directory⟩ := by
  rw [walk]

theorem walk_dot : d.walk follow links l ("." :: rest) = d.walk follow links l rest := by
  rw [walk, if_pos rfl]

theorem walk_dots : d.walk follow links l (".." :: rest) = d.walk follow links l.dropLast rest := by
  rw [walk, if_neg (by decide), if_pos rfl]

/-- A step that names something, and no more than a name can hold. -/
def IsStep (step : String) : Prop :=
  step ≠ "." ∧ step ≠ ".." ∧ step.utf8ByteSize ≤ nameLimit

instance (step : String) : Decidable (IsStep step) := by
  unfold IsStep; infer_instance

variable (named : IsStep step)
include named

theorem walk_directory (there : d.lookup (l ++ [step]) = some .directory) :
    d.walk follow links l (step :: rest) = d.walk follow links (l ++ [step]) rest := by
  rw [walk, if_neg named.1, if_neg named.2.1, if_neg (Nat.not_lt.mpr named.2.2)]
  dsimp only
  rw [there]

theorem walk_file {bytes : List UInt8} {executable : Bool}
    (there : d.lookup (l ++ [step]) = some (.file bytes executable)) :
    d.walk follow links l [step] = .ok ⟨l ++ [step], some (.file bytes executable)⟩ := by
  rw [walk, if_neg named.1, if_neg named.2.1, if_neg (Nat.not_lt.mpr named.2.2)]
  dsimp only
  rw [there]
  rfl

theorem walk_absent (absent : d.lookup (l ++ [step]) = none) :
    d.walk follow links l [step] = .ok ⟨l ++ [step], none⟩ := by
  rw [walk, if_neg named.1, if_neg named.2.1, if_neg (Nat.not_lt.mpr named.2.2)]
  dsimp only
  rw [absent]
  rfl

theorem walk_link (there : d.lookup (l ++ [step]) = some (.link target)) :
    d.walk true (links + 1) l (step :: rest) =
      d.walk true links (if startsAtRoot target then [] else l) (rawSteps target ++ rest) := by
  rw [walk, if_neg named.1, if_neg named.2.1, if_neg (Nat.not_lt.mpr named.2.2)]
  dsimp only
  rw [there]
  dsimp only
  rw [if_neg (by simp)]

end

/-! ## Names in the working directory -/

/-- A name of one plain step. -/
def IsName (s : String) : Prop :=
  s.toList.contains '\x00' = false ∧ s.isEmpty = false ∧ s.utf8ByteSize ≤ nameLimit ∧
    startsAtRoot s = false ∧ rawSteps s = [s] ∧ s ≠ "." ∧ s ≠ ".."

instance (s : String) : Decidable (IsName s) := by
  unfold IsName; infer_instance

/-- A name leads to what has it in the working directory. -/
theorem arrive_name {d : Disk} {s : String} (follow : Bool) (name : IsName s)
    (unlinked : ∀ target, d.lookup (d.here ++ [s]) ≠ some (.link target)) :
    d.arrive follow s = .ok ⟨d.here ++ [s], d.lookup (d.here ++ [s])⟩ := by
  obtain ⟨clean, given, short, relative, one, stay, up⟩ := name
  have named : IsStep s := ⟨stay, up, short⟩
  have walked : d.walk follow linkLimit d.here [s] =
      .ok ⟨d.here ++ [s], d.lookup (d.here ++ [s])⟩ := by
    cases entry : d.lookup (d.here ++ [s]) with
    | none => exact walk_absent named entry
    | some e =>
      cases e with
      | directory => rw [walk_directory named entry, walk_nil]
      | file bytes executable => exact walk_file named entry
      | link target => exact (unlinked target entry).elim
  have fits : s.utf8ByteSize ≤ pathLimit := Nat.le_trans short (by decide)
  exact arrive_ok_iff.mpr ⟨clean, given, fits, by rw [relative, one]; exact walked⟩

theorem arrive_dot (d : Disk) (follow : Bool) :
    d.arrive follow "." = .ok ⟨d.here, some .directory⟩ := by
  have walked : d.walk follow linkLimit d.here ["."] = .ok ⟨d.here, some .directory⟩ := by
    rw [walk_dot, walk_nil]
  exact arrive_ok_iff.mpr ⟨by decide, by decide, by decide, walked⟩

/-- The working directory is there already. -/
theorem makeDirectories_here (d : Disk) {p : Path} (here : p.text = ".") :
    d.makeDirectories p = .ok d := by
  have ensured : d.ensureDirectory p = .ok d := by
    unfold ensureDirectory makeDirectory isDirectory status open?
    rw [here, arrive_dot, arrive_dot]
    rfl
  unfold makeDirectories
  rw [ensureDirectories, ensured]

/-- What has a name in the working directory is what its path leads to. -/
theorem status_name {d : Disk} {p : Path} {e : Option Entry} (name : IsName p.text)
    (there : d.lookup (d.here ++ [p.text]) = e) (unlinked : ∀ target, e ≠ some (.link target)) :
    d.status p = .ok e := by
  subst there
  unfold status open?
  rw [arrive_name true name unlinked]
  cases d.lookup (d.here ++ [p.text]) <;> rfl

theorem sources_absent {d : Disk} {p : Path} (name : IsName p.text)
    (absent : d.lookup (d.here ++ [p.text]) = none) (extensions : List String) :
    d.sources p extensions = .ok [] := by
  unfold sources isFile isDirectory
  rw [status_name name absent (by simp)]
  rfl

theorem sources_file {d : Disk} {p : Path} {bytes : List UInt8} {executable : Bool}
    (name : IsName p.text) (file : d.lookup (d.here ++ [p.text]) = some (.file bytes executable))
    {extensions : List String} (suffix : hasSuffix extensions p = true) :
    d.sources p extensions = .ok [p] := by
  unfold sources isFile
  rw [status_name name file (by simp), suffix]
  rfl

theorem readBytes_name {d : Disk} {p : Path} {bytes : List UInt8} {executable : Bool}
    (name : IsName p.text) (file : d.lookup (d.here ++ [p.text]) = some (.file bytes executable)) :
    d.readBytes p = .ok bytes := by
  have arrived := arrive_name (d := d) true name fun target h => by
    rw [file] at h
    cases h
  unfold readBytes open?
  rw [arrived, file]
  rfl

/-- What stands where a walk ended, unless that is a directory. -/
theorem walk_lookup {d : Disk} {follow : Bool} {links : Nat} {l : Location} {steps : List String}
    {a : Arrival} (h : d.walk follow links l steps = .ok a) (file : a.entry ≠ some .directory) :
    d.lookup a.location = a.entry := by
  fun_induction walk d follow links l steps with
  | case1 =>
    cases h
    exact (file rfl).elim
  | case5 =>
    cases h
    assumption
  | case8 =>
    cases h
    assumption
  | case10 =>
    cases h
    assumption
  | _ => simp_all

theorem arrive_lookup {d : Disk} {follow : Bool} {s : String} {a : Arrival}
    (h : d.arrive follow s = .ok a) (file : a.entry ≠ some .directory) :
    d.lookup a.location = a.entry :=
  walk_lookup (arrive_ok_iff.mp h).2.2.2 file

/-- By induction on the walk: it goes through directories and links only, none of which is the
place that was written. -/
theorem walk_put {d : Disk} {links : Nat} {l : Location} {steps : List String} {a : Arrival}
    {bytes : List UInt8} {executable : Bool} (h : d.walk true links l steps = .ok a)
    (file : a.entry = none ∨ ∃ old x, a.entry = some (.file old x)) :
    (d.put a.location (.file bytes executable)).walk true links l steps =
      .ok ⟨a.location, some (.file bytes executable)⟩ := by
  have there : d.lookup a.location = a.entry := by
    refine walk_lookup h ?_
    rcases file with eq | ⟨old, x, eq⟩ <;> rw [eq] <;> simp
  have below : a.location ≠ [] := by
    intro root
    rw [root] at there
    rcases file with eq | ⟨old, x, eq⟩ <;> rw [eq] at there <;> cases there
  have other {l' : Location} (e : Entry) (at' : d.lookup l' = some e)
      (notFile : ∀ old x, e ≠ .file old x) : (d.put a.location (.file bytes executable)).lookup l' =
        some e := by
    rw [lookup_put_ne, at']
    rintro rfl
    rw [there] at at'
    rcases file with eq | ⟨old, x, eq⟩ <;> rw [eq] at at' <;> cases at'
    exact notFile _ _ rfl
  fun_induction walk d true links l steps with
  | case1 =>
    cases h
    rcases file with eq | ⟨old, x, eq⟩ <;> cases eq
  | case2 links l steps ih =>
    rw [walk_dot]
    exact ih h
  | case3 links l steps dot ih =>
    rw [walk_dots]
    exact ih h
  | case5 links l step rest dot up short next nothing last =>
    cases h
    obtain rfl := List.isEmpty_iff.mp last
    exact walk_file ⟨dot, up, Nat.le_of_not_lt short⟩ (lookup_put_self _ below)
  | case7 links l step rest dot up short next dir ih =>
    rw [walk_directory ⟨dot, up, Nat.le_of_not_lt short⟩ (other _ dir (by simp))]
    exact ih h
  | case8 links l step rest dot up short next old x is last =>
    cases h
    obtain rfl := List.isEmpty_iff.mp last
    exact walk_file ⟨dot, up, Nat.le_of_not_lt short⟩ (lookup_put_self _ below)
  | case12 l step rest dot up short next target is stay links ih =>
    rw [walk_link ⟨dot, up, Nat.le_of_not_lt short⟩ (other _ is (by simp))]
    exact ih h
  | _ => simp_all

theorem arrive_put {d : Disk} {s : String} {a : Arrival} {bytes : List UInt8} {executable : Bool}
    (h : d.arrive true s = .ok a) (file : a.entry = none ∨ ∃ old x, a.entry = some (.file old x)) :
    (d.put a.location (.file bytes executable)).arrive true s =
      .ok ⟨a.location, some (.file bytes executable)⟩ := by
  obtain ⟨clean, given, short, walked⟩ := arrive_ok_iff.mp h
  exact arrive_ok_iff.mpr ⟨clean, given, short, walk_put walked file⟩

/-- Where bytes were written, and that all the rest is as it was. -/
theorem writeBytes_ok {d d' : Disk} {p : Path} {bytes : List UInt8}
    (written : d.writeBytes p bytes = .ok d') : ∃ l executable,
      d'.arrive true p.text = .ok ⟨l, some (.file bytes executable)⟩ ∧
      ∀ l', d'.lookup l' = d.lookup l' ∨ l' = l := by
  obtain ⟨a, arrived, written⟩ := bind_ok_iff.mp written
  have put {executable : Bool} (file : a.entry = none ∨ ∃ old x, a.entry = some (.file old x))
      (eq : d' = d.put a.location (.file bytes executable)) : ∃ l executable,
        d'.arrive true p.text = .ok ⟨l, some (.file bytes executable)⟩ ∧
        ∀ l', d'.lookup l' = d.lookup l' ∨ l' = l := by
    subst eq
    exact ⟨_, _, arrive_put arrived file, fun l' => (lookup_put _).imp_right And.left⟩
  cases entry : a.entry with
  | none =>
    rw [entry] at written
    cases written
    exact put (.inl entry) rfl
  | some e =>
    rw [entry] at written
    cases e with
    | file old executable =>
      cases written
      exact put (.inr ⟨old, executable, entry⟩) rfl
    | directory => cases written
    | link target => cases written

/-- What was written is read. -/
theorem readBytes_writeBytes {d d' : Disk} {p : Path} {bytes : List UInt8}
    (h : d.writeBytes p bytes = .ok d') : d'.readBytes p = .ok bytes := by
  obtain ⟨l, executable, arrives, -⟩ := writeBytes_ok h
  unfold readBytes open?
  rw [arrives]
  rfl

/-- The file in which a text was read. -/
theorem readText_ok {d : Disk} {p : Path} {text : String} (read : d.readText p = .ok text) :
    ∃ l bytes executable s, d.arrive true p.text = .ok ⟨l, some (.file bytes executable)⟩ ∧
      Text.decodeUtf8 bytes = .ok s ∧ text = String.ofList (Text.unifyNewlines s.toList) := by
  obtain ⟨bytes, held, read⟩ := bind_ok_iff.mp read
  obtain ⟨s, decoded, read⟩ := bind_ok_iff.mp read
  obtain ⟨e, opened, held⟩ := bind_ok_iff.mp held
  obtain ⟨⟨l, entry⟩, leads, opened⟩ := bind_ok_iff.mp opened
  cases entry with
  | none => cases opened
  | some entry =>
    cases opened
    cases e with
    | file bytes' executable =>
      cases held
      cases read
      exact ⟨l, bytes, executable, s, leads, mapError_ok_iff.mp decoded, rfl⟩
    | directory => cases held
    | link target => cases held

/-! ## Making directories -/

section Lifts

variable {R : Disk → Disk → Prop} (refl : ∀ d, R d d)
  (trans : ∀ d₁ d₂ d₃, R d₁ d₂ → R d₂ d₃ → R d₁ d₃)
  (step : ∀ d d' p, makeDirectory d p = .ok d' → R d d')

include refl step in
theorem ensureDirectory_lifts {d d' : Disk} {p : Path} (made : d.ensureDirectory p = .ok d') :
    R d d' := by
  unfold ensureDirectory at made
  split at made
  · next made' =>
    cases made
    exact step _ _ _ made'
  · split at made
    · cases made
    · obtain ⟨there, -, made⟩ := bind_ok_iff.mp made
      cases there with
      | true =>
        cases made
        exact refl d
      | false => cases made

include refl trans step in
/-- By induction on the steps: the directories that lead to the last one are made first. -/
theorem ensureDirectories_lifts {d d' : Disk} {slashes : Nat} {parts : List String}
    (made : d.ensureDirectories slashes parts = .ok d') : R d d' := by
  fun_induction ensureDirectories d slashes parts generalizing d' with
  | case1 parts d₁ made' =>
    cases made
    exact ensureDirectory_lifts refl step made'
  | case2 parts f fails more ih =>
    obtain ⟨d₁, above, made⟩ := bind_ok_iff.mp made
    exact trans _ _ _ (ih above) (ensureDirectory_lifts refl step made)
  | case3 => cases made

include refl trans step in
/-- What making one directory does to a disk, making all that lead to a path does. -/
theorem makeDirectories_lifts {d d' : Disk} {p : Path} (made : d.makeDirectories p = .ok d') :
    R d d' :=
  ensureDirectories_lifts refl trans step made

end Lifts

/-! ## What is new on a disk -/

/-- All that is new on the second disk is directories. -/
def Grows (d d' : Disk) : Prop :=
  ∀ l, d'.lookup l = d.lookup l ∨ d'.lookup l = some .directory

theorem Grows.refl (d : Disk) : Grows d d :=
  fun _ => .inl rfl

theorem Grows.trans {d₁ d₂ d₃ : Disk} (h : Grows d₁ d₂) (h' : Grows d₂ d₃) : Grows d₁ d₃ := by
  intro l
  rcases h' l with same | new
  · rw [same]
    exact h l
  · exact .inr new

theorem makeDirectory_grows {d d' : Disk} {p : Path} (made : d.makeDirectory p = .ok d') :
    Grows d d' := by
  obtain ⟨a, -, made⟩ := bind_ok_iff.mp made
  cases entry : a.entry with
  | none =>
    rw [entry] at made
    cases made
    exact fun l => (lookup_put .directory).imp_right And.right
  | some e =>
    rw [entry] at made
    cases made

theorem makeDirectories_grows {d d' : Disk} {p : Path} (made : d.makeDirectories p = .ok d') :
    Grows d d' :=
  makeDirectories_lifts Grows.refl (fun _ _ _ => Grows.trans) (fun _ _ _ => makeDirectory_grows) made

end Disk

end LintHub
