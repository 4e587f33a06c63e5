import LintHub.Proofs.Http.Polls
import LintHub.Proofs.Http.Saved

/-! # Polls that say done

Whatever the order in which the sections of a poll and the steps of the work of its job come: a poll
that says that the job is done tells what the batch came to, and the progress as it was when it was
copied. The job is then gone for all polls that come later. What is told of the progress of a tool may
be old, and it is that of its last run in the batch.
-/

namespace LintHub.Http.Service.Polls

open Jobs

/-! ## The job and all calls -/

/-- How far a call at the place `i` of `q` has come, by what is left of it, if that is not the work of
the job with the number `n`: it is a poll of that job, as that at place 1 is, or it never touches it. -/
def Beside (n : Nat) (o : BatchOrder) (p₀ : Pool Service Call) (i : Nat) (q : Pool Service Call)
    (r : Call) : Prop :=
  Stage n o p₀ i q r ∨ i ≠ 1 ∧ Elsewhere n r

/-- How far the job with the number `n`, that was taken on for the order `o`, and the polls of it have
come from `p₀` to `q`, and that nobody else touches it. -/
structure Scene (n : Nat) (o : BatchOrder) (p₀ q : Pool Service Call) : Prop where
  counted : n ≤ q.state.started
  reached : HappensBeside n p₀ q
  both : 2 ≤ q.calls.length
  worker : ∃ r, q.calls[0]? = some r ∧ Worker (jobName n) o q.state r
  beside : ∀ i r, i ≠ 0 → q.calls[i]? = some r → Beside n o p₀ i q r

section
variable {n i : Nat} {o : BatchOrder} {p₀ q q' : Pool Service Call} {r : Call}

theorem Beside.left (beside : Beside n o p₀ i q r) (goes : HappensBeside n q q')
    (leaves : Leaves (jobName n) q.state q'.state) : Beside n o p₀ i q' r :=
  beside.imp_left fun stage => stage.left goes leaves

theorem Beside.works (beside : Beside n o p₀ i q r) (goes : HappensBeside n q q')
    {x : List (String × Progress)} (on : q.state.job? (jobName n) = some ⟨x, none⟩) :
    Beside n o p₀ i q' r :=
  beside.imp_left fun stage => stage.works goes on

theorem Scene.first {s₀ : Service} (counted : n ≤ s₀.started)
    (fresh : s₀.job? (jobName n) = some .new) : Scene n o (scene n o s₀) (scene n o s₀) where
  counted := counted
  reached := .none
  both := Nat.le_refl _
  worker := ⟨_, rfl, .first fresh⟩
  beside i r other there := by
    match i with
    | 0 => exact absurd rfl other
    | 1 =>
      cases there
      exact .inl .asks
    | i + 2 => simp [scene] at there

section
variable {s : Service} {rs : List Call} {step : Service → Service} {next : Service → Call}

theorem Scene.call (here : Scene n o p₀ ⟨s, rs⟩) (new : Elsewhere n r ∨ r = polling (jobName n)) :
    Scene n o p₀ ⟨s, rs ++ [r]⟩ := by
  have goes : HappensBeside n ⟨s, rs⟩ ⟨s, rs ++ [r]⟩ := .call .none new
  have both : 2 ≤ rs.length := here.both
  obtain ⟨w, first, worker⟩ := here.worker
  refine ⟨here.counted, here.reached.trans goes, ?_, ⟨w, ?_, worker⟩, fun i x other there => ?_⟩
  · exact Nat.le_trans both (by simp)
  · exact (List.getElem?_append_left (by omega)).trans first
  · rcases of_getElem?_concat there with there | ⟨rfl, rfl⟩
    · exact (here.beside i x other there).left goes .refl
    · rcases new with new | rfl
      · exact .inr ⟨by omega, new⟩
      · exact .inl .asks

/-- A step of the work of the job. -/
theorem Scene.works (here : Scene n o p₀ ⟨s, rs⟩) (there : rs[0]? = some (.act step next)) :
    Scene n o p₀ ⟨step s, rs.set 0 (next s)⟩ ∧ ∃ x, s.job? (jobName n) = some ⟨x, none⟩ := by
  have goes : HappensBeside n ⟨s, rs⟩ ⟨step s, rs.set 0 (next s)⟩ := .act .none there
  obtain ⟨w, first, worker⟩ := here.worker
  cases there.symm.trans first
  obtain ⟨⟨x, on⟩, started, worker⟩ := worker.step
  have bound := (List.getElem?_eq_some_iff.mp there).1
  refine ⟨⟨started ▸ here.counted, here.reached.trans goes, ?_,
    ⟨_, List.getElem?_set_self bound, worker⟩, fun i r other at' => ?_⟩, x, on⟩
  · rw [List.length_set]
    exact here.both
  · exact (here.beside i r other ((List.getElem?_set_ne (Ne.symm other)).symm.trans at')).works goes on

/-- A step of another call leaves the job as it is. -/
theorem Scene.leaves (here : Scene n o p₀ ⟨s, rs⟩) (other : i ≠ 0)
    (there : rs[i]? = some (.act step next)) :
    Leaves (jobName n) s (step s) ∧ Beside n o p₀ i ⟨step s, rs.set i (next s)⟩ (next s) := by
  obtain ⟨w, first, worker⟩ := here.worker
  rcases here.beside i _ other there with stage | ⟨third, elsewhere⟩
  · obtain ⟨leaves, stage⟩ := stage.step there here.reached first worker
    exact ⟨leaves, .inl stage⟩
  · obtain ⟨keeps, later⟩ := elsewhere s here.counted
    exact ⟨keeps.leaves, .inr ⟨third, later⟩⟩

theorem Scene.others (here : Scene n o p₀ ⟨s, rs⟩) (other : i ≠ 0)
    (there : rs[i]? = some (.act step next)) : Scene n o p₀ ⟨step s, rs.set i (next s)⟩ := by
  have goes : HappensBeside n ⟨s, rs⟩ ⟨step s, rs.set i (next s)⟩ := .act .none there
  obtain ⟨w, first, worker⟩ := here.worker
  obtain ⟨leaves, beside⟩ := here.leaves other there
  refine ⟨Nat.le_trans here.counted leaves.started, here.reached.trans goes, ?_,
    ⟨w, (List.getElem?_set_ne other).trans first, worker.left leaves⟩, fun j r third at' => ?_⟩
  · rw [List.length_set]
    exact here.both
  · rcases of_getElem?_set at' with ⟨rfl, rfl⟩ | ⟨-, at'⟩
    · exact beside
    · exact (here.beside j r third at').left goes leaves

/-- Nothing changes when a call goes on after it stood still; a poll never stands still. -/
theorem Scene.wait {next : Call} (here : Scene n o p₀ ⟨s, rs⟩) (there : rs[i]? = some (.wait next)) :
    Scene n o p₀ ⟨s, rs.set i next⟩ := by
  have goes : HappensBeside n ⟨s, rs⟩ ⟨s, rs.set i next⟩ := .wait .none there
  obtain ⟨w, first, worker⟩ := here.worker
  refine ⟨here.counted, here.reached.trans goes, ?_, ?_, fun j r other at' => ?_⟩
  · rw [List.length_set]
    exact here.both
  · by_cases zero : i = 0
    · subst zero
      cases there.symm.trans first
      have bound := (List.getElem?_eq_some_iff.mp there).1
      exact ⟨next, List.getElem?_set_self bound, worker.wait⟩
    · exact ⟨w, (List.getElem?_set_ne zero).trans first, worker⟩
  · rcases of_getElem?_set at' with ⟨rfl, rfl⟩ | ⟨-, at'⟩
    · rcases here.beside i _ other there with stage | elsewhere
      · exact stage.no_wait.elim
      · exact .inr elsewhere
    · exact (here.beside j r other at').left goes .refl

end

/-- By induction on what happens, everybody stays on the scene. -/
theorem Scene.goes (here : Scene n o p₀ q) (goes : HappensBeside n q q') : Scene n o p₀ q' := by
  induction goes with
  | none => exact here
  | call _ new ih => exact ih.call new
  | @act s rs i step next _ there ih =>
    by_cases zero : i = 0
    · subst zero
      exact (ih.works there).1
    · exact ih.others zero there
  | wait _ there ih => exact ih.wait there

theorem Scene.gone_step {s : Service} {rs : List Call} {step : Service → Service}
    {next : Service → Call} (here : Scene n o p₀ ⟨s, rs⟩) (gone : s.job? (jobName n) = none)
    (there : rs[i]? = some (.act step next)) : (step s).job? (jobName n) = none := by
  by_cases zero : i = 0
  · subst zero
    obtain ⟨-, x, on⟩ := here.works there
    rw [on] at gone
    cases gone
  · exact (here.leaves zero there).1.gone gone

/-- A job that was dropped never comes back. -/
theorem Scene.gone (here : Scene n o p₀ q) (gone : q.state.job? (jobName n) = none)
    (goes : HappensBeside n q q') : q'.state.job? (jobName n) = none := by
  induction goes with
  | none => exact gone
  | call _ _ ih => exact ih
  | act before there ih => exact (here.goes before).gone_step ih there
  | wait _ _ ih => exact ih

/-- The answer to a poll of a job that is not in the table. -/
def notFound : Call :=
  .done (.ok (some (.refusal 404 "Job not found")))

/-- What is left of a poll that comes when the job has been dropped. -/
theorem Scene.late (here : Scene n o p₀ q) (gone : q.state.job? (jobName n) = none)
    (asks : q.calls[i]? = some (polling (jobName n))) (goes : HappensBeside n q q') :
    q'.calls[i]? = some (polling (jobName n)) ∨ q'.calls[i]? = some notFound := by
  induction goes with
  | none => exact .inl asks
  | call _ _ ih =>
    refine ih.imp (fun there => ?_) fun there => ?_
    all_goals exact (List.getElem?_append_left (List.getElem?_eq_some_iff.mp there).1).trans there
  | @act s rs j step next before there ih =>
    by_cases same : j = i
    · subst same
      have bound := (List.getElem?_eq_some_iff.mp there).1
      rcases ih with asking | told
      · refine .inr ((List.getElem?_set_self bound).trans ?_)
        have first := there.symm.trans asking
        rw [polling_eq] at first
        cases first
        unfold looked
        rw [show s.job? (jobName n) = none from here.gone gone before]
        rfl
      · cases there.symm.trans told
    · exact ih.imp ((List.getElem?_set_ne same).trans ·) ((List.getElem?_set_ne same).trans ·)
  | @wait s rs j next before there ih =>
    by_cases same : j = i
    · subst same
      rcases ih with asking | told
      · have first := there.symm.trans asking
        rw [polling_eq] at first
        cases first
      · cases there.symm.trans told
    · exact ih.imp ((List.getElem?_set_ne same).trans ·) ((List.getElem?_set_ne same).trans ·)

/-- The progress of a job that has ended stays as it is. -/
theorem Scene.settled (here : Scene n o p₀ q) {x : List (String × Progress)} {e : Outcome}
    (ended : q.state.held? (jobName n) = some ⟨x, some e⟩) (goes : HappensBeside n q q') :
    q'.state.held? (jobName n) = some ⟨x, some e⟩ := by
  induction goes with
  | none => exact ended
  | call _ _ ih => exact ih
  | @act s rs i step next before there ih =>
    have here := here.goes before
    by_cases zero : i = 0
    · subst zero
      obtain ⟨-, x', on⟩ := here.works there
      cases (held_of_job on).symm.trans ih
    · exact (here.leaves zero there).1.held.trans ih
  | wait _ _ ih => exact ih

end

/-! ## The law -/

/-- The document that a call came to, if it is one. -/
def documentOf : Call → Option Json
  | .done (.ok (some (.document d))) => some d
  | _ => none

theorem documentOf_eq {r : Call} {d : Json} (there : documentOf r = some d) :
    r = .done (.ok (some (.document d))) := by
  unfold documentOf at there
  split at there
  · cases there
    rfl
  · cases there

/-- The document that the poll on the scene has told. -/
def told? (q : Pool Service Call) : Option Json :=
  q.calls[1]?.bind documentOf

theorem told?_eq {q : Pool Service Call} {d : Json} (told : told? q = some d) :
    q.calls[1]? = some (.done (.ok (some (.document d)))) := by
  obtain ⟨r, there, document⟩ := Option.bind_eq_some_iff.mp told
  rw [there, documentOf_eq document]

/-- The entry of a tool in the progress that a document tells. -/
def entryTold (tool : String) (d : Json) : Option Json :=
  member? "progress" d >>= member? tool

theorem entryTold_jobJson (tool id status : String) (progress : List (String × Progress))
    (results error : Json) :
    entryTold tool (jobJson id status progress results error) =
      (progress.lookup tool).map progressJson := by
  show (progress.map fun p => (p.1, progressJson p.2)).lookup tool = _
  induction progress with
  | nil => rfl
  | cons x xs ih =>
    rw [List.map_cons, lookup_cons_ite, lookup_cons_ite, ih]
    split <;> rfl

/-- What the poll tells that has answered with `d` by `q`, that the job with the number `n` is done: the
analyses of the batch of the order `o`, and the `progress` that there was when it was copied. The
`turns` are those of the batch, each of a tool and with its analysis; `final` is the last progress of
the tools. All of this comes after `p₀`. -/
structure DoneLaw (n : Nat) (o : BatchOrder) (p₀ q : Pool Service Call) (d : Json)
    (progress final : List (String × Progress)) (turns : List (String × Analysis)) : Prop where
  tells : ∃ docs, analysesJson (turns.map (·.2)) = .ok docs ∧
    d = jobJson (jobName n) "done" progress docs .null
  order : (turns.map (·.1)).Sublist o.tools
  saw : ∃ q₁ q₂, SawEnd n p₀ 1 progress final (turns.map (·.2)) q₁ q₂ ∧ HappensBeside n q₂ q
  /-- No progress comes after the end. -/
  last : ∀ u, HappensBeside n q u →
    u.state.held? (jobName n) = some ⟨final, some (.ok (turns.map (·.2)))⟩
  /-- The last progress of a tool whose last run went well says that all of its files are done; it is
  told unless it came after the copy. -/
  entries : ∀ before tool a after, turns = before ++ (tool, a) :: after → tool ∉ after.map (·.1) →
    a.success = true → ∃ p, final.lookup tool = some p ∧ p.processed = p.total ∧
      (progress.lookup tool = final.lookup tool → entryTold tool d = some (progressJson p))
  /-- A poll that comes later does not find the job. -/
  late : ∀ u, HappensBeside n q u → u.state.job? (jobName n) = none ∧
    ∀ u', HappensBeside n ⟨u.state, u.calls ++ [polling (jobName n)]⟩ u' →
      ∀ e, u'.calls[u.calls.length]? = some (.done e) →
        e = .ok (some (.refusal 404 "Job not found"))

/-- What a poll that says done tells, in whatever order its sections, the steps of the work of the job,
other polls and all other calls come. -/
theorem done_poll_tells_progress {n : Nat} {o : BatchOrder} {s₀ : Service}
    {q : Pool Service Call} {d : Json} (counted : n ≤ s₀.started)
    (fresh : s₀.job? (jobName n) = some .new)
    (goes : HappensBeside n (scene n o s₀) q) (told : told? q = some d)
    (done : member? "status" d = some (.str "done")) :
    ∃ progress final turns, DoneLaw n o (scene n o s₀) q d progress final turns := by
  have start : Scene n o (scene n o s₀) (scene n o s₀) := .first counted fresh
  have here := start.goes goes
  have stage := (here.beside 1 _ Nat.one_ne_zero (told?_eq told)).resolve_right fun other => other.1 rfl
  obtain ⟨gone, progress, final, as, backed⟩ := stage.done done
  obtain ⟨turns, rfl, order, turned⟩ := backed.answers as rfl
  obtain ⟨q₁, q₂, saw, since⟩ := backed.saw
  obtain ⟨docs, written, is⟩ := backed.tells
  cases is
  refine ⟨progress, final, turns, ⟨docs, written, rfl⟩, order, ⟨q₁, q₂, saw, since⟩,
    fun u later => ?_, ?_, fun u later => ?_⟩
  · exact (start.goes (saw.before.trans saw.between)).settled saw.ended (since.trans later)
  · rintro before tool a after rfl last good
    obtain ⟨p, entry, all⟩ := turned_entry turned last rfl good
    refine ⟨p, entry, all, fun copied => ?_⟩
    rw [entryTold_jobJson, copied, show final.lookup tool = some p from entry]
    rfl
  · have still : u.state.job? (jobName n) = none := here.gone gone later
    refine ⟨still, fun u' more e ended => ?_⟩
    have there : Scene n o (scene n o s₀) ⟨u.state, u.calls ++ [polling (jobName n)]⟩ :=
      (here.goes later).call (.inr rfl)
    rcases there.late still List.getElem?_concat_length more with asking | found
    · have bad := asking.symm.trans ended
      rw [polling_eq] at bad
      cases bad
    · cases found.symm.trans ended
      rfl

/-! ## Orders of steps -/

/-- Calls go on in a given order of their steps. -/
def played (p : Pool Service Call) (is : List Nat) : Pool Service Call :=
  (Pool.play ⟨p.state, p.calls.map (Trail.mark fun _ _ => ())⟩ is).1.erase

theorem happens_played (n : Nat) (p : Pool Service Call) (is : List Nat) :
    HappensBeside n p (played p is) :=
  (Happens.play p.calls is).mono fun _ never => never.elim

/-- A service that has taken on a job for a quiet tool. -/
def quietJob : Service :=
  tookOn (.new (Hub.holding (.bare .default) [Hub.quietTool "alpha"]))

def orderOf (names : List String) : BatchOrder :=
  ⟨names, Hub.reportTo "", none⟩

/-- The poll comes when the job has ended. -/
def polledAfter : Pool Service Call :=
  played (scene 1 (orderOf ["alpha"]) quietJob) (List.replicate 20 0 ++ List.replicate 4 1)

theorem done_poll_tells_progress_alpha : ∃ d progress final turns, told? polledAfter = some d ∧
    DoneLaw 1 (orderOf ["alpha"]) (scene 1 (orderOf ["alpha"]) quietJob) polledAfter d progress final
      turns := by
  obtain ⟨d, told, done⟩ : ∃ d, told? polledAfter = some d ∧
      member? "status" d = some (.str "done") := ⟨_, rfl, rfl⟩
  obtain ⟨progress, final, turns, law⟩ :=
    done_poll_tells_progress (Nat.le_refl 1) rfl (happens_played 1 _ _) told done
  exact ⟨d, progress, final, turns, told, law⟩

/-- The tools of which a document has an analysis that went well. -/
def wentWell (d : Json) : List String :=
  match member? "results" d with
  | some (.arr rs) =>
    rs.filterMap fun r =>
      match member? "success" r, member? "tool_name" r with
      | some (.bool true), some (.str tool) => some tool
      | _, _ => none
  | _ => []

/-- The entry of each tool that went well says that all of its files are done. -/
def Finished (d : Json) : Prop :=
  ∀ tool ∈ wentWell d, ∃ p, entryTold tool d = some (progressJson p) ∧ p.processed = p.total

/-- The poll copies the progress before the work of the job begins, and sees its end. -/
def copiedEarly : Pool Service Call :=
  played (scene 1 (orderOf ["alpha"]) quietJob) ([1, 1] ++ List.replicate 20 0 ++ [1, 1])

/-- A tool that starts and fails. -/
def faultyTool (name : String) : Tool :=
  .scripted (.new { Script.quiet name with fault := some (.foreign .runtime [.str "boom"]) } true)

/-- A tool is registered; one of its name loses it. -/
def registering (t : Tool) : Call :=
  ((fun _ => none) <$> View.whole.work (inHub (Hub.register (some t))) : Work Service (Option Reply)).run

theorem elsewhere_registering (n : Nat) (t : Tool) : Elsewhere n (registering t) := by
  refine elsewhere_of_hub ⟨fun s => ⟨_, rfl⟩, fun s => ?_⟩
  show Routine.Within _ (Routine.bind (.done ((inHub (Hub.register (some t))).outcome s).1) _)
  rcases ((inHub (Hub.register (some t))).outcome s).1 with f | u <;> trivial

/-- The tool of a job is replaced by a faulty one between its two turns, and the job ends. -/
def replacedBetween : Pool Service Call :=
  let p := scene 1 (orderOf ["alpha", "alpha"]) quietJob
  played ⟨p.state, p.calls ++ [registering (faultyTool "alpha")]⟩
    (List.replicate 10 0 ++ [2] ++ List.replicate 20 0)

theorem happens_replacedBetween :
    HappensBeside 1 (scene 1 (orderOf ["alpha", "alpha"]) quietJob) replacedBetween :=
  (Happens.call .none (.inl (elsewhere_registering 1 _))).trans (happens_played 1 _ _)

/-- Nothing of the poll has been done yet. -/
theorem polls_replacedBetween : replacedBetween.calls[1]? = some (polling (jobName 1)) := by
  show some (Trail.erase (Trail.mark (fun _ _ => ()) (polling (jobName 1)))) = _
  rw [Trail.erase_mark]

/-- Not even if no name comes twice in the batch: the copy may be old. Not even if the poll comes when
the work of the job is over: the entry of a name is that of its last run. -/
theorem not_every_entry_is_finished :
    (¬ ∀ n o s₀ q d, n ≤ s₀.started → s₀.job? (jobName n) = some .new → o.tools.Nodup →
      HappensBeside n (scene n o s₀) q → told? q = some d → member? "status" d = some (.str "done") →
      Finished d) ∧
    ¬ ∀ n o s₀ u q d, n ≤ s₀.started → s₀.job? (jobName n) = some .new →
      HappensBeside n (scene n o s₀) u → u.calls[0]? = some (.done (.ok none)) →
      u.calls[1]? = some (polling (jobName n)) → HappensBeside n u q → told? q = some d → member? "status" d = some (.str "done") → Finished d := by
  constructor
  · intro all
    obtain ⟨d, told, done, well, absent⟩ : ∃ d, told? copiedEarly = some d ∧
        member? "status" d = some (.str "done") ∧ wentWell d = ["alpha"] ∧
        entryTold "alpha" d = none := ⟨_, rfl, rfl, rfl, rfl⟩
    obtain ⟨p, entry, -⟩ := all 1 _ quietJob _ d (Nat.le_refl 1) rfl (by decide) (happens_played 1 _ _)
      told done "alpha" (well ▸ List.mem_singleton_self _)
    rw [absent] at entry
    cases entry
  · intro all
    have after := happens_played 1 replacedBetween (List.replicate 4 1)
    obtain ⟨d, e, told, done, well, entry, processed, total⟩ : ∃ d e,
        told? (played replacedBetween (List.replicate 4 1)) = some d ∧
        member? "status" d = some (.str "done") ∧ wentWell d = ["alpha"] ∧
        entryTold "alpha" d = some e ∧ member? "processed_files" e = some (.int 0) ∧
        member? "total_files" e = some (.int 1) := ⟨_, _, rfl, rfl, rfl, rfl, rfl, rfl⟩
    obtain ⟨p, same, finished⟩ := all 1 _ quietJob _ _ d (Nat.le_refl 1) rfl happens_replacedBetween rfl
      polls_replacedBetween after told done "alpha" (well ▸ List.mem_singleton_self _)
    cases entry.symm.trans same
    have none : p.processed = 0 := Json.int.inj (Option.some.inj processed)
    have one : p.total = 1 := Json.int.inj (Option.some.inj total)
    omega

end LintHub.Http.Service.Polls
