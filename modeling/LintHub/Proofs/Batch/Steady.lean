import LintHub.Proofs.Batch.Probes

/-! # What work of the hub leaves alone

Whether the hub counts as running is settled where batches and single runs begin and end, and a cancel
is taken back where something is submitted or begun. Every other step leaves the first alone and takes
no cancel back.
-/

namespace LintHub.Hub

structure Steady (h h' : Hub) : Prop where
  running : h'.running = h.running
  cancelled : h.cancelled = true → h'.cancelled = true

theorem Kept.steady {h h' : Hub} (kept : Kept h h') : Steady h h' :=
  ⟨kept.running, kept.cancelled⟩

theorem Apart.steady {i : ToolId} {h h' : Hub} (apart : Apart i h h') : Steady h h' :=
  apart.toKept.steady

theorem Steady.refl (h : Hub) : Steady h h :=
  ⟨rfl, fun set => set⟩

theorem Steady.trans {h₁ h₂ h₃ : Hub} (a : Steady h₁ h₂) (b : Steady h₂ h₃) : Steady h₁ h₃ :=
  ⟨b.running.trans a.running, fun set => b.cancelled (a.cancelled set)⟩

theorem outcome_submit (h : Hub) : submit.outcome h =
    (if 0 < h.workers then .ok () else .error .noWorkers, { h with cancelled := false }) := by
  unfold submit clearCancel
  rw [Act.outcome_bind_ok (Act.outcome_modify _ h), Act.outcome_bind_ok (Act.outcome_get _)]
  by_cases workers : 0 < h.workers
  · rw [if_neg (Int.not_le.mpr workers), if_pos workers]
    rfl
  · rw [if_pos (Int.not_lt.mp workers), if_neg workers]
    rfl

theorem readyTool_steady (name : String) : Act.Within Steady (readyTool name) := by
  intro h
  rw [outcome_readyTool]
  cases h.idOf? name with
  | none => exact (noted_apart 0 h _ _ _).steady
  | some i =>
    have probed := (isAvailable_apart i h).steady
    dsimp only
    generalize (isAvailable i).outcome h = found at probed
    rcases found with ⟨f | _ | _, h₁⟩
    · exact probed
    · exact probed.trans (noted_apart i h₁ _ _ _).steady
    · exact probed

theorem stopsBefore_steady (name : String) : Act.Within Steady (stopsBefore name) := by
  intro h
  rw [outcome_stopsBefore]
  split
  · exact (noted_apart 0 h _ _ _).steady
  · exact Steady.refl h

theorem still_steady {α : Type} {m : Act Hub α} (hm : Act.Still m) : Act.Within Steady m :=
  hm.within Steady.refl

theorem require_steady (name : String) : Act.Within Steady (require name) :=
  still_steady (require_still name)

theorem checkNames_steady (names : List String) : Act.Within Steady (checkNames names) :=
  still_steady (checkNames_still names)

theorem remember_steady (i : ToolId) (r : Request) : Act.Within Steady (remember i r) := by
  refine .bind (toolAt_within Steady.refl i) (fun t => ?_) fun _ _ _ => Steady.trans
  cases t with
  | scripted t => exact fun h => ⟨rfl, fun set => set⟩
  | external runner => exact Steady.refl

end LintHub.Hub
