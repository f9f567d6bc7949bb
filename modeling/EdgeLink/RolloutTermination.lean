import EdgeLink.RolloutGate

namespace EdgeLink.Rollout

open Machine

/-- After the termination nothing is asked for, and the run stays as it is. -/
def StaysTerminated (gateway : Gateway) (w : World) (op : Op) : Prop :=
  (step gateway w op).2.2 = [] ∧ (step gateway w op).1.run.status = .terminated

/-- Neither a retry that finds failed devices nor a rollback that finds an executed pause. -/
def RespectsTermination (w : World) : Op → Prop
  | .retryBatchFailedDevices a => ¬(w.approval.failedDeviceIds ≠ [] ∧ a.manifestOk = true)
  | .rollbackDecisionExecution i actor => ¬CanRollBack i actor w
  | _ => True

section
variable {gateway : Gateway} {w : World}

theorem startNextBatch_terminated (h : w.run.status = .terminated) (a : Answers) :
    startNextBatch a w = refused w := if_pos h

theorem pauseBatchRun_terminated (h : w.run.status = .terminated) : pauseBatchRun w = refused w :=
  if_pos h

theorem composeBatchRunStatus_terminated {run : BatchRun} (h : run.status = .terminated)
    (summary : Summary) : composeBatchRunStatus run summary = .terminated := if_pos (Or.inr h)

/-- A retry takes the run out of its end state, whatever the gateway answers. -/
theorem retryDevices_status (a : Answers) (w : World) :
    (retryDevices a w).world.run.status ≠ .terminated := by
  unfold retryDevices
  dsimp only
  split_ifs
  · exact RunStatus.noConfusion
  · exact RunStatus.noConfusion

theorem retry_terminated (h : w.run.status = .terminated) (a : Answers) :
    RespectsTermination w (.retryBatchFailedDevices a) ↔
      StaysTerminated gateway w (.retryBatchFailedDevices a) := by
  unfold RespectsTermination StaysTerminated step
  dsimp only [operate]
  rcases retryBatchFailedDevices_cases a w with ⟨hnone, hr⟩ | ⟨hsome, hmanifest, hr⟩
  · rw [hr]
    refine iff_of_true ?_ ⟨rfl, h⟩
    rintro ⟨hsome, hmanifest⟩
    rcases hnone with hnone | hnone
    · exact hsome hnone
    · rw [hmanifest] at hnone
      cases hnone
  · rw [hr]
    exact iff_of_false (not_not.mpr ⟨hsome, hmanifest⟩) fun hstays => retryDevices_status a w hstays.2

theorem rollback_terminated (h : w.run.status = .terminated) (i : ℕ) (actor : Role) :
    RespectsTermination w (.rollbackDecisionExecution i actor) ↔
      StaysTerminated gateway w (.rollbackDecisionExecution i actor) := by
  unfold RespectsTermination StaysTerminated step
  dsimp only [operate]
  rcases rollbackDecisionExecution_cases i actor w with ⟨hcan, hr⟩ | ⟨hcan, decisions, hr⟩
  · rw [hr]
    exact iff_of_true hcan ⟨rfl, h⟩
  · rw [hr]
    refine iff_of_false (not_not.mpr hcan) ?_
    rintro ⟨-, hstatus⟩
    cases hstatus

theorem respectsTermination_iff (h : w.run.status = .terminated) (op : Op) :
    RespectsTermination w op ↔ StaysTerminated gateway w op := by
  cases op with
  | startNextBatch a =>
    refine iff_of_true trivial ?_
    unfold StaysTerminated step
    dsimp only [operate]
    rw [startNextBatch_terminated h]
    exact ⟨rfl, h⟩
  | pauseBatchRun =>
    refine iff_of_true trivial ?_
    unfold StaysTerminated step
    dsimp only [operate]
    rw [pauseBatchRun_terminated h]
    exact ⟨rfl, h⟩
  | terminateBatchRun => exact iff_of_true trivial ⟨rfl, rfl⟩
  | retryBatchFailedDevices a => exact retry_terminated h a
  | refreshBatchRun => exact iff_of_true trivial ⟨rfl, composeBatchRunStatus_terminated h _⟩
  | executeDecision i actor force_execute =>
    refine iff_of_true trivial ?_
    unfold StaysTerminated step
    dsimp only [operate]
    rcases executeDecision_cases i actor force_execute w with ⟨decisions, hr⟩ | ⟨_, hterm, -⟩
    · rw [hr]
      exact ⟨rfl, h⟩
    · exact absurd h hterm
  | rollbackDecisionExecution i actor => exact rollback_terminated h i actor
  | decide requiresApproval critical => exact iff_of_true trivial ⟨rfl, h⟩
  | wait => exact iff_of_true trivial ⟨rfl, h⟩

end

/-- After its termination a run stays terminated, without a call, exactly as long as neither of the
two operations that do not look at the status goes through. -/
theorem terminated_for_good (gateway : Gateway) (w : World) (ops : List Op) :
    Always (step gateway) RespectsTermination (step gateway w .terminateBatchRun).1 ops ↔
      Always (step gateway) (StaysTerminated gateway) (step gateway w .terminateBatchRun).1 ops := by
  refine always_iff_of_invariant (I := fun w => w.run.status = .terminated) ?_ ?_ rfl
  · intro w op hterm hop
    exact ((respectsTermination_iff hterm op).mp hop).2
  · intro w op hterm
    exact respectsTermination_iff hterm op

/-- The device whose batch the termination has called off is asked for by the retry. -/
theorem retry_after_termination :
    ¬∀ (gateway : Gateway) (request : BatchRequest) (decisions : List Decision) (clock : ℕ)
      (manifestOk : Bool) (a : Answers) (r : Outcome) (before after : List Op), gateway.Moves →
      workflowOtaBatchRequestConfirm request decisions clock manifestOk a = some r →
      Always (step gateway) (StaysTerminated gateway)
        (step gateway (run (step gateway) r.world before) .terminateBatchRun).1 after := by
  intro h
  have hafter := h waitingGateway twoBatches [] 0 true (granted "t1") twoBatchesConfirmed []
    [.retryBatchFailedDevices (granted "t2")] waitingGateway_moves (Option.some_get _).symm
  exact absurd hafter.1.1 (by decide +kernel)

end EdgeLink.Rollout
