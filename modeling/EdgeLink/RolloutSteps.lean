import EdgeLink.BatchRollout

namespace EdgeLink.Rollout

open Ota (OtaTaskState stateText canTransition)

/-! The operations on a run. Each answers whether it was ok, and with the calls it has made. -/

structure Outcome where
  world : World
  ok : Bool
  calls : List Call

def refused (w : World) : Outcome := ⟨w, false, []⟩

def startCall (w : World) (device_id : ℤ) : Call :=
  let r := resolveBatchDeviceTransport w.request.deviceTransportOverrides w.run.transport
    w.run.target device_id
  ⟨device_id, w.run.firmwareId, r.1, r.2⟩

/-- The devices of one batch, the `i`-th of which is next. -/
def startItems (w : World) (a : Answers) (next_batch_index : ℕ) :
    ℕ → List Item → List Item × Bool × List Call
  | _, [] => ([], true, [])
  | i, item :: items =>
    if item.batchIndex = next_batch_index ∧ item.pending then
      let created := a.submit i
      let r := startItems w a next_batch_index (i + 1) items
      ({ item with
          status := submittedStatus created
          taskUuid := created.taskUuid.getD ""
          lastCheckedAt := w.clock } :: r.1,
        created.ok && r.2.1,
        (if a.guardOk i then [startCall w item.deviceId] else []) ++ r.2.2)
    else
      let r := startItems w a next_batch_index i items
      (item :: r.1, r.2)

/-- The batch is asked for, and its outcome written down. -/
def startBatch (a : Answers) (w : World) (next_batch_index : ℕ) : Outcome :=
  let r := startItems w a next_batch_index 0 w.items
  let summary := summarizeBatchRunItems r.1 w.run.summaryPayload.blockedDeviceIds
  ⟨{ w with
      items := r.1
      run := { w.run with status := deriveBatchRunStatus summary, summaryPayload := summary }
      -- the approval follows the copy of the run that was read before
      approval := syncApprovalFromBatchRun w.run summary
      clock := w.clock + 1 }, r.2.1, r.2.2⟩

def startNextBatch (a : Answers) (w : World) : Outcome :=
  if w.run.status = .terminated then refused w
  else if w.items = [] then refused w
  else
    match nextBatchIndex w.items with
    | none => refused w
    | some next_batch_index =>
      if validatePreviousBatchesBeforeStart w.items next_batch_index ≠ "" then refused w
      else if !a.manifestOk then refused w
      else startBatch a w next_batch_index

/-- An operation that begins only under some checks. -/
theorem startNextBatch_cases (a : Answers) (w : World) : startNextBatch a w = refused w ∨
    ∃ next, w.run.status ≠ .terminated ∧ nextBatchIndex w.items = some next ∧
      validatePreviousBatchesBeforeStart w.items next = "" ∧ a.manifestOk = true ∧
      startNextBatch a w = startBatch a w next := by
  unfold startNextBatch
  by_cases hterm : w.run.status = .terminated
  · rw [if_pos hterm]
    exact Or.inl rfl
  by_cases hempty : w.items = []
  · rw [if_neg hterm, if_pos hempty]
    exact Or.inl rfl
  rw [if_neg hterm, if_neg hempty]
  cases nextBatchIndex w.items with
  | none => exact Or.inl rfl
  | some next =>
    dsimp only
    by_cases hblocking : validatePreviousBatchesBeforeStart w.items next = ""
    · rw [if_neg (not_not.mpr hblocking)]
      cases hmanifest : a.manifestOk with
      | false => exact Or.inl (if_pos rfl)
      | true => exact Or.inr ⟨next, hterm, rfl, hblocking, rfl, if_neg Bool.false_ne_true⟩
    · rw [if_pos hblocking]
      exact Or.inl rfl

def markPaused (w : World) : Outcome :=
  let summary := { summarizeBatchRunItems w.items w.run.summaryPayload.blockedDeviceIds with
    control := ⟨true, false⟩ }
  ⟨{ w with
      run := { w.run with status := .paused, summaryPayload := summary }
      approval := syncApprovalFromBatchRun w.run summary
      clock := w.clock + 1 }, true, []⟩

def pauseBatchRun (w : World) : Outcome :=
  if w.run.status = .terminated then refused w
  else if w.items.any (·.status ∈ activeStates) then refused w
  else if pendingBatchIndexes w.items = [] then refused w
  else markPaused w

theorem pauseBatchRun_cases (w : World) : pauseBatchRun w = refused w ∨
    (w.run.status ≠ .terminated ∧ pauseBatchRun w = markPaused w) := by
  unfold pauseBatchRun
  split_ifs with hterm
  · exact Or.inl rfl
  · exact Or.inl rfl
  · exact Or.inl rfl
  · exact Or.inr ⟨hterm, rfl⟩

def cancelPending (acted_at : ℕ) (item : Item) : Item :=
  if item.pending then { item with status := "cancelled", lastCheckedAt := acted_at } else item

def terminateBatchRun (w : World) : Outcome :=
  let refreshed_items := w.items.map (cancelPending w.clock)
  let summary := { summarizeBatchRunItems refreshed_items w.run.summaryPayload.blockedDeviceIds with
    control := ⟨false, true⟩ }
  ⟨{ w with
      items := refreshed_items
      run := { w.run with status := .terminated, summaryPayload := summary }
      approval := syncApprovalFromBatchRun w.run summary
      clock := w.clock + 1 }, true, []⟩

/-- The approval itself names no transport, so without an override the default is taken. -/
def retryCall (w : World) (device_id : ℤ) : Call :=
  let r := resolveBatchDeviceTransport w.request.deviceTransportOverrides "serial" "127.0.0.1:19090"
    device_id
  ⟨device_id, w.request.firmwareId, r.1, r.2⟩

def retryResults (a : Answers) (failed_device_ids : List ℤ) : List (ℤ × Created) :=
  failed_device_ids.zipIdx.map fun x => (x.1, a.submit x.2)

def retryItem (acted_at : ℕ) (retry_results : List (ℤ × Created)) (item : Item) : Item :=
  match retry_results.lookup item.deviceId with
  | some created =>
    { item with
      status := submittedStatus created
      taskUuid := created.taskUuid.getD item.taskUuid
      lastCheckedAt := acted_at }
  | none => item

def retryDevices (a : Answers) (w : World) : Outcome :=
  let failed_device_ids := w.approval.failedDeviceIds
  let retry_results := retryResults a failed_device_ids
  let retry_failed := retry_results.filter (!·.2.ok)
  let new_status : RunStatus := if retry_failed = [] then .approved else .partialFailed
  let refreshed_items := w.items.map (retryItem w.clock retry_results)
  ⟨{ w with
      items := refreshed_items
      run := { w.run with
        status := new_status
        summaryPayload := summarizeBatchRunItems refreshed_items w.request.blockedDeviceIds }
      approval := ⟨new_status, retry_failed.map Prod.fst, retry_failed.length,
        w.approval.createdCount + (retry_results.length - retry_failed.length)⟩
      clock := w.clock + 1 }, retry_failed = [],
    (failed_device_ids.zipIdx.filter fun x => a.guardOk x.2).map fun x => retryCall w x.1⟩

def retryBatchFailedDevices (a : Answers) (w : World) : Outcome :=
  if w.approval.failedDeviceIds = [] then refused w
  else if !a.manifestOk then refused w
  else retryDevices a w

theorem retryBatchFailedDevices_cases (a : Answers) (w : World) :
    ((w.approval.failedDeviceIds = [] ∨ a.manifestOk = false) ∧
      retryBatchFailedDevices a w = refused w) ∨
    (w.approval.failedDeviceIds ≠ [] ∧ a.manifestOk = true ∧
      retryBatchFailedDevices a w = retryDevices a w) := by
  unfold retryBatchFailedDevices
  cases hmanifest : a.manifestOk with
  | false =>
    rw [Bool.not_false, if_pos rfl, ite_self]
    exact Or.inl ⟨Or.inr rfl, rfl⟩
  | true =>
    by_cases hnone : w.approval.failedDeviceIds = []
    · rw [if_pos hnone]
      exact Or.inl ⟨Or.inl hnone, rfl⟩
    · rw [if_neg hnone, Bool.not_true, if_neg Bool.false_ne_true]
      exact Or.inr ⟨hnone, rfl, rfl⟩

/-- The gateway's tasks at each instant, and whether it answers then. -/
structure Gateway where
  state : ℕ → String → Option OtaTaskState
  answers : ℕ → Bool

def Gateway.look (gateway : Gateway) (t : ℕ) (task_uuid : String) : Option OtaTaskState :=
  if gateway.answers t then gateway.state t task_uuid else none

def rawState (seen : Option OtaTaskState) (item : Item) : String :=
  match seen with
  | some state => stateText state
  | none => item.status

def refreshItems (gateway : Gateway) : ℕ → List Item → List Item
  | _, [] => []
  | t, item :: items =>
    let task_uuid := strip item.taskUuid
    if task_uuid = "" then item :: refreshItems gateway t items
    else
      { item with
        status := normalizeBatchItemStatus (rawState (gateway.look t task_uuid) item) item.status
        taskUuid := task_uuid
        lastCheckedAt := t } :: refreshItems gateway (t + 1) items

def refreshBatchRun (gateway : Gateway) (w : World) : Outcome :=
  let refreshed_items := refreshItems gateway w.clock w.items
  let summary := summarizeBatchRunItems refreshed_items w.run.summaryPayload.blockedDeviceIds
  let updated_run := { w.run with
    status := composeBatchRunStatus w.run summary
    summaryPayload := summary }
  ⟨{ w with
      items := refreshed_items
      run := updated_run
      approval := syncApprovalFromBatchRun updated_run summary
      clock := w.clock + w.items.length + 1
      lastRefresh := some w.clock }, true, []⟩

def executeDecision (i : ℕ) (actor : Role) (force_execute : Bool) (w : World) : Outcome :=
  if roleRank actor < roleRank .operator then refused w
  else
    match w.decisions[i]? with
    | none => refused w
    | some decision =>
      if !guardrailsPass decision actor force_execute then
        refused { w with
          decisions := w.decisions.set i { decision with latestExecution := some .blocked } }
      else
        let r := pauseBatchRun w
        let after : Decision :=
          if r.ok then { decision with status := .executed, latestExecution := some .executed }
          else { decision with status := .failed, latestExecution := some .failed }
        { r with world := { r.world with decisions := w.decisions.set i after } }

def rollbackDecisionExecution (i : ℕ) (actor : Role) (w : World) : Outcome :=
  if roleRank actor < roleRank .approver then refused w
  else
    match w.decisions[i]? with
    | none => refused w
    | some decision =>
      if decision.latestExecution ≠ some .executed then refused w
      else
        ⟨{ w with
            run := { w.run with
              status := .waitingNextBatch
              summaryPayload := { w.run.summaryPayload with
                control := { w.run.summaryPayload.control with paused := false } } }
            decisions := w.decisions.set i { decision with status := .rolledBack } }, true, []⟩

/-- A decision that is executed pauses the run, or it changes the decision alone. -/
theorem executeDecision_cases (i : ℕ) (actor : Role) (force_execute : Bool) (w : World) :
    (∃ decisions, executeDecision i actor force_execute w =
      refused { w with decisions := decisions }) ∨
    (∃ decisions, w.run.status ≠ .terminated ∧ executeDecision i actor force_execute w =
      { markPaused w with world := { (markPaused w).world with decisions := decisions } }) := by
  unfold executeDecision
  by_cases hrole : roleRank actor < roleRank .operator
  · rw [if_pos hrole]
    exact Or.inl ⟨w.decisions, rfl⟩
  rw [if_neg hrole]
  cases w.decisions[i]? with
  | none => exact Or.inl ⟨w.decisions, rfl⟩
  | some decision =>
    dsimp only
    by_cases hguard : (!guardrailsPass decision actor force_execute) = true
    · rw [if_pos hguard]
      exact Or.inl ⟨_, rfl⟩
    · rw [if_neg hguard]
      rcases pauseBatchRun_cases w with hpause | ⟨hterm, hpause⟩
      · rw [hpause]
        exact Or.inl ⟨_, rfl⟩
      · rw [hpause]
        exact Or.inr ⟨_, hterm, rfl⟩

/-- The latest execution of the decision can be rolled back, and the actor may do so. -/
def CanRollBack (i : ℕ) (actor : Role) (w : World) : Prop :=
  roleRank .approver ≤ roleRank actor ∧
    ∃ decision, w.decisions[i]? = some decision ∧ decision.latestExecution = some .executed

def resumed (w : World) (decisions : List Decision) : Outcome :=
  ⟨{ w with
      run := { w.run with
        status := .waitingNextBatch
        summaryPayload := { w.run.summaryPayload with
          control := { w.run.summaryPayload.control with paused := false } } }
      decisions := decisions }, true, []⟩

theorem rollbackDecisionExecution_cases (i : ℕ) (actor : Role) (w : World) :
    (¬CanRollBack i actor w ∧ rollbackDecisionExecution i actor w = refused w) ∨
    (CanRollBack i actor w ∧
      ∃ decisions, rollbackDecisionExecution i actor w = resumed w decisions) := by
  unfold rollbackDecisionExecution
  by_cases hrole : roleRank actor < roleRank .approver
  · rw [if_pos hrole]
    exact Or.inl ⟨fun h => not_lt.mpr h.1 hrole, rfl⟩
  rw [if_neg hrole]
  cases hdecision : w.decisions[i]? with
  | none =>
    refine Or.inl ⟨?_, rfl⟩
    rintro ⟨-, decision, hd, -⟩
    rw [hdecision] at hd
    cases hd
  | some decision =>
    dsimp only
    by_cases hlatest : decision.latestExecution = some .executed
    · rw [if_neg (not_not.mpr hlatest)]
      exact Or.inr ⟨⟨not_lt.mp hrole, decision, hdecision, hlatest⟩, _, rfl⟩
    · rw [if_pos hlatest]
      refine Or.inl ⟨?_, rfl⟩
      rintro ⟨-, decision', hd, hl⟩
      rw [hdecision] at hd
      obtain rfl := Option.some.inj hd
      exact hlatest hl

inductive Op
  | startNextBatch (a : Answers)
  | pauseBatchRun
  | terminateBatchRun
  | retryBatchFailedDevices (a : Answers)
  | refreshBatchRun
  | executeDecision (i : ℕ) (actor : Role) (force_execute : Bool)
  | rollbackDecisionExecution (i : ℕ) (actor : Role)
  | decide (requiresApproval critical : Bool)
  | wait

/-- One operation, with its answer and its calls. -/
def operate (gateway : Gateway) (w : World) : Op → Outcome
  | .startNextBatch a => startNextBatch a w
  | .pauseBatchRun => pauseBatchRun w
  | .terminateBatchRun => terminateBatchRun w
  | .retryBatchFailedDevices a => retryBatchFailedDevices a w
  | .refreshBatchRun => refreshBatchRun gateway w
  | .executeDecision i actor force_execute => executeDecision i actor force_execute w
  | .rollbackDecisionExecution i actor => rollbackDecisionExecution i actor w
  | .decide requiresApproval critical =>
    ⟨{ w with decisions := w.decisions ++ [⟨.proposed, requiresApproval, critical, none⟩] }, true, []⟩
  | .wait => ⟨{ w with clock := w.clock + 1 }, true, []⟩

def step (gateway : Gateway) (w : World) (op : Op) : World × Bool × List Call :=
  let r := operate gateway w op
  (r.world, r.ok, r.calls)

def batchIndexOf (rollout_batches : List (List ℤ)) (device_id : ℤ) : Option ℕ :=
  (rollout_batches.zipIdx 1).foldl (fun found x => if device_id ∈ x.1 then some x.2 else found) none

def firstBatchIndex (rollout_batches : List (List ℤ)) : ℕ :=
  ((rollout_batches.flatten.filterMap (batchIndexOf rollout_batches)).min?).getD 1

def batchItems (request : BatchRequest) : List Item :=
  let first_batch_index := firstBatchIndex request.rolloutBatches
  request.readyDeviceIds.map fun device_id =>
    let index := (batchIndexOf request.rolloutBatches device_id).getD first_batch_index
    ⟨index, device_id, if index = first_batch_index then "queued" else "waiting_batch", "", 0⟩

/-- The items are listed by batch, and by their ids within a batch. -/
def createBatchRun (request : BatchRequest) (decisions : List Decision) (clock : ℕ) : World where
  request := request
  run := ⟨request.firmwareId, request.transport, request.target, .pendingBatchStart,
    summarizeBatchRunItems (batchItems request) request.blockedDeviceIds⟩
  items := (batchItems request).insertionSort fun a b => a.batchIndex ≤ b.batchIndex
  approval := ⟨.approved, [], 0, 0⟩
  decisions := decisions
  clock := clock
  lastRefresh := none

def workflowOtaBatchRequestConfirm (request : BatchRequest) (decisions : List Decision) (clock : ℕ)
    (manifestOk : Bool) (a : Answers) : Option Outcome :=
  if !manifestOk then none
  else
    let r := startNextBatch a (createBatchRun request decisions clock)
    let summary_payload := r.world.run.summaryPayload
    some ⟨{ r.world with
      approval := ⟨r.world.run.status, summary_payload.failedDeviceIds, summary_payload.failedCount,
        createdCountOf summary_payload⟩ }, r.ok, r.calls⟩

end EdgeLink.Rollout
