import EdgeLink.OtaTasks
import EdgeLink.PyText

namespace EdgeLink.Rollout

open Ota (OtaTaskState stateText canTransition)

/-! The rows that the assistant keeps about a staged rollout. -/

structure Item where
  batchIndex : ℕ
  deviceId : ℤ
  status : String
  taskUuid : String
  lastCheckedAt : ℕ
  deriving DecidableEq

/-- What an approval request or a batch run may be in. -/
inductive RunStatus
  | pending | approved | rejected | cancelled | executeFailed
  | pendingBatchStart | running | created | partialFailed | failed | waitingNextBatch | success
  | paused | terminated | empty
  deriving DecidableEq

structure Control where
  paused : Bool
  terminated : Bool
  deriving DecidableEq

structure Summary where
  deviceCount : ℕ
  blockedDeviceIds : List ℤ
  failedDeviceIds : List ℤ
  successCount : ℕ
  runningCount : ℕ
  taskCreatedCount : ℕ
  queuedCount : ℕ
  waitingBatchCount : ℕ
  failedCount : ℕ
  control : Control
  deriving DecidableEq

structure BatchRun where
  firmwareId : String
  transport : String
  target : String
  status : RunStatus
  summaryPayload : Summary
  deriving DecidableEq

/-- The request payload of a batch approval. -/
structure BatchRequest where
  firmwareId : String
  transport : String
  target : String
  rolloutBatches : List (List ℤ)
  readyDeviceIds : List ℤ
  blockedDeviceIds : List ℤ
  deviceTransportOverrides : List (ℤ × String × String)
  deriving DecidableEq

/-- The part of the approval that follows the run. -/
structure Approval where
  status : RunStatus
  failedDeviceIds : List ℤ
  failedCount : ℕ
  createdCount : ℕ
  deriving DecidableEq

def strip (s : String) : String := String.ofList (PyText.strip s.toList)

def lower (s : String) : String := String.ofList (PyText.lower s.toList)

def statusMapping : List (String × String) :=
  [("created", "task_created"), ("pending", "task_created"), ("queued", "task_created"),
    ("running", "running"), ("sending", "running"), ("in_progress", "running"),
    ("success", "success"), ("succeeded", "success"), ("done", "success"),
    ("failed", "failed"), ("error", "failed"), ("submit_failed", "submit_failed"),
    ("cancelled", "cancelled"), ("canceled", "cancelled"), ("task_created", "task_created")]

def normalizeBatchItemStatus (raw_state fallback : String) : String :=
  let state := lower (strip raw_state)
  if state = "" then fallback else (statusMapping.lookup state).getD state

def pendingStates : List String := ["queued", "waiting_batch"]

def activeStates : List String := ["task_created", "running"]

def failedStates : List String := ["failed", "submit_failed", "cancelled"]

def Item.pending (item : Item) : Bool := item.status ∈ pendingStates

def pendingBatchIndexes (items : List Item) : List ℕ :=
  ((items.filter Item.pending).map Item.batchIndex).dedup.insertionSort (· ≤ ·)

def nextBatchIndex (items : List Item) : Option ℕ := (pendingBatchIndexes items).head?

def validatePreviousBatchesBeforeStart (items : List Item) (next_batch_index : ℕ) : String :=
  let previous_items := items.filter (·.batchIndex < next_batch_index)
  if previous_items.any (·.status ∈ activeStates) then
    "Previous OTA batch is still running. Refresh the batch run before starting the next one."
  else if previous_items.any (·.status ∈ failedStates) then
    "Previous OTA batch contains failed devices. Retry or resolve them before starting the next batch."
  else ""

def countOf (items : List Item) (status : String) : ℕ := items.countP (·.status = status)

def failedDevices (items : List Item) : List ℤ :=
  (items.filter (·.status ∈ failedStates)).map Item.deviceId

def summarizeBatchRunItems (items : List Item) (blocked_device_ids : List ℤ) : Summary where
  deviceCount := items.length
  blockedDeviceIds := blocked_device_ids
  failedDeviceIds := failedDevices items
  successCount := countOf items "success"
  runningCount := countOf items "running"
  taskCreatedCount := countOf items "task_created"
  queuedCount := countOf items "queued"
  waitingBatchCount := countOf items "waiting_batch"
  failedCount := countOf items "failed" + countOf items "submit_failed" + countOf items "cancelled"
  control := ⟨false, false⟩

def deriveBatchRunStatus (summary : Summary) : RunStatus :=
  if summary.deviceCount = 0 then .empty
  else if 0 < summary.waitingBatchCount ∧ (0 < summary.runningCount ∨ 0 < summary.taskCreatedCount) then
    .running
  else if 0 < summary.failedCount then
    if 0 < summary.successCount + summary.runningCount + summary.taskCreatedCount then .partialFailed
    else .failed
  else if 0 < summary.runningCount then .running
  else if 0 < summary.taskCreatedCount then .created
  else if 0 < summary.queuedCount ∨ 0 < summary.waitingBatchCount then .waitingNextBatch
  else if summary.successCount = summary.deviceCount then .success
  else .approved

def composeBatchRunStatus (run : BatchRun) (summary : Summary) : RunStatus :=
  if summary.control.terminated ∨ run.status = .terminated then .terminated
  else if summary.control.paused ∨ run.status = .paused then .paused
  else deriveBatchRunStatus summary

def createdCountOf (summary : Summary) : ℕ :=
  summary.taskCreatedCount + summary.runningCount + summary.successCount

/-- What the approval takes over from a run and a summary. -/
def syncApprovalFromBatchRun (run : BatchRun) (summary : Summary) : Approval :=
  ⟨composeBatchRunStatus run summary, summary.failedDeviceIds, summary.failedCount,
    createdCountOf summary⟩

inductive Role
  | viewer | operator | approver | admin
  deriving DecidableEq

def roleRank : Role → ℕ
  | .viewer => 1
  | .operator => 2
  | .approver => 3
  | .admin => 4

inductive DecisionStatus
  | proposed | executed | failed | rolledBack
  deriving DecidableEq

inductive ExecutionStatus
  | blocked | executed | failed
  deriving DecidableEq

/-- A decision to pause the run, with its latest execution record. -/
structure Decision where
  status : DecisionStatus
  requiresApproval : Bool
  critical : Bool
  latestExecution : Option ExecutionStatus
  deriving DecidableEq

def guardrailsPass (decision : Decision) (actor : Role) (force_execute : Bool) : Bool :=
  if decision.status = .executed ∨ decision.status = .rolledBack then false
  else if decision.requiresApproval ∧ ¬(actor = .approver ∨ actor = .admin) ∧ !force_execute then false
  else if decision.critical ∧ !force_execute ∧ actor ≠ .admin then false
  else true

structure World where
  request : BatchRequest
  run : BatchRun
  items : List Item
  approval : Approval
  decisions : List Decision
  clock : ℕ
  lastRefresh : Option ℕ
  deriving DecidableEq

/-- A call of `create_ota_task`. -/
structure Call where
  deviceId : ℤ
  firmwareId : String
  transport : String
  target : String
  deriving DecidableEq

structure Created where
  ok : Bool
  taskUuid : Option String
  deriving DecidableEq

/-- What the gateway answers while an operation asks for tasks, by the device's turn. -/
structure Answers where
  manifestOk : Bool
  guardOk : ℕ → Bool
  create : ℕ → Created

def Answers.submit (a : Answers) (i : ℕ) : Created := if a.guardOk i then a.create i else ⟨false, none⟩

def submittedStatus (created : Created) : String := if created.ok then "task_created" else "submit_failed"

def resolveBatchDeviceTransport (overrides : List (ℤ × String × String)) (transport target : String)
    (device_id : ℤ) : String × String :=
  match overrides.lookup device_id with
  | some (override_transport, override_target) =>
    if strip override_transport ≠ "" then
      (strip override_transport,
        if strip override_target = "" then "127.0.0.1:19090" else strip override_target)
    else (transport, target)
  | none => (transport, target)

end EdgeLink.Rollout
