import EdgeLink.Machine

namespace EdgeLink.Ota
open Machine

inductive OtaTaskState
  | created | waitDeviceOnline | precheck | prepareDevice | transferring | verifying | committing
  | rebooting | versionCheck | healthConfirm | success | failed | rollback | canceled
  deriving DecidableEq, Repr

open OtaTaskState

def canTransition (src dst : OtaTaskState) : Bool :=
  if src = dst then true
  else if dst = failed ∨ dst = canceled ∨ dst = rollback then true
  else
    match src with
    | created => dst = waitDeviceOnline
    | waitDeviceOnline => dst = precheck
    | precheck => dst = prepareDevice
    | prepareDevice => dst = transferring
    | transferring => dst = verifying
    | verifying => dst = committing
    | committing => dst = rebooting
    | rebooting => dst = versionCheck
    | versionCheck => dst = healthConfirm
    | healthConfirm => dst = success
    | success | failed | rollback | canceled => false

def stateText : OtaTaskState → String
  | created => "CREATED"
  | waitDeviceOnline => "WAIT_DEVICE_ONLINE"
  | precheck => "PRECHECK"
  | prepareDevice => "PREPARE_DEVICE"
  | transferring => "TRANSFERRING"
  | verifying => "VERIFYING"
  | committing => "COMMITTING"
  | rebooting => "REBOOTING"
  | versionCheck => "VERSION_CHECK"
  | healthConfirm => "HEALTH_CONFIRM"
  | success => "SUCCESS"
  | failed => "FAILED"
  | rollback => "ROLLBACK"
  | canceled => "CANCELED"

def fromString (s : String) : Option OtaTaskState :=
  if s = "CREATED" then some created
  else if s = "WAIT_DEVICE_ONLINE" then some waitDeviceOnline
  else if s = "PRECHECK" then some precheck
  else if s = "PREPARE_DEVICE" then some prepareDevice
  else if s = "TRANSFERRING" then some transferring
  else if s = "VERIFYING" then some verifying
  else if s = "COMMITTING" then some committing
  else if s = "REBOOTING" then some rebooting
  else if s = "VERSION_CHECK" then some versionCheck
  else if s = "HEALTH_CONFIRM" then some healthConfirm
  else if s = "SUCCESS" then some success
  else if s = "FAILED" then some failed
  else if s = "ROLLBACK" then some rollback
  else if s = "CANCELED" then some canceled
  else none

theorem fromString_stateText (s : OtaTaskState) : fromString (stateText s) = some s := by
  cases s <;> rfl

structure OtaTask where
  taskUuid : String
  deviceId : UInt8
  deviceType : String
  firmwareId : String
  state : OtaTaskState
  lastError : String
  deriving DecidableEq, Repr

structure OtaTaskEvent where
  taskUuid : String
  tsUnixMs : ℕ
  state : String
  detail : String
  deriving DecidableEq, Repr

structure OtaRow where
  deviceId : UInt8
  deviceType : String
  firmwareId : String
  state : String
  lastError : String
  deriving DecidableEq, Repr

structure PersistentStore where
  tasks : String → Option OtaRow
  events : List OtaTaskEvent

def maxPersistedEvents : ℕ := 5000

def taskRow (t : OtaTask) : OtaRow :=
  ⟨t.deviceId, t.deviceType, t.firmwareId, stateText t.state, t.lastError⟩

/-- A text column is read back as a C string. -/
def columnText (s : String) : String := String.ofList (s.toList.takeWhile (· ≠ '\x00'))

def rowTask (task_uuid : String) (r : OtaRow) : OtaTask :=
  ⟨task_uuid, r.deviceId, columnText r.deviceType, columnText r.firmwareId,
    (fromString r.state).getD created, columnText r.lastError⟩

def saveTask (s : PersistentStore) (t : OtaTask) : PersistentStore :=
  { s with tasks := Function.update s.tasks t.taskUuid (some (taskRow t)) }

def appendEvent (s : PersistentStore) (e : OtaTaskEvent) : PersistentStore :=
  let events := s.events ++ [e]
  { s with events := events.drop (events.length - maxPersistedEvents) }

structure OtaTaskManager where
  tasks : String → Option OtaTask
  store : PersistentStore

structure Env where
  uuidMs : ℕ
  eventMs : ℕ
  saveError : Option String
  appendError : Option String

inductive Call
  | create (device_id : UInt8) (device_type firmware_id : String)
  | updateState (task_uuid : String) (next : OtaTaskState) (detail : String)
  | fail (task_uuid reason : String)
  | cancel (task_uuid : String)
  | retry (task_uuid : String)

inductive Outcome
  | created (t : OtaTask) (err : Option String)
  | done
  | failed (err : String)

/-- What the caller is told went wrong. -/
def Outcome.error : Outcome → Option String
  | .created _ err => err
  | .done => none
  | .failed err => some err

/-- What the constructor reads from the store. -/
def loadTasks (s : PersistentStore) : String → Option OtaTask :=
  fun task_uuid => (s.tasks task_uuid).map (rowTask task_uuid)

def openManager (s : PersistentStore) : OtaTaskManager := ⟨loadTasks s, s⟩

def nowUuid (ms : ℕ) : String := "ota-" ++ toString ms

/-- The two writes behind a change of state that memory has already seen. -/
def persist (m : OtaTaskManager) (v : Env) (task_uuid : String) (t : OtaTask) (detail : String) :
    OtaTaskManager × Outcome :=
  let m := { m with tasks := Function.update m.tasks task_uuid (some t) }
  match v.saveError with
  | some err => (m, .failed err)
  | none =>
    let store := saveTask m.store t
    match v.appendError with
    | some err => ({ m with store := store }, .failed err)
    | none =>
      ({ m with store := appendEvent store ⟨task_uuid, v.eventMs, stateText t.state, detail⟩ }, .done)

def create (m : OtaTaskManager) (v : Env) (device_id : UInt8) (device_type firmware_id : String) :
    OtaTaskManager × Outcome :=
  let t : OtaTask := ⟨nowUuid v.uuidMs, device_id, device_type, firmware_id, created, ""⟩
  let store := match v.saveError with
    | some _ => m.store
    | none => saveTask m.store t
  let store := match v.appendError with
    | some _ => store
    | none => appendEvent store ⟨t.taskUuid, v.eventMs, stateText t.state, "task created"⟩
  (⟨Function.update m.tasks t.taskUuid (some t), store⟩, .created t (v.appendError.or v.saveError))

def updateState (m : OtaTaskManager) (v : Env) (task_uuid : String) (next : OtaTaskState)
    (detail : String) : OtaTaskManager × Outcome :=
  match m.tasks task_uuid with
  | none => (m, .failed "task not found")
  | some t =>
    if ¬ canTransition t.state next then (m, .failed "invalid state transition")
    else persist m v task_uuid { t with state := next } detail

def fail (m : OtaTaskManager) (v : Env) (task_uuid reason : String) : OtaTaskManager × Outcome :=
  match m.tasks task_uuid with
  | none => (m, .failed "task not found")
  | some t => persist m v task_uuid { t with state := failed, lastError := reason } reason

def cancel (m : OtaTaskManager) (v : Env) (task_uuid : String) : OtaTaskManager × Outcome :=
  match m.tasks task_uuid with
  | none => (m, .failed "task not found")
  | some t =>
    if ¬ canTransition t.state canceled then (m, .failed "cannot cancel in current state")
    else persist m v task_uuid { t with state := canceled } "task canceled"

def retry (m : OtaTaskManager) (v : Env) (task_uuid : String) : OtaTaskManager × Outcome :=
  match m.tasks task_uuid with
  | none => (m, .failed "task not found")
  | some t =>
    if t.state ≠ failed ∧ t.state ≠ canceled then (m, .failed "retry requires FAILED/CANCELED state")
    else persist m v task_uuid { t with state := created, lastError := "" } "task retried"

def step (m : OtaTaskManager) (c : Call × Env) : OtaTaskManager × Outcome :=
  match c.1 with
  | .create device_id device_type firmware_id => create m c.2 device_id device_type firmware_id
  | .updateState task_uuid next detail => updateState m c.2 task_uuid next detail
  | .fail task_uuid reason => fail m c.2 task_uuid reason
  | .cancel task_uuid => cancel m c.2 task_uuid
  | .retry task_uuid => retry m c.2 task_uuid

end EdgeLink.Ota
