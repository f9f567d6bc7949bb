import EdgeLink.OtaTasks

namespace EdgeLink.Ota
open Machine OtaTaskState

/-! The worker of one task, `executeOtaTask`, one access to shared data at a time. -/

/-- What all threads of the gateway share. -/
structure Shared where
  store : PersistentStore
  cancelFlags : String → Option Bool
  otaModeDevices : UInt8 → Bool
  businessMutedDevices : UInt8 → Bool
  transportLockedDevices : UInt8 → Option String
  activeTasks : ℤ

def maxConcurrentOtaTasks : ℤ := 8

namespace Shared
variable (sh : Shared) (task_uuid : String) (device_id : UInt8)

def otaCancelSet (v : Bool) : Shared :=
  { sh with cancelFlags := Function.update sh.cancelFlags task_uuid (some v) }

def otaCancelRequested : Bool := (sh.cancelFlags task_uuid).getD false

def otaCancelClear : Shared :=
  { sh with cancelFlags := Function.update sh.cancelFlags task_uuid none }

def otaDeviceEnter : Shared :=
  { sh with otaModeDevices := Function.update sh.otaModeDevices device_id true }

def otaDeviceLeave : Shared :=
  { sh with otaModeDevices := Function.update sh.otaModeDevices device_id false }

def otaMuteBusiness : Shared :=
  { sh with businessMutedDevices := Function.update sh.businessMutedDevices device_id true }

def otaUnmuteBusiness : Shared :=
  { sh with businessMutedDevices := Function.update sh.businessMutedDevices device_id false }

def otaLockTransport (transport : String) : Shared :=
  { sh with transportLockedDevices :=
      Function.update sh.transportLockedDevices device_id (some transport) }

def otaUnlockTransport : Shared :=
  { sh with transportLockedDevices := Function.update sh.transportLockedDevices device_id none }

end Shared

/-- The updates of the worker that are followed by a look at the cancel flag. -/
inductive Stage
  | waitDeviceOnline | precheck | prepareDevice | transferring | verifying | committing | rebooting
  | versionCheck | healthConfirm
  deriving DecidableEq, Repr

def Stage.state : Stage → OtaTaskState
  | waitDeviceOnline => .waitDeviceOnline
  | precheck => .precheck
  | prepareDevice => .prepareDevice
  | transferring => .transferring
  | verifying => .verifying
  | committing => .committing
  | rebooting => .rebooting
  | versionCheck => .versionCheck
  | healthConfirm => .healthConfirm

def Stage.detail : Stage → String
  | waitDeviceOnline => "device online"
  | precheck => "precheck ok"
  | prepareDevice => "prepare ota"
  | transferring => "start transfer"
  | verifying => "verify ok"
  | committing => "commit ok"
  | rebooting => "rebooting"
  | versionCheck => "version checked"
  | healthConfirm => "health confirmed"

/-- Where a worker stands. -/
inductive Pc
  | start
  -- too many tasks
  | rejectRelease | rejectLoad | reject | rejectClear
  | load | resetCancel | enterDevice | firstPoll
  | update (next : Stage) | poll (passed : Stage)
  | firmware | dispatch
  -- STM32
  | mute | lock | image | enterMode | hello | runPoll | exchange | progress
  -- ESP32
  | esp32Send | esp32Wait | esp32Report (ok : Bool) (err : String)
  | runDone (ok : Bool) (err : String)
  | succeed | failing (reason : String) | canceling | clearCancel
  -- the destructors
  | unlock | unmute | leave | release | done
  deriving DecidableEq, Repr

/-- Where the worker goes on once the flag was not set. -/
def Stage.go : Stage → Pc
  | waitDeviceOnline => .update precheck
  | precheck => .firmware
  | prepareDevice => .update transferring
  | transferring => .dispatch
  | verifying => .update committing
  | committing => .update rebooting
  | rebooting => .update versionCheck
  | versionCheck => .update healthConfirm
  | healthConfirm => .succeed

/-- What becomes of one exchange of `adapter.run` with the device: the next one, with or without a
look at the cancel flag first, or a DATA frame that is acknowledged, or the result of `run`. -/
inductive Link
  | polls | goes | chunk
  | returns (ok : Bool) (err : String)

structure Esp32OtaStatus where
  otaState : String
  progress : ℤ
  errorCode : ℤ

/-- What a worker meets at one step: the store, the firmware, the senders, the device. -/
structure Input where
  env : Env
  opened : Bool
  found : Bool
  imageEmpty : Bool
  crcError : String
  sent : Bool
  sendError : String
  hello : Bool
  link : Link
  more : Bool
  terminal : Bool
  status : Esp32OtaStatus
  percent : ℕ

structure Executor where
  taskUuid : String
  deviceType : String
  transport : String
  deviceId : UInt8
  pc : Pc
  /-- its own copy of the tasks -/
  tasks : String → Option OtaTask
  /-- the guards it has taken and not yet released -/
  entered : Bool
  muted : Bool
  locked : Bool

def newExecutor (t : OtaTask) (transport : String) : Executor :=
  ⟨t.taskUuid, t.deviceType, transport, t.deviceId, .start, fun _ => none, false, false, false⟩

def typeHas (device_type pat : String) : Bool := decide (pat.toList <:+: device_type.toList)

def Executor.transportMode (x : Executor) : String :=
  if x.transport = "tcp_binary" ∨ x.transport = "serial" then x.transport else "serial"

/-- The tasks in memory of a manager on a store that may fail to open. -/
def openTasks (s : PersistentStore) (opened : Bool) : String → Option OtaTask :=
  if opened then loadTasks s else fun _ => none

def Executor.goto (x : Executor) (pc : Pc) : Executor := { x with pc := pc }

/-- A call of the worker's own manager, whose result it ignores. -/
def Executor.manage (x : Executor) (sh : Shared) (v : Input) (c : Call) (pc : Pc) :
    Shared × Executor :=
  let m := (Ota.step ⟨x.tasks, sh.store⟩ (c, v.env)).1
  ({ sh with store := m.store }, { x with tasks := m.tasks, pc := pc })

/-- `if (canceled()) { onCanceled(); return; }` -/
def Executor.unlessCanceled (x : Executor) (sh : Shared) (pc : Pc) : Executor :=
  x.goto (if sh.otaCancelRequested x.taskUuid then .canceling else pc)

/-- Where the result of `adapter.run` or of the ESP32 leads. -/
def verdict (device_type : String) (ok : Bool) (err : String) : Pc :=
  if ok ∨ (err = "commit ack timeout" ∧ typeHas device_type "stm32") then .update .verifying
  else if err = "ota canceled" then .canceling
  else .failing err

def Executor.step (x : Executor) (sh : Shared) (v : Input) : Shared × Executor :=
  match x.pc with
  | .start =>
    ({ sh with activeTasks := sh.activeTasks + 1 },
      x.goto (if maxConcurrentOtaTasks ≤ sh.activeTasks then .rejectRelease else .load))
  | .rejectRelease => ({ sh with activeTasks := sh.activeTasks - 1 }, x.goto .rejectLoad)
  | .rejectLoad => (sh, { x with tasks := openTasks sh.store v.opened, pc := .reject })
  | .reject => x.manage sh v (.fail x.taskUuid "too many concurrent ota tasks") .rejectClear
  | .rejectClear => (sh.otaCancelClear x.taskUuid, x.goto .done)
  | .load => (sh, { x with tasks := openTasks sh.store v.opened, pc := .resetCancel })
  | .resetCancel => (sh.otaCancelSet x.taskUuid false, x.goto .enterDevice)
  | .enterDevice => (sh.otaDeviceEnter x.deviceId, { x with entered := true, pc := .firstPoll })
  | .firstPoll => (sh, x.unlessCanceled sh (.update .waitDeviceOnline))
  | .update next => x.manage sh v (.updateState x.taskUuid next.state next.detail) (.poll next)
  | .poll passed => (sh, x.unlessCanceled sh passed.go)
  | .firmware =>
    (sh, x.goto (if v.found then .update .prepareDevice else .failing "firmware not found"))
  | .dispatch =>
    (sh, x.goto
      (if typeHas x.deviceType "stm32" then .mute
      else if typeHas x.deviceType "esp32" then .esp32Send
      else .failing "unsupported device_type for auto executor"))
  | .mute => (sh.otaMuteBusiness x.deviceId, { x with muted := true, pc := .lock })
  | .lock =>
    (sh.otaLockTransport x.deviceId x.transportMode, { x with locked := true, pc := .image })
  | .image =>
    (sh, x.goto
      (if v.imageEmpty then .failing "firmware image is empty"
      else if v.crcError ≠ "" then .failing v.crcError
      else if x.transportMode = "tcp_binary" then .enterMode
      else .runPoll))
  | .enterMode =>
    (sh, x.goto (if v.sent then .hello else .runDone false "failed to enter adapter ota mode"))
  | .hello =>
    (sh, x.goto
      (if v.hello then .runPoll
      else .runDone false
        (if sh.otaCancelRequested x.taskUuid then "ota canceled" else "boot hello timeout")))
  | .runPoll =>
    (sh, x.goto
      (if sh.otaCancelRequested x.taskUuid then .runDone false "ota canceled" else .exchange))
  | .exchange =>
    (sh, x.goto
      (match v.link with
      | .polls => .runPoll
      | .goes => .exchange
      | .chunk => .progress
      | .returns ok err => .runDone ok err))
  | .progress =>
    x.manage sh v (.updateState x.taskUuid transferring ("progress=" ++ toString v.percent))
      (if v.more then .runPoll else .exchange)
  | .esp32Send =>
    (sh, x.goto
      (if v.sent then .esp32Wait
      else .failing
        (if x.transport = "mqtt" then "esp32 mqtt send ota_start failed: " ++ v.sendError
        else "esp32 send ota_start failed")))
  | .esp32Wait =>
    (sh, x.goto
      (if ¬ v.terminal then .esp32Report false
        (if sh.otaCancelRequested x.taskUuid then "ota canceled" else "esp32 ota timeout")
      else if v.status.otaState = "success" then .esp32Report true ""
      else .esp32Report false ("esp32 ota failed error_code=" ++ toString v.status.errorCode)))
  | .esp32Report ok err =>
    x.manage sh v (.updateState x.taskUuid transferring
      ("esp32:" ++ v.status.otaState ++ ":" ++ toString v.status.progress)) (.runDone ok err)
  | .runDone ok err => (sh, x.unlessCanceled sh (verdict x.deviceType ok err))
  | .succeed => x.manage sh v (.updateState x.taskUuid success "ota success") .clearCancel
  | .failing reason => x.manage sh v (.fail x.taskUuid reason) .clearCancel
  | .canceling => x.manage sh v (.cancel x.taskUuid) .clearCancel
  | .clearCancel => (sh.otaCancelClear x.taskUuid, x.goto .unlock)
  | .unlock => (sh.otaUnlockTransport x.deviceId, { x with locked := false, pc := .unmute })
  | .unmute => (sh.otaUnmuteBusiness x.deviceId, { x with muted := false, pc := .leave })
  | .leave => (sh.otaDeviceLeave x.deviceId, { x with entered := false, pc := .release })
  | .release => ({ sh with activeTasks := sh.activeTasks - 1 }, x.goto .done)
  | .done => (sh, x)

/-- Where requests come from: the HTTP server, the upstream broker. -/
inductive Source
  | monitor | upstream
  deriving DecidableEq, Repr

instance : Fintype Source := ⟨{.monitor, .upstream}, fun src => by cases src <;> decide⟩

/-- A request between two accesses to shared data. -/
inductive Request
  /-- the task is created and not launched -/
  | creating (t : OtaTask) (transport : Option String)
  /-- the tasks are read -/
  | canceling (task_uuid : String) (tasks : String → Option OtaTask)
  | retrying (task_uuid : String) (tasks : String → Option OtaTask)
  /-- CANCELED is stored and the flag not set -/
  | canceled (task_uuid : String)

/-- The fields of the JSON body. -/
structure CreateRequest where
  deviceId : Option ℤ
  deviceType : Option String
  firmwareId : Option String
  transport : Option String

inductive Reply
  | launched (t : OtaTask)
  | ok (task_uuid : String)
  | refused (status error : String)
  deriving DecidableEq

structure Gateway where
  shared : Shared
  requests : Source → Option Request
  executors : List Executor

inductive Event
  /-- a create request, the active transport of its device, and what the store does -/
  | create (src : Source) (req : CreateRequest) (active_t : String) (v : Env)
  /-- the rest of the create request -/
  | launch (src : Source) (active_t : String)
  | cancel (task_uuid : String) (opened : Bool)
  | retry (task_uuid : String) (opened : Bool)
  /-- the write of a cancel or retry request -/
  | write (v : Env)
  /-- the flag of a cancel request -/
  | flag
  | exec (i : ℕ) (v : Input)

def defaultDeviceType (active_t : String) : String :=
  if active_t = "mqtt" ∨ active_t = "wifi" then "esp32" else "stm32"

def runTransport (transport : Option String) (active_t : String) : String :=
  let run_transport := transport.getD ""
  if run_transport = "" then
    if active_t = "tcp_binary" then "tcp_binary" else if active_t = "mqtt" then "mqtt" else "serial"
  else run_transport

def validTransport (run_transport : String) : Prop :=
  run_transport = "serial" ∨ run_transport = "tcp_binary" ∨ run_transport = "mqtt"

instance (s : String) : Decidable (validTransport s) := inferInstanceAs (Decidable (_ ∨ _))

namespace Gateway

def setRequest (g : Gateway) (src : Source) (r : Option Request) : Gateway :=
  { g with requests := Function.update g.requests src r }

def setStore (g : Gateway) (store : PersistentStore) : Gateway :=
  { g with shared := { g.shared with store := store } }

/-- The first half of `handleOtaTaskRequestJson`. -/
def handleCreate (g : Gateway) (src : Source) (req : CreateRequest) (active_t : String) (v : Env) :
    Gateway × Option Reply :=
  match req.deviceId, req.firmwareId with
  | some device_id, some firmware_id =>
    if device_id < 0 ∨ 255 < device_id then
      (g, some (.refused "400 Bad Request" "invalid device_id"))
    else
      let given := req.deviceType.getD ""
      let device_type := if given = "" then defaultDeviceType active_t else given
      let r := create ⟨loadTasks g.shared.store, g.shared.store⟩ v (UInt8.ofNat device_id.toNat)
        device_type firmware_id
      let g := g.setStore r.1.store
      match r.2 with
      | .created t none => (g.setRequest src (some (.creating t req.transport)), none)
      | .created _ (some err) => (g, some (.refused "500 Internal Server Error" err))
      | _ => (g, none)
  | _, _ => (g, some (.refused "400 Bad Request" "missing device_id/firmware_id"))

def launchOtaTask (g : Gateway) (t : OtaTask) (transport : String) : Gateway :=
  { g with executors := g.executors ++ [newExecutor t transport] }

/-- The second half. -/
def handleLaunch (g : Gateway) (src : Source) (t : OtaTask) (transport : Option String)
    (active_t : String) : Gateway × Option Reply :=
  let run_transport := runTransport transport active_t
  let g := g.setRequest src none
  if ¬ validTransport run_transport then
    (g, some (.refused "400 Bad Request" "invalid transport, expected serial|tcp_binary|mqtt"))
  else (g.launchOtaTask t run_transport, some (.launched t))

/-- The call of a cancel or retry request, and what follows it. -/
def handleWrite (g : Gateway) (tasks : String → Option OtaTask) (c : Call) (v : Env)
    (next : Option Request) (reply : Option Reply) : Gateway × Option Reply :=
  let r := Ota.step ⟨tasks, g.shared.store⟩ (c, v)
  let g := g.setStore r.1.store
  match r.2.error with
  | some err => (g.setRequest .monitor none, some (.refused "400 Bad Request" err))
  | none => (g.setRequest .monitor next, reply)

def step (g : Gateway) (e : Event) : Gateway × Option Reply :=
  match e with
  | .create src req active_t v =>
    match g.requests src with
    | none => g.handleCreate src req active_t v
    | some _ => (g, none)
  | .launch src active_t =>
    match g.requests src with
    | some (.creating t transport) => g.handleLaunch src t transport active_t
    | _ => (g, none)
  | .cancel task_uuid opened =>
    match g.requests .monitor with
    | none =>
      (g.setRequest .monitor (some (.canceling task_uuid (openTasks g.shared.store opened))), none)
    | some _ => (g, none)
  | .retry task_uuid opened =>
    match g.requests .monitor with
    | none =>
      (g.setRequest .monitor (some (.retrying task_uuid (openTasks g.shared.store opened))), none)
    | some _ => (g, none)
  | .write v =>
    match g.requests .monitor with
    | some (.canceling task_uuid tasks) =>
      g.handleWrite tasks (.cancel task_uuid) v (some (.canceled task_uuid)) none
    | some (.retrying task_uuid tasks) =>
      g.handleWrite tasks (.retry task_uuid) v none (some (.ok task_uuid))
    | _ => (g, none)
  | .flag =>
    match g.requests .monitor with
    | some (.canceled task_uuid) =>
      ({ g with shared := g.shared.otaCancelSet task_uuid true }.setRequest .monitor none,
        some (.ok task_uuid))
    | _ => (g, none)
  | .exec i v =>
    match g.executors[i]? with
    | none => (g, none)
    | some x =>
      let r := x.step g.shared v
      ({ g with shared := r.1, executors := g.executors.set i r.2 }, none)

end Gateway

/-- The gateway process has just started on a store. -/
def bootGateway (store : PersistentStore) : Gateway :=
  ⟨⟨store, fun _ => none, fun _ => false, fun _ => false, fun _ => none, 0⟩, fun _ => none, []⟩

end EdgeLink.Ota
