import EdgeLink.SensorData

namespace EdgeLink.Ingress
open Gateway

structure Transports where
  /-- `config_.tcp_binary.priority` -/
  tcpPriority : ℤ
  activeTransport : UInt8 → Option String
  activePriority : UInt8 → Option ℤ
  /-- by a running OTA task -/
  lockedTransport : UInt8 → Option String

namespace Transports
variable (t : Transports) (device_id : UInt8)

def transportPriority (transport : String) : ℤ :=
  if transport = "tcp_binary" then t.tcpPriority
  else if transport = "mqtt" then 90
  else if transport = "wifi" then 80
  else 50

/-- The device is locked to another transport. -/
def lockedOut (transport : String) : Prop :=
  ∃ locked ∈ t.lockedTransport device_id, locked ≠ transport

instance (transport : String) : Decidable (t.lockedOut device_id transport) :=
  inferInstanceAs (Decidable (∃ locked ∈ t.lockedTransport device_id, locked ≠ transport))

def bindActiveTransport (transport : String) : Transports :=
  let priority := t.transportPriority transport
  if t.lockedOut device_id transport then t
  else if ∃ active ∈ t.activePriority device_id, priority < active then t
  else
    { t with activeTransport := Function.update t.activeTransport device_id (some transport)
             activePriority := Function.update t.activePriority device_id (some priority) }

def activeTransportFor : String := (t.activeTransport device_id).getD "serial"

def shouldAcceptTransportData (incoming_transport : String) : Bool :=
  if t.lockedOut device_id incoming_transport then false
  else
    match t.activeTransport device_id with
    | none => true
    | some active => ¬ (t.transportPriority incoming_transport < t.transportPriority active ∧
        active ≠ incoming_transport)

def clearActiveTransport : Transports :=
  if (t.lockedTransport device_id).isSome then t
  else
    { t with activeTransport := Function.update t.activeTransport device_id none
             activePriority := Function.update t.activePriority device_id none }

def otaLockTransport (transport : String) : Transports :=
  { t with lockedTransport := Function.update t.lockedTransport device_id (some transport) }

def otaUnlockTransport : Transports :=
  { t with lockedTransport := Function.update t.lockedTransport device_id none }

end Transports

structure DeviceConfig where
  enabled : Bool
  name : String
  topicSuffix : String
  linkType : String

structure Config where
  tcpPriority : ℤ
  queueCapacity : ℕ
  deviceMap : UInt8 → Option DeviceConfig
  dropUnknownDevices : Bool

/-- `parserLoop`, `tcpBinaryLoop`, `wifiDeviceServerLoop`, the callbacks of the broker. -/
inductive Producer
  | serial | tcp | wifi | mqtt
  deriving DecidableEq, Repr

instance : Fintype Producer :=
  ⟨{.serial, .tcp, .wifi, .mqtt}, fun p => by cases p <;> decide⟩

/-- The transport under which an item goes on. -/
def Producer.linkType : Producer → SensorData → String
  | serial, _ => "serial"
  | tcp, _ => "tcp_binary"
  | wifi, data => data.linkType
  | mqtt, _ => "mqtt"

/-- Where `uploaderLoop` stands with an item. -/
inductive Uploading
  | idle
  | popped (item : ℕ × SensorData)
  | accepted (data : SensorData)
  | bound (data : SensorData)

structure State where
  config : Config
  transports : Transports
  businessMuted : UInt8 → Bool
  /-- what a thread has taken in and not yet pushed -/
  hand : Producer → Option (ℕ × SensorData)
  /-- `data_queue_` -/
  dataQueue : List (ℕ × SensorData)
  uploading : Uploading
  /-- counts the items, to tell them apart -/
  received : ℕ

/-- The end of a TCP session names the last device that used it; the devices that lose their link with
a session are told apart. -/
inductive Event
  /-- an item of a link; `last_device` is what the TCP session has noted -/
  | receive (p : Producer) (data : SensorData) (last_device : Option UInt8)
  /-- the thread pushes what it has -/
  | push (p : Producer)
  /-- `uploaderLoop` goes on -/
  | upload
  /-- a presence report or OTA status from the broker -/
  | mqttSeen (device_id : UInt8)
  | tcpTimeout (last_device : Option UInt8) (lost : UInt8 → Bool)
  | tcpDisconnect (last_device : Option UInt8) (lost : UInt8 → Bool)
  | wifiDisconnect (lost : UInt8 → Bool)
  | mqttOffline (device_id : UInt8)
  | brokerDisconnect
  | otaLock (device_id : UInt8) (transport : String)
  | otaUnlock (device_id : UInt8)
  | otaMute (device_id : UInt8)
  | otaUnmute (device_id : UInt8)

inductive Output
  | acked (item : ℕ × SensorData)
  /-- an item from the queue is accepted for the upstream or not -/
  | taken (item : ℕ × SensorData) (passed : Bool)
  deriving DecidableEq

namespace State
variable (s : State)

def isReport (data : SensorData) : Bool := data.frameType = .sensorData ∧ 0 < data.seq

/-- The thread has the item, and has acknowledged it if it is a report. -/
def take (p : Producer) (data : SensorData) : State × Option Output :=
  ({ s with hand := Function.update s.hand p (some (s.received, data)), received := s.received + 1 },
    if isReport data then some (.acked (s.received, data)) else none)

def bindTransport (device_id : UInt8) (transport : String) : State :=
  { s with transports := s.transports.bindActiveTransport device_id transport }

def parserItem (data : SensorData) : State × Option Output :=
  if s.businessMuted data.deviceId then (s, none) else s.take .serial data

def tcpBinaryItem (data : SensorData) (last_device : Option UInt8) : State × Option Output :=
  if ∃ d ∈ last_device, s.businessMuted d = true then (s, none)
  else if s.businessMuted data.deviceId then (s, none)
  else s.take .tcp data

/-- A node with JSON lines names its link itself, and gets no acknowledgement. -/
def wifiItem (data : SensorData) : State × Option Output :=
  if (s.config.deviceMap data.deviceId).isNone then (s, none)
  else ((s.take .wifi data).1, none)

def mqttItem (data : SensorData) : State × Option Output :=
  (((s.bindTransport data.deviceId "mqtt").take .mqtt data).1, none)

def receive (p : Producer) (data : SensorData) (last_device : Option UInt8) : State × Option Output :=
  let data := { data with linkType := p.linkType data }
  match p with
  | .serial => s.parserItem data
  | .tcp => s.tcpBinaryItem data last_device
  | .wifi => s.wifiItem data
  | .mqtt => s.mqttItem data

def push (p : Producer) : State :=
  match s.hand p with
  | none => s
  | some item =>
    if s.dataQueue.length < s.config.queueCapacity then
      { s with dataQueue := s.dataQueue ++ [item], hand := Function.update s.hand p none }
    else s

end State

/-- What the uploader makes of an item, unless its device is disabled or unknown. -/
def Config.resolve (config : Config) (data : SensorData) : Option SensorData :=
  match config.deviceMap data.deviceId with
  | some d =>
    if ¬ d.enabled then none
    else some { data with deviceName := d.name, topicSuffix := d.topicSuffix,
                          linkType := if data.linkType = "" then d.linkType else data.linkType }
  | none =>
    if config.dropUnknownDevices then none
    else some { data with deviceName := "sensor-" ++ toString data.deviceId.toNat,
                          linkType := if data.linkType = "" then "serial" else data.linkType }

namespace State
variable (s : State)

/-- Taking an item, accepting its transport, binding it and passing the item on each come for
themselves. -/
def uploaderStep : State × Option Output :=
  match s.uploading with
  | .idle =>
    match s.dataQueue with
    | [] => (s, none)
    | item :: rest => ({ s with dataQueue := rest, uploading := .popped item }, none)
  | .popped item =>
    match s.config.resolve item.2 with
    | none => ({ s with uploading := .idle }, some (.taken item false))
    | some data =>
      if s.transports.shouldAcceptTransportData data.deviceId data.linkType then
        ({ s with uploading := .accepted data }, some (.taken item true))
      else ({ s with uploading := .idle }, some (.taken item false))
  | .accepted data =>
    ({ s.bindTransport data.deviceId data.linkType with uploading := .bound data }, none)
  | .bound _ => ({ s with uploading := .idle }, none)

def clearLast (last_device : Option UInt8) : State :=
  match last_device with
  | none => s
  | some d => { s with transports := s.transports.clearActiveTransport d }

/-- A session whose device is locked to TCP is not reclaimed. -/
def skipReclaim (last_device : Option UInt8) : Prop :=
  ∃ d ∈ last_device, s.transports.lockedTransport d = some "tcp_binary"

instance (last_device : Option UInt8) : Decidable (s.skipReclaim last_device) :=
  inferInstanceAs
    (Decidable (∃ d ∈ last_device, s.transports.lockedTransport d = some "tcp_binary"))

def step (e : Event) : State × Option Output :=
  match e with
  | .receive p data last_device =>
    if (s.hand p).isSome then (s, none) else s.receive p data last_device
  | .push p => (s.push p, none)
  | .upload => s.uploaderStep
  | .mqttSeen d => (s.bindTransport d "mqtt", none)
  | .tcpTimeout last_device _ =>
    (if s.skipReclaim last_device then s else s.clearLast last_device, none)
  | .tcpDisconnect last_device _ => (s.clearLast last_device, none)
  | .wifiDisconnect _ => (s, none)
  | .mqttOffline d => (s.clearLast (some d), none)
  | .brokerDisconnect => (s, none)
  | .otaLock d transport => ({ s with transports := s.transports.otaLockTransport d transport }, none)
  | .otaUnlock d => ({ s with transports := s.transports.otaUnlockTransport d }, none)
  | .otaMute d => ({ s with businessMuted := Function.update s.businessMuted d true }, none)
  | .otaUnmute d => ({ s with businessMuted := Function.update s.businessMuted d false }, none)

end State

def boot (config : Config) : State :=
  ⟨config, ⟨config.tcpPriority, fun _ => none, fun _ => none, fun _ => none⟩, fun _ => false,
    fun _ => none, [], .idle, 0⟩

end EdgeLink.Ingress
