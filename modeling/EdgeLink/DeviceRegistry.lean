import EdgeLink.Ingress
import EdgeLink.Machine

namespace EdgeLink.Registry
open Gateway Ingress

structure DeviceRuntimeState where
  deviceId : UInt8 := 0
  deviceName : String := ""
  topicSuffix : String := ""
  configured : Bool := false
  enabled : Bool := true
  online : Bool := false
  linkType : String := "serial"
  lastReportUnixMs : UInt64 := 0
  reportCount : UInt64 := 0
  parseFailCount : UInt64 := 0
  lastSummary : String := ""
  lastError : String := ""
  wifiRssi : ℤ := 0
  wifiConnected : Bool := false
  wifiLastSeenMs : UInt64 := 0
  wifiReconnects : UInt64 := 0
  deriving DecidableEq

def fallbackDeviceName (id : UInt8) : String := "sensor-" ++ toString id.toNat

/-- `devices_` -/
abbrev Devices := UInt8 → Option DeviceRuntimeState

def loadConfiguredDevices (deviceMap : UInt8 → Option DeviceConfig) : Devices := fun id =>
  (deviceMap id).map fun dev =>
    { deviceId := id, deviceName := if dev.name = "" then fallbackDeviceName id else dev.name,
      topicSuffix := dev.topicSuffix, configured := true, enabled := dev.enabled,
      linkType := if dev.linkType = "" then "serial" else dev.linkType }

namespace DeviceRuntimeState
variable (state : DeviceRuntimeState) (device_id : UInt8)

def named : DeviceRuntimeState :=
  { state with deviceId := device_id,
               deviceName := if state.deviceName = "" then fallbackDeviceName device_id
                 else state.deviceName }

def onEvent (data : SensorData) : DeviceRuntimeState :=
  let state := if state.configured then state else
    { state with deviceId := data.deviceId, deviceName := fallbackDeviceName data.deviceId,
                 enabled := true }
  { state with
    deviceName := if data.deviceName = "" then state.deviceName else data.deviceName
    topicSuffix := if data.topicSuffix = "" then state.topicSuffix else data.topicSuffix
    lastReportUnixMs := data.timestampUnixMs
    reportCount := state.reportCount + 1
    lastSummary := data.payloadSummary
    lastError := data.lastError
    online := true
    linkType := if data.linkType = "" then state.linkType else data.linkType
    wifiRssi := data.wifiRssi
    wifiConnected := data.wifiConnected
    wifiLastSeenMs := data.wifiLastSeenMs }

def onError (reason : String) (ts_ms : UInt64) : DeviceRuntimeState :=
  let state := state.named device_id
  { state with parseFailCount := state.parseFailCount + 1, lastError := reason,
               lastReportUnixMs := if ts_ms > 0 then ts_ms else state.lastReportUnixMs }

def onTransportOnline (link_type : String) (ts_ms : UInt64) (device_name summary : String) :
    DeviceRuntimeState :=
  let state := state.named device_id
  { state with
    online := true
    reportCount := state.reportCount + 1
    lastReportUnixMs := ts_ms
    linkType := if link_type = "" then state.linkType else link_type
    deviceName := if device_name = "" then state.deviceName else device_name
    lastSummary := if summary = "" then state.lastSummary else summary }

def onTransportDisconnected (link_type : String) (ts_ms : UInt64) (reason : String) :
    DeviceRuntimeState :=
  let state := state.named device_id
  let state :=
    { state with linkType := if link_type = "" then state.linkType else link_type, online := false,
                 lastError := reason,
                 lastReportUnixMs := if ts_ms > 0 then ts_ms else state.lastReportUnixMs }
  if state.linkType = "wifi" then
    { state with wifiConnected := false, wifiReconnects := state.wifiReconnects + 1,
                 wifiLastSeenMs := if ts_ms > 0 then ts_ms else state.wifiLastSeenMs }
  else state

/-- `markOfflineByTimeout` ends it. -/
def silent (now_ms timeout_ms : UInt64) : Bool :=
  state.online && state.lastReportUnixMs ≠ 0 && state.lastReportUnixMs ≤ now_ms &&
    timeout_ms ≤ now_ms - state.lastReportUnixMs

end DeviceRuntimeState

namespace Devices
variable (devices : Devices) (device_id : UInt8)

/-- `devices_[device_id]`, and what is done with it under the lock. -/
def change (f : DeviceRuntimeState → DeviceRuntimeState) : Devices :=
  Function.update devices device_id (some (f ((devices device_id).getD {})))

def online : Bool := ((devices device_id).map (·.online)).getD false

def name : String := ((devices device_id).map (·.deviceName)).getD ""

def updateOnEvent (data : SensorData) : Devices := devices.change data.deviceId (·.onEvent data)

def markDeviceError (reason : String) (ts_ms : UInt64) : Devices :=
  devices.change device_id (·.onError device_id reason ts_ms)

def markTransportOnline (link_type : String) (ts_ms : UInt64) (device_name summary : String) :
    Devices :=
  devices.change device_id (·.onTransportOnline device_id link_type ts_ms device_name summary)

def markTransportDisconnected (link_type : String) (ts_ms : UInt64) (reason : String) : Devices :=
  devices.change device_id (·.onTransportDisconnected device_id link_type ts_ms reason)

def markWifiDisconnected (ts_ms : UInt64) (reason : String) : Devices :=
  devices.markTransportDisconnected device_id "wifi" ts_ms reason

/-- The order in which a hash map is walked is its own. -/
def ids (order : Equiv.Perm UInt8) : List UInt8 := (List.range 256).map fun n => order (UInt8.ofNat n)

/-- The devices that are offline now, with their names. -/
def markOfflineByTimeout (order : Equiv.Perm UInt8) (now_ms timeout_ms : UInt64) :
    Devices × List (UInt8 × String) :=
  (fun id => (devices id).map fun state =>
      if state.silent now_ms timeout_ms then { state with online := false } else state,
    (ids order).filterMap fun id => ((devices id).filter (·.silent now_ms timeout_ms)).map fun state =>
      (state.deviceId, state.deviceName))

end Devices

/-- What a thread of the gateway knows when it comes to the registry: the time, what a presence
message says, and whose WiFi session ends, why, and whether another has taken its place. -/
structure Note where
  nowMs : UInt64 := 0
  deviceName : String := ""
  summary : String := ""
  closed : Option (UInt8 × String × Bool) := none

inductive Event
  | gateway (e : Ingress.Event) (note : Note)
  /-- `uploaderLoop` notes a `device_online` -/
  | tellOnline
  /-- `statsLoop` looks for silent devices -/
  | tick (order : Equiv.Perm UInt8) (now_ms : UInt64)
  /-- `statsLoop` notes a `device_offline` -/
  | tellOffline

structure World where
  gateway : Ingress.State
  timeoutMs : UInt64
  devices : Devices
  /-- what `uploaderLoop` has to note before its next item -/
  toTell : Option (UInt8 × String)
  /-- what `statsLoop` has -/
  transitions : List (UInt8 × String)

/-- A system event: the device went online or offline. -/
structure Told where
  device : UInt8
  name : String
  online : Bool
  deriving DecidableEq

namespace World
variable (w : World)

/-- A refused item is noted when it would be accepted, any other once its transport is bound. -/
def uploadItem : Devices × Option (UInt8 × String) :=
  match w.gateway.uploading with
  | .popped item =>
    if (w.gateway.config.resolve item.2).isSome then (w.devices, none)
    else
      (w.devices.markDeviceError item.2.deviceId
        (if (w.gateway.config.deviceMap item.2.deviceId).isSome then "device disabled by config"
          else "unknown device dropped") item.2.timestampUnixMs, none)
  | .bound data =>
    let devices := w.devices.updateOnEvent data
    (devices, if w.devices.online data.deviceId then none
      else some (data.deviceId, devices.name data.deviceId))
  | _ => (w.devices, none)

/-- What comes of a step of the gateway in the registry. -/
def noted (e : Ingress.Event) (note : Note) : Devices × Option (UInt8 × String) :=
  match e with
  | .upload => w.uploadItem
  | .receive .wifi data _ =>
    if (w.gateway.hand .wifi).isSome ∨ (w.gateway.config.deviceMap data.deviceId).isSome then
      (w.devices, none)
    else (w.devices.markDeviceError data.deviceId "unknown wifi device" data.timestampUnixMs, none)
  | .mqttSeen device_id =>
    (w.devices.markTransportOnline device_id "mqtt" note.nowMs note.deviceName note.summary, none)
  | .mqttOffline device_id =>
    (w.devices.markTransportDisconnected device_id "mqtt" note.nowMs "mqtt offline", none)
  | .wifiDisconnect _ =>
    match note.closed with
    | none => (w.devices, none)
    | some (device_id, reason, mark_replace) =>
      let devices := w.devices.markWifiDisconnected device_id note.nowMs reason
      (if mark_replace then devices.markWifiDisconnected device_id note.nowMs "tcp_replaced"
        else devices, none)
  | _ => (w.devices, none)

/-- `uploaderLoop` has told what its last item brought before it goes on. -/
def waits : Ingress.Event → Bool
  | .upload => w.toTell.isSome
  | _ => false

def step (e : Event) : World × Option Told :=
  match e with
  | .gateway e note =>
    if w.waits e then (w, none)
    else
      let r := w.noted e note
      ({ w with gateway := (w.gateway.step e).1, devices := r.1,
                toTell := if r.2.isSome then r.2 else w.toTell }, none)
  | .tellOnline =>
    match w.toTell with
    | none => (w, none)
    | some t => ({ w with toTell := none }, some ⟨t.1, t.2, true⟩)
  | .tick order now_ms =>
    match w.transitions with
    | [] =>
      let r := w.devices.markOfflineByTimeout order now_ms w.timeoutMs
      ({ w with devices := r.1, transitions := r.2 }, none)
    | _ :: _ => (w, none)
  | .tellOffline =>
    match w.transitions with
    | [] => (w, none)
    | t :: rest => ({ w with transitions := rest }, some ⟨t.1, t.2, false⟩)

end World

def start (config : Config) (timeout_ms : UInt64) : World :=
  ⟨Ingress.boot config, timeout_ms, loadConfiguredDevices config.deviceMap, none, []⟩

end EdgeLink.Registry
