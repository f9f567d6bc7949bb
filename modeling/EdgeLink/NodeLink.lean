import EdgeLink.MemberFields

namespace EdgeLink.NodeLink

open Json Lookup Gateway CommandJson

inductive TopicKind
  | telemetry | status | event | commandAck | otaStatus
  deriving DecidableEq

/-- `SensorData_t`; the `float`s are in tenths, as they are printed. -/
structure Reading where
  temperature : Int32
  humidity : Int32
  voltage : Int32
  mq2Alarm : Int32
  ld2402Presence : Int32

/-- What every message but the presence reads off the clock, the radio and the counter. -/
structure Stamp where
  millis : UInt32
  rssi : Int32
  seq : UInt32

inductive Message
  | telemetry (s : Stamp) (data : Reading)
  | heartbeat (s : Stamp) (fw_version build_time : Text)
  | status (s : Stamp) (fw_version : Text) (wifi_connected gateway_connected mqtt_connected : Bool)
      (mode : Int32) (interval : UInt32) (data : Reading)
  | presence (online : Bool)
  | otaStatus (s : Stamp) (command_id : UInt32) (ota_state : Text) (progress error_code : Int32)
      (version_from version_to fw_version : Text)

/-- The members that all messages begin with. -/
def header (msg_type : String) : List (String × Field) :=
  [("gateway_id", .text (ascii "gw001")), ("device_id", .int Node.deviceId),
    ("device_name", .text (ascii "wifi-node-02")), ("msg_type", .text (ascii msg_type))]

def flag (b : Bool) : Field := .int (if b then 1 else 0)

def Message.fields : Message → List (String × Field)
  | telemetry s data => header "telemetry" ++
      [("event_type", .text (ascii "sensor_data")), ("timestamp_ms", .int 0), ("timestamp", .int 0),
        ("uptime_ms", .int s.millis.toNat), ("temperature", .tenths data.temperature.toInt),
        ("humidity", .tenths data.humidity.toInt), ("voltage", .tenths data.voltage.toInt), ("status", .int 1),
        ("link_type", .text (ascii "wifi")), ("wifi_rssi", .int s.rssi.toInt),
        ("mq2_alarm", .int data.mq2Alarm.toInt),
        ("ld2402_presence", .int data.ld2402Presence.toInt), ("seq", .int s.seq.toNat)]
  | heartbeat s fw_version build_time => header "heartbeat" ++
      [("event_type", .text (ascii "heartbeat")), ("timestamp", .int 0),
        ("uptime_ms", .int s.millis.toNat), ("firmware_version", .text fw_version),
        ("build_time", .text build_time), ("ota_capable", .int 1), ("link_type", .text (ascii "wifi")),
        ("wifi_rssi", .int s.rssi.toInt), ("seq", .int s.seq.toNat)]
  | status s fw_version wifi_connected gateway_connected mqtt_connected mode interval data =>
      header "status" ++
      [("event_type", .text (ascii "status")), ("timestamp", .int 0),
        ("uptime_ms", .int s.millis.toNat), ("firmware_version", .text fw_version),
        ("wifi_connected", flag wifi_connected), ("gateway_connected", flag gateway_connected),
        ("mqtt_connected", flag mqtt_connected), ("wifi_rssi", .int s.rssi.toInt),
        ("rgb_mode", .int mode.toInt), ("report_interval_ms", .int interval.toNat),
        ("temperature", .tenths data.temperature.toInt), ("humidity", .tenths data.humidity.toInt),
        ("mq2_alarm", .int data.mq2Alarm.toInt),
        ("ld2402_presence", .int data.ld2402Presence.toInt), ("link_type", .text (ascii "wifi")),
        ("seq", .int s.seq.toNat)]
  | presence online => header "presence" ++
      [("status", .text (if online then ascii "online" else ascii "offline"))]
  | otaStatus s command_id ota_state progress error_code version_from version_to fw_version =>
      header "ota_status" ++
      [("event_type", .text (ascii "ota_status")), ("cmd", .text (ascii "ota_start")),
        ("timestamp", .int 0), ("uptime_ms", .int s.millis.toNat),
        ("command_id", .int command_id.toNat), ("ota_state", .text ota_state),
        ("progress", .int progress.toInt), ("version_from", .text version_from),
        ("version_to", .text version_to), ("error_code", .int error_code.toInt),
        ("firmware_version", .text fw_version), ("link_type", .text (ascii "wifi")),
        ("wifi_rssi", .int s.rssi.toInt), ("seq", .int s.seq.toNat)]

def Message.payload (m : Message) : Text := printObject m.fields

/-- The texts that the node does not choose itself need no escape: it writes them as they are. -/
def Message.Plain : Message → Prop
  | heartbeat _ fw_version build_time => PlainText fw_version ∧ PlainText build_time
  | status _ fw_version .. => PlainText fw_version
  | otaStatus _ _ ota_state _ _ version_from version_to fw_version =>
      PlainText ota_state ∧ PlainText version_from ∧ PlainText version_to ∧ PlainText fw_version
  | _ => True

structure MqttTopicParts where
  gatewayId : Text
  deviceId : UInt8
  category : Text
  action : Text
  deriving DecidableEq

inductive Handled
  | ignored
  /-- an OTA status, for the tasks that wait for one -/
  | otaStatus (device_id : UInt8) (status : Option Esp32Ota.Esp32OtaStatus)
  | offline (device_id : UInt8)
  | online (device_id : UInt8) (device_name : Text)
  | failed (err : String)
  /-- goes to `data_queue_` -/
  | data (item : SensorData)

section Gateway
variable (stod : Text → Option (ℤ × ℕ)) (now : UInt64)

/-- The fields that all records of the node have alike. -/
def record (s : Stamp) (type : FrameType) : SensorData :=
  { deviceId := .ofNat Node.deviceId, frameType := type, timestampUnixMs := now,
    deviceName := "wifi-node-02", linkType := "mqtt", wifiConnected := true, wifiLastSeenMs := now,
    wifiRssi := s.rssi.toInt, seq := s.seq.toUInt64 }

def Message.heard (kind : TopicKind) : Message → Handled
  | telemetry s data => .data { record now s .sensorData with
      temperature := data.temperature.toInt * 100
      humidity := data.humidity.toInt * 100
      voltage := data.voltage.toInt * 100
      status := 1
      mq2Alarm := data.mq2Alarm.toInt
      ld2402Presence := data.ld2402Presence.toInt
      payloadSummary := "temp=" ++ toStringDouble (data.temperature.toInt * 100) ++ ",hum=" ++
        toStringDouble (data.humidity.toInt * 100) ++ ",voltage=" ++ toStringDouble (data.voltage.toInt * 100) ++
        ",light=" ++ toStringDouble (-1000) }
  | heartbeat s _ _ => .data { record now s .heartbeat with payloadSummary := "heartbeat" }
  | status s fw_version _ gateway_connected _ mode interval data =>
      .data { record now s .deviceStatus with
        temperature := data.temperature.toInt * 100
        humidity := data.humidity.toInt * 100
        mq2Alarm := data.mq2Alarm.toInt
        ld2402Presence := data.ld2402Presence.toInt
        payloadSummary := "status" ++ (",fw=" ++ fromBytes fw_version) ++
          (",gw=" ++ if gateway_connected then "1" else "0") ++
          (",report_ms=" ++ toString (interval.toNat : ℤ)) ++ (",rgb_mode=" ++ toString mode.toInt) }
  | presence true => .online (.ofNat Node.deviceId) (ascii "wifi-node-02")
  | presence false => .offline (.ofNat Node.deviceId)
  | otaStatus _ command_id ota_state progress error_code version_from version_to _ =>
      if kind = .otaStatus then
        .otaStatus (.ofNat Node.deviceId) (some
          { device_id := .ofNat Node.deviceId, command_id, ota_state, progress, version_from,
            version_to, error_code })
      else .failed "unsupported event_type"

end Gateway

/-- What a topic of the node names. -/
def TopicKind.parts : TopicKind → MqttTopicParts
  | telemetry => ⟨ascii "gw001", 2, ascii "telemetry", []⟩
  | status => ⟨ascii "gw001", 2, ascii "status", []⟩
  | event => ⟨ascii "gw001", 2, ascii "event", []⟩
  | commandAck => ⟨ascii "gw001", 2, ascii "command", ascii "ack"⟩
  | otaStatus => ⟨ascii "gw001", 2, ascii "ota", ascii "status"⟩

section Message
variable {m : Message}

end Message

section Heard
variable {stod : Text → Option (ℤ × ℕ)} (now : UInt64)

end Heard

end EdgeLink.NodeLink
