import EdgeLink.ControlCommands
import EdgeLink.JsonLookup
import EdgeLink.SensorData

namespace EdgeLink.CommandJson

open Json Lookup

/-! The gateway's side of a command to a node that speaks JSON. -/

/-- A byte string as a text of one character a byte. -/
def fromBytes (t : Text) : String := String.ofList (t.map fun b => Char.ofNat b.toNat)

/-- `double`s, as far as the code uses them: how they are read and how a stream prints them. -/
structure Doubles (D : Type) where
  zero : D
  stod : Text → Option (D × ℕ)
  put : D → Text
  put_plain : ∀ d, 0x22 ∉ put d

def jsonGetDouble {D : Type} (stod : Text → Option (D × ℕ)) (s key : Text) : Option D :=
  match findJsonValueSpan s key with
  | none => none
  | some (valueBegin, valueEnd) =>
    let text := between valueBegin valueEnd
    match stod text with
    | none => none
    | some (value, pos) => if pos = text.length then some value else none

/-- `static_cast<int>`. -/
def castInt (v : ℤ) : ℤ := Int.bmod v (2 ^ 32)

structure CommandRequest (D : Type) where
  deviceId : UInt8 := 0
  commandId : UInt16 := 0
  hasCommandId : Bool := false
  commandType : Text := []
  timeoutMs : ℤ := 3000
  hasOn : Bool := false
  on : Bool := false
  hasMode : Bool := false
  modeAuto : Bool := false
  hasThreshold : Bool := false
  thresholdTemp : D
  thresholdHumi : D
  hasReportInterval : Bool := false
  reportIntervalMs : ℤ := 0
  hasLogLevel : Bool := false
  logLevel : Text := []
  deriving DecidableEq

section Parse

variable {D : Type} (f : Doubles D)

def parseLed (out : CommandRequest D) (scope : Text) : Except String (CommandRequest D) :=
  match jsonGetBool scope (ascii "on") with
  | some on => .ok { out with hasOn := true, on := on }
  | none =>
    match jsonGetInt scope (ascii "value") with
    | none => .error "set_led requires args.on or args.value"
    | some value =>
      if value ≠ 0 ∧ value ≠ 1 then .error "set_led value must be 0 or 1"
      else .ok { out with hasOn := true, on := decide (value ≠ 0) }

def parseMode (out : CommandRequest D) (scope : Text) : Except String (CommandRequest D) :=
  match jsonGetString scope (ascii "mode") with
  | some mode =>
    if mode = ascii "auto" ∨ mode = ascii "1" then
      .ok { out with hasMode := true, modeAuto := true }
    else if mode = ascii "manual" ∨ mode = ascii "0" then
      .ok { out with hasMode := true, modeAuto := false }
    else .error "set_mode mode must be auto/manual or 0/1"
  | none =>
    match jsonGetInt scope (ascii "mode") with
    | none =>
      match jsonGetBool scope (ascii "auto_mode") with
      | none => .error "set_mode requires args.mode"
      | some auto_mode => .ok { out with hasMode := true, modeAuto := auto_mode }
    | some value =>
      if value ≠ 0 ∧ value ≠ 1 then .error "set_mode value must be 0 or 1"
      else .ok { out with hasMode := true, modeAuto := decide (value ≠ 0) }

def parseThreshold (out : CommandRequest D) (scope : Text) : Except String (CommandRequest D) :=
  let get (key : String) := jsonGetDouble f.stod scope (ascii key)
  match get "temperature", get "humidity" with
  | some temp, some humi =>
    .ok { out with hasThreshold := true, thresholdTemp := temp, thresholdHumi := humi }
  | _, _ =>
    match get "temp", get "humi" with
    | some temp, some humi =>
      .ok { out with hasThreshold := true, thresholdTemp := temp, thresholdHumi := humi }
    | _, _ => .error "set_threshold requires args.temperature/args.humidity"

def parseInterval (out : CommandRequest D) (scope : Text) : Except String (CommandRequest D) :=
  let interval :=
    match jsonGetInt scope (ascii "interval_ms") with
    | some interval => interval
    | none => (jsonGetInt scope (ascii "value")).getD (-1)
  if interval ≤ 0 ∨ interval > 86400000 then
    .error "set_report_interval requires positive interval_ms/value"
  else .ok { out with hasReportInterval := true, reportIntervalMs := interval }

def parseLogLevel (out : CommandRequest D) (scope : Text) : Except String (CommandRequest D) :=
  let level :=
    (jsonGetString scope (ascii "level")) <|> (jsonGetString scope (ascii "value")) <|>
      (jsonGetInt scope (ascii "level")).map intText <|>
      (jsonGetInt scope (ascii "value")).map intText
  match level with
  | some level => .ok { out with hasLogLevel := true, logLevel := level }
  | none => .error "set_log_level requires args.level or args.value"

def parseTimeout (body : Text) : Except String ℤ :=
  match jsonGetInt body (ascii "timeout_ms") with
  | none => .ok 3000
  | some timeout =>
    if timeout ≤ 0 then .error "invalid timeout_ms"
    else .ok (if castInt timeout > 10000 then 10000 else castInt timeout)

def parseCommandId (body : Text) : Except String (Option UInt16) :=
  match jsonGetInt body (ascii "command_id") with
  | none => .ok none
  | some id =>
    if id ≤ 0 ∨ id > 65535 then .error "invalid command_id" else .ok (some (.ofNat id.toNat))

def parseControlCommandRequest (body : Text) : Except String (CommandRequest D) := do
  let command :=
    jsonGetString body (ascii "command_type") <|> jsonGetString body (ascii "command")
  match jsonGetInt body (ascii "device_id"), command with
  | some device_id, some command_type =>
    if device_id < 0 ∨ device_id > 255 then .error "invalid device_id"
    else
      let command_id ← parseCommandId body
      let timeout_ms ← parseTimeout body
      let out : CommandRequest D :=
        { deviceId := .ofNat device_id.toNat, commandId := command_id.getD 0,
          hasCommandId := command_id.isSome, commandType := command_type, timeoutMs := timeout_ms,
          thresholdTemp := f.zero, thresholdHumi := f.zero }
      let scope := (jsonGetObject body (ascii "args")).getD body
      if command_type = ascii "set_led" then parseLed out scope
      else if command_type = ascii "set_mode" then parseMode out scope
      else if command_type = ascii "set_threshold" then parseThreshold f out scope
      else if command_type = ascii "set_report_interval" then parseInterval out scope
      else if command_type = ascii "set_log_level" then parseLogLevel out scope
      else if command_type ≠ ascii "get_status" then
        .error ("unsupported command_type: " ++ fromBytes command_type)
      else .ok out
  | _, _ => .error "missing device_id or command_type"

end Parse

/-- `isCommandSupportedByTransport` looks at the command's name only. -/
def supported {D : Type} (req : CommandRequest D) (transport : String) : Except String Unit :=
  Gateway.isCommandSupportedByTransport
    { deviceId := req.deviceId, commandId := req.commandId, commandType := fromBytes req.commandType }
    transport

def escapeByte (b : UInt8) : Text :=
  if b = 0x22 then [0x5C, 0x22]
  else if b = 0x5C then [0x5C, 0x5C]
  else if b = 0x08 then [0x5C, 0x62]
  else if b = 0x0C then [0x5C, 0x66]
  else if b = 0x0A then [0x5C, 0x6E]
  else if b = 0x0D then [0x5C, 0x72]
  else if b = 0x09 then [0x5C, 0x74]
  else if b < 0x20 then [0x3F]
  else [b]

def jsonEscape (s : Text) : Text := s.flatMap escapeByte

section Build

variable {D : Type} (f : Doubles D)

def bit (b : Bool) : Text := natText (if b then 1 else 0)

def wifiParams (req : CommandRequest D) : Text :=
  if req.commandType = ascii "set_led" then ascii "\"value\":" ++ bit req.on
  else if req.commandType = ascii "set_mode" then ascii "\"value\":" ++ bit req.modeAuto
  else if req.commandType = ascii "set_threshold" then
    ascii "\"temperature\":" ++ f.put req.thresholdTemp ++ ascii ","
      ++ ascii "\"humidity\":" ++ f.put req.thresholdHumi
  else if req.commandType = ascii "set_report_interval" then
    ascii "\"interval_ms\":" ++ intText req.reportIntervalMs
  else if req.commandType = ascii "set_log_level" then
    ascii "\"level\":\"" ++ jsonEscape req.logLevel ++ ascii "\""
  else []

def buildWifiCommandLine (req : CommandRequest D) (command_id : UInt16) : Text :=
  ascii "\x7b"
    ++ ascii "\"type\":\"command\","
    ++ ascii "\"device_id\":" ++ natText req.deviceId.toNat ++ ascii ","
    ++ ascii "\"command_id\":" ++ natText command_id.toNat ++ ascii ","
    ++ ascii "\"command_type\":\"" ++ jsonEscape req.commandType ++ ascii "\","
    ++ ascii "\"params\":\x7b"
    ++ wifiParams f req
    ++ ascii "\x7d,"
    ++ ascii "\"timeout_ms\":" ++ intText req.timeoutMs
    ++ ascii "\x7d"

def buildMqttCommandPayload (req : CommandRequest D) (command_id : UInt16) : Except String Text := do
  let command ←
    if req.commandType = ascii "set_led" then
      .ok (ascii "\"cmd\":\"led_set\"," ++ ascii "\"command_type\":\"set_led\","
        ++ ascii "\"value\":" ++ bit req.on)
    else if req.commandType = ascii "get_status" then
      .ok (ascii "\"cmd\":\"status_get\"," ++ ascii "\"command_type\":\"get_status\"")
    else if req.commandType = ascii "set_report_interval" then
      .ok (ascii "\"cmd\":\"report_interval_set\"," ++ ascii "\"command_type\":\"set_report_interval\","
        ++ ascii "\"interval_ms\":" ++ intText req.reportIntervalMs)
    else if req.commandType = ascii "set_log_level" then
      .ok (ascii "\"cmd\":\"set_log_level\"," ++ ascii "\"command_type\":\"set_log_level\","
        ++ ascii "\"level\":\"" ++ jsonEscape req.logLevel ++ ascii "\"")
    else .error ("unsupported mqtt command_type: " ++ fromBytes req.commandType)
  .ok (ascii "\x7b" ++ ascii "\"command_id\":" ++ natText command_id.toNat ++ ascii ","
    ++ command ++ ascii "\x7d")

end Build

section Event

open Gateway

variable (stod : Text → Option (ℤ × ℕ))

def eventType (event_type : Text) : FrameType :=
  if event_type = ascii "status" then .deviceStatus
  else if event_type = ascii "command_ack" then .commandAck
  else if event_type = ascii "heartbeat" then .heartbeat
  else if event_type = ascii "sensor_data" then .sensorData
  else .unknown

/-- The fields that every event has. -/
def commonFields (line : Text) (now : UInt64) (device_id : ℤ) (type : FrameType) : SensorData :=
  let int (key : String) := jsonGetInt line (ascii key)
  let timestamp := match int "timestamp" with
    | some ts => if ts ≥ 1600000000000 then UInt64.ofNat ts.toNat else now
    | none => now
  { deviceId := .ofNat device_id.toNat, frameType := type, timestampUnixMs := timestamp,
    deviceName := ((jsonGetString line (ascii "device_name")).map fromBytes).getD "",
    linkType := ((jsonGetString line (ascii "link_type")).map fromBytes).getD "wifi",
    wifiConnected := true, wifiLastSeenMs := timestamp,
    wifiRssi := ((int "wifi_rssi").map castInt).getD 0,
    seq := ((int "seq").filter (0 ≤ ·)).elim 0 fun seq => .ofNat seq.toNat,
    mq2Alarm := ((int "mq2_alarm").map castInt).getD (-1),
    ld2402Presence := ((int "ld2402_presence").map castInt).getD (-1),
    ledOn := ((int "led_on").map castInt).getD (-1),
    alarmOn := ((int "alarm_on").map castInt).getD (-1),
    sensorValid := ((int "sensor_valid").map castInt).getD (-1),
    autoMode := ((int "auto_mode").map castInt).getD (-1) }

/-- The measured values; those that are missing keep their defaults. -/
def measuredFields (line : Text) (out : SensorData) : SensorData :=
  let double (key : String) := jsonGetDouble stod line (ascii key)
  { out with temperature := (double "temperature").getD out.temperature,
             humidity := (double "humidity").getD out.humidity,
             voltage := (double "voltage").getD out.voltage,
             status := ((jsonGetInt line (ascii "status")).map UInt8.ofInt).getD out.status }

def sensorEvent (line : Text) (out : SensorData) : SensorData :=
  let double (key : String) := jsonGetDouble stod line (ascii key)
  let out := measuredFields stod line out
  let out := { out with light := ((double "light_lux") <|> (double "light")).getD out.light }
  { out with payloadSummary := "temp=" ++ toStringDouble out.temperature ++ ",hum=" ++
      toStringDouble out.humidity ++ ",voltage=" ++ toStringDouble out.voltage ++ ",light=" ++
      toStringDouble out.light }

def statusEvent (line : Text) (out : SensorData) : SensorData :=
  let int (key : String) := jsonGetInt line (ascii key)
  let out := measuredFields stod line out
  let field (name : String) (value : Option String) := value.elim "" (name ++ ·)
  { out with payloadSummary := "status"
      ++ field ",fw=" ((jsonGetString line (ascii "firmware_version")).map fromBytes)
      ++ field ",gw=" ((int "gateway_connected").map fun v => if v ≠ 0 then "1" else "0")
      ++ field ",report_ms=" ((int "report_interval_ms").map toString)
      ++ field ",rgb_mode=" ((int "rgb_mode").map toString)
      ++ field ",status=" ((int "status").map fun _ => toString out.status) }

def ackEvent (line : Text) (out : SensorData) : Except String SensorData :=
  match jsonGetInt line (ascii "command_id"), jsonGetInt line (ascii "command_result") with
  | some command_id, some command_result =>
    let out := { out with commandId := UInt16.ofInt command_id,
                          commandResult := UInt8.ofInt command_result }
    let summary := match jsonGetString line (ascii "payload_summary") with
      | some summary => fromBytes summary
      | none => "cmd_id=" ++ toString out.commandId ++ ",result=" ++ toString out.commandResult
    .ok { out with payloadSummary := summary }
  | _, _ => .error "missing command_ack fields"

def parseWifiJsonEvent (now : UInt64) (line : Text) : Except String SensorData :=
  match jsonGetInt line (ascii "device_id"), jsonGetString line (ascii "event_type") with
  | some device_id, some event_type =>
    if device_id < 0 ∨ device_id > 255 then .error "invalid device_id"
    else
      let out := commonFields line now device_id (eventType event_type)
      match eventType event_type with
      | .sensorData => .ok (sensorEvent stod line out)
      | .heartbeat => .ok { out with payloadSummary := "heartbeat" }
      | .commandAck => ackEvent line out
      | .deviceStatus => .ok (statusEvent stod line out)
      | _ => .error "unsupported event_type"
  | _, _ => .error "missing device_id or event_type"

end Event

end EdgeLink.CommandJson
