import EdgeLink.JsonLookup

namespace EdgeLink.Node

open Json Lookup

/-! The readers of `esp32_node_new.ino`: they look for the text of a key anywhere in the line. -/

def quoted (t : Text) : Text := 0x22 :: (t ++ [0x22])

/-- What stands behind the first place where `pat` is found. -/
def behind (pat : Text) : Text → Option Text
  | [] => if pat = [] then some [] else none
  | c :: s => if pat <+: c :: s then some ((c :: s).drop pat.length) else behind pat s

def findValueStart (s key : Text) : Option Text :=
  match behind (quoted key) s with
  | none => none
  | some r =>
    match r.dropWhile isSpace with
    | 0x3A :: t => some (t.dropWhile isSpace)
    | _ => none

/-- `String::toInt`: `atol`, with a 32-bit `long`. -/
def toInt (s : Text) : ℤ :=
  let t := s.dropWhile isSpace
  let sign := t.head?.filter fun b => b == 0x2D || b == 0x2B
  let digits := (if sign.isSome then t.tail else t).takeWhile isDigit
  let magnitude : ℤ := digits.foldl (fun n b => n * 10 + (b.toNat - 0x30)) 0
  max (-2 ^ 31) (min (2 ^ 31 - 1) (if sign = some 0x2D then -magnitude else magnitude))

def findIntField (s key : Text) (defaultValue : ℤ) : ℤ :=
  match findValueStart s key with
  | none => defaultValue
  | some p =>
    let run := p.takeWhile fun b => isDigit b || b == 0x2D
    if run = [] then defaultValue else toInt run

def findStringField (s key : Text) : Text :=
  match findValueStart s key with
  | some (0x22 :: t) => if 0x22 ∈ t then t.takeWhile (· ≠ 0x22) else []
  | _ => []

def deviceId : ℕ := 2

def minReportIntervalMs : ℕ := 200

structure OtaRuntime where
  inProgress : Bool
  commandId : UInt32
  versionFrom : Text
  versionTo : Text
  firmwareUrl : Text
  deriving DecidableEq

structure State where
  seqId : UInt32
  reportIntervalMs : UInt32
  ledState : ℤ
  rgbOverrideMode : ℤ
  fwVersion : Text
  otaState : OtaRuntime
  deriving DecidableEq

/-- What the functions read off the radio and the clock. -/
structure Env where
  wifiConnected : Bool
  wifiRssi : ℤ
  millis : UInt32

/-- An acknowledgement with its whole text. Of the status messages the fields that the state
decides are kept. -/
inductive Publication
  | commandAck (msg : Text)
  | status (seq report_interval_ms : UInt32) (rgb_mode : ℤ)
  | otaStatus (seq command_id : UInt32) (ota_state : String) (progress : ℤ) (error_code : ℤ)
      (version_from version_to firmware_version : Text)
  deriving DecidableEq

def nextSeq (n : State) : UInt32 × State := (n.seqId, { n with seqId := n.seqId + 1 })

def setReportIntervalMs (n : State) (interval : UInt32) : State :=
  { n with reportIntervalMs := interval }

def setRgbOverrideMode (n : State) (mode : ℤ) : State :=
  { n with rgbOverrideMode := mode, ledState := if mode = 1 then 1 else 0 }

def setLedState (n : State) (value : ℤ) : State :=
  let led : ℤ := if value ≠ 0 then 1 else 0
  { n with ledState := led, rgbOverrideMode := if led ≠ 0 then 1 else 2 }

def canonicalCommandName (raw : Text) : Text :=
  if raw = ascii "status_get" then ascii "get_status"
  else if raw = ascii "led_set" then ascii "set_led"
  else if raw = ascii "report_interval_set" then ascii "set_report_interval"
  else raw

def publicCommandName (canonical : Text) : Text :=
  if canonical = ascii "get_status" then ascii "status_get"
  else if canonical = ascii "set_led" then ascii "led_set"
  else if canonical = ascii "set_report_interval" then ascii "report_interval_set"
  else canonical

/-- The message that `sendAck` builds. -/
def ackText (env : Env) (seq : UInt32) (command_id : ℤ) (commandName : Text) (result : ℤ)
    (message : Option Text) : Text :=
  let rssi := if env.wifiConnected then env.wifiRssi else 0
  let text := message.getD (if result = 0 then ascii "ok" else ascii "error")
  ascii "\x7b"
    ++ ascii "\"gateway_id\":\"" ++ ascii "gw001" ++ ascii "\","
    ++ ascii "\"device_id\":" ++ natText deviceId ++ ascii ","
    ++ ascii "\"device_name\":\"" ++ ascii "wifi-node-02" ++ ascii "\","
    ++ ascii "\"msg_type\":\"command_ack\","
    ++ ascii "\"event_type\":\"command_ack\","
    ++ ascii "\"timestamp\":0,"
    ++ ascii "\"uptime_ms\":" ++ natText env.millis.toNat ++ ascii ","
    ++ ascii "\"command_id\":" ++ intText command_id ++ ascii ","
    ++ ascii "\"cmd\":\"" ++ publicCommandName commandName ++ ascii "\","
    ++ ascii "\"result\":\"" ++ (if result = 0 then ascii "ok" else ascii "error") ++ ascii "\","
    ++ ascii "\"code\":" ++ intText (if result = 0 then 0 else -1) ++ ascii ","
    ++ ascii "\"message\":\"" ++ text ++ ascii "\","
    ++ ascii "\"command_result\":" ++ intText result ++ ascii ","
    ++ ascii "\"payload_summary\":\"cmd_id=" ++ intText command_id ++ ascii ",result="
    ++ intText result ++ ascii "\","
    ++ ascii "\"link_type\":\"wifi\","
    ++ ascii "\"wifi_rssi\":" ++ intText rssi ++ ascii ","
    ++ ascii "\"seq\":" ++ natText seq.toNat
    ++ ascii "\x7d"

def sendAck (n : State) (env : Env) (command_id : ℤ) (commandName : Text) (result : ℤ)
    (message : Option Text) : State × Publication :=
  let (seq, n) := nextSeq n
  (n, .commandAck (ackText env seq command_id commandName result message))

def sendStatus (n : State) : State × Publication :=
  let (seq, n') := nextSeq n
  (n', .status seq n.reportIntervalMs n.rgbOverrideMode)

/-- On the topics for updates and for events. -/
def sendOtaStatus (n : State) (ota_state : String) (progress error_code : ℤ) :
    State × List Publication :=
  let (seq, n') := nextSeq n
  let msg := Publication.otaStatus seq n.otaState.commandId ota_state progress error_code
    n.otaState.versionFrom n.otaState.versionTo n.fwVersion
  (n', [msg, msg])

/-- Without `ESP32_OTA_REAL` the update is played, not made. -/
def runOtaFlow (n : State) (firmware_url version_to : Text) : State × List Publication :=
  let n := { n with otaState := { n.otaState with inProgress := true, versionFrom := n.fwVersion,
                                                  versionTo := version_to,
                                                  firmwareUrl := firmware_url } }
  let (n, received) := sendOtaStatus n "received" 1 0
  let (n, downloading) := sendOtaStatus n "downloading" 25 0
  let (n, writing) := sendOtaStatus n "writing" 60 0
  let (n, verifying) := sendOtaStatus n "verifying" 90 0
  let n := { n with fwVersion := version_to }
  let (n, rebooting) := sendOtaStatus n "rebooting" 100 0
  ({ n with otaState := { n.otaState with inProgress := false } },
    received ++ downloading ++ writing ++ verifying ++ rebooting)

/-- What a command did, up to the acknowledgement; after an update the node restarts first. -/
structure Outcome where
  node : State
  published : List Publication := []
  restart : Bool := false
  result : ℤ := 0
  ackMessage : Text
  needStatusReport : Bool := false

/-- The command of the line, when it is one. -/
def commandName (line sourceTopic topicOtaStart : Text) : Option Text :=
  let type := findStringField line (ascii "type")
  let legacyCmd := findStringField line (ascii "command_type")
  let cmd := findStringField line (ascii "cmd")
  let cmd := canonicalCommandName (if cmd = [] then legacyCmd else cmd)
  let cmd := if sourceTopic = topicOtaStart ∧ cmd = [] then ascii "ota_start" else cmd
  let type := if type = [] ∧ cmd ≠ [] then ascii "command" else type
  if type = ascii "command" then some cmd else none

def executeCommand (n : State) (line cmd : Text) (command_id : ℤ) : Outcome :=
  if cmd = ascii "get_status" then
    { node := n, needStatusReport := true, ackMessage := ascii "status queued" }
  else if cmd = ascii "set_led" then
    let value := findIntField line (ascii "value") 0
    { node := setLedState n (if value ≠ 0 then 1 else 0), ackMessage := ascii "led updated" }
  else if cmd = ascii "set_rgb_mode" then
    let mode := findIntField line (ascii "value") (-1)
    if mode < 0 ∨ mode > 2 then { node := n, result := 1, ackMessage := ascii "invalid rgb mode" }
    else { node := setRgbOverrideMode n mode, ackMessage := ascii "rgb mode updated" }
  else if cmd = ascii "set_report_interval" then
    let interval := findIntField line (ascii "interval_ms") (-1)
    let interval := if interval < 0 then findIntField line (ascii "value") (-1) else interval
    if interval ≥ minReportIntervalMs then
      { node := setReportIntervalMs n (UInt32.ofNat interval.toNat),
        ackMessage := ascii "report interval updated" }
    else { node := n, result := 1, ackMessage := ascii "invalid report interval" }
  else if cmd = ascii "set_log_level" then { node := n, ackMessage := ascii "log level noop" }
  else if cmd = ascii "ota_start" then
    let firmware_url := findStringField line (ascii "firmware_url")
    let version_to := findStringField line (ascii "version")
    if firmware_url = [] ∨ version_to = [] then
      { node := n, result := 1, ackMessage := ascii "missing firmware_url or version" }
    else
      let n := { n with otaState := { n.otaState with commandId := .ofNat (command_id % 2 ^ 32).toNat } }
      let (n, flow) := runOtaFlow n firmware_url version_to
      let (n, success) := sendOtaStatus n "success" 100 0
      { node := n, published := flow ++ success, restart := true, ackMessage := ascii "ota accepted" }
  else { node := n, result := 1, ackMessage := ascii "unsupported command" }

def processCommand (n : State) (env : Env) (line sourceTopic topicOtaStart : Text) :
    State × List Publication :=
  match commandName line sourceTopic topicOtaStart with
  | none => (n, [])
  | some cmd =>
    let requested := findIntField line (ascii "command_id") 0
    let (command_id, n) :=
      if requested = 0 then
        let (seq, n) := nextSeq n
        (((seq &&& 0x7FFFFFFF).toNat : ℤ), n)
      else (requested, n)
    let done := executeCommand n line cmd command_id
    if done.restart then (done.node, done.published)
    else
      let (n, ack) := sendAck done.node env command_id (if cmd = [] then ascii "unknown" else cmd)
        done.result (some done.ackMessage)
      if done.needStatusReport ∧ done.result = 0 then
        let (n, status) := sendStatus n
        (n, done.published ++ [ack, status])
      else (n, done.published ++ [ack])

end EdgeLink.Node
