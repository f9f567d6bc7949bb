import EdgeLink.WireFrame

namespace EdgeLink.Gateway
open LittleEndian

/-- The `double`s are the rational numbers that they stand for. -/
structure ControlCommandRequest where
  deviceId : UInt8
  commandId : UInt16
  commandType : String
  hasOn : Bool := false
  on : Bool := false
  hasMode : Bool := false
  modeAuto : Bool := false
  hasThreshold : Bool := false
  thresholdTemp : ℚ := 0
  thresholdHumi : ℚ := 0

def isCommandSupportedByTransport (req : ControlCommandRequest) (transport : String) :
    Except String Unit :=
  let listed (commands : List String) : Except String Unit :=
    if req.commandType ∈ commands then .ok ()
    else .error ("command_type " ++ req.commandType ++ " not supported on transport " ++ transport)
  if transport = "serial" ∨ transport = "tcp_binary" then
    listed ["set_led", "set_mode", "get_status", "set_threshold"]
  else if transport = "wifi" then
    listed ["set_led", "set_mode", "get_status", "set_threshold", "set_report_interval",
      "set_log_level"]
  else if transport = "mqtt" then
    listed ["set_led", "get_status", "set_report_interval", "set_log_level"]
  else .error ("unknown transport: " ++ transport)

def scaleToU16x10 (value : ℚ) : UInt16 :=
  if value ≤ 0 then 0
  else
    let scaled := ⌊value * 10 + 1 / 2⌋
    if 65535 < scaled then 65535 else UInt16.ofNat scaled.toNat

def buildControlPayload (req : ControlCommandRequest) : Except String Bytes :=
  let payload := req.deviceId :: bytes16 req.commandId
  if req.commandType = "set_led" then
    if ¬ req.hasOn then .error "set_led requires args.on"
    else .ok (payload ++ [0x01, if req.on then 1 else 0])
  else if req.commandType = "set_mode" then
    if ¬ req.hasMode then .error "set_mode requires args.mode"
    else .ok (payload ++ [0x03, if req.modeAuto then 1 else 0])
  else if req.commandType = "get_status" then .ok (payload ++ [0x04])
  else if req.commandType = "set_threshold" then
    if ¬ req.hasThreshold then
      .error "set_threshold requires args.temperature and args.humidity"
    else
      .ok (payload ++ [0x05] ++ bytes16 (scaleToU16x10 req.thresholdTemp) ++
        bytes16 (scaleToU16x10 req.thresholdHumi))
  else .error ("unsupported command_type: " ++ req.commandType)

/-- What `executeControlCommand` writes to a binary transport: the payload as it is. -/
def transportBytes (req : ControlCommandRequest) (transport : String) : Except String Bytes := do
  isCommandSupportedByTransport req transport
  if transport = "serial" ∨ transport = "tcp_binary" then buildControlPayload req
  else .error "device transport unavailable"

def GW_TYPE_COMMAND_REQ : UInt8 := 0x10

def GW_ACK_OK : UInt8 := 0x00
def GW_ACK_BAD_PAYLOAD : UInt8 := 0x01
def GW_ACK_UNKNOWN_CMD : UInt8 := 0x02

/-- What a command makes the device do. Thresholds are in tenths. -/
inductive GwAction
  | setManualLed (on : Bool)
  | setManualBuzzer (on : Bool)
  | setMode (auto : Bool)
  | setThreshold (temp humi : UInt16)
  | setLogLevel (level : UInt8)
  | requestImmediateReport
  | sendCommandAck (command_id : UInt16) (result : UInt8)
  | sendSensorData
  | sendDeviceStatus
  | requestBootloader
  deriving DecidableEq, Repr

/-- The `switch` over the command code, without the reboot that returns from it. -/
def gwRunCommand (payload : Bytes) (cmd_type : UInt8) : List GwAction × UInt8 :=
  let cmd_arg := if 5 ≤ payload.length then payload.getD 4 0 else 0
  if cmd_type = 0x01 then
    if payload.length < 5 then ([], GW_ACK_BAD_PAYLOAD)
    else ([.setManualLed (cmd_arg ≠ 0), .requestImmediateReport], GW_ACK_OK)
  else if cmd_type = 0x02 then
    if payload.length < 5 then ([], GW_ACK_BAD_PAYLOAD)
    else ([.setManualBuzzer (cmd_arg ≠ 0), .requestImmediateReport], GW_ACK_OK)
  else if cmd_type = 0x03 then
    if payload.length < 5 then ([], GW_ACK_BAD_PAYLOAD)
    else ([.setMode (cmd_arg ≠ 0), .requestImmediateReport], GW_ACK_OK)
  else if cmd_type = 0x04 then ([.requestImmediateReport], GW_ACK_OK)
  else if cmd_type = 0x05 then
    if payload.length < 8 then ([], GW_ACK_BAD_PAYLOAD)
    else ([.setThreshold (read16 payload 4) (read16 payload 6), .requestImmediateReport], GW_ACK_OK)
  else if cmd_type = 0x06 then
    if payload.length < 5 ∨ 2 < cmd_arg then ([], GW_ACK_BAD_PAYLOAD)
    else ([.setLogLevel cmd_arg], GW_ACK_OK)
  else ([], GW_ACK_UNKNOWN_CMD)

/-- On a device whose `GW_DEVICE_ID` is `device_id`. -/
def gwHandleCommandReq (device_id : UInt8) (payload : Bytes) : List GwAction :=
  if payload.length < 4 then []
  else if payload.getD 0 0 ≠ device_id then []
  else
    let command_id := read16 payload 1
    let cmd_type := payload.getD 3 0
    if cmd_type = 0x07 then [.sendCommandAck command_id GW_ACK_OK, .requestBootloader]
    else
      let r := gwRunCommand payload cmd_type
      r.1 ++ [.sendCommandAck command_id r.2] ++
        if r.2 = GW_ACK_OK then [.sendSensorData, .sendDeviceStatus] else []

def gwSendCommandAck (device_id : UInt8) (command_id : UInt16) (result : UInt8) : Option Bytes :=
  gwSendFrame FrameType.commandAck.wire (device_id :: bytes16 command_id ++ [result])

/-- The runs of `gw_handle_command_req` while the idle device reads a stream. -/
def commandRuns (device_id : UInt8) (stream : Bytes) : List (List GwAction) :=
  ((stream.foldl gwProcessRxByte ⟨[], []⟩).processed.filter (·.1 = GW_TYPE_COMMAND_REQ)).map
    fun r => gwHandleCommandReq device_id r.2

def asked (req : ControlCommandRequest) : List GwAction :=
  if req.commandType = "set_led" then [.setManualLed req.on, .requestImmediateReport]
  else if req.commandType = "set_mode" then [.setMode req.modeAuto, .requestImmediateReport]
  else if req.commandType = "get_status" then [.requestImmediateReport]
  else [.setThreshold (scaleToU16x10 req.thresholdTemp) (scaleToU16x10 req.thresholdHumi),
    .requestImmediateReport]

/-- The stream makes the device do once what is asked, and the gateway knows its answer. -/
def Reaches (req : ControlCommandRequest) (stream : Bytes) : Prop :=
  commandRuns req.deviceId stream =
      [asked req ++ [.sendCommandAck req.commandId GW_ACK_OK, .sendSensorData, .sendDeviceStatus]] ∧
    ∃ frame, gwSendCommandAck req.deviceId req.commandId GW_ACK_OK = some frame ∧
      ∀ now counters, ((⟨frame⟩ : FrameParser).extract now counters).2.1.map
        (fun data => (data.frameType, data.deviceId, data.commandId)) =
          [(.commandAck, req.deviceId, req.commandId)]

section Accepted
variable {req : ControlCommandRequest} {transport : String} {payload : Bytes}

theorem transportBytes_ok (h : transportBytes req transport = .ok payload) :
    buildControlPayload req = .ok payload := by
  unfold transportBytes at h
  cases hs : isCommandSupportedByTransport req transport with
  | error err =>
    rw [hs] at h
    cases h
  | ok u =>
    rw [hs] at h
    change (if transport = "serial" ∨ transport = "tcp_binary" then buildControlPayload req
      else .error "device transport unavailable") = .ok payload at h
    split_ifs at h
    exact h

section Branches
variable (d : UInt8) (id : UInt16)

theorem gwRunCommand_led (on : Bool) :
    gwRunCommand (d :: bytes16 id ++ [0x01, if on then 1 else 0]) 0x01 =
      ([.setManualLed on, .requestImmediateReport], GW_ACK_OK) := by
  cases on <;> rfl

theorem gwRunCommand_mode (auto : Bool) :
    gwRunCommand (d :: bytes16 id ++ [0x03, if auto then 1 else 0]) 0x03 =
      ([.setMode auto, .requestImmediateReport], GW_ACK_OK) := by
  cases auto <;> rfl

theorem gwRunCommand_threshold (temp humi : UInt16) :
    gwRunCommand (d :: bytes16 id ++ 0x05 :: (bytes16 temp ++ bytes16 humi)) 0x05 =
      ([.setThreshold temp humi, .requestImmediateReport], GW_ACK_OK) := by
  have htemp : read16 (d :: bytes16 id ++ 0x05 :: (bytes16 temp ++ bytes16 humi)) 4 = temp :=
    read16_head temp (bytes16 humi)
  have hhumi : read16 (d :: bytes16 id ++ 0x05 :: (bytes16 temp ++ bytes16 humi)) 6 = humi :=
    read16_head humi []
  unfold gwRunCommand
  rw [if_neg (by decide), if_neg (by decide), if_neg (by decide), if_neg (by decide),
    if_pos (by decide), if_neg (by simp), htemp, hhumi]

end Branches

/-- The payload names device, command and code, and the device's handler does what is asked. -/
theorem payload_spec (h : buildControlPayload req = .ok payload) :
    ∃ code args, payload = req.deviceId :: bytes16 req.commandId ++ code :: args ∧
      code ∈ [0x01, 0x03, 0x04, 0x05] ∧ args.length ≤ 4 ∧ args.length < code.toNat + 2 ∧
      gwRunCommand payload code = (asked req, GW_ACK_OK) := by
  unfold buildControlPayload at h
  dsimp only at h
  unfold asked
  by_cases hled : req.commandType = "set_led"
  · rw [if_pos hled] at h ⊢
    by_cases hon : req.hasOn = true
    · rw [if_neg (not_not.mpr hon)] at h
      obtain rfl := Except.ok.inj h
      exact ⟨0x01, _, rfl, by decide, by simp, by simp, gwRunCommand_led _ _ _⟩
    · rw [if_pos hon] at h
      cases h
  rw [if_neg hled] at h ⊢
  by_cases hmode : req.commandType = "set_mode"
  · rw [if_pos hmode] at h ⊢
    by_cases hon : req.hasMode = true
    · rw [if_neg (not_not.mpr hon)] at h
      obtain rfl := Except.ok.inj h
      exact ⟨0x03, _, rfl, by decide, by simp, by simp, gwRunCommand_mode _ _ _⟩
    · rw [if_pos hon] at h
      cases h
  rw [if_neg hmode] at h ⊢
  by_cases hget : req.commandType = "get_status"
  · rw [if_pos hget] at h ⊢
    obtain rfl := Except.ok.inj h
    exact ⟨0x04, [], rfl, by decide, by simp, by simp, rfl⟩
  rw [if_neg hget] at h ⊢
  by_cases hthr : req.commandType = "set_threshold"
  · rw [if_pos hthr] at h
    by_cases hon : req.hasThreshold = true
    · rw [if_neg (not_not.mpr hon)] at h
      obtain rfl := Except.ok.inj h
      exact ⟨0x05, _, rfl, by decide, by simp, by simp, gwRunCommand_threshold _ _ _ _⟩
    · rw [if_pos hon] at h
      cases h
  · rw [if_neg hthr] at h
    cases h

/-- Without a frame around it, a payload is no command: nowhere in it does a frame fit whose type
is that of a command. -/
theorem commandRuns_raw {code : UInt8} {args : Bytes} (device_id d : UInt8) (id : UInt16)
    (hcode : code ∈ [0x01, 0x03, 0x04, 0x05]) (hargs : args.length ≤ 4)
    (hroom : args.length < code.toNat + 2) :
    commandRuns device_id (d :: bytes16 id ++ code :: args) = [] := by
  unfold commandRuns
  rw [List.map_eq_nil_iff, List.filter_eq_nil_iff, gw_processed]
  intro r hr hreq
  obtain ⟨⟨i, seen⟩, hlog, hseen⟩ := List.mem_filterMap.mp hr
  obtain ⟨-, n, hn⟩ := (Scanner.mem_log _ _ _).mp hlog
  cases seen with
  | dropped => cases hseen
  | crcError => cases hseen
  | frame type body =>
    obtain rfl := Option.some.inj hseen
    obtain ⟨hmin, ⟨-, hdrop⟩ | ⟨hhead, hsize, hframe⟩⟩ := lookFrame_some.mp hn
    · cases hdrop
    have htype : type = 0x10 := of_decide_eq_true hreq
    -- the frame starts at byte 0, 1 or 2: at least six bytes follow
    have hsix := Nat.add_le_add_right hhead.2.2.1 5
    change 1 + 5 ≤ frameSize _ at hsix
    rw [List.length_drop] at hsize
    simp only [List.length_append, List.length_cons, bytes16_length] at hsize
    have hi : i = 0 ∨ i = 1 ∨ i = 2 := by omega
    obtain rfl | rfl | rfl := hi
    · -- its type would be the command code
      have hcrc := (Prod.ext_iff.mp hframe).2
      dsimp only at hcrc
      split_ifs at hcrc
      have ht : type = code := (Seen.frame.inj hcrc).1
      rw [← ht, htype] at hcode
      exact absurd hcode (by decide)
    · -- its LEN would be the command code
      have hlen : frameSize ((d :: bytes16 id ++ code :: args).drop 1) = code.toNat + 5 := rfl
      omega
    · -- the command code would be 0x55
      have h55 : code = 0x55 := hhead.2.1
      rw [h55] at hcode
      exact absurd hcode (by decide)

/-- No accepted command reaches the device. -/
theorem command_lost (h : transportBytes req transport = .ok payload) : ¬ Reaches req payload := by
  obtain ⟨code, args, rfl, hcode, hargs, hroom, -⟩ := payload_spec (transportBytes_ok h)
  intro hr
  have hruns := hr.1
  rw [commandRuns_raw _ _ _ hcode hargs hroom] at hruns
  cases hruns

/-- The device's answer carries the ids. -/
theorem commandAck_known (device_id : UInt8) (command_id : UInt16) (result : UInt8) :
    ∃ frame, gwSendCommandAck device_id command_id result = some frame ∧
      ∀ now counters, ((⟨frame⟩ : FrameParser).extract now counters).2.1.map
        (fun data => (data.frameType, data.deviceId, data.commandId)) =
          [(.commandAck, device_id, command_id)] := by
  refine ⟨_, rfl, fun now counters => ?_⟩
  have hread : read16 (device_id :: bytes16 command_id ++ [result]) 1 = command_id :=
    read16_head command_id [result]
  have hx := extract_wireFrame FrameType.commandAck.wire now counters
    (show (device_id :: bytes16 command_id ++ [result]).length < 255 from by simp)
  rw [frameTypeFromWire_wire] at hx
  -- the ids are read from the record without its time
  have hids := congrArg (List.map fun data : SensorData =>
    (data.frameType, data.deviceId, data.commandId)) hx
  rw [List.map_map] at hids
  refine hids.trans ?_
  show [(FrameType.commandAck, _, read16 (device_id :: bytes16 command_id ++ [result]) 1)] = _
  rw [hread]
  rfl

/-- In a frame of its type every accepted command would reach the device. -/
theorem framed_reaches (h : transportBytes req transport = .ok payload) :
    Reaches req (wireFrame GW_TYPE_COMMAND_REQ payload) := by
  obtain ⟨code, args, rfl, hcode, hargs, -, hrun⟩ := payload_spec (transportBytes_ok h)
  refine ⟨?_, commandAck_known _ _ _⟩
  have hid : read16 (req.deviceId :: bytes16 req.commandId ++ code :: args) 1 = req.commandId :=
    read16_head req.commandId (code :: args)
  have hreboot : ¬ code = 0x07 := by
    rintro rfl
    exact absurd hcode (by decide)
  unfold commandRuns
  rw [gw_wireFrame]
  · show [gwHandleCommandReq _ _] = _
    have hlen : ¬ (req.deviceId :: bytes16 req.commandId ++ code :: args).length < 4 := by
      simp only [List.length_append, List.length_cons, bytes16_length]
      omega
    have hthird : (req.deviceId :: bytes16 req.commandId ++ code :: args).getD 3 0 = code := rfl
    unfold gwHandleCommandReq
    dsimp only
    rw [if_neg hlen, if_neg (by simp), hthird, if_neg hreboot, hid, hrun, if_pos rfl, List.append_assoc]
    rfl
  · simp only [List.length_append, List.length_cons, bytes16_length, GW_FRAME_BUF_SIZE]
    omega

end Accepted

def ledOn : ControlCommandRequest where
  deviceId := 1
  commandId := 1
  commandType := "set_led"
  hasOn := true
  on := true

theorem ledOn_lost : ¬ ∀ (req : ControlCommandRequest) (transport : String) (payload : Bytes),
    req.commandId ≠ 0 → transportBytes req transport = .ok payload → Reaches req payload := by
  intro h
  have hok : transportBytes ledOn "serial" = .ok [0x01, 0x01, 0x00, 0x01, 0x01] := by decide
  have hruns := (h ledOn "serial" _ (by decide) hok).1
  exact absurd hruns (by decide +kernel)

theorem ledOn_command_lost : transportBytes ledOn "serial" = .ok [0x01, 0x01, 0x00, 0x01, 0x01] ∧
    ¬ Reaches ledOn [0x01, 0x01, 0x00, 0x01, 0x01] :=
  ⟨by decide, @command_lost ledOn "serial" _ (by decide)⟩

end EdgeLink.Gateway
