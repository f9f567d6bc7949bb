import EdgeLink.ReportTask
import EdgeLink.ControlCommands
import EdgeLink.FrameStream
import EdgeLink.SerialPipeline

namespace EdgeLink.DeviceLink
open Binary32 LittleEndian Gateway Report SerialPipeline

/-! What the device sends, and what the gateway makes of the stream of it. -/

def GW_TYPE_APP_CONFIRM : UInt8 := 0x26

def GW_APP_VERSION_MAJOR : UInt8 := 1
def GW_APP_VERSION_MINOR : UInt8 := 0
def GW_APP_VERSION_PATCH : UInt8 := 0

def gwSendHeartbeat : Option Bytes := gwSendFrame FrameType.heartbeat.wire [GW_DEVICE_ID]

def gwSendAlarmEvent (event_code : UInt8) : Option Bytes :=
  gwSendFrame FrameType.alarmEvent.wire [GW_DEVICE_ID, event_code]

def gwSendDeviceStatus : Option Bytes :=
  gwSendFrame FrameType.deviceStatus.wire
    [GW_DEVICE_ID, 1, GW_APP_VERSION_MAJOR, GW_APP_VERSION_MINOR, GW_APP_VERSION_PATCH]

def gwSendAppConfirm : Option Bytes :=
  gwSendFrame GW_TYPE_APP_CONFIRM
    [GW_DEVICE_ID, GW_APP_VERSION_MAJOR, GW_APP_VERSION_MINOR, GW_APP_VERSION_PATCH, 1]

inductive Message
  | sensorData (state : SmartHomeState) (report_seq : UInt32)
  | alarmEvent (event_code : UInt8)
  | heartbeat
  | commandAck (command_id : UInt16) (result : UInt8)
  | deviceStatus
  | appConfirm

def Message.frame : Message → Option Bytes
  | sensorData state report_seq => some (sensorFrame state report_seq)
  | alarmEvent event_code => gwSendAlarmEvent event_code
  | heartbeat => gwSendHeartbeat
  | commandAck command_id result => gwSendCommandAck GW_DEVICE_ID command_id result
  | deviceStatus => gwSendDeviceStatus
  | appConfirm => gwSendAppConfirm

/-- A report as the gateway should see it. -/
def reported (state : SmartHomeState) (report_seq : UInt32) : SensorData :=
  let temperature := (gwFloatToX10 state.temperature).toInt * 100
  let humidity : ℤ := (gwFloatToU16X10 state.humidity).toNat * 100
  let light : ℤ := state.light.toNat * 1000
  { frameType := .sensorData, deviceId := GW_DEVICE_ID, temperature := temperature,
    humidity := humidity, voltage := 3300, light := light, status := statusBits state,
    seq := report_seq.toUInt64, ledOn := if state.ledOn then 1 else 0,
    alarmOn := if state.alarmOn then 1 else 0, sensorValid := if state.sensorValid then 1 else 0,
    autoMode := if state.mode = .auto then 1 else 0,
    payloadSummary := "temp=" ++ toStringDouble temperature ++ ",hum=" ++
      toStringDouble humidity ++ ",voltage=" ++ toStringDouble 3300 ++ ",light=" ++
      toStringDouble light }

/-- The gateway has no name for the confirmation of a new application. -/
def Message.record : Message → Option SensorData
  | sensorData state report_seq => some (reported state report_seq)
  | alarmEvent event_code =>
    some { frameType := .alarmEvent, deviceId := GW_DEVICE_ID, status := event_code,
           payloadSummary := alarmEventName event_code ++ "=" ++ toString event_code.toNat }
  | heartbeat =>
    some { frameType := .heartbeat, deviceId := GW_DEVICE_ID, payloadSummary := "heartbeat" }
  | commandAck command_id result =>
    some { frameType := .commandAck, deviceId := GW_DEVICE_ID, commandId := command_id,
           commandResult := result,
           payloadSummary := "cmd_id=" ++ toString command_id.toNat ++ ",result=" ++
             toString result.toNat }
  | deviceStatus =>
    some { frameType := .deviceStatus, deviceId := GW_DEVICE_ID, status := 1,
           payloadSummary := "online=1,version=1.0" }
  | appConfirm => none

/-- The type and the payload of the frame. -/
def Message.parts : Message → UInt8 × Bytes
  | sensorData state report_seq => (FrameType.sensorData.wire, sensorPayload state report_seq)
  | alarmEvent event_code => (FrameType.alarmEvent.wire, [GW_DEVICE_ID, event_code])
  | heartbeat => (FrameType.heartbeat.wire, [GW_DEVICE_ID])
  | commandAck command_id result =>
    (FrameType.commandAck.wire, GW_DEVICE_ID :: bytes16 command_id ++ [result])
  | deviceStatus => (FrameType.deviceStatus.wire,
      [GW_DEVICE_ID, 1, GW_APP_VERSION_MAJOR, GW_APP_VERSION_MINOR, GW_APP_VERSION_PATCH])
  | appConfirm => (GW_TYPE_APP_CONFIRM,
      [GW_DEVICE_ID, GW_APP_VERSION_MAJOR, GW_APP_VERSION_MINOR, GW_APP_VERSION_PATCH, 1])

def Message.bytes (m : Message) : Bytes := wireFrame m.parts.1 m.parts.2

theorem Message.parts_length (m : Message) : m.parts.2.length < 20 := by
  cases m <;> simp [parts, sensorPayload]

theorem Message.bytes_ne_nil (m : Message) : m.bytes ≠ [] :=
  List.ne_nil_of_length_pos (by rw [bytes, wireFrame_length]; exact Nat.succ_pos _)

theorem Message.frame_eq (m : Message) : m.frame = some m.bytes := by
  cases m <;> rfl

section Sensor
variable (state : SmartHomeState) (report_seq : UInt32)

theorem flag_statusBits :
    flag (statusBits state) 0x01 = (if state.ledOn then 1 else 0) ∧
    flag (statusBits state) 0x02 = (if state.alarmOn then 1 else 0) ∧
    flag (statusBits state) 0x04 = (if state.sensorValid then 1 else 0) ∧
    flag (statusBits state) 0x08 = if state.mode = .auto then 1 else 0 := by
  have hbits : ∀ led alarm valid auto : Bool,
      let status : UInt8 := (if led then 0x01 else 0) ||| (if alarm then 0x02 else 0) |||
        (if valid then 0x04 else 0) ||| (if auto then 0x08 else 0)
      flag status 0x01 = (if led then 1 else 0) ∧ flag status 0x02 = (if alarm then 1 else 0) ∧
        flag status 0x04 = (if valid then 1 else 0) ∧ flag status 0x08 = if auto then 1 else 0 := by
    decide
  have h := hbits state.ledOn state.alarmOn state.sensorValid (decide (state.mode = .auto))
  simp only [decide_eq_true_eq] at h
  exact h

theorem parse_report :
    parsePayload .sensorData (sensorPayload state report_seq) = some (reported state report_seq) := by
  have hlen : (sensorPayload state report_seq).length = 14 := by simp [sensorPayload]
  have htemp : read16 (sensorPayload state report_seq) 1 =
      (gwFloatToX10 state.temperature).toUInt16 := read16_head _ []
  have hhumi : read16 (sensorPayload state report_seq) 3 = gwFloatToU16X10 state.humidity :=
    read16_head _ []
  have hlight : read16 (sensorPayload state report_seq) 7 = state.light := read16_head _ []
  have hstatus : (sensorPayload state report_seq).getD 9 0 = statusBits state := rfl
  have hseq : read32 (sensorPayload state report_seq) 10 = report_seq := read32_head report_seq []
  obtain ⟨hled, halarm, hvalid, hmode⟩ := flag_statusBits state
  have hvoltage : read16 (sensorPayload state report_seq) 5 =
      GW_VOLTAGE_MV_DEFAULT := read16_head GW_VOLTAGE_MV_DEFAULT []
  have hdevice : (sensorPayload state report_seq).getD 0 0 = GW_DEVICE_ID := rfl
  unfold parsePayload reported
  dsimp only
  rw [if_neg (by omega), if_pos (by omega), if_pos (by omega), if_pos (by omega), htemp, hhumi,
    hlight, hstatus, hseq, hled, halarm, hvalid, hmode, hvoltage, hdevice]
  rfl

end Sensor

theorem Message.parse (m : Message) :
    parsePayload (frameTypeFromWire m.parts.1) m.parts.2 = m.record := by
  cases m with
  | sensorData state report_seq => exact parse_report state report_seq
  | alarmEvent event_code => rfl
  | heartbeat => rfl
  | commandAck command_id result =>
    have hid : read16 (GW_DEVICE_ID :: bytes16 command_id ++ [result]) 1 = command_id :=
      read16_head command_id []
    show parsePayload .commandAck (GW_DEVICE_ID :: bytes16 command_id ++ [result]) = _
    unfold parsePayload record
    dsimp only
    rw [if_neg (by simp), hid]
    rfl
  | deviceStatus => rfl
  | appConfirm => rfl

/-- The beginning of a frame is waited on. -/
theorem wireFrame_waits {type : UInt8} {payload p q : Bytes} (h : payload.length < 255)
    (hq : q ≠ []) (hpq : p ++ q = wireFrame type payload) : frameParser.next p = none := by
  have hlen := congrArg List.length hpq
  have hrest := List.length_pos_iff.mpr hq
  rw [List.length_append, wireFrame_length] at hlen
  by_contra hne
  obtain ⟨r, hr⟩ := Option.ne_none_iff_exists'.mp hne
  obtain ⟨hmin, hcase⟩ := lookFrame_some.mp (show lookFrame kMinFrameSize 255 p = some r from hr)
  have hthree : 3 ≤ p.length := by
    unfold kMinFrameSize at hmin
    omega
  have hhead : IsHeader 255 p := by
    rw [← isHeader_append q hthree, hpq]
    exact wireFrame_isHeader type h h
  have hsize : frameSize p = payload.length + 6 := by
    rw [← frameSize_append q hthree, hpq, wireFrame_size type h]
  rcases hcase with ⟨hno, -⟩ | ⟨-, hle, -⟩
  · exact hno hhead
  · omega

/-- The counters when `messages` have been read. -/
def counted (messages : List Message) : ParseCounters where
  receivedFrames := .ofNat messages.length
  parsedOk := .ofNat (messages.filterMap Message.record).length
  unknownTypes := .ofNat (messages.countP fun m => m.record.isNone)

theorem counted_concat (messages : List Message) (m : Message) :
    counted (messages ++ [m]) =
      { counted messages with
        receivedFrames := (counted messages).receivedFrames + 1
        parsedOk := (counted messages).parsedOk + if m.record.isNone then 0 else 1
        unknownTypes := (counted messages).unknownTypes + if m.record.isNone then 1 else 0 } := by
  unfold counted
  cases hm : m.record with
  | some data => simp [hm]
  | none => simp [hm]

theorem unknown_of_silent {m : Message} (h : m.record = none) :
    frameTypeFromWire m.parts.1 = .unknown := by
  cases m with
  | appConfirm => rfl
  | sensorData | alarmEvent | heartbeat | commandAck | deviceStatus => cases h

theorem tally_message (messages : List Message) (m : Message) (n : ℕ) :
    tally (messages.filterMap Message.record, counted messages) (n, .frame m.parts.1 m.parts.2) =
      ((messages ++ [m]).filterMap Message.record, counted (messages ++ [m])) := by
  have hparse := m.parse
  unfold tally account
  dsimp only
  rw [hparse, counted_concat]
  cases hm : m.record with
  | some data =>
    rw [hm] at hparse
    have hdata : { data with timestampUnixMs := 0 } = data := untimed_parsePayload hparse
    dsimp only
    rw [hdata]
    simp [hm]
  | none =>
    dsimp only
    rw [if_pos (unknown_of_silent hm)]
    simp [hm]

theorem tally_messages (before messages : List Message) :
    messages.foldl (fun x m => tally x (m.bytes.length, .frame m.parts.1 m.parts.2))
        (before.filterMap Message.record, counted before) =
      ((before ++ messages).filterMap Message.record, counted (before ++ messages)) := by
  induction messages generalizing before with
  | nil => rw [List.append_nil, List.foldl_nil]
  | cons m messages ih =>
    rw [List.foldl_cons, tally_message, ih (before ++ [m]), List.append_assoc, List.singleton_append]

theorem drain_messages (messages : List Message) {p : Bytes} (hp : frameParser.next p = none) :
    frameParser.drain tally (messages.flatMap Message.bytes ++ p) ([], counted []) =
      (p, messages.filterMap Message.record, counted messages) := by
  have hsee (m : Message) :
      frameParser.next m.bytes = some (m.bytes.length, .frame m.parts.1 m.parts.2) := by
    have hshort : m.parts.2.length < 255 := m.parts_length.trans (by decide)
    rw [Message.bytes, wireFrame_length]
    exact lookFrame_wireFrame m.parts.1 (by decide) hshort hshort
  rw [frameParser.drain_pieces (fun m _ => hsee m) tally hp]
  exact congrArg (Prod.mk p) (tally_messages [] messages)

/-- Whatever the device sends, and however its bytes are cut into the chunks that `parserLoop` pops:
the gateway has given out the records of the messages that have arrived whole, in order, has counted
each of them and lost no byte, and what is left in its buffer is the beginning of the next one. -/
theorem gateway_hears (clock : ℕ → ℕ → UInt64) (messages : List Message) (chunks : List Bytes)
    (rest : Bytes) (h : chunks.flatten ++ rest = messages.flatMap Message.bytes) :
    (∀ m ∈ messages, m.frame = some m.bytes) ∧
    ∃ k, let w := parserLoop clock 0 chunks ⟨⟨[]⟩, {}, []⟩
      w.records.map untimed = (messages.take k).filterMap Message.record ∧
      w.counters = counted (messages.take k) ∧
      chunks.flatten = (messages.take k).flatMap Message.bytes ++ w.parser.buffer ∧
      (w.parser.buffer = [] ∧ messages.take k = messages ∨
        ∃ m ∈ messages[k]?, w.parser.buffer <+: m.bytes ∧ w.parser.buffer ≠ m.bytes) := by
  refine ⟨fun m _ => m.frame_eq, ?_⟩
  rw [List.flatMap_def] at h
  obtain ⟨k, p, hcut⟩ := FrameStream.exists_cut h
  have hparts : chunks.flatten = (messages.take k).flatMap Message.bytes ++ p := by
    rw [hcut.parts, List.flatMap_def, List.map_take]
  have hbegun : p = [] ∨ ∃ m q, messages[k]? = some m ∧ q ≠ [] ∧ p ++ q = m.bytes := by
    rcases hcut.begun with hp | ⟨b, q, hb, hq, hpq⟩
    · exact Or.inl hp
    · rw [List.getElem?_map] at hb
      obtain ⟨m, hm, rfl⟩ := Option.map_eq_some_iff.mp hb
      exact Or.inr ⟨m, q, hm, hq, hpq⟩
  have hwait : frameParser.next p = none := by
    rcases hbegun with rfl | ⟨m, q, -, hq, hpq⟩
    · exact frameParser.next_nil
    · exact wireFrame_waits (m.parts_length.trans (by decide)) hq hpq
  have hloop := parserLoop_drain clock 0 chunks ⟨⟨[]⟩, {}, []⟩ frameParser.next_nil
  have hdrain := drain_messages (messages.take k) hwait
  rw [← hparts] at hdrain
  have hsame := hloop.trans hdrain
  obtain ⟨hbuffer, hview⟩ := Prod.ext_iff.mp hsame
  obtain ⟨hrecords, hcounters⟩ := Prod.ext_iff.mp hview
  dsimp only at hbuffer hrecords hcounters
  refine ⟨k, hrecords, hcounters, ?_, ?_⟩
  · rw [hbuffer]
    exact hparts
  · rw [hbuffer]
    rcases hbegun with rfl | ⟨m, q, hm, hq, hpq⟩
    · -- nothing has begun: the cut is between two messages, or behind the last one
      cases hm : messages[k]? with
      | none => exact Or.inl ⟨rfl, List.take_of_length_le (List.getElem?_eq_none_iff.mp hm)⟩
      | some m => exact Or.inr ⟨m, rfl, List.nil_prefix, m.bytes_ne_nil.symm⟩
    · refine Or.inr ⟨m, hm, ⟨q, hpq⟩, fun heq => hq ?_⟩
      rw [← hpq] at heq
      exact List.append_cancel_left (heq.symm.trans (List.append_nil p).symm)

/-- An alarm, a confirmation and a heartbeat, of which twelve bytes have come. -/
def someMessages : List Message := [.alarmEvent 1, .appConfirm, .heartbeat]

theorem gateway_hears_cut : ∃ k,
    let w := parserLoop (fun _ _ => 0) 0 [(someMessages.flatMap Message.bytes).take 5,
      ((someMessages.flatMap Message.bytes).drop 5).take 7] ⟨⟨[]⟩, {}, []⟩
    w.records.map untimed = (someMessages.take k).filterMap Message.record ∧
    w.counters = counted (someMessages.take k) :=
  have h := gateway_hears (fun _ _ => 0) someMessages
    [(someMessages.flatMap Message.bytes).take 5,
      ((someMessages.flatMap Message.bytes).drop 5).take 7]
    ((someMessages.flatMap Message.bytes).drop 12) (by decide +kernel)
  h.2.elim fun k hk => ⟨k, hk.1, hk.2.1⟩

/-- Rounding to tenths takes a twentieth; the rest is what the `float`s lose. -/
theorem gwFloatToX10_near (value : ℚ) :
    |((gwFloatToX10 value).toInt : ℚ) / 10 - max (-32768 / 10) (min (32767 / 10) value)| ≤
      1 / 20 + 1 / 2500 := by
  unfold gwFloatToX10
  rw [round32_top, round32_bottom]
  split_ifs with hhigh hlow hpos
  · -- the `float` of the upper limit lies a little below it, that of the lower one beyond
    have hint : Int16.toInt 32767 = 32767 := by decide
    rw [hint]
    rcases le_total (32767 / 10) value with hv | hv
    · rw [min_eq_left hv]
      norm_num
    · rw [min_eq_right hv, max_eq_right (by linarith), abs_le]
      norm_num at hv ⊢
      constructor <;> linarith
  · have hint : Int16.toInt (-32768) = -32768 := by decide
    rw [min_eq_right (by linarith), max_eq_left (by linarith), hint]
    norm_num
  · -- the cast drops less than a whole one from a sum that the rounding has moved a little
    have hbound : |value * 10| ≤ 32769 := abs_le.mpr ⟨by linarith, by linarith⟩
    have hnear := abs_le.mp (round32_add_near (d := 1 / 2) hbound (by norm_num) (by norm_num))
    have hscaled : 0 ≤ round32 (round32 (value * 10) + 1 / 2) :=
      round32_nonneg (add_nonneg (round32_nonneg (mul_nonneg hpos (by norm_num))) (by norm_num))
    set scaled := round32 (round32 (value * 10) + 1 / 2)
    have hle := Int.floor_le scaled
    have hlt := Int.lt_floor_add_one scaled
    have hnonneg : 0 ≤ ⌊scaled⌋ := Int.floor_nonneg.mpr hscaled
    norm_num at hnear
    have htop : ⌊scaled⌋ < 32768 := Int.floor_lt.mpr (by push_cast; linarith)
    rw [min_eq_right (by linarith), max_eq_right (by linarith),
      Int16.toInt_ofInt_of_le (by omega) (by omega), abs_le]
    constructor <;> linarith
  · have hbound : |value * 10| ≤ 32769 := abs_le.mpr ⟨by linarith, by linarith⟩
    have hnear := abs_le.mp (round32_add_near (d := -1 / 2) hbound (by norm_num) (by norm_num))
    have hscaled : round32 (round32 (value * 10) + -1 / 2) ≤ 0 :=
      round32_nonpos (add_nonpos (round32_nonpos (by linarith)) (by norm_num))
    set scaled := round32 (round32 (value * 10) + -1 / 2)
    have hle := Int.le_ceil scaled
    have hlt := Int.ceil_lt_add_one scaled
    norm_num at hnear
    have hbottom : -32769 < ⌈scaled⌉ := Int.lt_ceil.mpr (by push_cast; linarith)
    have htop : ⌈scaled⌉ ≤ 0 := Int.ceil_le.mpr (by push_cast; linarith)
    rw [min_eq_right (by linarith)]
    rcases le_total (-32768 / 10) value with hv | hv
    · rw [max_eq_right hv, Int16.toInt_ofInt_of_le (by omega) (by omega), abs_le]
      constructor <;> linarith
    · have hlast : (-32768 : ℚ) ≤ ⌈scaled⌉ := by exact_mod_cast hbottom
      rw [max_eq_left hv, Int16.toInt_ofInt_of_le (by omega) (by omega), abs_le]
      constructor <;> linarith

theorem gwFloatToU16X10_near (value : ℚ) :
    |((gwFloatToU16X10 value).toNat : ℚ) / 10 - max 0 (min (65535 / 10) value)| ≤
      1 / 20 + 1 / 1250 := by
  unfold gwFloatToU16X10
  dsimp only
  by_cases hlow : value ≤ 0
  · rw [if_pos hlow, min_eq_right (by linarith), max_eq_left hlow]
    norm_num
  rw [if_neg hlow]
  have hpos : 0 ≤ value * 10 := mul_nonneg (not_le.mp hlow).le (by norm_num)
  have hscaled : 0 ≤ round32 (round32 (value * 10) + 1 / 2) :=
    round32_nonneg (add_nonneg (round32_nonneg hpos) (by norm_num))
  have hlarge : 65536 ≤ value * 10 → 65536 ≤ round32 (round32 (value * 10) + 1 / 2) := by
    intro h
    have hfirst := le_round32 (by norm_num) h
    have hsecond := le_round32 (by norm_num) (add_le_add_left hfirst (1 / 2))
    norm_num at hsecond ⊢
    linarith
  have hnear (h : value * 10 ≤ 65536) :=
    abs_le.mp (round32_add_near (d := 1 / 2) (abs_le.mpr ⟨by linarith, h⟩) (by norm_num) (by norm_num))
  set scaled := round32 (round32 (value * 10) + 1 / 2)
  have hle := Int.floor_le scaled
  have hlt := Int.lt_floor_add_one scaled
  by_cases hhigh : 65535 < ⌊scaled⌋
  · have hint : (65535 : UInt16).toNat = 65535 := by decide
    rw [if_pos hhigh, hint]
    rcases le_total (65535 / 10) value with hv | hv
    · rw [min_eq_left hv, max_eq_right (by norm_num)]
      norm_num
    · -- the `float`s may round up to the limit
      have hbig : (65536 : ℚ) ≤ ⌊scaled⌋ := by exact_mod_cast hhigh
      have hclose := hnear (by linarith)
      norm_num at hclose
      rw [min_eq_right hv, max_eq_right (not_le.mp hlow).le, abs_le]
      constructor <;> linarith
  · have hnonneg : 0 ≤ ⌊scaled⌋ := Int.floor_nonneg.mpr hscaled
    have hint : (UInt16.ofInt ⌊scaled⌋).toNat = ⌊scaled⌋.toNat := by
      unfold UInt16.ofInt
      rw [UInt16.toNat_ofNat']
      omega
    have hcast : ((⌊scaled⌋.toNat : ℕ) : ℚ) = ⌊scaled⌋ := by
      exact_mod_cast Int.toNat_of_nonneg hnonneg
    have hsmall : scaled < 65536 := by
      have hfloor : (⌊scaled⌋ : ℚ) ≤ 65535 := by exact_mod_cast not_lt.mp hhigh
      linarith
    have hrange : value * 10 ≤ 65536 := le_of_not_ge fun h => absurd (hlarge h) (not_le.mpr hsmall)
    have hclose := hnear hrange
    norm_num at hclose
    rw [if_neg hhigh, hint, hcast]
    rcases le_total value (65535 / 10) with hv | hv
    · rw [min_eq_right hv, max_eq_right (not_le.mp hlow).le, abs_le]
      constructor <;> linarith
    · have hfloor : (⌊scaled⌋ : ℚ) ≤ 65535 := by exact_mod_cast not_lt.mp hhigh
      rw [min_eq_left hv, max_eq_right (by norm_num), abs_le]
      constructor <;> linarith

theorem tenths (n : ℤ) : ((n * 100 : ℤ) : ℚ) / 1000 = (n : ℚ) / 10 := by
  push_cast
  ring

/-- What the gateway reads out of a report is what the device measured, to within little more than a
twentieth of a degree or percent and held to the range of its field, with its flags and its number. -/
theorem report_near (state : SmartHomeState) (report_seq : UInt32) (now : ℕ → UInt64)
    (counters : ParseCounters) :
    ∃ data, ((⟨sensorFrame state report_seq⟩ : FrameParser).extract now counters).2.1.map untimed =
        [data] ∧
      |(data.temperature : ℚ) / 1000 - max (-32768 / 10) (min (32767 / 10) state.temperature)| ≤
        1 / 20 + 1 / 2500 ∧
      |(data.humidity : ℚ) / 1000 - max 0 (min (65535 / 10) state.humidity)| ≤ 1 / 20 + 1 / 1250 ∧
      data.light = state.light.toNat * 1000 ∧ data.seq = report_seq.toUInt64 ∧
      (data.ledOn = 1 ↔ state.ledOn) ∧ (data.alarmOn = 1 ↔ state.alarmOn) ∧
      (data.sensorValid = 1 ↔ state.sensorValid) ∧ (data.autoMode = 1 ↔ state.mode = .auto) := by
  have hshort : (sensorPayload state report_seq).length < 255 := by simp [sensorPayload]
  have hread := extract_wireFrame FrameType.sensorData.wire now counters hshort
  rw [frameTypeFromWire_wire, parse_report] at hread
  have htemp := gwFloatToX10_near state.temperature
  have hhumi := gwFloatToU16X10_near state.humidity
  refine ⟨reported state report_seq, hread, ?_, ?_, rfl, rfl, ?_, ?_, ?_, ?_⟩
  · rw [reported, tenths]
    exact htemp
  · rw [reported, tenths]
    exact hhumi
  · simp [reported]
  · simp [reported]
  · simp [reported]
  · simp [reported]

end EdgeLink.DeviceLink
