import EdgeLink.Crc
import EdgeLink.SensorData
import EdgeLink.StreamScan

namespace EdgeLink.Gateway
open LittleEndian

inductive Seen
  | dropped
  | crcError
  | frame (wireType : UInt8) (payload : Bytes)
  deriving DecidableEq, Repr

/-- The body of the receive loops, `AA 55 | LEN | TYPE | PAYLOAD | CRC16`. They differ in how much
they want to see before they look, and in the longest LEN they believe. -/
def lookFrame (minSize maxLen : ℕ) (buffer : Bytes) : Option (ℕ × Seen) :=
  if buffer.length < minSize then none
  else if buffer.getD 0 0 ≠ 0xAA ∨ buffer.getD 1 0 ≠ 0x55 then some (1, .dropped)
  else
    let len := (buffer.getD 2 0).toNat
    if len < 1 ∨ maxLen < len then some (1, .dropped)
    else
      let total := 2 + 1 + len + 2
      if buffer.length < total then none
      else if read16 buffer (total - 2) ≠ crc16Modbus ((buffer.drop 2).take (1 + len)) then
        some (total, .crcError)
      else some (total, .frame (buffer.getD 3 0) ((buffer.drop 4).take (len - 1)))

def IsHeader (maxLen : ℕ) (b : Bytes) : Prop :=
  b.getD 0 0 = 0xAA ∧ b.getD 1 0 = 0x55 ∧ 1 ≤ (b.getD 2 0).toNat ∧ (b.getD 2 0).toNat ≤ maxLen

def frameSize (b : Bytes) : ℕ := (b.getD 2 0).toNat + 5

def CrcOk (b : Bytes) : Prop :=
  read16 b (frameSize b - 2) = crc16Modbus ((b.drop 2).take (frameSize b - 4))

def frameOf (b : Bytes) : Seen := .frame (b.getD 3 0) ((b.drop 4).take (frameSize b - 6))

instance (maxLen : ℕ) (b : Bytes) : Decidable (IsHeader maxLen b) := by
  unfold IsHeader
  infer_instance

instance (b : Bytes) : Decidable (CrcOk b) := by
  unfold CrcOk
  infer_instance

theorem lookFrame_eq (minSize maxLen : ℕ) (b : Bytes) : lookFrame minSize maxLen b =
    if b.length < minSize then none
    else if ¬ IsHeader maxLen b then some (1, .dropped)
    else if b.length < frameSize b then none
    else if ¬ CrcOk b then some (frameSize b, .crcError)
    else some (frameSize b, frameOf b) := by
  have hsize : 2 + 1 + (b.getD 2 0).toNat + 2 = frameSize b := by
    unfold frameSize
    omega
  have hcov : 1 + (b.getD 2 0).toNat = frameSize b - 4 := by
    unfold frameSize
    omega
  have hpay : (b.getD 2 0).toNat - 1 = frameSize b - 6 := by
    unfold frameSize
    omega
  unfold lookFrame
  dsimp only
  rw [hsize, hcov, hpay]
  apply if_congr Iff.rfl rfl
  by_cases hhead : b.getD 0 0 ≠ 0xAA ∨ b.getD 1 0 ≠ 0x55
  · rw [if_pos hhead, if_pos]
    intro h
    exact hhead.elim (fun h0 => h0 h.1) (fun h1 => h1 h.2.1)
  rw [if_neg hhead]
  rw [not_or, not_not, not_not] at hhead
  by_cases hlen : (b.getD 2 0).toNat < 1 ∨ maxLen < (b.getD 2 0).toNat
  · rw [if_pos hlen, if_pos]
    intro h
    exact hlen.elim (fun h0 => by have := h.2.2.1; omega) (fun h1 => by have := h.2.2.2; omega)
  · have hheader : IsHeader maxLen b := ⟨hhead.1, hhead.2, by omega, by omega⟩
    rw [if_neg hlen, if_neg (not_not.mpr hheader)]
    rfl

/-- What the loops make of a buffer that they do not wait on. -/
theorem lookFrame_some {minSize maxLen : ℕ} {b : Bytes} {r : ℕ × Seen} :
    lookFrame minSize maxLen b = some r ↔ minSize ≤ b.length ∧
      ((¬ IsHeader maxLen b ∧ r = (1, .dropped)) ∨
        (IsHeader maxLen b ∧ frameSize b ≤ b.length ∧
          r = (frameSize b, if CrcOk b then frameOf b else .crcError))) := by
  rw [lookFrame_eq]
  by_cases hmin : b.length < minSize
  · rw [if_pos hmin]
    simp only [reduceCtorEq, false_iff, not_and]
    intro h
    omega
  rw [if_neg hmin]
  by_cases hhead : IsHeader maxLen b
  · rw [if_neg (not_not.mpr hhead)]
    by_cases hsize : b.length < frameSize b
    · simp [hsize, hhead]
    · rw [if_neg hsize]
      by_cases hcrc : CrcOk b
      · simp [hcrc, hhead, not_lt.mp hmin, not_lt.mp hsize, eq_comm]
      · simp [hcrc, hhead, not_lt.mp hmin, not_lt.mp hsize, eq_comm]
  · simp [hhead, not_lt.mp hmin, eq_comm]

theorem frameSize_pos (b : Bytes) : 0 < frameSize b := Nat.succ_pos _

theorem getD_append_left {b : Bytes} (c : Bytes) {i : ℕ} (h : i < b.length) :
    (b ++ c).getD i 0 = b.getD i 0 := List.getD_append _ _ _ _ h

section Append
variable {b : Bytes} (c : Bytes)

theorem isHeader_append {maxLen : ℕ} (h : 3 ≤ b.length) :
    IsHeader maxLen (b ++ c) ↔ IsHeader maxLen b := by
  unfold IsHeader
  rw [getD_append_left c (by omega), getD_append_left c (by omega), getD_append_left c (by omega)]

theorem frameSize_append (h : 3 ≤ b.length) : frameSize (b ++ c) = frameSize b := by
  unfold frameSize
  rw [getD_append_left c (by omega)]

theorem crcOk_append (h : 3 ≤ b.length) (hsize : frameSize b ≤ b.length) :
    CrcOk (b ++ c) ↔ CrcOk b := by
  have hle : 5 ≤ frameSize b := Nat.le_add_left _ _
  unfold CrcOk read16
  rw [frameSize_append c h, getD_append_left c (by omega), getD_append_left c (by omega),
    List.drop_append_of_le_length (by omega), List.take_append_of_le_length]
  rw [List.length_drop]
  omega

theorem frameOf_append (h : 4 ≤ b.length) (hsize : frameSize b ≤ b.length) :
    frameOf (b ++ c) = frameOf b := by
  unfold frameOf
  rw [frameSize_append c (by omega), getD_append_left c (by omega),
    List.drop_append_of_le_length (by omega), List.take_append_of_le_length]
  rw [List.length_drop]
  omega

end Append

/-- What is seen is settled by bytes that are there. -/
theorem lookFrame_append {minSize maxLen : ℕ} (hmin : 4 ≤ minSize) {b : Bytes} {r : ℕ × Seen}
    (c : Bytes) (h : lookFrame minSize maxLen b = some r) :
    lookFrame minSize maxLen (b ++ c) = some r := by
  rw [lookFrame_some] at h ⊢
  obtain ⟨hlen, hr⟩ := h
  refine ⟨by rw [List.length_append]; omega, ?_⟩
  rw [isHeader_append c (by omega)]
  apply hr.imp_right
  rintro ⟨hhead, hsize, rfl⟩
  rw [frameSize_append c (by omega), frameOf_append c (by omega) hsize]
  simp only [crcOk_append c (by omega) hsize]
  exact ⟨hhead, by rw [List.length_append]; omega, trivial⟩

def frameScanner (minSize maxLen : ℕ) (hmin : 4 ≤ minSize) : Scanner UInt8 Seen where
  next := lookFrame minSize maxLen
  pos := by
    intro b n e h
    obtain ⟨-, ⟨-, hr⟩ | ⟨-, -, hr⟩⟩ := lookFrame_some.mp h
    · have hn : n = 1 := congrArg Prod.fst hr
      omega
    · have hn : n = frameSize b := congrArg Prod.fst hr
      exact hn ▸ frameSize_pos b
  le_length := by
    intro b n e h
    obtain ⟨hlen, ⟨-, hr⟩ | ⟨-, hsize, hr⟩⟩ := lookFrame_some.mp h
    · have hn : n = 1 := congrArg Prod.fst hr
      omega
    · have hn : n = frameSize b := congrArg Prod.fst hr
      omega
  mono := fun c => lookFrame_append hmin c

def kMinFrameSize : ℕ := 2 + 1 + 1 + 2

/-- The gateway believes every LEN that a byte can hold. -/
def frameParser : Scanner UInt8 Seen := frameScanner kMinFrameSize 255 (by decide)

structure ParseCounters where
  receivedFrames : UInt64 := 0
  parsedOk : UInt64 := 0
  crcErrors : UInt64 := 0
  unknownTypes : UInt64 := 0
  droppedBytes : UInt64 := 0
  deriving DecidableEq, Repr

def alarmEventName (code : UInt8) : String :=
  if code = 1 then "alarm_enter"
  else if code = 2 then "alarm_recover"
  else if code = 3 then "sensor_invalid"
  else if code = 4 then "sensor_recovered"
  else "alarm_code"

def flag (status mask : UInt8) : ℤ := if status &&& mask ≠ 0 then 1 else 0

/-- The record of a frame whose payload is long enough for its type. -/
def parsePayload (type : FrameType) (p : Bytes) : Option SensorData :=
  match type with
  | .sensorData =>
    if p.length < 8 then none
    else
      let temperature : ℤ := (read16 p 1).toInt16.toInt * 100
      let humidity : ℤ := (read16 p 3).toNat * 100
      let voltage : ℤ := (read16 p 5).toNat
      let light : ℤ := if 14 ≤ p.length then (read16 p 7).toNat * 1000 else -1000
      let status := if 14 ≤ p.length then p.getD 9 0 else p.getD 7 0
      let seq := if 14 ≤ p.length then read32 p 10
        else if 12 ≤ p.length then read32 p 8 else 0
      some { frameType := type, linkType := "serial", deviceId := p.getD 0 0,
             temperature := temperature, humidity := humidity, voltage := voltage, light := light,
             status := status, seq := seq.toUInt64, ledOn := flag status 0x01,
             alarmOn := flag status 0x02, sensorValid := flag status 0x04,
             autoMode := flag status 0x08,
             payloadSummary := "temp=" ++ toStringDouble temperature ++ ",hum=" ++
               toStringDouble humidity ++ ",voltage=" ++ toStringDouble voltage ++ ",light=" ++
               toStringDouble light }
  | .alarmEvent =>
    if p.length < 2 then none
    else
      some { frameType := type, linkType := "serial", deviceId := p.getD 0 0, status := p.getD 1 0,
             payloadSummary := alarmEventName (p.getD 1 0) ++ "=" ++ toString (p.getD 1 0).toNat }
  | .heartbeat =>
    if p.length < 1 then none
    else some { frameType := type, linkType := "serial", deviceId := p.getD 0 0,
                payloadSummary := "heartbeat" }
  | .commandAck =>
    if p.length < 4 then none
    else
      some { frameType := type, linkType := "serial", deviceId := p.getD 0 0,
             commandId := read16 p 1, commandResult := p.getD 3 0,
             payloadSummary := "cmd_id=" ++ toString (read16 p 1).toNat ++ ",result=" ++
               toString (p.getD 3 0).toNat }
  | .deviceStatus =>
    if p.length < 3 then none
    else
      let online := if p.getD 1 0 > 0 then "1" else "0"
      let minor := if 4 ≤ p.length then "." ++ toString (p.getD 3 0).toNat else ""
      some { frameType := type, linkType := "serial", deviceId := p.getD 0 0, status := p.getD 1 0,
             payloadSummary := "online=" ++ online ++ ",version=" ++
               toString (p.getD 2 0).toNat ++ minor }
  | .reportAck | .unknown => none

def untimed (d : SensorData) : SensorData := { d with timestampUnixMs := 0 }

theorem untimed_parsePayload {type : FrameType} {p : Bytes} {data : SensorData}
    (h : parsePayload type p = some data) : untimed data = data := by
  unfold parsePayload at h
  cases type <;> simp only [reduceCtorEq] at h <;> split_ifs at h <;>
    exact Option.some.inj h ▸ rfl

/-- What `extract` carries along: the records, the counters, and how often it read the clock. -/
structure Extracted where
  out : List SensorData
  counters : ParseCounters
  frames : ℕ

def account (now : ℕ → UInt64) (x : Extracted) (r : ℕ × Seen) : Extracted :=
  let c := x.counters
  match r.2 with
  | .dropped => { x with counters := { c with droppedBytes := c.droppedBytes + 1 } }
  | .crcError =>
    { x with counters := { c with receivedFrames := c.receivedFrames + 1
                                  crcErrors := c.crcErrors + 1
                                  droppedBytes := c.droppedBytes + UInt64.ofNat r.1 } }
  | .frame wireType payload =>
    let type := frameTypeFromWire wireType
    let c := { c with receivedFrames := c.receivedFrames + 1 }
    match parsePayload type payload with
    | some data =>
      ⟨x.out ++ [{ data with timestampUnixMs := now x.frames }],
        { c with parsedOk := c.parsedOk + 1 }, x.frames + 1⟩
    | none =>
      if type = .unknown then
        ⟨x.out, { c with unknownTypes := c.unknownTypes + 1 }, x.frames + 1⟩
      else
        ⟨x.out, { c with droppedBytes := c.droppedBytes + UInt64.ofNat payload.length },
          x.frames + 1⟩

structure FrameParser where
  buffer : Bytes

def FrameParser.append (p : FrameParser) (data : Bytes) : FrameParser := ⟨p.buffer ++ data⟩

/-- `now` gives the readings of the clock during the call. -/
def FrameParser.extract (p : FrameParser) (now : ℕ → UInt64) (counters : ParseCounters) :
    FrameParser × List SensorData × ParseCounters :=
  let r := frameParser.drain (account now) p.buffer ⟨[], counters, 0⟩
  (⟨r.1⟩, r.2.out, r.2.counters)

/-- A parser, the counters it is called with and all the records it has given out. -/
structure Intake where
  parser : FrameParser
  counters : ParseCounters
  records : List SensorData

inductive Feed
  | append (data : Bytes)
  | extract (now : ℕ → UInt64)

def Feed.bytes : Feed → Bytes
  | append data => data
  | extract _ => []

def Intake.feed (w : Intake) : Feed → Intake
  | .append data => { w with parser := w.parser.append data }
  | .extract now =>
    let r := w.parser.extract now w.counters
    ⟨r.1, r.2.2, w.records ++ r.2.1⟩

/-- The accounts without the clock. -/
def tally (y : List SensorData × ParseCounters) (r : ℕ × Seen) : List SensorData × ParseCounters :=
  let x := account (fun _ => 0) ⟨y.1, y.2, 0⟩ r
  (x.out, x.counters)

/-- The clock only shows in the timestamps. -/
theorem account_tally (now : ℕ → UInt64) (before : List SensorData) (x : Extracted)
    (y : List SensorData × ParseCounters) (r : ℕ × Seen)
    (h : y.1 = (before ++ x.out).map untimed ∧ y.2 = x.counters) :
    (tally y r).1 = (before ++ (account now x r).out).map untimed ∧
      (tally y r).2 = (account now x r).counters := by
  obtain ⟨n, e⟩ := r
  unfold tally account
  rw [h.1, h.2]
  cases e with
  | dropped => exact ⟨rfl, rfl⟩
  | crcError => exact ⟨rfl, rfl⟩
  | frame wireType payload =>
    dsimp only
    cases parsePayload (frameTypeFromWire wireType) payload with
    | some data =>
      refine ⟨?_, rfl⟩
      rw [← List.append_assoc, @List.map_append _ _ _ (before ++ x.out), List.map_singleton]
      rfl
    | none =>
      by_cases hu : frameTypeFromWire wireType = .unknown
      · simp only [if_pos hu, and_self]
      · simp only [if_neg hu, and_self]

def Intake.view (w : Intake) : List SensorData × ParseCounters := (w.records.map untimed, w.counters)

theorem feed_extract (w : Intake) (now : ℕ → UInt64) :
    ((w.feed (.extract now)).parser.buffer, (w.feed (.extract now)).view) =
      frameParser.drain tally w.parser.buffer w.view := by
  have hrel := frameParser.drain_rel (f := account now) (g := tally)
    (R := fun x y => y.1 = (w.records ++ x.out).map untimed ∧ y.2 = x.counters)
    (fun x y _ r _ => account_tally now w.records x y r) w.parser.buffer
    (x := ⟨[], w.counters, 0⟩) (y := w.view) ⟨by rw [List.append_nil]; rfl, rfl⟩
  refine Prod.ext hrel.1 (Prod.ext ?_ ?_)
  · exact hrel.2.1.symm
  · exact hrel.2.2.symm

/-- Whatever is read in between, the rest of the loop runs as if nothing had been read yet. -/
theorem drain_feeds (w : Intake) (calls : List Feed) :
    frameParser.drain tally (calls.foldl Intake.feed w).parser.buffer
        (calls.foldl Intake.feed w).view =
      frameParser.drain tally (w.parser.buffer ++ calls.flatMap Feed.bytes) w.view := by
  induction calls generalizing w with
  | nil => rw [List.flatMap_nil, List.append_nil, List.foldl_nil]
  | cons call calls ih =>
    rw [List.foldl_cons, ih, List.flatMap_cons]
    cases call with
    | append data =>
      show frameParser.drain tally ((w.parser.buffer ++ data) ++ _) w.view = _
      rw [List.append_assoc]
      rfl
    | extract now =>
      have hstep := feed_extract w now
      rw [show Feed.bytes (.extract now) = [] from rfl, List.nil_append,
        frameParser.drain_append tally w.parser.buffer, ← hstep]

/-- A stream decodes the same however it is cut and read in between. -/
theorem extract_chunked (w : Intake) (calls : List Feed) (now now' : ℕ → UInt64) :
    let cut := (calls ++ [Feed.extract now]).foldl Intake.feed w
    let whole := [Feed.append (calls.flatMap Feed.bytes), Feed.extract now'].foldl Intake.feed w
    cut.records.map untimed = whole.records.map untimed ∧ cut.counters = whole.counters ∧
      cut.parser.buffer = whole.parser.buffer := by
  intro cut whole
  have hcut : (cut.parser.buffer, cut.view) =
      frameParser.drain tally (w.parser.buffer ++ calls.flatMap Feed.bytes) w.view := by
    rw [← drain_feeds w calls, ← feed_extract _ now]
    simp only [cut, List.foldl_append, List.foldl_cons, List.foldl_nil]
  have hwhole : (whole.parser.buffer, whole.view) =
      frameParser.drain tally (w.parser.buffer ++ calls.flatMap Feed.bytes) w.view := by
    show _ = frameParser.drain tally (w.feed (.append (calls.flatMap Feed.bytes))).parser.buffer
      (w.feed (.append (calls.flatMap Feed.bytes))).view
    rw [← feed_extract _ now']
    rfl
  obtain ⟨hbuffer, hview⟩ := Prod.ext_iff.mp (hcut.trans hwhole.symm)
  obtain ⟨hrecords, hcounters⟩ := Prod.ext_iff.mp hview
  exact ⟨hrecords, hcounters, hbuffer⟩

end EdgeLink.Gateway
