import EdgeLink.Binary32
import EdgeLink.CacheFifo
import EdgeLink.WireFrame

namespace EdgeLink.Report
open Binary32 LittleEndian Storage Gateway

/-! A report: the `float`s are the rational numbers that they stand for. -/

def GW_DEVICE_ID : UInt8 := 1
def GW_VOLTAGE_MV_DEFAULT : UInt16 := 3300
def GW_REPORT_ACK_TIMEOUT_MS : UInt32 := 1200
def GW_REPLAY_RETRY_INTERVAL_MS : UInt32 := 1000
def GW_REPLAY_BATCH_MAX : ℕ := 5
abbrev GW_PENDING_QUEUE_SIZE : ℕ := 8
def STORAGE_TASK_QUEUE_LEN : ℕ := 16

inductive SmartHomeMode
  | manual | auto
  deriving DecidableEq, Repr

structure SmartHomeState where
  temperature : ℚ
  humidity : ℚ
  light : UInt16
  ledOn : Bool
  buzzerOn : Bool
  manualLedOn : Bool
  manualBuzzerOn : Bool
  alarmOn : Bool
  mode : SmartHomeMode
  sensorValid : Bool

/-- A cast to an integer type truncates. -/
def gwFloatToX10 (value : ℚ) : Int16 :=
  if round32 (32767 / 10) < value then 32767
  else if value < -round32 (32768 / 10) then -32768
  else if 0 ≤ value then Int16.ofInt ⌊round32 (round32 (value * 10) + 1 / 2)⌋
  else Int16.ofInt ⌈round32 (round32 (value * 10) + -1 / 2)⌉

def gwFloatToU16X10 (value : ℚ) : UInt16 :=
  if value ≤ 0 then 0
  else
    let scaled := ⌊round32 (round32 (value * 10) + 1 / 2)⌋
    if 65535 < scaled then 65535 else UInt16.ofInt scaled

theorem round32_top : round32 (32767 / 10) = 13421363 / 4096 := by decide +kernel

theorem round32_bottom : round32 (32768 / 10) = 13421773 / 4096 := by decide +kernel

example : gwFloatToX10 (round32 (35 / 100)) = 4 ∧ gwFloatToU16X10 (round32 (45 / 100)) = 5 := by
  decide +kernel

def statusBits (state : SmartHomeState) : UInt8 :=
  (if state.ledOn then 0x01 else 0) ||| (if state.alarmOn then 0x02 else 0) |||
    (if state.sensorValid then 0x04 else 0) ||| (if state.mode = .auto then 0x08 else 0)

def sensorPayload (state : SmartHomeState) (report_seq : UInt32) : Bytes :=
  GW_DEVICE_ID :: bytes16 (gwFloatToX10 state.temperature).toUInt16 ++
    bytes16 (gwFloatToU16X10 state.humidity) ++ bytes16 GW_VOLTAGE_MV_DEFAULT ++
    bytes16 state.light ++ [statusBits state] ++ bytes32 report_seq

def sensorFrame (state : SmartHomeState) (report_seq : UInt32) : Bytes :=
  wireFrame FrameType.sensorData.wire (sensorPayload state report_seq)

def isSensorFrame (frame : Bytes) : Bool :=
  20 ≤ frame.length ∧ frame.getD 0 0 = 0xAA ∧ frame.getD 1 0 = 0x55 ∧
    frame.getD 3 0 = FrameType.sensorData.wire

def gwFrameExtractReportSeq (frame : Bytes) : Option UInt32 :=
  if ¬ isSensorFrame frame ∨ frame.getD 2 0 < 15 then none else some (read32 frame 14)

def gwSensorPayloadIsAbnormal (payload : Bytes) : Bool :=
  10 ≤ payload.length ∧ (payload.getD 9 0 &&& 0x02 ≠ 0 ∨ payload.getD 9 0 &&& 0x04 = 0)

def gwSensorFrameIsAbnormal (frame : Bytes) : Bool :=
  isSensorFrame frame ∧
    gwSensorPayloadIsAbnormal ((frame.drop 4).take (frame.getD 2 0 - 1).toNat)

structure PendingReport where
  fromReplay : Bool
  cacheSeq : UInt32
  reportSeq : UInt32
  frame : Bytes
  sentMs : UInt32
  deriving DecidableEq, Repr

abbrev PendingReports := Fin GW_PENDING_QUEUE_SIZE → Option PendingReport

def gwPendingFindBySeq (p : PendingReports) (report_seq : UInt32) :
    Option (Fin GW_PENDING_QUEUE_SIZE) :=
  Fin.find? fun i => (p i).any (·.reportSeq = report_seq)

def gwPendingFindReplayCacheSeq (p : PendingReports) (cache_seq : UInt32) :
    Option (Fin GW_PENDING_QUEUE_SIZE) :=
  Fin.find? fun i => (p i).any fun slot => slot.fromReplay && slot.cacheSeq = cache_seq

def gwPendingAllocSlot (p : PendingReports) : Option (Fin GW_PENDING_QUEUE_SIZE) :=
  Fin.find? fun i => (p i).isNone

def gwPendingEnqueue (p : PendingReports) (slot : PendingReport) : Option PendingReports :=
  match gwPendingAllocSlot p with
  | none => none
  | some i =>
    if slot.frame = [] ∨ GW_TX_FRAME_MAX_SIZE < slot.frame.length then none
    else some (Function.update p i (some slot))

/-- The gateway task of the device, with the storage that it uses. -/
structure GwTask where
  pending : PendingReports
  reportSeq : UInt32
  replayLastTryMs : UInt32
  storage : StorageCtx
  /-- records that the storage task has not written yet -/
  cacheQueue : List Bytes
  /-- places of its queue that event and fault texts take -/
  texts : ℕ

def GwTask.waiting (t : GwTask) : ℕ := t.cacheQueue.length + t.texts

def storageWriteCache (t : GwTask) (payload : Bytes) : GwTask :=
  if payload = [] ∨ STORAGE_MAX_PAYLOAD_LEN < payload.length ∨
      STORAGE_TASK_QUEUE_LEN ≤ t.waiting then t
  else { t with cacheQueue := t.cacheQueue ++ [payload] }

def gwTryCacheAbnormalSnapshot (t : GwTask) (frame : Bytes) : GwTask :=
  if ¬ gwSensorFrameIsAbnormal frame then t
  else if t.storage.cacheBacklog ≠ 0 then t
  else storageWriteCache t frame

def gwPendingClear (t : GwTask) (i : Fin GW_PENDING_QUEUE_SIZE) : GwTask :=
  { t with pending := Function.update t.pending i none }

def gwPendingHandleTimeout (t : GwTask) (i : Fin GW_PENDING_QUEUE_SIZE) (slot : PendingReport) :
    GwTask :=
  gwPendingClear (if slot.fromReplay then t else gwTryCacheAbnormalSnapshot t slot.frame) i

def gwPendingScanSlot (now_ms : UInt32) (t : GwTask) (i : Fin GW_PENDING_QUEUE_SIZE) : GwTask :=
  match t.pending i with
  | none => t
  | some slot =>
    if GW_REPORT_ACK_TIMEOUT_MS < now_ms - slot.sentMs then gwPendingHandleTimeout t i slot else t

def gwPendingScanTimeout (t : GwTask) (now_ms : UInt32) : GwTask :=
  (List.finRange GW_PENDING_QUEUE_SIZE).foldl (gwPendingScanSlot now_ms) t

def gwProcessReportAck (t : GwTask) (payload : Bytes) : GwTask :=
  if payload.length < 5 then t
  else
    match gwPendingFindBySeq t.pending (read32 payload 1) with
    | none => t
    | some i =>
      match t.pending i with
      | none => t
      | some slot =>
        gwPendingClear
          (if slot.fromReplay then
            { t with storage := (storageMarkCacheAck t.storage slot.cacheSeq).1 }
          else t) i

/-- The replay loop. `uart` tells whether a frame gets out. -/
def replayRounds (now_ms : UInt32) (uart : Bool) : ℕ → GwTask → List Bytes → GwTask × List Bytes
  | 0, t, sent => (t, sent)
  | n + 1, t, sent =>
    if gwPendingAllocSlot t.pending = none then (t, sent)
    else
      match storagePeekCache t.storage with
      | (s, none) => ({ t with storage := s }, sent)
      | (s, some rec) =>
        let t := { t with storage := s }
        if (gwPendingFindReplayCacheSeq t.pending rec.seq).isSome then (t, sent)
        else
          match gwFrameExtractReportSeq rec.payload with
          | none =>
            replayRounds now_ms uart n
              { t with storage := (storageMarkCacheAck t.storage rec.seq).1 } sent
          | some report_seq =>
            if ¬ uart then (t, sent)
            else
              match gwPendingEnqueue t.pending ⟨true, rec.seq, report_seq, rec.payload, now_ms⟩ with
              | none => (t, sent ++ [rec.payload])
              | some p => replayRounds now_ms uart n { t with pending := p } (sent ++ [rec.payload])

def gwTryReplayCache (t : GwTask) (now_ms : UInt32) (uart : Bool) : GwTask × List Bytes :=
  if t.storage.cacheBacklog = 0 then (t, [])
  else if now_ms - t.replayLastTryMs < GW_REPLAY_RETRY_INTERVAL_MS then (t, [])
  else replayRounds now_ms uart GW_REPLAY_BATCH_MAX { t with replayLastTryMs := now_ms } []

/-- The frame is on the wire if `uart` says so. -/
def gwSendSensorData (t : GwTask) (state : SmartHomeState) (now_ms : UInt32) (uart : Bool) :
    GwTask × Option Bytes :=
  let seq := t.reportSeq + 1
  let frame := sensorFrame state seq
  let t := gwPendingScanTimeout { t with reportSeq := seq } now_ms
  if ¬ uart then (gwTryCacheAbnormalSnapshot t frame, none)
  else
    match gwPendingEnqueue t.pending ⟨false, 0, seq, frame, now_ms⟩ with
    | none => (gwTryCacheAbnormalSnapshot t frame, some frame)
    | some p => ({ t with pending := p }, some frame)

end EdgeLink.Report
