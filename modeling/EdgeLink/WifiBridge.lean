import EdgeLink.FrameParser

namespace EdgeLink.Bridge

open LittleEndian

/-! What the tasks of the communication adapter share. -/

def MAX_FRAME_SIZE : ℕ := 256
def FRAME_QUEUE_DEPTH : ℕ := 32
def kMinFrameSize : ℕ := 6
def kHeader1 : UInt8 := 0xAA
def kHeader2 : UInt8 := 0x55
def kTypeAdapterControl : UInt8 := 0x7D
def kCmdEnterOtaMode : UInt8 := 0x01
def kCmdLeaveOtaMode : UInt8 := 0x02
def BRIDGE_OTA_DEFAULT_TIMEOUT_MS : UInt32 := 120000
def BRIDGE_TCP_RX_PARTIAL_TIMEOUT_MS : UInt32 := 200
def BRIDGE_OTA_CRC_ERROR_STREAK_LIMIT : UInt32 := 3
def BRIDGE_OTA_CRC_ERROR_STREAK_WINDOW_MS : UInt32 := 1500
def BRIDGE_QUEUE_OVERFLOW_CLOSE_INTERVAL_MS : UInt32 := 1000

inductive BridgeMode
  | normal
  | ota
  deriving DecidableEq

/-- A queue of the operating system takes no more than its depth. -/
structure FrameQueue where
  packets : List Bytes
  fits : packets.length ≤ FRAME_QUEUE_DEPTH

def FrameQueue.empty : FrameQueue := ⟨[], Nat.zero_le _⟩

structure Globals where
  mode : BridgeMode
  otaSessionId : UInt32
  otaDeadlineMs : UInt32
  otaCrcErrorStreak : UInt32
  otaLastCrcErrorMs : UInt32
  frameQ : FrameQueue
  tcpCloseRequested : Bool
  lastQueueOverflowCloseMs : UInt32

def boot : Globals := ⟨.normal, 0, 0, 0, 0, .empty, false, 0⟩

def elapsedSince (now since interval_ms : UInt32) : Bool := interval_ms ≤ now - since

def isOtaCmdType (type : UInt8) : Bool := 0x31 ≤ type && type ≤ 0x36

def isOtaRespType (type : UInt8) : Bool := type == 0x20 || type == 0x22 || type == 0x23

def requestTcpClose (g : Globals) : Globals := { g with tcpCloseRequested := true }

def onQueueOverflow (now : UInt32) (g : Globals) : Globals :=
  if elapsedSince now g.lastQueueOverflowCloseMs BRIDGE_QUEUE_OVERFLOW_CLOSE_INTERVAL_MS then
    requestTcpClose { g with lastQueueOverflowCloseMs := now }
  else g

def bridgeEnterOtaMode (now : UInt32) (g : Globals) (session_id timeout_ms : UInt32) : Globals :=
  let effective_timeout := if timeout_ms > 0 then timeout_ms else BRIDGE_OTA_DEFAULT_TIMEOUT_MS
  { g with
    mode := .ota
    otaSessionId := session_id
    otaDeadlineMs := now + effective_timeout
    otaCrcErrorStreak := 0
    otaLastCrcErrorMs := 0 }

def bridgeLeaveOtaMode (g : Globals) : Globals :=
  { g with
    mode := .normal
    otaSessionId := 0
    otaDeadlineMs := 0
    otaCrcErrorStreak := 0
    otaLastCrcErrorMs := 0 }

/-- The globals after a control frame that was carried out. -/
def handleAdapterControlFrame (now : UInt32) (g : Globals) (frame : Bytes) : Option Globals :=
  if frame.length < 2 + 1 + 1 + (1 + 4 + 4) + 2 then none
  else
    let cmd := frame.getD 4 0
    if cmd = kCmdEnterOtaMode then some (bridgeEnterOtaMode now g (read32 frame 5) (read32 frame 9))
    else if cmd = kCmdLeaveOtaMode then some (bridgeLeaveOtaMode g)
    else none

def xQueueSend (q : FrameQueue) (pkt : Bytes) : Option FrameQueue :=
  if h : q.packets.length < FRAME_QUEUE_DEPTH then
    some ⟨q.packets ++ [pkt], by rw [List.length_append]; exact h⟩
  else none

def xQueueReceive (q : FrameQueue) : FrameQueue :=
  ⟨q.packets.tail, le_trans (by rw [List.length_tail]; exact Nat.sub_le _ _) q.fits⟩

/-- The queue, and whether the frame stands at its end. -/
def enqueueFrameDropOldest (q : FrameQueue) (p : Bytes) : FrameQueue × Bool :=
  if MAX_FRAME_SIZE < p.length then (q, false)
  else
    match xQueueSend q p with
    | some q => (q, true)
    | none =>
      match xQueueSend (xQueueReceive q) p with
      | some q => (q, true)
      | none => (xQueueReceive q, false)

def enqueueFrameNoDrop (q : FrameQueue) (p : Bytes) : Option FrameQueue :=
  if MAX_FRAME_SIZE < p.length then none else xQueueSend q p

theorem enqueueFrameDropOldest_fits (q : FrameQueue) {p : Bytes} (h : p.length ≤ MAX_FRAME_SIZE) :
    (enqueueFrameDropOldest q p).2 = true ∧
      (enqueueFrameDropOldest q p).1.packets =
        (if q.packets.length < FRAME_QUEUE_DEPTH then q.packets else q.packets.tail) ++ [p] := by
  unfold enqueueFrameDropOldest xQueueSend
  rw [if_neg (not_lt.mpr h)]
  by_cases hroom : q.packets.length < FRAME_QUEUE_DEPTH
  · rw [dif_pos hroom, if_pos hroom]
    exact ⟨rfl, rfl⟩
  · have htail : (xQueueReceive q).packets.length < FRAME_QUEUE_DEPTH := by
      have hfits := q.fits
      unfold FRAME_QUEUE_DEPTH at *
      unfold xQueueReceive
      rw [List.length_tail]
      omega
    rw [dif_neg hroom, dif_pos htail, if_neg hroom]
    exact ⟨rfl, rfl⟩

end EdgeLink.Bridge
