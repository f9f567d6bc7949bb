import EdgeLink.BridgeResync

namespace EdgeLink.Bridge

open LittleEndian Gateway

/-- What is taken from the input at once: bytes that are passed on, the start of a frame that has
waited too long, or a whole frame, with the globals that it finds. -/
inductive Piece
  | raw (bytes : Bytes)
  | late (since now : UInt32) (bytes : Bytes)
  | frame (g : Globals) (bytes : Bytes)

def Piece.bytes : Piece → Bytes
  | .raw bytes | .late _ _ bytes | .frame _ bytes => bytes

/-- The buffer, what was written to the UART, and the pieces it came from. -/
structure Pump where
  g : Globals
  tcpInBuf : Bytes
  lastTcpRxMs : UInt32
  uart : Bytes
  seen : List Piece

def Pump.empty : Pump := ⟨boot, [], 0, [], []⟩

def flushTcpBufferToUart (p : Pump) (piece : Bytes → Piece) : Pump :=
  { p with uart := p.uart ++ p.tcpInBuf, tcpInBuf := [], seen := p.seen ++ [piece p.tcpInBuf] }

/-- The start of a call. -/
def pumpCall (now : UInt32) (p : Pump) : Pump :=
  if 0 < p.tcpInBuf.length ∧ elapsedSince now p.lastTcpRxMs BRIDGE_TCP_RX_PARTIAL_TIMEOUT_MS then
    flushTcpBufferToUart p (.late p.lastTcpRxMs now)
  else p

/-- The buffer starts with a frame of `total` bytes. -/
def pumpFrame (ctl_ms : UInt32) (p : Pump) (total : ℕ) : Pump :=
  let frame := p.tcpInBuf.take total
  let dropped : Pump := { p with tcpInBuf := [], seen := p.seen ++ [.frame p.g frame] }
  let type := p.tcpInBuf.getD 3 0
  match if type = kTypeAdapterControl then handleAdapterControlFrame ctl_ms p.g frame else none with
  | some g => { dropped with g := g }
  | none =>
    if p.g.mode = .ota ∧ !isOtaCmdType type then dropped
    else { dropped with uart := p.uart ++ frame }

/-- One byte from the gateway. The second reading of LEN is a matter of the build. -/
def pumpByte (legacy_len_compat : Bool) (rx_ms ctl_ms : UInt32) (ub : UInt8) (p : Pump) : Pump :=
  let p := { p with lastTcpRxMs := rx_ms }
  if p.tcpInBuf.length = 0 ∧ ub ≠ kHeader1 then
    { p with uart := p.uart ++ [ub], seen := p.seen ++ [.raw [ub]] }
  else if p.tcpInBuf.length = 1 ∧ ub ≠ kHeader2 then
    flushTcpBufferToUart { p with tcpInBuf := p.tcpInBuf ++ [ub] } .raw
  else
    let p := if MAX_FRAME_SIZE ≤ p.tcpInBuf.length then flushTcpBufferToUart p .raw else p
    let p := { p with tcpInBuf := p.tcpInBuf ++ [ub] }
    let tcp_in_len := p.tcpInBuf.length
    if tcp_in_len < 3 then p
    else
      let wire_len := (p.tcpInBuf.getD 2 0).toNat
      let total_main := 2 + 1 + wire_len + 2
      let total_main_ok : Bool := total_main ≤ MAX_FRAME_SIZE && kMinFrameSize ≤ total_main
      let total_legacy := 2 + 1 + 1 + wire_len + 2
      let total_legacy_ok : Bool := legacy_len_compat &&
        (total_legacy ≤ MAX_FRAME_SIZE && kMinFrameSize ≤ total_legacy)
      if !total_main_ok && !total_legacy_ok then flushTcpBufferToUart p .raw
      else if tcp_in_len < total_main then p
      else if total_main_ok ∧ total_main ≤ tcp_in_len ∧ read16 p.tcpInBuf (total_main - 2) =
          crc16Modbus ((p.tcpInBuf.drop 2).take (1 + wire_len)) then pumpFrame ctl_ms p total_main
      else if total_legacy_ok ∧ total_legacy ≤ tcp_in_len ∧ read16 p.tcpInBuf (total_legacy - 2) =
          crc16Modbus ((p.tcpInBuf.drop 2).take (2 + wire_len)) then pumpFrame ctl_ms p total_legacy
      else flushTcpBufferToUart p .raw

inductive PumpEvent
  | call (now : UInt32)
  | byte (rx_ms ctl_ms : UInt32) (ub : UInt8)
  | others (g : Globals)

def pumpStep (legacy_len_compat : Bool) (p : Pump) : PumpEvent → Pump
  | .call now => pumpCall now p
  | .byte rx_ms ctl_ms ub => pumpByte legacy_len_compat rx_ms ctl_ms ub p
  | .others g => { p with g := g }

def pumpRun (legacy_len_compat : Bool) (events : List PumpEvent) : Pump :=
  events.foldl (pumpStep legacy_len_compat) .empty

def PumpEvent.bytes : PumpEvent → Bytes
  | .byte _ _ ub => [ub]
  | .call _ | .others _ => []

/-- A control frame that changes or refreshes the mode, or, in OTA mode, a frame of another type
than the OTA commands. -/
def Consumed (g : Globals) (frame : Bytes) : Prop :=
  (frame.getD 3 0 = kTypeAdapterControl ∧ (handleAdapterControlFrame 0 g frame).isSome) ∨
    (g.mode = .ota ∧ ¬isOtaCmdType (frame.getD 3 0))

instance (g : Globals) (frame : Bytes) : Decidable (Consumed g frame) :=
  inferInstanceAs (Decidable (_ ∨ _))

def Piece.out : Piece → Bytes
  | .raw bytes | .late _ _ bytes => bytes
  | .frame g bytes => if Consumed g bytes then [] else bytes

def WholeFrame (b : Bytes) : Prop :=
  PairAt b 0 = true ∧ MainFrame b ∧ frameSize b = b.length

/-- No whole frame starts like bytes that are passed on, and a frame is whole. -/
def Piece.Ok : Piece → Prop
  | .raw bytes => ∀ frame, WholeFrame frame → ¬bytes <+: frame
  | .late since now _ => elapsedSince now since BRIDGE_TCP_RX_PARTIAL_TIMEOUT_MS = true
  | .frame _ bytes => WholeFrame bytes

/-- The buffer holds the start of what may become a frame. -/
def Partial (b : Bytes) : Prop :=
  (b.length ≤ 2 ∨ (b.length < frameSize b ∧ frameSize b ≤ MAX_FRAME_SIZE)) ∧
    (1 ≤ b.length → b.getD 0 0 = kHeader1) ∧ (2 ≤ b.length → b.getD 1 0 = kHeader2)

structure Sound (p : Pump) (input : Bytes) : Prop where
  cut : p.seen.flatMap Piece.bytes ++ p.tcpInBuf = input
  out : p.seen.flatMap Piece.out = p.uart
  ok : ∀ piece ∈ p.seen, piece.Ok
  start : Partial p.tcpInBuf

theorem partial_nil : Partial [] :=
  ⟨Or.inl (Nat.zero_le _), fun h => absurd h (by decide), fun h => absurd h (by decide)⟩

theorem Partial.short {b : Bytes} (h : Partial b) : b.length < MAX_FRAME_SIZE := by
  rcases h.1 with h | h
  · exact Nat.lt_of_le_of_lt h (by decide)
  · exact h.1.trans_le h.2

/-- A piece ends. -/
theorem Sound.close {p p' : Pump} {input extra : Bytes} (h : Sound p input) (piece : Piece)
    (hbytes : piece.bytes = p.tcpInBuf ++ extra) (hok : piece.Ok) (hbuf : p'.tcpInBuf = [])
    (huart : p'.uart = p.uart ++ piece.out) (hseen : p'.seen = p.seen ++ [piece]) :
    Sound p' (input ++ extra) where
  cut := by
    rw [hseen, hbuf, List.flatMap_append, List.flatMap_singleton, hbytes, ← h.cut,
      List.append_nil, List.append_assoc]
  out := by rw [hseen, huart, List.flatMap_append, List.flatMap_singleton, h.out]
  ok := by
    intro q hq
    rw [hseen, List.mem_append, List.mem_singleton] at hq
    rcases hq with hq | rfl
    · exact h.ok q hq
    · exact hok
  start := hbuf ▸ partial_nil

-- noise, the control frame that turns the OTA mode on, a heartbeat, and the start of a command
example : (pumpRun false (([0x01, 0xAA, 0x02] ++
    [0xAA, 0x55, 0x0A, 0x7D, 0x01, 0x07, 0x00, 0x00, 0x00, 0x10, 0x27, 0x00, 0x00, 0x4C, 0x50] ++
    [0xAA, 0x55, 0x02, 0x03, 0x03, 0x90, 0xF1] ++ [0xAA, 0x55, 0x01, 0x31] : Bytes).map
      (.byte 0 0))).uart = [0x01, 0xAA, 0x02] := by decide +kernel

end EdgeLink.Bridge
