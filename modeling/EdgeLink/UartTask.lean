import EdgeLink.WifiBridge

namespace EdgeLink.Bridge

open LittleEndian Gateway

/-- The two readings of LEN, tried on what has been collected. -/
inductive Tried
  | impossible
  | wait
  | bad
  | good (total : ℕ)
  deriving DecidableEq

def tryLengths (ota_mode_now : Bool) (frame_buf : Bytes) : Tried :=
  let frame_len := frame_buf.length
  let wire_len := (frame_buf.getD 2 0).toNat
  let total_main := 2 + 1 + wire_len + 2
  let total_main_ok : Bool := total_main ≤ MAX_FRAME_SIZE && kMinFrameSize ≤ total_main
  let try_legacy := !ota_mode_now
  let total_legacy := 2 + 1 + 1 + wire_len + 2
  let total_legacy_ok : Bool :=
    try_legacy && (total_legacy ≤ MAX_FRAME_SIZE && kMinFrameSize ≤ total_legacy)
  if !total_main_ok && !total_legacy_ok then .impossible
  else
    let min_total :=
      if total_main_ok && total_legacy_ok then
        if total_main < total_legacy then total_main else total_legacy
      else if total_main_ok then total_main
      else total_legacy
    if frame_len < min_total then .wait
    else if total_main_ok ∧ total_main ≤ frame_len ∧ read16 frame_buf (total_main - 2) =
        crc16Modbus ((frame_buf.drop 2).take (1 + wire_len)) then .good total_main
    else if total_legacy_ok ∧ total_legacy ≤ frame_len ∧ read16 frame_buf (total_legacy - 2) =
        crc16Modbus ((frame_buf.drop 2).take (2 + wire_len)) then .good total_legacy
    -- one more byte may still make it a frame of the other kind
    else if total_main_ok ∧ total_legacy_ok ∧ frame_len < total_legacy then .wait
    else .bad

def nextHeader : Bytes → Bytes
  | a :: b :: rest => if a = kHeader1 ∧ b = kHeader2 then a :: b :: rest else nextHeader (b :: rest)
  | _ => []

/-- What is kept of a frame that failed. -/
def resync (frame_buf : Bytes) : Bytes := nextHeader frame_buf.tail

def crcFailed (now : UInt32) (g : Globals) : Globals :=
  if g.mode = .ota then
    let streak :=
      if !elapsedSince now g.otaLastCrcErrorMs BRIDGE_OTA_CRC_ERROR_STREAK_WINDOW_MS then
        g.otaCrcErrorStreak + 1
      else 1
    let g := { g with otaCrcErrorStreak := streak, otaLastCrcErrorMs := now }
    if BRIDGE_OTA_CRC_ERROR_STREAK_LIMIT ≤ streak then bridgeLeaveOtaMode g else g
  else g

/-- The frame buffer, the bytes read so far, and each frame that was put into the queue, with the
place of its first byte among the bytes read. -/
structure Uart where
  frameBuf : Bytes
  rxBytes : ℕ
  enqueued : List (ℕ × Bytes)

def Uart.empty : Uart := ⟨[], 0, []⟩

/-- The buffer starts with a frame. -/
def frameReady (now : UInt32) (g : Globals) (rx : Uart) (frame_buf : Bytes) (total : ℕ) :
    Globals × Uart :=
  let g := { g with otaCrcErrorStreak := 0, otaLastCrcErrorMs := 0 }
  let frame := frame_buf.take total
  let queued : Uart := ⟨[], rx.rxBytes, rx.enqueued ++ [(rx.rxBytes - frame_buf.length, frame)]⟩
  let lost : Uart := { rx with frameBuf := [] }
  if g.mode = .ota then
    if !isOtaRespType (frame_buf.getD 3 0) then (g, lost)
    else
      match enqueueFrameNoDrop g.frameQ frame with
      | some q => ({ g with frameQ := q }, queued)
      | none => (requestTcpClose (bridgeLeaveOtaMode g), lost)
  else
    let r := enqueueFrameDropOldest g.frameQ frame
    let g := { g with frameQ := r.1 }
    (if FRAME_QUEUE_DEPTH ≤ r.1.packets.length then onQueueOverflow now g else g,
      if r.2 then queued else lost)

/-- One byte from the UART. -/
def uartByte (now : UInt32) (g : Globals) (rx : Uart) (b : UInt8) : Globals × Uart :=
  let rx := { rx with rxBytes := rx.rxBytes + 1 }
  if rx.frameBuf.length = 0 ∧ b ≠ kHeader1 then (g, rx)
  else if rx.frameBuf.length = 1 ∧ b ≠ kHeader2 then (g, { rx with frameBuf := [] })
  else
    let frame_buf := (if MAX_FRAME_SIZE ≤ rx.frameBuf.length then [] else rx.frameBuf) ++ [b]
    if frame_buf.length < 3 then (g, { rx with frameBuf := frame_buf })
    else
      match tryLengths (g.mode = .ota) frame_buf with
      | .impossible => (g, { rx with frameBuf := [] })
      | .wait => (g, { rx with frameBuf := frame_buf })
      | .bad => (crcFailed now g, { rx with frameBuf := resync frame_buf })
      | .good total => frameReady now g rx frame_buf total

inductive Event
  | byte (now : UInt32) (b : UInt8)
  | others (g : Globals)

def uartStep (x : Globals × Uart) : Event → Globals × Uart
  | .byte now b => uartByte now x.1 x.2 b
  | .others g => (g, x.2)

def uartRun (events : List Event) : Globals × Uart := events.foldl uartStep (boot, .empty)

def Event.bytes : Event → Bytes
  | .byte _ b => [b]
  | .others _ => []

def stream (events : List Event) : Bytes := events.flatMap Event.bytes

/-- Nobody turns the OTA mode on. -/
def Normal (events : List Event) : Prop := ∀ g, .others g ∈ events → g.mode = .normal

def normalByte (rx : Uart) (b : UInt8) : Uart :=
  let rx := { rx with rxBytes := rx.rxBytes + 1 }
  if rx.frameBuf.length = 0 ∧ b ≠ kHeader1 then rx
  else if rx.frameBuf.length = 1 ∧ b ≠ kHeader2 then { rx with frameBuf := [] }
  else
    let frame_buf := (if MAX_FRAME_SIZE ≤ rx.frameBuf.length then [] else rx.frameBuf) ++ [b]
    if frame_buf.length < 3 then { rx with frameBuf := frame_buf }
    else
      match tryLengths false frame_buf with
      | .impossible => { rx with frameBuf := [] }
      | .wait => { rx with frameBuf := frame_buf }
      | .bad => { rx with frameBuf := resync frame_buf }
      | .good total =>
        ⟨[], rx.rxBytes, rx.enqueued ++ [(rx.rxBytes - frame_buf.length, frame_buf.take total)]⟩

theorem onQueueOverflow_mode (now : UInt32) (g : Globals) : (onQueueOverflow now g).mode = g.mode := by
  unfold onQueueOverflow
  split_ifs <;> rfl

theorem frameReady_normal {g : Globals} (hg : g.mode = .normal) (now : UInt32) (rx : Uart)
    {frame_buf : Bytes} (hlen : frame_buf.length ≤ MAX_FRAME_SIZE) (total : ℕ) :
    (frameReady now g rx frame_buf total).1.mode = .normal ∧
      (frameReady now g rx frame_buf total).2 =
        ⟨[], rx.rxBytes, rx.enqueued ++ [(rx.rxBytes - frame_buf.length, frame_buf.take total)]⟩ := by
  have hota : ¬g.mode = .ota := by rw [hg]; exact BridgeMode.noConfusion
  have hfits := enqueueFrameDropOldest_fits g.frameQ
    (p := frame_buf.take total) ((List.length_take_le' _ _).trans hlen)
  unfold frameReady
  dsimp only
  rw [if_neg hota, if_pos hfits.1]
  refine ⟨?_, rfl⟩
  split_ifs
  · rw [onQueueOverflow_mode]
    exact hg
  · exact hg

theorem uartByte_normal {g : Globals} (hg : g.mode = .normal) (now : UInt32) (rx : Uart) (b : UInt8) :
    (uartByte now g rx b).1.mode = .normal ∧ (uartByte now g rx b).2 = normalByte rx b := by
  have hota : ¬g.mode = .ota := by rw [hg]; exact BridgeMode.noConfusion
  have hbuf : ((if MAX_FRAME_SIZE ≤ rx.frameBuf.length then [] else rx.frameBuf) ++ [b]).length ≤
      MAX_FRAME_SIZE := by
    unfold MAX_FRAME_SIZE
    rw [List.length_append, List.length_singleton]
    split_ifs with hfull
    · decide
    · omega
  unfold uartByte normalByte
  dsimp only
  rw [decide_eq_false hota]
  generalize (if MAX_FRAME_SIZE ≤ rx.frameBuf.length then [] else rx.frameBuf) ++ [b] =
    frame_buf at hbuf ⊢
  split_ifs
  · exact ⟨hg, rfl⟩
  · exact ⟨hg, rfl⟩
  · exact ⟨hg, rfl⟩
  · cases tryLengths false frame_buf with
    | impossible => exact ⟨hg, rfl⟩
    | wait => exact ⟨hg, rfl⟩
    | bad =>
      unfold crcFailed
      dsimp only
      rw [if_neg hota]
      exact ⟨hg, rfl⟩
    | good total => exact frameReady_normal hg now _ hbuf total

/-- In normal mode the collected frames depend on the bytes alone. -/
theorem uartRun_normal {events : List Event} (h : Normal events) :
    (uartRun events).2 = (stream events).foldl normalByte .empty := by
  suffices hrun : ∀ x : Globals × Uart, x.1.mode = .normal →
      (events.foldl uartStep x).2 = (stream events).foldl normalByte x.2 from hrun _ rfl
  induction events with
  | nil => exact fun x _ => rfl
  | cons event events ih =>
    intro x hx
    have hrest : Normal events := fun g hg => h g (List.mem_cons_of_mem _ hg)
    rw [List.foldl_cons, stream, List.flatMap_cons, List.foldl_append]
    cases event with
    | byte now b =>
      obtain ⟨hmode, hrx⟩ := uartByte_normal hx now x.2 b
      rw [uartStep, ih hrest _ hmode, hrx]
      rfl
    | others g => exact ih hrest _ (h g List.mem_cons_self)

end EdgeLink.Bridge
