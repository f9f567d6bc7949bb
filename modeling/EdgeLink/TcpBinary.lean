import EdgeLink.Resync

namespace EdgeLink.TcpBinary

open Gateway LittleEndian

inductive Cut
  | dropped
  | frame (bytes : Bytes)

def lookPending (pending : Bytes) : Option (ℕ × Cut) :=
  if pending.length < 6 then none
  else if pending.getD 0 0 ≠ 0xAA ∨ pending.getD 1 0 ≠ 0x55 then some (1, .dropped)
  else
    let len := (pending.getD 2 0).toNat
    let total := 2 + 1 + len + 2
    if pending.length < total then none
    else
      let frame := pending.take total
      if read16 frame (total - 2) ≠ crc16Modbus ((frame.drop 2).take (1 + len)) then
        some (1, .dropped)
      else some (total, .frame frame)

def isBootloaderUplinkType (type : UInt8) : Bool := 0x20 ≤ type && type ≤ 0x27

/-- What other threads and the clock show while a frame is dealt with. -/
structure Env where
  nowMs : UInt64
  clock : ℕ → UInt64
  muted : UInt8 → Bool
  bound : Option UInt8
  queueOpen : Bool

/-- The device behind the socket, as far as it is known. -/
structure Peer where
  lastHbMs : UInt64
  lastDevice : UInt8
  hasDevice : Bool
  deriving DecidableEq

structure Session where
  parser : FrameParser
  peer : Peer

/-- What was done with a frame: for a parsed one the records that were queued and the
acknowledgements that were sent. -/
inductive Handled
  | keepAlive
  | otaUplink (device : UInt8)
  | muted
  | parsed (queued : List SensorData) (acks : List (UInt8 × UInt32))
  deriving DecidableEq

def reportAck (data : SensorData) : List (UInt8 × UInt32) :=
  if data.frameType = .sensorData ∧ data.seq > 0 then [(data.deviceId, data.seq.toUInt32)] else []

/-- The records of a frame, until the queue takes no more. -/
def takeItems (env : Env) : Peer → List SensorData → Peer × Handled
  | peer, [] => (peer, .parsed [] [])
  | peer, data :: items =>
    if env.muted data.deviceId then takeItems env peer items
    else
      let data := { data with linkType := "tcp_binary" }
      let peer := { peer with lastDevice := data.deviceId, hasDevice := true }
      if env.queueOpen then
        match takeItems env peer items with
        | (peer, .parsed queued acks) => (peer, .parsed (data :: queued) (reportAck data ++ acks))
        | r => r
      else (peer, .parsed [] (reportAck data))

def dispatch (env : Env) (s : Session) (frame : Bytes) : Session × Handled :=
  let type := frame.getD 3 0
  let alive := { s.peer with lastHbMs := env.nowMs }
  if type = 0x7E then ({ s with peer := alive }, .keepAlive)
  else if type = 0x7D then ({ s with peer := alive }, .keepAlive)
  else
    let device := if s.peer.hasDevice then some s.peer.lastDevice else env.bound
    match if isBootloaderUplinkType type then device else none with
    | some ota_device =>
      ({ s with peer := { alive with lastDevice := ota_device, hasDevice := true } },
        .otaUplink ota_device)
    | none =>
      if s.peer.hasDevice ∧ env.muted s.peer.lastDevice then (s, .muted)
      else
        let r := (s.parser.append frame).extract env.clock {}
        let t := takeItems env alive r.2.1
        (⟨r.1, t.1⟩, t.2)

/-- The bytes that wait, the session behind them, and what was dispatched so far. The surroundings
are told apart by the number of frames dispatched before. -/
structure Conn where
  pending : Bytes
  session : Session
  handled : List (Bytes × Handled)

def splitStep (env : ℕ → Env) (x : Session × List (Bytes × Handled)) (r : ℕ × Cut) :
    Session × List (Bytes × Handled) :=
  match r.2 with
  | .dropped => x
  | .frame frame =>
    let d := dispatch (env x.2.length) x.1 frame
    (d.1, x.2 ++ [(frame, d.2)])

def opened (now_ms : UInt64) : Conn := ⟨[], ⟨⟨[]⟩, ⟨now_ms, 0, false⟩⟩, []⟩

def IsStart (b : Bytes) : Prop := b.getD 0 0 = 0xAA ∧ b.getD 1 0 = 0x55

instance (b : Bytes) : Decidable (IsStart b) := inferInstanceAs (Decidable (_ ∧ _))

def span (b : Bytes) : Bytes := b.take (frameSize b)

theorem crcOk_span (b : Bytes) :
    read16 (span b) (frameSize b - 2) = crc16Modbus (((span b).drop 2).take (frameSize b - 4)) ↔
      CrcOk b := by
  have hsize : 5 ≤ frameSize b := Nat.le_add_left _ _
  have hget (i : ℕ) (hi : i < frameSize b) : (span b).getD i 0 = b.getD i 0 := by
    rw [span, List.getD_eq_getElem?_getD, List.getElem?_take_of_lt hi, List.getD_eq_getElem?_getD]
  have hdrop : ((span b).drop 2).take (frameSize b - 4) = (b.drop 2).take (frameSize b - 4) := by
    rw [span, List.drop_take, List.take_take, min_eq_left (by omega)]
  unfold CrcOk read16
  rw [hget _ (by omega), hget _ (by omega), hdrop]

theorem lookPending_eq (b : Bytes) : lookPending b =
    if b.length < 6 then none
    else if ¬IsStart b then some (1, .dropped)
    else if b.length < frameSize b then none
    else if ¬CrcOk b then some (1, .dropped)
    else some (frameSize b, .frame (span b)) := by
  have hsize : 2 + 1 + (b.getD 2 0).toNat + 2 = frameSize b := by
    unfold frameSize
    omega
  have hcov : 1 + (b.getD 2 0).toNat = frameSize b - 4 := by
    unfold frameSize
    omega
  unfold lookPending
  dsimp only
  rw [hsize, hcov]
  refine if_congr Iff.rfl rfl (if_congr ?_ rfl ?_)
  · unfold IsStart
    tauto
  · by_cases hlen : b.length < frameSize b
    · rw [if_pos hlen, if_pos hlen]
    · rw [if_neg hlen, if_neg hlen]
      exact if_congr (not_congr (crcOk_span b)) rfl rfl

theorem lookPending_some {b : Bytes} {r : ℕ × Cut} : lookPending b = some r ↔ 6 ≤ b.length ∧
    ((¬IsStart b ∧ r = (1, .dropped)) ∨
      (IsStart b ∧ frameSize b ≤ b.length ∧
        r = if CrcOk b then (frameSize b, .frame (span b)) else (1, .dropped))) := by
  rw [lookPending_eq]
  by_cases hmin : b.length < 6
  · rw [if_pos hmin]
    simp only [reduceCtorEq, false_iff, not_and]
    omega
  rw [if_neg hmin]
  by_cases hstart : IsStart b
  · by_cases hsize : b.length < frameSize b
    · simp [hsize, hstart]
    · by_cases hcrc : CrcOk b <;>
        simp [hcrc, hstart, not_lt.mp hmin, not_lt.mp hsize, eq_comm]
  · simp [hstart, not_lt.mp hmin, eq_comm]

theorem lookPending_append {b : Bytes} {r : ℕ × Cut} (c : Bytes) (h : lookPending b = some r) :
    lookPending (b ++ c) = some r := by
  rw [lookPending_some] at h ⊢
  obtain ⟨hlen, hr⟩ := h
  have hstart : IsStart (b ++ c) ↔ IsStart b := by
    unfold IsStart
    rw [getD_append_left c (by omega), getD_append_left c (by omega)]
  refine ⟨by rw [List.length_append]; omega, ?_⟩
  rw [hstart]
  apply hr.imp_right
  rintro ⟨hs, hsize, rfl⟩
  have hspan : span (b ++ c) = span b := by
    rw [span, span, frameSize_append c (by omega), List.take_append_of_le_length hsize]
  rw [frameSize_append c (by omega), hspan]
  simp only [crcOk_append c (by omega) hsize]
  exact ⟨hs, by rw [List.length_append]; omega, trivial⟩

def splitter : Scanner UInt8 Cut where
  next := lookPending
  pos := by
    intro b n e h
    obtain ⟨-, ⟨-, hr⟩ | ⟨-, -, hr⟩⟩ := lookPending_some.mp h
    · have hn : n = 1 := congrArg Prod.fst hr
      omega
    · split_ifs at hr
      · have hn : n = frameSize b := congrArg Prod.fst hr
        exact hn ▸ frameSize_pos b
      · have hn : n = 1 := congrArg Prod.fst hr
        omega
  le_length := by
    intro b n e h
    obtain ⟨hlen, ⟨-, hr⟩ | ⟨-, hsize, hr⟩⟩ := lookPending_some.mp h
    · have hn : n = 1 := congrArg Prod.fst hr
      omega
    · split_ifs at hr
      · have hn : n = frameSize b := congrArg Prod.fst hr
        omega
      · have hn : n = 1 := congrArg Prod.fst hr
        omega
  mono := lookPending_append

/-- One read from the socket. -/
def tcpRead (env : ℕ → Env) (c : Conn) (data : Bytes) : Conn :=
  let r := splitter.drain (splitStep env) (c.pending ++ data) (c.session, c.handled)
  ⟨r.1, r.2.1, r.2.2⟩

end EdgeLink.TcpBinary
