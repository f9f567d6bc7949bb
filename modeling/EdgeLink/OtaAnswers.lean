import EdgeLink.OtaRelay
import EdgeLink.TcpFrames
import EdgeLink.UartTask

namespace EdgeLink.OtaAnswers
open LittleEndian Bridge OtaWire OtaRelay TcpBinary
open FrameStream (fed exists_cut)
open Gateway (wireFrame wireFrame_length wireFrame_size wireFrame_crcOk frameSize CrcOk)

/-! An update over the adapter: the answers of the node on their way up. -/

def FitsBuffer (f : UInt8 × Bytes) : Prop := f.2.length + 6 ≤ MAX_FRAME_SIZE

instance : DecidablePred FitsBuffer := fun _ => inferInstanceAs (Decidable (_ ≤ _))

def isAnswer (f : UInt8 × Bytes) : Bool := isOtaRespType f.1

/-- A byte finds the OTA mode, and every step leaves the adapter in it. -/
def OtaMode (x : Globals × Uart) (e : Event) : Prop :=
  (uartStep x e).1.mode = .ota ∧ (e.bytes = [] ∨ x.1.mode = .ota)

instance (x : Globals × Uart) : DecidablePred (OtaMode x) :=
  fun _ => inferInstanceAs (Decidable (_ ∧ _))

section Collect
variable {type b : UInt8} {payload p q : Bytes} {g : Globals} {rx : Uart}

theorem tryLengths_frame (hlen : payload.length + 6 ≤ MAX_FRAME_SIZE)
    (hq : p ++ b :: q = wireFrame type payload) (htwo : 2 ≤ p.length) :
    tryLengths true (p ++ [b]) = if q = [] then .good (payload.length + 6) else .wait := by
  have hmax : payload.length + 6 ≤ 256 := hlen
  have htotal := collect_length hq
  have hbuf : (p ++ [b]).length = p.length + 1 := List.length_append
  have hok : (decide (payload.length + 6 ≤ MAX_FRAME_SIZE) &&
      decide (kMinFrameSize ≤ payload.length + 6)) = true := by
    rw [decide_eq_true hlen, Bool.true_and]
    exact decide_eq_true (Nat.le_add_left _ _)
  unfold tryLengths
  dsimp only
  rw [collect_size hq (by omega) htwo, hok, hbuf]
  simp only [Bool.not_true, Bool.false_and, Bool.and_false, Bool.false_eq_true, if_false,
    true_and, if_true]
  by_cases hend : q = []
  · subst hend
    rw [List.length_nil] at htotal
    rw [if_neg (by omega), if_pos ⟨by omega, by rw [hq]; exact wire_crc type (by omega)⟩, if_pos rfl]
  · have hlong := List.length_pos_iff.mpr hend
    rw [if_pos (by omega), if_neg hend]

/-- A whole frame in the buffer is recognized, and a part of it waits. -/
theorem uartByte_frame (now : UInt32) (hmode : g.mode = .ota)
    (hlen : payload.length + 6 ≤ MAX_FRAME_SIZE) (hp : rx.frameBuf = p)
    (hq : p ++ b :: q = wireFrame type payload) : uartByte now g rx b =
      if q = [] then
        frameReady now g { rx with rxBytes := rx.rxBytes + 1 } (wireFrame type payload)
          (payload.length + 6)
      else (g, { rx with rxBytes := rx.rxBytes + 1, frameBuf := p ++ [b] }) := by
  have hmax : payload.length + 6 ≤ 256 := hlen
  have htotal := collect_length hq
  have hbuf : (p ++ [b]).length = p.length + 1 := List.length_append
  have hroom : ¬MAX_FRAME_SIZE ≤ p.length := by
    unfold MAX_FRAME_SIZE
    omega
  unfold uartByte
  dsimp only
  rw [hp, if_neg (collect_first hq), if_neg (collect_second hq), if_neg hroom, hbuf,
    decide_eq_true hmode]
  by_cases hshort : p.length + 1 < 3
  · have hmore : q ≠ [] := by
      rintro rfl
      rw [List.length_nil] at htotal
      omega
    rw [if_pos hshort, if_neg hmore]
  · rw [if_neg hshort, tryLengths_frame hlen hq (by omega)]
    by_cases hend : q = []
    · subst hend
      rw [if_pos rfl, if_pos rfl, hq]
    · rw [if_neg hend, if_neg hend]

/-- In OTA mode a frame is queued if it is an answer, and else it is dropped. -/
theorem frameReady_ota (now : UInt32) (rx : Uart) (hmode : g.mode = .ota)
    (hafter : (frameReady now g rx (wireFrame type payload) (payload.length + 6)).1.mode = .ota) :
    let x := frameReady now g rx (wireFrame type payload) (payload.length + 6)
    x.2.frameBuf = [] ∧ x.2.enqueued.map Prod.snd = rx.enqueued.map Prod.snd ++
      if isOtaRespType type then [wireFrame type payload] else [] := by
  have htake : (wireFrame type payload).take (payload.length + 6) = wireFrame type payload :=
    List.take_of_length_le (wireFrame_length _ _).le
  unfold frameReady at hafter ⊢
  rw [htake, wire_type] at hafter ⊢
  dsimp only at hafter ⊢
  rw [if_pos hmode] at hafter ⊢
  by_cases htype : isOtaRespType type = true
  · simp only [htype, Bool.not_true, Bool.false_eq_true, if_false, if_true] at hafter ⊢
    cases hq : enqueueFrameNoDrop g.frameQ (wireFrame type payload) with
    | some queue =>
      refine ⟨rfl, ?_⟩
      rw [List.map_append]
      rfl
    | none =>
      rw [hq] at hafter
      cases hafter
  · rw [eq_false_of_ne_true htype]
    exact ⟨rfl, (List.append_nil _).symm⟩

end Collect

/-- After `k` whole frames and the beginning `p` of the next one. -/
structure Collects (frames : List (UInt8 × Bytes)) (k : ℕ) (p : Bytes) (x : Globals × Uart) :
    Prop where
  buffered : x.2.frameBuf = p
  queued : x.2.enqueued.map Prod.snd = ((frames.take k).filter isAnswer).map wire

section Run
variable {frames : List (UInt8 × Bytes)} {k : ℕ} {p q : Bytes} {x : Globals × Uart}

theorem Collects.push {now : UInt32} {b : UInt8} (h : Collects frames k p x)
    (hmode : x.1.mode = .ota) {f : UInt8 × Bytes} (hfits : FitsBuffer f)
    (hq : p ++ b :: q = wire f) (hmore : q ≠ []) :
    Collects frames k (p ++ [b]) (uartStep x (.byte now b)) := by
  have hbyte := uartByte_frame now hmode hfits h.buffered hq
  rw [if_neg hmore] at hbyte
  rw [uartStep, hbyte]
  exact ⟨rfl, h.queued⟩

theorem Collects.close {now : UInt32} {b : UInt8} (h : Collects frames k p x)
    (hmode : OtaMode x (.byte now b)) {f : UInt8 × Bytes} (hf : frames[k]? = some f)
    (hfits : FitsBuffer f) (hq : p ++ [b] = wire f) :
    Collects frames (k + 1) [] (uartStep x (.byte now b)) := by
  have hbefore : x.1.mode = .ota := hmode.2.resolve_left (List.cons_ne_nil _ _)
  have hbyte := uartByte_frame now hbefore hfits h.buffered hq
  rw [if_pos rfl] at hbyte
  have hafter := hmode.1
  rw [uartStep, hbyte] at hafter ⊢
  obtain ⟨hbuf, hqueue⟩ := frameReady_ota now _ hbefore hafter
  refine ⟨hbuf, hqueue.trans ?_⟩
  rw [h.queued, List.take_add_one, hf, Option.toList_some, List.filter_append, List.map_append,
    List.filter_singleton]
  congr 1
  unfold isAnswer
  cases isOtaRespType f.1 <;> rfl

end Run

section Gateway
variable {f : UInt8 × Bytes} {p q : Bytes}

/-- What the gateway takes the peer for. -/
def device (env : Env) (peer : Peer) : Option UInt8 :=
  if peer.hasDevice then some peer.lastDevice else env.bound

end Gateway

/-- The frames of a device that nobody has read; the oldest gives way to the 65th. -/
def publishTcpBinaryOtaFrame (q : List Bytes) (frame : Bytes) : List Bytes :=
  (q ++ [frame]).drop ((q ++ [frame]).length - 64)

/-- What is there for the device after this. -/
def published (d : UInt8) (handled : List (Bytes × Handled)) : List Bytes :=
  ((handled.filter fun h => h.2 = .otaUplink d).map Prod.fst).foldl publishTcpBinaryOtaFrame []

end EdgeLink.OtaAnswers
