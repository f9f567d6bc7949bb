import EdgeLink.Machine
import EdgeLink.Ring

namespace EdgeLink.RxDma
open Machine

def gwUartRxDmaBufferSize : ℕ := 256

def gwRxRingSize : ℕ := 512

structure Receiver where
  rxDmaBuf : ℕ → UInt8
  rxDmaLastPos : ℕ
  rxRing : Ring UInt8
  rxRingOverflowCount : ℕ

def gwUartRxRingPushIsr (s : Receiver) (byte : UInt8) : Receiver :=
  match s.rxRing.put gwRxRingSize byte with
  | none => { s with rxRingOverflowCount := s.rxRingOverflowCount + 1 }
  | some ring => { s with rxRing := ring }

/-- One round of the loop. -/
def consumeOne (s : Receiver) : Receiver :=
  let s := gwUartRxRingPushIsr s (s.rxDmaBuf s.rxDmaLastPos)
  let last_pos := s.rxDmaLastPos + 1
  { s with rxDmaLastPos := if last_pos ≥ gwUartRxDmaBufferSize then 0 else last_pos }

/-- The loop, for as many rounds as the fuel lasts. -/
def gwUartDmaConsumeTo (pos : ℕ) : ℕ → Receiver → Option Receiver
  | 0, s => if s.rxDmaLastPos = pos then some s else none
  | fuel + 1, s =>
    if s.rxDmaLastPos = pos then some s else gwUartDmaConsumeTo pos fuel (consumeOne s)

def clipPos (size : ℕ) : ℕ := if size > gwUartRxDmaBufferSize then gwUartRxDmaBufferSize else size

/-- A loop that has not ended after one round for each place of the buffer never ends. -/
def halUartExRxEventCallback (size : ℕ) (s : Receiver) : Option Receiver :=
  gwUartDmaConsumeTo (clipPos size) gwUartRxDmaBufferSize s

def gwUartReadByte (s : Receiver) : Option (UInt8 × Receiver) :=
  (s.rxRing.take gwRxRingSize).map fun r => (r.1, { s with rxRing := r.2 })

structure World where
  dev : Receiver
  /-- all bytes that came over the line -/
  received : List UInt8
  /-- the interrupts that the DMA has raised and nobody has served -/
  half : Bool
  complete : Bool
  /-- the bytes that the task has read -/
  taken : List UInt8
  /-- a callback does not return -/
  hung : Bool

inductive Event
  | byte (b : UInt8)
  | idle
  | half
  | complete
  | read

def serve (size : ℕ) (w : World) : World :=
  match halUartExRxEventCallback size w.dev with
  | some dev => { w with dev := dev }
  | none => { w with hung := true }

def receive (b : UInt8) (w : World) : World :=
  let place := w.received.length % gwUartRxDmaBufferSize
  { w with
    dev := { w.dev with rxDmaBuf := Function.update w.dev.rxDmaBuf place b }
    received := w.received ++ [b]
    half := w.half || place + 1 = gwUartRxDmaBufferSize / 2
    complete := w.complete || place + 1 = gwUartRxDmaBufferSize }

/-- The remaining count reads 256 when the DMA is at the front, and then no event is reported. -/
def idleEvent (w : World) : World :=
  let nb_remaining := gwUartRxDmaBufferSize - w.received.length % gwUartRxDmaBufferSize
  if 0 < nb_remaining ∧ nb_remaining < gwUartRxDmaBufferSize then
    serve (gwUartRxDmaBufferSize - nb_remaining) w
  else w

def readByte (w : World) : World :=
  match gwUartReadByte w.dev with
  | some (b, dev) => { w with dev := dev, taken := w.taken ++ [b] }
  | none => w

def step (w : World) : Event → World × Unit
  | .byte b => (receive b w, ())
  | .idle => (if w.hung then w else idleEvent w, ())
  | .half =>
    (if w.hung ∨ w.half = false then w
      else serve (gwUartRxDmaBufferSize / 2) { w with half := false }, ())
  | .complete =>
    (if w.hung ∨ w.complete = false then w
      else serve gwUartRxDmaBufferSize { w with complete := false }, ())
  | .read => (if w.hung then w else readByte w, ())

/-- The reception has just been started, over whatever is in the memory. -/
def start (buf slots : ℕ → UInt8) : World :=
  ⟨⟨buf, 0, ⟨slots, 0, 0⟩, 0⟩, [], false, false, [], false⟩

section Loop
variable {s : Receiver} {pos : ℕ}

theorem consumeOne_lastPos (h : s.rxDmaLastPos < gwUartRxDmaBufferSize) :
    (consumeOne s).rxDmaLastPos = (s.rxDmaLastPos + 1) % gwUartRxDmaBufferSize := by
  have hpush : (gwUartRxRingPushIsr s (s.rxDmaBuf s.rxDmaLastPos)).rxDmaLastPos =
      s.rxDmaLastPos := by
    unfold gwUartRxRingPushIsr
    split <;> rfl
  unfold consumeOne
  dsimp only
  rw [hpush]
  unfold gwUartRxDmaBufferSize at h ⊢
  split_ifs <;> omega

theorem consumeOne_buf (s : Receiver) : (consumeOne s).rxDmaBuf = s.rxDmaBuf := by
  unfold consumeOne gwUartRxRingPushIsr
  split <;> rfl

theorem iterate_lastPos (h : s.rxDmaLastPos < gwUartRxDmaBufferSize) (d : ℕ) :
    (consumeOne^[d] s).rxDmaLastPos = (s.rxDmaLastPos + d) % gwUartRxDmaBufferSize := by
  induction d generalizing s with
  | zero => exact (Nat.mod_eq_of_lt h).symm
  | succ d ih =>
    have hnext := consumeOne_lastPos h
    rw [Function.iterate_succ_apply, ih (by rw [hnext]; exact Nat.mod_lt _ (by decide)), hnext,
      Nat.mod_add_mod]
    congr 1
    omega

theorem iterate_buf (s : Receiver) (d : ℕ) : (consumeOne^[d] s).rxDmaBuf = s.rxDmaBuf := by
  induction d generalizing s with
  | zero => rfl
  | succ d ih => rw [Function.iterate_succ_apply, ih, consumeOne_buf]

/-- While nothing overflows a round appends the byte under the cursor. -/
theorem consumeOne_contents (hring : s.rxRing.Within gwRxRingSize) :
    (consumeOne s).rxRing.Within gwRxRingSize ∧
      s.rxRingOverflowCount ≤ (consumeOne s).rxRingOverflowCount ∧
      ((consumeOne s).rxRingOverflowCount = s.rxRingOverflowCount →
        (consumeOne s).rxRing.contents gwRxRingSize =
          s.rxRing.contents gwRxRingSize ++ [s.rxDmaBuf s.rxDmaLastPos]) := by
  unfold consumeOne gwUartRxRingPushIsr
  cases hput : s.rxRing.put gwRxRingSize (s.rxDmaBuf s.rxDmaLastPos) with
  | none =>
    refine ⟨hring, Nat.le_succ _, fun hsame => ?_⟩
    exact absurd hsame (Nat.succ_ne_self _)
  | some ring =>
    obtain ⟨hwithin, hcontents⟩ := Ring.put_spec hring hput
    exact ⟨hwithin, le_rfl, fun _ => hcontents⟩

/-- What `d` rounds append. -/
def passed (s : Receiver) (d : ℕ) : List UInt8 :=
  (List.range d).map fun i => s.rxDmaBuf ((s.rxDmaLastPos + i) % gwUartRxDmaBufferSize)

theorem iterate_contents (hring : s.rxRing.Within gwRxRingSize)
    (h : s.rxDmaLastPos < gwUartRxDmaBufferSize) (d : ℕ) :
    (consumeOne^[d] s).rxRing.Within gwRxRingSize ∧
      s.rxRingOverflowCount ≤ (consumeOne^[d] s).rxRingOverflowCount ∧
      ((consumeOne^[d] s).rxRingOverflowCount = s.rxRingOverflowCount →
        (consumeOne^[d] s).rxRing.contents gwRxRingSize =
          s.rxRing.contents gwRxRingSize ++ passed s d) := by
  induction d with
  | zero => exact ⟨hring, le_rfl, fun _ => (List.append_nil _).symm⟩
  | succ d ih =>
    obtain ⟨hring', hle, hcontents⟩ := ih
    obtain ⟨hwithin, hle', hnext⟩ := consumeOne_contents hring'
    rw [Function.iterate_succ_apply']
    refine ⟨hwithin, hle.trans hle', fun hsame => ?_⟩
    have hstill : (consumeOne^[d] s).rxRingOverflowCount = s.rxRingOverflowCount := by omega
    rw [hnext (by omega), hcontents hstill, iterate_buf, iterate_lastPos h]
    unfold passed
    rw [List.range_succ, List.map_append, List.map_singleton, List.append_assoc]

/-- The rounds until the cursor is at the position. -/
def rounds (s : Receiver) (pos : ℕ) : ℕ :=
  (pos + gwUartRxDmaBufferSize - s.rxDmaLastPos) % gwUartRxDmaBufferSize

theorem consumeTo_iterate {fuel d : ℕ} (hd : d ≤ fuel)
    (hbefore : ∀ i < d, (consumeOne^[i] s).rxDmaLastPos ≠ pos)
    (hat : (consumeOne^[d] s).rxDmaLastPos = pos) :
    gwUartDmaConsumeTo pos fuel s = some (consumeOne^[d] s) := by
  induction d generalizing s fuel with
  | zero =>
    cases fuel with
    | zero => exact if_pos hat
    | succ fuel => exact if_pos hat
  | succ d ih =>
    cases fuel with
    | zero => omega
    | succ fuel =>
      have hnot : s.rxDmaLastPos ≠ pos := hbefore 0 (Nat.succ_pos d)
      rw [gwUartDmaConsumeTo, if_neg hnot]
      exact ih (Nat.le_of_succ_le_succ hd) (fun i hi => hbefore (i + 1) (by omega)) hat

theorem consumeTo_ends (h : s.rxDmaLastPos < gwUartRxDmaBufferSize)
    (hpos : pos < gwUartRxDmaBufferSize) :
    gwUartDmaConsumeTo pos gwUartRxDmaBufferSize s = some (consumeOne^[rounds s pos] s) := by
  have hsize : gwUartRxDmaBufferSize = 256 := rfl
  have hrounds : rounds s pos < gwUartRxDmaBufferSize := Nat.mod_lt _ (by decide)
  apply consumeTo_iterate hrounds.le
  · intro i hi
    rw [iterate_lastPos h]
    unfold rounds at hi
    rw [hsize] at h hpos hi ⊢
    omega
  · rw [iterate_lastPos h]
    unfold rounds
    rw [hsize] at h hpos ⊢
    omega

/-- A position behind the buffer is never reached, however long the loop runs. -/
theorem consumeTo_hangs (h : s.rxDmaLastPos < gwUartRxDmaBufferSize)
    (hpos : gwUartRxDmaBufferSize ≤ pos) (fuel : ℕ) : gwUartDmaConsumeTo pos fuel s = none := by
  have hne : s.rxDmaLastPos ≠ pos := by omega
  induction fuel generalizing s with
  | zero => exact if_neg hne
  | succ fuel ih =>
    have hnext : (consumeOne s).rxDmaLastPos < gwUartRxDmaBufferSize := by
      rw [consumeOne_lastPos h]
      exact Nat.mod_lt _ (by decide)
    rw [gwUartDmaConsumeTo, if_neg hne]
    exact ih hnext (by omega)

/-- The callback returns exactly for the positions inside the buffer. -/
theorem callback_ends_iff (h : s.rxDmaLastPos < gwUartRxDmaBufferSize) (size : ℕ) :
    (∃ fuel s', gwUartDmaConsumeTo (clipPos size) fuel s = some s') ↔
      size < gwUartRxDmaBufferSize := by
  unfold clipPos
  constructor
  · rintro ⟨fuel, s', hends⟩
    by_contra hsize
    have hpos : gwUartRxDmaBufferSize ≤
        if size > gwUartRxDmaBufferSize then gwUartRxDmaBufferSize else size := by
      split_ifs <;> omega
    rw [consumeTo_hangs h hpos] at hends
    cases hends
  · intro hsize
    rw [if_neg (by omega)]
    exact ⟨_, _, consumeTo_ends h hsize⟩

end Loop

end EdgeLink.RxDma
