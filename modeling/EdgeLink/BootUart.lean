import EdgeLink.RxDelivery

namespace EdgeLink.BootUart
open Machine
open RxDma (BufferHolds bufferHolds_receive gwUartRxDmaBufferSize)

/-! The bootloader's reception: a circular DMA buffer, a ring, and a loop that carries the bytes
from one to the other, in the main flow and in the interrupt handlers. -/

def blUartRxDmaBufSize : ℕ := 256

def blUartRxRingSize : ℕ := 512

structure Receiver where
  rxDmaBuf : ℕ → UInt8
  rxRing : Ring UInt8
  rxDmaLastPos : ℕ

/-- A full ring loses its oldest byte. -/
def blUartRxRingPush (s : Receiver) (byte : UInt8) : Receiver :=
  let r := s.rxRing
  let next := (r.head + 1) % blUartRxRingSize
  let tail := if next = r.tail then (r.tail + 1) % blUartRxRingSize else r.tail
  { s with rxRing := ⟨Function.update r.slots r.head byte, next, tail⟩ }

def blUartRxRingPop (s : Receiver) : Option (UInt8 × Receiver) :=
  let r := s.rxRing
  if r.head = r.tail then none
  else some (r.slots r.tail, { s with rxRing := { r with tail := (r.tail + 1) % blUartRxRingSize } })

/-- One round of the loop. -/
def consumeOne (s : Receiver) : Receiver :=
  let s := blUartRxRingPush s (s.rxDmaBuf s.rxDmaLastPos)
  let last_pos := s.rxDmaLastPos + 1
  { s with rxDmaLastPos := if last_pos ≥ blUartRxDmaBufSize then 0 else last_pos }

/-- The loop, for as many rounds as the fuel lasts. -/
def blUartDmaConsumeTo (pos : ℕ) : ℕ → Receiver → Option Receiver
  | 0, s => if s.rxDmaLastPos = pos then some s else none
  | fuel + 1, s => if s.rxDmaLastPos = pos then some s else blUartDmaConsumeTo pos fuel (consumeOne s)

/-- The position that a sync reads; the counter of the DMA says how many places are left. -/
def syncPos (counter : ℕ) : ℕ :=
  let pos := blUartRxDmaBufSize - counter
  if pos ≥ blUartRxDmaBufSize then 0 else pos

/-- A sync that runs to its end: a loop that goes on for more rounds than there are places never
ends. -/
def blUartDmaSync (counter : ℕ) (s : Receiver) : Option Receiver :=
  blUartDmaConsumeTo (syncPos counter) blUartRxDmaBufSize s

/-- Where `bl_uart_read_byte` is: not running, before its sync, in the loop of the sync with the
position it has read, or before the pop. -/
inductive Main
  | idle
  | sync
  | consume (pos : ℕ)
  | pop
  deriving DecidableEq

def Main.inLoop : Main → Bool
  | .consume _ => true
  | _ => false

structure World where
  dev : Receiver
  /-- the counter of the DMA -/
  counter : ℕ
  main : Main
  /-- all bytes that came over the line -/
  received : List UInt8
  /-- the bytes that the main flow was given -/
  taken : List UInt8
  /-- the bytes that came since a sync has read its position -/
  arrived : ℕ
  /-- the rounds of the loop in the running sync -/
  rounds : ℕ
  /-- a handler does not return -/
  hung : Bool

/-- A byte comes, an interrupt handler syncs, or the main flow takes a step; what the clock says is
only asked behind a pop that found nothing. -/
inductive Event
  | byte (b : UInt8)
  | irq
  | main (timeout : Bool)

/-- The DMA stores the byte, and counts down from the size again when it has reached the end. -/
def receive (b : UInt8) (w : World) : World :=
  { w with
    dev := { w.dev with
      rxDmaBuf := Function.update w.dev.rxDmaBuf (blUartRxDmaBufSize - w.counter) b }
    counter := if w.counter - 1 = 0 then blUartRxDmaBufSize else w.counter - 1
    received := w.received ++ [b]
    arrived := w.arrived + 1 }

/-- `bl_uart_irq_handler` at an idle line, and `bl_uart_dma_irq_handler`. -/
def blUartIrqHandler (w : World) : World :=
  match blUartDmaSync w.counter w.dev with
  | some dev => { w with dev := dev, arrived := 0 }
  | none => { w with hung := true }

def blUartReadByte (timeout : Bool) (w : World) : World :=
  match w.main with
  | .idle => { w with main := .sync }
  | .sync => { w with main := .consume (syncPos w.counter), arrived := 0, rounds := 0 }
  | .consume pos =>
    if w.dev.rxDmaLastPos = pos then { w with main := .pop }
    else { w with dev := consumeOne w.dev, rounds := w.rounds + 1 }
  | .pop =>
    match blUartRxRingPop w.dev with
    | some (b, dev) => { w with dev := dev, taken := w.taken ++ [b], main := .idle }
    | none => { w with main := if timeout then .idle else .sync }

def step (w : World) : Event → World × Unit
  | .byte b => (receive b w, ())
  | .irq => (if w.hung then w else blUartIrqHandler w, ())
  | .main timeout => (if w.hung then w else blUartReadByte timeout w, ())

/-- `bl_uart_dma_start`, over whatever is in the memory. -/
def start (buf slots : ℕ → UInt8) : World :=
  ⟨⟨buf, ⟨slots, 0, 0⟩, 0⟩, blUartRxDmaBufSize, .idle, [], [], 0, 0, false⟩

/-- Fewer than 256 bytes come between two syncs, and never more than 511 are unread. -/
def Scheduled (w : World) : Event → Prop
  | .byte _ => w.arrived + 1 < blUartRxDmaBufSize ∧ w.received.length + 1 ≤ w.taken.length + 511
  | _ => True

instance (w : World) (e : Event) : Decidable (Scheduled w e) := by
  cases e <;> unfold Scheduled <;> infer_instance

/-- What was carried over: what was taken, and what is still in the ring. -/
def World.carried (w : World) : List UInt8 := w.taken ++ w.dev.rxRing.contents blUartRxRingSize

/-- The rounds that are left to the position. -/
def roundsLeft (s : Receiver) (pos : ℕ) : ℕ :=
  (pos + blUartRxDmaBufSize - s.rxDmaLastPos) % blUartRxDmaBufSize

/-- The bytes taken are those that came first, in order; a pop that finds nothing has been given all
that had come when a position was last read; and every sync ends, in the main flow after fewer
rounds than the buffer has places. -/
structure Delivered (w : World) : Prop where
  stream : w.taken <+: w.received
  all : w.main = .pop → blUartRxRingPop w.dev = none → w.taken.length + w.arrived = w.received.length
  returns : w.hung = false
  ends : ∀ pos, w.main = .consume pos → w.rounds + roundsLeft w.dev pos < blUartRxDmaBufSize

/-- While the main flow is in its loop no handler syncs to a later position, and the DMA does not
come round to a byte that has still to be carried over. -/
def Undisturbed (w : World) : Event → Prop
  | .byte _ => w.main.inLoop = true → w.received.length < w.carried.length + blUartRxDmaBufSize
  | .irq => w.main.inLoop = true → w.arrived = 0
  | .main _ => True

instance (w : World) (e : Event) : Decidable (Undisturbed w e) := by
  cases e <;> unfold Undisturbed <;> infer_instance

theorem contents_length {α : Type*} (n : ℕ) (r : Ring α) : (r.contents n).length = r.count n := by
  unfold Ring.contents
  rw [List.length_map, List.length_range]

/-- While there is room nothing is lost. -/
theorem push_spec {s : Receiver} {b : UInt8} (hring : s.rxRing.Within blUartRxRingSize)
    (hroom : (s.rxRing.contents blUartRxRingSize).length < 511) :
    (blUartRxRingPush s b).rxRing.Within blUartRxRingSize ∧
      (blUartRxRingPush s b).rxRing.contents blUartRxRingSize =
        s.rxRing.contents blUartRxRingSize ++ [b] := by
  have hfree : (s.rxRing.head + 1) % blUartRxRingSize ≠ s.rxRing.tail := by
    have hhead := hring.head
    have htail := hring.tail
    rw [contents_length, Ring.count] at hroom
    unfold blUartRxRingSize at *
    split_ifs at hroom <;> omega
  have hput : s.rxRing.put blUartRxRingSize b = some (blUartRxRingPush s b).rxRing := by
    unfold Ring.put blUartRxRingPush
    dsimp only
    rw [if_neg hfree, if_neg hfree]
  exact Ring.put_spec hring hput

/-- What has been carried over is the beginning of the stream, and the cursor is behind it. -/
structure Tracks (s : Receiver) (taken received : List UInt8) : Prop where
  cursor : s.rxDmaLastPos =
    (taken ++ s.rxRing.contents blUartRxRingSize).length % blUartRxDmaBufSize
  ring : s.rxRing.Within blUartRxRingSize
  buffer : BufferHolds s.rxDmaBuf received
  stream : taken ++ s.rxRing.contents blUartRxRingSize <+: received

section Loop

variable {s : Receiver} {taken received : List UInt8}

/-- A round carries the next byte over, if it is there. -/
theorem consumeOne_tracks (h : Tracks s taken received) {n : ℕ}
    (hn : (taken ++ s.rxRing.contents blUartRxRingSize).length = n) (hthere : n < received.length)
    (hlate : received.length ≤ n + blUartRxDmaBufSize) (hunread : received.length ≤ taken.length + 511) :
    Tracks (consumeOne s) taken received ∧
      (taken ++ (consumeOne s).rxRing.contents blUartRxRingSize).length = n + 1 := by
  have hsize : blUartRxDmaBufSize = 256 := rfl
  have hroom : (s.rxRing.contents blUartRxRingSize).length < 511 := by
    rw [List.length_append] at hn
    omega
  obtain ⟨hring, hcontents⟩ := @push_spec s (s.rxDmaBuf s.rxDmaLastPos) h.ring hroom
  have hcursor := h.cursor
  rw [hn] at hcursor
  have hbyte : s.rxDmaBuf s.rxDmaLastPos = received[n] := by
    rw [hcursor]
    exact h.buffer n hthere hlate
  have htake : taken ++ s.rxRing.contents blUartRxRingSize = received.take n :=
    hn ▸ List.prefix_iff_eq_take.mp h.stream
  have hnext : taken ++ (consumeOne s).rxRing.contents blUartRxRingSize = received.take (n + 1) := by
    have hsame : (consumeOne s).rxRing = (blUartRxRingPush s (s.rxDmaBuf s.rxDmaLastPos)).rxRing := rfl
    rw [hsame, hcontents, ← List.append_assoc, htake, hbyte, List.take_succ_eq_append_getElem hthere]
  have hlength : (taken ++ (consumeOne s).rxRing.contents blUartRxRingSize).length = n + 1 := by
    rw [hnext, List.length_take]
    omega
  refine ⟨⟨?_, hring, h.buffer, ?_⟩, hlength⟩
  · change (if s.rxDmaLastPos + 1 ≥ blUartRxDmaBufSize then 0 else s.rxDmaLastPos + 1) = _
    rw [hlength, hcursor, hsize]
    split_ifs <;> omega
  · rw [hnext]
    exact List.take_prefix _ _

theorem consumeTo_tracks (h : Tracks s taken received) {n d fuel : ℕ}
    (hn : (taken ++ s.rxRing.contents blUartRxRingSize).length + d = n) (hd : d ≤ fuel)
    (hlap : d < blUartRxDmaBufSize) (hthere : n ≤ received.length)
    (hlate : received.length ≤ n - d + blUartRxDmaBufSize)
    (hunread : received.length ≤ taken.length + 511) :
    ∃ s', blUartDmaConsumeTo (n % blUartRxDmaBufSize) fuel s = some s' ∧ Tracks s' taken received ∧
      (taken ++ s'.rxRing.contents blUartRxRingSize).length = n := by
  have hsize : blUartRxDmaBufSize = 256 := rfl
  induction d generalizing s fuel with
  | zero =>
    have hat : s.rxDmaLastPos = n % blUartRxDmaBufSize := by
      rw [h.cursor]
      exact congrArg (· % blUartRxDmaBufSize) hn
    refine ⟨s, ?_, h, hn⟩
    cases fuel <;> exact if_pos hat
  | succ d ih =>
    cases fuel with
    | zero => omega
    | succ fuel =>
      have hnot : s.rxDmaLastPos ≠ n % blUartRxDmaBufSize := by
        rw [h.cursor]
        rw [hsize] at *
        omega
      obtain ⟨hnext, hlength⟩ := consumeOne_tracks h rfl (by omega) (by omega) hunread
      rw [blUartDmaConsumeTo, if_neg hnot]
      exact ih hnext (by omega) (by omega) (by omega) (by omega)

theorem syncPos_eq {counter : ℕ} (h : counter = blUartRxDmaBufSize - received.length % blUartRxDmaBufSize) :
    syncPos counter = received.length % blUartRxDmaBufSize := by
  have hlt := Nat.mod_lt received.length (show 0 < blUartRxDmaBufSize by decide)
  unfold syncPos
  dsimp only
  rw [h, Nat.sub_sub_self hlt.le, if_neg (by omega)]

end Loop

/-- The loop is on its way to the position behind byte `n`. -/
structure Looping (w : World) (pos n : ℕ) : Prop where
  target : n + w.arrived = w.received.length
  pos : pos = n % blUartRxDmaBufSize
  below : w.carried.length ≤ n
  ends : n - w.carried.length + w.rounds < blUartRxDmaBufSize
  lap : w.received.length ≤ w.carried.length + blUartRxDmaBufSize

/-- Outside of the loop everything has been carried over that had come when a position was read. -/
def Settled (w : World) : Prop :=
  match w.main with
  | .consume pos => ∃ n, Looping w pos n
  | _ => w.carried.length + w.arrived = w.received.length

structure Sound (w : World) : Prop where
  tracks : Tracks w.dev w.taken w.received
  counter : w.counter = blUartRxDmaBufSize - w.received.length % blUartRxDmaBufSize
  few : w.arrived < blUartRxDmaBufSize
  unread : w.received.length ≤ w.taken.length + 511
  returns : w.hung = false
  settled : Settled w

theorem counter_next {counter n : ℕ} (h : counter = blUartRxDmaBufSize - n % blUartRxDmaBufSize) :
    (if counter - 1 = 0 then blUartRxDmaBufSize else counter - 1) =
      blUartRxDmaBufSize - (n + 1) % blUartRxDmaBufSize := by
  unfold blUartRxDmaBufSize at *
  split_ifs <;> omega

theorem receive_sound {w : World} (hw : Sound w) (b : UInt8) (hs : Scheduled w (.byte b))
    (hu : Undisturbed w (.byte b)) : Sound (receive b w) := by
  have hsize : blUartRxDmaBufSize = 256 := rfl
  have hplace : blUartRxDmaBufSize - w.counter = w.received.length % gwUartRxDmaBufferSize := by
    have hcounter := hw.counter
    rw [hsize] at *
    unfold gwUartRxDmaBufferSize
    omega
  have hlength : (receive b w).received.length = w.received.length + 1 := List.length_append
  refine ⟨⟨hw.tracks.cursor, hw.tracks.ring, ?_, hw.tracks.stream.trans (List.prefix_append _ _)⟩, ?_,
    hs.1, hlength.trans_le hs.2, hw.returns, ?_⟩
  · change BufferHolds (Function.update w.dev.rxDmaBuf (blUartRxDmaBufSize - w.counter) b) _
    rw [hplace]
    exact bufferHolds_receive hw.tracks.buffer b
  · rw [hlength]
    exact counter_next hw.counter
  · have hsettled := hw.settled
    unfold Settled at hsettled ⊢
    change match w.main with
      | .consume pos => ∃ n, Looping (receive b w) pos n
      | _ => w.carried.length + (w.arrived + 1) = (receive b w).received.length
    rw [hlength]
    cases hmain : w.main with
    | consume pos =>
      rw [hmain] at hsettled
      obtain ⟨n, hloop⟩ := hsettled
      have hlap := hu (by rw [hmain]; rfl)
      have htarget := hloop.target
      exact ⟨n, (show n + (w.arrived + 1) = _ by omega), hloop.pos, hloop.below, hloop.ends,
        hlength.trans_le hlap⟩
    | _ =>
      rw [hmain] at hsettled
      dsimp only at hsettled ⊢
      omega

/-- A handler carries everything over. -/
theorem irq_sound {w : World} (hw : Sound w) (hu : Undisturbed w .irq) :
    Sound (blUartIrqHandler w) := by
  have hsize : blUartRxDmaBufSize = 256 := rfl
  have hsettled := hw.settled
  have hpre := hw.tracks.stream.length_le
  have hlap : w.received.length - w.carried.length < blUartRxDmaBufSize := by
    unfold Settled at hsettled
    have hfew := hw.few
    cases hmain : w.main with
    | consume pos =>
      -- inside the loop of `main` a handler may only run before anything new has arrived
      rw [hmain] at hsettled
      obtain ⟨n, hloop⟩ := hsettled
      have hnone := hu (by rw [hmain]; rfl)
      have htarget := hloop.target
      have hends := hloop.ends
      omega
    | _ =>
      rw [hmain] at hsettled
      dsimp only at hsettled
      omega
  obtain ⟨dev, hsync, htracks, hlength⟩ := @consumeTo_tracks w.dev w.taken w.received hw.tracks
    w.received.length (w.received.length - w.carried.length) blUartRxDmaBufSize
    (Nat.add_sub_cancel' hpre) hlap.le hlap le_rfl (by omega) hw.unread
  have hhandler : blUartIrqHandler w = { w with dev := dev, arrived := 0 } := by
    unfold blUartIrqHandler blUartDmaSync
    rw [syncPos_eq hw.counter, hsync]
  rw [hhandler]
  refine ⟨htracks, hw.counter, (by decide : 0 < blUartRxDmaBufSize), hw.unread, hw.returns, ?_⟩
  unfold Settled at hsettled ⊢
  dsimp only
  cases hmain : w.main with
  | consume pos =>
    rw [hmain] at hsettled
    obtain ⟨n, hloop⟩ := hsettled
    have hnone := hu (by rw [hmain]; rfl)
    have htarget := hloop.target
    have hends := hloop.ends
    have hcarried : ({ w with dev := dev, main := .consume pos, arrived := 0 } : World).carried.length =
        w.received.length := hlength
    refine ⟨n, ⟨by dsimp only; omega, hloop.pos, ?_, ?_, ?_⟩⟩ <;> rw [hcarried]
    · omega
    · dsimp only
      omega
    · exact Nat.le_add_right _ _
  | _ => exact hlength

theorem pop_eq (s : Receiver) : blUartRxRingPop s =
    (s.rxRing.take blUartRxRingSize).map fun r => (r.1, { s with rxRing := r.2 }) := by
  unfold blUartRxRingPop Ring.take
  dsimp only
  by_cases h : s.rxRing.head = s.rxRing.tail
  · rw [if_pos h, if_pos h.symm, Option.map_none]
  · rw [if_neg h, if_neg (Ne.symm h), Option.map_some]

theorem pop_none {s : Receiver} (h : blUartRxRingPop s = none) :
    s.rxRing.contents blUartRxRingSize = [] := by
  unfold blUartRxRingPop at h
  dsimp only at h
  split_ifs at h with hempty
  rw [← List.length_eq_zero_iff, contents_length, Ring.count, hempty, if_pos le_rfl, Nat.sub_self]

/-- A pop gives the byte behind those that were taken. -/
theorem pop_sound {w : World} (hw : Sound w) (hmain : w.main = .pop) {b : UInt8} {dev : Receiver}
    (hpop : blUartRxRingPop w.dev = some (b, dev)) :
    Sound { w with dev := dev, taken := w.taken ++ [b], main := .idle } := by
  rw [pop_eq] at hpop
  obtain ⟨r, htake, hr⟩ := Option.map_eq_some_iff.mp hpop
  obtain ⟨rfl, rfl⟩ := Prod.mk.inj hr
  obtain ⟨hring, hcontents⟩ := Ring.take_spec hw.tracks.ring htake
  have hcarried : (w.taken ++ [r.1]) ++ r.2.contents blUartRxRingSize =
      w.taken ++ w.dev.rxRing.contents blUartRxRingSize := by
    rw [hcontents, List.append_assoc, List.singleton_append]
  have hsettled := hw.settled
  unfold Settled at hsettled
  rw [hmain] at hsettled
  refine ⟨⟨?_, hring, hw.tracks.buffer, ?_⟩, hw.counter, hw.few, ?_, hw.returns, ?_⟩
  · dsimp only
    rw [hcarried]
    exact hw.tracks.cursor
  · dsimp only
    rw [hcarried]
    exact hw.tracks.stream
  · have hunread := hw.unread
    dsimp only
    rw [List.length_append]
    omega
  · exact (congrArg (·.length + w.arrived) hcarried).trans hsettled

theorem readByte_sound {w : World} (hw : Sound w) (timeout : Bool) :
    Sound (blUartReadByte timeout w) := by
  have hsize : blUartRxDmaBufSize = 256 := rfl
  have hsettled := hw.settled
  unfold Settled at hsettled
  unfold blUartReadByte
  cases hmain : w.main with
  | idle =>
    rw [hmain] at hsettled
    exact ⟨hw.tracks, hw.counter, hw.few, hw.unread, hw.returns, hsettled⟩
  | sync =>
    rw [hmain] at hsettled
    dsimp only at hsettled ⊢
    have hfew := hw.few
    refine ⟨hw.tracks, hw.counter, (by decide : 0 < blUartRxDmaBufSize), hw.unread, hw.returns, ?_⟩
    -- the target is what has been received at this moment; what comes later is for the next call
    refine ⟨w.received.length, rfl, syncPos_eq hw.counter, ?_, ?_, ?_⟩
    · exact hw.tracks.stream.length_le
    · change w.received.length - w.carried.length + 0 < blUartRxDmaBufSize
      omega
    · change w.received.length ≤ w.carried.length + blUartRxDmaBufSize
      omega
  | consume pos =>
    rw [hmain] at hsettled
    obtain ⟨n, hloop⟩ := hsettled
    have hcursor : w.dev.rxDmaLastPos = w.carried.length % blUartRxDmaBufSize := hw.tracks.cursor
    have hends := hloop.ends
    have htarget := hloop.target
    have hbelow := hloop.below
    have hpos := hloop.pos
    dsimp only
    split_ifs with hat
    · refine ⟨hw.tracks, hw.counter, hw.few, hw.unread, hw.returns, ?_⟩
      change w.carried.length + w.arrived = w.received.length
      rw [hcursor, hpos, hsize] at hat
      omega
    -- the positions agree modulo the buffer, and the target is less than a lap away
    · have hnot : w.carried.length ≠ n := fun heq => hat (by rw [hcursor, heq, hpos])
      obtain ⟨htracks, hlength⟩ := consumeOne_tracks hw.tracks rfl
        (show w.carried.length < w.received.length by omega) hloop.lap hw.unread
      refine ⟨htracks, hw.counter, hw.few, hw.unread, hw.returns, ?_⟩
      have hcarried : ({ w with
          dev := consumeOne w.dev, main := .consume pos, rounds := w.rounds + 1 } : World).carried.length =
          w.carried.length + 1 := hlength
      refine ⟨n, htarget, hpos, ?_, ?_, ?_⟩ <;> rw [hcarried]
      · omega
      · dsimp only
        omega
      · exact hloop.lap.trans (by omega)
  | pop =>
    dsimp only
    cases hpop : blUartRxRingPop w.dev with
    | none =>
      rw [hmain] at hsettled
      refine ⟨hw.tracks, hw.counter, hw.few, hw.unread, hw.returns, ?_⟩
      cases timeout <;> exact hsettled
    | some r => exact pop_sound hw hmain hpop

theorem step_sound (w : World) (e : Event) (hw : Sound w) (he : Scheduled w e ∧ Undisturbed w e) :
    Sound (step w e).1 := by
  have hruns : ¬w.hung = true := by rw [hw.returns]; exact Bool.false_ne_true
  cases e with
  | byte b => exact receive_sound hw b he.1 he.2
  | irq =>
    rw [step, if_neg hruns]
    exact irq_sound hw he.2
  | main timeout =>
    rw [step, if_neg hruns]
    exact readByte_sound hw timeout

theorem start_sound (buf slots : ℕ → UInt8) : Sound (start buf slots) where
  tracks := ⟨rfl, ⟨Nat.zero_lt_succ _, Nat.zero_lt_succ _⟩, nofun, List.nil_prefix⟩
  counter := rfl
  few := Nat.zero_lt_succ _
  unread := Nat.zero_le _
  returns := rfl
  settled := rfl

theorem Sound.delivered {w : World} (hw : Sound w) : Delivered w where
  stream := (List.prefix_append _ _).trans hw.tracks.stream
  all := by
    intro hmain hpop
    have hsettled := hw.settled
    unfold Settled at hsettled
    rw [hmain] at hsettled
    dsimp only [World.carried] at hsettled
    rw [pop_none hpop, List.append_nil] at hsettled
    exact hsettled
  returns := hw.returns
  ends := by
    intro pos hmain
    have hsettled := hw.settled
    unfold Settled at hsettled
    rw [hmain] at hsettled
    obtain ⟨n, hloop⟩ := hsettled
    have hcursor : w.dev.rxDmaLastPos = w.carried.length % blUartRxDmaBufSize := hw.tracks.cursor
    have hends := hloop.ends
    have hbelow := hloop.below
    have hleft : roundsLeft w.dev pos = n - w.carried.length := by
      unfold roundsLeft
      rw [hcursor, hloop.pos]
      unfold blUartRxDmaBufSize at *
      omega
    rw [hleft]
    omega

/-- In a schedule whose main flow is undisturbed the bytes are delivered. -/
theorem bytes_delivered (buf slots : ℕ → UInt8) (es : List Event)
    (hs : Always step Scheduled (start buf slots) es)
    (hu : Always step Undisturbed (start buf slots) es) :
    Delivered (run step (start buf slots) es) :=
  (run_invariant step_sound (start_sound buf slots) (hs.and hu)).delivered

/-- Two bytes; the handler syncs to the second while the main flow is on its way to the first. -/
def overtaken : List Event :=
  [.main false, .byte 1, .main false, .byte 2, .irq] ++ List.replicate 266 (.main false)

/-- The loop goes round the whole buffer, and the third read gives a byte that never came. -/
theorem overtaken_fails : Always step Scheduled (start (fun _ => 0) (fun _ => 0)) overtaken ∧
    ¬Delivered (run step (start (fun _ => 0) (fun _ => 0)) overtaken) := by
  constructor
  · decide +kernel
  · intro h
    have hstream := h.stream
    revert hstream
    decide +kernel

def greeting : List Event :=
  [.main false, .byte 72, .main false, .irq, .main false, .byte 105, .main false, .main false,
    .irq, .main false, .main false, .main false]

theorem boot_greeting_heard : Delivered (run step (start (fun _ => 0) (fun _ => 0)) greeting) :=
  bytes_delivered _ _ _ (by decide +kernel) (by decide +kernel)

end EdgeLink.BootUart
