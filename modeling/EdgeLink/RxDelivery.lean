import EdgeLink.RxDma

namespace EdgeLink.RxDma
open Machine

/-- What the callbacks have appended so far: what was read, and what is still in the ring. -/
def World.appended (w : World) : List UInt8 := w.taken ++ w.dev.rxRing.contents gwRxRingSize

/-- The place right behind the latest first half of the buffer. -/
def halfMark (n : ℕ) : ℕ := (n - 128) / 256 * 256 + 128

/-- The step returns; and unless the ring has overflowed, what was appended is the beginning of the
stream, all of it after an idle event and up to the middle after a half-transfer event. -/
def Delivers (w : World) (e : Event) : Prop :=
  let w' := (step w e).1
  w'.hung = false ∧ (w'.dev.rxRingOverflowCount = 0 → w'.appended <+: w'.received ∧
    (e = .idle → w'.received.length % gwUartRxDmaBufferSize ≠ 0 → w'.appended = w'.received) ∧
    (e = .half → w.half = true → w'.appended = w'.received.take (halfMark w'.received.length)))

/-- The cursor is not behind by a whole buffer, nor ahead of the byte it is sent to. -/
def World.near (w : World) (k : ℕ) : Prop :=
  w.dev.rxRingOverflowCount = 0 → w.appended.length ≤ k ∧
    w.received.length < w.appended.length + gwUartRxDmaBufferSize

/-- No transfer-complete event; a half-transfer event comes before the cursor has passed the middle;
and the DMA is not a whole buffer ahead. -/
def Timely (w : World) : Event → Prop
  | .idle => w.received.length % gwUartRxDmaBufferSize ≠ 0 → w.near w.received.length
  | .half => w.half = true → w.near (halfMark w.received.length)
  | .complete => w.complete = false
  | _ => True

instance (w : World) (k : ℕ) : Decidable (w.near k) := inferInstanceAs (Decidable (_ → _))

instance (w : World) (e : Event) : Decidable (Timely w e) :=
  match e with
  | .idle => inferInstanceAs (Decidable (_ → _))
  | .half => inferInstanceAs (Decidable (_ → _))
  | .complete => inferInstanceAs (Decidable (_ = _))
  | .byte _ | .read => isTrue trivial

/-- The buffer holds the latest bytes of the stream, each in its place. -/
def BufferHolds (buf : ℕ → UInt8) (received : List UInt8) : Prop :=
  ∀ (j : ℕ) (h : j < received.length), received.length ≤ j + gwUartRxDmaBufferSize →
    buf (j % gwUartRxDmaBufferSize) = received[j]

structure Sound (w : World) : Prop where
  returns : w.hung = false
  cursor : w.dev.rxDmaLastPos < gwUartRxDmaBufferSize
  ring : w.dev.rxRing.Within gwRxRingSize
  buffer : BufferHolds w.dev.rxDmaBuf w.received
  middle : w.half = true → 128 ≤ w.received.length
  stream : w.dev.rxRingOverflowCount = 0 →
    w.dev.rxDmaLastPos = w.appended.length % gwUartRxDmaBufferSize ∧ w.appended <+: w.received

theorem bufferHolds_receive {buf : ℕ → UInt8} {received : List UInt8} (h : BufferHolds buf received)
    (b : UInt8) : BufferHolds (Function.update buf (received.length % gwUartRxDmaBufferSize) b)
      (received ++ [b]) := by
  intro j hj hlate
  have hsize : gwUartRxDmaBufferSize = 256 := rfl
  rw [List.length_append, List.length_singleton] at hj hlate
  rcases Nat.lt_succ_iff_lt_or_eq.mp hj with hlt | rfl
  -- a byte less than a lap old has another place than the new one
  · have hplace : j % gwUartRxDmaBufferSize ≠ received.length % gwUartRxDmaBufferSize := by
      rw [hsize] at hlate ⊢
      omega
    rw [Function.update_of_ne hplace, List.getElem_append_left hlt]
    exact h j hlt (by omega)
  · rw [Function.update_self, List.getElem_append_right le_rfl]
    simp only [Nat.sub_self, List.getElem_cons_zero]

/-- The rounds to a position pass over the bytes of the stream from the cursor on. -/
theorem passed_eq {s : Receiver} {received : List UInt8} (h : BufferHolds s.rxDmaBuf received)
    {c d : ℕ} (hcursor : s.rxDmaLastPos = c % gwUartRxDmaBufferSize)
    (hd : c + d ≤ received.length) (hlate : received.length ≤ c + gwUartRxDmaBufferSize) :
    received.take c ++ passed s d = received.take (c + d) := by
  induction d with
  | zero => rw [passed, List.range_zero, List.map_nil, List.append_nil, Nat.add_zero]
  | succ d ih =>
    have hlt : c + d < received.length := by omega
    unfold passed at ih ⊢
    rw [List.range_succ, List.map_append, List.map_singleton, ← List.append_assoc, ih (by omega),
      hcursor, Nat.mod_add_mod, h (c + d) hlt (by omega), ← Nat.add_assoc,
      List.take_succ_eq_append_getElem hlt]

/-- A callback for the place of byte `k` of the stream, which is not behind what was appended. -/
theorem serve_sound {w : World} (hw : Sound w) {k : ℕ} (hk : k ≤ w.received.length)
    (hnear : w.near k) :
    Sound (serve (k % gwUartRxDmaBufferSize) w) ∧
      (serve (k % gwUartRxDmaBufferSize) w).received = w.received ∧
      ((serve (k % gwUartRxDmaBufferSize) w).dev.rxRingOverflowCount = 0 →
        (serve (k % gwUartRxDmaBufferSize) w).appended = w.received.take k) := by
  have hsize : gwUartRxDmaBufferSize = 256 := rfl
  have hpos : k % gwUartRxDmaBufferSize < gwUartRxDmaBufferSize := Nat.mod_lt _ (by decide)
  have hclip : clipPos (k % gwUartRxDmaBufferSize) = k % gwUartRxDmaBufferSize :=
    if_neg (by omega)
  let d := rounds w.dev (k % gwUartRxDmaBufferSize)
  have hcallback : halUartExRxEventCallback (k % gwUartRxDmaBufferSize) w.dev =
      some (consumeOne^[d] w.dev) := by
    unfold halUartExRxEventCallback
    rw [hclip]
    exact consumeTo_ends hw.cursor hpos
  have hserve : serve (k % gwUartRxDmaBufferSize) w = { w with dev := consumeOne^[d] w.dev } := by
    unfold serve
    rw [hcallback]
  obtain ⟨hring, hle, hcontents⟩ := iterate_contents hw.ring hw.cursor d
  have hlast := iterate_lastPos hw.cursor d
  have hstream : (consumeOne^[d] w.dev).rxRingOverflowCount = 0 →
      (w.dev.rxDmaLastPos + d) % gwUartRxDmaBufferSize = k % gwUartRxDmaBufferSize ∧
        ({ w with dev := consumeOne^[d] w.dev } : World).appended = w.received.take k := by
    intro hzero
    have hzero' : w.dev.rxRingOverflowCount = 0 := by omega
    obtain ⟨hcursor, hprefix⟩ := hw.stream hzero'
    obtain ⟨hbehind, hlate⟩ := hnear hzero'
    have hd : d = (k % 256 + 256 - w.appended.length % 256) % 256 := by
      simp only [d, rounds, hcursor, hsize]
    -- the rounds go from what was appended to byte `k`, which is less than a lap ahead
    have hreach : w.appended.length + d = k := by
      rw [hsize] at hlate
      omega
    refine ⟨by rw [hcursor, Nat.mod_add_mod, hreach], ?_⟩
    have htake : w.appended = w.received.take w.appended.length := List.prefix_iff_eq_take.mp hprefix
    have hpassed := passed_eq hw.buffer hcursor (hreach.trans_le hk) hlate.le
    rw [← hreach, ← hpassed, ← htake]
    unfold World.appended
    dsimp only
    rw [hcontents (by omega), List.append_assoc]
  rw [hserve]
  refine ⟨⟨hw.returns, ?_, hring, ?_, hw.middle, fun hzero => ?_⟩, rfl, fun hzero => (hstream hzero).2⟩
  · dsimp only
    rw [hlast]
    exact Nat.mod_lt _ (by decide)
  · dsimp only
    rw [iterate_buf]
    exact hw.buffer
  · obtain ⟨hcursor, happended⟩ := hstream hzero
    refine ⟨?_, ?_⟩
    · rw [happended, List.length_take, Nat.min_eq_left hk, ← hcursor]
      exact hlast
    · rw [happended]
      exact List.take_prefix _ _

theorem halfMark_mod (n : ℕ) : halfMark n % gwUartRxDmaBufferSize = gwUartRxDmaBufferSize / 2 := by
  unfold halfMark gwUartRxDmaBufferSize
  omega

theorem halfMark_le {n : ℕ} (h : 128 ≤ n) : halfMark n ≤ n := by
  unfold halfMark
  omega

theorem receive_sound {w : World} (hw : Sound w) (b : UInt8) :
    Sound (receive b w) ∧ (receive b w).appended = w.appended := by
  refine ⟨⟨hw.returns, hw.cursor, hw.ring, bufferHolds_receive hw.buffer b, fun hhalf => ?_,
    fun hzero => ⟨(hw.stream hzero).1, (hw.stream hzero).2.trans (List.prefix_append _ _)⟩⟩, rfl⟩
  have hlength : (receive b w).received.length = w.received.length + 1 := List.length_append
  rw [hlength]
  rcases Bool.or_eq_true_iff.mp hhalf with hold | hplace
  · have hmiddle := hw.middle hold
    omega
  · have hplace := of_decide_eq_true hplace
    unfold gwUartRxDmaBufferSize at hplace
    omega

theorem readByte_sound {w : World} (hw : Sound w) :
    Sound (readByte w) ∧ (readByte w).received = w.received ∧
      (readByte w).appended = w.appended ∧
      (readByte w).dev.rxRingOverflowCount = w.dev.rxRingOverflowCount := by
  unfold readByte gwUartReadByte
  cases htake : w.dev.rxRing.take gwRxRingSize with
  | none => exact ⟨hw, rfl, rfl, rfl⟩
  | some r =>
    obtain ⟨hring, hcontents⟩ := Ring.take_spec hw.ring htake
    have happended : (w.taken ++ [r.1]) ++ r.2.contents gwRxRingSize = w.appended := by
      rw [World.appended, hcontents, List.append_assoc, List.singleton_append]
    refine ⟨⟨hw.returns, hw.cursor, hring, hw.buffer, hw.middle, fun hzero => ?_⟩, rfl, happended, rfl⟩
    obtain ⟨hcursor, hprefix⟩ := hw.stream hzero
    rw [← happended] at hcursor hprefix
    exact ⟨hcursor, hprefix⟩

theorem idleEvent_eq (w : World) : idleEvent w =
    if w.received.length % gwUartRxDmaBufferSize = 0 then w
    else serve (w.received.length % gwUartRxDmaBufferSize) w := by
  unfold idleEvent
  have hlt : w.received.length % gwUartRxDmaBufferSize < gwUartRxDmaBufferSize :=
    Nat.mod_lt _ (by decide)
  dsimp only
  by_cases hzero : w.received.length % gwUartRxDmaBufferSize = 0
  · rw [if_pos hzero, if_neg (by omega)]
  · rw [if_neg hzero, if_pos (by omega), Nat.sub_sub_self hlt.le]

theorem idleEvent_sound {w : World} (hw : Sound w)
    (hnear : w.received.length % gwUartRxDmaBufferSize ≠ 0 → w.near w.received.length) :
    Sound (idleEvent w) ∧ (idleEvent w).received = w.received ∧
      ((idleEvent w).dev.rxRingOverflowCount = 0 →
        w.received.length % gwUartRxDmaBufferSize ≠ 0 → (idleEvent w).appended = w.received) := by
  rw [idleEvent_eq]
  by_cases hzero : w.received.length % gwUartRxDmaBufferSize = 0
  · rw [if_pos hzero]
    exact ⟨hw, rfl, fun _ h => absurd hzero h⟩
  · rw [if_neg hzero]
    obtain ⟨hafter, hreceived, happended⟩ := serve_sound hw le_rfl (hnear hzero)
    refine ⟨hafter, hreceived, fun h _ => ?_⟩
    rw [happended h, List.take_length]

theorem step_sound (w : World) (e : Event) (hw : Sound w) (ht : Timely w e) :
    Sound (step w e).1 ∧ Delivers w e := by
  have hreturns := hw.returns
  cases e with
  | byte b =>
    have hafter := (receive_sound hw b).1
    refine ⟨hafter, hafter.returns, fun hzero => ⟨(hafter.stream hzero).2, nofun, nofun⟩⟩
  | idle =>
    have hstep : (step w .idle).1 = idleEvent w := if_neg (by rw [hreturns]; decide)
    obtain ⟨hafter, hreceived, hall⟩ := idleEvent_sound hw ht
    unfold Delivers
    rw [hstep]
    refine ⟨hafter, hafter.returns, fun hzero => ⟨(hafter.stream hzero).2, fun _ hplace => ?_, nofun⟩⟩
    rw [hreceived] at hplace ⊢
    exact hall hzero hplace
  | half =>
    unfold Delivers
    -- the callback for the middle only comes while its flag is set
    by_cases hhalf : w.half = true
    · have hstep : (step w .half).1 = serve (gwUartRxDmaBufferSize / 2) { w with half := false } :=
        if_neg (by rw [hreturns, hhalf]; decide)
      have hw' : Sound { w with half := false } :=
        ⟨hw.returns, hw.cursor, hw.ring, hw.buffer, nofun, hw.stream⟩
      obtain ⟨hafter, hreceived, hmarked⟩ :=
        serve_sound hw' (halfMark_le (hw.middle hhalf)) (ht hhalf)
      rw [halfMark_mod] at hafter hreceived hmarked
      rw [hstep]
      refine ⟨hafter, hafter.returns, fun hzero => ⟨(hafter.stream hzero).2, nofun, fun _ _ => ?_⟩⟩
      rw [hreceived]
      exact hmarked hzero
    · have hstep : (step w .half).1 = w := if_pos (Or.inr (Bool.eq_false_iff.mpr hhalf))
      rw [hstep]
      exact ⟨hw, hreturns, fun hzero => ⟨(hw.stream hzero).2, nofun, fun _ h => absurd h hhalf⟩⟩
  | complete =>
    have hstep : (step w .complete).1 = w := if_pos (Or.inr ht)
    unfold Delivers
    rw [hstep]
    exact ⟨hw, hreturns, fun hzero => ⟨(hw.stream hzero).2, nofun, nofun⟩⟩
  | read =>
    have hstep : (step w .read).1 = readByte w := if_neg (by rw [hreturns]; decide)
    have hafter := (readByte_sound hw).1
    unfold Delivers
    rw [hstep]
    exact ⟨hafter, hafter.returns, fun hzero => ⟨(hafter.stream hzero).2, nofun, nofun⟩⟩

theorem start_sound (buf slots : ℕ → UInt8) : Sound (start buf slots) :=
  ⟨rfl, Nat.zero_lt_succ _, ⟨Nat.zero_lt_succ _, Nat.zero_lt_succ _⟩, nofun, nofun,
    fun _ => ⟨rfl, List.nil_prefix⟩⟩

/-- In a run whose events are all timely the callbacks return and deliver the stream. -/
theorem timely_delivers (buf slots : ℕ → UInt8) (es : List Event)
    (h : Always step Timely (start buf slots) es) : Always step Delivers (start buf slots) es :=
  Always.of_invariant (I := Sound) step_sound (start_sound buf slots) h

/-- Two bytes and an idle line, a first half that fills up, and a byte beyond it. -/
def greeting : List Event :=
  [.byte 72, .byte 105, .idle, .read] ++ List.replicate 126 (.byte 33) ++
    [.half, .read, .byte 10, .idle, .read]

theorem greeting_delivered :
    Always step Timely (start (fun _ => 0) (fun _ => 0)) greeting ∧
      Always step Delivers (start (fun _ => 0) (fun _ => 0)) greeting := by
  have htimely : Always step Timely (start (fun _ => 0) (fun _ => 0)) greeting := by
    decide +kernel
  exact ⟨htimely, timely_delivers _ _ _ htimely⟩

/-- A buffer filled to the end: the callback for it waits for position 256. -/
def bufferFull : List Event :=
  List.replicate 128 (.byte 65) ++ .half :: List.replicate 128 (.byte 66) ++ [.complete]

theorem bufferFull_hangs :
    ¬ Always step Delivers (start (fun _ => 0) (fun _ => 0)) bufferFull := by
  intro h
  have hlast := ((always_append step _ _ _ _).mp h).2.1.1
  have hhung : (step (run step (start (fun _ => 0) (fun _ => 0))
      (List.replicate 128 (.byte 65) ++ .half :: List.replicate 128 (.byte 66))) .complete).1.hung =
        true := by
    decide +kernel
  exact Bool.noConfusion (hhung.symm.trans hlast)

end EdgeLink.RxDma
