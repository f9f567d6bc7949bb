import EdgeLink.FrameParser

namespace EdgeLink.Gateway
open LittleEndian

def GW_FRAME_BUF_SIZE : ℕ := 128

def gwParser : Scanner UInt8 Seen := frameScanner 5 (GW_FRAME_BUF_SIZE - 5) (by decide)

/-- The frame buffer, and the calls of `gw_process_frame`. -/
structure GwRx where
  frameBuf : Bytes
  processed : List (UInt8 × Bytes)

def gwProcessFrame (processed : List (UInt8 × Bytes)) (r : ℕ × Seen) : List (UInt8 × Bytes) :=
  match r.2 with
  | .frame wireType payload => processed ++ [(wireType, payload)]
  | .dropped | .crcError => processed

def gwProcessRxByte (rx : GwRx) (byte : UInt8) : GwRx :=
  let frameBuf := if GW_FRAME_BUF_SIZE ≤ rx.frameBuf.length then [] else rx.frameBuf
  let r := gwParser.drain gwProcessFrame (frameBuf ++ [byte]) rx.processed
  ⟨r.1, r.2⟩

/-- The buffer never fills up: a header that is believed ends its frame inside it. -/
theorem gw_waits_short {b : Bytes} (h : gwParser.next b = none) : b.length < GW_FRAME_BUF_SIZE := by
  have h' : lookFrame 5 (GW_FRAME_BUF_SIZE - 5) b = none := h
  rw [lookFrame_eq] at h'
  by_cases hmin : b.length < 5
  · exact hmin.trans (by decide)
  rw [if_neg hmin] at h'
  by_cases hhead : IsHeader (GW_FRAME_BUF_SIZE - 5) b
  · rw [if_neg (not_not.mpr hhead)] at h'
    have hlen := hhead.2.2.2
    by_cases hsize : b.length < frameSize b
    · unfold frameSize at hsize
      unfold GW_FRAME_BUF_SIZE at hlen ⊢
      omega
    · rw [if_neg hsize] at h'
      split_ifs at h'
  · rw [if_pos hhead] at h'
    cases h'

theorem gwProcessRxByte_eq {rx : GwRx} (h : gwParser.next rx.frameBuf = none) (byte : UInt8) :
    gwProcessRxByte rx byte =
      ⟨(gwParser.drain gwProcessFrame (rx.frameBuf ++ [byte]) rx.processed).1,
        (gwParser.drain gwProcessFrame (rx.frameBuf ++ [byte]) rx.processed).2⟩ := by
  unfold gwProcessRxByte
  rw [if_neg (not_le.mpr (gw_waits_short h))]

/-- Byte by byte the device does what its loop does on the whole stream. -/
theorem gw_foldl {rx : GwRx} (h : gwParser.next rx.frameBuf = none) (stream : Bytes) :
    stream.foldl gwProcessRxByte rx =
      ⟨(gwParser.drain gwProcessFrame (rx.frameBuf ++ stream) rx.processed).1,
        (gwParser.drain gwProcessFrame (rx.frameBuf ++ stream) rx.processed).2⟩ := by
  induction stream generalizing rx with
  | nil => rw [List.append_nil, gwParser.drain_stop _ _ h, List.foldl_nil]
  | cons byte stream ih =>
    rw [List.foldl_cons, ih, gwProcessRxByte_eq h]
    · rw [← gwParser.drain_append, List.append_assoc, List.singleton_append]
    · rw [gwProcessRxByte_eq h]
      exact gwParser.drain_waits _ _ _

/-- The parser, run over the stream, comes upon a frame at byte `i` and accepts it. -/
def Delivers (parser : Scanner UInt8 Seen) (stream : Bytes) (i : ℕ) : Prop :=
  ∃ wireType payload, (i, Seen.frame wireType payload) ∈ parser.log stream

def recordOf : ℕ × Seen → Option SensorData
  | (_, .frame wireType payload) => parsePayload (frameTypeFromWire wireType) payload
  | (_, .dropped) | (_, .crcError) => none

def requestOf : ℕ × Seen → Option (UInt8 × Bytes)
  | (_, .frame wireType payload) => some (wireType, payload)
  | (_, .dropped) | (_, .crcError) => none

/-- The device hands on what its parser accepts. -/
theorem gw_processed (stream : Bytes) : (stream.foldl gwProcessRxByte ⟨[], []⟩).processed =
    (gwParser.log stream).filterMap requestOf := by
  rw [gw_foldl gwParser.next_nil]
  refine (gwParser.drain_rel (f := gwProcessFrame) (g := Scanner.note)
    (R := fun x y => x = y.2.filterMap requestOf) ?_ stream (x := []) (y := (0, [])) rfl).2
  intro x y _ r _ h
  simp only [Scanner.note, List.filterMap_append, ← h]
  obtain ⟨n, e⟩ := r
  cases e <;> simp [gwProcessFrame, requestOf]

/-- The gateway gives out the records of what its parser accepts. -/
theorem extract_records (stream : Bytes) (now : ℕ → UInt64) (counters : ParseCounters) :
    ((⟨stream⟩ : FrameParser).extract now counters).2.1.map untimed =
      (frameParser.log stream).filterMap recordOf := by
  refine (frameParser.drain_rel (f := account now) (g := Scanner.note)
    (R := fun x y => x.out.map untimed = y.2.filterMap recordOf) ?_ stream
    (x := ⟨[], counters, 0⟩) (y := (0, [])) rfl).2
  intro x y _ r _ h
  simp only [Scanner.note, List.filterMap_append, ← h]
  obtain ⟨n, e⟩ := r
  cases e with
  | dropped => simp [account, recordOf]
  | crcError => simp [account, recordOf]
  | frame wireType payload =>
    have hnew : [(y.1, Seen.frame wireType payload)].filterMap recordOf =
        (parsePayload (frameTypeFromWire wireType) payload).toList := by
      cases hp : parsePayload (frameTypeFromWire wireType) payload <;> simp [recordOf, hp]
    rw [hnew]
    unfold account
    dsimp only
    cases hp : parsePayload (frameTypeFromWire wireType) payload with
    | some data =>
      have hdata : untimed { data with timestampUnixMs := now x.frames } = data :=
        untimed_parsePayload hp
      dsimp only
      rw [List.map_append, List.map_singleton, hdata]
      rfl
    | none =>
      dsimp only
      rw [Option.toList_none, List.append_nil]
      by_cases hu : frameTypeFromWire wireType = .unknown
      · rw [if_pos hu]
      · rw [if_neg hu]

/-- A complete frame with the right CRC starts at byte `i`. -/
def WellFormedAt (stream : Bytes) (i : ℕ) : Prop :=
  IsHeader 255 (stream.drop i) ∧ i + frameSize (stream.drop i) ≤ stream.length ∧
    CrcOk (stream.drop i)

/-- It also starts outside every other one. -/
def Intact (stream : Bytes) (i : ℕ) : Prop :=
  WellFormedAt stream i ∧
    ∀ j < i, WellFormedAt stream j → j + frameSize (stream.drop j) ≤ i

/-- So much has followed that no frame that started before `i` can still be incomplete. -/
def Settled (stream : Bytes) (i : ℕ) : Prop := i + (255 + 5) ≤ stream.length

/-- No header, or look-alike of one, reaches over byte `i`, unless it is itself reached over. -/
def Clear (maxLen : ℕ) (stream : Bytes) (i : ℕ) : Prop :=
  ∀ k, k < i → IsHeader maxLen (stream.drop k) → Clear maxLen stream k →
    k + frameSize (stream.drop k) ≤ i
termination_by i

section Reach
variable {minSize maxLen : ℕ} {hmin : 4 ≤ minSize} {stream : Bytes} {i : ℕ}

theorem next_header (hhead : IsHeader maxLen (stream.drop i)) {r : ℕ × Seen} (hn : (frameScanner minSize maxLen hmin).next (stream.drop i) = some r) :
    r.1 = frameSize (stream.drop i) := by
  obtain ⟨-, ⟨hno, -⟩ | ⟨-, -, rfl⟩⟩ := lookFrame_some.mp hn
  · exact absurd hhead hno
  · rfl

/-- The loop looks at exactly the bytes that are clear. -/
theorem reach_iff_clear (hlen : i + minSize ≤ stream.length) :
    (frameScanner minSize maxLen hmin).Reach stream i ↔ Clear maxLen stream i := by
  induction i using Nat.strong_induction_on with
  | _ i ih =>
    constructor
    · intro hi
      rw [Clear]
      intro k hk hhead hclear
      have hreach := (ih k hk (by omega)).mpr hclear
      obtain ⟨r, hn, hle⟩ := hreach.jump hi hk
      rw [next_header hhead hn] at hle
      exact hle
    · intro hclear
      rw [Clear] at hclear
      -- walk on from any place that is looked at, at the latest until i
      have hwalk : ∀ d p, p + d = i → (frameScanner minSize maxLen hmin).Reach stream p →
          (frameScanner minSize maxLen hmin).Reach stream i := by
        intro d
        induction d using Nat.strong_induction_on with
        | _ d walk =>
          intro p hp hreach
          by_cases hd : d = 0
          · rw [← hp, hd]
            exact hreach
          have hroom : minSize ≤ (stream.drop p).length := by
            rw [List.length_drop]
            omega
          by_cases hhead : IsHeader maxLen (stream.drop p)
          · have hend := hclear p (by omega) hhead ((ih p (by omega) (by omega)).mp hreach)
            have hpos := frameSize_pos (stream.drop p)
            refine walk (d - frameSize (stream.drop p)) (by omega) _ (by omega)
              (hreach.step (lookFrame_some.mpr ⟨hroom, Or.inr ⟨hhead, ?_, rfl⟩⟩))
            rw [List.length_drop]
            omega
          · exact walk (d - 1) (by omega) _ (by omega)
              (hreach.step (lookFrame_some.mpr ⟨hroom, Or.inl ⟨hhead, rfl⟩⟩))
      exact hwalk i 0 (Nat.zero_add i) Scanner.Reach.here

/-- A well-formed frame is delivered if its LEN is believed and its first byte is clear. -/
theorem delivers_iff (hsize : minSize ≤ 6) (h : WellFormedAt stream i) :
    Delivers (frameScanner minSize maxLen hmin) stream i ↔
      ((stream.drop i).getD 2 0).toNat ≤ maxLen ∧ Clear maxLen stream i := by
  obtain ⟨⟨h0, h1, h2, -⟩, hroom, hcrc⟩ := h
  have hsix : 6 ≤ frameSize (stream.drop i) := Nat.add_le_add_right h2 5
  have hdrop : (stream.drop i).length = stream.length - i := List.length_drop
  rw [← @reach_iff_clear minSize maxLen hmin stream i (by omega)]
  unfold Delivers
  simp only [Scanner.mem_log]
  constructor
  · rintro ⟨wireType, payload, hreach, n, hn⟩
    obtain ⟨-, ⟨-, hr⟩ | ⟨hhead, -, -⟩⟩ := lookFrame_some.mp hn
    · cases hr
    · exact ⟨hhead.2.2.2, hreach⟩
  · rintro ⟨hlen, hreach⟩
    have hnext : (frameScanner minSize maxLen hmin).next (stream.drop i) =
        some (frameSize (stream.drop i), frameOf (stream.drop i)) := by
      refine lookFrame_some.mpr ⟨by omega, Or.inr ⟨⟨h0, h1, h2, hlen⟩, by omega, ?_⟩⟩
      rw [if_pos hcrc]
    exact ⟨_, _, hreach, _, hnext⟩

end Reach

/-- Both parsers deliver every intact frame of a stream exactly if no look-alike of a header, of
either parser's kind, reaches over one, and none is too long for the device. -/
theorem resync_iff (stream : Bytes) :
    (∀ i, Intact stream i → Settled stream i →
      Delivers frameParser stream i ∧ Delivers gwParser stream i) ↔
    ∀ i, Intact stream i → Settled stream i →
      Clear 255 stream i ∧ Clear (GW_FRAME_BUF_SIZE - 5) stream i ∧
        ((stream.drop i).getD 2 0).toNat ≤ GW_FRAME_BUF_SIZE - 5 := by
  apply forall_congr'
  intro i
  apply imp_congr_right
  intro hi
  apply imp_congr_right
  intro _
  have hgateway : Delivers frameParser stream i ↔ _ := delivers_iff (by decide) hi.1
  have hdevice : Delivers gwParser stream i ↔ _ := delivers_iff (by decide) hi.1
  rw [hgateway, hdevice]
  constructor
  · rintro ⟨⟨-, hc⟩, hlen, hd⟩
    exact ⟨hc, hd, hlen⟩
  · rintro ⟨hc, hd, hlen⟩
    exact ⟨⟨hi.1.1.2.2.2, hc⟩, hlen, hd⟩

/-- Three bytes of noise, a heartbeat of device 3, and quiet. -/
def noisyStream : Bytes :=
  [0xAA, 0x55, 0x14] ++ [0xAA, 0x55, 0x02, 0x03, 0x03, 0x90, 0xF1] ++ List.replicate 300 0

theorem heartbeat_swallowed : ¬ ∀ i, Intact noisyStream i → Settled noisyStream i →
    Delivers frameParser noisyStream i ∧ Delivers gwParser noisyStream i := by
  intro h
  have hwell : WellFormedAt noisyStream 3 := by unfold WellFormedAt; decide +kernel
  have hintact : Intact noisyStream 3 := by
    refine ⟨hwell, fun j hj hw => ?_⟩
    interval_cases j
    · exact absurd hw.2.2 (by decide +kernel)
    · exact absurd hw.1 (by decide +kernel)
    · exact absurd hw.1 (by decide +kernel)
  have hdel := (delivers_iff (by decide) hwell).mp (h 3 hintact (by unfold Settled; decide +kernel)).1
  have hclear := hdel.2
  rw [Clear] at hclear
  -- the noise claims 25 bytes, and nothing stands before it
  have hstart : Clear 255 noisyStream 0 := by
    rw [Clear]
    exact fun k hk => absurd hk (Nat.not_lt_zero k)
  exact absurd (hclear 0 (by decide) (by decide +kernel) hstart) (by decide +kernel)

end EdgeLink.Gateway
