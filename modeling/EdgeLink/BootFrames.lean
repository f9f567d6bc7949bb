import EdgeLink.WireFrame

namespace EdgeLink.BootFrames
open LittleEndian
open Gateway (wireFrame wireFrame_length)

/-! The bootloader's frame reader, on a stream whose bytes come in time; behind the last byte every
read times out. -/

/-- Reads up to the two bytes of a header, and gives what is behind them. -/
def findHeader : Bytes → Option Bytes
  | [] => none
  | b :: s =>
    if b = 0xAA then
      match s with
      | [] => none
      | b :: s => if b = 0x55 then some s else findHeader s
    else findHeader s

/-- What `bl_read_frame` returns: 0, 1 with a frame, or it has written behind one of its buffers. -/
inductive Outcome
  | zero
  | one (type : UInt8) (payload : Bytes)
  | overrun
  deriving DecidableEq

/-- The size of the caller's payload buffer. -/
def payloadSize : ℕ := 255

def crcBufSize : ℕ := 260

/-- What is read behind the header, and the rest of the stream. -/
def readBody : Bytes → Outcome × Bytes
  | [] => (.zero, [])
  | wire_len :: s =>
    if wire_len < 1 ∨ wire_len > 255 then (.zero, s)
    else
      match s with
      | [] => (.zero, [])
      | type :: s =>
        let payload_len := (wire_len - 1).toNat
        let payload := s.take payload_len
        if payload.length > payloadSize then (.overrun, [])
        else if payload.length < payload_len then (.zero, [])
        else
          match s.drop payload_len with
          | c0 :: c1 :: s =>
            let crc_buf := wire_len :: type :: payload
            if crc_buf.length > crcBufSize ∨ crc_buf.length < wire_len.toNat + 1 then (.overrun, s)
            else
              let calc_crc := blCrc16Modbus (crc_buf.take (wire_len.toNat + 1))
              (if word16 c0 c1 = calc_crc then .one type payload else .zero, s)
          | _ => (.zero, [])

def blReadFrame (stream : Bytes) : Outcome × Bytes :=
  match findHeader stream with
  | none => (.zero, [])
  | some s => readBody s

/-- No `AA 55` in it. -/
def NoHeader (g : Bytes) : Prop := ¬[0xAA, 0x55] <:+: g

instance (g : Bytes) : Decidable (NoHeader g) := inferInstanceAs (Decidable (¬_))

/-- How many `AA` it ends in. -/
def trailing (g : Bytes) : ℕ := (g.reverse.takeWhile (· == 0xAA)).length

theorem findHeader_cons {b : UInt8} (hb : b ≠ 0xAA) (s : Bytes) :
    findHeader (b :: s) = findHeader s := by
  rw [findHeader.eq_def]
  exact if_neg hb

theorem findHeader_mark {c : UInt8} (hc : c ≠ 0x55) (s : Bytes) :
    findHeader (0xAA :: c :: s) = findHeader s := by
  rw [findHeader, if_pos rfl]
  exact if_neg hc

theorem findHeader_length {s r : Bytes} (h : findHeader s = some r) : r.length + 2 ≤ s.length := by
  induction s using findHeader.induct with
  | case1 => cases h
  | case2 => cases h
  | case3 s =>
    obtain rfl := Option.some.inj h
    exact le_rfl
  | case4 c s hc ih =>
    rw [findHeader_mark hc] at h
    have hle := ih h
    rw [List.length_cons, List.length_cons]
    omega
  | case5 b s hb ih =>
    rw [findHeader_cons hb] at h
    exact (ih h).trans (by simp)

/-- Garbage that does not end in `AA` is read over. -/
theorem findHeader_garbage {g : Bytes} (hg : NoHeader g) (hlast : g.getLast? ≠ some 0xAA) (s : Bytes) :
    findHeader (g ++ s) = findHeader s := by
  induction hn : g.length using Nat.strong_induction_on generalizing g with
  | _ n ih =>
    subst hn
    rcases g with _ | ⟨b, g⟩
    · rfl
    by_cases hb : b = 0xAA
    · subst hb
      rcases g with _ | ⟨c, g⟩
      · exact absurd rfl hlast
      have hc : c ≠ 0x55 := by
        rintro rfl
        exact hg ⟨[], g, rfl⟩
      rw [List.cons_append, List.cons_append, findHeader_mark hc]
      refine ih g.length (by simp) (fun h => hg (h.trans ?_)) ?_ rfl
      · exact (List.suffix_append [0xAA, c] g).isInfix
      · cases g with
        | nil => exact nofun
        | cons d g => exact hlast
    · rw [List.cons_append, findHeader_cons hb]
      refine ih g.length (by simp) (fun h => hg (h.trans (List.suffix_cons b g).isInfix)) ?_ rfl
      cases g with
      | nil => exact nofun
      | cons d g => exact hlast

theorem findHeader_pairs (k : ℕ) (s : Bytes) :
    findHeader (List.replicate (2 * k) 0xAA ++ s) = findHeader s := by
  induction k with
  | zero => rfl
  | succ k ih =>
    rw [Nat.mul_succ, List.replicate_succ, List.replicate_succ]
    exact (findHeader_mark (by decide) _).trans ih

/-- Garbage is what does not end in `AA`, and the `AA` behind it. -/
theorem garbage_split (g : Bytes) : ∃ t, g = t ++ List.replicate (trailing g) 0xAA ∧
    t.getLast? ≠ some 0xAA := by
  refine ⟨(g.reverse.dropWhile (· == 0xAA)).reverse, ?_, ?_⟩
  · have hrun : g.reverse.takeWhile (· == 0xAA) = List.replicate (trailing g) 0xAA :=
      List.eq_replicate_of_mem fun b hb => beq_iff_eq.mp (@List.mem_takeWhile_imp _ (· == 0xAA) _ b hb)
    have hsplit := congrArg List.reverse (List.takeWhile_append_dropWhile (p := (· == 0xAA)) (l := g.reverse))
    rw [List.reverse_append, List.reverse_reverse, hrun, List.reverse_replicate] at hsplit
    exact hsplit.symm
  · rw [List.getLast?_reverse]
    intro h
    have hnot := List.head?_dropWhile_not (· == 0xAA) g.reverse
    rw [h] at hnot
    exact absurd hnot (by decide)

/-- Behind an even number of `AA` a header is found, behind an odd number it is taken apart. -/
theorem findHeader_frame {g : Bytes} (hg : NoHeader g) (s : Bytes) :
    findHeader (g ++ 0xAA :: 0x55 :: s) = if Even (trailing g) then some s else findHeader s := by
  obtain ⟨t, hsplit, hlast⟩ := garbage_split g
  have ht : NoHeader t := by
    intro h
    apply hg
    rw [hsplit]
    exact h.trans (List.prefix_append _ _).isInfix
  conv_lhs => rw [hsplit, List.append_assoc, findHeader_garbage ht hlast]
  split_ifs with heven
  · obtain ⟨k, hk⟩ := heven.two_dvd
    rw [hk, findHeader_pairs]
    rfl
  · obtain ⟨k, hk⟩ := Nat.not_even_iff_odd.mp heven
    rw [hk, List.replicate_add, List.append_assoc, findHeader_pairs]
    exact (findHeader_mark (by decide) _).trans (findHeader_cons (by decide) s)

section Body

variable (type : UInt8) {payload : Bytes}

/-- The body of a frame is read as it was put. -/
theorem readBody_frame (h : payload.length < 255) (rest : Bytes) :
    readBody (UInt8.ofNat (payload.length + 1) :: type :: payload ++
      (bytes16 (crc16Modbus (UInt8.ofNat (payload.length + 1) :: type :: payload)) ++ rest)) =
      (.one type payload, rest) := by
  generalize hlen : UInt8.ofNat (payload.length + 1) = wire_len
  have htoNat : wire_len.toNat = payload.length + 1 := by
    rw [← hlen, UInt8.toNat_ofNat']
    omega
  have hpayload : (wire_len - 1).toNat = payload.length := by
    rw [UInt8.toNat_sub, htoNat]
    have hone : (1 : UInt8).toNat = 1 := rfl
    omega
  have hpos : ¬(wire_len < 1 ∨ wire_len > 255) := by
    rw [UInt8.lt_iff_toNat_lt, gt_iff_lt, UInt8.lt_iff_toNat_lt, htoNat]
    have hone : (1 : UInt8).toNat = 1 := rfl
    have hmax : (255 : UInt8).toNat = 255 := rfl
    omega
  obtain ⟨c0, c1, hcrc, hword⟩ : ∃ c0 c1, bytes16 (crc16Modbus (wire_len :: type :: payload)) =
      [c0, c1] ∧ word16 c0 c1 = crc16Modbus (wire_len :: type :: payload) :=
    ⟨_, _, bytes16_eq _, word16_bytes16 _⟩
  have hbuf : (wire_len :: type :: payload).length = wire_len.toNat + 1 := by
    rw [htoNat, List.length_cons, List.length_cons]
  have hfits : ¬((wire_len :: type :: payload).length > crcBufSize ∨
      (wire_len :: type :: payload).length < wire_len.toNat + 1) := by
    rw [hbuf, htoNat]
    unfold crcBufSize
    omega
  have hroom : ¬payload.length > payloadSize := by
    unfold payloadSize
    omega
  rw [hcrc, readBody.eq_def]
  dsimp only [List.cons_append]
  rw [if_neg hpos, hpayload, List.take_left, List.drop_left, if_neg hroom, if_neg (lt_irrefl _)]
  dsimp only [List.cons_append, List.nil_append]
  rw [if_neg hfits, ← hbuf, List.take_length, hword]
  exact Prod.ext (if_pos rfl) rfl

end Body

/-- No length makes the reader write behind its buffers, and a frame is no longer than what is read. -/
theorem readBody_spec (s : Bytes) : (readBody s).1 ≠ .overrun ∧
    ∀ t p, (readBody s).1 = .one t p → p.length + 4 ≤ s.length := by
  rcases s with _ | ⟨wire_len, s⟩
  · exact ⟨nofun, nofun⟩
  rw [readBody.eq_def]
  dsimp only
  split_ifs with hlen
  · exact ⟨nofun, nofun⟩
  rcases s with _ | ⟨type, s⟩
  · exact ⟨nofun, nofun⟩
  dsimp only
  obtain ⟨hpos, -⟩ := not_or.mp hlen
  have hlt := wire_len.toNat_lt
  have hpayload : (wire_len - 1).toNat + 1 = wire_len.toNat := by
    rw [UInt8.lt_iff_toNat_lt] at hpos
    rw [UInt8.toNat_sub]
    have hone : (1 : UInt8).toNat = 1 := rfl
    omega
  have htake := List.length_take_le (wire_len - 1).toNat s
  rw [if_neg (by unfold payloadSize; omega)]
  by_cases hshort : (s.take (wire_len - 1).toNat).length < (wire_len - 1).toNat
  · rw [if_pos hshort]
    exact ⟨nofun, nofun⟩
  rw [if_neg hshort]
  have hwhole : (s.take (wire_len - 1).toNat).length = (wire_len - 1).toNat := by omega
  have hrest : (s.drop (wire_len - 1).toNat).length = s.length - (wire_len - 1).toNat := List.length_drop
  rcases hdrop : s.drop (wire_len - 1).toNat with _ | ⟨c0, _ | ⟨c1, rest⟩⟩
  · exact ⟨nofun, nofun⟩
  · exact ⟨nofun, nofun⟩
  · rw [hdrop, List.length_cons, List.length_cons] at hrest
    dsimp only
    have hfits : ¬((wire_len :: type :: s.take (wire_len - 1).toNat).length > crcBufSize ∨
        (wire_len :: type :: s.take (wire_len - 1).toNat).length < wire_len.toNat + 1) := by
      unfold crcBufSize
      rw [List.length_cons, List.length_cons, hwhole]
      omega
    rw [if_neg hfits]
    split_ifs
    · refine ⟨nofun, fun t p h => ?_⟩
      injection h with _ hp
      rw [← hp, hwhole]
      simp only [List.length_cons]
      omega
    · exact ⟨nofun, nofun⟩

theorem readFrame_spec (s : Bytes) : (blReadFrame s).1 ≠ .overrun ∧
    ∀ t p, (blReadFrame s).1 = .one t p → p.length + 6 ≤ s.length := by
  unfold blReadFrame
  cases hfind : findHeader s with
  | none => exact ⟨nofun, nofun⟩
  | some r =>
    obtain ⟨hover, hlen⟩ := readBody_spec r
    have hfront := findHeader_length hfind
    refine ⟨hover, fun t p h => ?_⟩
    have hle := hlen t p h
    omega

/-- The reader finds the frame behind garbage if and only if the garbage ends in an even number of
`AA`, and no stream makes it write behind its buffers. -/
theorem readFrame_iff {g : Bytes} (hg : NoHeader g) (type : UInt8) {payload : Bytes}
    (h : payload.length < 255) :
    ((blReadFrame (g ++ wireFrame type payload)).1 = .one type payload ↔ Even (trailing g)) ∧
      ∀ s, (blReadFrame s).1 ≠ .overrun := by
  refine ⟨?_, fun s => (readFrame_spec s).1⟩
  have hframe : wireFrame type payload = 0xAA :: 0x55 ::
      (UInt8.ofNat (payload.length + 1) :: type :: payload ++
        (bytes16 (crc16Modbus (UInt8.ofNat (payload.length + 1) :: type :: payload)) ++ [])) := by
    rw [List.append_nil]
    rfl
  have hfind := findHeader_frame hg (UInt8.ofNat (payload.length + 1) :: type :: payload ++
    (bytes16 (crc16Modbus (UInt8.ofNat (payload.length + 1) :: type :: payload)) ++ []))
  rw [← hframe] at hfind
  constructor
  · intro hone
    by_contra hodd
    rw [if_neg hodd] at hfind
    -- what is left of the frame is too short for its payload
    have hsame : blReadFrame (g ++ wireFrame type payload) = blReadFrame
        (UInt8.ofNat (payload.length + 1) :: type :: payload ++
          (bytes16 (crc16Modbus (UInt8.ofNat (payload.length + 1) :: type :: payload)) ++ [])) := by
      unfold blReadFrame
      rw [hfind]
    rw [hsame] at hone
    have hle := (readFrame_spec _).2 type payload hone
    rw [List.append_nil, List.length_append, bytes16_length, List.length_cons, List.length_cons] at hle
    omega
  · intro heven
    rw [if_pos heven] at hfind
    unfold blReadFrame
    rw [hfind]
    dsimp only
    rw [readBody_frame type h]

theorem readFrame_after_pair :
    (blReadFrame ([0x55, 0xAA, 0xAA] ++ wireFrame 0x31 [7, 0xAA])).1 = .one 0x31 [7, 0xAA] :=
  (readFrame_iff (by decide) 0x31 (by decide)).1.mpr (by decide)

/-- One `AA` before the frame, and the reader misses it. -/
theorem readFrame_after_mark : NoHeader [0xAA] ∧
    (blReadFrame ([0xAA] ++ wireFrame 0x37 [])).1 = .zero := by
  constructor
  · decide
  · decide +kernel

end EdgeLink.BootFrames
