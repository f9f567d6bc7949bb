import EdgeLink.Resync

namespace EdgeLink.Gateway
open LittleEndian

/-! The device's frame buffer as an array and a length: every access says whether it is inside. -/

structure RxBuffer where
  frame_buf : ℕ → UInt8
  frame_len : ℕ

/-- How a piece of the parser ends: it has used an index that is not inside, it goes on for ever, or
it is done. -/
inductive Ran (α : Type)
  | fault
  | spins
  | done (a : α)

namespace RxBuffer

def get (s : RxBuffer) (i : ℕ) : Option UInt8 := if i < s.frame_len then some (s.frame_buf i) else none

def slice (s : RxBuffer) (i n : ℕ) : Option Bytes :=
  if i + n ≤ s.frame_len then some ((List.range n).map fun k => s.frame_buf (i + k)) else none

/-- `frame_buf[frame_len++] = byte`. -/
def put (s : RxBuffer) (byte : UInt8) : Option RxBuffer :=
  if s.frame_len < GW_FRAME_BUF_SIZE then
    some ⟨Function.update s.frame_buf s.frame_len byte, s.frame_len + 1⟩
  else none

/-- `memmove(frame_buf, &frame_buf[n], frame_len - n)`, unless there is nothing to move, and then
`frame_len -= n`. -/
def discard (s : RxBuffer) (n : ℕ) : Option RxBuffer :=
  if n ≤ s.frame_len then
    let rest := s.frame_len - n
    some ⟨fun i => if i < rest then s.frame_buf (n + i) else s.frame_buf i, rest⟩
  else none

def contents (s : RxBuffer) : Bytes := (List.range s.frame_len).map s.frame_buf

end RxBuffer

/-- What a round of the loop does: it breaks out, or it goes on with a call of `gw_process_frame`
or without one. -/
inductive Round
  | stop
  | next (s : RxBuffer) (call : Option (UInt8 × Bytes))

/-- A round whose length byte is believed. -/
def frameRound (s : RxBuffer) (wire_len : UInt8) : Option Round :=
  let total_len := 2 + 1 + wire_len.toNat + 2
  if s.frame_len < total_len then some .stop
  else
    (s.get (total_len - 2)).bind fun lo =>
    (s.get (total_len - 1)).bind fun hi =>
    (s.slice 2 (wire_len.toNat + 1)).bind fun covered =>
    (if word16 lo hi = crc16Modbus covered then
      (s.get 3).bind fun type =>
      (s.slice 4 (wire_len.toNat - 1)).map fun payload => some (type, payload)
    else some none).bind fun call =>
    (s.discard total_len).map fun s => .next s call

/-- The body of the loop. -/
def gwRound (s : RxBuffer) : Option Round :=
  if s.frame_len < 5 then some .stop
  else
    (s.get 0).bind fun head0 =>
    (s.get 1).bind fun head1 =>
    if head0 ≠ 0xAA ∨ head1 ≠ 0x55 then (s.discard 1).map fun s => .next s none
    else
      (s.get 2).bind fun wire_len =>
      if wire_len.toNat < 1 ∨ GW_FRAME_BUF_SIZE - 5 < wire_len.toNat then
        (s.discard 1).map fun s => .next s none
      else frameRound s wire_len

/-- The loop, for as many rounds as the fuel lasts, and the calls that it makes. -/
def gwLoop : ℕ → RxBuffer → List (UInt8 × Bytes) → Ran (RxBuffer × List (UInt8 × Bytes))
  | 0, _, _ => .spins
  | fuel + 1, s, calls =>
    match gwRound s with
    | none => .fault
    | some .stop => .done (s, calls)
    | some (.next s call) => gwLoop fuel s (calls ++ call.toList)

/-- The buffer, the calls of `gw_process_frame`, and how often the buffer was reset. -/
structure RxState where
  buf : RxBuffer
  calls : List (UInt8 × Bytes)
  resets : ℕ

/-- One call of `gw_process_rx_byte`. The loop goes on for ever if it makes more rounds than the
buffer has bytes. -/
def gwProcessByte (s : RxState) (byte : UInt8) : Ran RxState :=
  let full := GW_FRAME_BUF_SIZE ≤ s.buf.frame_len
  let buf : RxBuffer := if full then { s.buf with frame_len := 0 } else s.buf
  match buf.put byte with
  | none => .fault
  | some buf =>
    match gwLoop (buf.frame_len + 1) buf s.calls with
    | .fault => .fault
    | .spins => .spins
    | .done (buf, calls) => .done ⟨buf, calls, s.resets + if full then 1 else 0⟩

def gwProcessBytes (s : RxState) : Bytes → Ran RxState
  | [] => .done s
  | byte :: stream =>
    match gwProcessByte s byte with
    | .fault => .fault
    | .spins => .spins
    | .done s => gwProcessBytes s stream

def gwInitial : RxState := ⟨⟨fun _ => 0, 0⟩, [], 0⟩

section Accesses

variable {s : RxBuffer} {i n : ℕ}

theorem RxBuffer.contents_length (s : RxBuffer) : s.contents.length = s.frame_len := by
  unfold contents
  rw [List.length_map, List.length_range]

theorem RxBuffer.getElem?_contents (h : i < s.frame_len) : s.contents[i]? = some (s.frame_buf i) := by
  unfold contents
  rw [List.getElem?_map, List.getElem?_range h, Option.map_some]

theorem RxBuffer.getD_contents (h : i < s.frame_len) : s.contents.getD i 0 = s.frame_buf i := by
  rw [List.getD_eq_getElem?_getD, getElem?_contents h, Option.getD_some]

theorem RxBuffer.get_eq (h : i < s.frame_len) : s.get i = some (s.contents.getD i 0) := by
  rw [get, if_pos h, getD_contents h]

theorem RxBuffer.slice_eq (h : i + n ≤ s.frame_len) :
    s.slice i n = some ((s.contents.drop i).take n) := by
  rw [slice, if_pos h]
  refine congrArg some (List.ext_getElem? fun k => ?_)
  rw [List.getElem?_map, List.getElem?_take, List.getElem?_drop]
  by_cases hk : k < n
  · rw [if_pos hk, List.getElem?_range hk, Option.map_some, getElem?_contents (by omega)]
  · rw [if_neg hk, List.getElem?_eq_none (by rw [List.length_range]; omega), Option.map_none]

theorem RxBuffer.discard_eq (h : n ≤ s.frame_len) :
    ∃ s', s.discard n = some s' ∧ s'.contents = s.contents.drop n := by
  refine ⟨_, if_pos h, List.ext_getElem? fun k => ?_⟩
  rw [List.getElem?_drop]
  by_cases hk : k < s.frame_len - n
  · have hin : n + k < s.frame_len := by omega
    rw [getElem?_contents (s := ⟨_, _⟩) hk, getElem?_contents hin]
    exact congrArg some (if_pos hk)
  · rw [List.getElem?_eq_none, List.getElem?_eq_none]
    · rw [contents_length]
      omega
    · rw [contents_length]
      exact not_lt.mp hk

theorem RxBuffer.put_eq (h : s.frame_len < GW_FRAME_BUF_SIZE) (byte : UInt8) :
    ∃ s', s.put byte = some s' ∧ s'.contents = s.contents ++ [byte] := by
  refine ⟨_, if_pos h, ?_⟩
  unfold contents
  dsimp only
  rw [List.range_succ, List.map_append, List.map_singleton, Function.update_self]
  congr 1
  apply List.map_congr_left
  intro k hk
  exact Function.update_of_ne (List.mem_range.mp hk).ne _ _

end Accesses

theorem gwProcessFrame_eq (processed : List (UInt8 × Bytes)) (r : ℕ × Seen) :
    gwProcessFrame processed r = processed ++ (requestOf r).toList := by
  obtain ⟨n, e⟩ := r
  cases e with
  | frame wireType payload => rfl
  | _ => exact (List.append_nil _).symm

/-- The round does what the parser does. -/
def Agrees (s : RxBuffer) : Option (ℕ × Seen) → Option Round → Prop
  | none, round => round = some .stop
  | some r, round => ∃ s', round = some (.next s' (requestOf r)) ∧ s'.contents = s.contents.drop r.1

section Rounds

variable {s : RxBuffer}

theorem discard_agrees {n : ℕ} (h : n ≤ s.frame_len) (e : Seen) :
    Agrees s (some (n, e)) ((s.discard n).map fun s => .next s (requestOf (n, e))) := by
  obtain ⟨s', hs', hcontents⟩ := s.discard_eq h
  exact ⟨s', by rw [hs', Option.map_some], hcontents⟩

theorem frameRound_agrees (hfive : 5 ≤ s.frame_len) (hhead : ¬(s.contents.getD 0 0 ≠ 0xAA ∨
    s.contents.getD 1 0 ≠ 0x55)) (hlen : ¬((s.contents.getD 2 0).toNat < 1 ∨
      GW_FRAME_BUF_SIZE - 5 < (s.contents.getD 2 0).toNat)) :
    Agrees s (lookFrame 5 (GW_FRAME_BUF_SIZE - 5) s.contents)
      (frameRound s (s.contents.getD 2 0)) := by
  have hlength := s.contents_length
  unfold lookFrame frameRound
  dsimp only
  rw [if_neg (by omega), if_neg hhead, if_neg hlen, hlength]
  generalize (s.contents.getD 2 0).toNat = len at hlen
  by_cases hshort : s.frame_len < 2 + 1 + len + 2
  · rw [if_pos hshort, if_pos hshort]
    rfl
  rw [if_neg hshort, if_neg hshort, s.get_eq (by omega), s.get_eq (by omega), s.slice_eq (by omega)]
  simp only [Option.bind_some]
  have hsecond : 2 + 1 + len + 2 - 2 + 1 = 2 + 1 + len + 2 - 1 := by omega
  have hread : read16 s.contents (2 + 1 + len + 2 - 2) =
      word16 (s.contents.getD (2 + 1 + len + 2 - 2) 0) (s.contents.getD (2 + 1 + len + 2 - 1) 0) := by
    rw [read16, hsecond]
  rw [hread, Nat.add_comm 1 len]
  by_cases hcrc : word16 (s.contents.getD (2 + 1 + len + 2 - 2) 0)
      (s.contents.getD (2 + 1 + len + 2 - 1) 0) = crc16Modbus ((s.contents.drop 2).take (len + 1))
  · rw [if_neg (not_not.mpr hcrc), if_pos hcrc, s.get_eq (by omega), s.slice_eq (by omega)]
    exact discard_agrees (by omega) _
  · rw [if_pos hcrc, if_neg hcrc]
    exact discard_agrees (by omega) _

theorem gwRound_agrees (s : RxBuffer) :
    Agrees s (lookFrame 5 (GW_FRAME_BUF_SIZE - 5) s.contents) (gwRound s) := by
  have hlength := s.contents_length
  unfold gwRound
  by_cases hfive : s.frame_len < 5
  · rw [lookFrame, if_pos (by omega), if_pos hfive]
    rfl
  rw [if_neg hfive, s.get_eq (by omega), s.get_eq (by omega)]
  simp only [Option.bind_some]
  by_cases hhead : s.contents.getD 0 0 ≠ 0xAA ∨ s.contents.getD 1 0 ≠ 0x55
  · rw [lookFrame, if_neg (by omega), if_pos hhead, if_pos hhead]
    exact discard_agrees (by omega) .dropped
  rw [if_neg hhead, s.get_eq (by omega)]
  simp only [Option.bind_some]
  by_cases hlen : (s.contents.getD 2 0).toNat < 1 ∨
      GW_FRAME_BUF_SIZE - 5 < (s.contents.getD 2 0).toNat
  · rw [lookFrame, if_neg (by omega), if_neg hhead]
    dsimp only
    rw [if_pos hlen, if_pos hlen]
    exact discard_agrees (by omega) .dropped
  · rw [if_neg hlen]
    exact frameRound_agrees (by omega) hhead hlen

theorem gwLoop_drain {fuel : ℕ} (hfuel : s.frame_len < fuel) (calls : List (UInt8 × Bytes)) :
    ∃ s', gwLoop fuel s calls =
        .done (s', (gwParser.drain gwProcessFrame s.contents calls).2) ∧
      s'.contents = (gwParser.drain gwProcessFrame s.contents calls).1 := by
  induction hb : s.contents using gwParser.induct generalizing s fuel calls with
  | stop b h =>
    subst hb
    have hround := gwRound_agrees s
    have hnext : lookFrame 5 (GW_FRAME_BUF_SIZE - 5) s.contents = none := h
    rw [hnext] at hround
    obtain ⟨fuel, rfl⟩ := Nat.exists_eq_succ_of_ne_zero (Nat.ne_of_gt (Nat.zero_lt_of_lt hfuel))
    rw [gwLoop, hround, gwParser.drain_stop _ _ h]
    exact ⟨s, rfl, rfl⟩
  | go b r h ih =>
    subst hb
    have hround := gwRound_agrees s
    have hnext : lookFrame 5 (GW_FRAME_BUF_SIZE - 5) s.contents = some r := h
    rw [hnext] at hround
    obtain ⟨s', hs', hcontents⟩ := hround
    obtain ⟨fuel, rfl⟩ := Nat.exists_eq_succ_of_ne_zero (Nat.ne_of_gt (Nat.zero_lt_of_lt hfuel))
    have hshorter := gwParser.next_length h
    rw [← hcontents, RxBuffer.contents_length, RxBuffer.contents_length] at hshorter
    rw [gwLoop, hs', gwParser.drain_go _ _ h, gwProcessFrame_eq]
    exact ih (by omega) _ hcontents

end Rounds

/-- What the buffer and the parser on byte strings have in common after the same bytes. -/
structure Represents (s : RxState) (rx : GwRx) : Prop where
  buf : s.buf.contents = rx.frameBuf
  calls : s.calls = rx.processed
  waits : gwParser.next rx.frameBuf = none
  resets : s.resets = 0

theorem gwProcessByte_represents {s : RxState} {rx : GwRx} (h : Represents s rx) (byte : UInt8) :
    ∃ s', gwProcessByte s byte = .done s' ∧ Represents s' (gwProcessRxByte rx byte) := by
  have hshort : s.buf.frame_len < GW_FRAME_BUF_SIZE := by
    rw [← RxBuffer.contents_length, h.buf]
    exact gw_waits_short h.waits
  obtain ⟨buf, hput, hcontents⟩ := RxBuffer.put_eq hshort byte
  obtain ⟨buf', hloop, hbuf'⟩ := gwLoop_drain (Nat.lt_succ_self buf.frame_len) s.calls
  have hrun : gwProcessByte s byte =
      .done ⟨buf', (gwParser.drain gwProcessFrame buf.contents s.calls).2, s.resets⟩ := by
    unfold gwProcessByte
    dsimp only
    rw [if_neg (not_le.mpr hshort), hput]
    dsimp only
    rw [hloop]
    dsimp only
    rw [if_neg (not_le.mpr hshort), Nat.add_zero]
  refine ⟨_, hrun, ?_⟩
  rw [gwProcessRxByte_eq h.waits, ← h.buf, ← h.calls, ← hcontents]
  exact ⟨hbuf', rfl, gwParser.drain_waits _ _ _, h.resets⟩

/-- Whatever bytes come, every call ends without an index outside the buffer and leaves room in it,
the buffer is never reset, and the calls of `gw_process_frame` are the parser's. -/
theorem rxBytes_safe (stream : Bytes) : ∃ s, gwProcessBytes gwInitial stream = .done s ∧
    s.buf.frame_len < GW_FRAME_BUF_SIZE ∧ s.resets = 0 ∧
      s.buf.contents = (stream.foldl gwProcessRxByte ⟨[], []⟩).frameBuf ∧
      s.calls = (stream.foldl gwProcessRxByte ⟨[], []⟩).processed := by
  have hrun {s : RxState} {rx : GwRx} (h : Represents s rx) (stream : Bytes) :
      ∃ s', gwProcessBytes s stream = .done s' ∧
        Represents s' (stream.foldl gwProcessRxByte rx) := by
    induction stream generalizing s rx with
    | nil => exact ⟨s, rfl, h⟩
    | cons byte stream ih =>
      obtain ⟨s₁, hbyte, h₁⟩ := gwProcessByte_represents h byte
      obtain ⟨s', hrest, h'⟩ := ih h₁
      refine ⟨s', ?_, h'⟩
      rw [gwProcessBytes, hbyte]
      exact hrest
  obtain ⟨s, hs, h⟩ := @hrun gwInitial ⟨[], []⟩ ⟨rfl, rfl, gwParser.next_nil, rfl⟩ stream
  refine ⟨s, hs, ?_, h.resets, h.buf, h.calls⟩
  rw [← RxBuffer.contents_length, h.buf]
  exact gw_waits_short h.waits

end EdgeLink.Gateway
