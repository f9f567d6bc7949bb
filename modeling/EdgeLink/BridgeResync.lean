import EdgeLink.UartTask

namespace EdgeLink.Bridge

open LittleEndian Gateway

def LegacyOk (b : Bytes) : Prop :=
  read16 b (frameSize b - 1) = crc16Modbus ((b.drop 2).take (frameSize b - 3))

instance (b : Bytes) : Decidable (LegacyOk b) := by
  unfold LegacyOk
  infer_instance

/-- LEN counts TYPE and PAYLOAD. -/
def MainFrame (b : Bytes) : Prop :=
  kMinFrameSize ≤ frameSize b ∧ frameSize b ≤ MAX_FRAME_SIZE ∧ CrcOk b

/-- LEN counts PAYLOAD. -/
def LegacyFrame (b : Bytes) : Prop := frameSize b + 1 ≤ MAX_FRAME_SIZE ∧ LegacyOk b

instance (b : Bytes) : Decidable (MainFrame b) := inferInstanceAs (Decidable (_ ∧ _))

instance (b : Bytes) : Decidable (LegacyFrame b) := inferInstanceAs (Decidable (_ ∧ _))

def verdict (b : Bytes) : Option ℕ :=
  if MainFrame b then some (frameSize b)
  else if LegacyFrame b then some (frameSize b + 1)
  else none

/-- So many bytes settle what a header is. -/
def need (b : Bytes) : ℕ :=
  if MAX_FRAME_SIZE < frameSize b then 3
  else if MainFrame b then frameSize b
  else min (frameSize b + 1) MAX_FRAME_SIZE

theorem need_ge (b : Bytes) : 3 ≤ need b := by
  have hsize : 5 ≤ frameSize b := Nat.le_add_left _ _
  unfold need MAX_FRAME_SIZE
  split_ifs <;> omega

theorem need_le {b : Bytes} (h : frameSize b ≤ MAX_FRAME_SIZE) : need b ≤ MAX_FRAME_SIZE := by
  unfold need
  rw [if_neg (Nat.not_lt.mpr h)]
  split_ifs
  · exact h
  · exact min_le_right _ _

theorem tryLengths_eq {f : Bytes} : tryLengths false f =
    if MAX_FRAME_SIZE < frameSize f then .impossible
    else if f.length < need f then .wait
    else match verdict f with
      | some total => .good total
      | none => .bad := by
  have hmain : 2 + 1 + (f.getD 2 0).toNat + 2 = frameSize f := by
    unfold frameSize
    omega
  have hlegacy : 2 + 1 + 1 + (f.getD 2 0).toNat + 2 = frameSize f + 1 := by
    unfold frameSize
    omega
  have hcov : 1 + (f.getD 2 0).toNat = frameSize f - 4 := by
    unfold frameSize
    omega
  have hcov' : 2 + (f.getD 2 0).toNat = frameSize f - 3 := by
    unfold frameSize
    omega
  have hsize : 5 ≤ frameSize f := Nat.le_add_left _ _
  unfold tryLengths
  dsimp only
  rw [hmain, hlegacy, hcov, hcov', show frameSize f + 1 - 2 = frameSize f - 1 by omega]
  change (if _ then _ else if _ then _ else if _ ∧ _ ∧ CrcOk f then _
    else if _ ∧ _ ∧ LegacyOk f then _ else _) = _
  have hmain_ok : (decide (frameSize f ≤ MAX_FRAME_SIZE) && decide (kMinFrameSize ≤ frameSize f)) =
      decide (6 ≤ frameSize f ∧ frameSize f ≤ 256) := by
    rw [← Bool.decide_and]
    exact decide_eq_decide.mpr and_comm
  have hlegacy_ok : (!false && (decide (frameSize f + 1 ≤ MAX_FRAME_SIZE) &&
      decide (kMinFrameSize ≤ frameSize f + 1))) = decide (frameSize f ≤ 255) := by
    rw [Bool.not_false, Bool.true_and, ← Bool.decide_and]
    unfold MAX_FRAME_SIZE kMinFrameSize
    exact decide_eq_decide.mpr (by omega)
  rw [hmain_ok, hlegacy_ok]
  unfold need verdict MainFrame LegacyFrame MAX_FRAME_SIZE kMinFrameSize
  -- too short for the main layout, both possible, too long for the legacy one, too long for both
  rcases (by omega : frameSize f = 5 ∨ (6 ≤ frameSize f ∧ frameSize f ≤ 255) ∨ frameSize f = 256 ∨
    256 < frameSize f) with h | h | h | h
  · by_cases hq : LegacyOk f
    · simp [h, hq]
      split_ifs <;> first | rfl | omega
    · simp [h, hq]
  · have h1 : frameSize f ≤ 256 := by omega
    have h2 : ¬256 < frameSize f := by omega
    by_cases hp : CrcOk f <;> by_cases hq : LegacyOk f <;> simp [h.1, h.2, h1, h2, hp, hq] <;>
      split_ifs <;> first | rfl | omega
  · by_cases hp : CrcOk f
    · simp [h, hp]
      split_ifs <;> first | rfl | omega
    · simp [h, hp]
  · have h1 : ¬frameSize f ≤ 255 := by omega
    have h2 : ¬frameSize f ≤ 256 := by omega
    simp [h, h1, h2]

theorem verdict_big {b : Bytes} (h : MAX_FRAME_SIZE < frameSize b) : verdict b = none := by
  unfold verdict
  rw [if_neg (fun hmain => not_lt.mpr hmain.2.1 h),
    if_neg (fun hlegacy => not_lt.mpr ((Nat.le_succ _).trans hlegacy.1) h)]

section Append
variable {f : Bytes} (c : Bytes)

theorem legacyOk_append (h : 3 ≤ f.length) (hsize : frameSize f + 1 ≤ f.length) :
    LegacyOk (f ++ c) ↔ LegacyOk f := by
  have hle : 5 ≤ frameSize f := Nat.le_add_left _ _
  unfold LegacyOk read16
  rw [frameSize_append c h, getD_append_left c (by omega), getD_append_left c (by omega),
    List.drop_append_of_le_length (by omega), List.take_append_of_le_length]
  rw [List.length_drop]
  omega

theorem mainFrame_append (h : 3 ≤ f.length) (hsize : frameSize f ≤ f.length) :
    MainFrame (f ++ c) ↔ MainFrame f := by
  unfold MainFrame
  rw [frameSize_append c h, crcOk_append c h hsize]

theorem size_le_need (hsize : frameSize f ≤ MAX_FRAME_SIZE) : frameSize f ≤ need f := by
  unfold need MAX_FRAME_SIZE at *
  split_ifs <;> omega

theorem lt_need_append (h : 3 ≤ f.length) : f.length < need (f ++ c) ↔ f.length < need f := by
  by_cases hbig : MAX_FRAME_SIZE < frameSize f
  · unfold need
    rw [frameSize_append c h, if_pos hbig, if_pos hbig]
  by_cases hsize : frameSize f ≤ f.length
  · unfold need
    rw [frameSize_append c h]
    simp only [mainFrame_append c h hsize]
  · have hleft : frameSize (f ++ c) ≤ need (f ++ c) :=
      size_le_need (by rw [frameSize_append c h]; exact not_lt.mp hbig)
    have hright := size_le_need (not_lt.mp hbig)
    rw [frameSize_append c h] at hleft
    omega

theorem verdict_append (h : 3 ≤ f.length) (hneed : need f ≤ f.length) :
    verdict (f ++ c) = verdict f := by
  by_cases hbig : MAX_FRAME_SIZE < frameSize f
  · rw [verdict_big hbig, verdict_big (by rw [frameSize_append c h]; exact hbig)]
  have hsize := (size_le_need (not_lt.mp hbig)).trans hneed
  unfold verdict
  rw [frameSize_append c h]
  by_cases hmain : MainFrame f
  · rw [if_pos hmain, if_pos ((mainFrame_append c h hsize).mpr hmain)]
  · rw [if_neg hmain, if_neg (fun hc => hmain ((mainFrame_append c h hsize).mp hc))]
    apply if_congr _ rfl rfl
    unfold LegacyFrame
    rw [frameSize_append c h]
    refine and_congr_right fun hroom => legacyOk_append c h ?_
    unfold need at hneed
    rw [if_neg hbig, if_neg hmain, min_eq_left hroom] at hneed
    exact hneed

theorem verdict_le_need {total : ℕ} (h : verdict f = some total) : total ≤ need f := by
  unfold verdict at h
  by_cases hmain : MainFrame f
  · rw [if_pos hmain, Option.some.injEq] at h
    exact h ▸ size_le_need hmain.2.1
  · rw [if_neg hmain] at h
    by_cases hlegacy : LegacyFrame f
    · rw [if_pos hlegacy, Option.some.injEq] at h
      have hsize := hlegacy.1
      unfold need
      rw [if_neg (by omega), if_neg hmain, min_eq_left hsize, h]
    · rw [if_neg hlegacy] at h
      cases h

end Append

def PairAt (w : Bytes) (j : ℕ) : Bool := w.getD j 0 == kHeader1 && w.getD (j + 1) 0 == kHeader2

def nextPair (w : Bytes) (k : ℕ) : Option ℕ :=
  (List.range' (k + 1) (w.length - (k + 2))).find? (PairAt w)

theorem nextHeader_drop (w : Bytes) (a : ℕ) : nextHeader (w.drop a) =
    match (List.range' a (w.length - (a + 1))).find? (PairAt w) with
    | some j => w.drop j
    | none => [] := by
  induction hd : w.length - (a + 1) generalizing a with
  | zero =>
    have hshort : (w.drop a).length ≤ 1 := by
      rw [List.length_drop]
      omega
    match w.drop a, hshort with
    | [], _ => rfl
    | [_], _ => rfl
  | succ d ih =>
    have hget (i : ℕ) (hi : i < w.length) : w.getD i 0 = w[i] := List.getD_eq_getElem _ _ hi
    have hdrop : w.drop a = w.getD a 0 :: w.getD (a + 1) 0 :: w.drop (a + 2) := by
      rw [List.drop_eq_getElem_cons (by omega), List.drop_eq_getElem_cons (by omega),
        hget a (by omega), hget (a + 1) (by omega)]
    have htail : w.getD (a + 1) 0 :: w.drop (a + 2) = w.drop (a + 1) := by
      rw [List.drop_eq_getElem_cons (i := a + 1) (by omega), hget (a + 1) (by omega)]
    rw [List.range'_succ, List.find?_cons]
    by_cases hpair : w.getD a 0 = kHeader1 ∧ w.getD (a + 1) 0 = kHeader2
    · have hp : PairAt w a = true := by
        unfold PairAt
        rw [hpair.1, hpair.2]
        rfl
      rw [hp, hdrop, nextHeader, if_pos hpair]
      exact hdrop.symm
    · have hp : PairAt w a = false := by
        unfold PairAt
        rw [Bool.and_eq_false_iff, beq_eq_false_iff_ne, beq_eq_false_iff_ne]
        exact not_and_or.mp hpair
      rw [hp, hdrop, nextHeader, if_neg hpair, htail, ih (a + 1) (by omega)]

/-- After `p` bytes nothing is collected; or the header at byte `k` is collected and is settled
when `n` bytes have come. -/
inductive Phase
  | idle (p : ℕ)
  | held (k n : ℕ)

def advance (s : Bytes) : Phase → Phase
  | .idle p =>
    if s.getD p 0 ≠ kHeader1 then .idle (p + 1)
    else if s.getD (p + 1) 0 ≠ kHeader2 then .idle (p + 2)
    else .held p (p + need (s.drop p))
  | .held k n =>
    if MAX_FRAME_SIZE < frameSize (s.drop k) ∨ (verdict (s.drop k)).isSome then .idle n
    else
      match nextPair (s.take n) k with
      | some j => .held j (max (n + 1) (j + need (s.drop j)))
      | none => .idle n

def course (s : Bytes) (m : ℕ) : Phase := (advance s)^[m] (.idle 0)

def settled (s : Bytes) : Phase → Option (ℕ × Bytes)
  | .idle _ => none
  | .held k _ => (verdict (s.drop k)).map fun total => (k, (s.drop k).take total)

def Phase.time : Phase → ℕ
  | .idle p => p
  | .held _ n => n

/-- The buffer after `pos` bytes in a phase. -/
inductive Matches (s : Bytes) (pos : ℕ) : Bytes → Phase → Prop
  | idle : Matches s pos [] (.idle pos)
  | half {p : ℕ} : p + 1 = pos → s.getD p 0 = kHeader1 → Matches s pos [kHeader1] (.idle p)
  | held {k n : ℕ} : k + 2 ≤ pos → pos < n → pos < k + MAX_FRAME_SIZE → k + need (s.drop k) ≤ n →
    n = pos + 1 ∨ n = k + need (s.drop k) → Matches s pos ((s.take pos).drop k) (.held k n)

/-- A byte leaves the task in its phase, or takes it to the next. -/
def Follows (s : Bytes) (pos : ℕ) (ph : Phase) (rx rx' : Uart) : Prop :=
  rx'.rxBytes = pos + 1 ∧
    ((Matches s (pos + 1) rx'.frameBuf ph ∧ rx'.enqueued = rx.enqueued) ∨
      (Matches s (pos + 1) rx'.frameBuf (advance s ph) ∧ ph.time ≤ pos + 1 ∧
        rx'.enqueued = rx.enqueued ++ (settled s ph).toList))

theorem take_succ_drop {s : Bytes} {pos k : ℕ} (hpos : pos < s.length) (hk : k ≤ pos) :
    (s.take pos).drop k ++ [s.getD pos 0] = (s.take (pos + 1)).drop k := by
  rw [List.take_add_one, List.getElem?_eq_getElem hpos, List.getD_eq_getElem _ _ hpos,
    Option.toList_some, List.drop_append_of_le_length]
  rw [List.length_take]
  omega

/-- What is kept of a failed frame begins at the next header in it. -/
theorem resync_drop (w : Bytes) (k : ℕ) : resync (w.drop k) =
    match nextPair w k with
    | some j => w.drop j
    | none => [] := by
  rw [resync, List.tail_drop]
  exact nextHeader_drop _ _

theorem follows_held {s : Bytes} {pos k n : ℕ} (hpos : pos < s.length) (hk : k + 2 ≤ pos)
    (hn : pos < n) (hmax : pos < k + MAX_FRAME_SIZE) (hneed : k + need (s.drop k) ≤ n)
    (hcase : n = pos + 1 ∨ n = k + need (s.drop k)) {rx : Uart} (hrx : rx.rxBytes = pos)
    (hbuf : rx.frameBuf = (s.take pos).drop k) :
    Follows s pos (.held k n) rx (normalByte rx (s.getD pos 0)) := by
  have hlen : rx.frameBuf.length = pos - k := by
    rw [hbuf, List.length_drop, List.length_take, min_eq_left hpos.le]
  have hflen : ((s.take (pos + 1)).drop k).length = pos + 1 - k := by
    rw [List.length_drop, List.length_take, min_eq_left hpos]
  have hthree : 3 ≤ ((s.take (pos + 1)).drop k).length := by omega
  have hsplit : (s.take (pos + 1)).drop k ++ s.drop (pos + 1) = s.drop k := by
    rw [← List.drop_append_of_le_length, List.take_append_drop]
    rw [List.length_take, min_eq_left hpos]
    omega
  have hbyte : (if MAX_FRAME_SIZE ≤ rx.frameBuf.length then [] else rx.frameBuf) ++
      [s.getD pos 0] = (s.take (pos + 1)).drop k := by
    rw [if_neg (by omega), hbuf, take_succ_drop hpos (by omega)]
  have hsize := frameSize_append (s.drop (pos + 1)) hthree
  have hlt := lt_need_append (s.drop (pos + 1)) hthree
  have hverdict := verdict_append (s.drop (pos + 1)) hthree
  rw [hsplit] at hsize hlt hverdict
  have hstart := need_ge (s.drop k)
  unfold normalByte
  dsimp only
  rw [if_neg (by omega), if_neg (by omega), hbyte, if_neg (by omega), tryLengths_eq, ← hsize]
  -- a length that cannot be is seen with the third byte, and the whole buffer goes
  by_cases hbig : MAX_FRAME_SIZE < frameSize (s.drop k)
  · have hthree' : need (s.drop k) = 3 := by rw [need, if_pos hbig]
    have hend : n = pos + 1 := by omega
    rw [if_pos hbig]
    refine ⟨congrArg (· + 1) hrx, Or.inr ⟨?_, hend.le, ?_⟩⟩
    · rw [advance, if_pos (Or.inl hbig), hend]
      exact .idle
    · rw [settled, verdict_big hbig]
      exact (List.append_nil _).symm
  rw [if_neg hbig]
  by_cases hwait : ((s.take (pos + 1)).drop k).length < need ((s.take (pos + 1)).drop k)
  · have hwait' := hlt.mpr hwait
    have hnext : n = k + need (s.drop k) := by omega
    rw [if_pos hwait]
    have hupper := need_le (Nat.not_lt.mp hbig)
    exact ⟨congrArg (· + 1) hrx, Or.inl ⟨.held (by omega) (by omega) (by omega) hneed (Or.inr hnext), rfl⟩⟩
  -- the frame is as long as its length byte says: it is passed on, or searched for another header
  have hthere : need (s.drop k) ≤ pos + 1 - k := by
    rw [hflen] at hlt hwait
    omega
  have hend : n = pos + 1 := by omega
  have hv := hverdict (not_lt.mp hwait)
  rw [if_neg hwait, ← hv]
  cases hc : verdict (s.drop k) with
  | some total =>
    have htotal := verdict_le_need hc
    have hplace : rx.rxBytes + 1 - ((s.take (pos + 1)).drop k).length = k := by omega
    have htake : ((s.take (pos + 1)).drop k).take total = (s.drop k).take total := by
      rw [← hsplit, List.take_append_of_le_length (by omega)]
    refine ⟨congrArg (· + 1) hrx, Or.inr ⟨?_, hend.le, ?_⟩⟩
    · rw [advance, if_pos (Or.inr (by rw [hc]; rfl)), hend]
      exact .idle
    · dsimp only
      rw [settled, hc, hplace, htake]
      rfl
  | none =>
    refine ⟨congrArg (· + 1) hrx, Or.inr ⟨?_, hend.le, ?_⟩⟩
    · dsimp only
      rw [advance, if_neg (not_or.mpr ⟨hbig, by rw [hc]; exact Bool.false_ne_true⟩), hend, resync_drop]
      cases hj : nextPair (s.take (pos + 1)) k with
      | none => exact .idle
      | some j =>
        have hmem := List.mem_range'_1.mp (List.mem_of_find?_eq_some hj)
        rw [List.length_take, min_eq_left (Nat.succ_le_of_lt hpos)] at hmem
        exact .held (by omega) (by omega) (by omega) (le_max_right _ _) (max_choice _ _)
    · rw [settled, hc]
      exact (List.append_nil _).symm

theorem matches_step {s : Bytes} {pos : ℕ} (hpos : pos < s.length) {rx : Uart} {ph : Phase}
    (hrx : rx.rxBytes = pos) (h : Matches s pos rx.frameBuf ph) :
    Follows s pos ph rx (normalByte rx (s.getD pos 0)) := by
  generalize hbuf : rx.frameBuf = buf at h
  cases h with
  | idle =>
    unfold normalByte
    dsimp only
    by_cases hb : s.getD pos 0 = kHeader1
    · rw [if_neg (fun h => h.2 hb), if_neg (by rw [hbuf]; exact fun h => Nat.zero_ne_one h.1), hbuf]
      refine ⟨congrArg (· + 1) hrx, Or.inl ⟨?_, rfl⟩⟩
      rw [hb]
      exact .half rfl hb
    · rw [if_pos ⟨by rw [hbuf]; rfl, hb⟩]
      refine ⟨congrArg (· + 1) hrx, Or.inr ⟨?_, Nat.le_succ _, (List.append_nil _).symm⟩⟩
      rw [advance, if_pos hb]
      dsimp only
      rw [hbuf]
      exact .idle
  | @half p hp hfirst =>
    subst hp
    unfold normalByte
    dsimp only
    rw [if_neg (by rw [hbuf]; exact fun h => Nat.one_ne_zero h.1)]
    by_cases hb : s.getD (p + 1) 0 = kHeader2
    · have hpair : [kHeader1, s.getD (p + 1) 0] = (s.take (p + 1 + 1)).drop p := by
        rw [← take_succ_drop hpos (Nat.le_succ _), ← take_succ_drop (by omega) le_rfl, hfirst,
          List.drop_take, Nat.sub_self, List.take_zero]
        rfl
      have hneed := need_ge (s.drop p)
      have hbyte : (if MAX_FRAME_SIZE ≤ [kHeader1].length then [] else [kHeader1]) ++
          [s.getD (p + 1) 0] = [kHeader1, s.getD (p + 1) 0] := rfl
      have hshort : [kHeader1, s.getD (p + 1) 0].length < 3 := Nat.lt_succ_self 2
      rw [if_neg (fun h => h.2 hb), hbuf, hbyte, if_pos hshort]
      refine ⟨congrArg (· + 1) hrx, Or.inr ⟨?_, Nat.le_add_right p 2, (List.append_nil _).symm⟩⟩
      rw [advance, if_neg (not_not.mpr hfirst), if_neg (not_not.mpr hb)]
      show Matches s (p + 1 + 1) [kHeader1, s.getD (p + 1) 0] _
      rw [hpair]
      exact .held le_rfl (by omega) (Nat.add_lt_add_left (by decide) p) le_rfl (Or.inr rfl)
    · rw [if_pos ⟨by rw [hbuf]; rfl, hb⟩]
      refine ⟨congrArg (· + 1) hrx, Or.inr ⟨?_, Nat.le_add_right p 2, (List.append_nil _).symm⟩⟩
      rw [advance, if_neg (not_not.mpr hfirst), if_pos hb]
      exact .idle
  | held hk hn hmax hneed hcase => exact follows_held hpos hk hn hmax hneed hcase hrx hbuf

/-- After each prefix of a stream the task is somewhere on its course, and what it has enqueued is
what was settled before. -/
theorem on_course (s : Bytes) {pos : ℕ} (hpos : pos ≤ s.length) :
    let rx := (s.take pos).foldl normalByte .empty
    rx.rxBytes = pos ∧ ∃ m, Matches s pos rx.frameBuf (course s m) ∧
      (∀ j < m, (course s j).time ≤ pos) ∧
      rx.enqueued = ((List.range m).map (course s)).filterMap (settled s) := by
  induction pos with
  | zero => exact ⟨rfl, 0, .idle, fun j hj => absurd hj (Nat.not_lt_zero j), rfl⟩
  | succ pos ih =>
    obtain ⟨hrx, m, hmatch, htime, hlog⟩ := ih (by omega)
    have htake : s.take (pos + 1) = s.take pos ++ [s.getD pos 0] := by
      rw [List.take_add_one, List.getElem?_eq_getElem hpos, List.getD_eq_getElem _ _ hpos]
      rfl
    intro rx
    have hstep : rx = normalByte ((s.take pos).foldl normalByte .empty) (s.getD pos 0) := by
      show (s.take (pos + 1)).foldl normalByte .empty = _
      rw [htake, List.foldl_append]
      rfl
    obtain ⟨hrx', hnext⟩ := matches_step hpos hrx hmatch
    rw [← hstep] at hrx' hnext
    refine ⟨hrx', ?_⟩
    rcases hnext with ⟨hsame, hkeep⟩ | ⟨hadv, hdone, hadd⟩
    · exact ⟨m, hsame, fun j hj => (htime j hj).trans (Nat.le_succ _), hkeep.trans hlog⟩
    · refine ⟨m + 1, ?_, ?_, ?_⟩
      · rw [course, Function.iterate_succ_apply']
        exact hadv
      · intro j hj
        rcases Nat.lt_succ_iff_lt_or_eq.mp hj with hj | rfl
        · exact (htime j hj).trans (Nat.le_succ _)
        · exact hdone
      · rw [hadd, hlog, List.range_succ, List.map_append, List.filterMap_append]
        congr 1

def Phase.front : Phase → ℕ
  | .idle p => p
  | .held k _ => k

theorem advance_idle (s : Bytes) (p : ℕ) : p < (advance s (.idle p)).time ∧
    p ≤ (advance s (.idle p)).front ∧
    (s.getD p 0 = kHeader1 → p + 1 < (advance s (.idle p)).time) := by
  have hneed := need_ge (s.drop p)
  unfold advance
  dsimp only
  split_ifs with h0 h1
  · exact ⟨Nat.lt_succ_self p, Nat.le_succ p, fun h => absurd h h0⟩
  · exact ⟨Nat.lt_add_of_pos_right (by decide), Nat.le_add_right p 2, fun _ => Nat.lt_succ_self _⟩
  · unfold Phase.time Phase.front
    dsimp only
    exact ⟨by omega, le_rfl, fun _ => by omega⟩

theorem advance_held (s : Bytes) {k n : ℕ} (h : k < n) :
    n ≤ (advance s (.held k n)).time ∧ k < (advance s (.held k n)).front := by
  unfold advance
  dsimp only
  split_ifs
  · exact ⟨le_rfl, h⟩
  · cases hj : nextPair (s.take n) k with
    | none => exact ⟨le_rfl, h⟩
    | some j =>
      have hmem := List.mem_range'_1.mp (List.mem_of_find?_eq_some hj)
      exact ⟨(Nat.le_succ n).trans (le_max_left _ _), hmem.1⟩

theorem course_succ (s : Bytes) (m : ℕ) : course s (m + 1) = advance s (course s m) :=
  Function.iterate_succ_apply' _ _ _

theorem held_front_lt {s : Bytes} {m k n : ℕ} (h : course s m = .held k n) : k < n := by
  cases m with
  | zero => cases h
  | succ m =>
    rw [course_succ] at h
    cases hph : course s m with
    | idle p =>
      have hneed := need_ge (s.drop p)
      rw [hph, advance] at h
      split_ifs at h
      cases h
      omega
    | held k' n' =>
      rw [hph, advance] at h
      split_ifs at h
      cases hj : nextPair (s.take n') k' with
      | none =>
        rw [hj] at h
        cases h
      | some j =>
        have hneed := need_ge (s.drop j)
        have hle := le_max_right (n' + 1) (j + need (s.drop j))
        rw [hj] at h
        obtain ⟨rfl, rfl⟩ := Phase.held.inj h
        omega

theorem course_step (s : Bytes) (m : ℕ) : (course s m).time ≤ (course s (m + 1)).time ∧
    (course s m).front ≤ (course s (m + 1)).front := by
  rw [course_succ]
  cases hph : course s m with
  | idle p => exact ⟨(advance_idle s p).1.le, (advance_idle s p).2.1⟩
  | held k n =>
    have h := advance_held s (held_front_lt hph)
    exact ⟨h.1, h.2.le⟩

theorem time_mono (s : Bytes) : Monotone fun m => (course s m).time :=
  monotone_nat_of_le_succ fun m => (course_step s m).1

theorem front_mono (s : Bytes) : Monotone fun m => (course s m).front :=
  monotone_nat_of_le_succ fun m => (course_step s m).2

/-- What is still to come is settled later. -/
theorem Matches.ahead {s : Bytes} {pos m j i n : ℕ} {buf : Bytes}
    (h : Matches s pos buf (course s m)) (hj : m ≤ j) (hc : course s j = .held i n) : pos < n := by
  have htime : (course s j).time = n := by rw [hc]; rfl
  generalize hph : course s m = ph at h
  have hlater (hne : m ≠ j) : (advance s ph).time ≤ n := by
    have hmono := time_mono s (Nat.succ_le_of_lt (lt_of_le_of_ne hj hne))
    dsimp only at hmono
    rwa [htime, Nat.succ_eq_add_one, course_succ, hph] at hmono
  cases h with
  | idle =>
    have hne : m ≠ j := by
      rintro rfl
      rw [hph] at hc
      cases hc
    exact (advance_idle s pos).1.trans_le (hlater hne)
  | @half p hp hfirst =>
    have hne : m ≠ j := by
      rintro rfl
      rw [hph] at hc
      cases hc
    exact hp ▸ ((advance_idle s p).2.2 hfirst).trans_le (hlater hne)
  | @held k n' _ hn =>
    have hmono := time_mono s hj
    dsimp only at hmono
    rw [htime, hph] at hmono
    exact hn.trans_le hmono

theorem settled_front {s : Bytes} {ph : Phase} {p : ℕ × Bytes} (h : settled s ph = some p) :
    ∃ n, ph = .held p.1 n := by
  cases ph with
  | idle p => cases h
  | held k n =>
    obtain ⟨total, -, rfl⟩ := Option.map_eq_some_iff.mp h
    exact ⟨n, rfl⟩

theorem settled_sorted (s : Bytes) (m : ℕ) :
    ((((List.range m).map (course s)).filterMap (settled s)).map Prod.fst).Pairwise (· < ·) := by
  rw [List.filterMap_map, List.pairwise_map]
  refine List.pairwise_lt_range.filterMap _ ?_
  intro j j' hjj p hp p' hp'
  obtain ⟨n, hn⟩ := settled_front hp
  obtain ⟨n', hn'⟩ := settled_front hp'
  have hnext : p.1 < (course s (j + 1)).front := by
    rw [course_succ, hn]
    exact (advance_held s (held_front_lt hn)).2
  have hmono := front_mono s (Nat.succ_le_of_lt hjj)
  dsimp only at hmono
  rw [hn'] at hmono
  exact hnext.trans_le hmono

/-- A whole frame with the right CRC stands at byte `i`. -/
def FrameAt (s : Bytes) (i : ℕ) : Prop :=
  PairAt s i ∧ MainFrame (s.drop i) ∧ i + frameSize (s.drop i) ≤ s.length

/-- It begins inside no other one. -/
def Intact (s : Bytes) (i : ℕ) : Prop :=
  FrameAt s i ∧ ∀ j < i, FrameAt s j → j + frameSize (s.drop j) ≤ i

def span (s : Bytes) (i : ℕ) : Bytes := (s.drop i).take (frameSize (s.drop i))

/-- On its course the task meets the header at byte `i`, and the bytes that settle it come. -/
def Met (s : Bytes) (i : ℕ) : Prop := ∃ m n, course s m = .held i n ∧ n ≤ s.length

theorem enqueued_iff (s : Bytes) {i : ℕ} (h : MainFrame (s.drop i)) :
    (i, span s i) ∈ (s.foldl normalByte .empty).enqueued ↔ Met s i := by
  have hverdict : verdict (s.drop i) = some (frameSize (s.drop i)) := by rw [verdict, if_pos h]
  obtain ⟨-, m, hmatch, htime, hlog⟩ := on_course s le_rfl
  rw [List.take_length] at hmatch hlog
  rw [hlog, List.mem_filterMap]
  constructor
  · rintro ⟨ph, hph, hs⟩
    obtain ⟨j, hj, rfl⟩ := List.mem_map.mp hph
    obtain ⟨n, hn⟩ := settled_front hs
    refine ⟨j, n, hn, ?_⟩
    have hle := htime j (List.mem_range.mp hj)
    rwa [hn] at hle
  · rintro ⟨j, n, hn, hle⟩
    have hj : j < m := by
      by_contra hge
      exact not_lt.mpr hle (hmatch.ahead (not_lt.mp hge) hn)
    refine ⟨_, List.mem_map.mpr ⟨j, List.mem_range.mpr hj, rfl⟩, ?_⟩
    rw [hn, settled, hverdict]
    rfl

/-- In normal mode the task puts every intact frame into the queue, as it came and in order,
exactly if on its course it meets them all. -/
theorem uart_iff {events : List Event} (h : Normal events) :
    ((∀ i, Intact (stream events) i →
        (i, span (stream events) i) ∈ (uartRun events).2.enqueued) ∧
      ((uartRun events).2.enqueued.map Prod.fst).Pairwise (· < ·)) ↔
    ∀ i, Intact (stream events) i → Met (stream events) i := by
  obtain ⟨-, m, -, -, hlog⟩ := on_course (stream events) le_rfl
  rw [List.take_length] at hlog
  rw [uartRun_normal h]
  have hsorted : (((stream events).foldl normalByte .empty).enqueued.map Prod.fst).Pairwise (· < ·) :=
    hlog ▸ settled_sorted _ m
  constructor
  · intro hall i hi
    exact (enqueued_iff _ hi.1.2.1).mp (hall.1 i hi)
  · intro hall
    exact ⟨fun i hi => (enqueued_iff _ hi.1.2.1).mpr (hall i hi), hsorted⟩

/-- A damaged frame without a header inside takes with it the frame that follows at once. -/
theorem damaged_costs_next {s : Bytes} {m k : ℕ} (hm : course s m = .idle k)
    (hpair : PairAt s k = true) (hsize : frameSize (s.drop k) < MAX_FRAME_SIZE)
    (hbad : verdict (s.drop k) = none)
    (hnone : nextPair (s.take (k + (frameSize (s.drop k) + 1))) k = none) :
    ¬Met s (k + frameSize (s.drop k)) := by
  have hpos := frameSize_pos (s.drop k)
  have hmain : ¬MainFrame (s.drop k) := by
    intro h
    rw [verdict, if_pos h] at hbad
    cases hbad
  have hneed : need (s.drop k) = frameSize (s.drop k) + 1 := by
    rw [need, if_neg (not_lt.mpr hsize.le), if_neg hmain, min_eq_left (Nat.succ_le_of_lt hsize)]
  obtain ⟨h0, h1⟩ := Bool.and_eq_true_iff.mp hpair
  have hheld : course s (m + 1) = .held k (k + (frameSize (s.drop k) + 1)) := by
    rw [course_succ, hm, advance, if_neg (not_not.mpr (beq_iff_eq.mp h0)),
      if_neg (not_not.mpr (beq_iff_eq.mp h1)), hneed]
  have hidle : course s (m + 2) = .idle (k + (frameSize (s.drop k) + 1)) := by
    have hlost : ¬(MAX_FRAME_SIZE < frameSize (s.drop k) ∨ (verdict (s.drop k)).isSome) := by
      rw [hbad]
      exact fun h => h.elim (not_lt.mpr hsize.le) Bool.false_ne_true
    rw [course_succ, hheld, advance, if_neg hlost, hnone]
  rintro ⟨j, n, hj, -⟩
  have hfront : (course s j).front = k + frameSize (s.drop k) := by rw [hj]; rfl
  rcases Nat.lt_or_ge (m + 1) j with hlate | hearly
  · have hmono := front_mono s (Nat.succ_le_of_lt hlate)
    dsimp only at hmono
    rw [hfront, hidle, Phase.front] at hmono
    omega
  · have hmono := front_mono s hearly
    dsimp only at hmono
    rw [hfront, hheld, Phase.front] at hmono
    omega

instance (s : Bytes) (i : ℕ) : Decidable (FrameAt s i) := inferInstanceAs (Decidable (_ ∧ _))

/-- A heartbeat of device 3 with a damaged payload, a heartbeat of device 3, and quiet. -/
def damagedThenWhole : List Event :=
  let bytes : Bytes := [0xAA, 0x55, 0x02, 0x03, 0x04, 0x90, 0xF1] ++
    [0xAA, 0x55, 0x02, 0x03, 0x03, 0x90, 0xF1] ++ List.replicate 20 0
  bytes.map (.byte 0)

theorem damagedThenWhole_normal : Normal damagedThenWhole := by
  intro g hg
  obtain ⟨b, -, hb⟩ := List.mem_map.mp hg
  cases hb

theorem heartbeat_lost : Normal damagedThenWhole ∧
    ¬((∀ i, Intact (stream damagedThenWhole) i →
        (i, span (stream damagedThenWhole) i) ∈ (uartRun damagedThenWhole).2.enqueued) ∧
      ((uartRun damagedThenWhole).2.enqueued.map Prod.fst).Pairwise (· < ·)) := by
  refine ⟨damagedThenWhole_normal, fun h => ?_⟩
  have hintact : Intact (stream damagedThenWhole) 7 :=
    ⟨by decide +kernel, by decide +kernel⟩
  have hnone : (uartRun damagedThenWhole).2.enqueued = [] := by decide +kernel
  have hmem := h.1 7 hintact
  rw [hnone] at hmem
  exact absurd hmem List.not_mem_nil

theorem uart_iff_damaged :
    ((∀ i, Intact (stream damagedThenWhole) i →
        (i, span (stream damagedThenWhole) i) ∈ (uartRun damagedThenWhole).2.enqueued) ∧
      ((uartRun damagedThenWhole).2.enqueued.map Prod.fst).Pairwise (· < ·)) ↔
    ∀ i, Intact (stream damagedThenWhole) i → Met (stream damagedThenWhole) i :=
  uart_iff damagedThenWhole_normal

end EdgeLink.Bridge
