import EdgeLink.BootFrames
import EdgeLink.Stm32Ota

namespace EdgeLink.OtaWire
open LittleEndian Bootloader Stm32Ota
open BootFrames (blReadFrame findHeader readBody readBody_frame)
open Gateway (wireFrame wireFrame_length wireFrame_size wireFrame_crcOk frameSize CrcOk)

/-! What an update of the STM32 node puts on the wire, and how both ends read it. -/

abbrev buildFrame (type : UInt8) (payload : Bytes) : Bytes := wireFrame type payload

/-- A frame of the bootloader goes through a buffer of 64 bytes. -/
def blSendFrame (type : UInt8) (payload : Bytes) : Option Bytes :=
  if UInt8.ofNat (payload.length + 1) > 64 - 5 then none else some (wireFrame type payload)

def blUpBootHello : UInt8 := 0x20

def blOtaSendHello (m : OtaMetadata) : Option Bytes :=
  blSendFrame blUpBootHello
    ([blMetaSchemaVersion.toUInt8, m.activeSlot, m.pendingSlot, m.confirmedSlot] ++
      bytes32 m.rollbackCount)

/-- What the loop of the bootloader sends as an answer. -/
def blSendReply : Reply → Option Bytes
  | .ack seq => blSendFrame blUpOtaAck (bytes16 seq)
  | .nack seq err => blSendFrame blUpOtaNack (bytes16 seq ++ bytes16 err)
  | .version a b => blSendFrame blUpVersionReport (bytes32 a ++ bytes32 b)

structure AckEvent where
  isAck : Bool
  seq : UInt16
  err : String
  deriving DecidableEq

/-- The text of a NACK, whose code may be missing. -/
def nackErr (payload_len : ℕ) (code : UInt16) : String :=
  if payload_len ≥ 4 then nackText code else "received nack"

/-- `valid` is `some`. -/
def parseAckEvent (frame : Bytes) : Option AckEvent :=
  if frame.length < 6 ∨ frame.getD 0 0 ≠ 0xAA ∨ frame.getD 1 0 ≠ 0x55 then none
  else
    let len := (frame.getD 2 0).toNat
    let total := 2 + 1 + len + 2
    if frame.length ≠ total ∨ len < 1 then none
    else
      let type := frame.getD 3 0
      if type ≠ 0x22 ∧ type ≠ 0x23 then none
      else
        let payload_len := len - 1
        if payload_len < 2 then none
        else if read16 frame (total - 2) ≠ crc16Modbus ((frame.drop 2).take (1 + len)) then none
        else
          some ⟨type = 0x22, read16 frame 4,
            if type = 0x22 then "" else nackErr payload_len (read16 frame 6)⟩

/-- The value, `err` and `decided`. -/
def parseAckFrame (frame : Bytes) (seq : UInt16) (err : String) : Bool × String × Bool :=
  if frame.length < 6 ∨ frame.getD 0 0 ≠ 0xAA ∨ frame.getD 1 0 ≠ 0x55 then (false, err, false)
  else
    let len := (frame.getD 2 0).toNat
    let total := 2 + 1 + len + 2
    if frame.length ≠ total ∨ len < 1 then (false, err, false)
    else
      let type := frame.getD 3 0
      let payload_len := len - 1
      if read16 frame (total - 2) ≠ crc16Modbus ((frame.drop 2).take (1 + len)) then
        (false, err, false)
      else if type ≠ 0x22 ∧ type ≠ 0x23 then (true, err, false)
      else if payload_len < 2 then (false, err, false)
      else if read16 frame 4 ≠ seq then (true, err, false)
      else if type = 0x22 then (true, err, true)
      else (false, nackErr payload_len (read16 frame 6), true)

/-- How a wait for an answer ends; `blocked` waits for the rest of a header or a payload. -/
inductive Verdict
  | ack
  | failed (err : String)
  | blocked
  deriving DecidableEq

/-- `ack_cache`, with the empty text for an ACK. -/
abbrev AckCache := UInt16 → Option String

def consumeCachedAck (cache : AckCache) (seq : UInt16) : Option Verdict × AckCache :=
  match cache seq with
  | none => (none, cache)
  | some err =>
    (some (if err = "" then .ack else .failed err), Function.update cache seq none)

/-- `parseAckFrame` has the last word where `ack_cache` has not decided. -/
def decideAck (seq : UInt16) (out_err : String) (cache : AckCache) (frame : Bytes) :
    Option Verdict × AckCache :=
  let (ok, err, decided) := parseAckFrame frame seq out_err
  (if decided then some (if ok then .ack else .failed err) else none, cache)

def noteAck (cache : AckCache) (ev : AckEvent) : AckCache :=
  Function.update cache ev.seq (some (if ev.isAck then "" else ev.err))

/-- A frame that comes before the deadline. -/
def readAck (seq : UInt16) (out_err : String) (cache : AckCache) (frame : Bytes) :
    Option Verdict × AckCache :=
  match parseAckEvent frame with
  | some ev => consumeCachedAck (noteAck cache ev) seq
  | none => decideAck seq out_err cache frame

/-- The frame that is read after the deadline. -/
def graceAck (seq : UInt16) (out_err : String) (cache : AckCache) (frame : Bytes) :
    Option Verdict × AckCache :=
  match parseAckEvent frame with
  | some ev =>
    match consumeCachedAck (noteAck cache ev) seq with
    | (some v, cache) => (some v, cache)
    | (none, cache) => decideAck seq out_err cache frame
  | none => decideAck seq out_err cache frame

/-- The wait over `recv_raw_frame`, of which `n` rounds begin before the deadline. `local_err` is
what a read says that gets no frame. -/
def waitAck (seq : UInt16) (out_err local_err : String) :
    ℕ → AckCache → List Bytes → Verdict × AckCache × List Bytes
  | _ + 1, cache, [] => (.failed (if local_err = "" then "ack timeout" else local_err), cache, [])
  | n + 1, cache, frame :: frames =>
    match readAck seq out_err cache frame with
    | (some v, cache) => (v, cache, frames)
    | (none, cache) => waitAck seq out_err local_err n cache frames
  | 0, cache, [] => (.failed "ack timeout", cache, [])
  | 0, cache, frame :: frames =>
    match graceAck seq out_err cache frame with
    | (some v, cache) => (v, cache, frames)
    | (none, cache) => (.failed "ack timeout", cache, frames)

/-- Of the wait `n` rounds begin before the deadline; every byte of the stream comes in time. -/
def recvAck (seq : UInt16) : ℕ → Bytes → Verdict × Bytes
  | 0, s => (.failed "ack timeout", s)
  | _ + 1, [] => (.failed "ack timeout", [])
  | n + 1, h0 :: h1 :: len :: type :: s =>
    if h0 ≠ 0xAA ∨ h1 ≠ 0x55 then recvAck seq n s
    else if len < 1 then recvAck seq n s
    else
      let payload_len := (len - 1).toNat
      if s.length < payload_len + 2 then (.blocked, s)
      else
        let payload := s.take (payload_len + 2)
        let s := s.drop (payload_len + 2)
        if read16 payload payload_len ≠ crc16Modbus (len :: type :: payload.take payload_len) then
          recvAck seq n s
        else if (type = 0x22 ∨ type = 0x23) ∧ payload_len ≥ 2 then
          if read16 payload 0 ≠ seq then recvAck seq n s
          else if type = 0x22 then (.ack, s)
          else (.failed (nackErr payload_len (read16 payload 2)), s)
        else recvAck seq n s
  | _ + 1, s => (.blocked, s)

/-- The answer in a frame, if it is one. -/
def ackOf (type : UInt8) (payload : Bytes) : Option AckEvent :=
  if (type = 0x22 ∨ type = 0x23) ∧ 2 ≤ payload.length then
    some ⟨type = 0x22, read16 payload 0,
      if type = 0x22 then "" else nackErr payload.length (read16 payload 2)⟩
  else none

def AckEvent.verdict (ev : AckEvent) : Verdict := if ev.isAck then .ack else .failed ev.err

def answerTo (seq : UInt16) (f : UInt8 × Bytes) : Option Verdict :=
  match ackOf f.1 f.2 with
  | some ev => if ev.seq = seq then some ev.verdict else none
  | none => none

/-- The first answer among `n` frames, and the frames behind it. -/
def firstAnswer (seq : UInt16) :
    ℕ → List (UInt8 × Bytes) → Option Verdict × List (UInt8 × Bytes)
  | 0, frames => (none, frames)
  | _ + 1, [] => (none, [])
  | n + 1, f :: frames =>
    match answerTo seq f with
    | some v => (some v, frames)
    | none => firstAnswer seq n frames

def wire (f : UInt8 × Bytes) : Bytes := wireFrame f.1 f.2

section Frame
variable {type : UInt8} {payload : Bytes} {frame : Bytes} {seq : UInt16} {err : String}

theorem wireFrame_cons (type : UInt8) (payload : Bytes) : wireFrame type payload =
    0xAA :: 0x55 :: UInt8.ofNat (payload.length + 1) :: type :: (payload ++
      bytes16 (crc16Modbus (UInt8.ofNat (payload.length + 1) :: type :: payload))) := rfl

theorem lenByte (h : payload.length < 255) :
    (UInt8.ofNat (payload.length + 1)).toNat = payload.length + 1 := by
  rw [UInt8.toNat_ofNat']
  omega

theorem read16_left {p : Bytes} {i : ℕ} (h : i + 2 ≤ p.length) (s : Bytes) :
    read16 (p ++ s) i = read16 p i := by
  unfold read16
  rw [List.getD_append _ _ _ i (by omega), List.getD_append _ _ _ (i + 1) (by omega)]

theorem read16_right (p s : Bytes) : read16 (p ++ s) p.length = read16 s 0 := by
  unfold read16
  rw [List.getD_append_right _ _ _ _ le_rfl,
    List.getD_append_right _ _ _ (p.length + 1) (Nat.le_succ _), Nat.sub_self,
    Nat.add_sub_cancel_left]

/-- A field of the payload is read in the frame four bytes further on. -/
theorem read16_frame {i : ℕ} (h : i + 2 ≤ payload.length) :
    read16 (wireFrame type payload) (i + 4) = read16 payload i := by
  rw [← read16_left h, wireFrame_cons]
  rfl

theorem parseAckEvent_frame (h : payload.length < 255) :
    parseAckEvent (wireFrame type payload) = ackOf type payload := by
  have hlen := wireFrame_length type payload
  have hbyte : ((wireFrame type payload).getD 2 0).toNat = payload.length + 1 := lenByte h
  have hcrc : read16 (wireFrame type payload) (2 + 1 + (payload.length + 1) + 2 - 2) =
      crc16Modbus (((wireFrame type payload).drop 2).take (1 + (payload.length + 1))) := by
    have hok := wireFrame_crcOk type h
    unfold CrcOk at hok
    rw [wireFrame_size type h] at hok
    have hat : 2 + 1 + (payload.length + 1) + 2 - 2 = payload.length + 6 - 2 := by omega
    have hspan : 1 + (payload.length + 1) = payload.length + 6 - 4 := by omega
    rw [hat, hspan]
    exact hok
  have htype : (wireFrame type payload).getD 3 0 = type := rfl
  unfold parseAckEvent ackOf
  rw [if_neg (by rw [hlen]; simp [wireFrame_cons])]
  dsimp only
  have hwhole : ¬((wireFrame type payload).length ≠ 2 + 1 + (payload.length + 1) + 2 ∨
      payload.length + 1 < 1) := by omega
  rw [hbyte, if_neg hwhole, htype, hcrc, Nat.add_sub_cancel]
  by_cases hack : type = 0x22 ∨ type = 0x23
  · have hother : ¬(type ≠ 0x22 ∧ type ≠ 0x23) := fun h => hack.elim h.1 h.2
    rw [if_neg hother]
    by_cases hshort : payload.length < 2
    · have hno : ¬((type = 0x22 ∨ type = 0x23) ∧ 2 ≤ payload.length) := by omega
      rw [if_pos hshort, if_neg hno]
    · have hyes : (type = 0x22 ∨ type = 0x23) ∧ 2 ≤ payload.length := ⟨hack, by omega⟩
      have herr : nackErr payload.length (read16 (wireFrame type payload) 6) =
          nackErr payload.length (read16 payload 2) := by
        unfold nackErr
        split_ifs with hcode
        · rw [← read16_frame (i := 2) hcode]
        · rfl
      rw [if_neg hshort, if_neg (not_not_intro rfl), if_pos hyes, herr,
        read16_frame (i := 0) hyes.2]
  · have hother : type ≠ 0x22 ∧ type ≠ 0x23 := not_or.mp hack
    have hno : ¬((type = 0x22 ∨ type = 0x23) ∧ 2 ≤ payload.length) := fun h => hack h.1
    rw [if_pos hother, if_neg hno]

/-- `parseAckFrame` decides nothing that `parseAckEvent` has not seen. -/
theorem parseAckFrame_decided (h : (parseAckFrame frame seq err).2.2 = true) :
    ∃ ev, parseAckEvent frame = some ev ∧ ev.seq = seq := by
  unfold parseAckFrame at h
  dsimp only at h
  split_ifs at h with h1 h2 h3 h4 h5 h6 h7
  all_goals
    unfold parseAckEvent
    dsimp only
    rw [if_neg h1, if_neg h2, if_neg h4, if_neg h5, if_neg h3]
    exact ⟨_, rfl, not_not.mp h6⟩

theorem decideAck_undecided (cache : AckCache)
    (h : ∀ ev, parseAckEvent frame = some ev → ev.seq ≠ seq) :
    decideAck seq err cache frame = (none, cache) := by
  have hdec : ¬(parseAckFrame frame seq err).2.2 = true := by
    intro hdec
    obtain ⟨ev, hev, hseq⟩ := parseAckFrame_decided hdec
    exact h ev hev hseq
  unfold decideAck
  dsimp only
  rw [if_neg hdec]

end Frame

section Wait
variable {f : UInt8 × Bytes} {seq : UInt16} {out_err : String} {cache : AckCache}

/-- Of a NACK the text is never empty, so that the cache does not take it for an ACK. -/
theorem nackErr_ne (n : ℕ) (code : UInt16) : nackErr n code ≠ "" := by
  unfold nackErr nackText
  split_ifs
  · intro h
    have := congrArg String.length h
    simp at this
  · decide

theorem consumeCachedAck_other {ev : AckEvent} (hother : ev.seq ≠ seq) (hcache : cache seq = none) :
    consumeCachedAck (noteAck cache ev) seq = (none, noteAck cache ev) := by
  unfold consumeCachedAck
  rw [show noteAck cache ev seq = none from (Function.update_of_ne hother.symm _ _).trans hcache]

theorem consumeCachedAck_own {ev : AckEvent} (hown : ev.seq = seq) :
    consumeCachedAck (noteAck cache ev) seq =
      (some (if (if ev.isAck then "" else ev.err) = "" then .ack
        else .failed (if ev.isAck then "" else ev.err)), Function.update cache seq none) := by
  subst hown
  unfold consumeCachedAck
  rw [show noteAck cache ev ev.seq = some (if ev.isAck then "" else ev.err) from
    Function.update_self ..]
  dsimp only
  rw [noteAck, Function.update_idem]

/-- After the deadline a frame is read as before. -/
theorem graceAck_eq (frame : Bytes) :
    graceAck seq out_err cache frame = readAck seq out_err cache frame := by
  unfold graceAck readAck
  cases hev : parseAckEvent frame with
  | none => rfl
  | some ev =>
    dsimp only
    by_cases hown : ev.seq = seq
    · rw [consumeCachedAck_own hown]
    · rcases hdec : consumeCachedAck (noteAck cache ev) seq with ⟨_ | v, c⟩
      · dsimp only
        refine decideAck_undecided c fun ev' hev' => ?_
        obtain rfl := Option.some.inj (hev.symm.trans hev')
        exact hown
      · rfl

/-- What a frame leaves in the cache of the wait for `seq`. -/
def noteOther (seq : UInt16) (cache : AckCache) (f : UInt8 × Bytes) : AckCache :=
  match ackOf f.1 f.2 with
  | some ev => if ev.seq = seq then cache else noteAck cache ev
  | none => cache

theorem noteOther_own (hcache : cache seq = none) : noteOther seq cache f seq = none := by
  unfold noteOther
  cases ackOf f.1 f.2 with
  | none => exact hcache
  | some ev =>
    dsimp only
    split_ifs with hown
    · exact hcache
    · exact (Function.update_of_ne (Ne.symm hown) _ _).trans hcache

theorem ackOf_err {type : UInt8} {payload : Bytes} {ev : AckEvent}
    (h : ackOf type payload = some ev) : ev.err = "" ↔ ev.isAck := by
  unfold ackOf at h
  split_ifs at h with hif htype
  · obtain rfl := Option.some.inj h
    simp [htype]
  · obtain rfl := Option.some.inj h
    simp [htype, nackErr_ne]

theorem readAck_frame (h : f.2.length < 255) (hcache : cache seq = none) :
    readAck seq out_err cache (wire f) = (answerTo seq f, noteOther seq cache f) := by
  have hparse : parseAckEvent (wire f) = ackOf f.1 f.2 := parseAckEvent_frame h
  unfold readAck answerTo noteOther
  cases hev : ackOf f.1 f.2 with
  | none =>
    rw [hev] at hparse
    rw [hparse]
    refine decideAck_undecided cache fun ev hsome => ?_
    cases hparse.symm.trans hsome
  | some ev =>
    rw [hev] at hparse
    rw [hparse]
    dsimp only
    by_cases hown : ev.seq = seq
    · have hempty : Function.update cache seq none = cache := by
        rw [← hcache, Function.update_eq_self]
      have herr := ackOf_err hev
      rw [if_pos hown, if_pos hown, consumeCachedAck_own hown, hempty, AckEvent.verdict]
      by_cases hack : ev.isAck
      · rw [if_pos hack, if_pos rfl, if_pos hack]
      · rw [if_neg hack, if_neg (mt herr.mp hack), if_neg hack]
    · rw [if_neg hown, if_neg hown, consumeCachedAck_other hown hcache]

theorem recvAck_frame (h : f.2.length < 255) (n : ℕ) (s : Bytes) :
    recvAck seq (n + 1) (wire f ++ s) =
      match answerTo seq f with
      | some v => (v, s)
      | none => recvAck seq n s := by
  obtain ⟨type, payload⟩ := f
  dsimp only at h
  generalize hlen : UInt8.ofNat (payload.length + 1) = len
  have htoNat : len.toNat = payload.length + 1 := by rw [← hlen, lenByte h]
  have hpayload : (len - 1).toNat = payload.length := by
    have hone : (1 : UInt8).toNat = 1 := rfl
    rw [UInt8.toNat_sub, htoNat, hone]
    omega
  have hpos : ¬len < 1 := by
    have hone : (1 : UInt8).toNat = 1 := rfl
    rw [UInt8.lt_iff_toNat_lt, htoNat, hone]
    omega
  generalize hcrc : crc16Modbus (len :: type :: payload) = crc
  have hframe : wire (type, payload) ++ s =
      0xAA :: 0x55 :: len :: type :: ((payload ++ bytes16 crc) ++ s) := by
    rw [wire, wireFrame_cons, hlen, hcrc]
    rfl
  have hbody : (payload ++ bytes16 crc).length = payload.length + 2 := by simp
  have htake : (payload ++ bytes16 crc).take payload.length = payload := List.take_left
  have hread : read16 (payload ++ bytes16 crc) payload.length = crc := by
    rw [read16_right]
    exact read16_head crc []
  rw [hframe, recvAck, if_neg (by decide), if_neg hpos]
  dsimp only
  rw [hpayload, if_neg (by rw [List.length_append, hbody]; omega), List.take_left' hbody,
    List.drop_left' hbody, htake, hread, hcrc, if_neg (not_not_intro rfl)]
  unfold answerTo ackOf
  dsimp only
  by_cases hack : (type = 0x22 ∨ type = 0x23) ∧ 2 ≤ payload.length
  · rw [if_pos hack, if_pos hack]
    dsimp only
    rw [read16_left hack.2]
    by_cases hseq : read16 payload 0 = seq
    · rw [if_neg (not_not_intro hseq), if_pos hseq]
      unfold AckEvent.verdict
      by_cases htype : type = 0x22
      · rw [if_pos htype, if_pos (decide_eq_true htype)]
      · -- the code of a NACK is looked at only where the payload has one, not in the CRC behind it
        have herr : nackErr payload.length (read16 (payload ++ bytes16 crc) 2) =
            nackErr payload.length (read16 payload 2) := by
          unfold nackErr
          split_ifs with hcode
          · rw [read16_left hcode]
          · rfl
        dsimp only
        rw [if_neg htype, if_neg (by simpa using htype), if_neg htype, herr]
    · rw [if_pos hseq, if_neg hseq]
  · rw [if_neg hack, if_neg hack]

theorem firstAnswer_rest (seq : UInt16) (n : ℕ) (frames : List (UInt8 × Bytes)) :
    (firstAnswer seq n frames).2.length ≤ frames.length := by
  induction n generalizing frames with
  | zero => exact le_rfl
  | succ n ih =>
    cases frames with
    | nil => exact le_rfl
    | cons f frames =>
      rw [firstAnswer]
      cases answerTo seq f with
      | some v => exact Nat.le_succ _
      | none => exact (ih frames).trans (Nat.le_succ _)

/-- The frames that are read before the first answer, and with it. -/
def readFrames (seq : UInt16) (n : ℕ) (frames : List (UInt8 × Bytes)) : List (UInt8 × Bytes) :=
  frames.take (frames.length - (firstAnswer seq n frames).2.length)

theorem recvAck_frames (n : ℕ) {frames : List (UInt8 × Bytes)}
    (hshort : ∀ f ∈ frames, f.2.length < 255) :
    recvAck seq n (frames.flatMap wire) =
      ((firstAnswer seq n frames).1.getD (.failed "ack timeout"),
        (firstAnswer seq n frames).2.flatMap wire) := by
  induction n generalizing frames with
  | zero => rfl
  | succ n ih =>
    cases frames with
    | nil => rfl
    | cons f frames =>
      obtain ⟨hf, hframes⟩ := List.forall_mem_cons.mp hshort
      rw [List.flatMap_cons, recvAck_frame hf, firstAnswer]
      cases answerTo seq f with
      | some v => rfl
      | none => exact ih hframes

theorem readFrames_zero (frames : List (UInt8 × Bytes)) : readFrames seq 0 frames = [] := by
  rw [readFrames, firstAnswer, Nat.sub_self, List.take_zero]

theorem readFrames_cons (n : ℕ) (frames : List (UInt8 × Bytes)) :
    readFrames seq (n + 1) (f :: frames) =
      f :: match answerTo seq f with
        | some _ => []
        | none => readFrames seq n frames := by
  unfold readFrames
  rw [firstAnswer, List.length_cons]
  cases answerTo seq f with
  | some v => rw [Nat.add_sub_cancel_left, List.take_succ_cons, List.take_zero]
  | none => rw [Nat.succ_sub (firstAnswer_rest seq n frames), List.take_succ_cons]

theorem waitAck_frames (out_err local_err : String) (n : ℕ) {frames : List (UInt8 × Bytes)}
    (hshort : ∀ f ∈ frames, f.2.length < 255) (hcache : cache seq = none) :
    waitAck seq out_err local_err n cache (frames.map wire) =
      ((firstAnswer seq (n + 1) frames).1.getD
          (.failed (if frames.length < n ∧ local_err ≠ "" then local_err else "ack timeout")),
        (readFrames seq (n + 1) frames).foldl (noteOther seq) cache,
        (firstAnswer seq (n + 1) frames).2.map wire) := by
  induction n generalizing frames cache with
  | zero =>
    cases frames with
    | nil => rfl
    | cons f frames =>
      obtain ⟨hf, -⟩ := List.forall_mem_cons.mp hshort
      rw [List.map_cons, waitAck, graceAck_eq, readAck_frame hf hcache, readFrames_cons,
        firstAnswer]
      cases answerTo seq f with
      | some v => rfl
      | none => rw [readFrames_zero]; rfl
  | succ n ih =>
    cases frames with
    | nil =>
      rw [List.map_nil, waitAck]
      refine Prod.ext (congrArg Verdict.failed ?_) rfl
      by_cases hlocal : local_err = ""
      · rw [if_pos hlocal, if_neg fun h => h.2 hlocal]
      · rw [if_neg hlocal, if_pos ⟨Nat.succ_pos n, hlocal⟩]
    | cons f frames =>
      obtain ⟨hf, hframes⟩ := List.forall_mem_cons.mp hshort
      rw [List.map_cons, waitAck, readAck_frame hf hcache, readFrames_cons, firstAnswer]
      cases answerTo seq f with
      | some v => rfl
      | none =>
        dsimp only
        rw [ih hframes (noteOther_own hcache), List.length_cons]
        simp only [Nat.add_lt_add_iff_right, List.foldl_cons]

/-- Over its own socket and over the frames of the gateway's transport an exchange ends with the first
answer to it, and what came behind that answer is left; the transport has one round more, and keeps
the answers to other exchanges. -/
theorem exchange_decided (out_err local_err : String) (n : ℕ) {frames : List (UInt8 × Bytes)}
    (hshort : ∀ f ∈ frames, f.2.length < 255) (hcache : cache seq = none) :
    recvAck seq n (frames.flatMap wire) =
        ((firstAnswer seq n frames).1.getD (.failed "ack timeout"),
          (firstAnswer seq n frames).2.flatMap wire) ∧
      waitAck seq out_err local_err n cache (frames.map wire) =
        ((firstAnswer seq (n + 1) frames).1.getD
            (.failed (if frames.length < n ∧ local_err ≠ "" then local_err else "ack timeout")),
          (readFrames seq (n + 1) frames).foldl (noteOther seq) cache,
          (firstAnswer seq (n + 1) frames).2.map wire) ∧
      (readFrames seq (n + 1) frames).foldl (noteOther seq) cache seq = none := by
  refine ⟨recvAck_frames n hshort, waitAck_frames out_err local_err n hshort hcache, ?_⟩
  generalize readFrames seq (n + 1) frames = read
  induction read generalizing cache with
  | nil => exact hcache
  | cons f read ih => exact ih (noteOther_own hcache)

end Wait

/-- An answer to another exchange, a report, the NACK that is waited for and an ACK behind it. -/
def replies : List (UInt8 × Bytes) :=
  [(0x22, [2, 0]), (0x21, [0, 0, 0, 0, 0, 0, 0, 0]), (0x23, [1, 0, 4, 0]), (0x22, [1, 0])]

theorem exchange_decided_nack :
    recvAck 1 3 (replies.flatMap wire) = (.failed (nackText 4), wire (0x22, [1, 0])) ∧
      waitAck 1 "" "" 3 (fun _ => none) (replies.map wire) =
        (.failed (nackText 4), Function.update (fun _ => none) 2 (some ""), [wire (0x22, [1, 0])]) :=
  have hshort : ∀ f ∈ replies, f.2.length < 255 := by decide
  have hcache : (fun _ => none : AckCache) 1 = none := rfl
  have h := exchange_decided "" "" 3 hshort hcache
  ⟨h.1, h.2.1⟩

/-- What the bootloader sends, as type and payload. -/
def upParts (m : OtaMetadata) : Up → UInt8 × Bytes
  | .hello => (blUpBootHello,
      [blMetaSchemaVersion.toUInt8, m.activeSlot, m.pendingSlot, m.confirmedSlot] ++
        bytes32 m.rollbackCount)
  | .reply _ (.ack seq) => (blUpOtaAck, bytes16 seq)
  | .reply _ (.nack seq err) => (blUpOtaNack, bytes16 seq ++ bytes16 err)
  | .reply _ (.version a b) => (blUpVersionReport, bytes32 a ++ bytes32 b)

def upBytes (m : OtaMetadata) : Up → Option Bytes
  | .hello => blOtaSendHello m
  | .reply _ r => blSendReply r

/-- What `n` calls of `bl_read_frame` return. -/
def blReads : ℕ → Bytes → List BootFrames.Outcome × Bytes
  | 0, s => ([], s)
  | n + 1, s =>
    let (o, s) := blReadFrame s
    let (os, s) := blReads n s
    (o :: os, s)

/-- What `ack_cache` holds for the answers of the messages. -/
def texts (cache : UInt16 → Option (Tag × Option UInt16)) : AckCache :=
  fun seq => (cache seq).map fun a => a.2.elim "" nackText

def verdictOf : Option UInt16 → Verdict
  | none => .ack
  | some code => .failed (nackText code)

section Link
variable (m : OtaMetadata) (up : Up)

theorem upParts_length : (upParts m up).2.length ≤ 8 := by
  rcases up with _ | ⟨_, _ | _ | _⟩ <;> simp [upParts]

theorem upBytes_parts : upBytes m up = some (wire (upParts m up)) := by
  have hfits {type : UInt8} {payload : Bytes} (h : payload.length ≤ 8) :
      blSendFrame type payload = some (wireFrame type payload) := by
    refine if_neg ?_
    rw [gt_iff_lt, UInt8.lt_iff_toNat_lt, lenByte (by omega)]
    show ¬59 < _
    omega
  have hlen := upParts_length m up
  rcases up with _ | ⟨_, _ | _ | _⟩ <;> exact hfits hlen

theorem ackOf_up : ackOf (upParts m up).1 (upParts m up).2 =
    (ackEvent up).map fun e => ⟨e.2.2.isNone, e.1, e.2.2.elim "" nackText⟩ := by
  rcases up with _ | ⟨_, seq | ⟨seq, err⟩ | _⟩
  · rfl
  · exact congrArg (fun s => some (AckEvent.mk true s "")) (read16_head seq [])
  · have hseq := read16_head seq (bytes16 err)
    have herr : read16 (bytes16 seq ++ bytes16 err) 2 = err := read16_head err []
    have hack : ackOf blUpOtaNack (bytes16 seq ++ bytes16 err) =
        some ⟨false, read16 (bytes16 seq ++ bytes16 err) 0,
          nackText (read16 (bytes16 seq ++ bytes16 err) 2)⟩ := rfl
    rw [hseq, herr] at hack
    exact hack
  · rfl

theorem texts_update (cache : UInt16 → Option (Tag × Option UInt16)) (seq : UInt16)
    (a : Option (Tag × Option UInt16)) : texts (Function.update cache seq a) =
      Function.update (texts cache) seq (a.map fun a => a.2.elim "" nackText) := by
  funext s
  by_cases hs : s = seq
  · subst hs
    simp [texts]
  · simp [texts, hs]

theorem consumeCachedAck_texts (cache : UInt16 → Option (Tag × Option UInt16)) (seq : UInt16) :
    consumeCachedAck (texts cache) seq =
      match cache seq with
      | none => (none, texts cache)
      | some a => (some (verdictOf a.2), texts (Function.update cache seq none)) := by
  unfold consumeCachedAck
  rw [texts_update]
  have hat : texts cache seq = (cache seq).map fun a => a.2.elim "" nackText := rfl
  rw [hat]
  rcases cache seq with _ | ⟨tag, _ | code⟩
  · rfl
  · rfl
  · have hne : nackText code ≠ "" := nackErr_ne 4 code
    exact Prod.ext (congrArg some (if_neg hne)) rfl

/-- Over the gateway's transport a message of the bootloader is read as the link's model says. -/
theorem readAck_up (w : World) (hcustom : w.job.customTransport = true) (out_err : String) :
    ∃ answer cache,
      readAck w.seq out_err (texts w.ackCache) (wire (upParts m up)) =
        (Option.map verdictOf answer, texts cache) ∧
      ∀ undecided, w.answered up undecided =
        match answer with
        | some a => { w with ackCache := cache }.decided a
        | none => undecided { w with ackCache := cache } := by
  have hshort : (upParts m up).2.length < 255 := by
    have := upParts_length m up
    omega
  have hparse : parseAckEvent (wireFrame (upParts m up).1 (upParts m up).2) =
      (ackEvent up).map fun a => ⟨a.2.2.isNone, a.1, a.2.2.elim "" nackText⟩ :=
    (parseAckEvent_frame hshort).trans (ackOf_up m up)
  unfold readAck World.answered
  cases hev : ackEvent up with
  | none =>
    rw [hev] at hparse
    refine ⟨none, w.ackCache, ?_, fun undecided => rfl⟩
    rw [wire, hparse]
    refine decideAck_undecided _ fun ev hsome => ?_
    cases hparse.symm.trans hsome
  | some e =>
    obtain ⟨seq, tag, answer⟩ := e
    rw [hev, Option.map_some] at hparse
    rw [wire, hparse]
    dsimp only
    have hnote : noteAck (texts w.ackCache) ⟨answer.isNone, seq, answer.elim "" nackText⟩ =
        texts (Function.update w.ackCache seq (some (tag, answer))) := by
      rw [texts_update]
      cases answer with
      | none => rfl
      | some code => rfl
    rw [hnote, consumeCachedAck_texts]
    simp only [if_pos hcustom, World.consumeCachedAck]
    generalize Function.update w.ackCache seq (some (tag, answer)) = cache
    cases hcache : cache w.seq with
    | none => exact ⟨none, cache, rfl, fun undecided => rfl⟩
    | some a => exact ⟨some a.2, Function.update cache w.seq none, rfl, fun undecided => rfl⟩

/-- Over a socket of its own it is read so too. -/
theorem recvAck_up (w : World) (hsocket : w.job.customTransport = false) :
    ∃ answer,
      (∀ n s, recvAck w.seq (n + 1) (wire (upParts m up) ++ s) =
        match answer with
        | some a => (verdictOf a, s)
        | none => recvAck w.seq n s) ∧
      ∀ undecided, w.answered up undecided =
        match answer with
        | some a => w.decided a
        | none => undecided w := by
  have hshort : (upParts m up).2.length < 255 := by
    have := upParts_length m up
    omega
  have hother : ¬w.job.customTransport = true := by simp [hsocket]
  have hread : ∀ n s, recvAck w.seq (n + 1) (wire (upParts m up) ++ s) =
      match answerTo w.seq (upParts m up) with
      | some v => (v, s)
      | none => recvAck w.seq n s := recvAck_frame hshort
  unfold answerTo at hread
  rw [ackOf_up] at hread
  unfold World.answered
  cases hev : ackEvent up with
  | none =>
    rw [hev] at hread
    exact ⟨none, hread, fun undecided => rfl⟩
  | some e =>
    obtain ⟨seq, tag, answer⟩ := e
    rw [hev] at hread
    dsimp only [Option.map] at hread ⊢
    simp only [if_neg hother]
    by_cases hseq : seq = w.seq
    · simp only [if_pos hseq] at hread ⊢
      refine ⟨some answer, fun n s => (hread n s).trans ?_, fun undecided => rfl⟩
      cases answer with
      | none => rfl
      | some code => rfl
    · simp only [if_neg hseq] at hread ⊢
      exact ⟨none, hread, fun undecided => rfl⟩

/-- A frame of at most 254 bytes of payload is read back, and nothing behind it. -/
theorem blReadFrame_wire {type : UInt8} {payload : Bytes} (h : payload.length < 255) (s : Bytes) :
    blReadFrame (buildFrame type payload ++ s) = (.one type payload, s) := by
  have hfind : findHeader (buildFrame type payload ++ s) =
      some (UInt8.ofNat (payload.length + 1) :: type :: payload ++
        (bytes16 (crc16Modbus (UInt8.ofNat (payload.length + 1) :: type :: payload)) ++ s)) := by
    rw [buildFrame, wireFrame_cons]
    show some (UInt8.ofNat (payload.length + 1) :: type :: ((payload ++ _) ++ s)) = _
    rw [List.append_assoc]
    rfl
  unfold blReadFrame
  rw [hfind]
  exact readBody_frame type h s

def Job.bytes (job : Job) (seq : UInt16) (phase : Phase) : Bytes :=
  buildFrame phase.type (job.payload seq phase)

/-- Whatever the gateway sends of whatever updates, retries among it, the bootloader reads frame by
frame; and the frames of the bootloader decide an exchange as the messages of the link do. -/
theorem link_carried :
    (∀ (sent : List (Job × UInt16 × Phase)) (s : Bytes),
      blReads sent.length (sent.flatMap (fun x => Job.bytes x.1 x.2.1 x.2.2) ++ s) =
        (sent.map fun x => .one (x.1.frame x.2.1 x.2.2).type (x.1.frame x.2.1 x.2.2).payload, s)) ∧
    ∀ (m : OtaMetadata) (up : Up) (w : World), ∃ frame, upBytes m up = some frame ∧
      (w.job.customTransport = true → ∀ out_err, ∃ answer cache,
        readAck w.seq out_err (texts w.ackCache) frame =
          (Option.map verdictOf answer, texts cache) ∧
        ∀ undecided, w.answered up undecided =
          match answer with
          | some a => { w with ackCache := cache }.decided a
          | none => undecided { w with ackCache := cache }) ∧
      (w.job.customTransport = false → ∃ answer,
        (∀ n s, recvAck w.seq (n + 1) (frame ++ s) =
          match answer with
          | some a => (verdictOf a, s)
          | none => recvAck w.seq n s) ∧
        ∀ undecided, w.answered up undecided =
          match answer with
          | some a => w.decided a
          | none => undecided w) := by
  constructor
  · intro sent s
    induction sent with
    | nil => rfl
    | cons x sent ih =>
      have hshort := x.1.payload_short x.2.1 x.2.2
      rw [List.flatMap_cons, List.append_assoc, List.length_cons, blReads, Job.bytes,
        blReadFrame_wire (by omega)]
      dsimp only
      rw [ih]
      rfl
  · intro m up w
    exact ⟨_, upBytes_parts m up, fun h out_err => readAck_up m up w h out_err,
      fun h => recvAck_up m up w h⟩

end Link

end EdgeLink.OtaWire
