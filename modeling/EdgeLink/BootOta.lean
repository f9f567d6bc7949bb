import EdgeLink.BootMain

namespace EdgeLink.Bootloader
open LittleEndian Nor

def blUpVersionReport : UInt8 := 0x21
def blUpOtaAck : UInt8 := 0x22
def blUpOtaNack : UInt8 := 0x23

def blDnOtaPrepare : UInt8 := 0x31
def blDnOtaData : UInt8 := 0x32
def blDnOtaVerify : UInt8 := 0x33
def blDnOtaCommit : UInt8 := 0x34
def blDnOtaAbort : UInt8 := 0x35
def blDnGetVersion : UInt8 := 0x37

def blErrBadPayload : UInt16 := 1
def blErrBadChunkSize : UInt16 := 2
def blErrBadTarget : UInt16 := 3
def blErrEraseFailed : UInt16 := 4
def blErrBadOffset : UInt16 := 5
def blErrWriteFailed : UInt16 := 6
def blErrBadCrc32 : UInt16 := 7
def blErrBadVector : UInt16 := 8
def blErrMetaCommit : UInt16 := 9
def blErrRollback : UInt16 := 10

structure BlOtaCtx where
  active : Bool
  expectedSeq : UInt16
  targetBase : UInt32
  imageSize : UInt32
  imageCrc32 : UInt32
  chunkSize : UInt16
  imageVersion : UInt32
  writeOffset : UInt32
  deriving DecidableEq, Repr

def blCtxReset : BlOtaCtx := ⟨false, 0, 0, 0, 0, 0, 0, 0⟩

inductive Reply
  | ack (seq : UInt16)
  | nack (seq err : UInt16)
  | version (a b : UInt32)
  deriving DecidableEq, Repr

/-- What the frame parser hands to the loop: the length byte on the wire also counts the type. -/
structure Frame where
  type : UInt8
  payload : Bytes
  short : payload.length ≤ 254

/-- What a handler leaves behind: the flash, `g_ctx`, its reply, the metadata it handed to
`bl_metadata_commit`, and whether it ends in a reset. -/
structure Handled where
  ctl : Ctl
  ctx : BlOtaCtx
  reply : Option Reply
  committed : Option OtaMetadata
  reset : Bool

def answer (c : Ctl) (g : BlOtaCtx) (r : Reply) : Handled := ⟨c, g, some r, none, false⟩

@[simp] theorem answer_ctl (c : Ctl) (g : BlOtaCtx) (r : Reply) : (answer c g r).ctl = c := rfl
@[simp] theorem answer_ctx (c : Ctl) (g : BlOtaCtx) (r : Reply) : (answer c g r).ctx = g := rfl
@[simp] theorem answer_reply (c : Ctl) (g : BlOtaCtx) (r : Reply) :
    (answer c g r).reply = some r := rfl
@[simp] theorem answer_committed (c : Ctl) (g : BlOtaCtx) (r : Reply) :
    (answer c g r).committed = none := rfl
@[simp] theorem answer_reset (c : Ctl) (g : BlOtaCtx) (r : Reply) :
    (answer c g r).reset = false := rfl

def blVectorValidForSlot (fl : Mem) (slot_base slot_size : UInt32) : Bool :=
  let sp := wordAt fl slot_base.toNat
  let pc := wordAt fl (slot_base.toNat + 4)
  if sp < 0x20000000 ∨ sp ≥ 0x20030000 then false
  else if pc < slot_base ∨ pc ≥ slot_base + slot_size then false
  else true

def blPickTargetSlot (m : OtaMetadata) : UInt32 :=
  if m.activeSlot = blSlotA then blAppBBase else blAppABase

def blPrepareTargetAllowed (m : OtaMetadata) (target_base : UInt32) : Bool :=
  if ¬ blFlashIsSlotBase target_base then false
  else if (m.appAState = imgInvalid ∨ m.appAState = imgRollback) ∧
      (m.appBState = imgInvalid ∨ m.appBState = imgRollback) then true
  else if m.activeSlot = blSlotNone ∨ m.confirmedSlot = blSlotNone then true
  else if m.activeSlot = blSlotA ∧ target_base = blAppABase then false
  else if m.activeSlot = blSlotB ∧ target_base = blAppBBase then false
  else if m.confirmedSlot = blSlotA ∧ target_base = blAppABase then false
  else if m.confirmedSlot = blSlotB ∧ target_base = blAppBBase then false
  else true

/-- The request as `bl_handle_prepare` stores it in `g_ctx` before it looks at it. -/
def prepareFields (g : BlOtaCtx) (payload : Bytes) : BlOtaCtx :=
  { g with
    imageSize := read32 payload 2
    imageCrc32 := read32 payload 6
    chunkSize := read16 payload 10
    imageVersion := if payload.length ≥ 20 then read32 payload 16 else 0 }

def prepareTarget (m : OtaMetadata) (payload : Bytes) : UInt32 :=
  if payload.length ≥ 16 then read32 payload 12 else blPickTargetSlot m

/-- The checks between the stores and the erase, with the code of the first one that fails. -/
def prepareError (m : OtaMetadata) (g : BlOtaCtx) (target_base : UInt32) : Option UInt16 :=
  if g.imageSize = 0 ∨ g.imageSize > blAppASize then some blErrBadPayload
  else if g.chunkSize = 0 ∨ g.chunkSize > 246 then some blErrBadChunkSize
  else if ¬ blPrepareTargetAllowed m target_base then some blErrBadTarget
  else if g.imageVersion ≠ 0 ∧ g.imageVersion < blMetadataMinAllowedVersion m then
    some blErrRollback
  else none

/-- The context of a new session: `bl_ctx_reset`, then the request once more. -/
def prepareCtx (payload : Bytes) (target_base : UInt32) : BlOtaCtx :=
  { prepareFields blCtxReset payload with
    active := true, expectedSeq := read16 payload 0 + 1, targetBase := target_base
    writeOffset := 0 }

def blHandlePrepare (c : Ctl) (g : BlOtaCtx) (payload : Bytes) (m : OtaMetadata) : Handled :=
  if payload.length < 12 then answer c g (.nack 0 blErrBadPayload)
  else
    let seq := read16 payload 0
    let g := prepareFields g payload
    let target_base := prepareTarget m payload
    match prepareError m g target_base with
    | some err => answer c g (.nack seq err)
    | none =>
      match blFlashEraseSlot c target_base with
      | (c', false) => answer c' g (.nack seq blErrEraseFailed)
      | (c', true) => answer c' (prepareCtx payload target_base) (.ack seq)

def blHandleData (c : Ctl) (g : BlOtaCtx) (payload : Bytes) : Handled :=
  if ¬ g.active ∨ payload.length < 8 then answer c g (.nack 0 blErrBadPayload)
  else
    let seq := read16 payload 0
    let offset := read32 payload 2
    let chunk_len := read16 payload 6
    let prev_seq := g.expectedSeq - 1
    if seq = prev_seq ∧ chunk_len.toNat = payload.length - 8 ∧
        offset + chunk_len.toUInt32 = g.writeOffset then answer c g (.ack seq)
    else if seq ≠ g.expectedSeq then answer c g (.nack seq blErrBadOffset)
    else if chunk_len.toNat ≠ payload.length - 8 ∨ chunk_len > g.chunkSize then
      answer c g (.nack seq blErrBadPayload)
    else if offset ≠ g.writeOffset ∨ offset + chunk_len.toUInt32 > g.imageSize then
      answer c g (.nack seq blErrBadOffset)
    else
      match blFlashWrite c (g.targetBase + offset).toNat
          ((payload.drop 8).take chunk_len.toNat) with
      | (c', false) => answer c' g (.nack seq blErrWriteFailed)
      | (c', true) =>
        answer c' { g with
          writeOffset := g.writeOffset + chunk_len.toUInt32
          expectedSeq := g.expectedSeq + 1 } (.ack seq)

def blHandleVerify (c : Ctl) (g : BlOtaCtx) (payload : Bytes) : Handled :=
  if ¬ g.active ∨ payload.length < 6 then answer c g (.nack 0 blErrBadPayload)
  else
    let seq := read16 payload 0
    let image_crc32 := read32 payload 2
    if seq ≠ g.expectedSeq ∨ image_crc32 ≠ g.imageCrc32 ∨ g.writeOffset ≠ g.imageSize then
      answer c g (.nack seq blErrBadPayload)
    else if blCrc32 (read c.mem g.targetBase.toNat g.imageSize.toNat) ≠ g.imageCrc32 then
      answer c g (.nack seq blErrBadCrc32)
    else if ¬ blVectorValidForSlot c.mem g.targetBase blAppASize then
      answer c g (.nack seq blErrBadVector)
    else answer c { g with expectedSeq := g.expectedSeq + 1 } (.ack seq)

/-- The slot that a COMMIT makes pending. -/
def commitSlot (g : BlOtaCtx) : UInt8 := if g.targetBase = blAppBBase then blSlotB else blSlotA

def commitNext (g : BlOtaCtx) (m : OtaMetadata) : OtaMetadata :=
  let next := { m with pendingSlot := commitSlot g, bootAttempts := 0 }
  let next :=
    if commitSlot g = blSlotA then
      { next with
        appAState := imgPending, appASize := g.imageSize, appACrc32 := g.imageCrc32
        appAVersion := g.imageVersion }
    else
      { next with
        appBState := imgPending, appBSize := g.imageSize, appBCrc32 := g.imageCrc32
        appBVersion := g.imageVersion }
  { next with metaSeq := next.metaSeq + 1 }

def blHandleCommit (c : Ctl) (g : BlOtaCtx) (payload : Bytes) (m : OtaMetadata) : Handled :=
  if ¬ g.active ∨ payload.length < 2 then answer c g (.nack 0 blErrBadPayload)
  else
    let seq := read16 payload 0
    if seq ≠ g.expectedSeq then answer c g (.nack seq blErrBadPayload)
    else
      let next := commitNext g m
      match blMetadataCommit c next with
      | (c', false) => ⟨c', g, some (.nack seq blErrMetaCommit), some next, false⟩
      | (c', true) => ⟨c', g, some (.ack seq), some next, true⟩

/-- One received frame of `bl_ota_loop`. -/
def blOtaLoopFrame (c : Ctl) (g : BlOtaCtx) (m : OtaMetadata) (f : Frame) : Handled :=
  if f.type = blDnOtaPrepare then blHandlePrepare c g f.payload m
  else if f.type = blDnOtaData then blHandleData c g f.payload
  else if f.type = blDnOtaVerify then blHandleVerify c g f.payload
  else if f.type = blDnOtaCommit then blHandleCommit c g f.payload m
  else if f.type = blDnOtaAbort then
    answer c blCtxReset (.ack (if f.payload.length ≥ 2 then read16 f.payload 0 else 0))
  else if f.type = blDnGetVersion then answer c g (.version m.appAVersion m.appBVersion)
  else ⟨c, g, none, none, false⟩

theorem blHandlePrepare_cases (c : Ctl) (g : BlOtaCtx) (payload : Bytes) (m : OtaMetadata) :
    (payload.length < 12 ∧
      blHandlePrepare c g payload m = answer c g (.nack 0 blErrBadPayload)) ∨
    (12 ≤ payload.length ∧
      ∃ err, prepareError m (prepareFields g payload) (prepareTarget m payload) = some err ∧
        blHandlePrepare c g payload m =
          answer c (prepareFields g payload) (.nack (read16 payload 0) err)) ∨
    (12 ≤ payload.length ∧
      prepareError m (prepareFields g payload) (prepareTarget m payload) = none ∧
      ∃ c' ok, blFlashEraseSlot c (prepareTarget m payload) = (c', ok) ∧
        blHandlePrepare c g payload m =
          if ok then answer c' (prepareCtx payload (prepareTarget m payload))
            (.ack (read16 payload 0))
          else answer c' (prepareFields g payload) (.nack (read16 payload 0) blErrEraseFailed)) := by
  unfold blHandlePrepare
  by_cases hlen : payload.length < 12
  · exact Or.inl ⟨hlen, if_pos hlen⟩
  · rw [if_neg hlen]
    dsimp only
    cases he : prepareError m (prepareFields g payload) (prepareTarget m payload) with
    | some err => exact Or.inr (Or.inl ⟨by omega, err, rfl, rfl⟩)
    | none =>
      rcases hf : blFlashEraseSlot c (prepareTarget m payload) with ⟨c', _ | _⟩
      · exact Or.inr (Or.inr ⟨by omega, rfl, c', false, rfl, rfl⟩)
      · exact Or.inr (Or.inr ⟨by omega, rfl, c', true, rfl, rfl⟩)

theorem blHandlePrepare_ok {c c' : Ctl} {payload : Bytes} {m : OtaMetadata} (g : BlOtaCtx)
    (hl : 12 ≤ payload.length)
    (he : prepareError m (prepareFields g payload) (prepareTarget m payload) = none)
    (hf : blFlashEraseSlot c (prepareTarget m payload) = (c', true)) :
    blHandlePrepare c g payload m =
      answer c' (prepareCtx payload (prepareTarget m payload)) (.ack (read16 payload 0)) := by
  unfold blHandlePrepare
  rw [if_neg (by omega)]
  dsimp only
  rw [he, hf]

/-- A request that passed all checks. -/
theorem prepareError_none {m : OtaMetadata} {g : BlOtaCtx} {t : UInt32}
    (h : prepareError m g t = none) :
    g.imageSize ≠ 0 ∧ g.imageSize ≤ blAppASize ∧ g.chunkSize ≠ 0 ∧ g.chunkSize ≤ 246 ∧
      blPrepareTargetAllowed m t = true ∧
      (g.imageVersion = 0 ∨ blMetadataMinAllowedVersion m ≤ g.imageVersion) := by
  unfold prepareError at h
  split_ifs at h with h₁ h₂ h₃ h₄
  push Not at h₁ h₂ h₄
  exact ⟨h₁.1, UInt32.not_lt.mp h₁.2, h₂.1, UInt16.not_lt.mp h₂.2, h₃,
    or_iff_not_imp_left.mpr fun h => UInt32.not_lt.mp (h₄ h)⟩

theorem prepareTargetAllowed_slot {m : OtaMetadata} {t : UInt32}
    (h : blPrepareTargetAllowed m t = true) : t = blAppABase ∨ t = blAppBBase := by
  unfold blPrepareTargetAllowed at h
  by_cases hs : blFlashIsSlotBase t = true
  · simpa [blFlashIsSlotBase] using hs
  · rw [if_pos hs] at h
    exact absurd h (by simp)

/-- A DATA frame either leaves flash and session alone, or is the next chunk of the window. -/
theorem blHandleData_cases (c : Ctl) (g : BlOtaCtx) (payload : Bytes) :
    (∃ r, blHandleData c g payload = answer c g r ∧
      ∀ seq, r = .ack seq → g.active = true ∧ 8 ≤ payload.length ∧ seq = read16 payload 0 ∧
        seq = g.expectedSeq - 1) ∨
    (g.active = true ∧ 8 ≤ payload.length ∧ read16 payload 0 = g.expectedSeq ∧
      (read16 payload 6).toNat = payload.length - 8 ∧ read16 payload 6 ≤ g.chunkSize ∧
      read32 payload 2 = g.writeOffset ∧
      g.writeOffset + (read16 payload 6).toUInt32 ≤ g.imageSize ∧
      ∃ c' ok, blFlashWrite c (g.targetBase + g.writeOffset).toNat (payload.drop 8) = (c', ok) ∧
        blHandleData c g payload =
          if ok then answer c' { g with
            writeOffset := g.writeOffset + (read16 payload 6).toUInt32
            expectedSeq := g.expectedSeq + 1 } (.ack (read16 payload 0))
          else answer c' g (.nack (read16 payload 0) blErrWriteFailed)) := by
  unfold blHandleData
  -- the checks in the order of the source; the second is the repeated chunk, which is acknowledged
  by_cases h₀ : ¬ g.active ∨ payload.length < 8
  · rw [if_pos h₀]
    exact Or.inl ⟨_, rfl, by simp⟩
  rw [if_neg h₀]
  push Not at h₀
  dsimp only
  by_cases h₁ : read16 payload 0 = g.expectedSeq - 1 ∧ (read16 payload 6).toNat =
      payload.length - 8 ∧ read32 payload 2 + (read16 payload 6).toUInt32 = g.writeOffset
  · rw [if_pos h₁]
    refine Or.inl ⟨_, rfl, fun seq hs => ?_⟩
    cases hs
    exact ⟨h₀.1, h₀.2, rfl, h₁.1⟩
  rw [if_neg h₁]
  by_cases h₂ : read16 payload 0 ≠ g.expectedSeq
  · rw [if_pos h₂]
    exact Or.inl ⟨_, rfl, by simp⟩
  rw [if_neg h₂]
  by_cases h₃ : (read16 payload 6).toNat ≠ payload.length - 8 ∨ read16 payload 6 > g.chunkSize
  · rw [if_pos h₃]
    exact Or.inl ⟨_, rfl, by simp⟩
  rw [if_neg h₃]
  by_cases h₄ : read32 payload 2 ≠ g.writeOffset ∨
      read32 payload 2 + (read16 payload 6).toUInt32 > g.imageSize
  · rw [if_pos h₄]
    exact Or.inl ⟨_, rfl, by simp⟩
  rw [if_neg h₄]
  push Not at h₂ h₃ h₄
  have htake : (payload.drop 8).take (read16 payload 6).toNat = payload.drop 8 :=
    List.take_of_length_le (by rw [List.length_drop, h₃.1])
  rw [htake, h₄.1]
  rw [h₄.1] at h₄
  refine Or.inr ⟨h₀.1, h₀.2, h₂, h₃.1, UInt16.not_lt.mp h₃.2, rfl, UInt32.not_lt.mp h₄.2, ?_⟩
  rcases hw : blFlashWrite c (g.targetBase + g.writeOffset).toNat (payload.drop 8) with ⟨c', _ | _⟩
  · exact ⟨c', false, rfl, rfl⟩
  · exact ⟨c', true, rfl, rfl⟩

/-- The next chunk of the window is written. -/
theorem blHandleData_next {c : Ctl} {g : BlOtaCtx} {payload : Bytes} (ha : g.active = true)
    (hl : 8 ≤ payload.length) (hs : read16 payload 0 = g.expectedSeq)
    (hn : (read16 payload 6).toNat = payload.length - 8) (hc : read16 payload 6 ≤ g.chunkSize)
    (ho : read32 payload 2 = g.writeOffset)
    (hw : g.writeOffset + (read16 payload 6).toUInt32 ≤ g.imageSize) :
    blHandleData c g payload =
      match blFlashWrite c (g.targetBase + g.writeOffset).toNat (payload.drop 8) with
      | (c', false) => answer c' g (.nack (read16 payload 0) blErrWriteFailed)
      | (c', true) => answer c' { g with
          writeOffset := g.writeOffset + (read16 payload 6).toUInt32
          expectedSeq := g.expectedSeq + 1 } (.ack (read16 payload 0)) := by
  have hprev : g.expectedSeq ≠ g.expectedSeq - 1 := by
    intro h
    have ht := congrArg UInt16.toNat h
    have hlt := g.expectedSeq.toNat_lt
    rw [UInt16.toNat_sub, UInt16.toNat_one] at ht
    omega
  have htake : (payload.drop 8).take (read16 payload 6).toNat = payload.drop 8 :=
    List.take_of_length_le (by rw [List.length_drop, hn])
  unfold blHandleData
  rw [if_neg (by simp [ha, hl])]
  dsimp only
  rw [if_neg (by rw [hs]; tauto), if_neg (not_not.mpr hs),
    if_neg (not_or.mpr ⟨not_not.mpr hn, UInt16.not_lt.mpr hc⟩),
    if_neg (not_or.mpr ⟨not_not.mpr ho, UInt32.not_lt.mpr (ho ▸ hw)⟩), htake, ho]

theorem blHandleVerify_cases (c : Ctl) (g : BlOtaCtx) (payload : Bytes) :
    (∃ seq err, blHandleVerify c g payload = answer c g (.nack seq err)) ∨
    (g.active = true ∧ 6 ≤ payload.length ∧ read16 payload 0 = g.expectedSeq ∧
      read32 payload 2 = g.imageCrc32 ∧ g.writeOffset = g.imageSize ∧
      blCrc32 (read c.mem g.targetBase.toNat g.imageSize.toNat) = g.imageCrc32 ∧
      blVectorValidForSlot c.mem g.targetBase blAppASize = true ∧
      blHandleVerify c g payload =
        answer c { g with expectedSeq := g.expectedSeq + 1 } (.ack (read16 payload 0))) := by
  unfold blHandleVerify
  by_cases h₀ : ¬ g.active ∨ payload.length < 6
  · rw [if_pos h₀]
    exact Or.inl ⟨_, _, rfl⟩
  rw [if_neg h₀]
  push Not at h₀
  dsimp only
  split_ifs with h₁ h₂ h₃
  · exact Or.inl ⟨_, _, rfl⟩
  · exact Or.inl ⟨_, _, rfl⟩
  · push Not at h₁ h₂
    exact Or.inr ⟨h₀.1, h₀.2, h₁.1, h₁.2.1, h₁.2.2, h₂, h₃, rfl⟩
  · exact Or.inl ⟨_, _, rfl⟩

theorem blHandleCommit_cases (c : Ctl) (g : BlOtaCtx) (payload : Bytes) (m : OtaMetadata) :
    (∃ seq err, blHandleCommit c g payload m = answer c g (.nack seq err)) ∨
    (g.active = true ∧ 2 ≤ payload.length ∧ read16 payload 0 = g.expectedSeq ∧
      ∃ c' ok, blMetadataCommit c (commitNext g m) = (c', ok) ∧
        blHandleCommit c g payload m =
          ⟨c', g, some (if ok then .ack (read16 payload 0)
            else .nack (read16 payload 0) blErrMetaCommit), some (commitNext g m), ok⟩) := by
  unfold blHandleCommit
  by_cases h₀ : ¬ g.active ∨ payload.length < 2
  · rw [if_pos h₀]
    exact Or.inl ⟨_, _, rfl⟩
  rw [if_neg h₀]
  push Not at h₀
  dsimp only
  by_cases h₁ : read16 payload 0 ≠ g.expectedSeq
  · rw [if_pos h₁]
    exact Or.inl ⟨_, _, rfl⟩
  rw [if_neg h₁]
  push Not at h₁
  refine Or.inr ⟨h₀.1, h₀.2, h₁, ?_⟩
  rcases hc : blMetadataCommit c (commitNext g m) with ⟨c', _ | _⟩
  · exact ⟨c', false, rfl, rfl⟩
  · exact ⟨c', true, rfl, rfl⟩

theorem blHandleCommit_next {c : Ctl} {g : BlOtaCtx} {payload : Bytes} (m : OtaMetadata)
    (ha : g.active = true) (hl : 2 ≤ payload.length) (hs : read16 payload 0 = g.expectedSeq) :
    blHandleCommit c g payload m =
      match blMetadataCommit c (commitNext g m) with
      | (c', false) => ⟨c', g, some (.nack (read16 payload 0) blErrMetaCommit),
        some (commitNext g m), false⟩
      | (c', true) => ⟨c', g, some (.ack (read16 payload 0)), some (commitNext g m), true⟩ := by
  have hopen : ¬ (¬ g.active = true ∨ payload.length < 2) := by
    rw [ha]
    simp only [not_true_eq_false, false_or]
    omega
  unfold blHandleCommit
  rw [if_neg hopen]
  dsimp only
  rw [if_neg (not_not.mpr hs)]

theorem commitNext_tagged {g : BlOtaCtx} {m : OtaMetadata} (h : WellTagged m) :
    WellTagged (commitNext g m) := by
  unfold commitNext
  split_ifs <;> exact h

@[simp] theorem commitNext_pending (g : BlOtaCtx) (m : OtaMetadata) :
    (commitNext g m).pendingSlot = commitSlot g := by
  unfold commitNext
  split_ifs <;> rfl

@[simp] theorem commitNext_seq (g : BlOtaCtx) (m : OtaMetadata) :
    (commitNext g m).metaSeq = m.metaSeq + 1 := by
  unfold commitNext
  split_ifs <;> rfl

theorem commitSlot_cases (g : BlOtaCtx) : commitSlot g = blSlotA ∨ commitSlot g = blSlotB := by
  unfold commitSlot
  split_ifs
  · exact Or.inr rfl
  · exact Or.inl rfl

/-- The slot made pending is the one the session writes to. -/
theorem commitSlot_base {g : BlOtaCtx} (h : g.targetBase = blAppABase ∨ g.targetBase = blAppBBase) :
    blSlotBase (commitSlot g) = g.targetBase := by
  unfold commitSlot
  rcases h with h | h
  · rw [h]
    rfl
  · rw [h]
    rfl

theorem commitNext_size (g : BlOtaCtx) (m : OtaMetadata) :
    blSlotImageSize (commitNext g m) (commitSlot g) = g.imageSize := by
  unfold commitNext blSlotImageSize
  rcases commitSlot_cases g with h | h <;> rw [h] <;> rfl

theorem commitNext_crc (g : BlOtaCtx) (m : OtaMetadata) :
    blSlotCrc (commitNext g m) (commitSlot g) = g.imageCrc32 := by
  unfold commitNext blSlotCrc
  rcases commitSlot_cases g with h | h <;> rw [h] <;> rfl

def prepareFrame (seq : UInt16) (size crc : UInt32) (chunk : UInt16) : Frame :=
  ⟨blDnOtaPrepare, bytes16 seq ++ bytes32 size ++ bytes32 crc ++ bytes16 chunk, by simp⟩

def dataFrame (seq : UInt16) (offset : UInt32) (chunk : Bytes) (h : chunk.length ≤ 246) : Frame :=
  ⟨blDnOtaData,
    bytes16 seq ++ bytes32 offset ++ bytes16 (UInt16.ofNat chunk.length) ++ chunk, by simp; omega⟩

def verifyFrame (seq : UInt16) (crc : UInt32) : Frame :=
  ⟨blDnOtaVerify, bytes16 seq ++ bytes32 crc, by simp⟩

def commitFrame (seq : UInt16) : Frame := ⟨blDnOtaCommit, bytes16 seq, by simp⟩

/-- The session that such a request opens. -/
theorem prepareCtx_frame (seq : UInt16) (size crc : UInt32) (chunk : UInt16) (base : UInt32) :
    prepareCtx (prepareFrame seq size crc chunk).payload base =
      ⟨true, seq + 1, base, size, crc, chunk, 0, 0⟩ := by
  let payload := (prepareFrame seq size crc chunk).payload
  have hp : payload = bytes16 seq ++ (bytes32 size ++ (bytes32 crc ++ (bytes16 chunk ++ []))) := by
    simp only [payload, prepareFrame, List.append_assoc, List.append_nil]
  have hseq : read16 payload 0 = seq := by rw [hp, read16_head]
  have hsize : read32 payload 2 = size := by
    rw [hp]
    simp only [read32_skip16, read32_head]
  have hcrc : read32 payload 6 = crc := by
    rw [hp]
    simp only [read32_skip16, read32_skip32, read32_head]
  have hchunk : read16 payload 10 = chunk := by
    rw [hp]
    simp only [read16_skip16, read16_skip32, read16_head]
  change BlOtaCtx.mk true (read16 payload 0 + 1) base (read32 payload 2) (read32 payload 6)
    (read16 payload 10) (if payload.length ≥ 20 then read32 payload 16 else 0) 0 = _
  have hshort : ¬ payload.length ≥ 20 := by
    rw [hp]
    simp
  rw [hseq, hsize, hcrc, hchunk, if_neg hshort]

section DataFrame

variable {c : Ctl} {g : BlOtaCtx} {chunk : Bytes}

/-- A chunk that fits the window is written at the next offset. -/
theorem data_next (m : OtaMetadata) (h : chunk.length ≤ 246) (ha : g.active = true)
    (hc : UInt16.ofNat chunk.length ≤ g.chunkSize)
    (hw : g.writeOffset + (UInt16.ofNat chunk.length).toUInt32 ≤ g.imageSize) :
    blOtaLoopFrame c g m (dataFrame g.expectedSeq g.writeOffset chunk h) =
      match blFlashWrite c (g.targetBase + g.writeOffset).toNat chunk with
      | (c', false) => answer c' g (.nack g.expectedSeq blErrWriteFailed)
      | (c', true) => answer c' { g with
          writeOffset := g.writeOffset + (UInt16.ofNat chunk.length).toUInt32
          expectedSeq := g.expectedSeq + 1 } (.ack g.expectedSeq) := by
  let payload := (dataFrame g.expectedSeq g.writeOffset chunk h).payload
  have hp : payload = bytes16 g.expectedSeq ++ (bytes32 g.writeOffset ++
      (bytes16 (UInt16.ofNat chunk.length) ++ chunk)) := by
    simp only [payload, dataFrame, List.append_assoc]
  have hseq : read16 payload 0 = g.expectedSeq := by rw [hp, read16_head]
  have hoff : read32 payload 2 = g.writeOffset := by
    rw [hp]
    simp only [read32_skip16, read32_head]
  have hlen : read16 payload 6 = UInt16.ofNat chunk.length := by
    rw [hp]
    simp only [read16_skip16, read16_skip32, read16_head]
  have hdrop : payload.drop 8 = chunk := by
    rw [hp, ← List.append_assoc, ← List.append_assoc]
    exact List.drop_left' (by simp)
  have hn : (UInt16.ofNat chunk.length).toNat = payload.length - 8 := by
    rw [UInt16.toNat_ofNat', hp]
    simp
    omega
  have h8 : 8 ≤ payload.length := by
    rw [hp]
    simp
    omega
  have hnext := @blHandleData_next c g payload ha h8 hseq (hlen ▸ hn) (hlen ▸ hc) hoff (hlen ▸ hw)
  rw [hseq, hlen, hdrop] at hnext
  exact hnext

end DataFrame

end EdgeLink.Bootloader
