import EdgeLink.VerifyBoot

namespace EdgeLink.Bootloader
open LittleEndian Nor Machine

variable {c : Ctl} {g : BlOtaCtx} {m : OtaMetadata} {f : Frame} {fl : Mem} {final : Bool}
  {life : Option ℕ} {payload : Bytes} {seq err : UInt16}

/-- The codes of a flash operation that failed. -/
def flashErrors : List UInt16 := [blErrEraseFailed, blErrWriteFailed, blErrMetaCommit]

/-- The request asks for the size, CRC, chunk size and version that the context holds already. -/
def SameRequest (g : BlOtaCtx) (payload : Bytes) : Prop :=
  read32 payload 2 = g.imageSize ∧ read32 payload 6 = g.imageCrc32 ∧
    read16 payload 10 = g.chunkSize ∧
    (if payload.length ≥ 20 then read32 payload 16 else 0) = g.imageVersion

theorem prepareFields_eq_iff : prepareFields g payload = g ↔ SameRequest g payload := by
  unfold prepareFields SameRequest
  constructor
  · intro h
    exact ⟨congrArg BlOtaCtx.imageSize h, congrArg BlOtaCtx.imageCrc32 h,
      congrArg BlOtaCtx.chunkSize h, congrArg BlOtaCtx.imageVersion h⟩
  · rintro ⟨hsize, hcrc, hchunk, hversion⟩
    rw [hsize, hcrc, hchunk, hversion]

/-- The context behind a refusal: a PREPARE has stored its fields before it was looked at. -/
def refusedCtx (g : BlOtaCtx) (f : Frame) : BlOtaCtx :=
  if f.type = blDnOtaPrepare ∧ 12 ≤ f.payload.length then prepareFields g f.payload else g

theorem refusal_cases (hreply : (blOtaLoopFrame c g m f).reply = some (.nack seq err))
    (hcode : err ∉ flashErrors) :
    blOtaLoopFrame c g m f = answer c (refusedCtx g f) (.nack seq err) := by
  have hanswer {g' : BlOtaCtx} {r : Reply} (h : blOtaLoopFrame c g m f = answer c g' r)
      (hg : refusedCtx g f = g') :
      blOtaLoopFrame c g m f = answer c (refusedCtx g f) (.nack seq err) := by
    rw [h, answer_reply] at hreply
    rw [h, hg, Option.some.inj hreply]
  have hother (hf : f.type ≠ blDnOtaPrepare) : refusedCtx g f = g := if_neg fun h => hf h.1
  -- past its checks a handler refuses only with an error of the flash
  by_cases hprepare : f.type = blDnOtaPrepare
  · have hhandler : blOtaLoopFrame c g m f = blHandlePrepare c g f.payload m := if_pos hprepare
    rcases blHandlePrepare_cases c g f.payload m with ⟨hl, h⟩ | ⟨hl, e, -, h⟩ | ⟨-, -, c', ok, -, h⟩
    · exact hanswer (hhandler.trans h) (if_neg fun h' => absurd h'.2 (by omega))
    · exact hanswer (hhandler.trans h) (if_pos ⟨hprepare, hl⟩)
    · rw [hhandler, h] at hreply
      cases ok with
      | true => cases hreply
      | false =>
        obtain ⟨-, rfl⟩ := Reply.nack.inj (Option.some.inj hreply)
        exact absurd (by decide) hcode
  by_cases hdata : f.type = blDnOtaData
  · have hhandler : blOtaLoopFrame c g m f = blHandleData c g f.payload :=
      (if_neg hprepare).trans (if_pos hdata)
    rcases blHandleData_cases c g f.payload with ⟨r, h, -⟩ | ⟨-, -, -, -, -, -, -, c', ok, -, h⟩
    · exact hanswer (hhandler.trans h) (hother hprepare)
    · rw [hhandler, h] at hreply
      cases ok with
      | true => cases hreply
      | false =>
        obtain ⟨-, rfl⟩ := Reply.nack.inj (Option.some.inj hreply)
        exact absurd (by decide) hcode
  by_cases hverify : f.type = blDnOtaVerify
  · have hhandler : blOtaLoopFrame c g m f = blHandleVerify c g f.payload :=
      (if_neg hprepare).trans ((if_neg hdata).trans (if_pos hverify))
    rcases blHandleVerify_cases c g f.payload with ⟨s, e, h⟩ | ⟨-, -, -, -, -, -, -, h⟩
    · exact hanswer (hhandler.trans h) (hother hprepare)
    · rw [hhandler, h] at hreply
      cases hreply
  by_cases hcommit : f.type = blDnOtaCommit
  · rw [loopFrame_commit hcommit] at hreply
    rcases blHandleCommit_cases c g f.payload m with ⟨s, e, h⟩ | ⟨-, -, -, c', ok, -, h⟩
    · exact hanswer ((loopFrame_commit hcommit).trans h) (hother hprepare)
    · rw [h] at hreply
      cases ok with
      | true => cases hreply
      | false =>
        obtain ⟨-, rfl⟩ := Reply.nack.inj (Option.some.inj hreply)
        exact absurd (by decide) hcode
  · unfold blOtaLoopFrame at hreply
    rw [if_neg hprepare, if_neg hdata, if_neg hverify, if_neg hcommit] at hreply
    split_ifs at hreply <;> cases hreply

/-- A frame refused for another reason than the flash leaves the board as it was, exactly unless it
is a PREPARE that asks for something else than the context holds. -/
theorem refused_unchanged_iff
    (hreply : (step ⟨fl, .loop g m final⟩ (.frame f life)).2.reply = some (.nack seq err))
    (hcode : err ∉ flashErrors) :
    (step ⟨fl, .loop g m final⟩ (.frame f life)).1 = ⟨fl, .loop g m final⟩ ↔
      (f.type = blDnOtaPrepare → 12 ≤ f.payload.length → SameRequest g f.payload) := by
  have hrefused := refusal_cases (c := Ctl.start fl (frameLife f life)) hreply hcode
  have hstep : (step ⟨fl, .loop g m final⟩ (.frame f life)).1 =
      ⟨fl, .loop (refusedCtx g f) m final⟩ := by
    change (receive fl g m final f life).1 = _
    unfold receive
    rw [hrefused]
    rfl
  rw [hstep]
  unfold refusedCtx
  by_cases hstores : f.type = blDnOtaPrepare ∧ 12 ≤ f.payload.length
  · rw [if_pos hstores]
    constructor
    · intro h _ _
      obtain ⟨hg, -, -⟩ := Mode.loop.inj (Device.mk.inj h).2
      exact prepareFields_eq_iff.mp hg
    · intro h
      rw [prepareFields_eq_iff.mpr (h hstores.1 hstores.2)]
  · rw [if_neg hstores]
    exact iff_of_true rfl fun hprepare hl => absurd ⟨hprepare, hl⟩ hstores

theorem refused_chunk_unchanged :
    (step ⟨highStackFlash, .loop (highStackCtx 3 8) blMetadataDefault false⟩
      (.frame (dataFrame 9 0 highStack (by decide)) none)).1 =
        ⟨highStackFlash, .loop (highStackCtx 3 8) blMetadataDefault false⟩ ↔
      (blDnOtaData = blDnOtaPrepare → 12 ≤ (dataFrame 9 0 highStack (by decide)).payload.length →
        SameRequest (highStackCtx 3 8) (dataFrame 9 0 highStack (by decide)).payload) :=
  refused_unchanged_iff
    (show (step ⟨highStackFlash, .loop (highStackCtx 3 8) blMetadataDefault false⟩
      (.frame (dataFrame 9 0 highStack (by decide)) none)).2.reply =
        some (.nack 9 blErrBadOffset) from rfl) (by decide)

/-- A request without an image, in the middle of a session. -/
def emptyRequest : Frame := prepareFrame 9 0 0 8

theorem emptyRequest_stored : ¬∀ (fl₀ fl : Mem) (es : List Event) (g : BlOtaCtx) (m : OtaMetadata)
    (final : Bool) (f : Frame) (life : Option ℕ) (seq err : UInt16),
    run step ⟨fl₀, .off⟩ es = ⟨fl, .loop g m final⟩ →
    (step ⟨fl, .loop g m final⟩ (.frame f life)).2.reply = some (.nack seq err) →
    err ∉ flashErrors →
    (step ⟨fl, .loop g m final⟩ (.frame f life)).1 = ⟨fl, .loop g m final⟩ := by
  intro h
  have hsame := h _ _ highStackStart (highStackCtx 3 8) blMetadataDefault false emptyRequest none 9
    blErrBadPayload highStack_received rfl (by decide)
  have hstored : (step ⟨highStackFlash, .loop (highStackCtx 3 8) blMetadataDefault false⟩
      (.frame emptyRequest none)).1 =
      ⟨highStackFlash, .loop (prepareFields (highStackCtx 3 8) emptyRequest.payload)
        blMetadataDefault false⟩ := rfl
  rw [hstored] at hsame
  obtain ⟨hctx, -, -⟩ := Mode.loop.inj (Device.mk.inj hsame).2
  exact absurd (congrArg BlOtaCtx.imageSize hctx) (by decide)

/-- The second delivery is no VERIFY, and the flash does the three erases that a PREPARE asks for. -/
def Repeatable (f : Frame) (life : Option ℕ) : Prop :=
  f.type ≠ blDnOtaVerify ∧ (f.type = blDnOtaPrepare → ∀ n, life = some n → 3 ≤ n)

theorem prepare_acked (h : (blHandlePrepare c g payload m).reply = some (.ack seq)) :
    12 ≤ payload.length ∧
      prepareError m (prepareFields g payload) (prepareTarget m payload) = none ∧
      (blFlashEraseSlot c (prepareTarget m payload)).2 = true ∧
      blHandlePrepare c g payload m = answer (blFlashEraseSlot c (prepareTarget m payload)).1
        (prepareCtx payload (prepareTarget m payload)) (.ack (read16 payload 0)) := by
  rcases blHandlePrepare_cases c g payload m with ⟨-, hr⟩ | ⟨-, e, -, hr⟩ | ⟨hl, he, c', ok, hf, hr⟩
  · rw [hr] at h
    cases h
  · rw [hr] at h
    cases h
  · cases ok with
    | false =>
      rw [hr] at h
      cases h
    | true =>
      rw [hf]
      exact ⟨hl, he, rfl, hr⟩

/-- The slot is erased once more, and the session opened once more. -/
theorem prepare_again (h : (blHandlePrepare c g payload m).reply = some (.ack seq)) {c₂ : Ctl}
    (hmem : c₂.mem = (blHandlePrepare c g payload m).ctl.mem) :
    let r := blHandlePrepare c g payload m
    let r₂ := blHandlePrepare c₂ r.ctx payload m
    (r₂.reply = some (.ack seq) ∧ r₂.ctl.mem = r.ctl.mem ∧ r₂.ctx = r.ctx) ↔
      ∀ n, c₂.life = some n → 3 ≤ n := by
  obtain ⟨hl, he, hok, hr⟩ := prepare_acked h
  have hseq : seq = read16 payload 0 := by
    rw [hr] at h
    exact (Reply.ack.inj (Option.some.inj h)).symm
  have hslot := blFlashEraseSlot_slot hok
  intro r r₂
  rw [hr] at hmem
  have hagain := eraseSlot_again hok hmem
  have hlife := eraseSlot_life (c := c₂) hslot
  have hr₂ : r₂ = blHandlePrepare c₂ (prepareCtx payload (prepareTarget m payload)) payload m := by
    simp only [r₂, r, hr]
    rfl
  rw [hr₂]
  rcases blHandlePrepare_cases c₂ (prepareCtx payload (prepareTarget m payload)) payload m with
    ⟨hs, -⟩ | ⟨-, e, hs, -⟩ | ⟨-, -, c', ok, hf, hs⟩
  · omega
  · have hsame : prepareError m (prepareFields (prepareCtx payload (prepareTarget m payload)) payload)
        (prepareTarget m payload) = none := he
    rw [hsame] at hs
    cases hs
  · rw [hf] at hagain hlife
    rw [hs, ← hlife]
    cases ok with
    | false => exact iff_of_false (fun hack => by cases hack.1) Bool.false_ne_true
    | true =>
      refine iff_of_true ⟨?_, ?_, ?_⟩ rfl
      · rw [hseq]
        rfl
      · simp only [r, hr]
        exact hagain.trans hmem
      · simp only [r, hr]
        rfl

/-- The frame is taken for a repetition of the last one. -/
structure Repeats (g : BlOtaCtx) (payload : Bytes) : Prop where
  active : g.active = true
  length : 8 ≤ payload.length
  seq : read16 payload 0 = g.expectedSeq - 1
  chunk : (read16 payload 6).toNat = payload.length - 8
  offset : read32 payload 2 + (read16 payload 6).toUInt32 = g.writeOffset

theorem Repeats.acked (h : Repeats g payload) (c : Ctl) :
    blHandleData c g payload = answer c g (.ack (read16 payload 0)) := by
  have hopen : ¬ (¬ g.active = true ∨ payload.length < 8) :=
    not_or.mpr ⟨not_not.mpr h.active, not_lt.mpr h.length⟩
  unfold blHandleData
  rw [if_neg hopen]
  exact if_pos ⟨h.seq, h.chunk, h.offset⟩

/-- A DATA frame is acknowledged as a repetition, or because its chunk was stored. -/
theorem data_acked (h : (blHandleData c g payload).reply = some (.ack seq)) :
    seq = read16 payload 0 ∧
      (Repeats g payload ∨
        (g.active = true ∧ 8 ≤ payload.length ∧ read16 payload 0 = g.expectedSeq ∧
          (read16 payload 6).toNat = payload.length - 8 ∧ read32 payload 2 = g.writeOffset ∧
          (blFlashWrite c (g.targetBase + g.writeOffset).toNat (payload.drop 8)).2 = true ∧
          blHandleData c g payload =
            answer (blFlashWrite c (g.targetBase + g.writeOffset).toNat (payload.drop 8)).1 { g with
              writeOffset := g.writeOffset + (read16 payload 6).toUInt32
              expectedSeq := g.expectedSeq + 1 } (.ack (read16 payload 0)))) := by
  by_cases hrepeats : Repeats g payload
  · rw [hrepeats.acked] at h
    exact ⟨(Reply.ack.inj (Option.some.inj h)).symm, Or.inl hrepeats⟩
  rcases blHandleData_cases c g payload with
    ⟨r, hr, hack⟩ | ⟨ha, hl, hseq, hn, -, hoff, -, c', ok, hw, hr⟩
  · rw [hr] at h
    obtain ⟨ha, hl, hseq, hprev⟩ := hack seq (Option.some.inj h)
    have hopen : ¬ (¬ g.active = true ∨ payload.length < 8) :=
      not_or.mpr ⟨not_not.mpr ha, not_lt.mpr hl⟩
    -- an ACK for the number before that is no repetition: the handler would have refused it
    have hnext : read16 payload 0 ≠ g.expectedSeq := by
      rw [← hseq, hprev]
      exact seq_ne_pred g.expectedSeq
    have hrefused : blHandleData c g payload = answer c g (.nack (read16 payload 0) blErrBadOffset) := by
      unfold blHandleData
      rw [if_neg hopen]
      dsimp only
      rw [if_neg fun hdup => hrepeats ⟨ha, hl, hdup.1, hdup.2.1, hdup.2.2⟩, if_pos hnext]
    have hreply := congrArg Handled.reply (hr.symm.trans hrefused)
    cases h
    cases hreply
  · cases ok with
    | false =>
      rw [hr] at h
      cases h
    | true =>
      rw [hr] at h
      refine ⟨(Reply.ack.inj (Option.some.inj h)).symm, Or.inr ⟨ha, hl, hseq, hn, hoff, ?_, ?_⟩⟩
      · rw [hw]
      · rw [hw]
        exact hr

/-- A chunk that was stored, and one that was taken for a repetition, is taken for one again. -/
theorem data_again (h : (blHandleData c g payload).reply = some (.ack seq)) (c₂ : Ctl) :
    blHandleData c₂ (blHandleData c g payload).ctx payload =
      answer c₂ (blHandleData c g payload).ctx (.ack seq) := by
  obtain ⟨rfl, hrepeats | ⟨ha, hl, hseq, hn, hoff, -, hr⟩⟩ := data_acked h
  · rw [hrepeats.acked c, answer_ctx]
    exact hrepeats.acked c₂
  · rw [hr, answer_ctx]
    have hrepeats : Repeats { g with
        writeOffset := g.writeOffset + (read16 payload 6).toUInt32
        expectedSeq := g.expectedSeq + 1 } payload := by
      refine ⟨ha, hl, ?_, hn, ?_⟩
      · rw [hseq]
        exact (UInt16.add_sub_cancel g.expectedSeq 1).symm
      · rw [hoff]
    exact hrepeats.acked c₂

theorem verify_acked (h : (blHandleVerify c g payload).reply = some (.ack seq)) :
    read16 payload 0 = g.expectedSeq ∧ blHandleVerify c g payload =
      answer c { g with expectedSeq := g.expectedSeq + 1 } (.ack (read16 payload 0)) := by
  rcases blHandleVerify_cases c g payload with ⟨s, e, hr⟩ | ⟨-, -, hseq, -, -, -, -, hr⟩
  · rw [hr] at h
    cases h
  · exact ⟨hseq, hr⟩

/-- A VERIFY that was acknowledged is not the next frame any more. -/
theorem verify_again (h : (blHandleVerify c g payload).reply = some (.ack seq)) (c₂ : Ctl) :
    (blHandleVerify c₂ (blHandleVerify c g payload).ctx payload).reply ≠ some (.ack seq) := by
  obtain ⟨hseq, hr⟩ := verify_acked h
  rw [hr, answer_ctx]
  intro hagain
  obtain ⟨hseq₂, -⟩ := verify_acked hagain
  have hpred := seq_ne_pred (g.expectedSeq + 1)
  rw [UInt16.add_sub_cancel] at hpred
  exact hpred (hseq.symm.trans hseq₂)

/-- Only a COMMIT resets the board. -/
theorem frame_stays (hf : f.type ≠ blDnOtaCommit) : (blOtaLoopFrame c g m f).reset = false := by
  unfold blOtaLoopFrame
  split_ifs
  · rcases blHandlePrepare_cases c g f.payload m with
      ⟨-, hr⟩ | ⟨-, e, -, hr⟩ | ⟨-, -, c', ok, -, hr⟩
    · rw [hr, answer_reset]
    · rw [hr, answer_reset]
    · rw [hr]
      cases ok <;> rfl
  · rcases blHandleData_cases c g f.payload with ⟨r, hr, -⟩ | ⟨-, -, -, -, -, -, -, c', ok, -, hr⟩
    · rw [hr, answer_reset]
    · rw [hr]
      cases ok <;> rfl
  · rcases blHandleVerify_cases c g f.payload with ⟨s, e, hr⟩ | ⟨-, -, -, -, -, -, -, hr⟩
    · rw [hr, answer_reset]
    · rw [hr, answer_reset]
  all_goals rfl

theorem step_handled (fl : Mem) (g : BlOtaCtx) (m : OtaMetadata) (final : Bool) (life : Option ℕ)
    (hf : f.type ≠ blDnOtaCommit) :
    let r := blOtaLoopFrame (Ctl.start fl life) g m f
    (step ⟨fl, .loop g m final⟩ (.frame f life)).1 = ⟨r.ctl.mem, .loop r.ctx m final⟩ ∧
      (step ⟨fl, .loop g m final⟩ (.frame f life)).2.reply = r.reply := by
  have hlife : frameLife f life = life := if_neg hf
  have hstays := frame_stays (c := Ctl.start fl life) (g := g) (m := m) hf
  change (receive fl g m final f life).1 = _ ∧ (receive fl g m final f life).2.reply = _
  unfold receive
  dsimp only
  rw [hlife, hstays, if_neg Bool.false_ne_true]
  exact ⟨rfl, rfl⟩

theorem loop_eq_iff {fl' : Mem} {g' : BlOtaCtx} :
    (⟨fl', .loop g' m final⟩ : Device) = ⟨fl, .loop g m final⟩ ↔ fl' = fl ∧ g' = g := by
  constructor
  · intro h
    obtain ⟨hfl, hmode⟩ := Device.mk.inj h
    exact ⟨hfl, (Mode.loop.inj hmode).1⟩
  · rintro ⟨rfl, rfl⟩
    rfl

/-- What the handler of the frame does with it a second time. -/
theorem frame_again (htype : f.type = blDnOtaPrepare ∨ f.type = blDnOtaData ∨ f.type = blDnOtaVerify)
    (hack : (blOtaLoopFrame c g m f).reply = some (.ack seq)) {c₂ : Ctl}
    (hmem : c₂.mem = (blOtaLoopFrame c g m f).ctl.mem) :
    let r := blOtaLoopFrame c g m f
    let r₂ := blOtaLoopFrame c₂ r.ctx m f
    (r₂.reply = some (.ack seq) ∧ r₂.ctl.mem = r.ctl.mem ∧ r₂.ctx = r.ctx) ↔
      Repeatable f c₂.life := by
  unfold Repeatable
  rcases htype with htype | htype | htype
  · have hhandler : ∀ c g, blOtaLoopFrame c g m f = blHandlePrepare c g f.payload m :=
      fun c g => if_pos htype
    have hnotverify : f.type ≠ blDnOtaVerify := by
      rw [htype]
      decide
    rw [hhandler] at hack hmem
    simp only [hhandler]
    refine (prepare_again hack hmem).trans ?_
    exact ⟨fun h => ⟨hnotverify, fun _ => h⟩, fun h => h.2 htype⟩
  · have hnot : f.type ≠ blDnOtaPrepare ∧ f.type ≠ blDnOtaVerify := by
      rw [htype]
      decide
    have hhandler : ∀ c g, blOtaLoopFrame c g m f = blHandleData c g f.payload :=
      fun c g => (if_neg hnot.1).trans (if_pos htype)
    rw [hhandler] at hack hmem
    simp only [hhandler]
    rw [data_again hack c₂]
    exact iff_of_true ⟨rfl, hmem, rfl⟩ ⟨hnot.2, fun h => absurd h hnot.1⟩
  · have hnot : f.type ≠ blDnOtaPrepare ∧ f.type ≠ blDnOtaData := by
      rw [htype]
      decide
    have hhandler : ∀ c g, blOtaLoopFrame c g m f = blHandleVerify c g f.payload :=
      fun c g => (if_neg hnot.1).trans ((if_neg hnot.2).trans (if_pos htype))
    rw [hhandler] at hack
    simp only [hhandler]
    exact iff_of_false (fun h => verify_again hack c₂ h.1) fun h => h.1 htype

/-- A frame that was acknowledged is acknowledged again and changes nothing more, exactly unless it
is a VERIFY or the flash fails in the erase of a PREPARE. -/
theorem repeated_iff {life₂ : Option ℕ}
    (htype : f.type = blDnOtaPrepare ∨ f.type = blDnOtaData ∨ f.type = blDnOtaVerify)
    (hack : (step ⟨fl, .loop g m final⟩ (.frame f life)).2.reply = some (.ack seq)) :
    let d := (step ⟨fl, .loop g m final⟩ (.frame f life)).1
    ((step d (.frame f life₂)).2.reply = some (.ack seq) ∧ (step d (.frame f life₂)).1 = d) ↔
      Repeatable f life₂ := by
  have hnocommit : f.type ≠ blDnOtaCommit := by
    rcases htype with h | h | h <;> rw [h] <;> decide
  intro d
  obtain ⟨hfirst, hreply⟩ := step_handled fl g m final life hnocommit
  rw [hreply] at hack
  let r := blOtaLoopFrame (Ctl.start fl life) g m f
  have hd : d = ⟨r.ctl.mem, .loop r.ctx m final⟩ := hfirst
  obtain ⟨hsecond, hreply₂⟩ := step_handled r.ctl.mem r.ctx m final life₂ hnocommit
  rw [hd, hreply₂, hsecond, loop_eq_iff]
  exact frame_again htype hack rfl

/-- The first chunk, sent twice. -/
theorem repeated_chunk :
    let d := (step ⟨recordFlash blMetadataDefault, .loop (highStackCtx 3 8) blMetadataDefault false⟩
      (.frame (dataFrame 2 0 highStack (by decide)) none)).1
    ((step d (.frame (dataFrame 2 0 highStack (by decide)) none)).2.reply = some (.ack 2) ∧
      (step d (.frame (dataFrame 2 0 highStack (by decide)) none)).1 = d) ↔
        Repeatable (dataFrame 2 0 highStack (by decide)) none :=
  repeated_iff (Or.inr (Or.inl rfl)) rfl

theorem verify_not_repeated : ¬∀ (fl₀ fl : Mem) (es : List Event) (g : BlOtaCtx) (m : OtaMetadata)
    (final : Bool) (f : Frame) (seq : UInt16), run step ⟨fl₀, .off⟩ es = ⟨fl, .loop g m final⟩ →
    f.type = blDnOtaPrepare ∨ f.type = blDnOtaData ∨ f.type = blDnOtaVerify →
    (step ⟨fl, .loop g m final⟩ (.frame f none)).2.reply = some (.ack seq) →
    (step (step ⟨fl, .loop g m final⟩ (.frame f none)).1 (.frame f none)).2.reply =
      some (.ack seq) := by
  intro h
  have hagain := h _ _ highStackStart (highStackCtx 3 8) blMetadataDefault false
    (verifyFrame 3 highStackCrc) 3 highStack_received (Or.inr (Or.inr rfl)) highStack_verified.2
  rw [highStack_verified.1] at hagain
  have hrefused : (step ⟨highStackFlash, .loop (highStackCtx 4 8) blMetadataDefault false⟩
      (.frame (verifyFrame 3 highStackCrc) none)).2.reply = some (.nack 3 blErrBadPayload) := rfl
  rw [hrefused] at hagain
  cases hagain

end EdgeLink.Bootloader
