import EdgeLink.OtaDevice

namespace EdgeLink.Bootloader
open LittleEndian Nor

/-- The session writes to a slot and has not run off the end of the flash. -/
structure Anchored (g : BlOtaCtx) : Prop where
  slot : g.targetBase = blAppABase ∨ g.targetBase = blAppBBase
  inside : g.targetBase.toNat + g.writeOffset.toNat ≤ flashHi

theorem Anchored.base {g : BlOtaCtx} (h : Anchored g) :
    blMetadataBase.toNat + blMetadataSize ≤ g.targetBase.toNat := by
  rcases h.slot with hs | hs <;> rw [hs] <;> decide

/-- What a frame other than COMMIT does to the rest of the board: nothing. -/
structure Quiet (c : Ctl) (h : Handled) : Prop where
  frame : ∀ x, x < blMetadataBase.toNat + blMetadataSize → h.ctl.mem x = c.mem x
  session : h.ctx.active = true → Anchored h.ctx
  uncommitted : h.committed = none
  stays : h.reset = false

theorem quiet_answer {g : BlOtaCtx} (c : Ctl) (r : Reply) (hg : g.active = true → Anchored g) :
    Quiet c (answer c g r) := ⟨fun _ _ => rfl, hg, rfl, rfl⟩

variable {c : Ctl} {g : BlOtaCtx} {m : OtaMetadata} {payload : Bytes}

theorem eraseSlot_above {t : UInt32} (ht : t = blAppABase ∨ t = blAppBBase) {x : ℕ}
    (hx : x < blMetadataBase.toNat + blMetadataSize) :
    (blFlashEraseSlot c t).1.mem x = c.mem x := by
  have hb : blMetadataBase.toNat + blMetadataSize ≤ t.toNat := by
    rcases ht with rfl | rfl <;> decide
  exact (blFlashEraseSlot_touches c t).frame x (Or.inl (by omega))

theorem prepare_quiet (hg : g.active = true → Anchored g) :
    Quiet c (blHandlePrepare c g payload m) := by
  have hfields : (prepareFields g payload).active = true → Anchored (prepareFields g payload) :=
    fun ha => ⟨(hg ha).slot, (hg ha).inside⟩
  rcases blHandlePrepare_cases c g payload m with ⟨-, h⟩ | ⟨-, err, -, h⟩ | ⟨-, he, c', ok, hf, h⟩
  · rw [h]
    exact quiet_answer c _ hg
  · rw [h]
    exact quiet_answer c _ hfields
  · have ht := prepareTargetAllowed_slot (prepareError_none he).2.2.2.2.1
    have hframe := fun x hx => @eraseSlot_above c _ ht x hx
    rw [hf] at hframe
    rw [h]
    cases ok with
    | false => exact ⟨hframe, hfields, rfl, rfl⟩
    | true =>
      have hend : (prepareTarget m payload).toNat + 0 ≤ flashHi := by
        rcases ht with ht | ht <;> rw [ht] <;> decide
      exact ⟨hframe, fun _ => ⟨ht, hend⟩, rfl, rfl⟩

/-- Where the next chunk goes, and where the session stands after it. -/
theorem Anchored.address (h : Anchored g) :
    (g.targetBase + g.writeOffset).toNat = g.targetBase.toNat + g.writeOffset.toNat := by
  have hhi : flashHi = 0x08100000 := rfl
  have hin := h.inside
  rw [UInt32.toNat_add]
  exact Nat.mod_eq_of_lt (by omega)

theorem Anchored.advance {n : UInt16} (h : Anchored g)
    (hin : g.targetBase.toNat + g.writeOffset.toNat + n.toNat ≤ flashHi) :
    (g.writeOffset + n.toUInt32).toNat = g.writeOffset.toNat + n.toNat := by
  have hhi : flashHi = 0x08100000 := rfl
  have hb := h.base
  rw [UInt32.toNat_add, UInt16.toNat_toUInt32]
  exact Nat.mod_eq_of_lt (by omega)

theorem data_quiet (hg : g.active = true → Anchored g) : Quiet c (blHandleData c g payload) := by
  rcases blHandleData_cases c g payload with
    ⟨r, h, -⟩ | ⟨ha, -, -, hn, -, -, -, c', ok, hf, h⟩
  · rw [h]
    exact quiet_answer c r hg
  · have hs := hg ha
    have htouch := blFlashWrite_touches c (g.targetBase + g.writeOffset).toNat (payload.drop 8)
    have hwrote := @blFlashWrite_ok c (g.targetBase + g.writeOffset).toNat (payload.drop 8)
    rw [hf, hs.address] at htouch
    rw [hf, hs.address, List.length_drop] at hwrote
    have hframe : ∀ x, x < blMetadataBase.toNat + blMetadataSize → c'.mem x = c.mem x := by
      intro x hx
      have hb := hs.base
      exact htouch.frame x (Or.inl (by omega))
    rw [h]
    cases ok with
    | false => exact ⟨hframe, hg, rfl, rfl⟩
    | true =>
      obtain ⟨-, -, -, hend⟩ := hwrote rfl
      rw [← hn] at hend
      refine ⟨hframe, fun _ => ⟨hs.slot, ?_⟩, rfl, rfl⟩
      change g.targetBase.toNat + (g.writeOffset + (read16 payload 6).toUInt32).toNat ≤ flashHi
      rw [hs.advance hend]
      omega

theorem verify_quiet (hg : g.active = true → Anchored g) : Quiet c (blHandleVerify c g payload) := by
  rcases blHandleVerify_cases c g payload with ⟨seq, err, h⟩ | ⟨-, -, -, -, -, -, -, h⟩
  · rw [h]
    exact quiet_answer c _ hg
  · rw [h]
    exact quiet_answer c _ fun ha => ⟨(hg ha).slot, (hg ha).inside⟩

theorem frame_quiet {f : Frame} (hg : g.active = true → Anchored g) (hf : f.type ≠ blDnOtaCommit) :
    Quiet c (blOtaLoopFrame c g m f) := by
  have hr : blCtxReset.active = true → Anchored blCtxReset := fun ha => absurd ha (by decide)
  unfold blOtaLoopFrame
  split_ifs
  · exact prepare_quiet hg
  · exact data_quiet hg
  · exact verify_quiet hg
  · exact quiet_answer c _ hr
  · exact quiet_answer c _ hr
  · exact quiet_answer c _ hg
  · exact ⟨fun _ _ => rfl, hg, rfl, rfl⟩

theorem loopFrame_commit {f : Frame} (hf : f.type = blDnOtaCommit) :
    blOtaLoopFrame c g m f = blHandleCommit c g f.payload m := by
  unfold blOtaLoopFrame
  rw [hf]
  rfl

variable {fl : Mem} {slots : List Bytes} {f : Frame}

/-- A frame other than COMMIT leaves the journal alone. -/
theorem receive_quiet (final : Bool) (life : Option ℕ) (hg : g.active = true → Anchored g)
    (hf : f.type ≠ blDnOtaCommit) :
    ∃ fl' g', AgreeOn fl fl' blMetadataBase.toNat blMetadataSize ∧
      (g'.active = true → Anchored g') ∧
      (receive fl g m final f life).1 = ⟨fl', .loop g' m final⟩ ∧
      (receive fl g m final f life).2.written = [] ∧
      (receive fl g m final f life).2.boot = none := by
  have hq := @frame_quiet (Ctl.start fl (frameLife f life)) g m f hg hf
  refine ⟨_, _, fun x _ hx => (hq.frame x hx).symm, hq.session, ?_, ?_, rfl⟩
  · unfold receive
    dsimp only
    rw [hq.stays]
    rfl
  · unfold receive
    dsimp only
    rw [hq.stays]
    rfl

theorem frameLife_none (f : Frame) : frameLife f none = none := by
  unfold frameLife
  split_ifs <;> rfl

/-- A request for a slot that is erased already opens a session and changes nothing else. -/
theorem receive_prepare_blank (final : Bool) (hf : f.type = blDnOtaPrepare)
    (hl : 12 ≤ f.payload.length)
    (he : prepareError m (prepareFields g f.payload) (prepareTarget m f.payload) = none)
    (hb : Blank fl (prepareTarget m f.payload).toNat blAppASize.toNat) :
    (receive fl g m final f none).1 =
      ⟨fl, .loop (prepareCtx f.payload (prepareTarget m f.payload)) m final⟩ ∧
    (receive fl g m final f none).2.reply = some (.ack (read16 f.payload 0)) := by
  have hslot := prepareTargetAllowed_slot (prepareError_none he).2.2.2.2.1
  obtain ⟨hok, hmem⟩ := @blFlashEraseSlot_blank (Ctl.start fl none) _ rfl hslot hb
  rcases herase : blFlashEraseSlot (Ctl.start fl none) (prepareTarget m f.payload) with ⟨c', ok⟩
  rw [herase] at hok hmem
  obtain rfl : ok = true := hok
  have hlife : frameLife f none = none := frameLife_none f
  have hframe : blOtaLoopFrame (Ctl.start fl none) g m f =
      answer c' (prepareCtx f.payload (prepareTarget m f.payload)) (.ack (read16 f.payload 0)) := by
    unfold blOtaLoopFrame
    rw [if_pos hf]
    exact blHandlePrepare_ok g hl he herase
  unfold receive
  rw [hlife, hframe]
  dsimp only [answer]
  rw [hmem]
  exact ⟨rfl, rfl⟩

/-- A chunk for the next offset of an erased place is stored. -/
theorem receive_data_blank {chunk : Bytes} (final : Bool) (h : chunk.length ≤ 246) (hne : chunk ≠ [])
    (ha : g.active = true) (hc : UInt16.ofNat chunk.length ≤ g.chunkSize)
    (hw : g.writeOffset + (UInt16.ofNat chunk.length).toUInt32 ≤ g.imageSize)
    (hlo : flashLo ≤ (g.targetBase + g.writeOffset).toNat)
    (hhi : (g.targetBase + g.writeOffset).toNat + chunk.length ≤ flashHi)
    (hb : Blank fl (g.targetBase + g.writeOffset).toNat chunk.length) :
    let r := receive fl g m final (dataFrame g.expectedSeq g.writeOffset chunk h) none
    r.1 = ⟨program fl (g.targetBase + g.writeOffset).toNat chunk, .loop { g with
      writeOffset := g.writeOffset + (UInt16.ofNat chunk.length).toUInt32
      expectedSeq := g.expectedSeq + 1 } m final⟩ ∧ r.2.reply = some (.ack g.expectedSeq) := by
  obtain ⟨hmem, hok⟩ := @blFlashWrite_mem (Ctl.start fl none) _ chunk rfl hne hlo hhi
  rw [Ctl.start_mem] at hmem hok
  rw [program_blank hb, decide_eq_true rfl] at hok
  have hnext := @data_next (Ctl.start fl none) g chunk m h ha hc hw
  rcases hwr : blFlashWrite (Ctl.start fl none) (g.targetBase + g.writeOffset).toNat chunk with
    ⟨c', ok⟩
  rw [hwr] at hmem hok hnext
  obtain rfl : ok = true := hok
  dsimp only [receive]
  rw [frameLife_none, hnext]
  dsimp only [answer]
  rw [hmem]
  exact ⟨rfl, rfl⟩

/-- The VERIFY of a complete image with the right CRC and vector table. -/
theorem receive_verify {seq : UInt16} (final : Bool) (life : Option ℕ) (ha : g.active = true)
    (hseq : g.expectedSeq = seq) (hw : g.writeOffset = g.imageSize)
    (hcrc : blCrc32 (read fl g.targetBase.toNat g.imageSize.toNat) = g.imageCrc32)
    (hv : blVectorValidForSlot fl g.targetBase blAppASize = true) :
    let r := receive fl g m final (verifyFrame seq g.imageCrc32) life
    r.1 = ⟨fl, .loop { g with expectedSeq := g.expectedSeq + 1 } m final⟩ ∧
      r.2.reply = some (.ack seq) := by
  let payload := (verifyFrame seq g.imageCrc32).payload
  have hp : payload = bytes16 seq ++ (bytes32 g.imageCrc32 ++ []) := by
    simp only [payload, verifyFrame, List.append_nil]
  have hread : read16 payload 0 = seq := by rw [hp, read16_head]
  have hread' : read32 payload 2 = g.imageCrc32 := by
    rw [hp, read32_skip16]
    exact read32_head _ _
  have hframe : blOtaLoopFrame (Ctl.start fl life) g m (verifyFrame seq g.imageCrc32) =
      blHandleVerify (Ctl.start fl life) g payload := rfl
  have hok : blHandleVerify (Ctl.start fl life) g payload = answer (Ctl.start fl life)
      { g with expectedSeq := g.expectedSeq + 1 } (.ack seq) := by
    have hopen : ¬ (¬ g.active = true ∨ payload.length < 6) := by
      rw [ha, hp]
      simp
    unfold blHandleVerify
    rw [if_neg hopen]
    dsimp only
    rw [hread, hread', if_neg (by simp [hseq, hw]), Ctl.start_mem, if_neg (not_not.mpr hcrc),
      if_neg (not_not.mpr hv)]
  have hlife : frameLife (verifyFrame seq g.imageCrc32) life = life := rfl
  dsimp only [receive]
  rw [hlife, hframe, hok]
  exact ⟨rfl, rfl⟩

/-- The next COMMIT of an open session writes its record and resets the board. -/
theorem receive_commit_next {seq : UInt16} (final : Bool) (life : Option ℕ)
    (hs : MetaShaped fl slots) (hm : WellTagged m) (ha : g.active = true)
    (hseq : g.expectedSeq = seq) :
    receive fl g m final (commitFrame seq) life =
      (⟨(blMetadataCommit (Ctl.start fl none) (commitNext g m)).1.mem, .off⟩,
        ⟨[], [(blMetadataCommitWork (commitNext g m),
          (blMetadataCommit (Ctl.start fl none) (commitNext g m)).1.mem)], none,
          some (.ack seq)⟩) := by
  have hread : read16 (commitFrame seq).payload 0 = seq := read16_head seq []
  have hnext := @blHandleCommit_next (Ctl.start fl none) g (commitFrame seq).payload m ha
    le_rfl (hread.trans hseq.symm)
  have hok := (commit_spec hs (commitNext_tagged (g := g) hm)).1
  have hlife : frameLife (commitFrame seq) life = none := rfl
  have hnp : ¬ (blDnOtaCommit = blDnOtaPrepare ∨ blDnOtaCommit = blDnOtaData) := by decide
  dsimp only [receive]
  rw [hlife, loopFrame_commit rfl, hnext, hread]
  change (_, (⟨if blDnOtaCommit = blDnOtaPrepare ∨ blDnOtaCommit = blDnOtaData then _ else _,
    _, _, _⟩ : Output)) = _
  rw [if_neg hnp]
  rcases hc : blMetadataCommit (Ctl.start fl none) (commitNext g m) with ⟨c', ok⟩
  rw [hc] at hok
  obtain rfl : ok = true := hok
  rfl

/-- A COMMIT is refused, or it writes the next record and resets the board. -/
theorem receive_commit (final : Bool) (life : Option ℕ) (hs : MetaShaped fl slots)
    (hm : WellTagged m) (hf : f.type = blDnOtaCommit) :
    (∃ seq err, receive fl g m final f life =
      (⟨fl, .loop g m final⟩, ⟨[], [], none, some (.nack seq err)⟩)) ∨
    (g.active = true ∧ read16 f.payload 0 = g.expectedSeq ∧ ∃ fl',
      fl' = (blMetadataCommit (Ctl.start fl none) (commitNext g m)).1.mem ∧
      receive fl g m final f life = (⟨fl', .off⟩,
        ⟨[], [(blMetadataCommitWork (commitNext g m), fl')], none,
          some (.ack (read16 f.payload 0))⟩)) := by
  have hnp : ¬ (f.type = blDnOtaPrepare ∨ f.type = blDnOtaData) := by
    rw [hf]
    decide
  dsimp only [receive]
  rw [if_neg hnp, frameLife, if_pos hf, loopFrame_commit hf]
  rcases blHandleCommit_cases (Ctl.start fl none) g f.payload m with
    ⟨seq, err, hr⟩ | ⟨ha, -, hseq, c', ok, hcm, hr⟩
  · rw [hr]
    exact Or.inl ⟨seq, err, rfl⟩
  · have hok := (commit_spec hs (commitNext_tagged (g := g) hm)).1
    rw [hcm] at hok ⊢
    obtain rfl : ok = true := hok
    rw [hr]
    exact Or.inr ⟨ha, hseq, c'.mem, rfl, rfl⟩

end EdgeLink.Bootloader
