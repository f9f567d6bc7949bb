import EdgeLink.FrameReplies

namespace EdgeLink.Bootloader
open LittleEndian Nor Machine

/-! The bytes of a session, as its replies tell them. -/

/-- The chunks that were acknowledged in order since the last acknowledged PREPARE. -/
def receivedAfter (g : BlOtaCtx) (received : Bytes) (f : Frame) : Option Reply → Bytes
  | some (.ack seq) =>
    if f.type = blDnOtaPrepare then []
    else if f.type = blDnOtaData ∧ seq = g.expectedSeq then received ++ f.payload.drop 8
    else received
  | _ => received

def observeReceived (d : Device) (received : Bytes) (e : Event) (o : Output) : Bytes :=
  match e, d.mode with
  | .frame f _, .loop g _ _ => receivedAfter g received f o.reply
  | _, _ => received

/-- The bytes of the frame are in the slot, below the write offset. -/
def InSlot (d : Device) (f : Frame) : Prop :=
  ∃ g m final, d.mode = .loop g m final ∧
    (read32 f.payload 2).toNat + (f.payload.drop 8).length ≤ g.writeOffset.toNat ∧
    (read32 f.payload 2).toNat + (f.payload.drop 8).length ≤ blAppASize.toNat ∧
    read d.flash (g.targetBase.toNat + (read32 f.payload 2).toNat) (f.payload.drop 8).length =
      f.payload.drop 8

/-- If the step acknowledges a DATA frame with at least one byte, its bytes are in the slot. -/
def AckedStored (w : Device × Bytes) : Event → Prop
  | .frame f life => f.type = blDnOtaData → 8 < f.payload.length → ∀ seq,
      (step w.1 (.frame f life)).2.reply = some (.ack seq) → InSlot (step w.1 (.frame f life)).1 f
  | _ => True

/-- What a frame in an open session must not do. -/
structure Faithful (g : BlOtaCtx) (m : OtaMetadata) (received : Bytes) (f : Frame)
    (life : Option ℕ) : Prop where
  /-- a repetition repeats -/
  repetition : f.type = blDnOtaData → 8 < f.payload.length → Repeats g f.payload →
    (read32 f.payload 2).toNat + (f.payload.drop 8).length ≤ received.length ∧
      f.payload.drop 8 =
        (received.drop (read32 f.payload 2).toNat).take (f.payload.drop 8).length
  /-- the next chunk does not run out of the slot -/
  window : f.type = blDnOtaData → 8 < f.payload.length → read16 f.payload 0 = g.expectedSeq →
    read32 f.payload 2 = g.writeOffset →
    received.length + (f.payload.drop 8).length ≤ blAppASize.toNat
  /-- a request that passes its checks gets its erases -/
  erase : f.type = blDnOtaPrepare → 12 ≤ f.payload.length →
    prepareError m (prepareFields g f.payload) (prepareTarget m f.payload) = none →
    ∀ n, life = some n → 3 ≤ n

def FaithfulStep (w : Device × Bytes) : Event → Prop
  | .frame f life => ∀ g m final, w.1.mode = .loop g m final → g.active = true →
      Faithful g m w.2 f life
  | _ => True

structure Holds (fl : Mem) (g : BlOtaCtx) (received : Bytes) : Prop where
  anchored : Anchored g
  offset : g.writeOffset.toNat = received.length
  fits : received.length ≤ blAppASize.toNat
  bytes : read fl g.targetBase.toNat received.length = received

/-- An open session holds what was received in it. -/
def Stored (fl : Mem) (g : BlOtaCtx) (received : Bytes) : Prop :=
  g.active = true → Holds fl g received

section Handlers

variable {c : Ctl} {g : BlOtaCtx} {m : OtaMetadata} {f : Frame} {received payload : Bytes}
  {life : Option ℕ}

theorem Holds.congr {fl fl' : Mem} (h : Holds fl g received)
    (hm : ∀ x, blMetadataBase.toNat + blMetadataSize ≤ x → fl' x = fl x) :
    Holds fl' g received := by
  refine { h with bytes := ?_ }
  have hagree : AgreeOn fl' fl g.targetBase.toNat received.length :=
    fun x hx _ => hm x (h.anchored.base.trans hx)
  rw [read_congr hagree, h.bytes]

theorem prepare_stored (h : Stored c.mem g received) (hf : f.type = blDnOtaPrepare)
    (hfaithful : g.active = true → Faithful g m received f c.life) :
    let r := blHandlePrepare c g f.payload m
    Stored r.ctl.mem r.ctx (receivedAfter g received f r.reply) := by
  intro r
  have hfields : Stored c.mem (prepareFields g f.payload) received := fun ha =>
    ⟨⟨(h ha).anchored.slot, (h ha).anchored.inside⟩, (h ha).offset, (h ha).fits, (h ha).bytes⟩
  rcases blHandlePrepare_cases c g f.payload m with
    ⟨-, hr⟩ | ⟨-, err, -, hr⟩ | ⟨hl, he, c', ok, herase, hr⟩
  · simp only [r, hr]
    exact h
  · simp only [r, hr]
    exact hfields
  · have hslot := prepareTargetAllowed_slot (prepareError_none he).2.2.2.2.1
    cases ok with
    | false =>
      simp only [r, hr]
      intro ha
      have hlife := (eraseSlot_life (c := c) hslot).mpr ((hfaithful ha).erase hf hl he)
      rw [herase] at hlife
      cases hlife
    | true =>
      have hopened : receivedAfter g received f (some (.ack (read16 f.payload 0))) = [] := if_pos hf
      simp only [r, hr]
      intro _
      have hend : (prepareTarget m f.payload).toNat + 0 ≤ flashHi := by
        rcases hslot with ht | ht <;> rw [ht] <;> decide
      refine ⟨⟨hslot, hend⟩, ?_, ?_, ?_⟩
      all_goals simp only [if_true, answer_reply]
      all_goals rw [hopened]
      · rfl
      · exact Nat.zero_le _
      · rfl

/-- A write at the offset leaves what stands before it. -/
theorem Holds.write (h : Holds c.mem g received) (chunk : Bytes) :
    Holds (blFlashWrite c (g.targetBase + g.writeOffset).toNat chunk).1.mem g received := by
  have htouch := blFlashWrite_touches c (g.targetBase + g.writeOffset).toNat chunk
  rw [h.anchored.address] at htouch
  have hbelow : AgreeOn (blFlashWrite c (g.targetBase.toNat + g.writeOffset.toNat) chunk).1.mem c.mem
      g.targetBase.toNat received.length := by
    refine (htouch.agreeOn (Or.inl ?_)).symm
    rw [h.offset]
  rw [h.anchored.address]
  exact ⟨h.anchored, h.offset, h.fits, (read_congr hbelow).trans h.bytes⟩

/-- A chunk that was stored stands behind what was received before. -/
theorem Holds.append (h : Holds c.mem g received)
    (hn : (read16 f.payload 6).toNat = f.payload.length - 8)
    (hfits : received.length + (f.payload.drop 8).length ≤ blAppASize.toNat)
    (hw : (blFlashWrite c (g.targetBase + g.writeOffset).toNat (f.payload.drop 8)).2 = true) :
    Holds (blFlashWrite c (g.targetBase + g.writeOffset).toNat (f.payload.drop 8)).1.mem { g with
      writeOffset := g.writeOffset + (read16 f.payload 6).toUInt32
      expectedSeq := g.expectedSeq + 1 } (received ++ f.payload.drop 8) := by
  have haddr := h.anchored.address
  have htouch := blFlashWrite_touches c (g.targetBase + g.writeOffset).toNat (f.payload.drop 8)
  obtain ⟨hread, -, -, hend⟩ := blFlashWrite_ok hw
  have hlen : (f.payload.drop 8).length = (read16 f.payload 6).toNat := by
    rw [List.length_drop, hn]
  have hadv := h.anchored.advance (n := read16 f.payload 6) (by rw [haddr, hlen] at hend; exact hend)
  rw [haddr, h.offset] at hread
  refine ⟨⟨h.anchored.slot, ?_⟩, ?_, ?_, ?_⟩
  · change g.targetBase.toNat + (g.writeOffset + (read16 f.payload 6).toUInt32).toNat ≤ flashHi
    rw [hadv]
    rw [haddr, hlen] at hend
    omega
  · change (g.writeOffset + (read16 f.payload 6).toUInt32).toNat = _
    rw [hadv, List.length_append, hlen, h.offset]
  · rw [List.length_append]
    exact hfits
  · have hbelow : AgreeOn c.mem
        (blFlashWrite c (g.targetBase + g.writeOffset).toNat (f.payload.drop 8)).1.mem
        g.targetBase.toNat received.length := by
      apply htouch.agreeOn
      rw [haddr, h.offset]
      exact Or.inl le_rfl
    change read _ g.targetBase.toNat (received ++ f.payload.drop 8).length = _
    rw [List.length_append, read_add, ← read_congr hbelow, h.bytes, haddr, h.offset, hread]

/-- The bytes that an acknowledged frame brings are there after it. -/
def BytesHeld (fl : Mem) (g : BlOtaCtx) (payload : Bytes) : Prop :=
  (read32 payload 2).toNat + (payload.drop 8).length ≤ g.writeOffset.toNat ∧
    (read32 payload 2).toNat + (payload.drop 8).length ≤ blAppASize.toNat ∧
    read fl (g.targetBase.toNat + (read32 payload 2).toNat) (payload.drop 8).length = payload.drop 8

theorem Holds.part {fl : Mem} (h : Holds fl g received)
    (hin : (read32 payload 2).toNat + (payload.drop 8).length ≤ received.length)
    (hbytes : payload.drop 8 =
      (received.drop (read32 payload 2).toNat).take (payload.drop 8).length) :
    BytesHeld fl g payload := by
  have hoffset := h.offset
  have hfits := h.fits
  refine ⟨by omega, by omega, ?_⟩
  rw [read_sub h.bytes hin]
  exact hbytes.symm

theorem data_stored (h : Stored c.mem g received) (hf : f.type = blDnOtaData)
    (hfaithful : g.active = true → Faithful g m received f c.life) :
    let r := blHandleData c g f.payload
    Stored r.ctl.mem r.ctx (receivedAfter g received f r.reply) ∧
      (8 < f.payload.length → ∀ seq, r.reply = some (.ack seq) →
        BytesHeld r.ctl.mem r.ctx f.payload) := by
  intro r
  have hnot : f.type ≠ blDnOtaPrepare := by
    rw [hf]
    decide
  rcases blHandleData_cases c g f.payload with
    ⟨reply, hr, hack⟩ | ⟨ha, hl, hseq, hn, -, hoff, -, c', ok, hw, hr⟩
  · constructor
    -- the frame was not for the next offset: a repetition or a refusal, and nothing is written
    · have hsame : receivedAfter g received f (some reply) = received := by
        cases reply with
        | ack seq =>
          have hne : seq ≠ g.expectedSeq := by
            rw [(hack seq rfl).2.2.2]
            exact seq_ne_pred g.expectedSeq
          exact (if_neg hnot).trans (if_neg fun hs => hne hs.2)
        | nack seq err => rfl
        | version a b => rfl
      simp only [r, hr, answer_reply]
      rw [hsame]
      exact h
    · intro hlen seq hreply
      obtain ⟨-, hrepeats | ⟨-, -, hseq', -⟩⟩ := data_acked hreply
      · have hheld := h hrepeats.active
        obtain ⟨hin, hbytes⟩ := (hfaithful hrepeats.active).repetition hf hlen hrepeats
        simp only [r, hr]
        exact hheld.part hin hbytes
      · simp only [r, hr] at hreply
        obtain ⟨-, -, hs, hprev⟩ := hack seq (Option.some.inj hreply)
        exact absurd (hprev.symm.trans (hs.trans hseq')) (seq_ne_pred g.expectedSeq)
  · have hheld := h ha
    have hok := congrArg Prod.snd hw
    have hmem := congrArg Prod.fst hw
    cases ok with
    | false =>
      simp only [r, hr]
      refine ⟨fun _ => ?_, fun _ seq hreply => by cases hreply⟩
      have hkept := hheld.write (f.payload.drop 8)
      rw [hmem] at hkept
      exact hkept
    | true =>
      have hne := (blFlashWrite_ok hok).2.1
      have hlen : 8 < f.payload.length := by
        have hpos := List.length_pos_iff.mpr hne
        rw [List.length_drop] at hpos
        omega
      -- the sum of the offset and the length must not wrap, which the handler does not check
      have hfits := (hfaithful ha).window hf hlen hseq hoff
      have happend := hheld.append hn hfits hok
      have hnext : receivedAfter g received f (some (.ack (read16 f.payload 0))) =
          received ++ f.payload.drop 8 := (if_neg hnot).trans (if_pos ⟨hf, hseq⟩)
      rw [hmem] at happend
      simp only [r, hr, if_true, answer_reply, answer_ctl, answer_ctx]
      rw [hnext]
      refine ⟨fun _ => happend, fun _ _ _ => happend.part ?_ ?_⟩
      · rw [hoff, hheld.offset, List.length_append]
      · rw [hoff, hheld.offset, List.drop_left', List.take_length]
        rfl

theorem verify_stored (h : Stored c.mem g received) (hf : f.type = blDnOtaVerify) :
    let r := blHandleVerify c g f.payload
    Stored r.ctl.mem r.ctx (receivedAfter g received f r.reply) := by
  have hnot : f.type ≠ blDnOtaPrepare ∧ f.type ≠ blDnOtaData := by
    rw [hf]
    decide
  intro r
  rcases blHandleVerify_cases c g f.payload with ⟨seq, err, hr⟩ | ⟨-, -, -, -, -, -, -, hr⟩
  · simp only [r, hr]
    exact h
  · have hsame : receivedAfter g received f (some (.ack (read16 f.payload 0))) = received :=
      (if_neg hnot.1).trans (if_neg fun hs => hnot.2 hs.1)
    simp only [r, hr, answer_reply]
    rw [hsame]
    exact fun ha => ⟨⟨(h ha).anchored.slot, (h ha).anchored.inside⟩, (h ha).offset, (h ha).fits,
      (h ha).bytes⟩

theorem commit_stored (h : Stored c.mem g received) (hf : f.type = blDnOtaCommit) :
    let r := blHandleCommit c g f.payload m
    Stored r.ctl.mem r.ctx (receivedAfter g received f r.reply) := by
  have hnot : f.type ≠ blDnOtaPrepare ∧ f.type ≠ blDnOtaData := by
    rw [hf]
    decide
  have hsame (reply : Reply) (hv : ∀ a b, reply ≠ .version a b) :
      receivedAfter g received f (some reply) = received := by
    cases reply with
    | ack seq => exact (if_neg hnot.1).trans (if_neg fun hs => hnot.2 hs.1)
    | nack seq err => rfl
    | version a b => exact absurd rfl (hv a b)
  intro r
  rcases blHandleCommit_cases c g f.payload m with ⟨seq, err, hr⟩ | ⟨-, -, -, c', ok, hc, hr⟩
  · simp only [r, hr]
    exact h
  · have htouch := blMetadataCommit_touches c (commitNext g m)
    rw [hc] at htouch
    have hkept : receivedAfter g received f r.reply = received := by
      simp only [r, hr]
      cases ok <;> exact hsame _ fun a b hv => by cases hv
    rw [hkept]
    simp only [r, hr]
    exact fun ha => (h ha).congr fun x hx => htouch.frame x (Or.inr hx)

/-- A frame keeps the slot of the session in step with what was received. -/
theorem frame_stored (h : Stored c.mem g received)
    (hfaithful : g.active = true → Faithful g m received f c.life) :
    let r := blOtaLoopFrame c g m f
    Stored r.ctl.mem r.ctx (receivedAfter g received f r.reply) ∧
      (f.type = blDnOtaData → 8 < f.payload.length → ∀ seq, r.reply = some (.ack seq) →
        BytesHeld r.ctl.mem r.ctx f.payload) := by
  have hclosed : ∀ fl received, Stored fl blCtxReset received := fun _ _ ha => absurd ha (by decide)
  unfold blOtaLoopFrame
  by_cases hp : f.type = blDnOtaPrepare
  · have hnot : f.type ≠ blDnOtaData := by
      rw [hp]
      decide
    rw [if_pos hp]
    exact ⟨prepare_stored h hp hfaithful, fun hd => absurd hd hnot⟩
  by_cases hd : f.type = blDnOtaData
  · rw [if_neg hp, if_pos hd]
    obtain ⟨hstored, hheld⟩ := data_stored h hd hfaithful
    exact ⟨hstored, fun _ => hheld⟩
  by_cases hv : f.type = blDnOtaVerify
  · rw [if_neg hp, if_neg hd, if_pos hv]
    exact ⟨verify_stored h hv, fun hd' => absurd hd' hd⟩
  by_cases hc : f.type = blDnOtaCommit
  · rw [if_neg hp, if_neg hd, if_neg hv, if_pos hc]
    exact ⟨commit_stored h hc, fun hd' => absurd hd' hd⟩
  rw [if_neg hp, if_neg hd, if_neg hv, if_neg hc]
  refine ⟨?_, fun hd' => absurd hd' hd⟩
  split_ifs
  · exact hclosed _ _
  · exact hclosed _ _
  · exact h
  · exact h

end Handlers

def WellStored (w : Device × Bytes) : Prop :=
  ∀ g m final, w.1.mode = .loop g m final → Stored w.1.flash g w.2

/-- Without a frame no session is opened, and an open one is left alone. -/
theorem step_opens_nothing {d : Device} {e : Event} (he : ∀ f life, e ≠ .frame f life) :
    (step d e).1 = d ∨ ∀ g m final, (step d e).1.mode = .loop g m final → ¬ g.active = true := by
  obtain ⟨fl, mode⟩ := d
  have hnone {d' : Device} (h : WellNoted (d', none)) :
      ∀ g m final, d'.mode = .loop g m final → ¬ g.active = true := by
    intro g m final hl ha
    obtain ⟨t, ht, -⟩ := h g m final hl ha
    cases ht
  cases e with
  | frame f life => exact absurd rfl (he f life)
  | reset flag => exact Or.inr (hnone (reset_closed fl flag none))
  | idle =>
    cases mode with
    | off => exact Or.inl rfl
    | app slot => exact Or.inl rfl
    | loop g m final =>
      cases final with
      | true => exact Or.inl rfl
      | false => exact Or.inr (hnone (boot_closed (Ctl.start fl none) [] none))
  | confirm =>
    cases mode with
    | off => exact Or.inl rfl
    | loop g m final => exact Or.inl rfl
    | app slot =>
      refine Or.inr fun g m final hl => ?_
      cases hl

theorem step_stored {w : Device × Bytes} {e : Event} (h : WellStored w) (he : FaithfulStep w e) :
    WellStored (watched step observeReceived w e).1 ∧ AckedStored w e := by
  obtain ⟨⟨fl, mode⟩, received⟩ := w
  by_cases hframe : ∃ f life, e = .frame f life
  · obtain ⟨f, life, rfl⟩ := hframe
    cases mode with
    | off => exact ⟨h, fun _ _ seq hr => by cases hr⟩
    | app slot => exact ⟨h, fun _ _ seq hr => by cases hr⟩
    | loop g m final =>
      have hlife : f.type = blDnOtaPrepare ∨ f.type = blDnOtaData → frameLife f life = life := by
        intro hf
        refine if_neg fun hc => ?_
        rw [hc] at hf
        exact absurd hf (by decide)
      have hfaithful : g.active = true → Faithful g m received f (frameLife f life) := by
        intro ha
        have hgiven := he g m final rfl ha
        refine ⟨hgiven.repetition, hgiven.window, fun hp => ?_⟩
        rw [hlife (Or.inl hp)]
        exact hgiven.erase hp
      obtain ⟨hstored, hheld⟩ := frame_stored (c := Ctl.start fl (frameLife f life))
        (h g m final rfl) hfaithful
      constructor
      · intro g' m' final' hl
        change (if (blOtaLoopFrame (Ctl.start fl (frameLife f life)) g m f).reset then Mode.off
          else .loop (blOtaLoopFrame (Ctl.start fl (frameLife f life)) g m f).ctx m final) = _ at hl
        split_ifs at hl
        cases hl
        exact hstored
      · intro hd hlen seq hreply
        have hstays := frame_stays (c := Ctl.start fl (frameLife f life)) (g := g) (m := m) (f := f)
          (by rw [hd]; decide)
        refine ⟨_, m, final, ?_, hheld hd hlen seq hreply⟩
        change (if (blOtaLoopFrame (Ctl.start fl (frameLife f life)) g m f).reset then Mode.off
          else .loop (blOtaLoopFrame (Ctl.start fl (frameLife f life)) g m f).ctx m final) = _
        exact if_neg (by rw [hstays]; exact Bool.false_ne_true)
  -- a reset, an idle turn or a confirm leaves the session alone or closes it
  · have hno : ∀ f life, e ≠ .frame f life := fun f life hf => hframe ⟨f, life, hf⟩
    have hsame : (watched step observeReceived (⟨fl, mode⟩, received) e).1 =
        ((step ⟨fl, mode⟩ e).1, received) := by
      cases e with
      | frame f life => exact absurd rfl (hno f life)
      | reset flag => rfl
      | idle => rfl
      | confirm => rfl
    refine ⟨?_, ?_⟩
    · rw [hsame]
      rcases step_opens_nothing (d := ⟨fl, mode⟩) hno with hd | hd
      · rw [hd]
        exact h
      · exact fun g m final hl ha => absurd ha (hd g m final hl)
    · cases e with
      | frame f life => exact absurd rfl (hno f life)
      | reset flag => trivial
      | idle => trivial
      | confirm => trivial

/-- Along a run of faithful frames every acknowledged chunk is in the slot when it is acknowledged. -/
theorem acked_data_stored {fl : Mem} {es : List Event}
    (h : Always (watched step observeReceived) FaithfulStep (⟨fl, .off⟩, []) es) :
    Always (watched step observeReceived) AckedStored (⟨fl, .off⟩, []) es := by
  have hstart : WellStored (⟨fl, .off⟩, []) := fun g m final hl => by cases hl
  exact Always.of_invariant (I := WellStored) (fun w e hw he => step_stored hw he) hstart h

/-- A chunk that is sent twice. -/
def repeatedRun : List Event :=
  highStackStart ++ [.frame (dataFrame 2 0 highStack highStack_fits) none]

theorem repeatedRun_stored : Always (watched step observeReceived) AckedStored
    (⟨recordFlash blMetadataDefault, .off⟩, []) repeatedRun := by
  have hopened : (watched step observeReceived (⟨recordFlash blMetadataDefault,
      .loop blCtxReset blMetadataDefault false⟩, [])
      (.frame (prepareFrame 1 8 highStackCrc 8) none)).1 =
      (⟨recordFlash blMetadataDefault, .loop (highStackCtx 2 0) blMetadataDefault false⟩, []) := by
    rw [watched_fst, highStack_opened.1]
    dsimp only [observeReceived]
    rw [highStack_opened.2]
    rfl
  have hchunk : (watched step observeReceived (⟨recordFlash blMetadataDefault,
      .loop (highStackCtx 2 0) blMetadataDefault false⟩, [])
      (.frame (dataFrame 2 0 highStack highStack_fits) none)).1 =
      (⟨highStackFlash, .loop (highStackCtx 3 8) blMetadataDefault false⟩, highStack) := by
    rw [watched_fst, highStack_chunk.1]
    dsimp only [observeReceived]
    rw [highStack_chunk.2]
    rfl
  have hreset : (watched step observeReceived (⟨recordFlash blMetadataDefault, .off⟩, [])
      (.reset true)).1 =
      (⟨recordFlash blMetadataDefault, .loop blCtxReset blMetadataDefault false⟩, []) := by
    rw [watched_fst, highStack_reset]
    rfl
  apply acked_data_stored
  refine ⟨trivial, ?_⟩
  rw [hreset]
  refine ⟨fun g m final hl ha => ?_, ?_⟩
  · cases hl
    exact absurd ha (by decide)
  rw [hopened]
  refine ⟨fun g m final hl _ => ?_, ?_⟩
  · cases hl
    exact ⟨fun _ _ h => absurd h.seq (by decide), fun _ _ _ _ => by decide,
      fun h => absurd h (by decide)⟩
  rw [hchunk]
  refine ⟨fun g m final hl _ => ?_, trivial⟩
  cases hl
  exact ⟨fun _ _ _ => by decide, fun _ _ h => absurd h (by decide), fun h => absurd h (by decide)⟩

theorem oneByte_fits : ([0] : Bytes).length ≤ 246 := by decide

/-- A chunk that ends at the write offset only because the sum wraps, right behind the PREPARE. -/
def wrappedChunk : Frame := dataFrame 1 0xFFFFFFFF [0] oneByte_fits

theorem wrappedChunk_acked : ¬∀ (fl : Mem) (es : List Event) (f : Frame) (life : Option ℕ)
    (seq : UInt16), f.type = blDnOtaData → 8 < f.payload.length →
    (step (run step ⟨fl, .off⟩ es) (.frame f life)).2.reply = some (.ack seq) →
    InSlot (step (run step ⟨fl, .off⟩ es) (.frame f life)).1 f := by
  intro h
  have hopened : run step ⟨recordFlash blMetadataDefault, .off⟩
      [.reset true, .frame (prepareFrame 1 8 highStackCrc 8) none] =
      ⟨recordFlash blMetadataDefault, .loop (highStackCtx 2 0) blMetadataDefault false⟩ := by
    rw [run_cons, highStack_reset, run_cons, highStack_opened.1, run_nil]
  have hstored := h (recordFlash blMetadataDefault)
    [.reset true, .frame (prepareFrame 1 8 highStackCrc 8) none] wrappedChunk none
    1 rfl (by decide)
  rw [hopened] at hstored
  obtain ⟨g, m, final, hl, hin, -⟩ := hstored rfl
  have hmode : (step ⟨recordFlash blMetadataDefault, .loop (highStackCtx 2 0) blMetadataDefault
      false⟩ (.frame wrappedChunk none)).1.mode = .loop (highStackCtx 2 0) blMetadataDefault false := rfl
  rw [hmode] at hl
  cases hl
  exact absurd hin (by decide)

end EdgeLink.Bootloader
