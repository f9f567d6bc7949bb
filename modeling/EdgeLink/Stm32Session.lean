import EdgeLink.AckedData
import EdgeLink.Stm32Ota

namespace EdgeLink.Stm32Ota
open Bootloader LittleEndian Machine Nor

def phaseAt (job : Job) : ℕ → Phase
  | 0 => .prepare
  | i + 1 => job.next (phaseAt job i)

def seqAt (i : ℕ) : UInt16 := .ofNat (i + 1)

def frameAt (job : Job) (i : ℕ) : Frame := job.frame (seqAt i) (phaseAt job i)

theorem seqAt_succ (i : ℕ) : seqAt i + 1 = seqAt (i + 1) := by
  apply UInt16.toNat_inj.mp
  rw [UInt16.toNat_add, seqAt, seqAt, UInt16.toNat_ofNat', UInt16.toNat_ofNat', UInt16.toNat_one]
  omega

theorem seq_ne_succ (a : UInt16) : a ≠ a + 1 := by
  intro h
  have ht := congrArg UInt16.toNat h
  have hlt := a.toNat_lt
  rw [UInt16.toNat_add, UInt16.toNat_one] at ht
  omega

variable {job : Job} {offset i : ℕ}

theorem next_data {phase : Phase} (h : job.next phase = .data offset) :
    offset = job.done phase ∧ offset < job.image.length := by
  cases phase with
  | verify => cases h
  | commit => cases h
  | prepare =>
    simp only [Job.next] at h
    split_ifs at h with hlt
    obtain rfl := Phase.data.inj h
    exact ⟨rfl, hlt⟩
  | data o =>
    simp only [Job.next] at h
    split_ifs at h with hlt
    obtain rfl := Phase.data.inj h
    exact ⟨rfl, hlt⟩

theorem next_ne_prepare (phase : Phase) : job.next phase ≠ .prepare := by
  cases phase with
  | verify => exact nofun
  | commit => exact nofun
  | prepare =>
    simp only [Job.next]
    split_ifs <;> exact nofun
  | data o =>
    simp only [Job.next]
    split_ifs <;> exact nofun

theorem next_verify {phase : Phase} (h : job.next phase = .verify) :
    job.image.length ≤ job.done phase ∧ phase ≠ .verify ∧ phase ≠ .commit := by
  cases phase with
  | verify => cases h
  | commit => cases h
  | prepare =>
    simp only [Job.next] at h
    split_ifs at h with hlt
    exact ⟨not_lt.mp hlt, nofun, nofun⟩
  | data o =>
    simp only [Job.next] at h
    split_ifs at h with hlt
    exact ⟨not_lt.mp hlt, nofun, nofun⟩

theorem next_commit {phase : Phase} (h : job.next phase = .commit) :
    phase = .verify ∨ phase = .commit := by
  cases phase with
  | verify => exact Or.inl rfl
  | commit => exact Or.inr rfl
  | prepare =>
    simp only [Job.next] at h
    split_ifs at h
  | data o =>
    simp only [Job.next] at h
    split_ifs at h

/-- What has been sent grows by the piece. -/
theorem take_done (job : Job) (offset : ℕ) :
    job.image.take (job.done (.data offset)) = job.image.take offset ++ job.piece offset := by
  have hpiece : (job.image.drop offset).take (job.piece offset).length = job.piece offset := by
    unfold Job.piece
    rw [List.length_take, ← List.take_eq_take_min]
  rw [Job.done, List.take_add, hpiece]

/-- The session after exchange `i`. -/
structure Session (job : Job) (i : ℕ) (g : BlOtaCtx) (fl : Mem) : Prop where
  holds : Holds fl g (job.image.take (job.done (phaseAt job i)))
  size : g.imageSize = .ofNat job.image.length
  fits : g.imageSize ≤ blAppASize
  crc : g.imageCrc32 = job.imageCrc32
  expected : g.expectedSeq = seqAt (i + 1)
  checked : phaseAt job i = .verify ∨ phaseAt job i = .commit → g.writeOffset = g.imageSize ∧
    blCrc32 (read fl g.targetBase.toNat g.imageSize.toNat) = g.imageCrc32

/-- An open session is the one after exchange `i`. -/
def Open (job : Job) (i : ℕ) (g : BlOtaCtx) (fl : Mem) : Prop :=
  g.active = true → Session job i g fl

section Prepare

variable {g : BlOtaCtx} {m : OtaMetadata} {fl : Mem}

theorem prepare_reads (job : Job) (seq : UInt16) :
    12 ≤ (job.payload seq .prepare).length ∧ read16 (job.payload seq .prepare) 0 = seq ∧
      read32 (job.payload seq .prepare) 2 = .ofNat job.image.length ∧
      read32 (job.payload seq .prepare) 6 = job.imageCrc32 := by
  have hp : job.payload seq .prepare = bytes16 seq ++ (bytes32 (.ofNat job.image.length) ++
      (bytes32 job.imageCrc32 ++ (bytes16 (.ofNat job.chunk) ++ job.options))) := by
    simp only [Job.payload, List.append_assoc]
  rw [hp]
  refine ⟨?_, read16_head _ _, ?_, ?_⟩
  · simp only [List.length_append, bytes16_length, bytes32_length]
    omega
  · simp only [read32_skip16, read32_head]
  · simp only [read32_skip16, read32_skip32, read32_head]

/-- A session that the request opens. -/
theorem opened_session {t : UInt32} (g : BlOtaCtx) (fl : Mem)
    (he : prepareError m (prepareFields g (job.payload (seqAt 0) .prepare)) t = none) :
    Session job 0 (prepareCtx (job.payload (seqAt 0) .prepare) t) fl := by
  obtain ⟨-, hseq, hsize, hcrc⟩ := prepare_reads job (seqAt 0)
  obtain ⟨-, hfits, -, -, hallowed, -⟩ := prepareError_none he
  have hslot := prepareTargetAllowed_slot hallowed
  have hend : t.toNat + 0 ≤ flashHi := by
    rcases hslot with ht | ht <;> rw [ht] <;> decide
  have hnext : read16 (job.payload (seqAt 0) .prepare) 0 + 1 = seqAt 1 := by
    rw [hseq, seqAt_succ]
  refine ⟨⟨⟨hslot, hend⟩, rfl, Nat.zero_le _, rfl⟩, hsize, hfits, hcrc, hnext, ?_⟩
  · rintro (h | h) <;> cases h

/-- The same request once more, refused. -/
theorem refused_session (h : Session job 0 g fl) (fl' : Mem) :
    Session job 0 (prepareFields g (job.payload (seqAt 0) .prepare)) fl' := by
  obtain ⟨-, -, hsize, hcrc⟩ := prepare_reads job (seqAt 0)
  refine ⟨⟨⟨h.holds.anchored.slot, h.holds.anchored.inside⟩, h.holds.offset, h.holds.fits, rfl⟩,
    hsize, ?_, hcrc, h.expected, ?_⟩
  · have hsame : (prepareFields g (job.payload (seqAt 0) .prepare)).imageSize = g.imageSize :=
      hsize.trans h.size.symm
    rw [hsame]
    exact h.fits
  · rintro (hp | hp) <;> cases hp

theorem prepare_session (job : Job) (c : Ctl) (g : BlOtaCtx) (m : OtaMetadata) :
    let r := blHandlePrepare c g (job.payload (seqAt 0) .prepare) m
    (Open job 0 g c.mem ∨ ∃ seq, r.reply = some (.ack seq)) → Open job 0 r.ctx r.ctl.mem := by
  intro r hor ha
  obtain ⟨hl, -, -, -⟩ := prepare_reads job (seqAt 0)
  rcases blHandlePrepare_cases c g (job.payload (seqAt 0) .prepare) m with
    ⟨hshort, -⟩ | ⟨-, err, -, hr⟩ | ⟨-, he, c', ok, -, hr⟩
  · omega
  · simp only [r, hr] at hor ha ⊢
    have hopen := hor.resolve_right fun ⟨_, hs⟩ => by cases hs
    exact refused_session (hopen ha) _
  · cases ok with
    | true =>
      simp only [r, hr]
      exact opened_session g _ he
    | false =>
      simp only [r, hr] at hor ha ⊢
      have hopen := hor.resolve_right fun ⟨_, hs⟩ => by cases hs
      exact refused_session (hopen ha) _

end Prepare

section Later

variable {c : Ctl} {g : BlOtaCtx} {m : OtaMetadata}

theorem data_reads (job : Job) (seq : UInt16) (offset : ℕ) :
    8 ≤ (job.payload seq (.data offset)).length ∧ read16 (job.payload seq (.data offset)) 0 = seq ∧
      (job.payload seq (.data offset)).drop 8 = job.piece offset := by
  have hp : job.payload seq (.data offset) = bytes16 seq ++ (bytes32 (.ofNat offset) ++
      (bytes16 (.ofNat (job.piece offset).length) ++ job.piece offset)) := by
    simp only [Job.payload, List.append_assoc]
  refine ⟨?_, ?_, ?_⟩
  · rw [hp]
    simp only [List.length_append, bytes16_length, bytes32_length]
    omega
  · rw [hp, read16_head]
  · rw [hp, ← List.append_assoc, ← List.append_assoc]
    exact List.drop_left' (by simp)

/-- The next chunk. -/
theorem data_session (hnext : job.next (phaseAt job i) = .data offset) (h : Open job i g c.mem) :
    let r := blHandleData c g (job.payload (seqAt (i + 1)) (.data offset))
    ((∃ seq, r.reply = some (.ack seq)) → Open job (i + 1) r.ctx r.ctl.mem) ∧
      ((∀ seq, r.reply ≠ some (.ack seq)) → Open job i r.ctx r.ctl.mem) := by
  obtain ⟨-, hseq, hdrop⟩ := data_reads job (seqAt (i + 1)) offset
  obtain ⟨rfl, -⟩ := next_data hnext
  intro r
  rcases blHandleData_cases c g (job.payload (seqAt (i + 1)) (.data (job.done (phaseAt job i)))) with
    ⟨reply, hr, hack⟩ | ⟨ha, -, -, hn, -, -, hwindow, c', ok, hw, hr⟩
  · simp only [r, hr, answer_reply, answer_ctx, answer_ctl]
    -- an ACK without a write is for the number before, and this frame has the next one
    refine ⟨fun ⟨seq, hs⟩ => ?_, fun _ => h⟩
    obtain ⟨ha, -, hs', hprev⟩ := hack seq (Option.some.inj hs)
    rw [(h ha).expected, ← hseq, ← hs'] at hprev
    exact absurd hprev.symm (seq_ne_pred seq)
  · have hs := h ha
    have hok := congrArg Prod.snd hw
    have hmem := congrArg Prod.fst hw
    have hdata : ¬(phaseAt job i = .verify ∨ phaseAt job i = .commit) := by
      rintro (hp | hp) <;> rw [hp] at hnext <;> cases hnext
    cases ok with
    | false =>
      simp only [r, hr, Bool.false_eq_true, if_false, answer_reply, answer_ctx, answer_ctl]
      refine ⟨fun ⟨seq, hack⟩ => (by cases hack), fun _ _ => ?_⟩
      have hkept := hs.holds.write ((job.payload (seqAt (i + 1))
        (.data (job.done (phaseAt job i)))).drop 8)
      rw [hmem] at hkept
      exact { hs with holds := hkept, checked := fun hp => absurd hp hdata }
    | true =>
      simp only [r, hr, if_true, answer_reply, answer_ctx, answer_ctl]
      refine ⟨fun _ _ => ?_, fun hno => absurd rfl (hno _)⟩
      have hend := (blFlashWrite_ok hok).2.2.2
      have hlen : (job.piece (job.done (phaseAt job i))).length =
          (read16 (job.payload (seqAt (i + 1)) (.data (job.done (phaseAt job i)))) 6).toNat := by
        rw [hn, ← hdrop, List.length_drop]
      rw [hs.holds.anchored.address, hdrop, hlen] at hend
      have hadv := hs.holds.anchored.advance hend
      have hin := UInt32.le_iff_toNat_le.mp (UInt32.le_trans hwindow hs.fits)
      rw [hadv, hs.holds.offset, ← hlen] at hin
      have happend := hs.holds.append (f := job.frame (seqAt (i + 1)) (.data (job.done (phaseAt job i))))
        hn (by rw [Job.frame, hdrop]; exact hin) hok
      dsimp only [Job.frame] at happend
      rw [hmem, hdrop, ← take_done] at happend
      have hphase : phaseAt job (i + 1) = .data (job.done (phaseAt job i)) := hnext
      have hexpected : g.expectedSeq + 1 = seqAt (i + 1 + 1) := by rw [hs.expected, seqAt_succ]
      refine ⟨hphase ▸ happend, hs.size, hs.fits, hs.crc, hexpected, fun hp => ?_⟩
      rw [hphase] at hp
      rcases hp with hp | hp <;> cases hp

/-- A chunk once more. -/
theorem data_again_session (offset : ℕ) (h : Open job i g c.mem) :
    let r := blHandleData c g (job.payload (seqAt i) (.data offset))
    Open job i r.ctx r.ctl.mem := by
  obtain ⟨-, hseq, -⟩ := data_reads job (seqAt i) offset
  intro r
  rcases blHandleData_cases c g (job.payload (seqAt i) (.data offset)) with
    ⟨reply, hr, -⟩ | ⟨ha, -, hs, -⟩
  · simp only [r, hr, answer_ctx, answer_ctl]
    exact h
  · rw [hseq, (h ha).expected, ← seqAt_succ] at hs
    exact absurd hs (seq_ne_succ _)

theorem verify_reads (job : Job) (seq : UInt16) : read16 (job.payload seq .verify) 0 = seq :=
  read16_head _ _

/-- VERIFY has found the image, and its CRC. -/
theorem verify_session (hnext : job.next (phaseAt job i) = .verify) (h : Open job i g c.mem) :
    let r := blHandleVerify c g (job.payload (seqAt (i + 1)) .verify)
    ((∃ seq, r.reply = some (.ack seq)) → Open job (i + 1) r.ctx r.ctl.mem) ∧
      ((∀ seq, r.reply ≠ some (.ack seq)) → Open job i r.ctx r.ctl.mem) := by
  obtain ⟨hdone, -, -⟩ := next_verify hnext
  intro r
  rcases blHandleVerify_cases c g (job.payload (seqAt (i + 1)) .verify) with
    ⟨seq, err, hr⟩ | ⟨ha, -, -, -, hfull, hcrc, -, hr⟩
  · simp only [r, hr, answer_reply, answer_ctx, answer_ctl]
    exact ⟨fun ⟨_, hs⟩ => (by cases hs), fun _ => h⟩
  · have hs := h ha
    simp only [r, hr, answer_reply, answer_ctx, answer_ctl]
    refine ⟨fun _ _ => ?_, fun hno => absurd rfl (hno _)⟩
    have hphase : phaseAt job (i + 1) = .verify := hnext
    have hall : job.image.take (job.done (phaseAt job (i + 1))) =
        job.image.take (job.done (phaseAt job i)) := by
      rw [hphase, Job.done, List.take_length, List.take_of_length_le hdone]
    have hexpected : g.expectedSeq + 1 = seqAt (i + 1 + 1) := by rw [hs.expected, seqAt_succ]
    refine ⟨?_, hs.size, hs.fits, hs.crc, hexpected, fun _ => ⟨hfull, hcrc⟩⟩
    rw [hall]
    exact ⟨⟨hs.holds.anchored.slot, hs.holds.anchored.inside⟩, hs.holds.offset, hs.holds.fits,
      hs.holds.bytes⟩

theorem verify_again_session (h : Open job i g c.mem) :
    let r := blHandleVerify c g (job.payload (seqAt i) .verify)
    Open job i r.ctx r.ctl.mem := by
  intro r
  rcases blHandleVerify_cases c g (job.payload (seqAt i) .verify) with
    ⟨seq, err, hr⟩ | ⟨ha, -, hs, -⟩
  · simp only [r, hr, answer_ctx, answer_ctl]
    exact h
  · rw [verify_reads, (h ha).expected, ← seqAt_succ] at hs
    exact absurd hs (seq_ne_succ _)

/-- A COMMIT either ends in a reset or leaves the session as it was. -/
theorem commit_session (seq : UInt16) (h : Open job i g c.mem) :
    let r := blHandleCommit c g (job.payload seq .commit) m
    (r.reset = true ∧ ∃ seq, r.reply = some (.ack seq)) ∨
      (∀ seq, r.reply ≠ some (.ack seq)) ∧ Open job i r.ctx r.ctl.mem := by
  intro r
  rcases blHandleCommit_cases c g (job.payload seq .commit) m with
    ⟨seq, err, hr⟩ | ⟨-, -, -, c', ok, hc, hr⟩
  · simp only [r, hr, answer_reply, answer_ctx, answer_ctl]
    exact Or.inr ⟨nofun, h⟩
  · cases ok with
    | true =>
      simp only [r, hr]
      exact Or.inl ⟨trivial, _, rfl⟩
    | false =>
      simp only [r, hr]
      refine Or.inr ⟨nofun, fun ha => ?_⟩
      have hs := h ha
      have htouch := blMetadataCommit_touches c (commitNext g m)
      rw [hc] at htouch
      -- a failed commit has touched the metadata alone, which lies below the slots
      have hsame : ∀ x, blMetadataBase.toNat + blMetadataSize ≤ x → c'.mem x = c.mem x :=
        fun x hx => htouch.frame x (Or.inr hx)
      refine { hs with holds := hs.holds.congr hsame, checked := fun hp => ?_ }
      have hagree : AgreeOn c'.mem c.mem g.targetBase.toNat g.imageSize.toNat :=
        fun x hx _ => hsame x (hs.holds.anchored.base.trans hx)
      rw [read_congr hagree]
      exact hs.checked hp

end Later

def DeviceOpen (job : Job) (i : ℕ) (d : Device) : Prop :=
  ∀ g m final, d.mode = .loop g m final → Open job i g d.flash

section Deliver

variable {d : Device} {life : Option ℕ}

/-- The handler of a phase. -/
def handle (c : Ctl) (g : BlOtaCtx) (m : OtaMetadata) (payload : Bytes) : Phase → Handled
  | .prepare => blHandlePrepare c g payload m
  | .data _ => blHandleData c g payload
  | .verify => blHandleVerify c g payload
  | .commit => blHandleCommit c g payload m

/-- The next exchange, in whichever phase. -/
theorem next_session {c : Ctl} {g : BlOtaCtx} (h : Open job i g c.mem) (m : OtaMetadata) :
    let r := handle c g m (job.payload (seqAt (i + 1)) (phaseAt job (i + 1))) (phaseAt job (i + 1))
    ((∃ seq, r.reply = some (.ack seq)) → r.reset = false → Open job (i + 1) r.ctx r.ctl.mem) ∧
      ((∀ seq, r.reply ≠ some (.ack seq)) → r.reset = false → Open job i r.ctx r.ctl.mem) := by
  dsimp only
  cases hp : phaseAt job (i + 1) with
  | prepare => exact absurd hp (next_ne_prepare _)
  | data offset =>
    have hdata := data_session hp h
    exact ⟨fun hs _ => hdata.1 hs, fun hs _ => hdata.2 hs⟩
  | verify =>
    have hverify := verify_session hp h
    exact ⟨fun hs _ => hverify.1 hs, fun hs _ => hverify.2 hs⟩
  | commit =>
    rcases commit_session (m := m) (seqAt (i + 1)) h with ⟨hreset, -⟩ | ⟨hno, hopen⟩
    · have hgone (hstay : (blHandleCommit c g (job.payload (seqAt (i + 1)) .commit) m).reset =
          false) : False := Bool.false_ne_true (hstay.symm.trans hreset)
      exact ⟨fun _ hstay => (hgone hstay).elim, fun _ hstay => (hgone hstay).elim⟩
    · exact ⟨fun ⟨seq, hs⟩ => absurd hs (hno seq), fun _ _ => hopen⟩

/-- The same exchange once more. -/
theorem again_session {c : Ctl} {g : BlOtaCtx} (h : Open job (i + 1) g c.mem) (m : OtaMetadata) :
    let r := handle c g m (job.payload (seqAt (i + 1)) (phaseAt job (i + 1))) (phaseAt job (i + 1))
    r.reset = false → Open job (i + 1) r.ctx r.ctl.mem := by
  dsimp only
  cases hp : phaseAt job (i + 1) with
  | prepare => exact absurd hp (next_ne_prepare _)
  | data offset => exact fun _ => data_again_session offset h
  | verify => exact fun _ => verify_again_session h
  | commit =>
    rcases commit_session (m := m) (seqAt (i + 1)) h with ⟨hreset, -⟩ | ⟨-, hopen⟩
    · exact fun hstay => absurd (hstay.symm.trans hreset) Bool.false_ne_true
    · exact fun _ => hopen

/-- A step with a frame of the call is one of the four handlers, or nothing. -/
theorem step_frame_cases (d : Device) (seq : UInt16) (phase : Phase) (life : Option ℕ) :
    Bootloader.step d (.frame (job.frame seq phase) life) = (d, silent) ∧
      (∀ g m final, d.mode ≠ .loop g m final) ∨
    ∃ g m final, d.mode = .loop g m final ∧ ∃ c : Ctl, c.mem = d.flash ∧
      ∃ r, r = handle c g m (job.payload seq phase) phase ∧
      (Bootloader.step d (.frame (job.frame seq phase) life)).1 =
        ⟨r.ctl.mem, if r.reset then .off else .loop r.ctx m final⟩ ∧
      (Bootloader.step d (.frame (job.frame seq phase) life)).2.reply = r.reply ∧
      (Bootloader.step d (.frame (job.frame seq phase) life)).2.written =
        if r.reset then blWritten r.ctl r.committed else [] := by
  obtain ⟨fl, mode⟩ := d
  cases mode with
  | off => exact Or.inl ⟨rfl, nofun⟩
  | app slot => exact Or.inl ⟨rfl, nofun⟩
  | loop g m final =>
    refine Or.inr ⟨g, m, final, rfl, Ctl.start fl (frameLife (job.frame seq phase) life), rfl,
      blOtaLoopFrame (Ctl.start fl (frameLife (job.frame seq phase) life)) g m (job.frame seq phase),
      ?_, rfl, rfl, rfl⟩
    cases phase <;> rfl

theorem open_handled {r : Handled} {m : OtaMetadata} {final : Bool}
    (h : r.reset = false → Open job i r.ctx r.ctl.mem) :
    DeviceOpen job i ⟨r.ctl.mem, if r.reset then .off else .loop r.ctx m final⟩ := by
  intro g m' final' hmode
  cases hreset : r.reset with
  | true =>
    dsimp only at hmode
    rw [hreset, if_pos rfl] at hmode
    cases hmode
  | false =>
    dsimp only at hmode
    rw [hreset, if_neg Bool.false_ne_true] at hmode
    cases hmode
    exact h hreset

/-- The request, before anything else of the call was acknowledged. -/
theorem deliver_first (d : Device) (life : Option ℕ) :
    let r := Bootloader.step d (.frame (frameAt job 0) life)
    (DeviceOpen job 0 d ∨ ∃ seq, r.2.reply = some (.ack seq)) → DeviceOpen job 0 r.1 := by
  intro r hor
  rcases step_frame_cases d (seqAt 0) .prepare life with
    ⟨hr, hmode⟩ | ⟨g, m, final, hmode, c, hmem, h, hh, hdev, hreply, -⟩
  · have hsame : r = (d, silent) := hr
    rw [hsame]
    exact fun g m final hl => absurd hl (hmode g m final)
  · have hopen := prepare_session job c g m
    rw [handle] at hh
    dsimp only at hopen
    rw [← hh] at hopen
    have hstep : r.1 = _ := hdev
    rw [hstep]
    refine open_handled fun _ => hopen (hor.imp (fun hd => ?_) fun ⟨seq, hs⟩ => ⟨seq, ?_⟩)
    · rw [hmem]
      exact hd g m final hmode
    · rw [← hreply]
      exact hs

/-- The next exchange of the session. -/
theorem deliver_next (h : DeviceOpen job i d) (life : Option ℕ) :
    let r := Bootloader.step d (.frame (frameAt job (i + 1)) life)
    ((∃ seq, r.2.reply = some (.ack seq)) → DeviceOpen job (i + 1) r.1) ∧
      ((∀ seq, r.2.reply ≠ some (.ack seq)) → DeviceOpen job i r.1) := by
  intro r
  rcases step_frame_cases d (seqAt (i + 1)) (phaseAt job (i + 1)) life with
    ⟨hr, -⟩ | ⟨g, m, final, hmode, c, hmem, r', hh, hdev, hreply, -⟩
  · have hsame : r = (d, silent) := hr
    rw [hsame]
    exact ⟨fun ⟨_, hs⟩ => (by cases hs), fun _ => h⟩
  · have hstep : r.1 = _ := hdev
    have hanswer : r.2.reply = _ := hreply
    have hbefore : Open job i g c.mem := hmem ▸ h g m final hmode
    have hnext := next_session hbefore m
    dsimp only at hnext
    rw [← hh] at hnext
    rw [hstep, hanswer]
    exact ⟨fun hs => open_handled (hnext.1 hs), fun hs => open_handled (hnext.2 hs)⟩

/-- The last exchange of the session once more. -/
theorem deliver_again (h : DeviceOpen job i d) (life : Option ℕ) :
    DeviceOpen job i (Bootloader.step d (.frame (frameAt job i) life)).1 := by
  cases i with
  | zero => exact deliver_first d life (Or.inl h)
  | succ i =>
    rcases step_frame_cases d (seqAt (i + 1)) (phaseAt job (i + 1)) life with
      ⟨hr, -⟩ | ⟨g, m, final, hmode, c, hmem, r', hh, hdev, -, -⟩
    · have hsame : Bootloader.step d (.frame (frameAt job (i + 1)) life) = (d, silent) := hr
      rw [hsame]
      exact h
    · have hstep : (Bootloader.step d (.frame (frameAt job (i + 1)) life)).1 = _ := hdev
      have hbefore : Open job (i + 1) g c.mem := hmem ▸ h g m final hmode
      have hagain := again_session hbefore m
      dsimp only at hagain
      rw [← hh] at hagain
      rw [hstep]
      exact open_handled hagain

/-- Whatever else happens to the device opens no session. -/
theorem incident_open (h : DeviceOpen job i d) {e : Bootloader.Event}
    (he : ∀ f life, e ≠ .frame f life) : DeviceOpen job i (Bootloader.step d e).1 := by
  rcases step_opens_nothing (d := d) he with hsame | hclosed
  · rw [hsame]
    exact h
  · exact fun g m final hl ha => absurd ha (hclosed g m final hl)

end Deliver

/-- VERIFY was answered in this session, over this flash. -/
structure VerifiedImage (job : Job) (g : BlOtaCtx) (fl : Mem) : Prop where
  size : g.imageSize.toNat = job.image.length
  crc : g.imageCrc32 = job.imageCrc32
  bytes : read fl g.targetBase.toNat job.image.length = job.image
  checksum : blCrc32 job.image = job.imageCrc32

/-- The slot that these metadata make pending holds the image. -/
structure CommittedImage (job : Job) (m : OtaMetadata) (fl : Mem) : Prop where
  size : (blSlotImageSize m m.pendingSlot).toNat = job.image.length
  crc : blSlotCrc m m.pendingSlot = job.imageCrc32
  bytes : read fl (blSlotBase m.pendingSlot).toNat job.image.length = job.image
  checksum : blCrc32 job.image = job.imageCrc32

section Image

variable {g : BlOtaCtx} {fl : Mem}

theorem take_all (hp : phaseAt job i = .verify ∨ phaseAt job i = .commit) :
    job.image.take (job.done (phaseAt job i)) = job.image := by
  rcases hp with hp | hp <;> rw [hp, Job.done, List.take_length]

theorem Session.verified (h : Session job i g fl)
    (hp : phaseAt job i = .verify ∨ phaseAt job i = .commit) : VerifiedImage job g fl := by
  have hall := take_all hp
  obtain ⟨hfull, hcrc⟩ := h.checked hp
  have hlen : g.imageSize.toNat = job.image.length := by
    rw [← hfull, h.holds.offset, hall]
  have hbytes := h.holds.bytes
  rw [hall] at hbytes
  rw [hlen, hbytes] at hcrc
  exact ⟨hlen, h.crc, hbytes, hcrc.trans h.crc⟩

theorem commitWork_pending (m : OtaMetadata) :
    (blMetadataCommitWork m).pendingSlot = m.pendingSlot := by
  unfold blMetadataCommitWork blMetadataUpdateCrc
  split_ifs <;> rfl

variable {d : Device}

theorem deliver_verified (h : DeviceOpen job i d) (hp : phaseAt job (i + 1) = .verify)
    (life : Option ℕ) :
    let r := Bootloader.step d (.frame (frameAt job (i + 1)) life)
    (∃ seq, r.2.reply = some (.ack seq)) →
      ∃ g m final, r.1.mode = .loop g m final ∧ VerifiedImage job g r.1.flash := by
  intro r hack
  have hopen := (deliver_next h life).1 hack
  rcases step_frame_cases d (seqAt (i + 1)) (phaseAt job (i + 1)) life with
    ⟨hr, -⟩ | ⟨g, m, final, hmode, c, hmem, r', hh, hdev, hreply, -⟩
  · have hsame : r = (d, silent) := hr
    rw [hsame] at hack
    obtain ⟨seq, hs⟩ := hack
    cases hs
  · have hstep : r.1 = _ := hdev
    have hanswer : r.2.reply = _ := hreply
    rw [hp, handle] at hh
    rw [hanswer] at hack
    obtain ⟨seq, hs⟩ := hack
    rcases blHandleVerify_cases c g (job.payload (seqAt (i + 1)) .verify) with
      ⟨seq', err, hr⟩ | ⟨ha, -, -, -, -, -, -, hr⟩
    · rw [hh, hr] at hs
      cases hs
    · rw [hr] at hh
      have hloop : r.1.mode = .loop { g with expectedSeq := g.expectedSeq + 1 } m final := by
        rw [hstep, hh]
        rfl
      exact ⟨_, m, final, hloop, (hopen _ m final hloop ha).verified (Or.inl hp)⟩

theorem deliver_committed (h : DeviceOpen job i d) (hp : phaseAt job (i + 1) = .commit)
    (life : Option ℕ) :
    let r := Bootloader.step d (.frame (frameAt job (i + 1)) life)
    (∃ seq, r.2.reply = some (.ack seq)) → ∃ x ∈ r.2.written, CommittedImage job x.1 x.2 := by
  intro r hack
  rcases step_frame_cases d (seqAt (i + 1)) (phaseAt job (i + 1)) life with
    ⟨hr, -⟩ | ⟨g, m, final, hmode, c, hmem, r', hh, -, hreply, hwritten⟩
  · have hsame : r = (d, silent) := hr
    rw [hsame] at hack
    obtain ⟨seq, hs⟩ := hack
    cases hs
  · have hanswer : r.2.reply = _ := hreply
    have hwrote : r.2.written = _ := hwritten
    rw [hp, handle] at hh
    rw [hanswer] at hack
    obtain ⟨seq, hs⟩ := hack
    rcases blHandleCommit_cases c g (job.payload (seqAt (i + 1)) .commit) m with
      ⟨seq', err, hr⟩ | ⟨ha, -, -, c', ok, hc, hr⟩
    · rw [hh, hr] at hs
      cases hs
    · cases ok with
      | false =>
        rw [hh, hr] at hs
        cases hs
      | true =>
        rw [hwrote, hh, hr]
        refine ⟨(blMetadataCommitWork (commitNext g m), c'.mem), List.mem_singleton_self _, ?_⟩
        have hsession := h g m final hmode ha
        have himage := hsession.verified (next_commit hp)
        have hsame := commitWork_same (commitNext g m)
        have hpending : (blMetadataCommitWork (commitNext g m)).pendingSlot = commitSlot g := by
          rw [commitWork_pending, commitNext_pending]
        have htouch := blMetadataCommit_touches c (commitNext g m)
        rw [hc] at htouch
        have hagree : AgreeOn c'.mem c.mem g.targetBase.toNat job.image.length :=
          fun x hx _ => htouch.frame x (Or.inr (hsession.holds.anchored.base.trans hx))
        refine ⟨?_, ?_, ?_, himage.checksum⟩
        · rw [hpending, hsame.size, commitNext_size]
          exact himage.size
        · rw [hpending, hsame.crc, commitNext_crc]
          exact himage.crc
        · rw [hpending, commitSlot_base hsession.holds.anchored.slot, read_congr hagree, hmem]
          exact himage.bytes

end Image

end EdgeLink.Stm32Ota
