import EdgeLink.SessionFrames
import EdgeLink.SlotPolicy

namespace EdgeLink.Bootloader
open LittleEndian Nor Machine App Journal

def Pends (m : OtaMetadata) : Prop := m.pendingSlot = blSlotA ∨ m.pendingSlot = blSlotB

/-- The metadata with which an event enters the end of `main`. -/
def enters (d : Device) : Event → Option OtaMetadata
  | .reset false => some (blMetadataLoadOrDefault d.flash)
  | .idle =>
    match d.mode with
    | .loop _ m false => some m
    | _ => none
  | _ => none

/-- `main` enters its pending-slot branch only when no erased record is left. -/
def NoRebooking (d : Device) (e : Event) : Prop :=
  ∀ m, enters d e = some m → Pends m → blMetaFindAppendAddr d.flash = none

/-- Both readers find the record `w`. -/
def Wins (w : OtaMetadata) (fl : Mem) : Prop :=
  blMetadataLoadOrDefault fl = w ∧ otaMetaLoad fl = some w

def LastWriterWins (d : Device) (e : Event) : Prop :=
  ∀ p ∈ (step d e).2.written, Wins p.1 p.2

theorem seq_next (s : UInt16) : s + 1 - s = 1 := by
  rw [UInt16.add_comm]
  exact UInt16.add_sub_cancel 1 s

theorem seqIsNewer_next (s : UInt16) : blMetaSeqIsNewer (s + 1) s = true := by
  rw [blMetaSeqIsNewer, seq_next]
  decide

/-- Skipping 0 does not make the next number older. -/
theorem seqIsNewer_stamped (s : UInt16) :
    blMetaSeqIsNewer (if s + 1 = 0 then 1 else s + 1) s = true := by
  split_ifs with h
  · have hs : s = 0xFFFF := by
      have hn := congrArg UInt16.toNat h
      have hlt := s.toNat_lt
      apply UInt16.toNat.inj
      rw [UInt16.toNat_add, UInt16.toNat_one, UInt16.toNat_zero] at hn
      change s.toNat = 65535
      omega
    rw [hs]
    decide
  · exact seqIsNewer_next s

section Commits

variable {fl : Mem} {slots : List Bytes} {cur m : OtaMetadata}

theorem InForce.wins (h : InForce fl slots cur) : Wins cur fl := ⟨h.load, h.otaLoad⟩

/-- COMMIT wins. -/
theorem InForce.commitNext_wins {g : BlOtaCtx} (h : InForce fl slots cur) (hm : WellTagged m)
    (hs : m.metaSeq = cur.metaSeq) :
    InForce (blMetadataCommit (Ctl.start fl none) (commitNext g m)).1.mem
      (journalPut slots (blMetadataCommitWork (commitNext g m)))
      (blMetadataCommitWork (commitNext g m)) := by
  have ht : WellTagged (commitNext g m) := commitNext_tagged hm
  refine ⟨(commit_spec h.shaped ht).2.1, latest_put_newer (commitWork_valid ht) fun b hb => ?_⟩
  rw [h.latest] at hb
  cases hb
  rw [recNewer, commitWork_seq, commitNext_seq, hs]
  exact seqIsNewer_stamped cur.metaSeq

/-- The confirmation wins. -/
theorem InForce.confirmNext_wins (h : InForce fl slots cur) (slot : UInt8) :
    InForce (otaMetaCommit (Ctl.start fl none) (confirmNext cur slot)).1.mem
      (journalPut slots (otaMetaUpdateCrc (confirmNext cur slot)))
      (otaMetaUpdateCrc (confirmNext cur slot)) := by
  have ht : WellTagged (confirmNext cur slot) := confirmNext_tagged h.tagged
  refine ⟨(otaCommit_spec h.shaped ht).1, latest_put_newer (otaUpdateCrc_valid ht) fun b hb => ?_⟩
  rw [h.latest] at hb
  cases hb
  rw [recNewer, otaUpdateCrc_seq, confirmNext_seq]
  exact seqIsNewer_next cur.metaSeq

/-- A commit over a sector without a valid record wins. -/
theorem heal_wins (h : MetaShaped fl slots) (hno : latest slots = none) (hm : WellTagged m) :
    InForce (blMetadataCommit (Ctl.start fl none) m).1.mem
      (journalPut slots (blMetadataCommitWork m)) (blMetadataCommitWork m) := by
  refine ⟨(commit_spec h hm).2.1, latest_put_newer (commitWork_valid hm) fun b hb => ?_⟩
  rw [hno] at hb
  cases hb

/-- Boot bookkeeping keeps the number, so appended to a sector it leaves the old record in force. -/
theorem InForce.rebooking_room (h : InForce fl slots cur) (hm : WellTagged m)
    (hs : m.metaSeq = cur.metaSeq) (h0 : cur.metaSeq ≠ 0) (hroom : blMetaFindAppendAddr fl ≠ none) :
    InForce (blMetadataCommit (Ctl.start fl none) m).1.mem
      (journalPut slots (blMetadataCommitWork m)) cur := by
  have hold : recNewer (blMetadataCommitWork m) cur = false := by
    rw [recNewer, commitWork_seq, hs, if_neg h0, seqIsNewer_self]
  have hlen : slots.length < blMetaMaxRecords := by
    by_contra hno
    rw [findAppendAddr_eq h.shaped, if_neg hno] at hroom
    exact hroom rfl
  exact ⟨(commit_spec h.shaped hm).2.1, latest_put_older (commitWork_valid hm) hlen h.latest hold⟩

theorem InForce.rebooking_full (h : InForce fl slots cur) (hm : WellTagged m)
    (hfull : blMetaFindAppendAddr fl = none) :
    InForce (blMetadataCommit (Ctl.start fl none) m).1.mem
      (journalPut slots (blMetadataCommitWork m)) (blMetadataCommitWork m) := by
  refine ⟨(commit_spec h.shaped hm).2.1, latest_put_full (commitWork_valid hm) fun hroom => ?_⟩
  rw [findAppendAddr_eq h.shaped, if_pos hroom] at hfull
  cases hfull

/-- So it wins exactly when it recycles the sector. -/
theorem InForce.rebooking_wins_iff (h : InForce fl slots cur) (hm : WellTagged m)
    (hs : m.metaSeq = cur.metaSeq) (h0 : cur.metaSeq ≠ 0) (hne : blMetadataCommitWork m ≠ cur) :
    Wins (blMetadataCommitWork m) (blMetadataCommit (Ctl.start fl none) m).1.mem ↔
      blMetaFindAppendAddr fl = none := by
  constructor
  · intro hw
    by_contra hroom
    exact hne (hw.1.symm.trans (h.rebooking_room hm hs h0 hroom).load)
  · intro hfull
    exact (h.rebooking_full hm hfull).wins

end Commits

theorem rollback_ne {m : OtaMetadata} (hp : Pends m) : blMetadataCommitWork (rollback m) ≠ m := by
  intro h
  have hn := congrArg OtaMetadata.pendingSlot h
  rw [commitWork_stamp] at hn
  have hnone : m.pendingSlot = blSlotNone := hn.symm.trans (rollback_pending m)
  rcases hp with hp | hp <;> rw [hp] at hnone <;> exact absurd hnone (by decide)

theorem attempt_ne (m : OtaMetadata) : blMetadataCommitWork (attempt m) ≠ m := by
  intro h
  have hn := congrArg OtaMetadata.bootAttempts h
  rw [commitWork_stamp] at hn
  have hone : m.bootAttempts + 1 = m.bootAttempts := hn
  have ht := congrArg UInt8.toNat hone
  have hlt := m.bootAttempts.toNat_lt
  rw [UInt8.toNat_add, UInt8.toNat_one] at ht
  omega

def Numbered (m : OtaMetadata) : Prop := Pends m → m.metaSeq ≠ 0

structure InLoop (slots : List Bytes) (g : BlOtaCtx) (m : OtaMetadata) (final : Bool) : Prop where
  session : g.active = true → Anchored g
  tagged : WellTagged m
  number : ∃ cur, latest slots = some cur ∧ m.metaSeq = cur.metaSeq
  copy : final = false → latest slots = some m

def Sequenced (d : Device) : Prop :=
  ∃ slots, MetaShaped d.flash slots ∧ (∀ cur, latest slots = some cur → Numbered cur) ∧
    ∀ g m final, d.mode = .loop g m final → InLoop slots g m final

theorem numbered_work (m : OtaMetadata) : Numbered (blMetadataCommitWork m) := by
  intro _
  rw [commitWork_seq]
  split_ifs with h0
  · decide
  · exact h0

theorem numbered_confirmed (m : OtaMetadata) (slot : UInt8) :
    Numbered (otaMetaUpdateCrc (confirmNext m slot)) := by
  intro hp
  have hnone : (otaMetaUpdateCrc (confirmNext m slot)).pendingSlot = otaSlotNone := by
    rw [otaUpdateCrc_stamp]
    exact confirmNext_pending m slot
  rcases hp with hp | hp <;> rw [hnone] at hp <;> exact absurd hp (by decide)

theorem inForce_numbered {fl : Mem} {slots : List Bytes} {cur : OtaMetadata}
    (h : InForce fl slots cur) (hn : Numbered cur) :
    ∀ b, latest slots = some b → Numbered b := by
  intro b hb
  rw [h.latest] at hb
  cases hb
  exact hn

/-- A state in which no loop runs. -/
theorem sequenced_of_idle {d : Device} {slots : List Bytes} {cur : OtaMetadata}
    (h : InForce d.flash slots cur) (hn : Numbered cur) (hm : ∀ g m final, d.mode ≠ .loop g m final) :
    Sequenced d :=
  ⟨slots, h.shaped, inForce_numbered h hn, fun g m final hl => absurd hl (hm g m final)⟩

/-- A state in which the loop was just entered. -/
theorem sequenced_of_entry {fl : Mem} {slots : List Bytes} {cur m : OtaMetadata} (final : Bool)
    (h : InForce fl slots cur) (hn : Numbered cur) (hm : WellTagged m)
    (hs : m.metaSeq = cur.metaSeq) (hc : final = false → m = cur) :
    Sequenced ⟨fl, .loop blCtxReset m final⟩ := by
  refine ⟨slots, h.shaped, inForce_numbered h hn, fun g m' final' hl => ?_⟩
  cases hl
  exact ⟨fun ha => absurd ha (by decide), hm, ⟨cur, h.latest, hs⟩, fun hf => hc hf ▸ h.latest⟩

theorem sequenced_exit {fl : Mem} {slots : List Bytes} {cur m : OtaMetadata} (x : BootExit)
    (h : InForce fl slots cur) (hn : Numbered cur) (hm : WellTagged m)
    (hs : m.metaSeq = cur.metaSeq) : Sequenced ⟨fl, exitMode m x⟩ := by
  cases x with
  | jump slot pending =>
    exact sequenced_of_idle h hn fun g m final hl => by cases hl
  | stay => exact sequenced_of_entry true h hn hm hs fun hf => by cases hf

/-- The end of `main` from the record in force. -/
theorem boot_sequenced {fl : Mem} {slots : List Bytes} {m : OtaMetadata} (h : InForce fl slots m)
    (hn : Numbered m) :
    let r := boot (Ctl.start fl none) m []
    Sequenced r.1 ∧
      ((Pends m → blMetaFindAppendAddr fl = none) ↔ ∀ p ∈ r.2.written, Wins p.1 p.2) := by
  have hcommit : ∀ x : OtaMetadata, WellTagged x → x.metaSeq = m.metaSeq →
      blMetadataCommitWork x ≠ m → Pends m → ∀ e : BootExit,
      let fl' := (blMetadataCommit (Ctl.start fl none) x).1.mem
      Sequenced ⟨fl', exitMode x e⟩ ∧
        ((Pends m → blMetaFindAppendAddr fl = none) ↔ Wins (blMetadataCommitWork x) fl') := by
    intro x hx hs hne hp e
    constructor
    · by_cases hfull : blMetaFindAppendAddr fl = none
      · apply sequenced_exit e (h.rebooking_full hx hfull) (numbered_work x) hx
        rw [commitWork_seq, hs, if_neg (hn hp)]
      · exact sequenced_exit e (h.rebooking_room hx hs (hn hp) hfull) hn hx hs
    · rw [h.rebooking_wins_iff hx hs (hn hp) hne]
      exact ⟨fun hfull => hfull hp, fun hno _ => hno⟩
  dsimp only [boot]
  rcases mainBoot_cases (Ctl.start fl none) m with ⟨hp, hb⟩ | ⟨hp, -, hb⟩ | ⟨hp, -, -, hb⟩
  · rw [hb]
    refine ⟨sequenced_exit _ h hn h.tagged rfl, fun _ p hmem => ?_, fun _ hp' => ?_⟩
    · exact absurd hmem (by simp [blWritten])
    · exact absurd hp' hp
  · rw [hb]
    obtain ⟨hseq, hiff⟩ := hcommit (rollback m) (rollback_tagged h.tagged) (rollback_seq m)
      (rollback_ne hp) hp (blMainFallback (blMetadataCommit (Ctl.start fl none)
        (rollback m)).1.mem (rollback m))
    refine ⟨hseq, hiff.trans ?_⟩
    simp [blWritten]
  · rw [hb]
    obtain ⟨hseq, hiff⟩ := hcommit (attempt m) (attempt_tagged h.tagged) rfl (attempt_ne m) hp
      (.jump m.pendingSlot true)
    refine ⟨hseq, hiff.trans ?_⟩
    simp [blWritten]

theorem default_work : blMetadataCommitWork blMetadataDefault = blMetadataDefault := by
  have h0 : blMetadataDefault.metaSeq ≠ 0 := by decide
  rw [blMetadataCommitWork, if_neg h0]
  exact updateCrc_idem _

theorem default_pends : ¬ Pends blMetadataDefault := by
  unfold Pends
  decide

/-- A boot from a sector without a valid record heals it. -/
theorem reset_heals {fl : Mem} {slots : List Bytes} (h : MetaShaped fl slots)
    (hno : latest slots = none) (flag : Bool) :
    let fl' := (blMetadataCommit (Ctl.start fl none) blMetadataDefault).1.mem
    InForce fl' (journalPut slots blMetadataDefault) blMetadataDefault ∧
      (reset fl flag).2.written = [(blMetadataDefault, fl')] ∧
      (reset fl flag).1 = if flag then ⟨fl', .loop blCtxReset blMetadataDefault false⟩
        else ⟨fl', exitMode blMetadataDefault (blMainFallback fl' blMetadataDefault)⟩ := by
  have hin := heal_wins h hno (m := blMetadataDefault) ⟨rfl, rfl⟩
  rw [default_work] at hin
  have hany : blMetadataAnyValid (Ctl.start fl none).mem = false := by
    rw [Ctl.start_mem, anyValid_eq h, hno]
    rfl
  have hload : blMainLoad (Ctl.start fl none) =
      ((blMetadataCommit (Ctl.start fl none) blMetadataDefault).1, blMetadataDefault,
        some blMetadataDefault) := by
    rw [blMainLoad, hany]
    rfl
  refine ⟨hin, ?_⟩
  unfold reset
  rw [hload]
  dsimp only
  cases flag with
  | true =>
    rw [if_pos rfl]
    exact ⟨by simp [blWritten, default_work], rfl⟩
  | false =>
    rw [if_neg (by simp)]
    dsimp only [boot]
    rcases mainBoot_cases (blMetadataCommit (Ctl.start fl none) blMetadataDefault).1
      blMetadataDefault with ⟨-, hb⟩ | ⟨hp, -⟩ | ⟨hp, -⟩
    · rw [hb]
      exact ⟨by simp [blWritten, default_work], rfl⟩
    · exact absurd hp default_pends
    · exact absurd hp default_pends

/-- The event keeps the invariant, and it rebooks nothing exactly if its last writer wins. -/
def Settles (d : Device) (e : Event) : Prop :=
  Sequenced (step d e).1 ∧ (NoRebooking d e ↔ LastWriterWins d e)

/-- An event without a boot has nothing to rebook, so its commits have to win. -/
theorem settles_of_wins {d : Device} {e : Event} (hno : enters d e = none)
    (hs : Sequenced (step d e).1) (hw : LastWriterWins d e) : Settles d e := by
  refine ⟨hs, fun _ => hw, fun _ m hm => ?_⟩
  rw [hno] at hm
  cases hm

theorem settles_of_silent {d d' : Device} {e : Event} (hno : enters d e = none)
    (hst : step d e = (d', silent)) (hs : Sequenced d') : Settles d e := by
  apply settles_of_wins hno
  · rw [hst]
    exact hs
  · intro p hp
    rw [hst] at hp
    exact absurd hp List.not_mem_nil

theorem settles_boot {d : Device} {e : Event} {slots : List Bytes} {m : OtaMetadata}
    (hin : InForce d.flash slots m) (hn : Numbered m) (hent : enters d e = some m)
    (hst : step d e = boot (Ctl.start d.flash none) m []) : Settles d e := by
  have hcond : NoRebooking d e ↔ (Pends m → blMetaFindAppendAddr d.flash = none) := by
    unfold NoRebooking
    rw [hent]
    exact ⟨fun h => h m rfl, fun h m' hm' => by cases hm'; exact h⟩
  unfold Settles
  rw [hcond, LastWriterWins, hst]
  exact boot_sequenced hin hn

section Settles
variable {fl : Mem} {slots : List Bytes}

/-- A sector without a valid record is healed, whatever the reset pin says. -/
theorem heal_settles (hsh : MetaShaped fl slots) (hl : latest slots = none) (mode : Mode)
    (flag : Bool) : Settles ⟨fl, mode⟩ (.reset flag) := by
  obtain ⟨hin, hw, hmode⟩ := reset_heals hsh hl flag
  have hn : Numbered blMetadataDefault := fun hp => absurd hp default_pends
  have hseq : Sequenced (step ⟨fl, mode⟩ (.reset flag)).1 := by
    rw [step_reset, hmode]
    split_ifs
    · exact sequenced_of_entry false hin hn hin.tagged rfl fun _ => rfl
    · exact sequenced_exit _ hin hn hin.tagged rfl
  have hwins : LastWriterWins ⟨fl, mode⟩ (.reset flag) := by
    intro p hp
    rw [step_reset, hw, List.mem_singleton] at hp
    rw [hp]
    exact hin.wins
  refine ⟨hseq, fun _ => hwins, fun _ m hm hp => ?_⟩
  cases flag with
  | true => cases hm
  | false =>
    -- the defaults pend no slot
    have hdef : blMetadataLoadOrDefault fl = blMetadataDefault := by
      rw [loadOrDefault_eq hsh, hl]
      rfl
    cases hm
    rw [hdef] at hp
    exact absurd hp default_pends

theorem frame_settles {g : BlOtaCtx} {m : OtaMetadata} {final : Bool} (hsh : MetaShaped fl slots)
    (hnum : ∀ cur, latest slots = some cur → Numbered cur) (hloop : InLoop slots g m final)
    (f : Frame) (life : Option ℕ) : Settles ⟨fl, .loop g m final⟩ (.frame f life) := by
  obtain ⟨hses, htag, ⟨cur, hl, hs⟩, hcopy⟩ := hloop
  have hin : InForce fl slots cur := ⟨hsh, hl⟩
  by_cases hf : f.type = blDnOtaCommit
  · rcases receive_commit final life hsh htag hf with ⟨seq, err, hr⟩ | ⟨-, -, fl', hfl, hr⟩
    · have hst : step ⟨fl, .loop g m final⟩ (.frame f life) = _ := hr
      apply settles_of_wins rfl
      · rw [hst]
        refine ⟨slots, hsh, hnum, fun g₁ m₁ final₁ he => ?_⟩
        cases he
        exact ⟨hses, htag, ⟨cur, hl, hs⟩, hcopy⟩
      · intro p hp
        rw [hst] at hp
        exact absurd hp List.not_mem_nil
    · have hst : step ⟨fl, .loop g m final⟩ (.frame f life) = _ := hr
      have hnew := @InForce.commitNext_wins _ _ _ _ g hin htag hs
      rw [← hfl] at hnew
      apply settles_of_wins rfl
      · rw [hst]
        exact sequenced_of_idle hnew (numbered_work _) fun _ _ _ hl => by cases hl
      · intro p hp
        rw [hst, List.mem_singleton] at hp
        rw [hp]
        exact hnew.wins
  · obtain ⟨fl', g', hagree, hses', hst, hw, -⟩ := @receive_quiet g m fl f final life hses hf
    have hin' := hin.congr hagree
    apply settles_of_wins rfl
    · change Sequenced (receive fl g m final f life).1
      rw [hst]
      refine ⟨slots, hin'.shaped, hnum, fun g₁ m₁ final₁ he => ?_⟩
      cases he
      exact ⟨hses', htag, ⟨cur, hl, hs⟩, hcopy⟩
    · intro p hp
      change p ∈ (receive fl g m final f life).2.written at hp
      rw [hw] at hp
      exact absurd hp List.not_mem_nil

theorem confirm_settles (hsh : MetaShaped fl slots)
    (hnum : ∀ cur, latest slots = some cur → Numbered cur) (slot : UInt8) :
    Settles ⟨fl, .app slot⟩ .confirm := by
  have hidle : Sequenced ⟨fl, .app slot⟩ := ⟨slots, hsh, hnum, fun _ _ _ h => by cases h⟩
  rcases hl : latest slots with _ | cur
  · have hno : otaMetaLoad fl = none := by rw [otaMetaLoad_eq, findLatest_eq hsh, hl]
    refine settles_of_silent rfl ?_ hidle
    change confirm fl slot = _
    unfold confirm App.gatewayConfirmSlotEarly
    rw [Ctl.start_mem, hno]
    rfl
  · have hin : InForce fl slots cur := ⟨hsh, hl⟩
    rcases hin.confirm slot with hc | ⟨-, -, hc⟩
    · exact settles_of_silent rfl hc hidle
    · have hst : step ⟨fl, .app slot⟩ .confirm = _ := hc
      have hnew := hin.confirmNext_wins (otaCurrentSlot (blSlotBase slot))
      apply settles_of_wins rfl
      · rw [hst]
        exact sequenced_of_idle hnew (numbered_confirmed _ _) fun _ _ _ hl => by cases hl
      · intro p hp
        rw [hst, List.mem_singleton] at hp
        rw [hp]
        exact hnew.wins

end Settles

/-- What one event does to the invariant, and when its commits win. -/
theorem step_sequenced {d : Device} {e : Event} (hd : Sequenced d) :
    Sequenced (step d e).1 ∧ (NoRebooking d e ↔ LastWriterWins d e) := by
  obtain ⟨fl, mode⟩ := d
  obtain ⟨slots, hsh, hnum, hloop⟩ := id hd
  dsimp only at hsh hloop
  cases e with
  | reset flag =>
    rcases hl : latest slots with _ | cur
    · exact heal_settles hsh hl mode flag
    · have hin : InForce fl slots cur := ⟨hsh, hl⟩
      cases flag with
      | true =>
        have hst : step ⟨fl, mode⟩ (.reset true) = (⟨fl, .loop blCtxReset cur false⟩, silent) :=
          hin.reset true
        apply settles_of_silent rfl hst
        exact sequenced_of_entry false hin (hnum cur hl) hin.tagged rfl fun _ => rfl
      | false => exact settles_boot hin (hnum cur hl) (congrArg some hin.load) (hin.reset false)
  | frame f life =>
    cases mode with
    | off => exact settles_of_silent rfl rfl hd
    | app slot => exact settles_of_silent rfl rfl hd
    | loop g m final => exact frame_settles hsh hnum (hloop g m final rfl) f life
  | idle =>
    cases mode with
    | off => exact settles_of_silent rfl rfl hd
    | app slot => exact settles_of_silent rfl rfl hd
    | loop g m final =>
      cases final with
      | true => exact settles_of_silent rfl rfl hd
      | false =>
        have hcopy := (hloop g m false rfl).copy rfl
        exact settles_boot ⟨hsh, hcopy⟩ (hnum m hcopy) rfl rfl
  | confirm =>
    cases mode with
    | off => exact settles_of_silent rfl rfl hd
    | loop g m final => exact settles_of_silent rfl rfl hd
    | app slot => exact confirm_settles hsh hnum slot

/-- Over every run, each commit is what both readers return next exactly as long as `main` enters
its pending-slot branch only with a full sector: there it commits with the number unchanged. -/
theorem last_writer_wins_iff {fl : Mem} {slots : List Bytes} (h : MetaShaped fl slots)
    (hn : ∀ cur, latest slots = some cur → Numbered cur) (es : List Event) :
    Always step NoRebooking ⟨fl, .off⟩ es ↔ Always step LastWriterWins ⟨fl, .off⟩ es := by
  apply always_iff_of_invariant (I := Sequenced)
  · exact fun d e hd _ => (step_sequenced hd).1
  · exact fun d e hd => (step_sequenced hd).2
  · exact ⟨slots, h, hn, fun g m final hl => by cases hl⟩

/-- From an erased chip: an update is committed, and the next boot rolls it back in vain. -/
def vainRollback : List Event :=
  [.reset true, .frame (prepareFrame 1 8 0 8) none, .frame (commitFrame 2) none, .reset false]

theorem blank_shaped : MetaShaped blankFlash [] := shaped_erased fun _ _ _ => rfl

theorem blank_last_writer_wins_iff : Always step NoRebooking ⟨blankFlash, .off⟩ vainRollback ↔
    Always step LastWriterWins ⟨blankFlash, .off⟩ vainRollback :=
  last_writer_wins_iff blank_shaped (fun cur hl => by cases hl) vainRollback

theorem vainRollback_loses : ¬ Always step LastWriterWins ⟨blankFlash, .off⟩ vainRollback := by
  obtain ⟨hin, -, hst⟩ := reset_heals blank_shaped rfl true
  have hblank := commit_slots blank_shaped (m := blMetadataDefault) ⟨rfl, rfl⟩ blSlotB
  generalize (blMetadataCommit (Ctl.start blankFlash none) blMetadataDefault).1.mem = fl
    at hin hst hblank
  let f := prepareFrame 1 8 0 8
  let g := prepareCtx f.payload blAppBBase
  have hb : Blank fl blAppBBase.toNat blAppASize.toNat := fun x hx hx' => (hblank x hx hx').symm
  have hnone : prepareError blMetadataDefault (prepareFields blCtxReset f.payload)
      (prepareTarget blMetadataDefault f.payload) = none := by decide
  have hopen : (step ⟨fl, .loop blCtxReset blMetadataDefault false⟩ (.frame f none)).1 =
      ⟨fl, .loop g blMetadataDefault false⟩ :=
    (receive_prepare_blank false rfl (by decide) hnone hb).1
  have hcommit : (step ⟨fl, .loop g blMetadataDefault false⟩ (.frame (commitFrame 2) none)).1 =
      ⟨(blMetadataCommit (Ctl.start fl none) (commitNext g blMetadataDefault)).1.mem, .off⟩ :=
    congrArg Prod.fst (receive_commit_next false none hin.shaped hin.tagged rfl (by decide))
  have hnew := hin.commitNext_wins (g := g) hin.tagged rfl
  have hpend : Pends (blMetadataCommitWork (commitNext g blMetadataDefault)) := by
    rw [commitWork_stamp]
    exact Or.inr rfl
  intro h
  have hlast := h.2.2.2.1
  rw [step_reset, hst, if_pos rfl, hopen, hcommit] at hlast
  have hno := (step_sequenced (sequenced_of_idle hnew (numbered_work _)
    fun _ _ _ hl => by cases hl)).2.mpr hlast _ (congrArg some hnew.load) hpend
  rw [findAppendAddr_eq hnew.shaped, if_pos (by decide)] at hno
  cases hno

end EdgeLink.Bootloader
