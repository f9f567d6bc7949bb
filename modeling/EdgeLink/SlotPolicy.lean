import EdgeLink.OtaDevice

namespace EdgeLink.Bootloader
open Nor App

def slotState (m : OtaMetadata) (slot : UInt8) : UInt32 :=
  if slot = blSlotB then m.appBState else m.appAState

def slotVersion (m : OtaMetadata) (slot : UInt8) : UInt32 :=
  if slot = blSlotB then m.appBVersion else m.appAVersion

/-- `m'` is `m` after some of the bookkeeping that `main` does. -/
structure Kept (m m' : OtaMetadata) : Prop extends SameImages m m' where
  tag : m'.magic = m.magic ∧ m'.schemaVersion = m.schemaVersion
  active : m'.activeSlot = m.activeSlot
  confirmed : m'.confirmedSlot = m.confirmedSlot
  version : ∀ slot, slotVersion m' slot = slotVersion m slot
  state : ∀ slot, slotState m' slot = slotState m slot ∨ slotState m' slot = imgRollback
  floor : m'.minAllowedVersion = m.minAllowedVersion

theorem Kept.refl (m : OtaMetadata) : Kept m m :=
  ⟨SameImages.refl m, ⟨rfl, rfl⟩, rfl, rfl, fun _ => rfl, fun _ => Or.inl rfl, rfl⟩

theorem Kept.tagged {m m' : OtaMetadata} (h : Kept m m') (hm : WellTagged m) : WellTagged m' :=
  ⟨h.tag.1.trans hm.1, h.tag.2.trans hm.2⟩

theorem Kept.trans {m₁ m₂ m₃ : OtaMetadata} (h : Kept m₁ m₂) (h' : Kept m₂ m₃) : Kept m₁ m₃ where
  toSameImages := h.toSameImages.trans h'.toSameImages
  tag := ⟨h'.tag.1.trans h.tag.1, h'.tag.2.trans h.tag.2⟩
  active := h'.active.trans h.active
  confirmed := h'.confirmed.trans h.confirmed
  version slot := (h'.version slot).trans (h.version slot)
  state slot := by
    rcases h'.state slot with hs | hs
    · rw [hs]
      exact h.state slot
    · exact Or.inr hs
  floor := h'.floor.trans h.floor

theorem setSlotState_state (m : OtaMetadata) (p slot : UInt8) (st : UInt32) :
    slotState (blSetSlotState m p st) slot = slotState m slot ∨
      slotState (blSetSlotState m p st) slot = st := by
  unfold slotState blSetSlotState
  by_cases hs : slot = blSlotB
  · simp only [if_pos hs]
    split_ifs
    · exact Or.inr rfl
    · exact Or.inl rfl
  · simp only [if_neg hs]
    split_ifs
    · exact Or.inl rfl
    · exact Or.inr rfl

theorem setSlotState_other {m : OtaMetadata} {p slot : UInt8} {st : UInt32}
    (hp : p = blSlotA ∨ p = blSlotB) (hs : slot = blSlotA ∨ slot = blSlotB) (hne : p ≠ slot) :
    slotState (blSetSlotState m p st) slot = slotState m slot := by
  rcases hp with rfl | rfl <;> rcases hs with rfl | rfl
  · exact absurd rfl hne
  · rfl
  · rfl
  · exact absurd rfl hne

theorem kept_rollback (m : OtaMetadata) : Kept m (rollback m) where
  toSameImages := (rollback_same m).symm
  tag := by
    unfold rollback blSetSlotState
    split_ifs <;> exact ⟨rfl, rfl⟩
  active := by
    unfold rollback blSetSlotState
    split_ifs <;> rfl
  confirmed := by
    unfold rollback blSetSlotState
    split_ifs <;> rfl
  version slot := by
    unfold rollback blSetSlotState
    split_ifs <;> rfl
  state slot := setSlotState_state m m.pendingSlot slot imgRollback
  floor := by
    unfold rollback blSetSlotState
    split_ifs <;> rfl

theorem kept_attempt (m : OtaMetadata) : Kept m (attempt m) where
  toSameImages := (attempt_same m).symm
  tag := ⟨rfl, rfl⟩
  active := rfl
  confirmed := rfl
  version _ := rfl
  state _ := Or.inl rfl
  floor := rfl

theorem kept_stamp (m : OtaMetadata) (seq : UInt16) (crc : UInt32) :
    Kept m { m with metaSeq := seq, metadataCrc32 := crc } where
  toSameImages := ⟨rfl, rfl, rfl, rfl⟩
  tag := ⟨rfl, rfl⟩
  active := rfl
  confirmed := rfl
  version _ := rfl
  state _ := Or.inl rfl
  floor := rfl

theorem kept_of_stamp (m : OtaMetadata) (seq : UInt16) (crc : UInt32) :
    Kept { m with metaSeq := seq, metadataCrc32 := crc } m where
  toSameImages := ⟨rfl, rfl, rfl, rfl⟩
  tag := ⟨rfl, rfl⟩
  active := rfl
  confirmed := rfl
  version _ := rfl
  state _ := Or.inl rfl
  floor := rfl

theorem kept_commitWork (m : OtaMetadata) : Kept m (blMetadataCommitWork m) := by
  rw [commitWork_stamp]
  exact kept_stamp m _ _

/-- What a commit adds to the record, its number and its CRC, is bookkeeping both ways. -/
theorem kept_of_commitWork (m : OtaMetadata) : Kept (blMetadataCommitWork m) m := by
  rw [commitWork_stamp]
  exact kept_of_stamp m _ _

theorem kept_updateCrc (m : OtaMetadata) : Kept m (otaMetaUpdateCrc m) := by
  rw [otaUpdateCrc_stamp]
  exact kept_stamp m m.metaSeq _

/-- One slot is active and confirmed, fit to run, and not the pending one. -/
structure Settled (m : OtaMetadata) : Prop where
  slot : m.activeSlot = blSlotA ∨ m.activeSlot = blSlotB
  confirmed : m.confirmedSlot = m.activeSlot
  pending : m.pendingSlot ≠ m.activeSlot
  state : slotState m m.activeSlot = imgValid ∨ slotState m m.activeSlot = imgConfirmed

theorem settled_stamp {m : OtaMetadata} (h : Settled m) (seq : UInt16) (crc : UInt32) :
    Settled { m with metaSeq := seq, metadataCrc32 := crc } :=
  ⟨h.slot, h.confirmed, h.pending, h.state⟩

theorem settled_commitWork {m : OtaMetadata} (h : Settled m) : Settled (blMetadataCommitWork m) := by
  rw [commitWork_stamp]
  exact settled_stamp h _ _

theorem settled_updateCrc {m : OtaMetadata} (h : Settled m) : Settled (otaMetaUpdateCrc m) :=
  settled_stamp h m.metaSeq _

theorem settled_attempt {m : OtaMetadata} (h : Settled m) : Settled (attempt m) :=
  ⟨h.slot, h.confirmed, h.pending, h.state⟩

theorem slotNone_ne {slot : UInt8} (h : slot = blSlotA ∨ slot = blSlotB) : blSlotNone ≠ slot := by
  rcases h with rfl | rfl <;> decide

theorem settled_rollback {m : OtaMetadata} (h : Settled m)
    (hp : m.pendingSlot = blSlotA ∨ m.pendingSlot = blSlotB) : Settled (rollback m) := by
  have hk := kept_rollback m
  have hst : slotState (rollback m) m.activeSlot = slotState m m.activeSlot :=
    setSlotState_other hp h.slot h.pending
  exact ⟨hk.active ▸ h.slot, by rw [hk.confirmed, hk.active, h.confirmed],
    by rw [hk.active]; exact slotNone_ne h.slot, by rw [hk.active, hst]; exact h.state⟩

/-- A settled record only admits the slot that is neither active nor confirmed. -/
theorem targetAllowed_eq {m : OtaMetadata} {t : UInt32} (h : Settled m)
    (ht : blPrepareTargetAllowed m t = true) : t = blPickTargetSlot m := by
  have hs := prepareTargetAllowed_slot ht
  obtain ⟨ha, hc, hp, hst⟩ := h
  have hne : ¬ ((m.appAState = imgInvalid ∨ m.appAState = imgRollback) ∧
      (m.appBState = imgInvalid ∨ m.appBState = imgRollback)) := by
    rintro ⟨hA, hB⟩
    unfold slotState at hst
    split_ifs at hst
    · rcases hB with hB | hB <;> rw [hB] at hst <;> exact absurd hst (by decide)
    · rcases hA with hA | hA <;> rw [hA] at hst <;> exact absurd hst (by decide)
  unfold blPrepareTargetAllowed at ht
  rw [if_neg hne, hc] at ht
  unfold blPickTargetSlot
  rcases ha with ha | ha <;> rcases hs with rfl | rfl <;> rw [ha] at ht ⊢ <;>
    first | rfl | exact absurd ht (by decide)

/-- The slot that a settled record leaves to updates. -/
def idleSlot (m : OtaMetadata) : UInt8 := if m.activeSlot = blSlotA then blSlotB else blSlotA

theorem idleSlot_base (m : OtaMetadata) : blSlotBase (idleSlot m) = blPickTargetSlot m := by
  unfold idleSlot blPickTargetSlot
  split_ifs <;> rfl

theorem idleSlot_ne {m : OtaMetadata} (h : Settled m) : idleSlot m ≠ m.activeSlot := by
  unfold idleSlot
  rcases h.slot with ha | ha <;> rw [ha] <;> decide

theorem idleSlot_cases (m : OtaMetadata) : idleSlot m = blSlotA ∨ idleSlot m = blSlotB := by
  unfold idleSlot
  split_ifs
  · exact Or.inr rfl
  · exact Or.inl rfl

theorem commitSlot_idle {g : BlOtaCtx} {m : OtaMetadata} (h : g.targetBase = blPickTargetSlot m) :
    commitSlot g = idleSlot m := by
  unfold commitSlot idleSlot
  rw [h, blPickTargetSlot]
  split_ifs <;> first | rfl | contradiction

theorem commitNext_active (g : BlOtaCtx) (m : OtaMetadata) :
    (commitNext g m).activeSlot = m.activeSlot ∧
      (commitNext g m).confirmedSlot = m.confirmedSlot ∧
      (commitNext g m).minAllowedVersion = m.minAllowedVersion := by
  unfold commitNext
  split_ifs <;> exact ⟨rfl, rfl, rfl⟩

theorem commitNext_state (g : BlOtaCtx) (m : OtaMetadata) :
    slotState (commitNext g m) (commitSlot g) = imgPending := by
  unfold commitNext slotState
  rcases commitSlot_cases g with h | h <;> rw [h] <;> rfl

theorem commitNext_version (g : BlOtaCtx) (m : OtaMetadata) :
    slotVersion (commitNext g m) (commitSlot g) = g.imageVersion := by
  unfold commitNext slotVersion
  rcases commitSlot_cases g with h | h <;> rw [h] <;> rfl

/-- COMMIT leaves everything recorded about the other slot alone. -/
theorem commitNext_other {g : BlOtaCtx} {m : OtaMetadata} {slot : UInt8}
    (hs : slot = blSlotA ∨ slot = blSlotB) (hne : commitSlot g ≠ slot) :
    slotState (commitNext g m) slot = slotState m slot ∧
      slotVersion (commitNext g m) slot = slotVersion m slot ∧
      blSlotImageSize (commitNext g m) slot = blSlotImageSize m slot ∧
      blSlotCrc (commitNext g m) slot = blSlotCrc m slot := by
  unfold commitNext
  rcases commitSlot_cases g with hc | hc <;> rw [hc] at hne ⊢ <;> rcases hs with rfl | rfl
  · exact absurd rfl hne
  · exact ⟨rfl, rfl, rfl, rfl⟩
  · exact ⟨rfl, rfl, rfl, rfl⟩
  · exact absurd rfl hne

theorem settled_commitNext {g : BlOtaCtx} {m : OtaMetadata} (h : Settled m)
    (ht : g.targetBase = blPickTargetSlot m) : Settled (commitNext g m) := by
  obtain ⟨ha, hc, -⟩ := commitNext_active g m
  have hne : commitSlot g ≠ m.activeSlot := commitSlot_idle ht ▸ idleSlot_ne h
  have hst := (@commitNext_other g m m.activeSlot h.slot hne).1
  exact ⟨ha ▸ h.slot, by rw [hc, ha, h.confirmed], by rw [ha, commitNext_pending]; exact hne,
    by rw [ha, hst]; exact h.state⟩

theorem currentSlot_cases (vec : UInt32) :
    otaCurrentSlot vec = blSlotA ∨ otaCurrentSlot vec = blSlotB := by
  unfold otaCurrentSlot
  split_ifs
  · exact Or.inr rfl
  · exact Or.inl rfl

theorem currentSlot_base {slot : UInt8} (h : slot = blSlotA ∨ slot = blSlotB) :
    otaCurrentSlot (blSlotBase slot) = slot := by
  rcases h with rfl | rfl <;> decide

/-- A confirmation makes the running slot active and confirmed. -/
theorem settled_confirmNext {m : OtaMetadata} {slot : UInt8}
    (hs : slot = blSlotA ∨ slot = blSlotB) : Settled (confirmNext m slot) := by
  unfold confirmNext
  rcases hs with rfl | rfl
  · exact ⟨Or.inl rfl, rfl, (by decide : blSlotNone ≠ blSlotA), Or.inr rfl⟩
  · exact ⟨Or.inr rfl, rfl, (by decide : blSlotNone ≠ blSlotB), Or.inr rfl⟩

theorem confirmNext_active (m : OtaMetadata) (slot : UInt8) :
    (confirmNext m slot).activeSlot = slot := by
  unfold confirmNext
  split_ifs <;> rfl

theorem confirmNext_same (m : OtaMetadata) (slot : UInt8) : SameImages m (confirmNext m slot) := by
  unfold confirmNext
  split_ifs <;> exact ⟨rfl, rfl, rfl, rfl⟩

/-- A commit of bookkeeping leaves the record in force and the one in RAM equally good. -/
theorem InForce.commit_kept {fl : Mem} {slots : List LittleEndian.Bytes} {cur m : OtaMetadata}
    (h : InForce fl slots cur) (hk : Kept cur m) :
    ∃ slots' cur', InForce (blMetadataCommit (Ctl.start fl none) m).1.mem slots' cur' ∧
      Kept cur cur' ∧ Kept cur' m ∧ (Settled cur → Settled m → Settled cur') := by
  obtain ⟨cur', hf, hc | hc⟩ := h.commit (hk.tagged h.tagged)
  · rw [hc] at hf
    exact ⟨_, _, hf, hk.trans (kept_commitWork m), kept_of_commitWork m,
      fun _ hm => settled_commitWork hm⟩
  · rw [hc] at hf
    exact ⟨_, _, hf, Kept.refl cur, hk, fun hs _ => hs⟩

/-- What the confirmation does, given the record in force. -/
theorem InForce.confirm {fl : Mem} {slots : List LittleEndian.Bytes} {cur : OtaMetadata}
    (h : InForce fl slots cur) (slot : UInt8) :
    Bootloader.confirm fl slot = (⟨fl, .app slot⟩, silent) ∨
    cur.pendingSlot = otaCurrentSlot (blSlotBase slot) ∧
      slotState cur cur.pendingSlot = imgPending ∧
      Bootloader.confirm fl slot =
        let next := confirmNext cur (otaCurrentSlot (blSlotBase slot))
        let fl' := (otaMetaCommit (Ctl.start fl none) next).1.mem
        (⟨fl', .app slot⟩, ⟨[], [(otaMetaUpdateCrc next, fl')], none, none⟩) := by
  unfold Bootloader.confirm gatewayConfirmSlotEarly
  rw [Ctl.start_mem, h.otaLoad]
  dsimp only
  by_cases hp : cur.pendingSlot ≠ otaCurrentSlot (blSlotBase slot)
  · rw [if_pos hp]
    exact Or.inl rfl
  rw [if_neg hp]
  split_ifs with hst
  · exact Or.inl rfl
  · push Not at hp
    refine Or.inr ⟨hp, ?_, rfl⟩
    rw [hp]
    have hs := currentSlot_cases (blSlotBase slot)
    generalize otaCurrentSlot (blSlotBase slot) = s at hs hst
    push Not at hst
    rcases hs with rfl | rfl
    · exact hst.1 rfl
    · exact hst.2 rfl

end EdgeLink.Bootloader
