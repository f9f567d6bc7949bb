import EdgeLink.MetadataJournal

namespace EdgeLink.Bootloader
open LittleEndian Nor Journal

/-- The word at an address, as the Cortex-M4 reads it. -/
def wordAt (fl : Mem) (a : ℕ) : UInt32 := read32 (read fl a 4) 0

def blIsVectorValid (fl : Mem) (app_base : UInt32) : Bool :=
  let initial_sp := wordAt fl app_base.toNat
  let reset_handler := wordAt fl (app_base.toNat + 4)
  if initial_sp &&& 0x2FFE0000 ≠ 0x20000000 then false
  else if reset_handler < blFlashBase ∨ reset_handler ≥ blFlashBase + 0x100000 then false
  else true

def blSlotBase (slot : UInt8) : UInt32 := if slot = blSlotB then blAppBBase else blAppABase

def blSlotSize (_slot : UInt8) : UInt32 := blAppASize

def blSlotCrc (m : OtaMetadata) (slot : UInt8) : UInt32 :=
  if slot = blSlotB then m.appBCrc32 else m.appACrc32

def blSlotImageSize (m : OtaMetadata) (slot : UInt8) : UInt32 :=
  if slot = blSlotB then m.appBSize else m.appASize

def blSetSlotState (m : OtaMetadata) (slot : UInt8) (state : UInt32) : OtaMetadata :=
  if slot = blSlotB then { m with appBState := state } else { m with appAState := state }

def blSlotImageValid (fl : Mem) (m : OtaMetadata) (slot : UInt8) : Bool :=
  let base := blSlotBase slot
  let size := blSlotImageSize m slot
  let size_ok := size ≠ 0 ∧ size ≤ blSlotSize slot
  if ¬ size_ok then false
  else if ¬ blIsVectorValid fl base then false
  else blCrc32 (read fl base.toNat size.toNat) == blSlotCrc m slot

/-- Where `main` leaves the bootloader: into an image (as pending or not) or into the last,
endless OTA loop. -/
inductive BootExit
  | jump (slot : UInt8) (pending : Bool)
  | stay
  deriving DecidableEq, Repr

/-- The metadata `main` starts from. When no record is valid the default one is committed. -/
def blMainLoad (c : Ctl) : Ctl × OtaMetadata × Option OtaMetadata :=
  if blMetadataAnyValid c.mem then (c, blMetadataLoadOrDefault c.mem, none)
  else ((blMetadataCommit c blMetadataDefault).1, blMetadataDefault, some blMetadataDefault)

/-- The rollback of a pending slot. -/
def rollback (m : OtaMetadata) : OtaMetadata :=
  { blSetSlotState m m.pendingSlot imgRollback with
    pendingSlot := blSlotNone, rollbackCount := m.rollbackCount + 1, bootAttempts := 0 }

def attempt (m : OtaMetadata) : OtaMetadata := { m with bootAttempts := m.bootAttempts + 1 }

theorem rollback_pending (m : OtaMetadata) : (rollback m).pendingSlot = blSlotNone := rfl

theorem rollback_seq (m : OtaMetadata) : (rollback m).metaSeq = m.metaSeq := by
  unfold rollback blSetSlotState
  split_ifs <;> rfl

theorem attempt_seq (m : OtaMetadata) : (attempt m).metaSeq = m.metaSeq := rfl

/-- The end of `main`: the active slot, then the confirmed one, then the OTA loop. -/
def blMainFallback (fl : Mem) (m : OtaMetadata) : BootExit :=
  if (m.activeSlot = blSlotA ∨ m.activeSlot = blSlotB) ∧ blSlotImageValid fl m m.activeSlot then
    .jump m.activeSlot false
  else if (m.confirmedSlot = blSlotA ∨ m.confirmedSlot = blSlotB) ∧
      blSlotImageValid fl m m.confirmedSlot then .jump m.confirmedSlot false
  else .stay

structure BootResult where
  ctl : Ctl
  /-- the metadata in RAM at the end -/
  ram : OtaMetadata
  /-- what was handed to `bl_metadata_commit` -/
  committed : Option OtaMetadata
  exit : BootExit

/-- `main` from the pending-slot branch on. -/
def blMainBoot (c : Ctl) (m : OtaMetadata) : BootResult :=
  if m.pendingSlot = blSlotA ∨ m.pendingSlot = blSlotB then
    if ¬ blSlotImageValid c.mem m m.pendingSlot ∨ m.bootAttempts ≥ blMaxBootAttempts then
      -- an invalid image and used-up attempts are rolled back by the same assignments
      let c' := (blMetadataCommit c (rollback m)).1
      ⟨c', rollback m, some (rollback m), blMainFallback c'.mem (rollback m)⟩
    else
      let c' := (blMetadataCommit c (attempt m)).1
      ⟨c', attempt m, some (attempt m), .jump m.pendingSlot true⟩
  else ⟨c, m, none, blMainFallback c.mem m⟩

theorem fallback_cases (fl : Mem) (m : OtaMetadata) :
    (∃ slot, blMainFallback fl m = .jump slot false ∧ (slot = blSlotA ∨ slot = blSlotB) ∧
      blSlotImageValid fl m slot = true) ∨
    (blMainFallback fl m = .stay ∧ ¬ ((m.activeSlot = blSlotA ∨ m.activeSlot = blSlotB) ∧
      blSlotImageValid fl m m.activeSlot = true)) := by
  unfold blMainFallback
  split_ifs with ha hc
  · exact Or.inl ⟨_, rfl, ha.1, ha.2⟩
  · exact Or.inl ⟨_, rfl, hc.1, hc.2⟩
  · exact Or.inr ⟨rfl, ha⟩

/-- The three ways through the pending-slot branch. -/
theorem mainBoot_cases (c : Ctl) (m : OtaMetadata) :
    (¬ (m.pendingSlot = blSlotA ∨ m.pendingSlot = blSlotB) ∧
      blMainBoot c m = ⟨c, m, none, blMainFallback c.mem m⟩) ∨
    ((m.pendingSlot = blSlotA ∨ m.pendingSlot = blSlotB) ∧
      (blSlotImageValid c.mem m m.pendingSlot = false ∨ m.bootAttempts ≥ blMaxBootAttempts) ∧
      blMainBoot c m = ⟨(blMetadataCommit c (rollback m)).1, rollback m, some (rollback m),
        blMainFallback (blMetadataCommit c (rollback m)).1.mem (rollback m)⟩) ∨
    ((m.pendingSlot = blSlotA ∨ m.pendingSlot = blSlotB) ∧
      blSlotImageValid c.mem m m.pendingSlot = true ∧ m.bootAttempts < blMaxBootAttempts ∧
      blMainBoot c m = ⟨(blMetadataCommit c (attempt m)).1, attempt m, some (attempt m),
        .jump m.pendingSlot true⟩) := by
  unfold blMainBoot
  by_cases hp : m.pendingSlot = blSlotA ∨ m.pendingSlot = blSlotB
  · rw [if_pos hp]
    split_ifs with hv
    · exact Or.inr (Or.inl ⟨hp, by simpa using hv, rfl⟩)
    · push Not at hv
      exact Or.inr (Or.inr ⟨hp, hv.1, UInt8.not_le.mp hv.2, rfl⟩)
  · rw [if_neg hp]
    exact Or.inl ⟨hp, rfl⟩

structure SameImages (m m' : OtaMetadata) : Prop where
  sizeA : m.appASize = m'.appASize
  crcA : m.appACrc32 = m'.appACrc32
  sizeB : m.appBSize = m'.appBSize
  crcB : m.appBCrc32 = m'.appBCrc32

theorem SameImages.refl (m : OtaMetadata) : SameImages m m := ⟨rfl, rfl, rfl, rfl⟩

theorem SameImages.trans {m₁ m₂ m₃ : OtaMetadata} (h : SameImages m₁ m₂) (h' : SameImages m₂ m₃) :
    SameImages m₁ m₃ :=
  ⟨h.1.trans h'.1, h.2.trans h'.2, h.3.trans h'.3, h.4.trans h'.4⟩

theorem SameImages.symm {m m' : OtaMetadata} (h : SameImages m m') : SameImages m' m :=
  ⟨h.1.symm, h.2.symm, h.3.symm, h.4.symm⟩

theorem wordAt_congr {fl fl' : Mem} {a : ℕ} (h : AgreeOn fl fl' a 4) :
    wordAt fl a = wordAt fl' a := by rw [wordAt, wordAt, read_congr h]

/-- The verdict on a slot depends on its 384 KB and on the size and CRC recorded for it. -/
theorem slotImageValid_congr {fl fl' : Mem} {m m' : OtaMetadata} {slot : UInt8}
    (hfl : AgreeOn fl fl' (blSlotBase slot).toNat blAppASize.toNat)
    (hs : blSlotImageSize m slot = blSlotImageSize m' slot)
    (hc : blSlotCrc m slot = blSlotCrc m' slot) :
    blSlotImageValid fl m slot = blSlotImageValid fl' m' slot := by
  have hsz : blAppASize.toNat = 393216 := by decide
  have hv : blIsVectorValid fl (blSlotBase slot) = blIsVectorValid fl' (blSlotBase slot) := by
    unfold blIsVectorValid
    rw [wordAt_congr (hfl.mono le_rfl (by omega)), wordAt_congr (hfl.mono (by omega) (by omega))]
  unfold blSlotImageValid
  simp only [hs, hc, hv]
  by_cases hok : blSlotImageSize m' slot ≠ 0 ∧ blSlotImageSize m' slot ≤ blSlotSize slot
  · have hle : (blSlotImageSize m' slot).toNat ≤ blAppASize.toNat := hok.2
    rw [read_congr (hfl.mono le_rfl (by omega))]
  · rw [if_pos hok, if_pos hok]

theorem SameImages.size {m m' : OtaMetadata} (h : SameImages m m') (slot : UInt8) :
    blSlotImageSize m slot = blSlotImageSize m' slot := by
  unfold blSlotImageSize
  rw [h.sizeA, h.sizeB]

theorem SameImages.crc {m m' : OtaMetadata} (h : SameImages m m') (slot : UInt8) :
    blSlotCrc m slot = blSlotCrc m' slot := by
  unfold blSlotCrc
  rw [h.crcA, h.crcB]

theorem SameImages.valid {fl fl' : Mem} {m m' : OtaMetadata} (h : SameImages m m') (slot : UInt8)
    (hfl : AgreeOn fl fl' (blSlotBase slot).toNat blAppASize.toNat) :
    blSlotImageValid fl m slot = blSlotImageValid fl' m' slot :=
  slotImageValid_congr hfl (h.size slot) (h.crc slot)

theorem setSlotState_same (m : OtaMetadata) (slot : UInt8) (state : UInt32) :
    SameImages (blSetSlotState m slot state) m := by
  unfold blSetSlotState
  split_ifs <;> exact ⟨rfl, rfl, rfl, rfl⟩

theorem rollback_same (m : OtaMetadata) : SameImages (rollback m) m :=
  let h := setSlotState_same m m.pendingSlot imgRollback
  ⟨h.1, h.2, h.3, h.4⟩

theorem attempt_same (m : OtaMetadata) : SameImages (attempt m) m := ⟨rfl, rfl, rfl, rfl⟩

theorem commitWork_same (m : OtaMetadata) : SameImages (blMetadataCommitWork m) m := by
  unfold blMetadataCommitWork blMetadataUpdateCrc
  split_ifs <;> exact ⟨rfl, rfl, rfl, rfl⟩

/-- The slots lie behind the metadata sector. -/
theorem slotBase_cases (slot : UInt8) :
    (blSlotBase slot).toNat = 0x08020000 ∨ (blSlotBase slot).toNat = 0x08080000 := by
  unfold blSlotBase
  split_ifs
  · exact Or.inr rfl
  · exact Or.inl rfl

end EdgeLink.Bootloader
