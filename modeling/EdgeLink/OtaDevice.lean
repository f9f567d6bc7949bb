import EdgeLink.Machine
import EdgeLink.BootOta

namespace EdgeLink.Bootloader
open LittleEndian Nor App Journal

/-- What runs on the board. A loop that is not `final` ends after an idle timeout. -/
inductive Mode
  | off
  | app (slot : UInt8)
  | loop (g : BlOtaCtx) (ram : OtaMetadata) (final : Bool)

structure Device where
  flash : Mem
  mode : Mode

inductive Event
  /-- a reset through `main`, with the bootloader-request flag set or not -/
  | reset (flag : Bool)
  /-- a frame, of whose operations on the image slot only the first `life` take effect -/
  | frame (f : Frame) (life : Option ℕ)
  /-- the idle timeout of the OTA loop -/
  | idle
  /-- the early confirmation in the booted application -/
  | confirm

/-- What an outside observer sees of one event. -/
structure Output where
  /-- the erases of PREPARE and the programs of DATA -/
  slotOps : List Op
  /-- the records written by commits that succeeded, each with the flash right after it -/
  written : List (OtaMetadata × Mem)
  boot : Option BootExit
  reply : Option Reply

def silent : Output := ⟨[], [], none, none⟩

def exitMode (m : OtaMetadata) : BootExit → Mode
  | .jump slot _ => .app slot
  | .stay => .loop blCtxReset m true

/-- A commit of the bootloader, as the observer sees it. -/
def blWritten (c : Ctl) (committed : Option OtaMetadata) : List (OtaMetadata × Mem) :=
  (committed.map fun m => (blMetadataCommitWork m, c.mem)).toList

/-- `main` from the pending-slot branch on, after the commits `healed`. -/
def boot (c : Ctl) (m : OtaMetadata) (healed : List (OtaMetadata × Mem)) : Device × Output :=
  let r := blMainBoot c m
  (⟨r.ctl.mem, exitMode r.ram r.exit⟩,
    ⟨[], healed ++ blWritten r.ctl r.committed, some r.exit, none⟩)

def reset (fl : Mem) (flag : Bool) : Device × Output :=
  let (c, m, healed) := blMainLoad (Ctl.start fl none)
  if flag then (⟨c.mem, .loop blCtxReset m false⟩, ⟨[], blWritten c healed, none, none⟩)
  else boot c m (blWritten c healed)

/-- A commit is not interrupted. -/
def frameLife (f : Frame) (life : Option ℕ) : Option ℕ :=
  if f.type = blDnOtaCommit then none else life

def receive (fl : Mem) (g : BlOtaCtx) (m : OtaMetadata) (final : Bool) (f : Frame)
    (life : Option ℕ) : Device × Output :=
  let h := blOtaLoopFrame (Ctl.start fl (frameLife f life)) g m f
  (⟨h.ctl.mem, if h.reset then .off else .loop h.ctx m final⟩,
    ⟨if f.type = blDnOtaPrepare ∨ f.type = blDnOtaData then h.ctl.ops else [],
      if h.reset then blWritten h.ctl h.committed else [], none, h.reply⟩)

def confirm (fl : Mem) (slot : UInt8) : Device × Output :=
  let r := gatewayConfirmSlotEarly (Ctl.start fl none) (blSlotBase slot)
  (⟨r.1.mem, .app slot⟩, ⟨[], (r.2.map fun m => (otaMetaUpdateCrc m, r.1.mem)).toList, none, none⟩)

def step (d : Device) : Event → Device × Output
  | .reset flag => reset d.flash flag
  | .frame f life =>
    match d.mode with
    | .loop g m final => receive d.flash g m final f life
    | _ => (d, silent)
  | .idle =>
    match d.mode with
    | .loop _ m false => boot (Ctl.start d.flash none) m []
    | _ => (d, silent)
  | .confirm =>
    match d.mode with
    | .app slot => confirm d.flash slot
    | _ => (d, silent)

theorem step_reset (fl : Mem) (mode : Mode) (flag : Bool) :
    step ⟨fl, mode⟩ (.reset flag) = reset fl flag := rfl

structure InForce (fl : Mem) (slots : List Bytes) (cur : OtaMetadata) : Prop where
  shaped : MetaShaped fl slots
  latest : latest slots = some cur

section InForce

variable {fl fl' : Mem} {slots : List Bytes} {cur m w : OtaMetadata}

theorem InForce.valid (h : InForce fl slots cur) : blMetadataValidate cur = true :=
  latest_valid h.latest

theorem InForce.tagged (h : InForce fl slots cur) : WellTagged cur := wellTagged_of_validate h.valid

theorem InForce.load (h : InForce fl slots cur) : blMetadataLoadOrDefault fl = cur := by
  rw [loadOrDefault_eq h.shaped, h.latest]
  rfl

theorem InForce.otaLoad (h : InForce fl slots cur) : otaMetaLoad fl = some cur := by
  rw [otaMetaLoad_eq, findLatest_eq h.shaped, h.latest]

theorem InForce.mainLoad (h : InForce fl slots cur) (life : Option ℕ) :
    blMainLoad (Ctl.start fl life) = (Ctl.start fl life, cur, none) := by
  have ha : blMetadataAnyValid (Ctl.start fl life).mem = true := by
    rw [Ctl.start_mem, anyValid_eq h.shaped, h.latest]
    rfl
  rw [blMainLoad, if_pos ha, Ctl.start_mem, h.load]

theorem InForce.reset (h : InForce fl slots cur) (flag : Bool) :
    reset fl flag = if flag then (⟨fl, .loop blCtxReset cur false⟩, silent)
      else boot (Ctl.start fl none) cur [] := by
  unfold Bootloader.reset
  rw [h.mainLoad]
  rfl

theorem InForce.congr (h : InForce fl slots cur)
    (hm : AgreeOn fl fl' blMetadataBase.toNat blMetadataSize) : InForce fl' slots cur :=
  ⟨h.shaped.congr (hm.mono le_rfl (Nat.add_le_add_left recordSpace _)), h.latest⟩

theorem InForce.put (h : InForce fl slots cur) (hw : blMetadataValidate w = true)
    (hs : MetaShaped fl' (journalPut slots w)) :
    ∃ cur', InForce fl' (journalPut slots w) cur' ∧ (cur' = w ∨ cur' = cur) := by
  rcases journalPut_cases slots hw with hl | ⟨-, hl⟩
  · exact ⟨w, ⟨hs, hl⟩, Or.inl rfl⟩
  · exact ⟨cur, ⟨hs, hl.trans h.latest⟩, Or.inr rfl⟩

/-- After a commit the record in force is the one written or still the old one. -/
theorem InForce.commit (h : InForce fl slots cur) (hm : WellTagged m) :
    ∃ cur', InForce (blMetadataCommit (Ctl.start fl none) m).1.mem
        (journalPut slots (blMetadataCommitWork m)) cur' ∧
      (cur' = blMetadataCommitWork m ∨ cur' = cur) :=
  h.put (commitWork_valid hm) (commit_spec h.shaped hm).2.1

theorem InForce.otaCommit (h : InForce fl slots cur) (hm : WellTagged m) :
    ∃ cur', InForce (otaMetaCommit (Ctl.start fl none) m).1.mem
        (journalPut slots (otaMetaUpdateCrc m)) cur' ∧
      (cur' = otaMetaUpdateCrc m ∨ cur' = cur) :=
  h.put (otaUpdateCrc_valid hm) (otaCommit_spec h.shaped hm).1

end InForce

/-- A sector with one record, on an otherwise erased flash. -/
def blankFlash : Mem := fun _ => 0xFF

def recordFlash (m : OtaMetadata) : Mem := program blankFlash blMetadataBase.toNat (encode m)

theorem recordFlash_inForce {m : OtaMetadata} (hm : blMetadataValidate m = true) :
    InForce (recordFlash m) [encode m] m := by
  have hblank : Blank blankFlash blMetadataBase.toNat (blMetaMaxRecords * blMetaRecordSize) :=
    fun _ _ _ => rfl
  have hs := (shaped_erased hblank).append (by decide) (encode_length m).le
    (encode_written (wellTagged_of_validate hm).1)
  rw [List.nil_append, pad_full (encode_length m)] at hs
  simp only [List.length_nil, Nat.zero_mul, Nat.add_zero] at hs
  exact ⟨hs, pick_singleton (parseRecord_encode hm)⟩

theorem default_valid : blMetadataValidate blMetadataDefault = true := by
  rw [blMetadataDefault, validate_updateCrc]
  rfl

/-- Stack pointer 0x20010010 and reset handler 0x08080101. -/
def imageB : Bytes := [0x10, 0x00, 0x01, 0x20, 0x01, 0x01, 0x08, 0x08]

/-- A board with this image in slot B. -/
def boardFlash (m : OtaMetadata) : Mem := program (recordFlash m) blAppBBase.toNat imageB

theorem boardFlash_inForce {m : OtaMetadata} (hm : blMetadataValidate m = true) :
    InForce (boardFlash m) [encode m] m := by
  have hb : blMetadataBase.toNat + blMetadataSize ≤ blAppBBase.toNat := by decide
  apply (recordFlash_inForce hm).congr
  intro x _ hx
  exact (program_outside (Or.inl (by omega))).symm

/-- With nothing pending and the only candidate invalid, `main` ends in the OTA loop. -/
theorem InForce.reset_stays {fl : Mem} {slots : List Bytes} {cur : OtaMetadata}
    (h : InForce fl slots cur) (mode : Mode)
    (hp : ¬ (cur.pendingSlot = blSlotA ∨ cur.pendingSlot = blSlotB))
    (hc : cur.confirmedSlot = cur.activeSlot)
    (hbad : blSlotImageValid fl cur cur.activeSlot = false) :
    (step ⟨fl, mode⟩ (.reset false)).2.boot = some .stay := by
  have hfall : blMainFallback fl cur = .stay := by
    unfold blMainFallback
    rw [hc, hbad]
    simp
  rw [step_reset, h.reset, if_neg (by simp)]
  dsimp only [boot]
  rcases mainBoot_cases (Ctl.start fl none) cur with ⟨-, hb⟩ | ⟨hp', -⟩ | ⟨hp', -⟩
  · rw [hb]
    exact congrArg some hfall
  · exact absurd hp' hp
  · exact absurd hp' hp

/-- The slots lie behind the metadata sector. -/
theorem slot_disjoint (slot : UInt8) :
    blMetadataBase.toNat + blMetadataSize ≤ (blSlotBase slot).toNat := by
  have hb : blMetadataBase.toNat + blMetadataSize = 0x08020000 := by decide
  rcases slotBase_cases slot with h | h <;> omega

theorem recordFlash_blank (m : OtaMetadata) (slot : UInt8) :
    Blank (recordFlash m) (blSlotBase slot).toNat blAppASize.toNat := by
  intro x hx _
  have hd := slot_disjoint slot
  have hr : blMetaRecordSize ≤ blMetadataSize := by decide
  have hl : (encode m).length ≤ blMetaRecordSize := (encode_length m).le
  rw [recordFlash, program_outside (Or.inr (by omega))]
  rfl

theorem commit_slots {fl : Mem} {slots : List Bytes} {m : OtaMetadata} (h : MetaShaped fl slots)
    (hm : WellTagged m) (slot : UInt8) :
    AgreeOn fl (blMetadataCommit (Ctl.start fl none) m).1.mem (blSlotBase slot).toNat
      blAppASize.toNat := by
  intro x hx _
  have hd := slot_disjoint slot
  exact ((commit_spec h hm).2.2 x (Or.inr (by omega))).symm

theorem otaCommit_slots {fl : Mem} {slots : List Bytes} {m : OtaMetadata} (h : MetaShaped fl slots)
    (hm : WellTagged m) (slot : UInt8) :
    AgreeOn fl (otaMetaCommit (Ctl.start fl none) m).1.mem (blSlotBase slot).toNat
      blAppASize.toNat := by
  intro x hx _
  have hd := slot_disjoint slot
  exact ((otaCommit_spec h hm).2 x (Or.inr (by omega))).symm

theorem rollback_tagged {m : OtaMetadata} (h : WellTagged m) : WellTagged (rollback m) := by
  unfold rollback blSetSlotState
  split_ifs <;> exact h

theorem attempt_tagged {m : OtaMetadata} (h : WellTagged m) : WellTagged (attempt m) := h

theorem confirmNext_tagged {m : OtaMetadata} {slot : UInt8} (h : WellTagged m) :
    WellTagged (confirmNext m slot) := by
  unfold confirmNext
  split_ifs <;> exact h

end EdgeLink.Bootloader
