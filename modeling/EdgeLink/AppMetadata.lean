import EdgeLink.BootMetadata

namespace EdgeLink.App
open LittleEndian Nor Bootloader

def otaMetaMagic : UInt32 := 0x454F5441
def otaMetaSchemaVersion : UInt16 := 2
def otaMetaAddr : ℕ := 0x08010000
def otaMetaSector : ℕ := 4
def otaSlotBBase : UInt32 := 0x08080000
def otaSlotA : UInt8 := 0
def otaSlotB : UInt8 := 1
def otaSlotNone : UInt8 := 0xFF
def otaImgPending : UInt32 := 2
def otaImgConfirmed : UInt32 := 3

/-- The application declares the bootloader's structure once more, field by field. -/
def otaMetaRecordSize : ℕ := 60
def otaMetaMaxRecords : ℕ := 0x10000 / otaMetaRecordSize

def otaMetaUpdateCrc (m : OtaMetadata) : OtaMetadata :=
  { m with metadataCrc32 := otaCrc32 (encode { m with metadataCrc32 := 0 }) }

def otaMetaSeqIsNewer (candidate current : UInt16) : Bool :=
  let delta := candidate - current
  delta != 0 && delta < 0x8000

def otaMetaSlotIsErased (fl : Mem) (addr : ℕ) : Bool :=
  (read fl addr otaMetaRecordSize).all (· == 0xFF)

def otaMetaBetter (best : Option OtaMetadata) (tmp : OtaMetadata) : Option OtaMetadata :=
  if tmp.magic ≠ otaMetaMagic ∨ tmp.schemaVersion ≠ otaMetaSchemaVersion then best
  else if otaCrc32 (encode { tmp with metadataCrc32 := 0 }) ≠ tmp.metadataCrc32 then best
  else if best.all fun b => otaMetaSeqIsNewer tmp.metaSeq b.metaSeq then some tmp
  else best

def otaMetaLoadFrom (fl : Mem) (i : ℕ) (best : Option OtaMetadata) : ℕ → Option OtaMetadata
  | 0 => best
  | n + 1 =>
    let addr := otaMetaAddr + i * otaMetaRecordSize
    if otaMetaSlotIsErased fl addr then best
    else otaMetaLoadFrom fl (i + 1)
      (otaMetaBetter best (decode (read fl addr otaMetaRecordSize))) n

def otaMetaLoad (fl : Mem) : Option OtaMetadata := otaMetaLoadFrom fl 0 none otaMetaMaxRecords

def otaMetaFindAppendFrom (fl : Mem) (i : ℕ) : ℕ → Option ℕ
  | 0 => none
  | n + 1 =>
    let addr := otaMetaAddr + i * otaMetaRecordSize
    if otaMetaSlotIsErased fl addr then some addr else otaMetaFindAppendFrom fl (i + 1) n

def otaMetaWrite (c : Ctl) (append_addr : ℕ) (work : OtaMetadata) : Ctl × Bool :=
  match programRecord c append_addr (encode work) with
  | (c', false) => (c', false)
  | (c', true) => (c', read c'.mem append_addr otaMetaRecordSize == encode work)

/-- Unlike the bootloader's commit it leaves `meta_seq` 0 alone and does not validate at the end. -/
def otaMetaCommit (c : Ctl) (m : OtaMetadata) : Ctl × Bool :=
  match otaMetaFindAppendFrom c.mem 0 otaMetaMaxRecords with
  | some append_addr => otaMetaWrite c append_addr (otaMetaUpdateCrc m)
  | none =>
    match halFlashExErase c otaMetaSector 1 with
    | (c', false) => (c', false)
    | (c', true) => otaMetaWrite c' otaMetaAddr (otaMetaUpdateCrc m)

/-- The slot of the running image, from the address of its vector table. -/
def otaCurrentSlot (vec : UInt32) : UInt8 :=
  if otaSlotBBase ≤ vec ∧ vec < otaSlotBBase + 0x00060000 then otaSlotB else otaSlotA

def confirmNext (m : OtaMetadata) (slot : UInt8) : OtaMetadata :=
  let m := { m with
    activeSlot := slot, confirmedSlot := slot, pendingSlot := otaSlotNone, bootAttempts := 0 }
  let m :=
    if slot = otaSlotA then
      { m with
        appAState := otaImgConfirmed
        minAllowedVersion :=
          if m.appAVersion > m.minAllowedVersion then m.appAVersion else m.minAllowedVersion }
    else
      { m with
        appBState := otaImgConfirmed
        minAllowedVersion :=
          if m.appBVersion > m.minAllowedVersion then m.appBVersion else m.minAllowedVersion }
  { m with metaSeq := m.metaSeq + 1 }

/-- Returns the metadata handed to `ota_meta_commit`, when the confirmation got that far. -/
def gatewayConfirmSlotEarly (c : Ctl) (vec : UInt32) : Ctl × Option OtaMetadata :=
  match otaMetaLoad c.mem with
  | none => (c, none)
  | some m =>
    let slot := otaCurrentSlot vec
    if m.pendingSlot ≠ slot then (c, none)
    else if (slot = otaSlotA ∧ m.appAState ≠ otaImgPending) ∨
        (slot = otaSlotB ∧ m.appBState ≠ otaImgPending) then (c, none)
    else ((otaMetaCommit c (confirmNext m slot)).1, some (confirmNext m slot))

/-- The CRC is all that a commit of the application changes. -/
theorem otaUpdateCrc_stamp (m : OtaMetadata) : otaMetaUpdateCrc m =
    { m with metadataCrc32 := (otaMetaUpdateCrc m).metadataCrc32 } := rfl

theorem otaUpdateCrc_seq (m : OtaMetadata) : (otaMetaUpdateCrc m).metaSeq = m.metaSeq := by
  rw [otaUpdateCrc_stamp]

@[simp] theorem confirmNext_seq (m : OtaMetadata) (slot : UInt8) :
    (confirmNext m slot).metaSeq = m.metaSeq + 1 := by
  unfold confirmNext
  split_ifs <;> rfl

@[simp] theorem confirmNext_pending (m : OtaMetadata) (slot : UInt8) :
    (confirmNext m slot).pendingSlot = otaSlotNone := by
  unfold confirmNext
  split_ifs <;> rfl

end EdgeLink.App
