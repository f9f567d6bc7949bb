import EdgeLink.BootFlash
import EdgeLink.Crc
import EdgeLink.Journal

namespace EdgeLink.Bootloader
open LittleEndian Nor Journal

def imgInvalid : UInt32 := 0
def imgValid : UInt32 := 1
def imgPending : UInt32 := 2
def imgConfirmed : UInt32 := 3
def imgRollback : UInt32 := 4

def blSlotA : UInt8 := 0
def blSlotB : UInt8 := 1
def blSlotNone : UInt8 := 0xFF

def blMetaMagic : UInt32 := 0x454F5441
def blMetaSchemaVersion : UInt16 := 2
def blMaxBootAttempts : UInt8 := 3

structure OtaMetadata where
  magic : UInt32
  schemaVersion : UInt16
  metaSeq : UInt16
  activeSlot : UInt8
  pendingSlot : UInt8
  confirmedSlot : UInt8
  bootAttempts : UInt8
  appAVersion : UInt32
  appASize : UInt32
  appACrc32 : UInt32
  appAState : UInt32
  appBVersion : UInt32
  appBSize : UInt32
  appBCrc32 : UInt32
  appBState : UInt32
  rollbackCount : UInt32
  minAllowedVersion : UInt32
  lastError : UInt32
  metadataCrc32 : UInt32
  deriving DecidableEq, Repr

/-- The 60 bytes of the C structure, which has no padding. -/
def encode (m : OtaMetadata) : Bytes :=
  bytes32 m.magic ++ bytes16 m.schemaVersion ++ bytes16 m.metaSeq ++
    [m.activeSlot, m.pendingSlot, m.confirmedSlot, m.bootAttempts] ++
    bytes32 m.appAVersion ++ bytes32 m.appASize ++ bytes32 m.appACrc32 ++ bytes32 m.appAState ++
    bytes32 m.appBVersion ++ bytes32 m.appBSize ++ bytes32 m.appBCrc32 ++ bytes32 m.appBState ++
    bytes32 m.rollbackCount ++ bytes32 m.minAllowedVersion ++ bytes32 m.lastError ++
    bytes32 m.metadataCrc32

/-- The structure that a pointer to these bytes shows. -/
def decode (p : Bytes) : OtaMetadata where
  magic := read32 p 0
  schemaVersion := read16 p 4
  metaSeq := read16 p 6
  activeSlot := p.getD 8 0
  pendingSlot := p.getD 9 0
  confirmedSlot := p.getD 10 0
  bootAttempts := p.getD 11 0
  appAVersion := read32 p 12
  appASize := read32 p 16
  appACrc32 := read32 p 20
  appAState := read32 p 24
  appBVersion := read32 p 28
  appBSize := read32 p 32
  appBCrc32 := read32 p 36
  appBState := read32 p 40
  rollbackCount := read32 p 44
  minAllowedVersion := read32 p 48
  lastError := read32 p 52
  metadataCrc32 := read32 p 56

def blMetaRecordSize : ℕ := 60
def blMetaMaxRecords : ℕ := blMetadataSize / blMetaRecordSize

def blMetaSeqIsNewer (candidate current : UInt16) : Bool :=
  let delta := candidate - current
  delta != 0 && delta < 0x8000

def blMetaSlotIsErased (fl : Mem) (addr : ℕ) : Bool :=
  (read fl addr blMetaRecordSize).all (· == 0xFF)

def blMetadataValidate (m : OtaMetadata) : Bool :=
  m.magic == blMetaMagic && m.schemaVersion == blMetaSchemaVersion &&
    blCrc32 (encode { m with metadataCrc32 := 0 }) == m.metadataCrc32

def blMetadataUpdateCrc (m : OtaMetadata) : OtaMetadata :=
  { m with metadataCrc32 := blCrc32 (encode { m with metadataCrc32 := 0 }) }

/-- The record that a pointer into the metadata sector shows. -/
def recordAt (fl : Mem) (addr : ℕ) : OtaMetadata := decode (read fl addr blMetaRecordSize)

def recordAddr (i : ℕ) : ℕ := blMetadataBase.toNat + i * blMetaRecordSize

/-- The loop body of the scan for a record that is not erased. -/
def blMetaBetter (best : Option (ℕ × OtaMetadata)) (addr : ℕ) (m : OtaMetadata) :
    Option (ℕ × OtaMetadata) :=
  if !blMetadataValidate m then best
  -- nothing found yet, or newer than the best so far
  else if best.all fun b => blMetaSeqIsNewer m.metaSeq b.2.metaSeq then some (addr, m)
  else best

/-- The scan from record `i` on over at most `n` records, with the best record so far. -/
def blMetaFindLatestFrom (fl : Mem) (i : ℕ) (best : Option (ℕ × OtaMetadata)) :
    ℕ → Option (ℕ × OtaMetadata)
  | 0 => best
  | n + 1 =>
    if blMetaSlotIsErased fl (recordAddr i) then best
    else blMetaFindLatestFrom fl (i + 1)
      (blMetaBetter best (recordAddr i) (recordAt fl (recordAddr i))) n

def blMetaFindLatest (fl : Mem) : Option (ℕ × OtaMetadata) :=
  blMetaFindLatestFrom fl 0 none blMetaMaxRecords

def blMetaFindAppendAddrFrom (fl : Mem) (i : ℕ) : ℕ → Option ℕ
  | 0 => none
  | n + 1 =>
    if blMetaSlotIsErased fl (recordAddr i) then some (recordAddr i)
    else blMetaFindAppendAddrFrom fl (i + 1) n

def blMetaFindAppendAddr (fl : Mem) : Option ℕ := blMetaFindAppendAddrFrom fl 0 blMetaMaxRecords

/-- The byte loop that both commits share. -/
def programRecord (c : Ctl) (addr : ℕ) : Bytes → Ctl × Bool
  | [] => (c, true)
  | b :: src =>
    match halFlashProgramByte c addr b with
    | (c', true) => programRecord c' (addr + 1) src
    | (c', false) => (c', false)

def blMetadataWriteRecord (c : Ctl) (addr : ℕ) (m : OtaMetadata) : Ctl × Bool :=
  match programRecord c addr (encode m) with
  | (c', false) => (c', false)
  | (c', true) =>
    (c', read c'.mem addr blMetaRecordSize == encode m &&
      blMetadataValidate (recordAt c'.mem addr))

def blMetadataEraseSector (c : Ctl) : Ctl × Bool := halFlashExErase c 4 1

def blMetadataDefault : OtaMetadata :=
  blMetadataUpdateCrc
    { magic := blMetaMagic, schemaVersion := blMetaSchemaVersion, metaSeq := 1,
      activeSlot := blSlotA, pendingSlot := blSlotNone, confirmedSlot := blSlotA,
      bootAttempts := 0, appAVersion := 0, appASize := 0, appACrc32 := 0, appAState := imgValid,
      appBVersion := 0, appBSize := 0, appBCrc32 := 0, appBState := imgInvalid,
      rollbackCount := 0, minAllowedVersion := 1, lastError := 0, metadataCrc32 := 0 }

def blMetadataLoadOrDefault (fl : Mem) : OtaMetadata :=
  match blMetaFindLatest fl with
  | some b => b.2
  | none => blMetadataDefault

def blMetadataAnyValid (fl : Mem) : Bool := (blMetaFindLatest fl).isSome

/-- The local copy that `bl_metadata_commit` writes: `meta_seq` 0 becomes 1, the CRC is renewed. -/
def blMetadataCommitWork (m : OtaMetadata) : OtaMetadata :=
  blMetadataUpdateCrc (if m.metaSeq = 0 then { m with metaSeq := 1 } else m)

def blMetadataCommit (c : Ctl) (m : OtaMetadata) : Ctl × Bool :=
  match blMetaFindAppendAddr c.mem with
  | some append_addr => blMetadataWriteRecord c append_addr (blMetadataCommitWork m)
  | none =>
    match blMetadataEraseSector c with
    | (c', false) => (c', false)
    | (c', true) => blMetadataWriteRecord c' blMetadataBase.toNat (blMetadataCommitWork m)

def blMetadataMinAllowedVersion (m : OtaMetadata) : UInt32 :=
  if m.minAllowedVersion = 0 then 1 else m.minAllowedVersion

@[simp] theorem encode_length (m : OtaMetadata) : (encode m).length = blMetaRecordSize := by
  simp [encode, blMetaRecordSize]

theorem decode_encode (m : OtaMetadata) : decode (encode m) = m := by
  have hlast : read32 (bytes32 m.metadataCrc32) 0 = m.metadataCrc32 := by
    simpa using read32_head m.metadataCrc32 []
  simp only [decode, encode, List.append_assoc, List.cons_append, List.nil_append,
    read32_head, read16_head, read32_skip32, read16_skip32, read32_skip16, read16_skip16,
    read32_cons, getD_skip32, getD_skip16, List.getD_cons_succ, List.getD_cons_zero, hlast]

theorem validate_iff (m : OtaMetadata) : blMetadataValidate m = true ↔
    m.magic = blMetaMagic ∧ m.schemaVersion = blMetaSchemaVersion ∧
      blCrc32 (encode { m with metadataCrc32 := 0 }) = m.metadataCrc32 := by
  simp only [blMetadataValidate, Bool.and_eq_true, beq_iff_eq, and_assoc]

/-- Renewing the CRC makes a record of the right magic and schema valid. -/
theorem validate_updateCrc (m : OtaMetadata) :
    blMetadataValidate (blMetadataUpdateCrc m) =
      (m.magic == blMetaMagic && m.schemaVersion == blMetaSchemaVersion) := by
  unfold blMetadataValidate blMetadataUpdateCrc
  dsimp only
  generalize blCrc32 _ = crc
  rw [beq_self_eq_true, Bool.and_true]

theorem updateCrc_idem (m : OtaMetadata) :
    blMetadataUpdateCrc (blMetadataUpdateCrc m) = blMetadataUpdateCrc m := by
  unfold blMetadataUpdateCrc
  rfl

/-- The number and the CRC are all that a commit changes. -/
theorem commitWork_stamp (m : OtaMetadata) : blMetadataCommitWork m =
    { m with
      metaSeq := if m.metaSeq = 0 then 1 else m.metaSeq
      metadataCrc32 := (blMetadataCommitWork m).metadataCrc32 } := by
  unfold blMetadataCommitWork blMetadataUpdateCrc
  split_ifs <;> rfl

theorem commitWork_seq (m : OtaMetadata) :
    (blMetadataCommitWork m).metaSeq = if m.metaSeq = 0 then 1 else m.metaSeq := by
  rw [commitWork_stamp]

theorem seqIsNewer_self (seq : UInt16) : blMetaSeqIsNewer seq seq = false := by
  simp [blMetaSeqIsNewer]

theorem programRecord_touches (c : Ctl) (addr : ℕ) (src : Bytes) :
    c.Touches addr (addr + src.length) (programRecord c addr src).1 := by
  induction src generalizing c addr with
  | nil => exact Ctl.Touches.refl _ _ _
  | cons b src ih =>
    have hin : Op.Inside addr (addr + (b :: src).length) (.program addr [b]) :=
      ⟨le_rfl, by simp [Op.hi]⟩
    have ht := @Ctl.issue_touches flashLo flashHi _ _ c _ hin
    rw [programRecord, halFlashProgramByte]
    rcases hi : c.issue flashLo flashHi (.program addr [b]) with ⟨c', ok⟩
    rw [hi] at ht
    cases ok with
    | false => exact ht
    | true => exact ht.trans ((ih c' (addr + 1)).mono (by omega) (by simp; omega))

theorem writeRecord_touches (c : Ctl) (addr : ℕ) (m : OtaMetadata) :
    c.Touches addr (addr + blMetaRecordSize) (blMetadataWriteRecord c addr m).1 := by
  have ht := programRecord_touches c addr (encode m)
  rw [encode_length] at ht
  rw [blMetadataWriteRecord]
  rcases hp : programRecord c addr (encode m) with ⟨c', ok⟩
  rw [hp] at ht
  cases ok <;> exact ht

theorem findAppendAddr_record {fl : Mem} {a : ℕ} (h : blMetaFindAppendAddr fl = some a) :
    ∃ i < blMetaMaxRecords, a = recordAddr i := by
  have hfrom : ∀ n i, blMetaFindAppendAddrFrom fl i n = some a → ∃ j < i + n, a = recordAddr j := by
    intro n
    induction n with
    | zero =>
      intro i hi
      cases hi
    | succ n ih =>
      intro i hi
      rw [blMetaFindAppendAddrFrom] at hi
      split_ifs at hi
      · exact ⟨i, by omega, (Option.some.inj hi).symm⟩
      · obtain ⟨j, hj, ha⟩ := ih (i + 1) hi
        exact ⟨j, by omega, ha⟩
  obtain ⟨i, hi, ha⟩ := hfrom _ _ h
  exact ⟨i, by omega, ha⟩

theorem blMetadataCommit_touches (c : Ctl) (m : OtaMetadata) :
    c.Touches blMetadataBase.toNat (blMetadataBase.toNat + blMetadataSize)
      (blMetadataCommit c m).1 := by
  have hwrite : ∀ (c : Ctl) (i : ℕ), i < blMetaMaxRecords →
      c.Touches blMetadataBase.toNat (blMetadataBase.toNat + blMetadataSize)
        (blMetadataWriteRecord c (recordAddr i) (blMetadataCommitWork m)).1 := by
    intro c i hi
    have hroom : (i + 1) * blMetaRecordSize ≤ blMetadataSize := by
      have hmax : blMetaMaxRecords * blMetaRecordSize ≤ blMetadataSize := by decide
      exact (Nat.mul_le_mul_right _ hi).trans hmax
    rw [Nat.add_mul, Nat.one_mul] at hroom
    apply (writeRecord_touches c (recordAddr i) (blMetadataCommitWork m)).mono
    · exact Nat.le_add_right _ _
    · rw [recordAddr]
      omega
  rw [blMetadataCommit]
  cases ha : blMetaFindAppendAddr c.mem with
  | some a =>
    obtain ⟨i, hi, rfl⟩ := findAppendAddr_record ha
    exact hwrite c i hi
  | none =>
    have ht : c.Touches blMetadataBase.toNat (blMetadataBase.toNat + blMetadataSize)
        (blMetadataEraseSector c).1 := halFlashExErase_touches c 4 1 _ _ (by decide)
    dsimp only
    rcases he : blMetadataEraseSector c with ⟨c', ok⟩
    rw [he] at ht
    cases ok with
    | false => exact ht
    | true =>
      have hfirst : recordAddr 0 = blMetadataBase.toNat := by simp [recordAddr]
      exact ht.trans (hfirst ▸ hwrite c' 0 (by decide))

end EdgeLink.Bootloader
