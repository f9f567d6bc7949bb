import EdgeLink.Crc
import EdgeLink.StorageFlash
import EdgeLink.StreamScan

namespace EdgeLink.Storage
open LittleEndian Nor

def STORAGE_MAGIC : UInt32 := 0x53484C47
def STORAGE_VERSION : UInt16 := 1
def STORAGE_MAX_PAYLOAD_LEN : ℕ := 192

def STORAGE_REC_EVENT : UInt16 := 1
def STORAGE_REC_CACHE : UInt16 := 2

structure StorageRecordHeader where
  magic : UInt32
  version : UInt16
  type : UInt16
  seq : UInt32
  tickMs : UInt32
  payloadLen : UInt16
  flags : UInt16
  crc32 : UInt32
  deriving DecidableEq, Repr

def headerSize : ℕ := 24

def StorageRecordHeader.bytes (h : StorageRecordHeader) : Bytes :=
  bytes32 h.magic ++ (bytes16 h.version ++ (bytes16 h.type ++ (bytes32 h.seq ++
    (bytes32 h.tickMs ++ (bytes16 h.payloadLen ++ (bytes16 h.flags ++ bytes32 h.crc32))))))

def header (b : Bytes) : StorageRecordHeader :=
  ⟨read32 b 0, read16 b 4, read16 b 6, read32 b 8, read32 b 12, read16 b 16, read16 b 18, read32 b 20⟩

def storageCrc32 (data : Bytes) : UInt32 := blCrc32 data

/-- Over the header with a zero in place of the CRC, and over the payload. -/
def recordCrc (h : StorageRecordHeader) (payload : Bytes) : UInt32 :=
  storageCrc32 payload ^^^ (storageCrc32 { h with crc32 := 0 }.bytes <<< 1)

def recordLen (payload_len : ℕ) : ℕ := storageAlign4 (headerSize + payload_len)

/-- The buffer that is programmed: header, payload, padding. -/
def recordImage (type : UInt16) (seq tick_ms : UInt32) (payload : Bytes) : Bytes :=
  let h : StorageRecordHeader :=
    ⟨STORAGE_MAGIC, STORAGE_VERSION, type, seq, tick_ms, UInt16.ofNat payload.length, 0, 0⟩
  { h with crc32 := recordCrc h payload }.bytes ++ payload ++
    List.replicate (recordLen payload.length - headerSize - payload.length) 0xFF

def eventAccepts (h : StorageRecordHeader) : Bool := h.payloadLen.toNat ≤ STORAGE_MAX_PAYLOAD_LEN

def cacheAccepts (h : StorageRecordHeader) : Bool :=
  h.type = STORAGE_REC_CACHE ∧ h.payloadLen ≠ 0 ∧ h.payloadLen.toNat ≤ STORAGE_MAX_PAYLOAD_LEN

/-- The body of the scans: the record at the front of what is left of the region, if there is one.
An erased header ends the scan like one that is damaged. -/
def nextRecord (accepts : StorageRecordHeader → Bool) (b : Bytes) : Option (ℕ × Bytes) :=
  if b.length < headerSize then none
  else
    let hdr := header b
    if hdr.magic ≠ STORAGE_MAGIC ∨ hdr.version ≠ STORAGE_VERSION ∨ ¬ accepts hdr then none
    else
      let rec_len := recordLen hdr.payloadLen.toNat
      if b.length < rec_len then none
      else if hdr.crc32 ≠ recordCrc hdr ((b.drop headerSize).take hdr.payloadLen.toNat) then none
      else some (rec_len, b.take rec_len)

/-- The bytes of one record, complete and undamaged. -/
structure IsRecord (accepts : StorageRecordHeader → Bool) (img : Bytes) : Prop where
  magic : (header img).magic = STORAGE_MAGIC
  version : (header img).version = STORAGE_VERSION
  accepted : accepts (header img) = true
  length : img.length = recordLen (header img).payloadLen.toNat
  crc : (header img).crc32 =
    recordCrc (header img) ((img.drop headerSize).take (header img).payloadLen.toNat)

theorem headerSize_add_le_recordLen (payload_len : ℕ) :
    headerSize + payload_len ≤ recordLen payload_len := by
  unfold recordLen storageAlign4
  omega

theorem getD_front {img b : Bytes} (h : img <+: b) {i : ℕ} (hi : i < img.length) :
    b.getD i 0 = img.getD i 0 := by
  obtain ⟨c, rfl⟩ := h
  exact List.getD_append _ _ _ _ hi

theorem header_front {img b : Bytes} (h : img <+: b) (hlen : headerSize ≤ img.length) :
    header b = header img := by
  have hg : ∀ i < 24, b.getD i 0 = img.getD i 0 :=
    fun i hi => getD_front h (lt_of_lt_of_le hi hlen)
  unfold header read32 read16
  simp only [hg, Nat.reduceLT, Nat.reduceAdd]

theorem drop_take_front {img b : Bytes} (h : img <+: b) {i n : ℕ} (hn : i + n ≤ img.length) :
    (b.drop i).take n = (img.drop i).take n := by
  obtain ⟨c, rfl⟩ := h
  rw [List.drop_append_of_le_length (by omega), List.take_append_of_le_length]
  rw [List.length_drop]
  omega

theorem IsRecord.headerSize_le {accepts : StorageRecordHeader → Bool} {img : Bytes}
    (h : IsRecord accepts img) : headerSize + (header img).payloadLen.toNat ≤ img.length := by
  rw [h.length]
  exact headerSize_add_le_recordLen _

/-- The scan sees a record if the bytes of one stand in front. -/
theorem nextRecord_iff {accepts : StorageRecordHeader → Bool} {b : Bytes} {r : ℕ × Bytes} :
    nextRecord accepts b = some r ↔ r.1 = r.2.length ∧ IsRecord accepts r.2 ∧ r.2 <+: b := by
  constructor
  · intro h
    unfold nextRecord at h
    dsimp only at h
    by_cases hshort : b.length < headerSize
    · rw [if_pos hshort] at h
      cases h
    rw [if_neg hshort] at h
    by_cases hbad : (header b).magic ≠ STORAGE_MAGIC ∨ (header b).version ≠ STORAGE_VERSION ∨
        ¬ accepts (header b) = true
    · rw [if_pos hbad] at h
      cases h
    rw [if_neg hbad] at h
    simp only [not_or, not_not] at hbad
    by_cases hroom : b.length < recordLen (header b).payloadLen.toNat
    · rw [if_pos hroom] at h
      cases h
    rw [if_neg hroom] at h
    by_cases hcrc : (header b).crc32 ≠
        recordCrc (header b) ((b.drop headerSize).take (header b).payloadLen.toNat)
    · rw [if_pos hcrc] at h
      cases h
    rw [if_neg hcrc, Option.some.injEq] at h
    subst h
    -- the header of the whole is that of the record, which begins with it
    have hpre : b.take (recordLen (header b).payloadLen.toNat) <+: b := List.take_prefix _ _
    have htake : (b.take (recordLen (header b).payloadLen.toNat)).length =
        recordLen (header b).payloadLen.toNat := List.length_take_of_le (by omega)
    have hsize := headerSize_add_le_recordLen (header b).payloadLen.toNat
    have hhdr := header_front hpre (by omega)
    refine ⟨htake.symm, ⟨?_, ?_, ?_, ?_, ?_⟩, hpre⟩
    · rw [← hhdr]
      exact hbad.1
    · rw [← hhdr]
      exact hbad.2.1
    · rw [← hhdr]
      exact hbad.2.2
    · rw [← hhdr]
      exact htake
    · rw [← hhdr, ← drop_take_front hpre (by omega)]
      exact not_not.mp hcrc
  · obtain ⟨n, img⟩ := r
    rintro ⟨hn, himg, hpre⟩
    dsimp only at hn himg hpre
    subst hn
    have hsize := himg.headerSize_le
    have hle := hpre.length_le
    have hhdr := header_front hpre (by omega)
    have htake : b.take img.length = img := (List.prefix_iff_eq_take.mp hpre).symm
    unfold nextRecord
    dsimp only
    rw [if_neg (by omega), hhdr, if_neg, ← himg.length, if_neg (by omega),
      drop_take_front hpre hsize, if_neg (not_not.mpr himg.crc), htake]
    rw [not_or, not_or, not_not, not_not, not_not]
    exact ⟨himg.magic, himg.version, himg.accepted⟩

/-- Erased flash holds no record. -/
theorem nextRecord_blank (accepts : StorageRecordHeader → Bool) {m : Mem} {a n : ℕ}
    (h : Blank m a n) : nextRecord accepts (read m a n) = none := by
  rw [read_blank h]
  by_cases hn : headerSize ≤ n
  · have hpre : List.replicate headerSize (0xFF : UInt8) <+: List.replicate n 0xFF :=
      ⟨List.replicate (n - headerSize) 0xFF, by
        rw [List.replicate_append_replicate, Nat.add_sub_cancel' hn]⟩
    have hmagic : (header (List.replicate headerSize 0xFF)).magic ≠ STORAGE_MAGIC := by decide
    unfold nextRecord
    dsimp only
    rw [header_front hpre (List.length_replicate).ge, if_pos (Or.inl hmagic), ite_self]
  · exact if_pos (by rw [List.length_replicate]; omega)

def recordScanner (accepts : StorageRecordHeader → Bool) : Scanner UInt8 Bytes where
  next := nextRecord accepts
  pos := by
    intro b n img h
    obtain ⟨hn, himg, -⟩ := nextRecord_iff.mp h
    have hsize := himg.headerSize_le
    dsimp only at hn hsize
    unfold headerSize at hsize
    omega
  le_length := by
    intro b n img h
    obtain ⟨hn, -, hpre⟩ := nextRecord_iff.mp h
    exact le_of_eq_of_le hn hpre.length_le
  mono := by
    intro b n img c h
    obtain ⟨hn, himg, hpre⟩ := nextRecord_iff.mp h
    exact nextRecord_iff.mpr ⟨hn, himg, hpre.trans (List.prefix_append b c)⟩

/-- A record is seen from its own bytes alone. -/
theorem recordScanner_local (accepts : StorageRecordHeader → Bool) (b : Bytes) (r : ℕ × Bytes)
    (h : (recordScanner accepts).next b = some r) :
    (recordScanner accepts).next (b.take r.1) = some r := by
  obtain ⟨hn, himg, hpre⟩ := nextRecord_iff.mp h
  refine nextRecord_iff.mpr ⟨hn, himg, ?_⟩
  rw [hn, ← List.prefix_iff_eq_take.mp hpre]

theorem header_bytes (h : StorageRecordHeader) (rest : Bytes) : header (h.bytes ++ rest) = h := by
  simp only [header, StorageRecordHeader.bytes, List.append_assoc, read32_head, read16_head,
    read32_skip32, read16_skip32, read32_skip16, read16_skip16]

@[simp] theorem bytes_length (h : StorageRecordHeader) : h.bytes.length = headerSize := by
  simp [StorageRecordHeader.bytes, headerSize]

@[simp] theorem recordImage_length (type : UInt16) (seq tick_ms : UInt32) (payload : Bytes) :
    (recordImage type seq tick_ms payload).length = recordLen payload.length := by
  have h := headerSize_add_le_recordLen payload.length
  simp only [recordImage, List.length_append, bytes_length, List.length_replicate]
  omega

theorem header_recordImage (type : UInt16) (seq tick_ms : UInt32) (payload : Bytes) :
    ∃ crc, header (recordImage type seq tick_ms payload) =
      ⟨STORAGE_MAGIC, STORAGE_VERSION, type, seq, tick_ms, UInt16.ofNat payload.length, 0, crc⟩ := by
  unfold recordImage
  dsimp only
  rw [List.append_assoc, header_bytes]
  exact ⟨_, rfl⟩

theorem payload_recordImage (type : UInt16) (seq tick_ms : UInt32) (payload : Bytes) :
    ((recordImage type seq tick_ms payload).drop headerSize).take payload.length = payload := by
  unfold recordImage
  dsimp only
  rw [List.append_assoc, List.drop_left' (bytes_length _), List.take_left' rfl]

/-- A record that stands in the flash has its payload behind the header. -/
theorem read_payload {m : Mem} {a : ℕ} {type : UInt16} {seq tick_ms : UInt32} {payload : Bytes}
    (h : read m a (recordLen payload.length) = recordImage type seq tick_ms payload) :
    read m (a + headerSize) payload.length = payload := by
  rw [read_sub h (headerSize_add_le_recordLen payload.length)]
  exact payload_recordImage type seq tick_ms payload

theorem payloadLen_toNat {payload : Bytes} (h : payload.length ≤ STORAGE_MAX_PAYLOAD_LEN) :
    (UInt16.ofNat payload.length).toNat = payload.length := by
  unfold STORAGE_MAX_PAYLOAD_LEN at h
  exact UInt16.toNat_ofNat_of_lt' (by rw [UInt16.size]; omega)

theorem recordImage_isRecord {accepts : StorageRecordHeader → Bool} {type : UInt16}
    {seq tick_ms : UInt32} {payload : Bytes} (h : payload.length ≤ STORAGE_MAX_PAYLOAD_LEN)
    (haccepts : accepts (header (recordImage type seq tick_ms payload)) = true) :
    IsRecord accepts (recordImage type seq tick_ms payload) := by
  obtain ⟨crc, hhdr⟩ := header_recordImage type seq tick_ms payload
  have hcrc : crc = recordCrc ⟨STORAGE_MAGIC, STORAGE_VERSION, type, seq, tick_ms,
      UInt16.ofNat payload.length, 0, 0⟩ payload := by
    have hraw := congrArg StorageRecordHeader.crc32 hhdr
    unfold recordImage at hraw
    dsimp only at hraw
    rw [List.append_assoc, header_bytes] at hraw
    exact hraw.symm
  refine ⟨?_, ?_, haccepts, ?_, ?_⟩ <;> rw [hhdr] <;> dsimp only
  · rw [payloadLen_toNat h, recordImage_length]
  · rw [payloadLen_toNat h, payload_recordImage, hcrc]
    rfl

end EdgeLink.Storage
