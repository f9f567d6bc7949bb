import EdgeLink.StorageRecord

namespace EdgeLink.Storage
open LittleEndian Nor

/-! The storage task: the flash, and the cursors that it keeps in memory. -/

structure StorageCtx where
  mem : Mem
  eventWriteAddr : ℕ
  eventValidCount : ℕ
  cacheReadAddr : ℕ
  cacheWriteAddr : ℕ
  cacheBacklog : ℕ
  lastSeq : UInt32

@[irreducible] def regionBytes (g : Region) (m : Mem) : Bytes := read m g.base g.size

/-- The records counted, and the largest sequence number. -/
def countRecord (x : ℕ × UInt32) (r : ℕ × Bytes) : ℕ × UInt32 :=
  (x.1 + 1, if x.2 < (header r.2).seq then (header r.2).seq else x.2)

def storageScanEventRegion (s : StorageCtx) : StorageCtx :=
  let r := (recordScanner eventAccepts).drain countRecord (regionBytes eventRegion s.mem) (0, 0)
  { s with eventWriteAddr := eventRegion.stop - r.1.length, eventValidCount := r.2.1,
           lastSeq := r.2.2 }

def storageScanCacheRegion (s : StorageCtx) : StorageCtx :=
  let r := (recordScanner cacheAccepts).drain countRecord (regionBytes cacheRegion s.mem)
    (0, s.lastSeq)
  { s with cacheReadAddr := cacheRegion.base, cacheWriteAddr := cacheRegion.stop - r.1.length,
           cacheBacklog := r.2.1, lastSeq := r.2.2 }

/-- What the task starts from after a reset. -/
def storageBoot (m : Mem) : StorageCtx :=
  storageScanCacheRegion (storageScanEventRegion ⟨m, 0, 0, 0, 0, 0, 0⟩)

/-- With `life = some k` the power fails after `k` more operations of the flash. -/
def storageWriteRecord (s : StorageCtx) (life : Option ℕ) (rec_type : UInt16) (payload : Bytes)
    (tick_ms : UInt32) : StorageCtx × Bool :=
  if payload = [] ∨ STORAGE_MAX_PAYLOAD_LEN < payload.length then (s, false)
  else
    let total_len := recordLen payload.length
    let write_addr := if eventRegion.stop < s.eventWriteAddr + total_len then eventRegion.base
      else s.eventWriteAddr
    let seq := s.lastSeq + 1
    let r := storageWriteAt eventRegion (Ctl.start s.mem life) write_addr
      (recordImage rec_type seq tick_ms payload)
    if ¬ r.2 then ({ s with mem := r.1.mem, eventWriteAddr := write_addr }, false)
    else
      ({ s with mem := r.1.mem, lastSeq := seq, eventValidCount := s.eventValidCount + 1,
                eventWriteAddr := write_addr + total_len }, true)

/-- At the end of the region the cache starts over, without what is still in it. -/
def cacheWrap (s : StorageCtx) (total_len : ℕ) : StorageCtx :=
  if cacheRegion.stop < s.cacheWriteAddr + total_len then
    { s with cacheWriteAddr := cacheRegion.base, cacheReadAddr := cacheRegion.base,
             cacheBacklog := 0 }
  else s

def storageWriteCacheRecord (s : StorageCtx) (life : Option ℕ) (payload : Bytes) (tick_ms : UInt32) :
    StorageCtx × Bool :=
  if payload = [] ∨ STORAGE_MAX_PAYLOAD_LEN < payload.length then (s, false)
  else
    let total_len := recordLen payload.length
    let s := cacheWrap s total_len
    let seq := s.lastSeq + 1
    let r := storageWriteAt cacheRegion (Ctl.start s.mem life) s.cacheWriteAddr
      (recordImage STORAGE_REC_CACHE seq tick_ms payload)
    if ¬ r.2 then ({ s with mem := r.1.mem }, false)
    else
      ({ s with mem := r.1.mem, lastSeq := seq, cacheWriteAddr := s.cacheWriteAddr + total_len,
                cacheBacklog := s.cacheBacklog + 1 }, true)

structure StorageCachedRecord where
  seq : UInt32
  payload : Bytes
  deriving DecidableEq, Repr

/-- A damaged header makes it scan the region again. -/
def storagePeekCache (s : StorageCtx) : StorageCtx × Option StorageCachedRecord :=
  if s.cacheBacklog = 0 then (s, none)
  else
    let hdr := header (read s.mem s.cacheReadAddr headerSize)
    if hdr.magic ≠ STORAGE_MAGIC ∨ ¬ cacheAccepts hdr then (storageScanCacheRegion s, none)
    else if ¬ cacheRegion.inRange s.cacheReadAddr (recordLen hdr.payloadLen.toNat) then (s, none)
    else (s, some ⟨hdr.seq, read s.mem (s.cacheReadAddr + headerSize) hdr.payloadLen.toNat⟩)

def storageMarkCacheAck (s : StorageCtx) (seq : UInt32) : StorageCtx × Bool :=
  if s.cacheBacklog = 0 then (s, false)
  else
    let hdr := header (read s.mem s.cacheReadAddr headerSize)
    if hdr.seq ≠ seq then (s, false)
    else
      let next := s.cacheReadAddr + recordLen hdr.payloadLen.toNat
      ({ s with cacheReadAddr := if cacheRegion.stop ≤ next then cacheRegion.base else next,
                cacheBacklog := s.cacheBacklog - 1 }, true)

/-- The payloads that are written at all. -/
def Writable (payload : Bytes) : Prop :=
  payload ≠ [] ∧ payload.length ≤ STORAGE_MAX_PAYLOAD_LEN

instance (payload : Bytes) : Decidable (Writable payload) :=
  inferInstanceAs (Decidable (_ ∧ _))

theorem not_writable_iff (payload : Bytes) :
    ¬ Writable payload ↔ payload = [] ∨ STORAGE_MAX_PAYLOAD_LEN < payload.length := by
  rw [Writable, not_and_or, not_not, not_le]

theorem recordLen_pos (payload_len : ℕ) : 0 < recordLen payload_len :=
  lt_of_lt_of_le (by unfold headerSize; omega) (headerSize_add_le_recordLen payload_len)

theorem recordLen_le {payload : Bytes} (h : Writable payload) : recordLen payload.length ≤ 216 := by
  have hlen := h.2
  unfold STORAGE_MAX_PAYLOAD_LEN at hlen
  unfold recordLen storageAlign4 headerSize
  omega

@[simp] theorem cacheWrap_mem (s : StorageCtx) (n : ℕ) : (cacheWrap s n).mem = s.mem := by
  unfold cacheWrap
  split_ifs <;> rfl

@[simp] theorem cacheWrap_lastSeq (s : StorageCtx) (n : ℕ) :
    (cacheWrap s n).lastSeq = s.lastSeq := by
  unfold cacheWrap
  split_ifs <;> rfl

/-- Where a record with this payload goes, -/
def cacheTarget (s : StorageCtx) (payload : Bytes) : ℕ :=
  (cacheWrap s (recordLen payload.length)).cacheWriteAddr

/-- and what it is. -/
def cacheImage (s : StorageCtx) (payload : Bytes) (tick_ms : UInt32) : Bytes :=
  recordImage STORAGE_REC_CACHE (s.lastSeq + 1) tick_ms payload

/-- The flash with it. -/
def cacheWritten (s : StorageCtx) (payload : Bytes) (tick_ms : UInt32) : Mem :=
  (storageWriteAt cacheRegion (Ctl.start s.mem none) (cacheTarget s payload)
    (cacheImage s payload tick_ms)).1.mem

theorem cacheImage_length (s : StorageCtx) (payload : Bytes) (tick_ms : UInt32) :
    (cacheImage s payload tick_ms).length = recordLen payload.length := recordImage_length _ _ _ _

section CacheWrite
variable {s : StorageCtx} {payload : Bytes} (tick_ms : UInt32)

theorem cacheTarget_le (hw : Writable payload) (hbase : cacheRegion.base ≤ s.cacheWriteAddr) :
    cacheRegion.base ≤ cacheTarget s payload ∧
      cacheTarget s payload + recordLen payload.length ≤ cacheRegion.stop := by
  have hlen := recordLen_le hw
  have hroom : cacheRegion.base + 216 ≤ cacheRegion.stop := by decide
  unfold cacheTarget cacheWrap
  split_ifs
  · exact ⟨le_rfl, by dsimp only; omega⟩
  · exact ⟨hbase, by omega⟩

variable (hw : Writable payload) (hbase : cacheRegion.base ≤ s.cacheWriteAddr)
include hw hbase

theorem cacheWritten_ok :
    (storageWriteAt cacheRegion (Ctl.start s.mem none) (cacheTarget s payload)
        (cacheImage s payload tick_ms)).2 = true ∧
      read (cacheWritten s payload tick_ms) (cacheTarget s payload) (recordLen payload.length) =
        cacheImage s payload tick_ms := by
  have hlen := cacheImage_length s payload tick_ms
  obtain ⟨htarget, hstop⟩ := cacheTarget_le hw hbase
  have hok := @writeAt_ok cacheRegion (Ctl.start s.mem none) (cacheTarget s payload)
    (cacheImage s payload tick_ms) rfl (by rw [hlen]; exact recordLen_pos _) htarget
    (by rw [hlen]; exact hstop)
  rw [hlen] at hok
  exact hok

theorem storageWriteCacheRecord_ok :
    storageWriteCacheRecord s none payload tick_ms =
      ({ cacheWrap s (recordLen payload.length) with
          mem := cacheWritten s payload tick_ms
          lastSeq := s.lastSeq + 1
          cacheWriteAddr := cacheTarget s payload + recordLen payload.length
          cacheBacklog := (cacheWrap s (recordLen payload.length)).cacheBacklog + 1 }, true) := by
  have hok := (cacheWritten_ok tick_ms hw hbase).1
  unfold cacheTarget cacheImage at hok
  unfold storageWriteCacheRecord
  dsimp only
  rw [if_neg fun h => (not_writable_iff payload).mpr h hw, cacheWrap_mem, cacheWrap_lastSeq,
    if_neg (not_not.mpr hok)]
  rfl

end CacheWrite

theorem storageWriteCacheRecord_of_not_writable {payload : Bytes} (hw : ¬ Writable payload)
    (s : StorageCtx) (life : Option ℕ) (tick_ms : UInt32) :
    storageWriteCacheRecord s life payload tick_ms = (s, false) :=
  if_pos ((not_writable_iff payload).mp hw)

theorem regionBytes_eq (g : Region) (m : Mem) : regionBytes g m = read m g.base g.size := by
  rw [regionBytes]

theorem regionBytes_length (g : Region) (m : Mem) : (regionBytes g m).length = g.size := by
  rw [regionBytes_eq, read_length]

/-- Those that a scan comes upon, in order. -/
def scanned (accepts : StorageRecordHeader → Bool) (b : Bytes) : List Bytes :=
  ((recordScanner accepts).drain (fun x r => x ++ [r.2]) b []).2

theorem drain_records (accepts : StorageRecordHeader → Bool) (b : Bytes) (x : List Bytes) :
    x.flatten ++ b = ((recordScanner accepts).drain (fun x r => x ++ [r.2]) b x).2.flatten ++
      ((recordScanner accepts).drain (fun x r => x ++ [r.2]) b x).1 := by
  induction b using (recordScanner accepts).induct generalizing x with
  | stop b h => rw [(recordScanner accepts).drain_stop _ x h]
  | go b r h ih =>
    obtain ⟨hn, -, hpre⟩ := nextRecord_iff.mp h
    have hfront : r.2 ++ b.drop r.1 = b := by
      obtain ⟨c, rfl⟩ := hpre
      rw [hn, List.drop_left]
    rw [(recordScanner accepts).drain_go _ x h, ← ih, List.flatten_append, List.flatten_singleton,
      List.append_assoc, hfront]

theorem drain_isRecord (accepts : StorageRecordHeader → Bool) (b : Bytes) {x : List Bytes}
    (hx : ∀ img ∈ x, IsRecord accepts img) :
    ∀ img ∈ ((recordScanner accepts).drain (fun x r => x ++ [r.2]) b x).2,
      IsRecord accepts img := by
  induction b using (recordScanner accepts).induct generalizing x with
  | stop b h =>
    rw [(recordScanner accepts).drain_stop _ x h]
    exact hx
  | go b r h ih =>
    rw [(recordScanner accepts).drain_go _ x h]
    refine ih (List.forall_mem_append.mpr ⟨hx, fun img himg => ?_⟩)
    rw [List.mem_singleton.mp himg]
    exact (nextRecord_iff.mp h).2.1

theorem scanned_isRecord (accepts : StorageRecordHeader → Bool) (b : Bytes) :
    ∀ img ∈ scanned accepts b, IsRecord accepts img :=
  drain_isRecord accepts b fun _ h => absurd h List.not_mem_nil

theorem scanned_blank (accepts : StorageRecordHeader → Bool) {m : Mem} {a n : ℕ}
    (h : Blank m a n) : scanned accepts (read m a n) = [] := by
  unfold scanned
  rw [(recordScanner accepts).drain_stop _ _ (nextRecord_blank accepts h)]

/-- A scan stops behind the records that it has come upon, and has counted them. -/
theorem drain_count (accepts : StorageRecordHeader → Bool) (b : Bytes) (seq : UInt32) :
    ((recordScanner accepts).drain countRecord b (0, seq)).2.1 = (scanned accepts b).length ∧
      b = (scanned accepts b).flatten ++
        ((recordScanner accepts).drain countRecord b (0, seq)).1 := by
  obtain ⟨hrest, hcount⟩ := (recordScanner accepts).drain_rel (f := countRecord)
    (g := fun x r => x ++ [r.2]) (R := fun x y => x.1 = y.length)
    (fun x y _ r _ h => by rw [List.length_append, List.length_singleton, countRecord, h]) b
    (x := (0, seq)) (y := []) rfl
  refine ⟨hcount, ?_⟩
  rw [hrest]
  exact drain_records accepts b []

theorem read_front {m : Mem} {a n : ℕ} {b c : Bytes} (h : read m a n = b ++ c) :
    read m a b.length = b := by
  have hlen : n = b.length + c.length := by
    rw [← List.length_append, ← h, read_length]
  rw [hlen, read_add] at h
  exact List.append_inj_left h (read_length _ _ _)

theorem storageScanCacheRegion_eq (s : StorageCtx) {rest : Bytes} {x : ℕ × UInt32}
    (h : (recordScanner cacheAccepts).drain countRecord (regionBytes cacheRegion s.mem)
      (0, s.lastSeq) = (rest, x)) :
    storageScanCacheRegion s = { s with
      cacheReadAddr := cacheRegion.base
      cacheWriteAddr := cacheRegion.stop - rest.length
      cacheBacklog := x.1
      lastSeq := x.2 } := by
  rw [storageScanCacheRegion, h]

/-- After a scan the cache ends behind the records that were found, and they are its backlog. -/
theorem storageScanCacheRegion_spec (s : StorageCtx) :
    (storageScanCacheRegion s).cacheBacklog =
        (scanned cacheAccepts (regionBytes cacheRegion s.mem)).length ∧
      (storageScanCacheRegion s).cacheWriteAddr = cacheRegion.base +
        (scanned cacheAccepts (regionBytes cacheRegion s.mem)).flatten.length ∧
      (scanned cacheAccepts (regionBytes cacheRegion s.mem)).flatten.length ≤ cacheRegion.size ∧
      read s.mem cacheRegion.base
          (scanned cacheAccepts (regionBytes cacheRegion s.mem)).flatten.length =
        (scanned cacheAccepts (regionBytes cacheRegion s.mem)).flatten := by
  obtain ⟨hcount, hsplit⟩ := drain_count cacheAccepts (regionBytes cacheRegion s.mem) s.lastSeq
  rcases hscan : (recordScanner cacheAccepts).drain countRecord (regionBytes cacheRegion s.mem)
    (0, s.lastSeq) with ⟨rest, x⟩
  rw [hscan] at hcount hsplit
  dsimp only at hcount hsplit
  have hlen := congrArg List.length hsplit
  rw [regionBytes_length, List.length_append] at hlen
  rw [storageScanCacheRegion_eq s hscan]
  refine ⟨hcount, ?_, ?_, read_front ((regionBytes_eq _ _).symm.trans hsplit)⟩
  · dsimp only
    rw [Region.stop]
    omega
  · rw [hlen]
    exact Nat.le_add_right _ _

theorem storageScanEventRegion_eq (s : StorageCtx) {rest : Bytes} {x : ℕ × UInt32}
    (h : (recordScanner eventAccepts).drain countRecord (regionBytes eventRegion s.mem) (0, 0) =
      (rest, x)) :
    storageScanEventRegion s = { s with
      eventWriteAddr := eventRegion.stop - rest.length
      eventValidCount := x.1
      lastSeq := x.2 } := by
  rw [storageScanEventRegion, h]

theorem storageScanEventRegion_mem (s : StorageCtx) :
    (storageScanEventRegion s).mem = s.mem := by
  rw [storageScanEventRegion_eq s Prod.mk.eta.symm]

theorem storageBoot_cache (m : Mem) :
    (storageBoot m).cacheBacklog = (scanned cacheAccepts (regionBytes cacheRegion m)).length ∧
      (storageBoot m).cacheWriteAddr = cacheRegion.base +
        (scanned cacheAccepts (regionBytes cacheRegion m)).flatten.length ∧
      (scanned cacheAccepts (regionBytes cacheRegion m)).flatten.length ≤ cacheRegion.size ∧
      read m cacheRegion.base (scanned cacheAccepts (regionBytes cacheRegion m)).flatten.length =
        (scanned cacheAccepts (regionBytes cacheRegion m)).flatten := by
  have h := storageScanCacheRegion_spec (storageScanEventRegion ⟨m, 0, 0, 0, 0, 0, 0⟩)
  rw [storageScanEventRegion_mem] at h
  unfold storageBoot
  exact h

theorem storageBoot_mem (m : Mem) : (storageBoot m).mem = m := by
  rw [storageBoot, storageScanCacheRegion_eq _ Prod.mk.eta.symm]
  dsimp only
  rw [storageScanEventRegion_mem]

theorem storageBoot_cacheReadAddr (m : Mem) :
    (storageBoot m).cacheReadAddr = cacheRegion.base := by
  rw [storageBoot, storageScanCacheRegion_eq _ Prod.mk.eta.symm]

end EdgeLink.Storage
