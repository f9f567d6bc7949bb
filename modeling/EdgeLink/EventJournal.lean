import EdgeLink.Machine
import EdgeLink.StorageTask

namespace EdgeLink.Storage
open LittleEndian Nor Machine

abbrev eventScanner : Scanner UInt8 Bytes := recordScanner eventAccepts

/-- What a scan comes upon: the offset of each record in the region, and its bytes. -/
def eventLog (m : Mem) : List (ℕ × Bytes) := eventScanner.log (regionBytes eventRegion m)

structure EventWrite where
  recType : UInt16
  payload : Bytes
  tickMs : UInt32
  life : Option ℕ

/-- A write. If the power is to fail, it has failed by the end of the call, and the task starts
again. -/
def journalStep (s : StorageCtx) (e : EventWrite) : StorageCtx × Bool :=
  let r := storageWriteRecord s e.life e.recType e.payload e.tickMs
  if e.life.isSome then (storageBoot r.1.mem, r.2) else r

def eventImage (s : StorageCtx) (e : EventWrite) : Bytes :=
  recordImage e.recType (s.lastSeq + 1) e.tickMs e.payload

def eventTarget (s : StorageCtx) (payload : Bytes) : ℕ :=
  if eventRegion.stop < s.eventWriteAddr + recordLen payload.length then eventRegion.base
  else s.eventWriteAddr

/-- The records whose write has returned true, and where they were put. -/
def Acked.observe (s : StorageCtx) (acked : List (ℕ × Bytes)) (e : EventWrite) (ok : Bool) :
    List (ℕ × Bytes) :=
  if ok then acked ++ [(eventTarget s e.payload - eventRegion.base, eventImage s e)] else acked

def journalWatched := watched journalStep Acked.observe

/-- A scan at this point counts the record, stops behind it and has at least its number. -/
structure FoundAgain (s : StorageCtx) (rec : ℕ × Bytes) : Prop where
  logged : rec ∈ eventLog s.mem
  stands : read s.mem (eventRegion.base + rec.1) rec.2.length = rec.2
  counted : (storageScanEventRegion s).eventValidCount = (eventLog s.mem).length
  behind : eventRegion.base + rec.1 + rec.2.length ≤ (storageScanEventRegion s).eventWriteAddr
  lastSeq : (header rec.2).seq ≤ (storageScanEventRegion s).lastSeq

/-- After the write, and the failure if there is one, every acknowledged record is found. -/
def KeepsAcked (w : StorageCtx × List (ℕ × Bytes)) (e : EventWrite) : Prop :=
  ∀ rec ∈ (journalWatched w e).1.2, FoundAgain (journalWatched w e).1.1 rec

/-- The record still fits, and where it goes the flash is erased, or else it is erased from the
start of the sector up to there. -/
def EventRoom (w : StorageCtx × List (ℕ × Bytes)) (e : EventWrite) : Prop :=
  Writable e.payload → w.1.eventWriteAddr + recordLen e.payload.length ≤ eventRegion.stop ∧
    Spares w.1.mem w.1.eventWriteAddr (recordLen e.payload.length)

/-- Up to `addr` there are these records and nothing else. -/
structure Found (g : Region) (accepts : StorageRecordHeader → Bool) (m : Mem) (addr : ℕ)
    (found : List (ℕ × Bytes)) : Prop where
  base_le : g.base ≤ addr
  le_stop : addr ≤ g.stop
  drained : (recordScanner accepts).drain Scanner.note (read m g.base (addr - g.base)) (0, []) =
    ([], (addr - g.base, found))

section Found
variable {g : Region} {accepts : StorageRecordHeader → Bool} {m : Mem} {addr : ℕ}
  {found : List (ℕ × Bytes)}

theorem Found.scan (h : Found g accepts m addr found) :
    (recordScanner accepts).drain Scanner.note (regionBytes g m) (0, []) =
      (recordScanner accepts).drain Scanner.note (read m addr (g.stop - addr))
        (addr - g.base, found) := by
  have hle := h.base_le
  have hstop := h.le_stop
  have hsize : g.size = addr - g.base + (g.stop - addr) := by
    unfold Region.stop at *
    omega
  rw [regionBytes_eq, hsize, read_add, (recordScanner accepts).drain_append, h.drained,
    List.nil_append, Nat.add_sub_cancel' hle]

theorem Found.congr {m' : Mem} (h : Found g accepts m addr found)
    (hm : ∀ x, x < addr → m' x = m x) : Found g accepts m' addr found := by
  have hle := h.base_le
  have hsame : AgreeOn m' m g.base (addr - g.base) := fun x _ hx => hm x (by omega)
  refine ⟨hle, h.le_stop, ?_⟩
  rw [read_congr hsame]
  exact h.drained

/-- What is found up to some point is found by every scan. -/
theorem Found.mem_log (h : Found g accepts m addr found) {p : ℕ × Bytes} (hp : p ∈ found) :
    p ∈ (recordScanner accepts).log (regionBytes g m) := by
  unfold Scanner.log
  rw [h.scan]
  exact (Scanner.mem_drain_note _ _ p).mpr (Or.inl hp)

/-- One more record. -/
theorem Found.push (h : Found g accepts m addr found) {img : Bytes} (himg : IsRecord accepts img)
    (hread : read m addr img.length = img) (hstop : addr + img.length ≤ g.stop) :
    Found g accepts m (addr + img.length) (found ++ [(addr - g.base, img)]) := by
  have hle := h.base_le
  have hnext : (recordScanner accepts).next img = some (img.length, img) :=
    nextRecord_iff.mpr ⟨rfl, himg, List.prefix_refl img⟩
  have hlen : addr + img.length - g.base = addr - g.base + img.length := by omega
  refine ⟨by omega, hstop, ?_⟩
  rw [hlen, read_add, Nat.add_sub_cancel' hle, (recordScanner accepts).drain_append, h.drained,
    hread, List.nil_append, (recordScanner accepts).drain_go _ _ hnext, List.drop_length]
  exact (recordScanner accepts).drain_stop _ _ (recordScanner accepts).next_nil

/-- A scan stops where there is nothing else, and what it has come upon stands there. -/
theorem found_of_scan (g : Region) (accepts : StorageRecordHeader → Bool) (m : Mem) :
    Found g accepts m
      (g.stop - ((recordScanner accepts).drain Scanner.note (regionBytes g m) (0, [])).1.length)
      ((recordScanner accepts).log (regionBytes g m)) := by
  have hplace := (recordScanner accepts).note_place (regionBytes g m) (0, [])
  have htake := (recordScanner accepts).drain_take (recordScanner_local accepts) Scanner.note
    (regionBytes g m) (0, [])
  rw [regionBytes_length] at hplace htake
  unfold Scanner.log
  generalize (recordScanner accepts).drain Scanner.note (regionBytes g m) (0, []) = r at *
  obtain ⟨rest, place, found⟩ := r
  dsimp only at hplace htake ⊢
  have hsize : g.stop - rest.length - g.base = place := by
    rw [Region.stop]
    omega
  have hcut := read_sub (regionBytes_eq g m).symm (i := 0) (k := place) (by omega)
  rw [List.drop_zero, Nat.add_zero, show place = g.size - rest.length by omega] at hcut
  refine ⟨by rw [Region.stop]; omega, Nat.sub_le _ _, ?_⟩
  rw [hsize, show place = g.size - rest.length by omega, hcut, htake]
  exact congrArg (fun k => ([], (k, found))) (by omega)

theorem countRecord_le (x : ℕ × UInt32) (r : ℕ × Bytes) :
    x.2 ≤ (countRecord x r).2 ∧ (header r.2).seq ≤ (countRecord x r).2 := by
  unfold countRecord
  dsimp only
  split_ifs with hlt
  · exact ⟨UInt32.le_of_lt hlt, UInt32.le_refl _⟩
  · exact ⟨UInt32.le_refl _, UInt32.not_lt.mp hlt⟩

theorem scan_counts (accepts : StorageRecordHeader → Bool) (b : Bytes) :
    ((recordScanner accepts).drain countRecord b (0, 0)).1 =
        ((recordScanner accepts).drain Scanner.note b (0, [])).1 ∧
      ((recordScanner accepts).drain countRecord b (0, 0)).2.1 =
        ((recordScanner accepts).log b).length ∧
      ∀ p ∈ (recordScanner accepts).log b,
        (header p.2).seq ≤ ((recordScanner accepts).drain countRecord b (0, 0)).2.2 := by
  have hrel := (recordScanner accepts).drain_rel (f := countRecord) (g := Scanner.note)
    (R := fun x y => x.1 = y.2.length ∧ ∀ p ∈ y.2, (header p.2).seq ≤ x.2)
    (fun x y _ r _ ⟨hlen, hseq⟩ => by
      have hmax := countRecord_le x r
      refine ⟨?_, List.forall_mem_append.mpr ⟨fun p hp => UInt32.le_trans (hseq p hp) hmax.1,
        fun p hp => ?_⟩⟩
      · rw [countRecord, Scanner.note, List.length_append, List.length_singleton, hlen]
      · rw [List.mem_singleton.mp hp]
        exact hmax.2)
    b (x := (0, 0)) (y := (0, [])) ⟨rfl, fun p hp => absurd hp List.not_mem_nil⟩
  exact hrel

theorem logged_stands {p : ℕ × Bytes} (hp : p ∈ (recordScanner accepts).log (regionBytes g m)) :
    read m (g.base + p.1) p.2.length = p.2 ∧ g.base + p.1 + p.2.length ≤ g.stop -
      ((recordScanner accepts).drain Scanner.note (regionBytes g m) (0, [])).1.length := by
  obtain ⟨i, img⟩ := p
  obtain ⟨hreach, n, hnext⟩ := (Scanner.mem_log _ i img).mp hp
  obtain ⟨hn, himg, hpre⟩ := nextRecord_iff.mp hnext
  have hend := (hreach.step hnext).le_drain Scanner.note (0, [])
  have hlen := hpre.length_le
  dsimp only at hn hpre hlen ⊢
  rw [regionBytes_length] at hend
  rw [List.length_drop, regionBytes_length] at hlen
  have hle := hreach.le_length
  rw [regionBytes_length] at hle
  constructor
  · rw [read_sub (regionBytes_eq g m).symm (by omega)]
    exact (List.prefix_iff_eq_take.mp hpre).symm
  · rw [Region.stop]
    omega

end Found

theorem storageScanEventRegion_spec (s : StorageCtx) :
    (storageScanEventRegion s).eventWriteAddr = eventRegion.stop -
        (eventScanner.drain Scanner.note (regionBytes eventRegion s.mem) (0, [])).1.length ∧
      (storageScanEventRegion s).eventValidCount = (eventLog s.mem).length ∧
      ∀ p ∈ eventLog s.mem, (header p.2).seq ≤ (storageScanEventRegion s).lastSeq := by
  obtain ⟨hrest, hcount, hseq⟩ := scan_counts eventAccepts (regionBytes eventRegion s.mem)
  rcases hscan : eventScanner.drain countRecord (regionBytes eventRegion s.mem) (0, 0) with
    ⟨rest, x⟩
  rw [hscan] at hrest hcount hseq
  dsimp only at hrest hcount hseq
  rw [storageScanEventRegion_eq s hscan]
  dsimp only
  rw [hrest]
  exact ⟨rfl, hcount, hseq⟩

/-- The records up to the write cursor are found again by a scan. -/
theorem Found.again {s : StorageCtx} {addr : ℕ} {found : List (ℕ × Bytes)}
    (h : Found eventRegion eventAccepts s.mem addr found) {rec : ℕ × Bytes} (hrec : rec ∈ found) :
    FoundAgain s rec := by
  obtain ⟨hwrite, hcount, hseq⟩ := storageScanEventRegion_spec s
  have hlogged := h.mem_log hrec
  obtain ⟨hstands, hbehind⟩ := logged_stands hlogged
  refine ⟨hlogged, hstands, hcount, ?_, hseq rec hlogged⟩
  rw [hwrite]
  exact hbehind

theorem storageBoot_eventWriteAddr (m : Mem) : (storageBoot m).eventWriteAddr = eventRegion.stop -
    (eventScanner.drain Scanner.note (regionBytes eventRegion m) (0, [])).1.length := by
  have hwrite := (storageScanEventRegion_spec ⟨m, 0, 0, 0, 0, 0, 0⟩).1
  rw [storageBoot, storageScanCacheRegion_eq _ Prod.mk.eta.symm]
  exact hwrite

theorem storageBoot_found (m : Mem) :
    Found eventRegion eventAccepts m (storageBoot m).eventWriteAddr (eventLog m) := by
  rw [storageBoot_eventWriteAddr]
  exact found_of_scan eventRegion eventAccepts m

/-- A scan stops where no record follows. -/
theorem Found.stops {m : Mem} {addr : ℕ} {found : List (ℕ × Bytes)}
    (h : Found eventRegion eventAccepts m addr found)
    (hnone : nextRecord eventAccepts (read m addr (eventRegion.stop - addr)) = none) :
    (storageBoot m).eventWriteAddr = addr := by
  have hstop := h.le_stop
  rw [storageBoot_eventWriteAddr, h.scan, eventScanner.drain_stop _ _ hnone]
  dsimp only
  rw [read_length]
  exact Nat.sub_sub_self hstop

section Write
variable {s : StorageCtx} {e : EventWrite}

/-- The flash after the write, and whether it succeeded. -/
def eventWritten (s : StorageCtx) (e : EventWrite) : Ctl × Bool :=
  storageWriteAt eventRegion (Ctl.start s.mem e.life) (eventTarget s e.payload) (eventImage s e)

theorem storageWriteRecord_eq (hw : Writable e.payload) :
    storageWriteRecord s e.life e.recType e.payload e.tickMs =
      if ¬ (eventWritten s e).2 then
        ({ s with
            mem := (eventWritten s e).1.mem
            eventWriteAddr := eventTarget s e.payload }, false)
      else
        ({ s with
            mem := (eventWritten s e).1.mem
            lastSeq := s.lastSeq + 1
            eventValidCount := s.eventValidCount + 1
            eventWriteAddr := eventTarget s e.payload + recordLen e.payload.length }, true) := by
  unfold storageWriteRecord
  rw [if_neg fun h => (not_writable_iff e.payload).mpr h hw]
  rfl

variable {found : List (ℕ × Bytes)}
  (h : Found eventRegion eventAccepts s.mem s.eventWriteAddr found)
include h

theorem write_found (hw : Writable e.payload)
    (hstop : s.eventWriteAddr + recordLen e.payload.length ≤ eventRegion.stop)
    (hspares : Spares s.mem s.eventWriteAddr (recordLen e.payload.length)) :
    (storageWriteRecord s e.life e.recType e.payload e.tickMs).2 = (eventWritten s e).2 ∧
      Found eventRegion eventAccepts
        (storageWriteRecord s e.life e.recType e.payload e.tickMs).1.mem
        (storageWriteRecord s e.life e.recType e.payload e.tickMs).1.eventWriteAddr
        (if (eventWritten s e).2
          then found ++ [(s.eventWriteAddr - eventRegion.base, eventImage s e)] else found) := by
  have htarget : eventTarget s e.payload = s.eventWriteAddr := if_neg (Nat.not_lt.mpr hstop)
  have hlen : (eventImage s e).length = recordLen e.payload.length := recordImage_length _ _ _ _
  have hkept : Found eventRegion eventAccepts (eventWritten s e).1.mem s.eventWriteAddr found := by
    refine h.congr fun x hx => ?_
    unfold eventWritten
    rw [htarget]
    exact writeAt_spares (by rw [hlen]; exact hspares) hx
  rw [storageWriteRecord_eq hw, htarget]
  cases hok : (eventWritten s e).2 with
  | false => exact ⟨rfl, hkept⟩
  | true =>
    refine ⟨rfl, ?_⟩
    have himg : IsRecord eventAccepts (eventImage s e) := by
      refine recordImage_isRecord hw.2 ?_
      obtain ⟨crc, hhdr⟩ := header_recordImage e.recType (s.lastSeq + 1) e.tickMs e.payload
      rw [hhdr, eventAccepts, decide_eq_true_eq]
      dsimp only
      rw [payloadLen_toNat hw.2]
      exact hw.2
    have hverified : read (eventWritten s e).1.mem (eventTarget s e.payload)
        (eventImage s e).length = eventImage s e := by
      unfold eventWritten at hok ⊢
      exact writeAt_verified hok
    rw [htarget] at hverified
    have hpush := hkept.push himg hverified (by rw [hlen]; exact hstop)
    rw [hlen] at hpush
    exact hpush

end Write

/-- All that is acknowledged is found up to the write cursor. -/
def Kept (w : StorageCtx × List (ℕ × Bytes)) : Prop :=
  ∃ found, Found eventRegion eventAccepts w.1.mem w.1.eventWriteAddr found ∧ ∀ rec ∈ w.2, rec ∈ found

theorem kept_boot {m : Mem} {acked : List (ℕ × Bytes)} (h : ∀ rec ∈ acked, rec ∈ eventLog m) :
    Kept (storageBoot m, acked) := by
  refine ⟨eventLog m, ?_, h⟩
  dsimp only
  rw [storageBoot_mem]
  exact storageBoot_found m

theorem kept_step (w : StorageCtx × List (ℕ × Bytes)) (e : EventWrite) (h : Kept w)
    (hroom : EventRoom w e) : Kept (journalWatched w e).1 ∧ KeepsAcked w e := by
  obtain ⟨s, acked⟩ := w
  obtain ⟨found, hfound, hacked⟩ := h
  dsimp only at hfound hacked
  suffices hkept : Kept (journalWatched (s, acked) e).1 by
    obtain ⟨found', hfound', hacked'⟩ := hkept
    exact ⟨⟨found', hfound', hacked'⟩, fun rec hrec => hfound'.again (hacked' rec hrec)⟩
  -- what the call leaves, before the task may start again
  have hcall : ∃ found', Found eventRegion eventAccepts
      (storageWriteRecord s e.life e.recType e.payload e.tickMs).1.mem
      (storageWriteRecord s e.life e.recType e.payload e.tickMs).1.eventWriteAddr found' ∧
      ∀ rec ∈ Acked.observe s acked e
        (storageWriteRecord s e.life e.recType e.payload e.tickMs).2, rec ∈ found' := by
    by_cases hw : Writable e.payload
    · obtain ⟨hstop, hspares⟩ := hroom hw
      obtain ⟨hok, hfound'⟩ := write_found (e := e) hfound hw hstop hspares
      have htarget : eventTarget s e.payload = s.eventWriteAddr := if_neg (Nat.not_lt.mpr hstop)
      refine ⟨_, hfound', ?_⟩
      unfold Acked.observe
      rw [hok, htarget]
      split_ifs
      · exact List.forall_mem_append.mpr
          ⟨fun rec hrec => List.mem_append_left _ (hacked rec hrec),
            fun rec hrec => List.mem_append_right _ hrec⟩
      · exact hacked
    · rw [show storageWriteRecord s e.life e.recType e.payload e.tickMs = (s, false) from
        if_pos ((not_writable_iff _).mp hw)]
      exact ⟨found, hfound, hacked⟩
  obtain ⟨found', hfound', hacked'⟩ := hcall
  unfold journalWatched watched journalStep
  dsimp only
  by_cases hlife : e.life.isSome = true
  · rw [if_pos hlife]
    exact kept_boot fun rec hrec => hfound'.mem_log (hacked' rec hrec)
  · rw [if_neg hlife]
    exact ⟨found', hfound', hacked'⟩

theorem recordImage_front (type : UInt16) (seq tick_ms : UInt32) (payload : Bytes) :
    ∃ rest, recordImage type seq tick_ms payload = 0x47 :: 0x4C :: rest := by
  have hmagic : bytes32 STORAGE_MAGIC = [0x47, 0x4C, 0x48, 0x53] := by decide
  unfold recordImage StorageRecordHeader.bytes
  dsimp only
  rw [hmagic]
  simp only [List.cons_append]
  exact ⟨_, rfl⟩

theorem pageProgram_torn {m : Mem} {addr : ℕ} {b b' : UInt8} {buf : Bytes}
    (h : addr + 1 ≤ STORAGE_FLASH_SIZE) :
    ∃ c, devStoragePageProgram (Ctl.start m (some 1)) addr (b :: b' :: buf) = (c, false) ∧
      c.mem = program m addr [b] := by
  have hfirst : (Ctl.start m (some 1)).issue 0 STORAGE_FLASH_SIZE (.program addr [b]) = (_, true) :=
    Ctl.issue_ok (by simp) ⟨Nat.zero_le _, h⟩
  rw [devStoragePageProgram, hfirst]
  dsimp only
  rw [devStoragePageProgram, Ctl.issue_fail rfl]
  exact ⟨_, rfl, rfl⟩

theorem writeAt_torn {g : Region} {m : Mem} {addr : ℕ} {b b' : UInt8} {buf : Bytes}
    (hblank : Blank m addr (b :: b' :: buf).length) (hbase : g.base ≤ addr)
    (hstop : addr + (b :: b' :: buf).length ≤ g.stop)
    (hpage : addr % STORAGE_PAGE_SIZE + 2 ≤ STORAGE_PAGE_SIZE) :
    (storageWriteAt g (Ctl.start m (some 1)) addr (b :: b' :: buf)).2 = false ∧
      (storageWriteAt g (Ctl.start m (some 1)) addr (b :: b' :: buf)).1.mem =
        program m addr [b] := by
  have hfit := g.fits
  have hlen : (b :: b' :: buf).length = buf.length + 1 + 1 := rfl
  obtain ⟨k, hk⟩ := Nat.exists_eq_add_of_le (Nat.le_sub_of_add_le (Nat.add_comm _ _ ▸ hpage) :
    2 ≤ STORAGE_PAGE_SIZE - addr % STORAGE_PAGE_SIZE)
  obtain ⟨c, hc, hmem⟩ := @pageProgram_torn m addr b b' (buf.take k)
    (by rw [Region.stop] at hstop; omega)
  have hwrite : storageWrite g (Ctl.start m (some 1)) addr (b :: b' :: buf) = (c, false) := by
    unfold storageWrite
    rw [if_neg (not_not.mpr (Region.inRange_of_le (by omega) hbase hstop)), hlen, writePages,
      if_neg (List.cons_ne_nil _ _)]
    dsimp only
    rw [hk, Nat.add_comm 2 k, List.take_succ_cons, List.take_succ_cons, hc]
  unfold storageWriteAt
  dsimp only
  rw [Ctl.start_mem, if_pos ((storageIsErased_iff _ _ _).mpr hblank), if_neg (by simp), hwrite]
  exact ⟨rfl, hmem⟩

/-- The first byte alone makes no header. -/
theorem nextRecord_torn {m : Mem} {addr n : ℕ} (hfirst : m addr = 0x47)
    (hblank : Blank m (addr + 1) 23) : nextRecord eventAccepts (read m addr n) = none := by
  by_cases hn : headerSize ≤ n
  · have hread : read m addr headerSize = 0x47 :: List.replicate 23 0xFF := by
      rw [show headerSize = 23 + 1 from rfl, read_succ, hfirst, read_blank hblank]
    have hpre : read m addr headerSize <+: read m addr n := by
      obtain ⟨d, rfl⟩ := Nat.exists_eq_add_of_le hn
      rw [read_add]
      exact List.prefix_append _ _
    have hmagic : (header (0x47 :: List.replicate 23 0xFF)).magic ≠ STORAGE_MAGIC := by decide
    unfold nextRecord
    dsimp only
    rw [header_front hpre (read_length _ _ _).ge, hread, if_pos (Or.inl hmagic), ite_self]
  · exact if_pos (by rw [read_length]; omega)

def shortWrite (life : Option ℕ) : EventWrite := ⟨STORAGE_REC_EVENT, [7], 0, life⟩

theorem shortWrite_writable (life : Option ℕ) : Writable (shortWrite life).payload :=
  ⟨List.cons_ne_nil _ _, show 1 ≤ STORAGE_MAX_PAYLOAD_LEN by decide⟩

theorem recordLen_short (life : Option ℕ) : recordLen (shortWrite life).payload.length = 28 :=
  show recordLen 1 = 28 by decide

section Short
variable {s : StorageCtx} {acked : List (ℕ × Bytes)}
  (hbase : eventRegion.base ≤ s.eventWriteAddr) (hstop : s.eventWriteAddr + 28 ≤ eventRegion.stop)

theorem eventImage_short (life : Option ℕ) : (eventImage s (shortWrite life)).length = 28 :=
  (recordImage_length _ _ _ _).trans (recordLen_short life)

include hstop

theorem eventTarget_short (life : Option ℕ) :
    eventTarget s (shortWrite life).payload = s.eventWriteAddr := by
  unfold eventTarget
  rw [recordLen_short, if_neg (Nat.not_lt.mpr hstop)]

include hbase

theorem journal_ok : (journalWatched (s, acked) (shortWrite none)).1 =
    ({ s with
        mem := (eventWritten s (shortWrite none)).1.mem
        lastSeq := s.lastSeq + 1
        eventValidCount := s.eventValidCount + 1
        eventWriteAddr := s.eventWriteAddr + 28 },
      acked ++ [(s.eventWriteAddr - eventRegion.base, eventImage s (shortWrite none))]) := by
  have htarget := eventTarget_short hstop none
  have hlen := eventImage_short (s := s) none
  have hok : (eventWritten s (shortWrite none)).2 = true := by
    unfold eventWritten
    rw [htarget]
    exact (writeAt_ok rfl (by rw [hlen]; decide) hbase (by rw [hlen]; exact hstop)).1
  have hwrite := storageWriteRecord_eq (s := s) (shortWrite_writable none)
  rw [hok, if_neg (not_not.mpr rfl), htarget] at hwrite
  unfold journalWatched watched journalStep Acked.observe
  dsimp only
  rw [hwrite, htarget]
  rfl

theorem journal_torn (hblank : Blank s.mem s.eventWriteAddr 28)
    (hpage : s.eventWriteAddr % STORAGE_PAGE_SIZE + 2 ≤ STORAGE_PAGE_SIZE) :
    (journalWatched (s, acked) (shortWrite (some 1))).1 =
      (storageBoot (program s.mem s.eventWriteAddr [0x47]), acked) := by
  have htarget := eventTarget_short hstop (some 1)
  have hlen := eventImage_short (s := s) (some 1)
  obtain ⟨rest, hfront⟩ := recordImage_front STORAGE_REC_EVENT (s.lastSeq + 1) 0 [7]
  have hwrite := storageWriteRecord_eq (s := s) (shortWrite_writable (some 1))
  change eventImage s (shortWrite (some 1)) = _ at hfront
  rw [hfront] at hlen
  obtain ⟨hfail, hmem⟩ := writeAt_torn (g := eventRegion) (by rw [hlen]; exact hblank) hbase
    (by rw [hlen]; exact hstop) hpage
  have hwritten : (eventWritten s (shortWrite (some 1))).2 = false ∧
      (eventWritten s (shortWrite (some 1))).1.mem = program s.mem s.eventWriteAddr [0x47] := by
    unfold eventWritten
    rw [htarget, hfront]
    exact ⟨hfail, hmem⟩
  rw [hwritten.1, if_pos (by simp), hwritten.2] at hwrite
  unfold journalWatched watched journalStep Acked.observe
  dsimp only
  rw [hwrite, if_pos (show (shortWrite (some 1)).life.isSome = true from rfl), if_neg (by simp)]

/-- A third record behind a torn one takes the sector with it. -/
theorem third_wipes (hdirty : s.mem s.eventWriteAddr = 0x47)
    (hfloor : sectorFloor s.eventWriteAddr = eventRegion.base)
    (hbehind : eventRegion.base < s.eventWriteAddr) {img : Bytes} (himg : ∃ rest, img = 0x47 :: rest)
    (hacked : (0, img) ∈ acked) : ¬ KeepsAcked (s, acked) (shortWrite none) := by
  intro hkeeps
  have hlen := eventImage_short (s := s) none
  unfold KeepsAcked at hkeeps
  rw [journal_ok hbase hstop] at hkeeps
  have hstands := (hkeeps (0, img) (List.mem_append_left _ hacked)).stands
  dsimp only at hstands
  obtain ⟨rest, rfl⟩ := himg
  rw [Nat.add_zero, List.length_cons, read_succ] at hstands
  have hkept := (List.cons.inj hstands).1
  have hwiped : (eventWritten s (shortWrite none)).1.mem eventRegion.base = 0xFF := by
    unfold eventWritten
    rw [eventTarget_short hstop]
    apply writeAt_wipes rfl ?_ hbase ?_ ?_ ?_ ?_ (Or.inl hbehind)
    · rw [hlen]
      decide
    · rw [hlen]
      exact hstop
    · intro hblank
      have hff := hblank s.eventWriteAddr le_rfl
        (by rw [hlen]; exact Nat.lt_add_of_pos_right (by decide))
      rw [Ctl.start_mem, hdirty] at hff
      exact absurd hff (by decide)
    · rw [hfloor]
    · rw [hfloor]
      refine lt_of_lt_of_le hbehind ?_
      have hroom := le_sectorCount s.eventWriteAddr (eventImage s (shortWrite none)).length
      rw [hfloor] at hroom
      exact (Nat.le_add_right _ _).trans hroom
  rw [hwiped] at hkept
  exact absurd hkept (by decide)

end Short

theorem eventBoot_erased : (storageBoot erasedFlash).eventWriteAddr = eventRegion.base := by
  have hnil : Found eventRegion eventAccepts erasedFlash eventRegion.base [] := by
    refine ⟨le_rfl, Nat.le_add_right _ _, ?_⟩
    rw [Nat.sub_self, read_zero]
    exact eventScanner.drain_stop _ _ eventScanner.next_nil
  exact hnil.stops (nextRecord_blank _ (erasedFlash_blank _ _))

/-- The first record on an erased flash. -/
theorem first_short {s : StorageCtx} (hwrite : s.eventWriteAddr = eventRegion.base)
    (hmem : s.mem = erasedFlash) :
    EventRoom (s, []) (shortWrite none) ∧
      ∃ s' img, (journalWatched (s, []) (shortWrite none)).1 = (s', [(0, img)]) ∧
        (∃ rest, img = 0x47 :: rest) ∧ s'.eventWriteAddr = eventRegion.base + 28 ∧
        Blank s'.mem (eventRegion.base + 28) 28 := by
  have hbase : eventRegion.base ≤ s.eventWriteAddr := hwrite.ge
  have hstop : s.eventWriteAddr + 28 ≤ eventRegion.stop := by
    rw [hwrite]
    decide
  have hblank : ∀ n, Blank s.mem s.eventWriteAddr n := fun n => by
    rw [hmem]
    exact erasedFlash_blank _ _
  refine ⟨fun _ => ?_, ?_⟩
  · rw [recordLen_short]
    exact ⟨hstop, Or.inl (hblank 28)⟩
  rw [journal_ok hbase hstop, hwrite, Nat.sub_self, List.nil_append]
  refine ⟨_, _, rfl, ?_, rfl, fun x hx hx' => ?_⟩
  · obtain ⟨rest, hfront⟩ := recordImage_front STORAGE_REC_EVENT (s.lastSeq + 1) 0 [7]
    exact ⟨_, hfront⟩
  · have hlen := eventImage_short (s := s) none
    dsimp only
    unfold eventWritten
    rw [eventTarget_short hstop, hwrite, writeAt_blank (by rw [hlen, ← hwrite]; exact hblank 28)
      (by rw [hlen]; exact Or.inr hx), Ctl.start_mem, hmem]
    rfl

theorem torn_short {s : StorageCtx} {acked : List (ℕ × Bytes)} (hkept : Kept (s, acked))
    (hwrite : s.eventWriteAddr = eventRegion.base + 28)
    (hblank : Blank s.mem (eventRegion.base + 28) 28) :
    EventRoom (s, acked) (shortWrite (some 1)) ∧
      ∃ s', (journalWatched (s, acked) (shortWrite (some 1))).1 = (s', acked) ∧
        s'.eventWriteAddr = eventRegion.base + 28 ∧ s'.mem (eventRegion.base + 28) = 0x47 := by
  have hbase : eventRegion.base ≤ s.eventWriteAddr := by
    rw [hwrite]
    exact Nat.le_add_right _ _
  have hstop : s.eventWriteAddr + 28 ≤ eventRegion.stop := by
    rw [hwrite]
    decide
  have hpage : s.eventWriteAddr % STORAGE_PAGE_SIZE + 2 ≤ STORAGE_PAGE_SIZE := by
    rw [hwrite]
    decide
  rw [← hwrite] at hblank ⊢
  obtain ⟨found, hfound, -⟩ := hkept
  dsimp only at hfound
  have hfirst : program s.mem s.eventWriteAddr [0x47] s.eventWriteAddr = 0x47 := by
    have hread := @program_blank s.mem s.eventWriteAddr [0x47]
      (hblank.mono le_rfl (Nat.add_le_add_left (by decide) _))
    exact (List.cons.inj hread).1
  refine ⟨fun _ => ?_, _, journal_torn hbase hstop hblank hpage, ?_, ?_⟩
  · rw [recordLen_short]
    exact ⟨hstop, Or.inl hblank⟩
  · apply Found.stops (hfound.congr fun x hx => program_outside (Or.inl hx))
    refine nextRecord_torn hfirst fun x hx hx' => ?_
    rw [program_outside (Or.inr hx)]
    exact hblank x (by omega) (by omega)
  · rw [storageBoot_mem]
    exact hfirst

/-- From whatever flash the task starts, and wherever the power fails: as long as no write has to
erase what stands before it in its sector, every record that was acknowledged is found again. -/
theorem acked_found_again (m : Mem) (writes : List EventWrite)
    (h : Always journalWatched EventRoom (storageBoot m, []) writes) :
    Always journalWatched KeepsAcked (storageBoot m, []) writes := by
  exact Always.of_invariant kept_step (kept_boot fun rec hrec => absurd hrec List.not_mem_nil) h

theorem acked_found_once : Always journalWatched KeepsAcked (storageBoot erasedFlash, [])
    [shortWrite none, shortWrite (some 1)] := by
  apply acked_found_again
  obtain ⟨hroom, s, img, hfirst, -, hwrite, hblank⟩ :=
    first_short eventBoot_erased (storageBoot_mem erasedFlash)
  have hkept := (kept_step _ _ (kept_boot fun rec hrec => absurd hrec List.not_mem_nil) hroom).1
  refine ⟨hroom, ?_, trivial⟩
  rw [hfirst] at hkept ⊢
  exact (torn_short hkept hwrite hblank).1

/-- The first record is acknowledged, and gone after the third. -/
theorem acked_lost : ¬ Always journalWatched KeepsAcked (storageBoot erasedFlash, [])
    [shortWrite none, shortWrite (some 1), shortWrite none] := by
  rintro ⟨-, -, hlast, -⟩
  obtain ⟨hroom, s, img, hfirst, himg, hwrite, hblank⟩ :=
    first_short eventBoot_erased (storageBoot_mem erasedFlash)
  have hkept := (kept_step _ _ (kept_boot fun rec hrec => absurd hrec List.not_mem_nil) hroom).1
  rw [hfirst] at hlast hkept
  obtain ⟨-, s', hsecond, hwrite', hdirty⟩ := torn_short hkept hwrite hblank
  rw [hsecond] at hlast
  rw [← hwrite'] at hdirty
  apply third_wipes ?_ ?_ hdirty ?_ ?_ himg List.mem_cons_self hlast
  · rw [hwrite']
    exact Nat.le_add_right _ _
  · rw [hwrite']
    decide
  · rw [hwrite']
    decide
  · rw [hwrite']
    decide

end EdgeLink.Storage
