import EdgeLink.CacheRing

namespace EdgeLink.Storage
open LittleEndian Nor Machine

inductive CacheOp
  | write (payload : Bytes) (tick_ms : UInt32)
  | peek
  | markAck (seq : UInt32)

inductive CacheReply
  | done (ok : Bool)
  | peeked (record : Option StorageCachedRecord)
  deriving DecidableEq, Repr

def cacheStep (s : StorageCtx) : CacheOp → StorageCtx × CacheReply
  | .write payload tick_ms =>
    let r := storageWriteCacheRecord s none payload tick_ms
    (r.1, .done r.2)
  | .peek =>
    let r := storagePeekCache s
    (r.1, .peeked r.2)
  | .markAck seq =>
    let r := storageMarkCacheAck s seq
    (r.1, .done r.2)

/-- What the cache is for: the records that are not acknowledged yet, oldest first. It keeps account
of the room in its lap, and a new lap starts without the records of the old one. -/
structure CacheQueue where
  used : ℕ
  lastSeq : UInt32
  pending : List StorageCachedRecord

namespace CacheQueue

def room (q : CacheQueue) (n : ℕ) : CacheQueue :=
  if cacheRegion.size < q.used + n then { q with used := 0, pending := [] } else q

def push (q : CacheQueue) (payload : Bytes) : CacheQueue :=
  { used := (q.room (recordLen payload.length)).used + recordLen payload.length
    lastSeq := q.lastSeq + 1
    pending := (q.room (recordLen payload.length)).pending ++ [⟨q.lastSeq + 1, payload⟩] }

def step (q : CacheQueue) : CacheOp → CacheQueue × CacheReply
  | .write payload _ =>
    if Writable payload then (q.push payload, .done true) else (q, .done false)
  | .peek => (q, .peeked q.pending.head?)
  | .markAck seq =>
    match q.pending with
    | r :: rest => if r.seq = seq then ({ q with pending := rest }, .done true) else (q, .done false)
    | [] => (q, .done false)

end CacheQueue

/-- Flash and queue side by side, given the same operations. -/
def cacheBeside := watched cacheStep fun _ (q : CacheQueue) op _ => (q.step op).1

/-- The operation is answered as the queue answers it, and the backlog is the queue's length. -/
def FollowsQueue (w : StorageCtx × CacheQueue) (op : CacheOp) : Prop :=
  (cacheStep w.1 op).2 = (w.2.step op).2 ∧
    (cacheStep w.1 op).1.cacheBacklog = (w.2.step op).1.pending.length

/-- Where the record goes, the flash is erased, or else no record waits in its sector before it. -/
def SparesPending (w : StorageCtx × CacheQueue) : CacheOp → Prop
  | .write payload _ => Writable payload →
    SparesFrom (cacheWrap w.1 (recordLen payload.length)).cacheReadAddr w.1.mem
      (cacheTarget w.1 payload) (recordLen payload.length)
  | _ => True

def recordOf (img : Bytes) : StorageCachedRecord :=
  ⟨(header img).seq, (img.drop headerSize).take (header img).payloadLen.toNat⟩

/-- The records stand in the flash from the read cursor up to the write cursor. When the last of
a full lap is acknowledged, the read cursor goes ahead to the base. -/
structure Waiting (s : StorageCtx) (q : CacheQueue) (imgs : List Bytes) : Prop where
  isRecord : ∀ img ∈ imgs, IsRecord cacheAccepts img
  pending : q.pending = imgs.map recordOf
  backlog : s.cacheBacklog = imgs.length
  lastSeq : s.lastSeq = q.lastSeq
  used : s.cacheWriteAddr = cacheRegion.base + q.used
  used_le : q.used ≤ cacheRegion.size
  place : (cacheRegion.base ≤ s.cacheReadAddr ∧
      s.cacheReadAddr + imgs.flatten.length = s.cacheWriteAddr ∧
      read s.mem s.cacheReadAddr imgs.flatten.length = imgs.flatten) ∨
    (imgs = [] ∧ s.cacheReadAddr = cacheRegion.base ∧ s.cacheWriteAddr = cacheRegion.stop)

section Waiting
variable {s : StorageCtx} {q : CacheQueue} {imgs : List Bytes} {img : Bytes}

/-- The oldest record at the read cursor. -/
theorem Waiting.front (h : Waiting s q (img :: imgs)) :
    cacheRegion.base ≤ s.cacheReadAddr ∧ read s.mem s.cacheReadAddr img.length = img ∧
      s.cacheReadAddr + img.length + imgs.flatten.length = s.cacheWriteAddr ∧
      read s.mem (s.cacheReadAddr + img.length) imgs.flatten.length = imgs.flatten ∧
      header (read s.mem s.cacheReadAddr headerSize) = header img ∧
      headerSize + (header img).payloadLen.toNat ≤ img.length := by
  obtain ⟨hbase, hend, hread⟩ | ⟨hnil, -⟩ := h.place
  · rw [List.flatten_cons, List.length_append] at hread hend
    have hsize := (h.isRecord img List.mem_cons_self).headerSize_le
    rw [read_add] at hread
    obtain ⟨himg, hrest⟩ := List.append_inj hread (read_length _ _ _)
    have hhdr := read_sub himg (i := 0) (k := headerSize) (by omega)
    refine ⟨hbase, himg, by omega, hrest, ?_, hsize⟩
    rw [List.drop_zero, Nat.add_zero] at hhdr
    rw [hhdr]
    exact (header_front (List.take_prefix _ _) (by rw [List.length_take]; omega)).symm
  · cases hnil

theorem Waiting.write_le (h : Waiting s q imgs) : s.cacheWriteAddr ≤ cacheRegion.stop := by
  rw [h.used, Region.stop]
  exact Nat.add_le_add_left h.used_le _

theorem peek_follows (h : Waiting s q imgs) : storagePeekCache s = (s, q.pending.head?) := by
  unfold storagePeekCache
  cases imgs with
  | nil => rw [if_pos (h.backlog.trans List.length_nil), h.pending, List.map_nil, List.head?_nil]
  | cons img imgs =>
    obtain ⟨hbase, himg, hend, -, hhdr, hsize⟩ := h.front
    have hrec := h.isRecord img List.mem_cons_self
    have hstop := h.write_le
    have hpos := recordLen_pos (header img).payloadLen.toNat
    have hlen := hrec.length
    rw [if_neg (by rw [h.backlog]; exact Nat.succ_ne_zero _), hhdr]
    dsimp only
    rw [if_neg, if_neg, h.pending, List.map_cons, List.head?_cons, recordOf,
      read_sub himg hsize]
    · rw [not_not]
      exact Region.inRange_of_le hpos hbase (by omega)
    · rw [not_or, not_not, not_not]
      exact ⟨hrec.magic, hrec.accepted⟩

theorem peek_keeps (h : Waiting s q imgs) :
    Waiting (cacheStep s .peek).1 (q.step .peek).1 imgs ∧
      (cacheStep s .peek).2 = (q.step .peek).2 := by
  unfold cacheStep
  dsimp only
  rw [peek_follows h]
  exact ⟨h, rfl⟩

theorem markAck_keeps (h : Waiting s q imgs) (seq : UInt32) :
    (∃ imgs', Waiting (cacheStep s (.markAck seq)).1 (q.step (.markAck seq)).1 imgs') ∧
      (cacheStep s (.markAck seq)).2 = (q.step (.markAck seq)).2 := by
  unfold cacheStep CacheQueue.step storageMarkCacheAck
  dsimp only
  cases imgs with
  | nil =>
    rw [if_pos (h.backlog.trans List.length_nil), h.pending]
    exact ⟨⟨[], h⟩, rfl⟩
  | cons img imgs =>
    obtain ⟨hbase, himg, hend, hrest, hhdr, -⟩ := h.front
    have hrec := h.isRecord img List.mem_cons_self
    have hstop := h.write_le
    rw [if_neg (by rw [h.backlog]; exact Nat.succ_ne_zero _), hhdr, h.pending, List.map_cons]
    dsimp only
    by_cases hseq : (header img).seq = seq
    · rw [if_neg (not_not.mpr hseq), if_pos (show (recordOf img).seq = seq from hseq), ← hrec.length]
      refine ⟨⟨imgs, ?_, rfl, ?_, h.lastSeq, h.used, h.used_le, ?_⟩, rfl⟩
      · exact fun img' himg' => h.isRecord img' (List.mem_cons_of_mem _ himg')
      · dsimp only
        rw [h.backlog]
        rfl
      · dsimp only
        by_cases hlast : cacheRegion.stop ≤ s.cacheReadAddr + img.length
        · rw [if_pos hlast]
          -- the record ends where the region does, so it is the last one
          have hnone : imgs.flatten = [] := List.length_eq_zero_iff.mp (by omega)
          have hnil : imgs = [] := by
            refine List.eq_nil_iff_forall_not_mem.mpr fun img' himg' => ?_
            have hsize := (h.isRecord img' (List.mem_cons_of_mem _ himg')).headerSize_le
            rw [List.flatten_eq_nil_iff.mp hnone img' himg'] at hsize
            exact absurd hsize (by unfold headerSize; simp)
          exact Or.inr ⟨hnil, rfl, by omega⟩
        · rw [if_neg hlast]
          exact Or.inl ⟨by omega, hend, hrest⟩
    · rw [if_pos hseq, if_neg (show ¬ (recordOf img).seq = seq from hseq)]
      exact ⟨⟨img :: imgs, h⟩, rfl⟩

theorem recordOf_cacheImage {payload : Bytes} (hw : Writable payload) (tick_ms : UInt32) :
    IsRecord cacheAccepts (cacheImage s payload tick_ms) ∧
      recordOf (cacheImage s payload tick_ms) = ⟨s.lastSeq + 1, payload⟩ := by
  obtain ⟨crc, hhdr⟩ := header_recordImage STORAGE_REC_CACHE (s.lastSeq + 1) tick_ms payload
  have hlen := payloadLen_toNat hw.2
  constructor
  · refine recordImage_isRecord hw.2 ?_
    rw [hhdr, cacheAccepts, decide_eq_true_eq]
    dsimp only
    refine ⟨rfl, fun hzero => ?_, by rw [hlen]; exact hw.2⟩
    rw [hzero] at hlen
    exact hw.1 (List.length_eq_zero_iff.mp hlen.symm)
  · unfold recordOf cacheImage
    rw [hhdr]
    dsimp only
    rw [hlen, payload_recordImage]

/-- Flash and queue start a new lap together. -/
theorem Waiting.wrap (h : Waiting s q imgs) {n : ℕ} (hn : 0 < n) :
    ∃ imgs', Waiting (cacheWrap s n) (q.room n) imgs' ∧
      cacheRegion.base ≤ (cacheWrap s n).cacheReadAddr ∧
      (cacheWrap s n).cacheReadAddr + imgs'.flatten.length = (cacheWrap s n).cacheWriteAddr ∧
      read s.mem (cacheWrap s n).cacheReadAddr imgs'.flatten.length = imgs'.flatten := by
  have hused := h.used
  have hsize : cacheRegion.stop = cacheRegion.base + cacheRegion.size := rfl
  unfold cacheWrap CacheQueue.room
  by_cases hover : cacheRegion.size < q.used + n
  · rw [if_pos hover, if_pos (by omega)]
    refine ⟨[], ⟨?_, rfl, rfl, h.lastSeq, rfl, Nat.zero_le _, Or.inl ⟨le_rfl, rfl, rfl⟩⟩, le_rfl,
      rfl, rfl⟩
    exact fun img himg => absurd himg List.not_mem_nil
  · rw [if_neg hover, if_neg (by omega)]
    obtain hplace | ⟨-, -, hfull⟩ := h.place
    · exact ⟨imgs, h, hplace⟩
    · omega

theorem write_keeps (h : Waiting s q imgs) {payload : Bytes} (tick_ms : UInt32)
    (hspares : SparesPending (s, q) (.write payload tick_ms)) :
    (∃ imgs', Waiting (cacheStep s (.write payload tick_ms)).1 (q.step (.write payload tick_ms)).1
        imgs') ∧
      (cacheStep s (.write payload tick_ms)).2 = (q.step (.write payload tick_ms)).2 := by
  unfold cacheStep CacheQueue.step
  dsimp only
  by_cases hw : Writable payload
  · have hbase : cacheRegion.base ≤ s.cacheWriteAddr := by
      rw [h.used]
      exact Nat.le_add_right _ _
    obtain ⟨imgs', hwrap, hread, hend, hstand⟩ := h.wrap (recordLen_pos payload.length)
    obtain ⟨hrec, hof⟩ := recordOf_cacheImage (s := s) hw tick_ms
    have himg := (cacheWritten_ok tick_ms hw hbase).2
    have hlen := cacheImage_length s payload tick_ms
    have hroom := (cacheTarget_le hw hbase).2
    rw [storageWriteCacheRecord_ok tick_ms hw hbase, if_pos hw, CacheQueue.push]
    refine ⟨⟨imgs' ++ [cacheImage s payload tick_ms], ?_, ?_, ?_, ?_, ?_, ?_, ?_⟩, rfl⟩
    · refine List.forall_mem_append.mpr ⟨hwrap.isRecord, fun img himg => ?_⟩
      rw [List.mem_singleton.mp himg]
      exact hrec
    · rw [List.map_append, List.map_singleton, hof, hwrap.pending, h.lastSeq]
    · rw [List.length_append, ← hwrap.backlog]
      rfl
    · rw [h.lastSeq]
    · dsimp only
      rw [← Nat.add_assoc, ← hwrap.used]
      rfl
    · have hused := hwrap.used
      have hsize : cacheRegion.stop = cacheRegion.base + cacheRegion.size := rfl
      unfold cacheTarget at hroom
      dsimp only
      omega
    · refine Or.inl ⟨hread, ?_, ?_⟩
      · dsimp only
        rw [List.flatten_append, List.flatten_singleton, List.length_append, hlen,
          ← Nat.add_assoc, hend]
        rfl
      · dsimp only
        rw [List.flatten_append, List.flatten_singleton, List.length_append, hlen, read_add, hend]
        refine congrArg₂ (· ++ ·) ?_ himg
        refine (read_congr fun x hx hx' => ?_).trans hstand
        exact writeAt_spares_from (by rw [hlen]; exact hspares hw) hx (by rw [hend] at hx'; exact hx')
  · rw [storageWriteCacheRecord_of_not_writable hw, if_neg hw]
    exact ⟨⟨imgs, h⟩, rfl⟩

end Waiting

/-- The records that a scan finds are waiting, acknowledged before or not. -/
theorem waiting_of_scan {s : StorageCtx} {imgs : List Bytes}
    (hrec : ∀ img ∈ imgs, IsRecord cacheAccepts img) (hcount : s.cacheBacklog = imgs.length)
    (hwrite : s.cacheWriteAddr = cacheRegion.base + imgs.flatten.length)
    (hsize : imgs.flatten.length ≤ cacheRegion.size) (hread : s.cacheReadAddr = cacheRegion.base)
    (hstand : read s.mem cacheRegion.base imgs.flatten.length = imgs.flatten) :
    Waiting s ⟨imgs.flatten.length, s.lastSeq, imgs.map recordOf⟩ imgs := by
  refine ⟨hrec, rfl, hcount, rfl, hwrite, hsize, Or.inl ⟨hread.ge, ?_, ?_⟩⟩
  · rw [hread, hwrite]
  · rw [hread, hstand]

def queueBoot (m : Mem) : CacheQueue :=
  { used := (scanned cacheAccepts (regionBytes cacheRegion m)).flatten.length
    lastSeq := (storageBoot m).lastSeq
    pending := (scanned cacheAccepts (regionBytes cacheRegion m)).map recordOf }

theorem storageBoot_waiting (m : Mem) : Waiting (storageBoot m) (queueBoot m)
    (scanned cacheAccepts (regionBytes cacheRegion m)) := by
  obtain ⟨hcount, hwrite, hsize, hstand⟩ := storageBoot_cache m
  have hplace : read (storageBoot m).mem cacheRegion.base
      (scanned cacheAccepts (regionBytes cacheRegion m)).flatten.length =
      (scanned cacheAccepts (regionBytes cacheRegion m)).flatten := by
    rw [storageBoot_mem, hstand]
  unfold queueBoot
  exact waiting_of_scan (scanned_isRecord _ _) hcount hwrite hsize (storageBoot_cacheReadAddr m)
    hplace

/-- What holds between flash and queue over runs. -/
def InStep (w : StorageCtx × CacheQueue) : Prop := ∃ imgs, Waiting w.1 w.2 imgs

theorem inStep_step (w : StorageCtx × CacheQueue) (op : CacheOp) (h : InStep w)
    (hspares : SparesPending w op) : InStep (cacheBeside w op).1 ∧ FollowsQueue w op := by
  obtain ⟨s, q⟩ := w
  obtain ⟨imgs, h⟩ := h
  have hkeeps : (∃ imgs', Waiting (cacheStep s op).1 (q.step op).1 imgs') ∧
      (cacheStep s op).2 = (q.step op).2 := by
    cases op with
    | write payload tick_ms => exact write_keeps h tick_ms hspares
    | peek => exact ⟨⟨imgs, (peek_keeps h).1⟩, (peek_keeps h).2⟩
    | markAck seq => exact markAck_keeps h seq
  obtain ⟨⟨imgs', h'⟩, hreply⟩ := hkeeps
  refine ⟨⟨imgs', h'⟩, hreply, ?_⟩
  dsimp only
  rw [h'.backlog, h'.pending, List.length_map]

theorem write_cacheReadAddr {s : StorageCtx} (h : s.cacheReadAddr = cacheRegion.base)
    (life : Option ℕ) (payload : Bytes) (tick_ms : UInt32) :
    (storageWriteCacheRecord s life payload tick_ms).1.cacheReadAddr = cacheRegion.base := by
  have hwrap : (cacheWrap s (recordLen payload.length)).cacheReadAddr = cacheRegion.base := by
    unfold cacheWrap
    split_ifs
    · rfl
    · exact h
  unfold storageWriteCacheRecord
  dsimp only
  split_ifs
  · exact h
  · exact hwrap
  · exact hwrap

theorem writeFull_cacheReadAddr {s : StorageCtx} (h : s.cacheReadAddr = cacheRegion.base) (n : ℕ) :
    (writeFull^[n] s).cacheReadAddr = cacheRegion.base := by
  induction n generalizing s with
  | zero => exact h
  | succ n ih =>
    rw [Function.iterate_succ_apply]
    apply ih
    unfold writeFull writeCache
    dsimp only
    exact write_cacheReadAddr h none fullPayload 0

/-- The write of the nineteenth record, where the second sector is not erased. -/
theorem nineteenth_wipes {s : StorageCtx} (hwrite : s.cacheWriteAddr = cacheRegion.base + 3888)
    (hold : s.mem (cacheRegion.base + 4096) = 0) : (writeFull s).cacheBacklog ≠ 0 ∧
      Blank (writeFull s).mem cacheRegion.base headerSize := by
  have hbase : cacheRegion.base ≤ s.cacheWriteAddr := by
    rw [hwrite]
    exact Nat.le_add_right _ _
  have htarget : cacheTarget s fullPayload = cacheRegion.base + 3888 := by
    rw [cacheTarget_full (by rw [hwrite]; decide), hwrite]
  have hlen := cacheImage_length s fullPayload 0
  rw [recordLen_fullPayload] at hlen
  have hfloor : sectorFloor (cacheRegion.base + 3888) = cacheRegion.base := by decide
  have hsectors : sectorCount (cacheRegion.base + 3888) 216 = 2 := by decide
  constructor
  · unfold writeFull writeCache
    dsimp only
    rw [storageWriteCacheRecord_ok 0 fullPayload_writable hbase]
    dsimp only
    exact Nat.add_one_ne_zero _
  · have hdirty : ¬ Blank s.mem (cacheRegion.base + 3888) (cacheImage s fullPayload 0).length := by
      intro hblank
      have hff := hblank (cacheRegion.base + 4096) (Nat.add_le_add_left (by decide) _)
        (by rw [hlen]; decide)
      rw [hold] at hff
      exact absurd hff (by decide)
    intro x hx hx'
    rw [(writeFull_eq hbase).1, cacheWritten, htarget]
    have hlow : x < cacheRegion.base + 3888 :=
      lt_of_lt_of_le hx' (Nat.add_le_add_left (by decide) _)
    apply writeAt_wipes rfl ?_ ?_ ?_ hdirty ?_ ?_ (Or.inl hlow)
    · rw [hlen]
      decide
    · exact Nat.le_add_right _ _
    · rw [hlen]
      decide
    · rw [hfloor]
      exact hx
    · rw [hlen, hfloor, hsectors]
      exact lt_of_lt_of_le hlow (Nat.add_le_add_left (by decide) _)

theorem peek_wiped {s : StorageCtx} (hbacklog : s.cacheBacklog ≠ 0)
    (hread : s.cacheReadAddr = cacheRegion.base) (hblank : Blank s.mem cacheRegion.base headerSize) :
    (storagePeekCache s).2 = none := by
  have hmagic : (header (List.replicate headerSize 0xFF)).magic ≠ STORAGE_MAGIC := by decide
  unfold storagePeekCache
  rw [if_neg hbacklog, hread, read_blank hblank]
  dsimp only
  rw [if_pos (Or.inl hmagic)]

theorem nineteenth_lost {w : StorageCtx × CacheQueue}
    (hwrite : w.1.cacheWriteAddr = cacheRegion.base + 3888)
    (hold : w.1.mem (cacheRegion.base + 4096) = 0) (hread : w.1.cacheReadAddr = cacheRegion.base)
    (hfollows : FollowsQueue w (.write fullPayload 0)) :
    ¬ FollowsQueue (cacheBeside w (.write fullPayload 0)).1 .peek := by
  obtain ⟨s, q⟩ := w
  obtain ⟨hbacklog, hblank⟩ := nineteenth_wipes hwrite hold
  have hstays := writeFull_cacheReadAddr hread 1
  rw [Function.iterate_one] at hstays
  have hnone := peek_wiped hbacklog hstays hblank
  rintro ⟨hpeek, -⟩
  change CacheReply.peeked (storagePeekCache (writeFull s)).2 =
    .peeked (q.step (.write fullPayload 0)).1.pending.head? at hpeek
  rw [hnone] at hpeek
  have hpending := List.head?_eq_none_iff.mp (CacheReply.peeked.inj hpeek).symm
  have hlen := hfollows.2
  dsimp only at hlen
  rw [hpending] at hlen
  exact hbacklog hlen

theorem run_cacheBeside (s : StorageCtx) (q : CacheQueue) (n : ℕ) :
    (run cacheBeside (s, q) (List.replicate n (.write fullPayload 0))).1 = writeFull^[n] s := by
  unfold cacheBeside
  rw [watched_run, run_replicate]
  rfl

/-- From a scan of whatever flash, and as long as no write has to erase a record that waits, the
cache answers every operation as the queue does. -/
theorem follows_queue (m : Mem) (ops : List CacheOp)
    (h : Always cacheBeside SparesPending (storageBoot m, queueBoot m) ops) :
    Always cacheBeside FollowsQueue (storageBoot m, queueBoot m) ops :=
  Always.of_invariant inStep_step ⟨_, storageBoot_waiting m⟩ h

theorem follows_queue_once : Always cacheBeside FollowsQueue
    (storageBoot erasedFlash, queueBoot erasedFlash) [.write [7] 0, .peek, .markAck 1, .peek] := by
  apply follows_queue
  refine ⟨fun _ => Or.inl ?_, trivial, trivial, trivial, trivial⟩
  rw [storageBoot_mem]
  exact erasedFlash_blank _ _

/-- The oldest record of the second lap has been erased when it is to be peeked at. -/
theorem queue_lost : ¬ Always cacheBeside FollowsQueue
    (storageBoot erasedFlash, queueBoot erasedFlash)
    (List.replicate 38855 (.write fullPayload 0) ++ [.peek]) := by
  rw [List.replicate_succ', always_append, always_append, run_append]
  rintro ⟨⟨-, hwrite, -⟩, hpeek, -⟩
  have hrun := run_cacheBeside (storageBoot erasedFlash) (queueBoot erasedFlash) 38854
  obtain ⟨hend, -, hold⟩ := two_laps
  have hread := writeFull_cacheReadAddr (storageBoot_cacheReadAddr erasedFlash) 38854
  exact nineteenth_lost ((congrArg StorageCtx.cacheWriteAddr hrun).trans hend)
    ((congrFun (congrArg StorageCtx.mem hrun) _).trans hold)
    ((congrArg StorageCtx.cacheReadAddr hrun).trans hread) hwrite hpeek

end EdgeLink.Storage