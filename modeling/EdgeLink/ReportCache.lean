import EdgeLink.EventJournal
import EdgeLink.ReportLoop

namespace EdgeLink.Report
open LittleEndian Nor Storage Gateway Machine

/-! The device, the gateway that its reports come to, and what is on the way between them. -/

/-- The payloads of the acknowledgements in a stream that the device reads. -/
def reportAcks (stream : Bytes) : List Bytes :=
  ((stream.foldl gwProcessRxByte ⟨[], []⟩).processed.filter
    (·.1 = FrameType.reportAck.wire)).map (·.2)

structure Ack where
  bytes : Bytes
  /-- what it answers -/
  frame : Bytes
  deriving DecidableEq

/-- What the gateway sends for a frame that comes in. -/
def gatewayAcks (frame : Bytes) : List Ack :=
  (((⟨frame⟩ : FrameParser).extract (fun _ => 0) {}).2.1.filterMap reportAnswer).map (⟨·, frame⟩)

structure World where
  task : GwTask
  frames : List Bytes
  /-- what has come to the gateway, over all boots of the device -/
  received : List Bytes
  acks : List Ack

/-- With `life = some k` the power fails after `k` more operations of the flash, and the device starts
again. -/
inductive Event
  | sendSensorData (state : SmartHomeState) (now_ms : UInt32) (uart : Bool)
  | tryReplayCache (now_ms : UInt32) (uart : Bool)
  | pendingScanTimeout (now_ms : UInt32)
  | ackArrives (i : ℕ)
  | ackLost (i : ℕ)
  | frameArrives (i : ℕ)
  | frameLost (i : ℕ)
  | writeCache (tick_ms : UInt32) (life : Option ℕ)
  | writeEvent (rec_type : UInt16) (payload : Bytes) (tick_ms : UInt32) (life : Option ℕ)
  | queueTexts (n : ℕ)
  | reboot

/-- Nothing but the flash is kept. -/
def taskBoot (m : Mem) : GwTask := ⟨fun _ => none, 0, 0, storageBoot m, [], 0⟩

namespace GwTask
variable (t : GwTask)

def restart (life : Option ℕ) : GwTask := if life.isSome then taskBoot t.storage.mem else t

def receive (stream : Bytes) : GwTask := (reportAcks stream).foldl gwProcessReportAck t

/-- The storage task writes the oldest of the records that wait for it. -/
def writeCache (tick_ms : UInt32) (life : Option ℕ) : GwTask :=
  match t.cacheQueue with
  | [] => t
  | payload :: rest =>
    { t with storage := (storageWriteCacheRecord t.storage life payload tick_ms).1,
             cacheQueue := rest }

def writeEvent (rec_type : UInt16) (payload : Bytes) (tick_ms : UInt32) (life : Option ℕ) : GwTask :=
  { t with storage := (storageWriteRecord t.storage life rec_type payload tick_ms).1 }

/-- Texts join the queue or leave it: now they take `n` places. -/
def queueTexts (n : ℕ) : GwTask :=
  { t with texts := if t.cacheQueue.length + n ≤ STORAGE_TASK_QUEUE_LEN then n else t.texts }

end GwTask

namespace World
variable (w : World)

def step (e : Event) : World × Unit :=
  match e with
  | .sendSensorData state now_ms uart =>
    let r := gwSendSensorData w.task state now_ms uart
    ({ w with task := r.1, frames := w.frames ++ r.2.toList }, ())
  | .tryReplayCache now_ms uart =>
    let r := gwTryReplayCache w.task now_ms uart
    ({ w with task := r.1, frames := w.frames ++ r.2 }, ())
  | .pendingScanTimeout now_ms => ({ w with task := gwPendingScanTimeout w.task now_ms }, ())
  | .ackArrives i =>
    match w.acks[i]? with
    | none => (w, ())
    | some ack => ({ w with task := w.task.receive ack.bytes, acks := w.acks.eraseIdx i }, ())
  | .ackLost i => ({ w with acks := w.acks.eraseIdx i }, ())
  | .frameArrives i =>
    match w.frames[i]? with
    | none => (w, ())
    | some frame =>
      ({ w with frames := w.frames.eraseIdx i, received := frame :: w.received,
                acks := w.acks ++ gatewayAcks frame }, ())
  | .frameLost i => ({ w with frames := w.frames.eraseIdx i }, ())
  | .writeCache tick_ms life =>
    ({ w with task := (w.task.writeCache tick_ms life).restart life }, ())
  | .writeEvent rec_type payload tick_ms life =>
    ({ w with task := (w.task.writeEvent rec_type payload tick_ms life).restart life }, ())
  | .queueTexts n => ({ w with task := w.task.queueTexts n }, ())
  | .reboot => ({ w with task := taskBoot w.task.storage.mem }, ())

end World

def worldBoot (m : Mem) : World := ⟨taskBoot m, [], [], []⟩

/-- The functions of the gateway task. -/
def Event.isTask : Event → Bool
  | .sendSensorData _ _ _ | .tryReplayCache _ _ | .pendingScanTimeout _ | .ackArrives _ => true
  | _ => false

/-- The records in the cache, as they would be peeked at one after another. -/
def cachedFrom : ℕ → StorageCtx → List StorageCachedRecord
  | 0, _ => []
  | n + 1, s =>
    match (storagePeekCache s).2 with
    | none => []
    | some rec => rec :: cachedFrom n (storageMarkCacheAck s rec.seq).1

def cachedRecords (s : StorageCtx) : List StorageCachedRecord := cachedFrom s.cacheBacklog s

/-- A report that the gateway task removes from the cache has come to the gateway, and it is its
acknowledgement that removes it. -/
def RemovedAcked (w : World) (e : Event) : Prop :=
  e.isTask = true → ∀ rec ∈ cachedRecords w.task.storage,
    rec ∉ cachedRecords (w.step e).1.task.storage →
    (gwFrameExtractReportSeq rec.payload).isSome = true →
    rec.payload ∈ w.received ∧
      ∃ i ack, e = .ackArrives i ∧ w.acks[i]? = some ack ∧ ack.frame = rec.payload

/-- The numbers of the records tell them apart. -/
def Numbered (records : List StorageCachedRecord) : Prop :=
  ∀ rec ∈ records, ∀ rec' ∈ records, rec.seq = rec'.seq → rec = rec'

/-- A scan of the cache finds no two records with one number. -/
def BootNumbered (m : Mem) : Prop := Numbered (queueBoot m).pending

/-- A write to the cache does not erase what still waits there, and the numbers do not start over. -/
def WriteSpares (s : StorageCtx) (payload : Bytes) : Prop :=
  Writable payload → s.lastSeq + 1 ≠ 0 ∧
    SparesFrom (cacheWrap s (recordLen payload.length)).cacheReadAddr s.mem (cacheTarget s payload)
      (recordLen payload.length)

/-- An acknowledgement finds no replayed report but the one it answers, at least not the oldest;
cache writes spare what waits, and a start finds no number twice. -/
def Orderly (w : World) (e : Event) : Prop :=
  match e with
  | .ackArrives i => ∀ ack ∈ w.acks[i]?, ∀ payload ∈ reportAcks ack.bytes,
      ∀ k ∈ gwPendingFindBySeq w.task.pending (read32 payload 1), ∀ slot ∈ w.task.pending k,
        slot.fromReplay = true →
        (cachedRecords w.task.storage).head?.map (·.seq) = some slot.cacheSeq →
        slot.frame = ack.frame
  | .writeCache _ none => ∀ payload ∈ w.task.cacheQueue.head?,
      WriteSpares w.task.storage payload
  | .writeCache tick_ms (some k) =>
    BootNumbered (w.task.writeCache tick_ms (some k)).storage.mem
  | .writeEvent rec_type payload tick_ms life =>
    if life.isSome then BootNumbered (w.task.writeEvent rec_type payload tick_ms life).storage.mem
    else Writable payload → w.task.storage.lastSeq + 1 ≠ 0
  | .reboot => BootNumbered w.task.storage.mem
  | _ => True

section Cache
variable {s : StorageCtx} {q : CacheQueue}

theorem inStep_peek (h : InStep (s, q)) : storagePeekCache s = (s, q.pending.head?) := by
  obtain ⟨imgs, h⟩ := h
  exact peek_follows h

theorem inStep_backlog (h : InStep (s, q)) : s.cacheBacklog = q.pending.length := by
  obtain ⟨imgs, h⟩ := h
  rw [h.backlog, h.pending, List.length_map]

theorem inStep_markAck (h : InStep (s, q)) (seq : UInt32) :
    InStep ((storageMarkCacheAck s seq).1, (q.step (.markAck seq)).1) := by
  obtain ⟨imgs, h⟩ := h
  exact (markAck_keeps h seq).1

theorem markAck_oldest {rec : StorageCachedRecord} {rest : List StorageCachedRecord}
    (hq : q.pending = rec :: rest) (seq : UInt32) :
    (q.step (.markAck seq)).1 = if rec.seq = seq then { q with pending := rest } else q := by
  unfold CacheQueue.step
  rw [hq]
  dsimp only
  split_ifs <;> rfl

theorem inStep_cachedRecords (h : InStep (s, q)) : cachedRecords s = q.pending := by
  unfold cachedRecords
  rw [inStep_backlog h]
  cases q with
  | mk used lastSeq pending =>
    induction pending generalizing s with
    | nil => rfl
    | cons rec rest ih =>
      have hmark := inStep_markAck h rec.seq
      rw [markAck_oldest rfl, if_pos rfl] at hmark
      dsimp only [List.length_cons, cachedFrom]
      rw [inStep_peek h]
      exact congrArg (rec :: ·) (ih hmark)

/-- The event region ends where the cache begins. -/
theorem inStep_writeEvent (h : InStep (s, q)) (rec_type : UInt16) (payload : Bytes)
    (tick_ms : UInt32) : ∃ q', InStep ((storageWriteRecord s none rec_type payload tick_ms).1, q') ∧
      q'.pending = q.pending ∧ (q'.lastSeq = q.lastSeq ∨ Writable payload ∧
        q'.lastSeq = q.lastSeq + 1) := by
  obtain ⟨imgs, h⟩ := h
  by_cases hw : Writable payload
  · have heq := @storageWriteRecord_eq s ⟨rec_type, payload, tick_ms, none⟩ hw
    dsimp only at heq
    set written := eventWritten s ⟨rec_type, payload, tick_ms, none⟩ with hwritten
    have hfits : eventTarget s payload + recordLen payload.length ≤ eventRegion.stop := by
      have hle := recordLen_le hw
      unfold eventTarget
      split_ifs with hover
      · exact (Nat.add_le_add_left hle _).trans (by decide)
      · exact Nat.not_lt.mp hover
    have hmem : ∀ x, cacheRegion.base ≤ x → written.1.mem x = s.mem x := by
      intro x hx
      apply writeAt_above_sectors
      refine (Region.sectorCount_le eventRegion ?_).trans hx
      exact (Nat.add_le_add_left (recordImage_length _ _ _ _).le _).trans hfits
    have hplace : ∀ n, cacheRegion.base ≤ s.cacheReadAddr →
        read written.1.mem s.cacheReadAddr n = read s.mem s.cacheReadAddr n :=
      fun n hbase => read_congr fun x hx _ => hmem x (hbase.trans hx)
    rw [heq]
    split_ifs
    · refine ⟨{ q with lastSeq := q.lastSeq + 1 }, ⟨imgs, h.isRecord, h.pending, h.backlog, ?_, h.used,
        h.used_le, ?_⟩, rfl, Or.inr ⟨hw, rfl⟩⟩
      · exact congrArg (· + 1) h.lastSeq
      · exact h.place.imp_left fun ⟨hbase, hend, hread⟩ =>
          ⟨hbase, hend, (hplace _ hbase).trans hread⟩
    · refine ⟨q, ⟨imgs, h.isRecord, h.pending, h.backlog, h.lastSeq, h.used, h.used_le, ?_⟩, rfl,
        Or.inl rfl⟩
      exact h.place.imp_left fun ⟨hbase, hend, hread⟩ => ⟨hbase, hend, (hplace _ hbase).trans hread⟩
  · refine ⟨q, ⟨imgs, ?_⟩, rfl, Or.inl rfl⟩
    unfold storageWriteRecord
    rw [if_pos ((not_writable_iff payload).mp hw)]
    exact h

/-- A scan's number is at least that of every record it comes upon. -/
theorem drain_lastSeq (accepts : StorageRecordHeader → Bool) (b : Bytes) (seq : UInt32) :
    ∀ img ∈ scanned accepts b,
      (header img).seq ≤ ((recordScanner accepts).drain countRecord b (0, seq)).2.2 := by
  have hrel := (recordScanner accepts).drain_rel (f := countRecord)
    (g := fun x r => x ++ [r.2]) (R := fun x y => ∀ img ∈ y, (header img).seq ≤ x.2)
    (fun x y _ r _ hseq => by
      have hmax := countRecord_le x r
      refine List.forall_mem_append.mpr ⟨fun img himg => UInt32.le_trans (hseq img himg) hmax.1,
        fun img himg => ?_⟩
      rw [List.mem_singleton.mp himg]
      exact hmax.2)
    b (x := (0, seq)) (y := []) fun img himg => absurd himg List.not_mem_nil
  unfold scanned
  exact hrel.2

theorem storageScanCacheRegion_lastSeq (s : StorageCtx) :
    ∀ img ∈ scanned cacheAccepts (regionBytes cacheRegion s.mem),
      (header img).seq ≤ (storageScanCacheRegion s).lastSeq := by
  have hseq := drain_lastSeq cacheAccepts (regionBytes cacheRegion s.mem) s.lastSeq
  rcases hscan : (recordScanner cacheAccepts).drain countRecord (regionBytes cacheRegion s.mem)
    (0, s.lastSeq) with ⟨rest, x⟩
  rw [hscan] at hseq
  rw [storageScanCacheRegion_eq s hscan]
  exact hseq

theorem storageBoot_lastSeq (m : Mem) :
    ∀ img ∈ scanned cacheAccepts (regionBytes cacheRegion m),
      (header img).seq ≤ (storageBoot m).lastSeq := by
  have h := storageScanCacheRegion_lastSeq (storageScanEventRegion ⟨m, 0, 0, 0, 0, 0, 0⟩)
  rw [storageScanEventRegion_mem] at h
  unfold storageBoot
  exact h

theorem queueBoot_below (m : Mem) : ∀ rec ∈ (queueBoot m).pending, rec.seq ≤ (queueBoot m).lastSeq := by
  have h := storageBoot_waiting m
  rw [h.pending, ← h.lastSeq]
  intro rec hrec
  obtain ⟨img, himg, rfl⟩ := List.mem_map.mp hrec
  exact storageBoot_lastSeq m img himg

end Cache

section Task
variable {t : GwTask} {q : CacheQueue}

@[simp] theorem storageWriteCache_storage (t : GwTask) (payload : Bytes) :
    (storageWriteCache t payload).storage = t.storage := by
  unfold storageWriteCache
  split_ifs <;> rfl

@[simp] theorem gwTryCache_storage (t : GwTask) (frame : Bytes) :
    (gwTryCacheAbnormalSnapshot t frame).storage = t.storage := by
  unfold gwTryCacheAbnormalSnapshot
  split_ifs
  · rfl
  · exact storageWriteCache_storage _ _
  · rfl

theorem scanSlot_storage (now_ms : UInt32) (t : GwTask) (i : Fin GW_PENDING_QUEUE_SIZE) :
    (gwPendingScanSlot now_ms t i).storage = t.storage := by
  unfold gwPendingScanSlot gwPendingHandleTimeout gwPendingClear
  split
  · rfl
  · split_ifs
    · rfl
    · exact gwTryCache_storage _ _
    · rfl

theorem scanTimeout_storage (t : GwTask) (now_ms : UInt32) :
    (gwPendingScanTimeout t now_ms).storage = t.storage := by
  unfold gwPendingScanTimeout
  generalize List.finRange GW_PENDING_QUEUE_SIZE = is
  induction is generalizing t with
  | nil => rfl
  | cons i is ih => rw [List.foldl_cons, ih, scanSlot_storage]

theorem enqueue_slot {p p' : PendingReports} {slot : PendingReport}
    (h : gwPendingEnqueue p slot = some p') {i : Fin GW_PENDING_QUEUE_SIZE} {slot' : PendingReport}
    (hslot : p' i = some slot') : p i = some slot' ∨ slot' = slot := by
  unfold gwPendingEnqueue at h
  split at h
  · cases h
  · rename_i j _
    split_ifs at h
    obtain rfl := Option.some.inj h
    by_cases hij : i = j
    · subst hij
      rw [Function.update_self] at hslot
      exact Or.inr (Option.some.inj hslot).symm
    · rw [Function.update_of_ne hij] at hslot
      exact Or.inl hslot

theorem scanTimeout_slot {now_ms : UInt32} {i : Fin GW_PENDING_QUEUE_SIZE} {slot : PendingReport}
    (h : (gwPendingScanTimeout t now_ms).pending i = some slot) : t.pending i = some slot := by
  rw [scanTimeout_pending] at h
  split_ifs at h
  exact h

theorem tryCache_same (t : GwTask) (frame : Bytes) :
    (gwTryCacheAbnormalSnapshot t frame).storage = t.storage ∧
      (gwTryCacheAbnormalSnapshot t frame).pending = t.pending :=
  ⟨gwTryCache_storage t frame, gwTryCache_pending t frame⟩

/-- Sending leaves the storage alone, and enters a live report at most. -/
theorem sendSensorData_slots (t : GwTask) (state : SmartHomeState) (now_ms : UInt32)
    (uart : Bool) : (gwSendSensorData t state now_ms uart).1.storage = t.storage ∧
      ∀ i slot, (gwSendSensorData t state now_ms uart).1.pending i = some slot →
        t.pending i = some slot ∨ slot.fromReplay = false := by
  have hscan := scanTimeout_storage { t with reportSeq := t.reportSeq + 1 } now_ms
  have hslots : ∀ i slot, (gwPendingScanTimeout { t with reportSeq := t.reportSeq + 1 }
      now_ms).pending i = some slot → t.pending i = some slot :=
    fun i slot h => @scanTimeout_slot { t with reportSeq := t.reportSeq + 1 } now_ms i slot h
  unfold gwSendSensorData
  dsimp only
  generalize sensorFrame state (t.reportSeq + 1) = frame
  generalize gwPendingScanTimeout { t with reportSeq := t.reportSeq + 1 } now_ms = t' at *
  obtain ⟨hsame, hpending⟩ := tryCache_same t' frame
  have hcached : (gwTryCacheAbnormalSnapshot t' frame).storage = t.storage ∧
      ∀ i slot, (gwTryCacheAbnormalSnapshot t' frame).pending i = some slot →
        t.pending i = some slot ∨ slot.fromReplay = false := by
    rw [hsame, hpending]
    exact ⟨hscan, fun i slot h => Or.inl (hslots i slot h)⟩
  cases uart with
  | false => exact hcached
  | true =>
    cases henter : gwPendingEnqueue t'.pending ⟨false, 0, t.reportSeq + 1, frame, now_ms⟩ with
    | none => exact hcached
    | some p =>
      refine ⟨hscan, fun i slot h => ?_⟩
      rcases enqueue_slot henter h with hold | rfl
      · exact Or.inl (hslots i slot hold)
      · exact Or.inr rfl

/-- What holds of the device: a replayed report is the cached record with its number, if that is
still there. -/
structure Fits (t : GwTask) (q : CacheQueue) : Prop where
  inStep : InStep (t.storage, q)
  numbered : Numbered q.pending
  below : ∀ rec ∈ q.pending, rec.seq ≤ q.lastSeq
  slots : ∀ i slot, t.pending i = some slot → slot.fromReplay = true → slot.cacheSeq ≤ q.lastSeq ∧
    ∀ rec ∈ q.pending, rec.seq = slot.cacheSeq → rec.payload = slot.frame

theorem Fits.congr (h : Fits t q) {t' : GwTask} (hs : t'.storage = t.storage)
    (hp : ∀ i slot, t'.pending i = some slot → t.pending i = some slot ∨ slot.fromReplay = false) :
    Fits t' q := by
  refine ⟨by rw [hs]; exact h.inStep, h.numbered, h.below, fun i slot hslot hreplay => ?_⟩
  rcases hp i slot hslot with hold | hlive
  · exact h.slots i slot hold hreplay
  · rw [hreplay] at hlive
    cases hlive

/-- The oldest record goes. -/
theorem Fits.markAck (h : Fits t q) {rec : StorageCachedRecord} {rest : List StorageCachedRecord}
    (hq : q.pending = rec :: rest) (seq : UInt32) :
    Fits { t with storage := (storageMarkCacheAck t.storage seq).1 }
      (if rec.seq = seq then { q with pending := rest } else q) := by
  have hmark := inStep_markAck h.inStep seq
  rw [markAck_oldest hq] at hmark
  split_ifs at hmark ⊢
  · have hmem : ∀ rec' ∈ rest, rec' ∈ q.pending := fun rec' hrec' => by
      rw [hq]
      exact List.mem_cons_of_mem _ hrec'
    exact ⟨hmark, fun a ha b hb => h.numbered a (hmem a ha) b (hmem b hb),
      fun a ha => h.below a (hmem a ha), fun i slot hslot hreplay =>
        ⟨(h.slots i slot hslot hreplay).1, fun a ha => (h.slots i slot hslot hreplay).2 a (hmem a ha)⟩⟩
  · exact ⟨hmark, h.numbered, h.below, h.slots⟩

/-- Some records at the front are gone, and they were no reports. -/
def Replayed (t : GwTask) (q : CacheQueue) : Prop :=
  ∃ q' dropped, Fits t q' ∧ q.pending = dropped ++ q'.pending ∧
    ∀ rec ∈ dropped, gwFrameExtractReportSeq rec.payload = none

theorem Fits.replayed (h : Fits t q) : Replayed t q :=
  ⟨q, [], h, rfl, fun _ hrec => absurd hrec List.not_mem_nil⟩

theorem replayRounds_replayed (now_ms : UInt32) (uart : Bool) (n : ℕ) (h : Fits t q)
    (sent : List Bytes) : Replayed (replayRounds now_ms uart n t sent).1 q := by
  induction n generalizing t q sent with
  | zero => exact h.replayed
  | succ n ih =>
    unfold replayRounds
    by_cases hfull : gwPendingAllocSlot t.pending = none
    · rw [if_pos hfull]
      exact h.replayed
    rw [if_neg hfull, inStep_peek h.inStep]
    cases hq : q.pending with
    | nil => exact h.replayed
    | cons rec rest =>
      rw [List.head?_cons]
      dsimp only
      by_cases hflight : (gwPendingFindReplayCacheSeq t.pending rec.seq).isSome = true
      · rw [if_pos hflight]
        exact h.replayed
      rw [if_neg hflight]
      cases hreport : gwFrameExtractReportSeq rec.payload with
      | none =>
        have hmark := h.markAck hq rec.seq
        rw [if_pos rfl] at hmark
        obtain ⟨q', dropped, hfits, hsplit, hdropped⟩ := ih hmark sent
        refine ⟨q', rec :: dropped, hfits, ?_, List.forall_mem_cons.mpr ⟨hreport, hdropped⟩⟩
        rw [hq]
        exact congrArg (rec :: ·) hsplit
      | some report_seq =>
        dsimp only
        split
        · exact h.replayed
        · split
          · exact h.replayed
          · rename_i p henter
            have hrec : rec ∈ q.pending := by
              rw [hq]
              exact List.mem_cons_self
            apply ih
            refine ⟨h.inStep, h.numbered, h.below, fun i slot hslot hreplay => ?_⟩
            rcases enqueue_slot henter hslot with hold | rfl
            · exact h.slots i slot hold hreplay
            · refine ⟨h.below rec hrec, fun rec' hrec' hseq => ?_⟩
              rw [h.numbered rec' hrec' rec hrec hseq]

theorem tryReplayCache_replayed (h : Fits t q) (now_ms : UInt32) (uart : Bool) :
    Replayed (gwTryReplayCache t now_ms uart).1 q := by
  unfold gwTryReplayCache
  split_ifs
  · exact h.replayed
  · exact h.replayed
  · have h' : Fits { t with replayLastTryMs := now_ms } q := ⟨h.inStep, h.numbered, h.below, h.slots⟩
    exact replayRounds_replayed now_ms uart _ h' []

/-- An acknowledgement frees the slot that its number finds, and removes the oldest record if that is
the one replayed from there. -/
theorem processReportAck_fits (h : Fits t q) (payload : Bytes) :
    Fits (gwProcessReportAck t payload) q ∨
      ∃ i slot rec rest, gwPendingFindBySeq t.pending (read32 payload 1) = some i ∧
        t.pending i = some slot ∧ slot.fromReplay = true ∧ q.pending = rec :: rest ∧
        rec.seq = slot.cacheSeq ∧
        Fits (gwProcessReportAck t payload) { q with pending := rest } := by
  have hclear : ∀ (t' : GwTask) (q' : CacheQueue) i, Fits t' q' → Fits (gwPendingClear t' i) q' := by
    intro t' q' i h'
    refine @Fits.congr t' q' h' (gwPendingClear t' i) rfl fun j slot hslot => ?_
    rw [gwPendingClear_pending, Function.update_apply] at hslot
    split_ifs at hslot
    exact Or.inl hslot
  rcases processReportAck_cases t payload with hsame | ⟨i, slot, -, hfind, hslot, -, hfound⟩
  · rw [hsame]
    exact Or.inl h
  rw [hfound]
  cases hreplay : slot.fromReplay with
  | false => exact Or.inl (hclear t q i h)
  | true =>
    rw [if_pos rfl]
    cases hq : q.pending with
    | nil =>
      have hmark := inStep_markAck h.inStep slot.cacheSeq
      have hsame : (q.step (.markAck slot.cacheSeq)).1 = q := by
        unfold CacheQueue.step
        rw [hq]
      rw [hsame] at hmark
      exact Or.inl (hclear _ q i ⟨hmark, h.numbered, h.below, h.slots⟩)
    | cons rec rest =>
      have hmark := h.markAck hq slot.cacheSeq
      split_ifs at hmark with hseq
      · exact Or.inr ⟨i, slot, rec, rest, hfind, hslot, hreplay, rfl, hseq, hclear _ _ i hmark⟩
      · exact Or.inl (hclear _ q i hmark)

theorem taskBoot_fits {m : Mem} (h : BootNumbered m) : Fits (taskBoot m) (queueBoot m) :=
  ⟨⟨_, storageBoot_waiting m⟩, h, queueBoot_below m, fun _ _ hslot => by cases hslot⟩

theorem UInt32_lt_succ {a : UInt32} (h : a + 1 ≠ 0) : a < a + 1 := by
  rw [UInt32.lt_iff_toNat_lt, UInt32.toNat_add]
  have hne : (a + 1).toNat ≠ 0 := fun hzero => h (UInt32.toNat_inj.mp hzero)
  rw [UInt32.toNat_add] at hne
  have hlt := a.toNat_lt
  have hone : (1 : UInt32).toNat = 1 := rfl
  omega

/-- A new record has a number of its own. -/
theorem Fits.writeCache (h : Fits t q) (tick_ms : UInt32)
    (hspares : ∀ payload ∈ t.cacheQueue.head?, WriteSpares t.storage payload) :
    ∃ q', Fits (t.writeCache tick_ms none) q' := by
  unfold GwTask.writeCache
  cases hqueue : t.cacheQueue with
  | nil => exact ⟨q, h⟩
  | cons payload rest =>
    have hok := hspares payload (by rw [hqueue]; rfl)
    have hwrite := (inStep_step (t.storage, q) (.write payload tick_ms) h.inStep
      fun hw => (hok hw).2).1
    refine ⟨(q.step (.write payload tick_ms)).1, ?_⟩
    by_cases hw : Writable payload
    · have hlast : t.storage.lastSeq = q.lastSeq := by
        obtain ⟨imgs, hwait⟩ := h.inStep
        exact hwait.lastSeq
      have hlt : q.lastSeq < q.lastSeq + 1 := UInt32_lt_succ (by rw [← hlast]; exact (hok hw).1)
      have hnew : ∀ n, n ≤ q.lastSeq → n ≠ q.lastSeq + 1 := by
        rintro n hn rfl
        exact UInt32.not_le.mpr hlt hn
      have hpush : (q.step (.write payload tick_ms)).1 = q.push payload := by
        rw [CacheQueue.step, if_pos hw]
      -- of the records before it, a new lap keeps none
      have hpending : ∀ rec ∈ (q.push payload).pending, rec ∈ q.pending ∨
          rec = ⟨q.lastSeq + 1, payload⟩ := by
        intro rec hrec
        rcases List.mem_append.mp hrec with hold | hnew
        · unfold CacheQueue.room at hold
          split_ifs at hold
          · exact absurd hold List.not_mem_nil
          · exact Or.inl hold
        · exact Or.inr (List.mem_singleton.mp hnew)
      refine ⟨hwrite, ?_, ?_, ?_⟩ <;> rw [hpush]
      · intro a ha b hb hseq
        rcases hpending a ha with ha | rfl <;> rcases hpending b hb with hb | rfl
        · exact h.numbered a ha b hb hseq
        · exact absurd hseq (hnew _ (h.below a ha))
        · exact absurd hseq.symm (hnew _ (h.below b hb))
        · rfl
      · intro rec hrec
        rcases hpending rec hrec with hold | rfl
        · exact UInt32.le_trans (h.below rec hold) (UInt32.le_of_lt hlt)
        · exact UInt32.le_refl _
      · intro i slot hslot hreplay
        obtain ⟨hle, hframe⟩ := h.slots i slot hslot hreplay
        refine ⟨UInt32.le_trans hle (UInt32.le_of_lt hlt), fun rec hrec hseq => ?_⟩
        rcases hpending rec hrec with hold | rfl
        · exact hframe rec hold hseq
        · exact absurd hseq.symm (hnew _ hle)
    · have hsame : (q.step (.write payload tick_ms)).1 = q := by rw [CacheQueue.step, if_neg hw]
      refine ⟨hwrite, ?_, ?_, ?_⟩ <;> rw [hsame]
      · exact h.numbered
      · exact h.below
      · exact h.slots

theorem Fits.writeEvent (h : Fits t q) (rec_type : UInt16) (payload : Bytes) (tick_ms : UInt32)
    (hnext : Writable payload → t.storage.lastSeq + 1 ≠ 0) :
    ∃ q', Fits (t.writeEvent rec_type payload tick_ms none) q' := by
  obtain ⟨q', hwrite, hpending, hlast⟩ := inStep_writeEvent h.inStep rec_type payload tick_ms
  have hle : q.lastSeq ≤ q'.lastSeq := by
    rcases hlast with hsame | ⟨hw, hsucc⟩
    · rw [hsame]
      exact UInt32.le_refl _
    · obtain ⟨imgs, hwait⟩ := h.inStep
      have hseq : t.storage.lastSeq = q.lastSeq := hwait.lastSeq
      rw [hsucc]
      exact UInt32.le_of_lt (UInt32_lt_succ (by rw [← hseq]; exact hnext hw))
  refine ⟨q', hwrite, ?_, fun rec hrec => ?_, fun i slot hslot hreplay => ?_⟩
  · rw [hpending]
    exact h.numbered
  · rw [hpending] at hrec
    exact UInt32.le_trans (h.below rec hrec) hle
  · obtain ⟨hseq, hframe⟩ := h.slots i slot hslot hreplay
    rw [hpending]
    exact ⟨UInt32.le_trans hseq hle, hframe⟩

end Task

theorem reportAcks_built (device_id : UInt8) (report_seq : UInt32) :
    reportAcks (buildReportAckFrame device_id report_seq) = [device_id :: bytes32 report_seq] := by
  unfold reportAcks
  rw [(reportAck_read device_id report_seq).1]
  simp

theorem gatewayAcks_answer {frame : Bytes} {ack : Ack} (h : ack ∈ gatewayAcks frame) :
    ack.frame = frame ∧ ∃ d seq, ack.bytes = buildReportAckFrame d seq := by
  unfold gatewayAcks at h
  obtain ⟨bytes, hbytes, rfl⟩ := List.mem_map.mp h
  obtain ⟨item, -, hanswer⟩ := List.mem_filterMap.mp hbytes
  unfold reportAnswer at hanswer
  split_ifs at hanswer
  exact ⟨rfl, item.deviceId, item.seq.toUInt32, (Option.some.inj hanswer).symm⟩

structure Sound (w : World) : Prop where
  fits : ∃ q, Fits w.task q
  acks : ∀ ack ∈ w.acks, ack.frame ∈ w.received ∧ ∃ d seq, ack.bytes = buildReportAckFrame d seq

theorem Fits.cached {t : GwTask} {q : CacheQueue} (h : Fits t q) :
    cachedRecords t.storage = q.pending := inStep_cachedRecords h.inStep

theorem removedAcked_of_same {w : World} {e : Event}
    (h : (w.step e).1.task.storage = w.task.storage) : RemovedAcked w e := by
  intro _ rec hrec hgone
  rw [h] at hgone
  exact absurd hrec hgone

section Arrivals
variable {w : World} {i : ℕ}

theorem step_ack_none (h : w.acks[i]? = none) : (w.step (.ackArrives i)).1 = w := by
  simp only [World.step, h]

/-- An acknowledgement in which the task reads one payload. -/
theorem step_ack_some {ack : Ack} {payload : Bytes} (h : w.acks[i]? = some ack)
    (hreads : reportAcks ack.bytes = [payload]) :
    (w.step (.ackArrives i)).1 = { w with
      task := gwProcessReportAck w.task payload, acks := w.acks.eraseIdx i } := by
  simp only [World.step, h, GwTask.receive, hreads, List.foldl_cons, List.foldl_nil]

theorem step_frame_none (h : w.frames[i]? = none) : (w.step (.frameArrives i)).1 = w := by
  simp only [World.step, h]

theorem step_frame_some {frame : Bytes} (h : w.frames[i]? = some frame) :
    (w.step (.frameArrives i)).1 = { w with
      frames := w.frames.eraseIdx i, received := frame :: w.received,
      acks := w.acks ++ gatewayAcks frame } := by
  simp only [World.step, h]

theorem Sound.ackArrives {ack : Ack} (h : Sound w) (hack : w.acks[i]? = some ack)
    (ho : Orderly w (.ackArrives i)) :
    Sound (w.step (.ackArrives i)).1 ∧ RemovedAcked w (.ackArrives i) := by
  obtain ⟨q, hq⟩ := h.fits
  have hmem : ack ∈ w.acks := List.mem_of_getElem? hack
  obtain ⟨hreceived, d, seq, hbytes⟩ := h.acks ack hmem
  have hreads : reportAcks ack.bytes = [d :: bytes32 seq] := by rw [hbytes, reportAcks_built]
  have hstep := step_ack_some hack hreads
  have hacks : ∀ ack' ∈ w.acks.eraseIdx i, ack'.frame ∈ w.received ∧
      ∃ d seq, ack'.bytes = buildReportAckFrame d seq :=
    fun ack' hack' => h.acks ack' (List.mem_of_mem_eraseIdx hack')
  rcases processReportAck_fits hq (d :: bytes32 seq) with
    hfits | ⟨k, slot, rec, rest, hfind, hslot, hreplay, hpending, hseq, hfits⟩
  · refine ⟨by rw [hstep]; exact ⟨⟨q, hfits⟩, hacks⟩, fun _ rec hrec hgone => ?_⟩
    rw [hstep, hfits.cached, ← hq.cached] at hgone
    exact absurd hrec hgone
  · refine ⟨by rw [hstep]; exact ⟨⟨_, hfits⟩, hacks⟩, fun _ rec' hrec' hgone _ => ?_⟩
    rw [hstep, hfits.cached] at hgone
    rw [hq.cached, hpending] at hrec'
    obtain rfl : rec' = rec := (List.mem_cons.mp hrec').resolve_right hgone
    -- the record that goes is the one in the slot, and that is the one that was answered
    have hframe := (hq.slots k slot hslot hreplay).2 rec' (by rw [hpending]; exact List.mem_cons_self)
      hseq
    have hanswer := ho ack hack (d :: bytes32 seq) (by rw [hreads]; exact List.mem_cons_self) k hfind
      slot hslot hreplay (by rw [hq.cached, hpending, List.head?_cons, Option.map_some, hseq])
    rw [hframe, hanswer]
    exact ⟨hreceived, i, ack, rfl, hack, rfl⟩

end Arrivals

theorem step_sound (w : World) (e : Event) (h : Sound w) (ho : Orderly w e) :
    Sound (w.step e).1 ∧ RemovedAcked w e := by
  obtain ⟨q, hq⟩ := h.fits
  cases e with
  | sendSensorData state now_ms uart =>
    obtain ⟨hs, hslots⟩ := sendSensorData_slots w.task state now_ms uart
    exact ⟨⟨⟨q, hq.congr hs hslots⟩, h.acks⟩, removedAcked_of_same hs⟩
  | tryReplayCache now_ms uart =>
    obtain ⟨q', dropped, hfits, hsplit, hdropped⟩ := tryReplayCache_replayed hq now_ms uart
    -- what a replay drops from the cache is no report
    refine ⟨⟨⟨q', hfits⟩, h.acks⟩, fun _ rec hrec hgone hreport => ?_⟩
    rw [hq.cached, hsplit] at hrec
    rw [show cachedRecords (w.step (.tryReplayCache now_ms uart)).1.task.storage = q'.pending from
      hfits.cached] at hgone
    rcases List.mem_append.mp hrec with hdrop | hstay
    · rw [hdropped rec hdrop] at hreport
      cases hreport
    · exact absurd hstay hgone
  | pendingScanTimeout now_ms =>
    have hs := scanTimeout_storage w.task now_ms
    exact ⟨⟨⟨q, hq.congr hs fun i slot hslot => Or.inl (scanTimeout_slot hslot)⟩, h.acks⟩,
      removedAcked_of_same hs⟩
  | ackArrives i =>
    cases hack : w.acks[i]? with
    | none =>
      have hstep := step_ack_none hack
      exact ⟨by rw [hstep]; exact h, removedAcked_of_same (by rw [hstep])⟩
    | some ack => exact h.ackArrives hack ho
  | ackLost i =>
    exact ⟨⟨⟨q, hq⟩, fun ack hack => h.acks ack (List.mem_of_mem_eraseIdx hack)⟩,
      removedAcked_of_same rfl⟩
  | frameArrives i =>
    cases hframe : w.frames[i]? with
    | none =>
      have hstep := step_frame_none hframe
      exact ⟨by rw [hstep]; exact h, removedAcked_of_same (by rw [hstep])⟩
    | some frame =>
      have hstep := step_frame_some hframe
      refine ⟨?_, removedAcked_of_same (by rw [hstep])⟩
      rw [hstep]
      refine ⟨⟨q, hq⟩, fun ack hack => ?_⟩
      -- the ACKs on their way, and those that the gateway answers now
      rcases List.mem_append.mp hack with hold | hnew
      · exact ⟨List.mem_cons_of_mem _ (h.acks ack hold).1, (h.acks ack hold).2⟩
      · obtain ⟨heq, hbuilt⟩ := gatewayAcks_answer hnew
        rw [heq]
        exact ⟨List.mem_cons_self, hbuilt⟩
  | frameLost i => exact ⟨⟨⟨q, hq⟩, h.acks⟩, removedAcked_of_same rfl⟩
  | writeCache tick_ms life =>
    refine ⟨⟨?_, h.acks⟩, fun htask => by cases htask⟩
    cases life with
    | none => exact hq.writeCache tick_ms ho
    | some k => exact ⟨_, taskBoot_fits ho⟩
  | writeEvent rec_type payload tick_ms life =>
    refine ⟨⟨?_, h.acks⟩, fun htask => by cases htask⟩
    cases life with
    | none => exact hq.writeEvent rec_type payload tick_ms ho
    | some k => exact ⟨_, taskBoot_fits ho⟩
  | queueTexts n =>
    exact ⟨⟨⟨q, hq.congr rfl fun _ _ hslot => Or.inl hslot⟩, h.acks⟩, removedAcked_of_same rfl⟩
  | reboot => exact ⟨⟨⟨_, taskBoot_fits ho⟩, h.acks⟩, fun htask => by cases htask⟩

/-- Over every run a report leaves the cache only when it has come to the gateway and is
acknowledged, as long as the numbers of the acknowledgements and of the records are not confused. -/
theorem removed_acked {m : Mem} (hm : BootNumbered m) {es : List Event}
    (h : Always World.step Orderly (worldBoot m) es) :
    Always World.step RemovedAcked (worldBoot m) es :=
  Always.of_invariant step_sound ⟨⟨_, taskBoot_fits hm⟩, fun _ hack => absurd hack List.not_mem_nil⟩ h

def hotState : SmartHomeState := ⟨90, 20, 300, false, true, false, false, true, .auto, true⟩

def hotFrame : Bytes := sensorFrame hotState 1

/-- The first report of the new run. -/
def mildFrame : Bytes := sensorFrame mildState 1

def hotImage : Bytes := recordImage STORAGE_REC_CACHE 1 0 hotFrame

def leftFlash : Mem := fun a => if a < cacheRegion.base then 0xFF
  else hotImage.getD (a - cacheRegion.base) 0xFF

theorem hotImage_record : IsRecord cacheAccepts hotImage ∧ recordOf hotImage = ⟨1, hotFrame⟩ := by
  have hw : Writable hotFrame := by decide +kernel
  exact recordOf_cacheImage (s := ⟨fun _ => 0xFF, 0, 0, 0, 0, 0, 0⟩) hw 0

theorem leftFlash_read : regionBytes cacheRegion leftFlash = hotImage ++
    read leftFlash (cacheRegion.base + hotImage.length) (cacheRegion.size - hotImage.length) := by
  have hlen : hotImage.length ≤ cacheRegion.size := by decide +kernel
  have hfront : read leftFlash cacheRegion.base hotImage.length = hotImage := by decide +kernel
  rw [regionBytes_eq]
  conv_lhs => rw [← Nat.add_sub_cancel' hlen, read_add, hfront]

theorem scanned_one {img rest : Bytes} (himg : IsRecord cacheAccepts img)
    (hrest : nextRecord cacheAccepts rest = none) : scanned cacheAccepts (img ++ rest) = [img] := by
  have hnext : nextRecord cacheAccepts (img ++ rest) = some (img.length, img) :=
    nextRecord_iff.mpr ⟨rfl, himg, List.prefix_append _ _⟩
  unfold scanned
  rw [(recordScanner cacheAccepts).drain_go _ _ hnext, List.drop_left,
    (recordScanner cacheAccepts).drain_stop _ _ hrest, List.nil_append]

theorem leftFlash_boot : (queueBoot leftFlash).pending = [⟨1, hotFrame⟩] := by
  have hblank : Blank leftFlash (cacheRegion.base + hotImage.length)
      (cacheRegion.size - hotImage.length) := by
    intro x hx _
    unfold leftFlash
    rw [if_neg (by omega), List.getD_eq_default _ _ (by omega)]
  have hscan := scanned_one hotImage_record.1 (nextRecord_blank cacheAccepts hblank)
  rw [(storageBoot_waiting leftFlash).pending, leftFlash_read, hscan, List.map_singleton,
    hotImage_record.2]

/-- With nothing under way, the oldest record is sent, and no other before it is answered. -/
theorem replay_oldest {t : GwTask} {q : CacheQueue} {rec : StorageCachedRecord}
    {rest : List StorageCachedRecord} {now_ms report_seq : UInt32} (h : InStep (t.storage, q))
    (hq : q.pending = rec :: rest) (hfree : t.pending = fun _ => none)
    (hlate : ¬ now_ms - t.replayLastTryMs < GW_REPLAY_RETRY_INTERVAL_MS)
    (hreport : gwFrameExtractReportSeq rec.payload = some report_seq)
    (hfits : ¬ (rec.payload = [] ∨ GW_TX_FRAME_MAX_SIZE < rec.payload.length)) :
    gwTryReplayCache t now_ms true = ({ t with
      replayLastTryMs := now_ms
      pending := Function.update (fun _ => none) 0
        (some ⟨true, rec.seq, report_seq, rec.payload, now_ms⟩) }, [rec.payload]) := by
  obtain ⟨pending, seq, lastTry, storage, queue, texts⟩ := t
  dsimp only at h hfree hlate ⊢
  subst hfree
  have hpeek := inStep_peek h
  have hbacklog := inStep_backlog h
  rw [hq] at hpeek hbacklog
  have halloc : gwPendingAllocSlot (fun _ => none) = some 0 :=
    alloc_eq_some.mpr ⟨rfl, fun j hj => absurd hj (Fin.not_lt_zero j)⟩
  set slot : PendingReport := ⟨true, rec.seq, report_seq, rec.payload, now_ms⟩ with hslot
  have henter : gwPendingEnqueue (fun _ => none) slot =
      some (Function.update (fun _ => none) 0 (some slot)) := by
    unfold gwPendingEnqueue
    rw [halloc]
    exact if_neg hfits
  have hnone : gwPendingFindReplayCacheSeq (fun _ => none) rec.seq = none :=
    Fin.find?_eq_none_iff.mpr fun _ => rfl
  have hflight : (gwPendingFindReplayCacheSeq (Function.update (fun _ => none) 0 (some slot))
      rec.seq).isSome = true :=
    Fin.isSome_find?_of_eq_true (i := 0) (by simp [hslot])
  have hroom : gwPendingAllocSlot (Function.update (fun _ => none) 0 (some slot)) ≠ none := by
    rw [← Option.isSome_iff_ne_none]
    exact Fin.isSome_find?_of_eq_true (i := 1) rfl
  unfold gwTryReplayCache
  rw [if_neg (by rw [hbacklog]; exact Nat.succ_ne_zero _), if_neg hlate]
  unfold GW_REPLAY_BATCH_MAX
  -- the first round sends it, the second finds it under way
  rw [replayRounds, if_neg (by rw [halloc]; exact Option.some_ne_none _)]
  dsimp only
  rw [hpeek]
  dsimp only [List.head?_cons]
  rw [if_neg (by rw [hnone]; exact Bool.false_ne_true), hreport]
  dsimp only
  rw [if_neg (by simp), henter]
  dsimp only
  rw [replayRounds, if_neg hroom]
  dsimp only
  rw [hpeek]
  dsimp only [List.head?_cons]
  rw [if_pos hflight]
  rfl

theorem processReportAck_marks {t : GwTask} {payload : Bytes} {i : Fin GW_PENDING_QUEUE_SIZE}
    {slot : PendingReport} (hlen : 5 ≤ payload.length)
    (hfind : gwPendingFindBySeq t.pending (read32 payload 1) = some i)
    (hslot : t.pending i = some slot) (hreplay : slot.fromReplay = true) :
    (gwProcessReportAck t payload).storage = (storageMarkCacheAck t.storage slot.cacheSeq).1 := by
  rw [processReportAck_found hlen hfind hslot, if_pos hreplay]
  rfl

/-- The task once the record is under way. -/
def replayingTask (s : StorageCtx) : GwTask :=
  { pending := Function.update (fun _ => none) 0 (some ⟨true, 1, 1, hotFrame, 5000⟩)
    reportSeq := 0
    replayLastTryMs := 5000
    storage := s
    cacheQueue := []
    texts := 0 }

theorem leftFlash_inStep : InStep (storageBoot leftFlash, queueBoot leftFlash) :=
  ⟨_, storageBoot_waiting leftFlash⟩

theorem leftFlash_numbered : BootNumbered leftFlash := by
  unfold BootNumbered
  rw [leftFlash_boot]
  intro rec hrec rec' hrec' _
  rw [List.mem_singleton.mp hrec, List.mem_singleton.mp hrec']

theorem left_replays {s : StorageCtx} {q : CacheQueue} (h : InStep (s, q))
    (hq : q.pending = [⟨1, hotFrame⟩]) :
    ((⟨⟨fun _ => none, 0, 0, s, [], 0⟩, [], [], []⟩ : World).step (.tryReplayCache 5000 true)).1 =
      ⟨replayingTask s, [hotFrame], [], []⟩ := by
  have hlate : ¬ (5000 : UInt32) - 0 < GW_REPLAY_RETRY_INTERVAL_MS := by decide
  have hreplay : gwTryReplayCache ⟨fun _ => none, 0, 0, s, [], 0⟩ 5000 true =
      (replayingTask s, [hotFrame]) :=
    replay_oldest h hq rfl hlate (by decide +kernel) (by decide +kernel)
  simp only [World.step, hreplay, List.nil_append]

theorem left_arrives (s : StorageCtx) :
    ((⟨replayingTask s, [hotFrame], [], []⟩ : World).step (.frameArrives 0)).1 =
      ⟨replayingTask s, [], [hotFrame], gatewayAcks hotFrame⟩ := by
  simp only [World.step, List.getElem?_cons_zero, List.eraseIdx_cons_zero, List.nil_append]

theorem mildFrame_acks : gatewayAcks mildFrame = [⟨buildReportAckFrame 1 1, mildFrame⟩] := by
  decide +kernel

/-- And then the first report of the new run. -/
def reportingTask (s : StorageCtx) : GwTask := (gwSendSensorData (replayingTask s) mildState 5000 true).1

theorem reportingTask_slot (s : StorageCtx) : (reportingTask s).storage = s ∧
    gwPendingFindBySeq (reportingTask s).pending 1 = some 0 ∧
    (reportingTask s).pending 0 = some ⟨true, 1, 1, hotFrame, 5000⟩ := by
  have hscan : ∀ j, (gwPendingScanTimeout { replayingTask s with reportSeq := 0 + 1 } 5000).pending j =
      (replayingTask s).pending j := by
    intro j
    rw [scanTimeout_pending]
    split_ifs with hv
    · by_cases hj : j = 0
      · subst hj
        have hno : vacant 5000 (some ⟨true, 1, 1, hotFrame, 5000⟩) = false := rfl
        exact absurd (hno.symm.trans hv) Bool.false_ne_true
      · have hfree : (replayingTask s).pending j = none := by
          simp only [replayingTask, Function.update_of_ne hj]
        exact hfree.symm
    · rfl
  have halloc : gwPendingAllocSlot
      (gwPendingScanTimeout { replayingTask s with reportSeq := 0 + 1 } 5000).pending = some 1 := by
    rw [alloc_eq_some]
    refine ⟨hscan 1, fun j hj => ?_⟩
    obtain rfl : j = 0 := Fin.ext (Nat.lt_one_iff.mp hj)
    rw [hscan 0]
    exact Option.some_ne_none _
  have hpending := @sendSensorData_entered (replayingTask s) mildState 5000 1 halloc
  have hfirst : (reportingTask s).pending 0 = some ⟨true, 1, 1, hotFrame, 5000⟩ := by
    unfold reportingTask
    rw [hpending, Function.update_of_ne (by decide)]
    exact hscan 0
  refine ⟨(sendSensorData_slots (replayingTask s) mildState 5000 true).1, ?_, hfirst⟩
  rw [findBySeq_eq_some]
  exact ⟨⟨_, hfirst, rfl⟩, fun j hj => absurd hj (Fin.not_lt_zero j)⟩

theorem left_reports (s : StorageCtx) :
    ((((⟨replayingTask s, [hotFrame], [], []⟩ : World).step (.frameLost 0)).1.step
      (.sendSensorData mildState 5000 true)).1.step (.frameArrives 0)).1 =
      ⟨reportingTask s, [], [mildFrame], [⟨buildReportAckFrame 1 1, mildFrame⟩]⟩ := by
  have hsent : (gwSendSensorData (replayingTask s) mildState 5000 true).2 = some mildFrame :=
    sendSensorData_frame (replayingTask s) mildState 5000
  simp only [World.step, hsent, Option.toList_some, List.eraseIdx_cons_zero, List.nil_append,
    List.getElem?_cons_zero, mildFrame_acks, reportingTask]

/-- The acknowledgement of that report removes the record. -/
theorem left_removed {s : StorageCtx} {q : CacheQueue} (h : InStep (s, q))
    (hq : q.pending = [⟨1, hotFrame⟩]) :
    cachedRecords ((⟨reportingTask s, [], [mildFrame], [⟨buildReportAckFrame 1 1, mildFrame⟩]⟩ :
      World).step (.ackArrives 0)).1.task.storage = [] := by
  obtain ⟨hstorage, hfind, hslot⟩ := reportingTask_slot s
  have hmarks : (gwProcessReportAck (reportingTask s) (1 :: bytes32 1)).storage =
      (storageMarkCacheAck s 1).1 := by
    have hlen : 5 ≤ ((1 : UInt8) :: bytes32 1).length := by decide
    rw [← (reportAck_read 1 1).2] at hfind
    rw [processReportAck_marks hlen hfind hslot rfl, hstorage]
  have hmark := inStep_markAck h 1
  rw [markAck_oldest hq, if_pos rfl] at hmark
  simp only [World.step, List.getElem?_cons_zero, GwTask.receive, reportAcks_built, List.foldl_cons,
    List.foldl_nil, hmarks, inStep_cachedRecords hmark]

/-- The record comes to the gateway, and is acknowledged. -/
theorem removed_acked_once : Always World.step RemovedAcked (worldBoot leftFlash)
    [.tryReplayCache 5000 true, .frameArrives 0, .ackArrives 0] := by
  apply removed_acked leftFlash_numbered
  have hin := leftFlash_inStep
  unfold worldBoot taskBoot
  generalize storageBoot leftFlash = s at hin ⊢
  refine ⟨trivial, trivial, ?_, trivial⟩
  rw [left_replays hin leftFlash_boot, left_arrives]
  intro ack hack payload _ k _ slot hslot _ _
  have hframe : slot.frame = hotFrame := by
    change Function.update (fun _ => none) (0 : Fin GW_PENDING_QUEUE_SIZE)
      (some (⟨true, 1, 1, hotFrame, 5000⟩ : PendingReport)) k = some slot at hslot
    rw [Function.update_apply] at hslot
    split_ifs at hslot
    rw [← Option.some.inj hslot]
  dsimp only at hack
  generalize hacks : gatewayAcks hotFrame = acks at hack
  have hmem : ack ∈ gatewayAcks hotFrame := hacks ▸ List.mem_of_getElem? hack
  rw [hframe]
  exact (gatewayAcks_answer hmem).1.symm

/-- The record is lost on its way, and the acknowledgement of the new run's first report removes it. -/
theorem removed_unreceived : ¬ ∀ m es, BootNumbered m →
    Always World.step RemovedAcked (worldBoot m) es := by
  intro h
  have hall := h leftFlash [.tryReplayCache 5000 true, .frameLost 0,
    .sendSensorData mildState 5000 true, .frameArrives 0, .ackArrives 0] leftFlash_numbered
  have hin := leftFlash_inStep
  unfold worldBoot taskBoot at hall
  generalize storageBoot leftFlash = s at hall hin
  obtain ⟨-, -, -, -, hremoved, -⟩ := hall
  rw [left_replays hin leftFlash_boot, left_reports] at hremoved
  -- the cache is empty now, and the gateway has received another frame only
  have hgone := hremoved rfl ⟨1, hotFrame⟩
    (by
      dsimp only
      rw [(reportingTask_slot s).1, inStep_cachedRecords hin, leftFlash_boot]
      exact List.mem_cons_self)
    (by
      rw [left_removed hin leftFlash_boot]
      exact List.not_mem_nil)
    (by decide +kernel)
  have hother : mildFrame ≠ hotFrame := by decide +kernel
  exact hother (List.mem_singleton.mp hgone.1).symm

end EdgeLink.Report
