import EdgeLink.AckedReports

namespace EdgeLink.Report
open LittleEndian Nor Storage Gateway Machine

/-! What is left of an abnormal report that the device gives up. -/

/-- The acknowledgement that arrives answers this report. -/
def Answers (w : World) (e : Event) (frame : Bytes) : Prop :=
  ∃ i ack, e = .ackArrives i ∧ w.acks[i]? = some ack ∧ ack.frame = frame

/-- An abnormal report leaves its slot without an answer, or does not get into a slot. -/
def GivenUp (w : World) (e : Event) : Prop :=
  (∃ i slot, w.task.pending i = some slot ∧ slot.fromReplay = false ∧
    gwSensorFrameIsAbnormal slot.frame = true ∧ (w.step e).1.task.pending i ≠ some slot ∧
    ¬ Answers w e slot.frame) ∨
  ∃ state now_ms uart, e = .sendSensorData state now_ms uart ∧
    gwSensorFrameIsAbnormal (sensorFrame state (w.task.reportSeq + 1)) = true ∧
    ∀ i slot, (w.step e).1.task.pending i = some slot → slot.fromReplay = false →
      slot.frame ≠ sensorFrame state (w.task.reportSeq + 1)

/-- A record that was replayed is answered. -/
def ReplayAcked (w : World) (e : Event) : Prop :=
  ∃ i slot, w.task.pending i = some slot ∧ slot.fromReplay = true ∧
    gwSensorFrameIsAbnormal slot.frame = true ∧ (w.step e).1.task.pending i ≠ some slot ∧
    Answers w e slot.frame

/-- Since a report was given up no replayed record was answered. -/
def owes (w : World) (owed : Prop) (e : Event) (_ : Unit) : Prop :=
  GivenUp w e ∨ owed ∧ ¬ ReplayAcked w e

def traced := watched World.step owes

theorem traced_world (x : World × Prop) (e : Event) : (traced x e).1.1 = (x.1.step e).1 := rfl

/-- An abnormal record is in the cache, or on its way there. -/
def HoldsAbnormal (t : GwTask) : Prop :=
  (∃ rec ∈ cachedRecords t.storage, gwSensorFrameIsAbnormal rec.payload = true) ∨
    ∃ frame ∈ t.cacheQueue, gwSensorFrameIsAbnormal frame = true

def LeavesTrace (x : World × Prop) (e : Event) : Prop :=
  (traced x e).1.2 → HoldsAbnormal (traced x e).1.1.task

/-- The device does not start again, texts alone do not fill the queue when a report has to be handed
on, and what is written to the cache erases nothing that waits there. -/
def Undisturbed (x : World × Prop) (e : Event) : Prop :=
  e.restarts = false ∧
    (x.1.task.storage.cacheBacklog = 0 → GivenUp x.1 e → x.1.task.texts < STORAGE_TASK_QUEUE_LEN) ∧
    match e with
    | .writeCache tick_ms _ => ∀ payload ∈ x.1.task.cacheQueue.head?,
        ∀ q, SparesPending (x.1.task.storage, q) (.write payload tick_ms)
    | _ => True

/-- An acknowledgement finds no abnormal report but the one that it answers. -/
def OwnAck (x : World × Prop) (e : Event) : Prop :=
  match e with
  | .ackArrives i => ∀ ack ∈ x.1.acks[i]?, ∀ payload ∈ reportAcks ack.bytes,
      ∀ k ∈ gwPendingFindBySeq x.1.task.pending (read32 payload 1), ∀ slot ∈ x.1.task.pending k,
        gwSensorFrameIsAbnormal slot.frame = true → slot.frame = ack.frame
  | _ => True

def AbnormalReport (frame : Bytes) : Prop :=
  gwSensorFrameIsAbnormal frame = true ∧ (gwFrameExtractReportSeq frame).isSome = true

/-- A start over a cache of abnormal reports, with frames and acknowledgements of earlier runs still
on their way. -/
structure Booted (m : Mem) (w : World) : Prop where
  task : w.task = taskBoot m
  cached : ∀ rec ∈ (queueBoot m).pending, AbnormalReport rec.payload
  acks : ∀ ack ∈ w.acks, ack ∈ gatewayAcks ack.frame

def Filled (t : GwTask) : Prop := t.storage.cacheBacklog ≠ 0 ∨ t.cacheQueue ≠ []

structure Kept (t : GwTask) (q : CacheQueue) : Prop where
  inStep : InStep (t.storage, q)
  cached : ∀ rec ∈ q.pending, AbnormalReport rec.payload
  queued : ∀ frame ∈ t.cacheQueue, Writable frame ∧ AbnormalReport frame
  slots : ∀ i slot, t.pending i = some slot → slot.frame.length ≤ STORAGE_MAX_PAYLOAD_LEN ∧
    (gwFrameExtractReportSeq slot.frame).isSome = true ∧
    (slot.fromReplay = true → gwSensorFrameIsAbnormal slot.frame = true)

theorem sensorFrame_isSensorFrame (state : SmartHomeState) (seq : UInt32) :
    isSensorFrame (sensorFrame state seq) = true := by
  unfold isSensorFrame
  rw [sensorFrame_length, decide_eq_true_eq]
  exact ⟨le_rfl, rfl, rfl, rfl⟩

theorem sensorFrame_extract (state : SmartHomeState) (seq : UInt32) :
    (gwFrameExtractReportSeq (sensorFrame state seq)).isSome = true := by
  have hlen : ¬ (sensorFrame state seq).getD 2 0 < 15 := by
    have hget : (sensorFrame state seq).getD 2 0 = 15 := rfl
    rw [hget]
    decide
  unfold gwFrameExtractReportSeq
  rw [if_neg (not_or.mpr ⟨not_not.mpr (sensorFrame_isSensorFrame state seq), hlen⟩)]
  rfl

/-- A report is abnormal when the alarm is on or the sensor does not work. -/
theorem sensorFrame_abnormal (state : SmartHomeState) (seq : UInt32) :
    gwSensorFrameIsAbnormal (sensorFrame state seq) = (state.alarmOn || !state.sensorValid) := by
  have hpayload : ((sensorFrame state seq).drop 4).take ((sensorFrame state seq).getD 2 0 - 1).toNat =
      sensorPayload state seq := by
    have hget : (sensorFrame state seq).getD 2 0 = 15 := rfl
    rw [hget, show ((15 : UInt8) - 1).toNat = 14 from rfl]
    exact List.take_left' (sensorPayload_length state seq)
  have hstatus : (sensorPayload state seq).getD 9 0 = statusBits state := rfl
  have hbits : ∀ led alarm valid auto : Bool,
      let bits : UInt8 := (if led then 0x01 else 0) ||| (if alarm then 0x02 else 0) |||
        (if valid then 0x04 else 0) ||| (if auto then 0x08 else 0)
      decide (bits &&& 0x02 ≠ 0 ∨ bits &&& 0x04 = 0) = (alarm || !valid) := by
    decide
  have h := hbits state.ledOn state.alarmOn state.sensorValid (decide (state.mode = .auto))
  simp only [decide_eq_true_eq] at h
  unfold gwSensorFrameIsAbnormal gwSensorPayloadIsAbnormal
  rw [hpayload, hstatus, sensorPayload_length, sensorFrame_isSensorFrame, ← h]
  simp [statusBits]

section Task
variable {t t' : GwTask} {q : CacheQueue} {frame : Bytes}

theorem Kept.holds (h : Kept t q) (hf : Filled t) : HoldsAbnormal t := by
  rcases hf with hbacklog | hqueue
  · have hpending : q.pending ≠ [] := by
      intro hnil
      rw [inStep_backlog h.inStep, hnil] at hbacklog
      exact hbacklog rfl
    obtain ⟨rec, hrec⟩ := List.exists_mem_of_ne_nil _ hpending
    rw [← inStep_cachedRecords h.inStep] at hrec
    rw [← inStep_cachedRecords h.inStep] at hpending
    exact Or.inl ⟨rec, hrec, (h.cached rec (inStep_cachedRecords h.inStep ▸ hrec)).1⟩
  · obtain ⟨frame, hframe⟩ := List.exists_mem_of_ne_nil _ hqueue
    exact Or.inr ⟨frame, hframe, (h.queued frame hframe).2.1⟩

theorem Filled.mono (h : Filled t) (hs : t'.storage = t.storage)
    (hq : t.cacheQueue <+: t'.cacheQueue) : Filled t' := by
  unfold Filled
  rw [hs]
  refine h.imp_right fun hne hnil => hne ?_
  rw [hnil] at hq
  exact List.prefix_nil.mp hq

theorem Taken.filled (h : Taken t t' frame) (hs : t'.storage = t.storage)
    (htexts : t.storage.cacheBacklog = 0 → t'.texts < STORAGE_TASK_QUEUE_LEN)
    (habnormal : gwSensorFrameIsAbnormal frame = true) : Filled t' := by
  by_cases hempty : t.storage.cacheBacklog = 0
  · refine Or.inr fun hnil => ?_
    rcases h habnormal hempty with hmem | hfull
    · rw [hnil] at hmem
      exact absurd hmem List.not_mem_nil
    · unfold GwTask.waiting at hfull
      rw [hnil, List.length_nil, Nat.zero_add] at hfull
      exact absurd (htexts hempty) (Nat.not_lt.mpr hfull)
  · exact Or.inl (by rw [hs]; exact hempty)

theorem replayRounds_texts (now_ms : UInt32) (uart : Bool) (n : ℕ) (t : GwTask) (sent : List Bytes) :
    (replayRounds now_ms uart n t sent).1.texts = t.texts := by
  induction n generalizing t sent with
  | zero => rfl
  | succ n ih =>
    unfold replayRounds
    split
    · rfl
    · split
      · rfl
      · dsimp only
        split
        · rfl
        · split
          · rw [ih]
          · split
            · rfl
            · split
              · rfl
              · rw [ih]

theorem tryReplayCache_texts (t : GwTask) (now_ms : UInt32) (uart : Bool) :
    (gwTryReplayCache t now_ms uart).1.texts = t.texts := by
  unfold gwTryReplayCache
  split_ifs
  · rfl
  · rfl
  · exact replayRounds_texts now_ms uart _ _ _

theorem processReportAck_texts (t : GwTask) (payload : Bytes) :
    (gwProcessReportAck t payload).texts = t.texts := by
  unfold gwProcessReportAck gwPendingClear
  split
  · rfl
  · split
    · rfl
    · split
      · rfl
      · split_ifs <;> rfl

theorem receive_texts (t : GwTask) (stream : Bytes) : (t.receive stream).texts = t.texts := by
  unfold GwTask.receive
  generalize reportAcks stream = payloads
  induction payloads generalizing t with
  | nil => rfl
  | cons payload payloads ih => rw [List.foldl_cons, ih, processReportAck_texts]

theorem Kept.clear (h : Kept t q) (i : Fin GW_PENDING_QUEUE_SIZE) : Kept (gwPendingClear t i) q := by
  refine ⟨h.inStep, h.cached, h.queued, fun j slot hslot => ?_⟩
  rw [gwPendingClear_pending, Function.update_apply] at hslot
  split_ifs at hslot
  exact h.slots j slot hslot

theorem Kept.tryCache (h : Kept t q) (hframe : (gwFrameExtractReportSeq frame).isSome = true) :
    Kept (gwTryCacheAbnormalSnapshot t frame) q := by
  unfold gwTryCacheAbnormalSnapshot storageWriteCache
  by_cases habnormal : gwSensorFrameIsAbnormal frame = true
  · rw [if_neg (not_not.mpr habnormal)]
    split_ifs with hbacklog hno
    · exact h
    · exact h
    · rw [not_or, not_or] at hno
      refine ⟨h.inStep, h.cached, List.forall_mem_append.mpr ⟨h.queued, fun frame' hmem => ?_⟩, h.slots⟩
      obtain rfl := List.mem_singleton.mp hmem
      exact ⟨⟨hno.1, Nat.not_lt.mp hno.2.1⟩, habnormal, hframe⟩
  · rw [if_pos habnormal]
    exact h

theorem Kept.scanSlot (h : Kept t q) (now_ms : UInt32) (i : Fin GW_PENDING_QUEUE_SIZE) :
    Kept (gwPendingScanSlot now_ms t i) q := by
  unfold gwPendingScanSlot
  split
  · exact h
  · rename_i slot hslot
    unfold gwPendingHandleTimeout
    split_ifs
    · exact h.clear i
    · exact (h.tryCache (h.slots i slot hslot).2.1).clear i
    · exact h

theorem Kept.scanTimeout (h : Kept t q) (now_ms : UInt32) : Kept (gwPendingScanTimeout t now_ms) q := by
  unfold gwPendingScanTimeout
  generalize List.finRange GW_PENDING_QUEUE_SIZE = is
  induction is generalizing t with
  | nil => exact h
  | cons i is ih => exact ih (h.scanSlot now_ms i)

theorem Kept.enqueue (h : Kept t q) {p : PendingReports} {slot : PendingReport}
    (henter : gwPendingEnqueue t.pending slot = some p)
    (hseq : (gwFrameExtractReportSeq slot.frame).isSome = true)
    (hreplay : slot.fromReplay = true → gwSensorFrameIsAbnormal slot.frame = true) :
    Kept { t with pending := p } q := by
  refine ⟨h.inStep, h.cached, h.queued, fun i slot' hslot => ?_⟩
  rcases enqueue_slot henter hslot with hold | rfl
  · exact h.slots i slot' hold
  · exact ⟨(enqueue_keeps henter).1.trans (by decide), hseq, hreplay⟩

theorem Kept.sendSensorData (h : Kept t q) (state : SmartHomeState) (now_ms : UInt32) (uart : Bool) :
    Kept (gwSendSensorData t state now_ms uart).1 q := by
  have hnext : Kept { t with reportSeq := t.reportSeq + 1 } q := ⟨h.inStep, h.cached, h.queued, h.slots⟩
  have hscan := hnext.scanTimeout now_ms
  have hseq := sensorFrame_extract state (t.reportSeq + 1)
  unfold gwSendSensorData
  dsimp only
  split_ifs
  · split
    · exact hscan.tryCache hseq
    · rename_i henter
      exact hscan.enqueue henter hseq (fun hreplay => absurd hreplay Bool.false_ne_true)
  · exact hscan.tryCache hseq

/-- Nothing is dropped in a replay: every record is a report. -/
theorem Kept.replayRounds (h : Kept t q) (now_ms : UInt32) (uart : Bool) (n : ℕ) (sent : List Bytes) :
    Kept (replayRounds now_ms uart n t sent).1 q ∧
      (replayRounds now_ms uart n t sent).1.storage = t.storage ∧
      (replayRounds now_ms uart n t sent).1.cacheQueue = t.cacheQueue := by
  induction n generalizing t sent with
  | zero => exact ⟨h, rfl, rfl⟩
  | succ n ih =>
    unfold Report.replayRounds
    by_cases hfull : gwPendingAllocSlot t.pending = none
    · rw [if_pos hfull]
      exact ⟨h, rfl, rfl⟩
    rw [if_neg hfull, inStep_peek h.inStep]
    cases hq : q.pending with
    | nil => exact ⟨h, rfl, rfl⟩
    | cons rec rest =>
      have hrec := h.cached rec (by rw [hq]; exact List.mem_cons_self)
      obtain ⟨report_seq, hreport⟩ := Option.isSome_iff_exists.mp hrec.2
      rw [List.head?_cons]
      dsimp only
      rw [hreport]
      dsimp only
      split
      · exact ⟨h, rfl, rfl⟩
      · split
        · exact ⟨h, rfl, rfl⟩
        · split
          · exact ⟨h, rfl, rfl⟩
          · rename_i henter
            exact ih (h.enqueue henter hrec.2 fun _ => hrec.1) _

theorem Kept.tryReplayCache (h : Kept t q) (now_ms : UInt32) (uart : Bool) :
    Kept (gwTryReplayCache t now_ms uart).1 q ∧
      (gwTryReplayCache t now_ms uart).1.storage = t.storage ∧
      (gwTryReplayCache t now_ms uart).1.cacheQueue = t.cacheQueue := by
  unfold gwTryReplayCache
  split_ifs
  · exact ⟨h, rfl, rfl⟩
  · exact ⟨h, rfl, rfl⟩
  · have h' : Kept { t with replayLastTryMs := now_ms } q := ⟨h.inStep, h.cached, h.queued, h.slots⟩
    exact h'.replayRounds now_ms uart _ []

/-- An acknowledgement clears the slot that it finds; for a replayed report the oldest record may go. -/
theorem Kept.processReportAck (h : Kept t q) (payload : Bytes) :
    gwProcessReportAck t payload = t ∨
      ∃ k slot, gwPendingFindBySeq t.pending (read32 payload 1) = some k ∧
        t.pending k = some slot ∧
        (gwProcessReportAck t payload).pending = Function.update t.pending k none ∧
        (gwProcessReportAck t payload).cacheQueue = t.cacheQueue ∧
        (∃ q', Kept (gwProcessReportAck t payload) q') ∧
        (slot.fromReplay = false → (gwProcessReportAck t payload).storage = t.storage) := by
  rcases processReportAck_cases t payload with hsame | ⟨k, slot, hlen, hfind, hslot, -, hfound⟩
  · exact Or.inl hsame
  refine Or.inr ⟨k, slot, hfind, hslot, processReportAck_pending hlen hfind, ?_⟩
  rw [hfound]
  cases hreplay : slot.fromReplay with
  | false => exact ⟨rfl, ⟨q, h.clear k⟩, fun _ => rfl⟩
  | true =>
    rw [if_pos rfl]
    refine ⟨rfl, ?_, fun hlive => absurd hlive.symm Bool.false_ne_true⟩
    have hmark := inStep_markAck h.inStep slot.cacheSeq
    have hfewer : ∀ rec ∈ (q.step (.markAck slot.cacheSeq)).1.pending, rec ∈ q.pending := by
      cases hq : q.pending with
      | nil =>
        unfold CacheQueue.step
        rw [hq]
        exact fun rec hrec => hq ▸ hrec
      | cons rec rest =>
        rw [markAck_oldest hq]
        split_ifs
        · exact fun rec hrec => List.mem_cons_of_mem _ hrec
        · exact fun rec hrec => hq ▸ hrec
    have hmarked : Kept { t with storage := (storageMarkCacheAck t.storage slot.cacheSeq).1 } _ :=
      ⟨hmark, fun rec hrec => h.cached rec (hfewer rec hrec), h.queued, h.slots⟩
    exact ⟨_, hmarked.clear k⟩

/-- The storage task moves the oldest record that is on its way into the cache. -/
theorem Kept.writeCache (h : Kept t q) (tick_ms : UInt32)
    (hspares : ∀ payload ∈ t.cacheQueue.head?, ∀ q, SparesPending (t.storage, q) (.write payload tick_ms)) :
    (∃ q', Kept (t.writeCache tick_ms none) q') ∧ (Filled t → Filled (t.writeCache tick_ms none)) := by
  unfold GwTask.writeCache
  cases hqueue : t.cacheQueue with
  | nil => exact ⟨⟨q, h⟩, id⟩
  | cons payload rest =>
    have hqueued : ∀ frame ∈ payload :: rest, Writable frame ∧ AbnormalReport frame := hqueue ▸ h.queued
    obtain ⟨hw, hreport⟩ := hqueued payload List.mem_cons_self
    have hwrite := (inStep_step (t.storage, q) (.write payload tick_ms) h.inStep
      (hspares payload (by rw [hqueue]; rfl) q)).1
    have hpush : (cacheBeside (t.storage, q) (.write payload tick_ms)).1 =
        ((storageWriteCacheRecord t.storage none payload tick_ms).1, q.push payload) := by
      unfold cacheBeside
      rw [watched_fst, CacheQueue.step, if_pos hw]
      rfl
    rw [hpush] at hwrite
    dsimp only
    refine ⟨⟨q.push payload, hwrite, fun rec hrec => ?_, fun frame hframe =>
      hqueued frame (List.mem_cons_of_mem _ hframe), h.slots⟩, fun _ => Or.inl ?_⟩
    · rcases List.mem_append.mp hrec with hold | hnew
      · unfold CacheQueue.room at hold
        split_ifs at hold
        · exact absurd hold List.not_mem_nil
        · exact h.cached rec hold
      · rw [List.mem_singleton.mp hnew]
        exact hreport
    · dsimp only
      rw [inStep_backlog hwrite]
      unfold CacheQueue.push
      rw [List.length_append, List.length_singleton]
      exact Nat.succ_ne_zero _

theorem Kept.writeEvent (h : Kept t q) (rec_type : UInt16) (payload : Bytes) (tick_ms : UInt32) :
    (∃ q', Kept (t.writeEvent rec_type payload tick_ms none) q') ∧
      (Filled t → Filled (t.writeEvent rec_type payload tick_ms none)) := by
  obtain ⟨q', hwrite, hpending, -⟩ := inStep_writeEvent h.inStep rec_type payload tick_ms
  refine ⟨⟨q', hwrite, by rw [hpending]; exact h.cached, h.queued, h.slots⟩, ?_⟩
  refine Or.imp_left fun hbacklog => ?_
  unfold GwTask.writeEvent
  dsimp only
  rw [inStep_backlog hwrite, hpending, ← inStep_backlog h.inStep]
  exact hbacklog

end Task

structure Traceable (x : World × Prop) : Prop where
  kept : ∃ q, Kept x.1.task q
  acks : ∀ ack ∈ x.1.acks, ∃ d seq, ack.bytes = buildReportAckFrame d seq
  filled : x.2 → Filled x.1.task

section Run
variable {w : World} {owed : Prop} {e : Event} {q : CacheQueue}

theorem Kept.short {t : GwTask} (h : Kept t q) : Short t := fun i slot hslot => (h.slots i slot hslot).1

/-- A report that is given up other than by an acknowledgement is handed on, or finds the cache in use. -/
theorem GivenUp.filled (h : GivenUp w e) (hkept : Kept w.task q) (hrun : Undisturbed (w, owed) e)
    (hack : ∀ i, e ≠ .ackArrives i) (hs : (w.step e).1.task.storage = w.task.storage)
    (ht : (w.step e).1.task.texts = w.task.texts) : Filled (w.step e).1.task := by
  obtain ⟨hwaits, hsent⟩ := step_keepsUnacked w e hkept.short
  obtain ⟨hrun, htexts, -⟩ := hrun
  replace htexts : w.task.storage.cacheBacklog = 0 →
      (w.step e).1.task.texts < STORAGE_TASK_QUEUE_LEN := fun hempty => ht ▸ htexts hempty h
  rcases h with ⟨i, slot, hslot, hlive, habnormal, hgone, -⟩ | ⟨state, now_ms, uart, rfl, habnormal, hnone⟩
  · rcases hwaits i slot hslot hlive with
      hstay | ⟨k, -, -, rfl, -⟩ | hrestart | ⟨now_ms, -, -, -, hhanded⟩
    · exact absurd hstay hgone
    · exact absurd rfl (hack k)
    · rw [hrun] at hrestart
      exact absurd hrestart Bool.false_ne_true
    · exact hhanded.taken.filled hs htexts habnormal
  · rcases hsent state now_ms uart rfl with ⟨i, slot, hslot, hlive, hframe⟩ | ⟨-, hhanded⟩
    · exact absurd hframe (hnone i slot hslot hlive)
    · exact hhanded.taken.filled hs htexts habnormal

/-- What is owed after a step that leaves the storage alone. -/
theorem owes_filled (hkept : Kept w.task q) (hrun : Undisturbed (w, owed) e)
    (hack : ∀ i, e ≠ .ackArrives i) (hs : (w.step e).1.task.storage = w.task.storage)
    (ht : (w.step e).1.task.texts = w.task.texts) (hq : w.task.cacheQueue <+: (w.step e).1.task.cacheQueue) (howed : owed → Filled w.task) :
    owes w owed e () → Filled (w.step e).1.task := by
  rintro (hup | ⟨howe, -⟩)
  · exact hup.filled hkept hrun hack hs ht
  · exact (howed howe).mono hs hq

/-- Nor is anything given up by a step that leaves the slots alone. -/
theorem owes_slots (hsend : ∀ state now_ms uart, e ≠ .sendSensorData state now_ms uart)
    (hp : (w.step e).1.task.pending = w.task.pending)
    (hf : Filled w.task → Filled (w.step e).1.task) (howed : owed → Filled w.task) :
    owes w owed e () → Filled (w.step e).1.task := by
  rintro ((⟨i, slot, hslot, -, -, hgone, -⟩ | ⟨state, now_ms, uart, he, -⟩) | ⟨howe, -⟩)
  · rw [hp] at hgone
    exact absurd hslot hgone
  · exact absurd he (hsend state now_ms uart)
  · exact hf (howed howe)

theorem step_ack {i : ℕ} {ack : Ack} (h : Kept w.task q) (hi : w.acks[i]? = some ack)
    (hbuilt : ∃ d seq, ack.bytes = buildReportAckFrame d seq) (hown : OwnAck (w, owed) (.ackArrives i))
    (howed : owed → Filled w.task) :
    (∃ q', Kept (w.step (.ackArrives i)).1.task q') ∧
      (owes w owed (.ackArrives i) () → Filled (w.step (.ackArrives i)).1.task) := by
  obtain ⟨d, seq, hbytes⟩ := hbuilt
  have hreads : reportAcks ack.bytes = [d :: bytes32 seq] := by rw [hbytes, reportAcks_built]
  have hstep := congrArg World.task (step_ack_some hi hreads)
  have hsend : ∀ state now_ms uart, Event.ackArrives i ≠ .sendSensorData state now_ms uart :=
    fun _ _ _ h => by cases h
  rcases h.processReportAck (d :: bytes32 seq) with
    hsame | ⟨k, slot, hfind, hslot, hpending, hqueue, hkept, hlive⟩
  · rw [hsame] at hstep
    exact ⟨⟨q, by rw [hstep]; exact h⟩,
      owes_slots hsend (by rw [hstep]) (by rw [hstep]; exact id) howed⟩
  · refine ⟨by rw [hstep]; exact hkept, ?_⟩
    have hgone : (w.step (.ackArrives i)).1.task.pending k ≠ some slot := by
      rw [hstep, hpending, Function.update_self]
      exact Option.some_ne_none slot |>.symm
    have hanswers : gwSensorFrameIsAbnormal slot.frame = true → Answers w (.ackArrives i) slot.frame :=
      fun habnormal => ⟨i, ack, rfl, hi, (hown ack hi (d :: bytes32 seq)
        (by rw [hreads]; exact List.mem_cons_self) k hfind slot hslot habnormal).symm⟩
    have hnone : ¬ GivenUp w (.ackArrives i) := by
      rintro (⟨j, slot', hslot', -, habnormal, hleft, hunanswered⟩ | ⟨state, now_ms, uart, he, -⟩)
      · rw [hstep, hpending, Function.update_apply] at hleft
        split_ifs at hleft with hjk
        · subst hjk
          rw [hslot] at hslot'
          obtain rfl := Option.some.inj hslot'
          exact hunanswered (hanswers habnormal)
        · exact hleft hslot'
      · exact hsend state now_ms uart he
    rintro (hup | ⟨howe, hunanswered⟩)
    · exact absurd hup hnone
    · cases hreplay : slot.fromReplay with
      | false =>
        rw [hstep]
        exact (howed howe).mono (hlive hreplay) (by rw [hqueue])
      | true =>
        -- a record that was replayed is abnormal, so this is its own answer
        have habnormal := (h.slots k slot hslot).2.2 hreplay
        exact absurd ⟨k, slot, hslot, hreplay, habnormal, hgone, hanswers habnormal⟩ hunanswered

theorem step_traced (x : World × Prop) (e : Event) (h : Traceable x)
    (hc : Undisturbed x e ∧ OwnAck x e) : Traceable (traced x e).1 ∧ LeavesTrace x e := by
  obtain ⟨w, owed⟩ := x
  obtain ⟨⟨q, hq⟩, hacks, howed⟩ := h
  obtain ⟨hcalm, hown⟩ := hc
  have hspares := hcalm.2.2
  have hrun := hcalm.1
  dsimp only at hq hacks howed hspares
  -- what is left to show of any event: its own part of the invariant
  have hnext : ∀ (_ : ∃ q', Kept (w.step e).1.task q')
      (_ : ∀ ack ∈ (w.step e).1.acks, ∃ d seq, ack.bytes = buildReportAckFrame d seq)
      (_ : owes w owed e () → Filled (w.step e).1.task),
      Traceable (traced (w, owed) e).1 ∧ LeavesTrace (w, owed) e := by
    rintro ⟨q', hq'⟩ hacks' hfilled
    exact ⟨⟨⟨q', hq'⟩, hacks', hfilled⟩, fun howe => hq'.holds (hfilled howe)⟩
  cases e with
  | sendSensorData state now_ms uart =>
    obtain ⟨added, hands⟩ := sendSensorData_hands w.task state now_ms uart
    exact hnext ⟨q, hq.sendSensorData state now_ms uart⟩ hacks
      (owes_filled hq hcalm (fun _ h => by cases h) (sendSensorData_slots w.task state now_ms uart).1
        hands.texts hands.longer howed)
  | tryReplayCache now_ms uart =>
    obtain ⟨hkept, hs, hqueue⟩ := hq.tryReplayCache now_ms uart
    exact hnext ⟨q, hkept⟩ hacks (owes_filled hq hcalm (fun _ h => by cases h) hs
      (tryReplayCache_texts w.task now_ms uart) (by
        change w.task.cacheQueue <+: (gwTryReplayCache w.task now_ms uart).1.cacheQueue
        rw [hqueue]) howed)
  | pendingScanTimeout now_ms =>
    obtain ⟨added, hands⟩ := scanSlots_hands now_ms w.task (List.finRange GW_PENDING_QUEUE_SIZE)
    exact hnext ⟨q, hq.scanTimeout now_ms⟩ hacks (owes_filled hq hcalm (fun _ h => by cases h)
      (scanTimeout_storage w.task now_ms) hands.texts hands.longer howed)
  | ackArrives i =>
    cases hi : w.acks[i]? with
    | none =>
      have hstep := step_ack_none hi
      refine hnext ⟨q, by rw [hstep]; exact hq⟩ (by rw [hstep]; exact hacks) ?_
      exact owes_slots (fun _ _ _ h => by cases h) (by rw [hstep]) (by rw [hstep]; exact id) howed
    | some ack =>
      have hfewer : ∀ ack' ∈ (w.step (.ackArrives i)).1.acks, ack' ∈ w.acks := by
        simp only [World.step, hi]
        exact fun ack' hack' => List.mem_of_mem_eraseIdx hack'
      obtain ⟨hkept, hfilled⟩ := step_ack hq hi (hacks ack (List.mem_of_getElem? hi)) hown howed
      exact hnext hkept (fun ack' hack' => hacks ack' (hfewer ack' hack')) hfilled
  | ackLost i =>
    exact hnext ⟨q, hq⟩ (fun ack hack => hacks ack (List.mem_of_mem_eraseIdx hack))
      (owes_slots (fun _ _ _ h => by cases h) rfl id howed)
  | frameArrives i =>
    cases hframe : w.frames[i]? with
    | none =>
      have hstep := step_frame_none hframe
      refine hnext ⟨q, by rw [hstep]; exact hq⟩ (by rw [hstep]; exact hacks) ?_
      exact owes_slots (fun _ _ _ h => by cases h) (by rw [hstep]) (by rw [hstep]; exact id) howed
    | some frame =>
      have hstep := step_frame_some hframe
      refine hnext ⟨q, by rw [hstep]; exact hq⟩ ?_ ?_
      · rw [hstep]
        exact List.forall_mem_append.mpr ⟨hacks, fun ack hack => (gatewayAcks_answer hack).2⟩
      · exact owes_slots (fun _ _ _ h => by cases h) (by rw [hstep]) (by rw [hstep]; exact id) howed
  | frameLost i => exact hnext ⟨q, hq⟩ hacks (owes_slots (fun _ _ _ h => by cases h) rfl id howed)
  | writeCache tick_ms life =>
    -- the power does not fail during the write, or the run would have ended
    obtain rfl : life = none := Option.isSome_eq_false_iff.mp hrun |> Option.isNone_iff_eq_none.mp
    obtain ⟨hkept, hfilled⟩ := hq.writeCache tick_ms hspares
    refine hnext hkept hacks (owes_slots (fun _ _ _ h => by cases h) ?_ hfilled howed)
    change (w.task.writeCache tick_ms none).pending = w.task.pending
    unfold GwTask.writeCache
    split <;> rfl
  | writeEvent rec_type payload tick_ms life =>
    obtain rfl : life = none := Option.isSome_eq_false_iff.mp hrun |> Option.isNone_iff_eq_none.mp
    obtain ⟨hkept, hfilled⟩ := hq.writeEvent rec_type payload tick_ms
    exact hnext hkept hacks (owes_slots (fun _ _ _ h => by cases h) rfl hfilled howed)
  | queueTexts n =>
    exact hnext ⟨q, hq.inStep, hq.cached, hq.queued, hq.slots⟩ hacks
      (owes_slots (fun _ _ _ h => by cases h) rfl id howed)
  | reboot => exact absurd hrun (Bool.false_ne_true ∘ Eq.symm)

/-- Over every run since a start an abnormal report that is given up leaves an abnormal record in the
cache, until one that was replayed is acknowledged, as long as no acknowledgement finds another abnormal
report than its own. -/
theorem given_up_traced {m : Mem} (hw : Booted m w) {es : List Event}
    (h : Always traced (fun x e => Undisturbed x e ∧ OwnAck x e) (w, False) es) :
    Always traced LeavesTrace (w, False) es := by
  refine Always.of_invariant step_traced ⟨⟨queueBoot m, ?_⟩, fun ack hack => ?_, False.elim⟩ h
  · dsimp only
    rw [hw.task]
    exact ⟨⟨_, storageBoot_waiting m⟩, hw.cached, fun _ hmem => absurd hmem List.not_mem_nil,
      fun _ _ hslot => by cases hslot⟩
  · exact (gatewayAcks_answer (hw.acks ack hack)).2

end Run

section Missed
variable {t : GwTask}

theorem tryCache_busy (h : t.storage.cacheBacklog ≠ 0) (frame : Bytes) :
    gwTryCacheAbnormalSnapshot t frame = t := by
  unfold gwTryCacheAbnormalSnapshot
  split_ifs
  · rfl
  · rfl

theorem scanSlots_busy (now_ms : UInt32) (h : t.storage.cacheBacklog ≠ 0)
    (is : List (Fin GW_PENDING_QUEUE_SIZE)) :
    (is.foldl (gwPendingScanSlot now_ms) t).cacheQueue = t.cacheQueue := by
  induction is generalizing t with
  | nil => rfl
  | cons i is ih =>
    rw [List.foldl_cons, ih (by rw [scanSlot_storage]; exact h)]
    unfold gwPendingScanSlot gwPendingHandleTimeout
    split
    · rfl
    · rw [tryCache_busy h]
      split_ifs <;> rfl

/-- While records wait nothing more is handed to the storage task. -/
theorem sendSensorData_busy (h : t.storage.cacheBacklog ≠ 0) (state : SmartHomeState) (now_ms : UInt32)
    (uart : Bool) : (gwSendSensorData t state now_ms uart).1.cacheQueue = t.cacheQueue := by
  have hscan : (gwPendingScanTimeout { t with reportSeq := t.reportSeq + 1 } now_ms).cacheQueue =
      t.cacheQueue := @scanSlots_busy { t with reportSeq := t.reportSeq + 1 } now_ms h _
  have hstorage := scanTimeout_storage { t with reportSeq := t.reportSeq + 1 } now_ms
  unfold gwSendSensorData
  dsimp only
  rw [tryCache_busy (by rw [hstorage]; exact h)]
  split_ifs
  · split <;> exact hscan
  · exact hscan

theorem sendSensorData_slot {state : SmartHomeState} {now_ms : UInt32} {uart : Bool}
    {i : Fin GW_PENDING_QUEUE_SIZE} {slot : PendingReport}
    (h : (gwSendSensorData t state now_ms uart).1.pending i = some slot) :
    t.pending i = some slot ∨ uart = true ∧ slot.frame = sensorFrame state (t.reportSeq + 1) := by
  have hscan : ∀ slot, (gwPendingScanTimeout { t with reportSeq := t.reportSeq + 1 } now_ms).pending i =
      some slot → t.pending i = some slot := fun slot hs =>
    @scanTimeout_slot { t with reportSeq := t.reportSeq + 1 } now_ms i slot hs
  unfold gwSendSensorData at h
  dsimp only at h
  cases uart with
  | false => exact Or.inl (hscan slot (by rw [← gwTryCache_pending]; exact h))
  | true =>
    cases henter : gwPendingEnqueue (gwPendingScanTimeout { t with reportSeq := t.reportSeq + 1 }
        now_ms).pending ⟨false, 0, t.reportSeq + 1, sensorFrame state (t.reportSeq + 1), now_ms⟩ with
    | none =>
      simp only [not_true_eq_false, if_false, henter, gwTryCache_pending] at h
      exact Or.inl (hscan slot h)
    | some p =>
      simp only [not_true_eq_false, if_false, henter] at h
      rcases enqueue_slot henter h with hold | rfl
      · exact Or.inl (hscan slot hold)
      · exact Or.inr ⟨rfl, rfl⟩

end Missed

def missedTask (s : StorageCtx) : GwTask := (gwSendSensorData (reportingTask s) hotState 5000 false).1

/-- The first report and its acknowledgement are on their way. -/
def reportingWorld (s : StorageCtx) : World :=
  ⟨reportingTask s, [], [mildFrame], [⟨buildReportAckFrame 1 1, mildFrame⟩]⟩

theorem left_missed (s : StorageCtx) : ((reportingWorld s).step (.sendSensorData hotState 5000 false)).1 =
    { reportingWorld s with task := missedTask s } := rfl

theorem missedTask_slot (s : StorageCtx) : (missedTask s).storage = s ∧
    gwPendingFindBySeq (missedTask s).pending 1 = some 0 ∧
    (missedTask s).pending 0 = some ⟨true, 1, 1, hotFrame, 5000⟩ := by
  obtain ⟨hstorage, -, hslot⟩ := reportingTask_slot s
  have hkeep := (sendSensorData_keeps (reportingTask s) hotState 5000 false).2.1 0
    ⟨true, 1, 1, hotFrame, 5000⟩ (by
      rw [scanTimeout_pending, if_neg (by rw [hslot]; decide)]
      exact hslot)
  refine ⟨(sendSensorData_slots (reportingTask s) hotState 5000 false).1.trans hstorage, ?_, hkeep⟩
  rw [findBySeq_eq_some]
  exact ⟨⟨_, hkeep, rfl⟩, fun j hj => absurd hj (Fin.not_lt_zero j)⟩

theorem missed_givenUp (s : StorageCtx) :
    GivenUp (reportingWorld s) (.sendSensorData hotState 5000 false) := by
  refine Or.inr ⟨hotState, 5000, false, rfl, sensorFrame_abnormal _ _, fun i slot hslot hlive hframe => ?_⟩
  rw [left_missed] at hslot
  rcases sendSensorData_slot hslot with hold | ⟨huart, -⟩
  · rcases sendSensorData_slot hold with hfirst | ⟨-, hmild⟩
    · -- only the record was on its way before
      change Function.update (fun _ => none) (0 : Fin GW_PENDING_QUEUE_SIZE)
        (some (⟨true, 1, 1, hotFrame, 5000⟩ : PendingReport)) i = some slot at hfirst
      rw [Function.update_apply] at hfirst
      split_ifs at hfirst
      rw [← Option.some.inj hfirst] at hlive
      cases hlive
    · have habnormal := congrArg gwSensorFrameIsAbnormal (hframe.symm.trans hmild)
      rw [sensorFrame_abnormal, sensorFrame_abnormal] at habnormal
      cases habnormal
  · cases huart

/-- The acknowledgement of the first report removes the record. -/
theorem missed_removed {s : StorageCtx} {q : CacheQueue} (h : InStep (s, q))
    (hq : q.pending = [⟨1, hotFrame⟩]) :
    ¬ HoldsAbnormal (({ reportingWorld s with task := missedTask s } : World).step
      (.ackArrives 0)).1.task := by
  obtain ⟨hstorage, hfind, hslot⟩ := missedTask_slot s
  have hmark := inStep_markAck h 1
  rw [markAck_oldest hq, if_pos rfl] at hmark
  have hlen : 5 ≤ ((1 : UInt8) :: bytes32 1).length := by decide
  rw [← (reportAck_read 1 1).2] at hfind
  have hmarks : (gwProcessReportAck (missedTask s) (1 :: bytes32 1)).storage =
      (storageMarkCacheAck s 1).1 := by
    rw [processReportAck_marks hlen hfind hslot rfl, hstorage]
  have hbusy : s.cacheBacklog ≠ 0 := by
    rw [inStep_backlog h, hq]
    exact Nat.one_ne_zero
  have hqueue : (gwProcessReportAck (missedTask s) (1 :: bytes32 1)).cacheQueue = [] := by
    rw [processReportAck_found hlen hfind hslot, if_pos rfl]
    change (missedTask s).cacheQueue = []
    unfold missedTask
    rw [sendSensorData_busy (by rw [(reportingTask_slot s).1]; exact hbusy)]
    unfold reportingTask
    rw [sendSensorData_busy hbusy]
    rfl
  have hstep : (({ reportingWorld s with task := missedTask s } : World).step (.ackArrives 0)).1.task =
      gwProcessReportAck (missedTask s) (1 :: bytes32 1) := by
    simp only [World.step, reportingWorld, List.getElem?_cons_zero, GwTask.receive, reportAcks_built,
      List.foldl_cons, List.foldl_nil]
  rw [hstep]
  rintro (⟨rec, hrec, -⟩ | ⟨frame, hframe, -⟩)
  · rw [hmarks, inStep_cachedRecords hmark] at hrec
    exact absurd hrec List.not_mem_nil
  · rw [hqueue] at hframe
    exact absurd hframe List.not_mem_nil

/-- That is not the answer to a replayed record. -/
theorem missed_unacked (s : StorageCtx) :
    ¬ ReplayAcked { reportingWorld s with task := missedTask s } (.ackArrives 0) := by
  rintro ⟨i, slot, -, -, habnormal, -, k, ack, he, hack, hframe⟩
  cases he
  obtain rfl := Option.some.inj hack
  rw [← hframe, mildFrame, sensorFrame_abnormal] at habnormal
  cases habnormal

theorem missed_untraced {s : StorageCtx} {q : CacheQueue} (h : InStep (s, q))
    (hq : q.pending = [⟨1, hotFrame⟩]) {x : World × Prop} (hx : x.1 = reportingWorld s) :
    ¬ LeavesTrace (traced x (.sendSensorData hotState 5000 false)).1 (.ackArrives 0) := by
  obtain ⟨w, owed⟩ := x
  dsimp only at hx
  subst hx
  have hstate : (traced (reportingWorld s, owed) (.sendSensorData hotState 5000 false)).1 =
      ({ reportingWorld s with task := missedTask s },
        owes (reportingWorld s) owed (.sendSensorData hotState 5000 false) ()) :=
    Prod.ext (left_missed s) rfl
  rw [hstate]
  unfold LeavesTrace traced
  rw [watched_fst]
  intro hleaves
  exact missed_removed h hq (hleaves (Or.inr ⟨Or.inl (missed_givenUp s), missed_unacked s⟩))

/-- The gateway task and the link by themselves. -/
def Event.isQuiet : Event → Bool
  | .writeCache _ _ | .writeEvent _ _ _ _ | .queueTexts _ | .reboot => false
  | _ => true

theorem step_texts (w : World) {e : Event} (h : e.isQuiet = true) :
    (w.step e).1.task.texts = w.task.texts := by
  cases e with
  | sendSensorData state now_ms uart =>
    obtain ⟨added, hands⟩ := sendSensorData_hands w.task state now_ms uart
    exact hands.texts
  | tryReplayCache now_ms uart => exact tryReplayCache_texts w.task now_ms uart
  | pendingScanTimeout now_ms =>
    obtain ⟨added, hands⟩ := scanSlots_hands now_ms w.task (List.finRange GW_PENDING_QUEUE_SIZE)
    exact hands.texts
  | ackArrives i =>
    simp only [World.step]
    split
    · rfl
    · exact receive_texts w.task _
  | frameArrives i =>
    simp only [World.step]
    split <;> rfl
  | ackLost i | frameLost i => rfl
  | writeCache tick_ms life | writeEvent rec_type payload tick_ms life | queueTexts n | reboot => cases h

theorem quiet_undisturbed {x : World × Prop} (hx : x.1.task.texts = 0) {es : List Event}
    (h : ∀ e ∈ es, e.isQuiet = true) : Always traced Undisturbed x es := by
  refine Always.of_invariant (fun x e (hx : x.1.task.texts = 0) (hquiet : e.isQuiet = true) => ?_) hx
    (Always.of_forall traced (fun e he _ => h e he) x)
  refine ⟨(step_texts x.1 hquiet).trans hx, ?_, fun _ _ => by rw [hx]; decide, ?_⟩
  · cases e <;> trivial
  · cases e <;> trivial

theorem leftFlash_booted : Booted leftFlash (worldBoot leftFlash) := by
  refine ⟨rfl, fun rec hrec => ?_, fun ack hack => absurd hack List.not_mem_nil⟩
  rw [leftFlash_boot] at hrec
  rw [List.mem_singleton.mp hrec]
  exact ⟨sensorFrame_abnormal _ _, sensorFrame_extract _ _⟩

/-- The report that finds a record in the cache. -/
theorem given_up_traced_once : Always traced LeavesTrace (worldBoot leftFlash, False)
    [.sendSensorData hotState 5000 false, .tryReplayCache 5000 true] :=
  given_up_traced leftFlash_booted
    ((quiet_undisturbed rfl (by decide)).and ⟨trivial, trivial, trivial⟩)

def missedRun : List Event :=
  [.tryReplayCache 5000 true, .frameLost 0, .sendSensorData mildState 5000 true, .frameArrives 0,
    .sendSensorData hotState 5000 false, .ackArrives 0]

/-- A report is given up while a record of an earlier run waits, and the acknowledgement of another
report removes the record. -/
theorem given_up_untraced : ¬ ∀ (m : Mem) (w : World) (es : List Event), Booted m w →
    Always traced Undisturbed (w, False) es → Always traced LeavesTrace (w, False) es := by
  intro h
  have hall := h leftFlash _ missedRun leftFlash_booted (quiet_undisturbed rfl (by decide))
  have hin := leftFlash_inStep
  unfold worldBoot taskBoot at hall
  generalize storageBoot leftFlash = s at hall hin
  obtain ⟨-, -, -, -, -, hlast, -⟩ := hall
  refine missed_untraced hin leftFlash_boot ?_ hlast
  rw [traced_world, traced_world, traced_world, traced_world, left_replays hin leftFlash_boot]
  exact left_reports s

end EdgeLink.Report
