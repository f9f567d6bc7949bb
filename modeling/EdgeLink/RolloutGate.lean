import EdgeLink.RolloutSteps

namespace EdgeLink.Rollout

open Ota (OtaTaskState stateText canTransition)
open Machine

/-- The states that the mapping ends in, and those an item starts in. -/
def mappedStates : List String := ["success"] ++ pendingStates ++ activeStates ++ failedStates

/-- With them, the gateway's states that the mapping does not know. -/
def allStates : List String := mappedStates ++
  ["wait_device_online", "precheck", "prepare_device", "transferring", "verifying", "committing",
    "rebooting", "version_check", "health_confirm", "rollback"]

theorem normalize_fallback {raw_state : String} (h : lower (strip raw_state) ≠ "")
    (fallback : String) :
    normalizeBatchItemStatus raw_state fallback = normalizeBatchItemStatus raw_state "unknown" := by
  unfold normalizeBatchItemStatus
  dsimp only
  rw [if_neg h, if_neg h]

theorem normalize_stateText (s : OtaTaskState) (fallback : String) :
    normalizeBatchItemStatus (stateText s) fallback ∈ allStates ∧
      (normalizeBatchItemStatus (stateText s) fallback = "success" → s = .success) := by
  have hname : lower (strip (stateText s)) ≠ "" := by cases s <;> decide +kernel
  rw [normalize_fallback hname]
  cases s <;> decide +kernel

theorem normalize_self : ∀ s ∈ allStates, normalizeBatchItemStatus s s ∈ allStates ∧
    (normalizeBatchItemStatus s s = "success" → s = "success") := by
  decide +kernel

theorem strip_strip (s : String) : strip (strip s) = strip s := by
  unfold strip
  rw [String.toList_ofList, PyText.strip_strip]

/-- An item of a run is as it was, or it is in a state that is not success. -/
def Rewritten (items items' : List Item) : Prop :=
  ∀ item' ∈ items', ∃ item ∈ items,
    item'.deviceId = item.deviceId ∧ item'.batchIndex = item.batchIndex ∧
      (item' = item ∨ (item'.status ∈ allStates ∧ item'.status ≠ "success"))

theorem Rewritten.refl (items : List Item) : Rewritten items items :=
  fun item h => ⟨item, h, rfl, rfl, Or.inl rfl⟩

theorem Rewritten.of_map {items : List Item} {f : Item → Item}
    (h : ∀ item, (f item).deviceId = item.deviceId ∧ (f item).batchIndex = item.batchIndex ∧
      (f item = item ∨ ((f item).status ∈ allStates ∧ (f item).status ≠ "success"))) :
    Rewritten items (items.map f) := by
  intro item' hitem'
  obtain ⟨item, hitem, rfl⟩ := List.mem_map.mp hitem'
  exact ⟨item, hitem, h item⟩

theorem submittedStatus_mem (created : Created) :
    submittedStatus created ∈ allStates ∧ submittedStatus created ≠ "success" := by
  unfold submittedStatus
  cases created.ok <;> decide

theorem startItems_rewritten (w : World) (a : Answers) (next_batch_index i : ℕ) (items : List Item) :
    Rewritten items (startItems w a next_batch_index i items).1 := by
  induction items generalizing i with
  | nil => exact Rewritten.refl []
  | cons item items ih =>
    intro item' hitem'
    unfold startItems at hitem'
    by_cases hnext : item.batchIndex = next_batch_index ∧ item.pending
    · rw [if_pos hnext] at hitem'
      rcases List.mem_cons.mp hitem' with rfl | hitem'
      · exact ⟨item, List.mem_cons_self, rfl, rfl, Or.inr (submittedStatus_mem _)⟩
      · obtain ⟨old, hold, hrest⟩ := ih (i + 1) item' hitem'
        exact ⟨old, List.mem_cons_of_mem _ hold, hrest⟩
    · rw [if_neg hnext] at hitem'
      rcases List.mem_cons.mp hitem' with rfl | hitem'
      · exact ⟨item', List.mem_cons_self, rfl, rfl, Or.inl rfl⟩
      · obtain ⟨old, hold, hrest⟩ := ih i item' hitem'
        exact ⟨old, List.mem_cons_of_mem _ hold, hrest⟩

theorem cancelPending_rewritten (acted_at : ℕ) (items : List Item) :
    Rewritten items (items.map (cancelPending acted_at)) := by
  apply Rewritten.of_map
  intro item
  unfold cancelPending
  split_ifs
  · exact ⟨rfl, rfl, Or.inr (by dsimp only; decide)⟩
  · exact ⟨rfl, rfl, Or.inl rfl⟩

theorem retryItem_rewritten (acted_at : ℕ) (retry_results : List (ℤ × Created))
    (items : List Item) : Rewritten items (items.map (retryItem acted_at retry_results)) := by
  apply Rewritten.of_map
  intro item
  unfold retryItem
  cases retry_results.lookup item.deviceId with
  | some created => exact ⟨rfl, rfl, Or.inr (submittedStatus_mem created)⟩
  | none => exact ⟨rfl, rfl, Or.inl rfl⟩

theorem operate_rewritten (gateway : Gateway) (w : World) {op : Op} (h : op ≠ .refreshBatchRun) :
    Rewritten w.items (operate gateway w op).world.items ∧
      (operate gateway w op).world.lastRefresh = w.lastRefresh := by
  cases op with
  | startNextBatch a =>
    dsimp only [operate]
    rcases startNextBatch_cases a w with hr | ⟨next, -, -, -, -, hr⟩
    · rw [hr]
      exact ⟨Rewritten.refl _, rfl⟩
    · rw [hr]
      exact ⟨startItems_rewritten w a next 0 w.items, rfl⟩
  | pauseBatchRun =>
    dsimp only [operate]
    rcases pauseBatchRun_cases w with hr | ⟨-, hr⟩
    · rw [hr]
      exact ⟨Rewritten.refl _, rfl⟩
    · rw [hr]
      exact ⟨Rewritten.refl _, rfl⟩
  | terminateBatchRun => exact ⟨cancelPending_rewritten _ _, rfl⟩
  | retryBatchFailedDevices a =>
    dsimp only [operate]
    rcases retryBatchFailedDevices_cases a w with ⟨-, hr⟩ | ⟨-, -, hr⟩
    · rw [hr]
      exact ⟨Rewritten.refl _, rfl⟩
    · rw [hr]
      exact ⟨retryItem_rewritten _ _ _, rfl⟩
  | refreshBatchRun => exact absurd rfl h
  | executeDecision i actor force_execute =>
    dsimp only [operate]
    rcases executeDecision_cases i actor force_execute w with ⟨_, hr⟩ | ⟨_, -, hr⟩
    · rw [hr]
      exact ⟨Rewritten.refl _, rfl⟩
    · rw [hr]
      exact ⟨Rewritten.refl _, rfl⟩
  | rollbackDecisionExecution i actor =>
    dsimp only [operate]
    rcases rollbackDecisionExecution_cases i actor w with ⟨-, hr⟩ | ⟨-, _, hr⟩
    · rw [hr]
      exact ⟨Rewritten.refl _, rfl⟩
    · rw [hr]
      exact ⟨Rewritten.refl _, rfl⟩
  | decide requiresApproval critical => exact ⟨Rewritten.refl _, rfl⟩
  | wait => exact ⟨Rewritten.refl _, rfl⟩

/-- At the latest refresh the item was looked at, and its task was done. -/
def Succeeded (gateway : Gateway) (lastRefresh : Option ℕ) (item : Item) : Prop :=
  ∃ t, lastRefresh = some t ∧ t ≤ item.lastCheckedAt ∧
    gateway.state item.lastCheckedAt item.taskUuid = some .success

/-- A successful item whose task cannot be looked up still has a successful task. -/
def SeenThrough (gateway : Gateway) : ℕ → List Item → Prop
  | _, [] => True
  | t, item :: items =>
    if strip item.taskUuid = "" then SeenThrough gateway t items
    else (item.status = "success" → gateway.look t (strip item.taskUuid) = none →
      gateway.state t (strip item.taskUuid) = some .success) ∧ SeenThrough gateway (t + 1) items

instance decidableSeenThrough (gateway : Gateway) :
    (t : ℕ) → (items : List Item) → Decidable (SeenThrough gateway t items)
  | _, [] => isTrue trivial
  | t, item :: items =>
    have := decidableSeenThrough gateway t items
    have := decidableSeenThrough gateway (t + 1) items
    inferInstanceAs (Decidable (if strip item.taskUuid = "" then SeenThrough gateway t items
      else (item.status = "success" → gateway.look t (strip item.taskUuid) = none →
        gateway.state t (strip item.taskUuid) = some .success) ∧ SeenThrough gateway (t + 1) items))

theorem look_success {gateway : Gateway} {t : ℕ} {task_uuid : String} {s : OtaTaskState}
    (h : gateway.look t task_uuid = some s) : gateway.state t task_uuid = some s := by
  unfold Gateway.look at h
  split_ifs at h
  exact h

theorem refreshItems_spec {gateway : Gateway} {start t : ℕ} (ht : start ≤ t) {items : List Item}
    (hknown : ∀ item ∈ items, item.status ∈ allStates)
    (htask : ∀ item ∈ items, item.status = "success" →
      strip item.taskUuid = item.taskUuid ∧ item.taskUuid ≠ "")
    (hseen : SeenThrough gateway t items) :
    ∀ item' ∈ refreshItems gateway t items, ∃ item ∈ items,
      item'.deviceId = item.deviceId ∧ item'.batchIndex = item.batchIndex ∧
        item'.status ∈ allStates ∧ (item'.status = "success" →
          (strip item'.taskUuid = item'.taskUuid ∧ item'.taskUuid ≠ "") ∧
            Succeeded gateway (some start) item') := by
  induction items generalizing t with
  | nil => exact fun item' h => absurd h List.not_mem_nil
  | cons item items ih =>
    intro item' hitem'
    unfold refreshItems at hitem'
    unfold SeenThrough at hseen
    have hknown' := fun i hi => hknown i (List.mem_cons_of_mem item hi)
    have htask' := fun i hi => htask i (List.mem_cons_of_mem item hi)
    by_cases hblank : strip item.taskUuid = ""
    · rw [if_pos hblank] at hitem' hseen
      rcases List.mem_cons.mp hitem' with rfl | hitem'
      · refine ⟨item', List.mem_cons_self, rfl, rfl, hknown item' List.mem_cons_self, fun hs => ?_⟩
        obtain ⟨hstrip, hne⟩ := htask item' List.mem_cons_self hs
        exact absurd (hstrip.symm.trans hblank) hne
      · obtain ⟨old, hold, hrest⟩ := ih ht hknown' htask' hseen item' hitem'
        exact ⟨old, List.mem_cons_of_mem _ hold, hrest⟩
    · rw [if_neg hblank] at hitem' hseen
      rcases List.mem_cons.mp hitem' with rfl | hitem'
      · refine ⟨item, List.mem_cons_self, rfl, rfl, ?_, fun hs => ⟨⟨strip_strip _, hblank⟩, start,
          rfl, ht, ?_⟩⟩
        · dsimp only
          cases gateway.look t (strip item.taskUuid) with
          | some s => exact (normalize_stateText s item.status).1
          | none => exact (normalize_self _ (hknown item List.mem_cons_self)).1
        · dsimp only at hs ⊢
          cases hlook : gateway.look t (strip item.taskUuid) with
          | some s =>
            rw [hlook] at hs
            obtain rfl := (normalize_stateText s item.status).2 hs
            exact look_success hlook
          | none =>
            rw [hlook] at hs
            exact hseen.1 ((normalize_self _ (hknown item List.mem_cons_self)).2 hs) hlook
      · obtain ⟨old, hold, hrest⟩ := ih (by omega) hknown' htask' hseen.2 item' hitem'
        exact ⟨old, List.mem_cons_of_mem _ hold, hrest⟩

/-- Each device has its batch, and an item that counts as successful was seen to be. -/
structure Sound (gateway : Gateway) (w : World) : Prop where
  known : ∀ item ∈ w.items, item.status ∈ allStates
  batch : ∀ a ∈ w.items, ∀ b ∈ w.items, a.deviceId = b.deviceId → a.batchIndex = b.batchIndex
  task : ∀ item ∈ w.items, item.status = "success" →
    strip item.taskUuid = item.taskUuid ∧ item.taskUuid ≠ ""
  seen : ∀ item ∈ w.items, item.status = "success" → Succeeded gateway w.lastRefresh item

/-- Every device of every earlier batch than the called one's has succeeded. -/
def Allowed (gateway : Gateway) (w : World) (call : Call) : Prop :=
  ∀ item ∈ w.items, item.deviceId = call.deviceId →
    ∀ earlier ∈ w.items, earlier.batchIndex < item.batchIndex →
      Succeeded gateway w.lastRefresh earlier

/-- Where the gate is passed no earlier item is in a state that the mapping passes on; a retry asks
for no device behind an item that has not succeeded; and no success is kept that is none. -/
def Checked (gateway : Gateway) (w : World) : Op → Prop
  | .startNextBatch _ =>
    ∀ next ∈ nextBatchIndex w.items, validatePreviousBatchesBeforeStart w.items next = "" →
      ∀ earlier ∈ w.items, earlier.batchIndex < next → earlier.status ∈ mappedStates
  | .retryBatchFailedDevices a =>
    a.manifestOk → ∀ x ∈ w.approval.failedDeviceIds.zipIdx, a.guardOk x.2 →
      ∀ item ∈ w.items, item.deviceId = x.1 →
        ∀ earlier ∈ w.items, earlier.batchIndex < item.batchIndex → earlier.status = "success"
  | .refreshBatchRun => SeenThrough gateway w.clock w.items
  | _ => True

instance decidableChecked (gateway : Gateway) (w : World) : (op : Op) → Decidable (Checked gateway w op)
  | .startNextBatch _ => inferInstanceAs (Decidable (∀ next ∈ nextBatchIndex w.items, _ → _))
  | .retryBatchFailedDevices a => inferInstanceAs (Decidable (a.manifestOk = true → _))
  | .refreshBatchRun => decidableSeenThrough gateway w.clock w.items
  | .pauseBatchRun | .terminateBatchRun | .executeDecision _ _ _ | .rollbackDecisionExecution _ _
  | .decide _ _ | .wait => isTrue trivial

theorem Sound.of_rewritten {gateway : Gateway} {w w' : World} (h : Sound gateway w)
    (hitems : Rewritten w.items w'.items) (hrefresh : w'.lastRefresh = w.lastRefresh) :
    Sound gateway w' where
  known item' hitem' := by
    obtain ⟨item, hitem, -, -, rfl | hnew⟩ := hitems item' hitem'
    · exact h.known item' hitem
    · exact hnew.1
  batch a ha b hb hab := by
    obtain ⟨a', ha', had, hai, -⟩ := hitems a ha
    obtain ⟨b', hb', hbd, hbi, -⟩ := hitems b hb
    rw [hai, hbi]
    exact h.batch a' ha' b' hb' (had.symm.trans (hab.trans hbd))
  task item' hitem' hs := by
    obtain ⟨item, hitem, -, -, rfl | hnew⟩ := hitems item' hitem'
    · exact h.task item' hitem hs
    · exact absurd hs hnew.2
  seen item' hitem' hs := by
    obtain ⟨item, hitem, -, -, rfl | hnew⟩ := hitems item' hitem'
    · exact hrefresh ▸ h.seen item' hitem hs
    · exact absurd hs hnew.2

theorem Sound.step {gateway : Gateway} {w : World} {op : Op} (h : Sound gateway w)
    (hchecked : Checked gateway w op) : Sound gateway (operate gateway w op).world := by
  by_cases hop : op = .refreshBatchRun
  · subst hop
    have hspec := refreshItems_spec le_rfl h.known h.task hchecked
    refine ⟨fun item' hitem' => ?_, fun a ha b hb hab => ?_, fun item' hitem' hs => ?_,
      fun item' hitem' hs => ?_⟩
    · obtain ⟨-, -, -, -, hknown, -⟩ := hspec item' hitem'
      exact hknown
    · obtain ⟨a', ha', had, hai, -⟩ := hspec a ha
      obtain ⟨b', hb', hbd, hbi, -⟩ := hspec b hb
      rw [hai, hbi]
      exact h.batch a' ha' b' hb' (had.symm.trans (hab.trans hbd))
    · obtain ⟨-, -, -, -, -, hdone⟩ := hspec item' hitem'
      exact (hdone hs).1
    · obtain ⟨-, -, -, -, -, hdone⟩ := hspec item' hitem'
      exact (hdone hs).2
  · obtain ⟨hitems, hrefresh⟩ := operate_rewritten gateway w hop
    exact h.of_rewritten hitems hrefresh

theorem startItems_calls (w : World) (a : Answers) (next_batch_index i : ℕ) (items : List Item) :
    ∀ call ∈ (startItems w a next_batch_index i items).2.2, ∃ item ∈ items,
      item.batchIndex = next_batch_index ∧ item.pending ∧ call = startCall w item.deviceId := by
  induction items generalizing i with
  | nil => exact fun call h => absurd h List.not_mem_nil
  | cons item items ih =>
    intro call hcall
    unfold startItems at hcall
    by_cases hnext : item.batchIndex = next_batch_index ∧ item.pending
    · rw [if_pos hnext] at hcall
      rcases List.mem_append.mp hcall with hcall | hcall
      · split_ifs at hcall
        · exact ⟨item, List.mem_cons_self, hnext.1, hnext.2, List.mem_singleton.mp hcall⟩
        · exact absurd hcall List.not_mem_nil
      · obtain ⟨old, hold, hrest⟩ := ih (i + 1) call hcall
        exact ⟨old, List.mem_cons_of_mem _ hold, hrest⟩
    · rw [if_neg hnext] at hcall
      obtain ⟨old, hold, hrest⟩ := ih i call hcall
      exact ⟨old, List.mem_cons_of_mem _ hold, hrest⟩

theorem mem_pendingBatchIndexes {items : List Item} {n : ℕ} :
    n ∈ pendingBatchIndexes items ↔ ∃ item ∈ items, item.pending ∧ item.batchIndex = n := by
  unfold pendingBatchIndexes
  rw [List.mem_insertionSort, List.mem_dedup, List.mem_map]
  constructor
  · rintro ⟨item, hitem, hn⟩
    exact ⟨item, (List.mem_filter.mp hitem).1, (List.mem_filter.mp hitem).2, hn⟩
  · rintro ⟨item, hitem, hpending, hn⟩
    exact ⟨item, List.mem_filter.mpr ⟨hitem, hpending⟩, hn⟩

theorem nextBatchIndex_least {items : List Item} {next_batch_index : ℕ}
    (h : nextBatchIndex items = some next_batch_index) :
    ∀ item ∈ items, item.pending → next_batch_index ≤ item.batchIndex := by
  intro item hitem hpending
  have hmem : item.batchIndex ∈ pendingBatchIndexes items :=
    mem_pendingBatchIndexes.mpr ⟨item, hitem, hpending, rfl⟩
  obtain ⟨rest, hrest⟩ := List.head?_eq_some_iff.mp h
  have hsorted : (pendingBatchIndexes items).Pairwise (· ≤ ·) := List.pairwise_insertionSort _ _
  rw [hrest] at hmem hsorted
  rcases List.mem_cons.mp hmem with heq | hmem
  · exact heq.ge
  · exact List.rel_of_pairwise_cons hsorted hmem

theorem validate_passed {items : List Item} {next_batch_index : ℕ}
    (h : validatePreviousBatchesBeforeStart items next_batch_index = "") :
    ∀ item ∈ items, item.batchIndex < next_batch_index →
      item.status ∉ activeStates ∧ item.status ∉ failedStates := by
  intro item hitem hlt
  have hprevious : item ∈ items.filter (·.batchIndex < next_batch_index) :=
    List.mem_filter.mpr ⟨hitem, decide_eq_true hlt⟩
  unfold validatePreviousBatchesBeforeStart at h
  dsimp only at h
  by_cases hactive : ((items.filter (·.batchIndex < next_batch_index)).any
      (·.status ∈ activeStates)) = true
  · rw [if_pos hactive] at h
    exact absurd h (by decide)
  by_cases hfailed : ((items.filter (·.batchIndex < next_batch_index)).any
      (·.status ∈ failedStates)) = true
  · rw [if_neg hactive, if_pos hfailed] at h
    exact absurd h (by decide)
  exact ⟨fun hs => hactive (List.any_eq_true.mpr ⟨item, hprevious, decide_eq_true hs⟩),
    fun hs => hfailed (List.any_eq_true.mpr ⟨item, hprevious, decide_eq_true hs⟩)⟩

/-- What the gate lets through before the next batch is done, or in a state it does not know. -/
theorem earlier_succeeded {items : List Item} {next_batch_index : ℕ}
    (hnext : nextBatchIndex items = some next_batch_index)
    (hpassed : validatePreviousBatchesBeforeStart items next_batch_index = "")
    (hmapped : ∀ item ∈ items, item.batchIndex < next_batch_index → item.status ∈ mappedStates) :
    ∀ item ∈ items, item.batchIndex < next_batch_index → item.status = "success" := by
  intro item hitem hlt
  obtain ⟨hactive, hfailed⟩ := validate_passed hpassed item hitem hlt
  have hpending : item.status ∉ pendingStates := fun h =>
    not_lt.mpr (nextBatchIndex_least hnext item hitem (decide_eq_true h)) hlt
  have hstate := hmapped item hitem hlt
  unfold mappedStates at hstate
  rw [List.mem_append, List.mem_append, List.mem_append] at hstate
  rcases hstate with ((hs | hs) | hs) | hs
  · exact List.mem_singleton.mp hs
  · exact absurd hs hpending
  · exact absurd hs hactive
  · exact absurd hs hfailed

theorem startBatch_allowed {gateway : Gateway} {w : World} {next_batch_index : ℕ} (a : Answers)
    (hsound : Sound gateway w) (hnext : nextBatchIndex w.items = some next_batch_index)
    (hpassed : validatePreviousBatchesBeforeStart w.items next_batch_index = "")
    (hmapped : ∀ item ∈ w.items, item.batchIndex < next_batch_index → item.status ∈ mappedStates) :
    ∀ call ∈ (startBatch a w next_batch_index).calls, Allowed gateway w call := by
  intro call hcall item hitem hdevice earlier hearlier hlt
  obtain ⟨asked, hasked, hindex, -, rfl⟩ := startItems_calls w a next_batch_index 0 w.items call hcall
  have hbatch := hsound.batch item hitem asked hasked hdevice
  exact hsound.seen earlier hearlier
    (earlier_succeeded hnext hpassed hmapped earlier hearlier (by omega))

theorem startNextBatch_allowed {gateway : Gateway} {w : World} {a : Answers}
    (hsound : Sound gateway w) (hchecked : Checked gateway w (.startNextBatch a)) :
    ∀ call ∈ (startNextBatch a w).calls, Allowed gateway w call := by
  rcases startNextBatch_cases a w with hr | ⟨next, -, hnext, hpassed, -, hr⟩
  · rw [hr]
    exact fun call h => absurd h List.not_mem_nil
  · rw [hr]
    exact startBatch_allowed a hsound hnext hpassed (hchecked next hnext hpassed)

theorem retryBatchFailedDevices_allowed {gateway : Gateway} {w : World} {a : Answers}
    (hsound : Sound gateway w) (hchecked : Checked gateway w (.retryBatchFailedDevices a)) :
    ∀ call ∈ (retryBatchFailedDevices a w).calls, Allowed gateway w call := by
  rcases retryBatchFailedDevices_cases a w with ⟨-, hr⟩ | ⟨-, hmanifest, hr⟩
  · rw [hr]
    exact fun call h => absurd h List.not_mem_nil
  · rw [hr]
    intro call hcall item hitem hdevice earlier hearlier hlt
    obtain ⟨x, hx, rfl⟩ := List.mem_map.mp hcall
    obtain ⟨hx, hguard⟩ := List.mem_filter.mp hx
    exact hsound.seen earlier hearlier
      (hchecked hmanifest x hx hguard item hitem hdevice earlier hearlier hlt)

/-- Only a start and a retry ask the gateway for tasks. -/
theorem operate_allowed {gateway : Gateway} {w : World} {op : Op} (hsound : Sound gateway w)
    (hchecked : Checked gateway w op) :
    ∀ call ∈ (operate gateway w op).calls, Allowed gateway w call := by
  have hnone {calls : List Call} (h : calls = []) : ∀ call ∈ calls, Allowed gateway w call := by
    subst h
    exact fun call hcall => absurd hcall List.not_mem_nil
  cases op with
  | startNextBatch a => exact startNextBatch_allowed hsound hchecked
  | retryBatchFailedDevices a => exact retryBatchFailedDevices_allowed hsound hchecked
  | pauseBatchRun =>
    apply hnone
    dsimp only [operate]
    rcases pauseBatchRun_cases w with hr | ⟨-, hr⟩ <;> rw [hr] <;> rfl
  | executeDecision i actor force_execute =>
    apply hnone
    dsimp only [operate]
    rcases executeDecision_cases i actor force_execute w with ⟨_, hr⟩ | ⟨_, -, hr⟩ <;> rw [hr] <;> rfl
  | rollbackDecisionExecution i actor =>
    apply hnone
    dsimp only [operate]
    rcases rollbackDecisionExecution_cases i actor w with ⟨-, hr⟩ | ⟨-, _, hr⟩ <;> rw [hr] <;> rfl
  | terminateBatchRun => exact hnone rfl
  | refreshBatchRun => exact hnone rfl
  | decide requiresApproval critical => exact hnone rfl
  | wait => exact hnone rfl

theorem createBatchRun_items (request : BatchRequest) (decisions : List Decision) (clock : ℕ) :
    ∀ item ∈ (createBatchRun request decisions clock).items, item.pending ∧
      item.batchIndex = (batchIndexOf request.rolloutBatches item.deviceId).getD
        (firstBatchIndex request.rolloutBatches) := by
  intro item hitem
  have hmem := (List.mem_insertionSort _).mp hitem
  obtain ⟨device_id, -, rfl⟩ := List.mem_map.mp hmem
  refine ⟨?_, rfl⟩
  unfold Item.pending
  dsimp only
  split_ifs <;> decide

theorem createBatchRun_sound (gateway : Gateway) (request : BatchRequest)
    (decisions : List Decision) (clock : ℕ) :
    Sound gateway (createBatchRun request decisions clock) := by
  have hitems := createBatchRun_items request decisions clock
  have hpending : ∀ s ∈ pendingStates, s ∈ allStates ∧ s ≠ "success" := by decide
  have hstate : ∀ item ∈ (createBatchRun request decisions clock).items,
      item.status ∈ allStates ∧ item.status ≠ "success" :=
    fun item hitem => hpending _ (of_decide_eq_true (hitems item hitem).1)
  refine ⟨fun item hitem => (hstate item hitem).1, fun a ha b hb hab => ?_,
    fun item hitem hs => absurd hs (hstate item hitem).2,
    fun item hitem hs => absurd hs (hstate item hitem).2⟩
  rw [(hitems a ha).2, (hitems b hb).2, hab]

/-- A new run has nothing before its first batch. -/
theorem createBatchRun_checked (gateway : Gateway) (request : BatchRequest)
    (decisions : List Decision) (clock : ℕ) (a : Answers) :
    Checked gateway (createBatchRun request decisions clock) (.startNextBatch a) := by
  intro next hnext _ earlier hearlier hlt
  have hpending := (createBatchRun_items request decisions clock earlier hearlier).1
  exact absurd hlt (not_lt.mpr (nextBatchIndex_least hnext earlier hearlier hpending))

/-- Along a run whose steps are checked, a batch is asked for only behind successes. -/
theorem batches_in_order {gateway : Gateway} {request : BatchRequest} {decisions : List Decision}
    {clock : ℕ} {manifestOk : Bool} {a : Answers} {r : Outcome} {ops : List Op}
    (hconfirm : workflowOtaBatchRequestConfirm request decisions clock manifestOk a = some r)
    (hchecked : Always (step gateway) (Checked gateway) r.world ops) :
    (∀ call ∈ r.calls, Allowed gateway (createBatchRun request decisions clock) call) ∧
      Always (step gateway)
        (fun w op => ∀ call ∈ (step gateway w op).2.2, Allowed gateway w call) r.world ops := by
  have hsound := createBatchRun_sound gateway request decisions clock
  have hfirst := createBatchRun_checked gateway request decisions clock a
  have hstarted : Sound gateway (startNextBatch a (createBatchRun request decisions clock)).world :=
    hsound.step hfirst
  unfold workflowOtaBatchRequestConfirm at hconfirm
  split_ifs at hconfirm with hmanifest
  have hworld : Sound gateway r.world := by
    obtain rfl := Option.some.inj hconfirm
    exact hstarted.of_rewritten (Rewritten.refl _) rfl
  refine ⟨?_, Always.of_invariant (I := Sound gateway)
    (fun w op hw hc => ⟨hw.step hc, operate_allowed hw hc⟩) hworld hchecked⟩
  obtain rfl := Option.some.inj hconfirm
  exact startNextBatch_allowed hsound hfirst

def twoBatches : BatchRequest where
  firmwareId := "fw"
  transport := "serial"
  target := "127.0.0.1:19090"
  rolloutBatches := [[1], [2]]
  readyDeviceIds := [1, 2]
  blockedDeviceIds := []
  deviceTransportOverrides := []

def granted (task_uuid : String) : Answers := ⟨true, fun _ => true, fun _ => ⟨true, some task_uuid⟩⟩

/-- The confirmed request, with the task of the first device. -/
def twoBatchesConfirmed : Outcome :=
  (workflowOtaBatchRequestConfirm twoBatches [] 0 true (granted "t1")).get rfl

/-- A gateway that is done with the first task when it is asked. -/
def quickGateway : Gateway where
  state _ task_uuid := if task_uuid = "t1" then some .success else none
  answers _ := true

theorem batches_in_order_quick :
    (∀ call ∈ twoBatchesConfirmed.calls, Allowed quickGateway (createBatchRun twoBatches [] 0) call) ∧
      Always (step quickGateway)
        (fun w op => ∀ call ∈ (step quickGateway w op).2.2, Allowed quickGateway w call)
        twoBatchesConfirmed.world [.refreshBatchRun, .startNextBatch (granted "t2")] :=
  batches_in_order (Option.some_get _).symm (by decide +kernel)

/-- Between two instants a task moves as the gateway's state machine lets it. -/
def Gateway.Moves (gateway : Gateway) : Prop :=
  ∀ t task_uuid src dst, gateway.state t task_uuid = some src →
    gateway.state (t + 1) task_uuid = some dst → canTransition src dst

/-- A gateway whose first task waits for its device. -/
def waitingGateway : Gateway where
  state t task_uuid :=
    if task_uuid = "t1" then some (if t = 0 then .created else .waitDeviceOnline) else none
  answers _ := true

theorem waitingGateway_moves : waitingGateway.Moves := by
  intro t task_uuid src dst hsrc hdst
  unfold waitingGateway at hsrc hdst
  dsimp only at hsrc hdst
  by_cases htask : task_uuid = "t1"
  · rw [if_pos htask] at hsrc hdst
    rw [if_neg (Nat.succ_ne_zero t)] at hdst
    obtain rfl := Option.some.inj hsrc
    obtain rfl := Option.some.inj hdst
    split_ifs <;> decide
  · rw [if_neg htask] at hsrc
    cases hsrc

/-- The second batch starts while the first device is waited for. -/
theorem batch_started_early :
    ¬∀ (gateway : Gateway) (request : BatchRequest) (decisions : List Decision) (clock : ℕ)
      (manifestOk : Bool) (a : Answers) (r : Outcome) (ops : List Op), gateway.Moves →
      workflowOtaBatchRequestConfirm request decisions clock manifestOk a = some r →
      (∀ call ∈ r.calls, Allowed gateway (createBatchRun request decisions clock) call) ∧
        Always (step gateway)
          (fun w op => ∀ call ∈ (step gateway w op).2.2, Allowed gateway w call) r.world ops := by
  intro h
  obtain ⟨-, hrun⟩ := h waitingGateway twoBatches [] 0 true (granted "t1") twoBatchesConfirmed
    [.refreshBatchRun, .startNextBatch (granted "t2")] waitingGateway_moves (Option.some_get _).symm
  let w := (step waitingGateway twoBatchesConfirmed.world .refreshBatchRun).1
  have hcall : (⟨2, "fw", "serial", "127.0.0.1:19090"⟩ : Call) ∈
      (step waitingGateway w (.startNextBatch (granted "t2"))).2.2 := by decide +kernel
  have hallowed := hrun.2.1 _ hcall ⟨2, 2, "waiting_batch", "", 0⟩ (by decide +kernel) rfl
    ⟨1, 1, "wait_device_online", "t1", 1⟩ (by decide +kernel) (by decide)
  obtain ⟨t, -, -, hstate⟩ := hallowed
  exact absurd hstate (by decide +kernel)

end EdgeLink.Rollout
