import EdgeLink.RolloutGate

namespace EdgeLink.Rollout

open Machine

def createdStates : List String := ["task_created", "running", "success"]

def Item.failed (item : Item) : Bool := item.status ∈ failedStates

def Item.created (item : Item) : Bool := item.status ∈ createdStates

theorem failed_not_created {item : Item} (h : item.failed) : item.created = false := by
  have hdisjoint : ∀ s ∈ failedStates, s ∉ createdStates := by decide
  exact decide_eq_false (hdisjoint _ (of_decide_eq_true h))

theorem countOf_three {a b c : String} (hab : a ≠ b) (hac : a ≠ c) (hbc : b ≠ c)
    (items : List Item) : countOf items a + countOf items b + countOf items c =
      items.countP (·.status ∈ [a, b, c]) := by
  induction items with
  | nil => rfl
  | cons item items ih =>
    unfold countOf at ih ⊢
    simp only [List.countP_cons, decide_eq_true_eq, List.mem_cons, List.not_mem_nil, or_false]
      at ih ⊢
    by_cases ha : item.status = a
    · have hb : item.status ≠ b := fun hb => hab (ha.symm.trans hb)
      have hc : item.status ≠ c := fun hc => hac (ha.symm.trans hc)
      rw [if_pos ha, if_neg hb, if_neg hc, if_pos (Or.inl ha)]
      omega
    by_cases hb : item.status = b
    · have hc : item.status ≠ c := fun hc => hbc (hb.symm.trans hc)
      rw [if_neg ha, if_pos hb, if_neg hc, if_pos (Or.inr (Or.inl hb))]
      omega
    by_cases hc : item.status = c
    · rw [if_neg ha, if_neg hb, if_pos hc, if_pos (Or.inr (Or.inr hc))]
      omega
    · rw [if_neg ha, if_neg hb, if_neg hc, if_neg (not_or.mpr ⟨ha, not_or.mpr ⟨hb, hc⟩⟩)]
      omega

theorem summary_failedCount (items : List Item) (blocked_device_ids : List ℤ) :
    (summarizeBatchRunItems items blocked_device_ids).failedCount = (failedDevices items).length := by
  unfold failedDevices
  rw [List.length_map, ← List.countP_eq_length_filter]
  exact countOf_three (by decide) (by decide) (by decide) items

theorem summary_createdCount (items : List Item) (blocked_device_ids : List ℤ) :
    createdCountOf (summarizeBatchRunItems items blocked_device_ids) = items.countP Item.created :=
  countOf_three (by decide) (by decide) (by decide) items

/-- The approval tells what the run tells. -/
structure Mirrored (w : World) : Prop where
  status : w.approval.status = w.run.status
  failed : w.approval.failedDeviceIds = failedDevices w.items
  failedCount : w.approval.failedCount =
    (summarizeBatchRunItems w.items w.request.blockedDeviceIds).failedCount
  createdCount : w.approval.createdCount =
    createdCountOf (summarizeBatchRunItems w.items w.request.blockedDeviceIds)

section
variable {a : Answers} {w : World}

/-- The devices that are asked for get one answer each, and no item of such a device tells another
story than that answer and the failure before it. -/
structure Agrees (a : Answers) (w : World) : Prop where
  answers : ∀ x ∈ w.approval.failedDeviceIds.zipIdx, ∀ y ∈ w.approval.failedDeviceIds.zipIdx,
    x.1 = y.1 → (a.submit x.2).ok = (a.submit y.2).ok
  items : ∀ x ∈ w.approval.failedDeviceIds.zipIdx, ∀ item ∈ w.items, item.deviceId = x.1 →
    item.failed ∨ ((a.submit x.2).ok ∧ item.created)

def grantedTo (retry_results : List (ℤ × Created)) (device_id : ℤ) : Bool :=
  ((retry_results.lookup device_id).map Created.ok).getD false

theorem mem_of_lookup {retry_results : List (ℤ × Created)} {device_id : ℤ} {created : Created}
    (h : retry_results.lookup device_id = some created) : (device_id, created) ∈ retry_results := by
  obtain ⟨front, back, rfl, -⟩ := List.lookup_eq_some_iff.mp h
  exact List.mem_append_right _ List.mem_cons_self

theorem mem_retryResults {failed_device_ids : List ℤ} {r : ℤ × Created} :
    r ∈ retryResults a failed_device_ids ↔
      ∃ x ∈ failed_device_ids.zipIdx, r = (x.1, a.submit x.2) := by
  unfold retryResults
  rw [List.mem_map]
  exact exists_congr fun x => and_congr_right fun _ => eq_comm

theorem retryResults_fst (failed_device_ids : List ℤ) :
    (retryResults a failed_device_ids).map Prod.fst = failed_device_ids := by
  unfold retryResults
  rw [List.map_map]
  exact List.zipIdx_map_fst 0 failed_device_ids

theorem lookup_retryResults {failed_device_ids : List ℤ} {device_id : ℤ}
    (h : (retryResults a failed_device_ids).lookup device_id = none) :
    device_id ∉ failed_device_ids := by
  intro hmem
  rw [← retryResults_fst (a := a) failed_device_ids] at hmem
  obtain ⟨r, hr, hdevice⟩ := List.mem_map.mp hmem
  have hne := List.lookup_eq_none_iff.mp h r hr
  rw [hdevice] at hne
  exact absurd hne (by simp)

theorem grantedTo_of_mem (h : Agrees a w) {r : ℤ × Created}
    (hr : r ∈ retryResults a w.approval.failedDeviceIds) :
    grantedTo (retryResults a w.approval.failedDeviceIds) r.1 = r.2.ok := by
  obtain ⟨x, hx, rfl⟩ := mem_retryResults.mp hr
  unfold grantedTo
  cases hlookup : (retryResults a w.approval.failedDeviceIds).lookup x.1 with
  | none => exact absurd (List.fst_mem_of_mem_zipIdx hx) (lookup_retryResults hlookup)
  | some created =>
    obtain ⟨y, hy, heq⟩ := mem_retryResults.mp (mem_of_lookup hlookup)
    obtain ⟨hdevice, rfl⟩ := Prod.mk.inj heq
    exact h.answers y hy x hx hdevice.symm

/-- A retried item failed before, or is counted as created before and after. -/
theorem retryItem_states (h : Agrees a w)
    (hfailed : w.approval.failedDeviceIds = failedDevices w.items) (acted_at : ℕ) {item : Item}
    (hitem : item ∈ w.items) :
    let retry_results := retryResults a w.approval.failedDeviceIds
    (retryItem acted_at retry_results item).failed =
        (item.failed && !grantedTo retry_results item.deviceId) ∧
      (retryItem acted_at retry_results item).created =
        (item.created || (item.failed && grantedTo retry_results item.deviceId)) := by
  intro retry_results
  unfold retryItem grantedTo
  cases hlookup : retry_results.lookup item.deviceId with
  | none =>
    -- a device that is not asked again has not failed
    have hnot : item.failed = false := by
      apply Bool.eq_false_iff.mpr
      intro hf
      have hdevice : item.deviceId ∈ w.approval.failedDeviceIds := by
        rw [hfailed]
        exact List.mem_map_of_mem (List.mem_filter.mpr ⟨hitem, hf⟩)
      exact lookup_retryResults hlookup hdevice
    dsimp only
    rw [hnot, Bool.false_and, Bool.false_and, Bool.or_false]
    exact ⟨rfl, rfl⟩
  | some created =>
    obtain ⟨x, hx, heq⟩ := mem_retryResults.mp (mem_of_lookup hlookup)
    obtain ⟨hdevice, rfl⟩ := Prod.mk.inj heq
    have hstory := h.items x hx item hitem hdevice
    rw [Option.map_some, Option.getD_some]
    dsimp only
    unfold submittedStatus
    cases hok : (a.submit x.2).ok with
    | true =>
      -- the gateway may answer for an earlier item of the same device
      have hcreated : (item.created || item.failed) = true := by
        rcases hstory with hf | ⟨-, hc⟩
        · rw [hf, Bool.or_true]
        · rw [hc, Bool.true_or]
      rw [Bool.not_true, Bool.and_false, Bool.and_true, hcreated]
      exact ⟨rfl, rfl⟩
    | false =>
      have hf : item.failed = true := by
        rcases hstory with hf | ⟨hgranted, -⟩
        · exact hf
        · rw [hok] at hgranted
          cases hgranted
      rw [Bool.not_false, hf, failed_not_created hf, Bool.and_true, Bool.and_false, Bool.or_false]
      exact ⟨rfl, rfl⟩

theorem retryItem_deviceId (acted_at : ℕ) (retry_results : List (ℤ × Created)) (item : Item) :
    (retryItem acted_at retry_results item).deviceId = item.deviceId := by
  unfold retryItem
  cases retry_results.lookup item.deviceId with
  | none => rfl
  | some created => rfl

theorem failedDevices_retried (h : Agrees a w)
    (hfailed : w.approval.failedDeviceIds = failedDevices w.items) (acted_at : ℕ) :
    let retry_results := retryResults a w.approval.failedDeviceIds
    failedDevices (w.items.map (retryItem acted_at retry_results)) =
      (failedDevices w.items).filter (!grantedTo retry_results ·) := by
  intro retry_results
  have hkept : w.items.filter (Item.failed ∘ retryItem acted_at retry_results) =
      (w.items.filter Item.failed).filter (!grantedTo retry_results ·.deviceId) := by
    rw [List.filter_filter]
    apply List.filter_congr
    intro item hitem
    rw [Function.comp_apply, (retryItem_states h hfailed acted_at hitem).1, Bool.and_comm]
  calc failedDevices (w.items.map (retryItem acted_at retry_results))
      = (w.items.filter (Item.failed ∘ retryItem acted_at retry_results)).map
          (Item.deviceId ∘ retryItem acted_at retry_results) := by
        rw [← List.map_map, ← List.filter_map]
        rfl
    _ = ((w.items.filter Item.failed).filter (!grantedTo retry_results ·.deviceId)).map
          Item.deviceId := by
        rw [hkept]
        exact List.map_congr_left fun item _ => retryItem_deviceId acted_at retry_results item
    _ = (failedDevices w.items).filter (!grantedTo retry_results ·) := by
        unfold failedDevices
        rw [List.filter_map]
        rfl

theorem retryFailed_devices (h : Agrees a w) :
    let retry_results := retryResults a w.approval.failedDeviceIds
    (retry_results.filter (!·.2.ok)).map Prod.fst =
      w.approval.failedDeviceIds.filter (!grantedTo retry_results ·) := by
  intro retry_results
  have hsame : retry_results.filter (!·.2.ok) =
      retry_results.filter ((!grantedTo retry_results ·) ∘ Prod.fst) := by
    apply List.filter_congr
    intro r hr
    rw [Function.comp_apply, grantedTo_of_mem h hr]
  rw [hsame, ← List.filter_map, retryResults_fst]

theorem created_retried (h : Agrees a w)
    (hfailed : w.approval.failedDeviceIds = failedDevices w.items) (acted_at : ℕ) :
    let retry_results := retryResults a w.approval.failedDeviceIds
    (w.items.map (retryItem acted_at retry_results)).countP Item.created =
      w.items.countP Item.created + ((failedDevices w.items).filter (grantedTo retry_results)).length := by
  intro retry_results
  have hstates : (w.items.map (retryItem acted_at retry_results)).countP Item.created =
      w.items.countP fun item =>
        item.created || (item.failed && grantedTo retry_results item.deviceId) := by
    rw [List.countP_map]
    apply List.countP_congr
    intro item hitem
    rw [Function.comp_apply, (retryItem_states h hfailed acted_at hitem).2]
  have hgranted : ((failedDevices w.items).filter (grantedTo retry_results)).length =
      w.items.countP fun item => item.failed && grantedTo retry_results item.deviceId := by
    unfold failedDevices
    rw [List.filter_map, List.length_map, List.filter_filter, ← List.countP_eq_length_filter]
    apply List.countP_congr
    intro item _
    rw [Function.comp_apply, Bool.and_comm]
    rfl
  rw [hstates, hgranted]
  generalize w.items = items
  induction items with
  | nil => rfl
  | cons item items ih =>
    rw [List.countP_cons, List.countP_cons, List.countP_cons, ih]
    cases hf : item.failed with
    | true =>
      rw [failed_not_created hf, Bool.false_or, Bool.true_and, if_neg Bool.false_ne_true]
      omega
    | false =>
      rw [Bool.false_and, Bool.or_false, if_neg Bool.false_ne_true]
      omega

theorem retryDevices_mirrored (h : Agrees a w) (hw : Mirrored w) :
    Mirrored (retryDevices a w).world := by
  let retry_results := retryResults a w.approval.failedDeviceIds
  have hdevices : (retry_results.filter (!·.2.ok)).map Prod.fst =
      failedDevices (w.items.map (retryItem w.clock retry_results)) := by
    rw [failedDevices_retried h hw.failed, retryFailed_devices h, hw.failed]
  have hlength : retry_results.length = w.approval.failedDeviceIds.length := by
    rw [← List.length_map Prod.fst, retryResults_fst]
  have hcount : (retry_results.filter (!·.2.ok)).length =
      ((failedDevices w.items).filter (!grantedTo retry_results ·)).length := by
    have hretried := congrArg List.length (retryFailed_devices h)
    rw [List.length_map] at hretried
    exact hretried.trans
      (congrArg (fun l => (l.filter (!grantedTo retry_results ·)).length) hw.failed)
  refine ⟨rfl, hdevices, ?_, ?_⟩
  · rw [summary_failedCount]
    exact (List.length_map Prod.fst).symm.trans (congrArg List.length hdevices)
  · have hold := hw.createdCount
    have hsplit := List.length_eq_length_filter_add (l := failedDevices w.items)
      (grantedTo retry_results)
    have hnew : createdCountOf (summarizeBatchRunItems
        (w.items.map (retryItem w.clock retry_results)) w.request.blockedDeviceIds) =
        w.items.countP Item.created +
          ((failedDevices w.items).filter (grantedTo retry_results)).length := by
      rw [summary_createdCount]
      exact created_retried h hw.failed w.clock
    rw [summary_createdCount] at hold
    rw [hw.failed] at hlength
    show w.approval.createdCount + (retry_results.length -
      (retry_results.filter (!·.2.ok)).length) = createdCountOf (summarizeBatchRunItems
        (w.items.map (retryItem w.clock retry_results)) w.request.blockedDeviceIds)
    rw [hnew, hold, hlength, hcount]
    omega

end

/-- The gate of the next batch is open. -/
def CanStart (a : Answers) (w : World) : Prop :=
  w.run.status ≠ .terminated ∧ a.manifestOk = true ∧
    ∃ next, nextBatchIndex w.items = some next ∧
      validatePreviousBatchesBeforeStart w.items next = ""

/-- No paused run is started, none is rolled back to a state that it is not in, and the answers to
a retry agree. -/
def KeepsMirror (w : World) : Op → Prop
  | .startNextBatch a => ¬(w.run.status = .paused ∧ CanStart a w)
  | .rollbackDecisionExecution i actor => CanRollBack i actor w → w.run.status = .waitingNextBatch
  | .retryBatchFailedDevices a => a.manifestOk = true → Agrees a w
  | _ => True

theorem deriveBatchRunStatus_ne (summary : Summary) : deriveBatchRunStatus summary ≠ .terminated ∧
    deriveBatchRunStatus summary ≠ .paused := by
  unfold deriveBatchRunStatus
  split_ifs
  all_goals exact ⟨RunStatus.noConfusion, RunStatus.noConfusion⟩

theorem compose_running {run : BatchRun} {summary : Summary} (hcontrol : summary.control = ⟨false, false⟩)
    (hterm : run.status ≠ .terminated) (hpaused : run.status ≠ .paused) :
    composeBatchRunStatus run summary = deriveBatchRunStatus summary := by
  unfold composeBatchRunStatus
  rw [hcontrol, if_neg (not_or.mpr ⟨Bool.false_ne_true, hterm⟩),
    if_neg (not_or.mpr ⟨Bool.false_ne_true, hpaused⟩)]

/-- A status that is composed once is composed the same again. -/
theorem compose_compose (run : BatchRun) (summary summary_payload : Summary) :
    composeBatchRunStatus { run with
      status := composeBatchRunStatus run summary, summaryPayload := summary_payload } summary =
      composeBatchRunStatus run summary := by
  by_cases hterm : summary.control.terminated = true ∨ run.status = .terminated
  · have hstatus : composeBatchRunStatus run summary = .terminated := if_pos hterm
    rw [hstatus]
    exact if_pos (Or.inr rfl)
  by_cases hpaused : summary.control.paused = true ∨ run.status = .paused
  · have hstatus : composeBatchRunStatus run summary = .paused :=
      (if_neg hterm).trans (if_pos hpaused)
    have hcontrol := (not_or.mp hterm).1
    rw [hstatus]
    exact (if_neg (not_or.mpr ⟨hcontrol, RunStatus.noConfusion⟩)).trans (if_pos (Or.inr rfl))
  · have hstatus : composeBatchRunStatus run summary = deriveBatchRunStatus summary :=
      (if_neg hterm).trans (if_neg hpaused)
    obtain ⟨hneterm, hnepaused⟩ := deriveBatchRunStatus_ne summary
    rw [hstatus]
    exact (if_neg (not_or.mpr ⟨(not_or.mp hterm).1, hneterm⟩)).trans
      (if_neg (not_or.mpr ⟨(not_or.mp hpaused).1, hnepaused⟩))

/-- What was written from a summary of the items mirrors the run. -/
theorem Mirrored.of_sync {w : World} {run : BatchRun} {summary : Summary} {blocked : List ℤ}
    {control : Control}
    (hsummary : summary = { summarizeBatchRunItems w.items blocked with control := control })
    (hsync : w.approval = syncApprovalFromBatchRun run summary)
    (hstatus : w.run.status = composeBatchRunStatus run summary) : Mirrored w := by
  subst hsummary
  refine ⟨?_, ?_, ?_, ?_⟩
  all_goals rw [hsync]
  · exact hstatus.symm
  · rfl
  · rfl
  · rfl

theorem startBatch_mirrored {a : Answers} {w : World} (next_batch_index : ℕ)
    (hterm : w.run.status ≠ .terminated) (hpaused : w.run.status ≠ .paused) :
    Mirrored (startBatch a w next_batch_index).world :=
  Mirrored.of_sync rfl rfl (compose_running rfl hterm hpaused).symm

theorem markPaused_mirrored {w : World} (hterm : w.run.status ≠ .terminated) :
    Mirrored (markPaused w).world := by
  refine Mirrored.of_sync rfl rfl ?_
  exact ((if_neg (not_or.mpr ⟨Bool.false_ne_true, hterm⟩)).trans (if_pos (Or.inl rfl))).symm

theorem terminateBatchRun_mirrored (w : World) : Mirrored (terminateBatchRun w).world :=
  Mirrored.of_sync rfl rfl (if_pos (Or.inl rfl)).symm

theorem refreshBatchRun_mirrored (gateway : Gateway) (w : World) :
    Mirrored (refreshBatchRun gateway w).world :=
  Mirrored.of_sync rfl rfl (compose_compose w.run _ _).symm

theorem Mirrored.step {gateway : Gateway} {w : World} {op : Op} (hw : Mirrored w)
    (hop : KeepsMirror w op) : Mirrored (operate gateway w op).world := by
  have hsame {decisions : List Decision} {clock : ℕ} :
      Mirrored { w with decisions := decisions, clock := clock } :=
    ⟨hw.status, hw.failed, hw.failedCount, hw.createdCount⟩
  cases op with
  | startNextBatch a =>
    dsimp only [operate]
    rcases startNextBatch_cases a w with hr | ⟨next, hterm, hnext, hpassed, hmanifest, hr⟩
    · rw [hr]
      exact hw
    · rw [hr]
      exact startBatch_mirrored next hterm fun hpaused =>
        hop ⟨hpaused, hterm, hmanifest, next, hnext, hpassed⟩
  | pauseBatchRun =>
    dsimp only [operate]
    rcases pauseBatchRun_cases w with hr | ⟨hterm, hr⟩
    · rw [hr]
      exact hw
    · rw [hr]
      exact markPaused_mirrored hterm
  | terminateBatchRun => exact terminateBatchRun_mirrored w
  | retryBatchFailedDevices a =>
    dsimp only [operate]
    rcases retryBatchFailedDevices_cases a w with ⟨-, hr⟩ | ⟨-, hmanifest, hr⟩
    · rw [hr]
      exact hw
    · rw [hr]
      exact retryDevices_mirrored (hop hmanifest) hw
  | refreshBatchRun => exact refreshBatchRun_mirrored gateway w
  | executeDecision i actor force_execute =>
    dsimp only [operate]
    rcases executeDecision_cases i actor force_execute w with ⟨_, hr⟩ | ⟨_, hterm, hr⟩
    · rw [hr]
      exact hsame
    · rw [hr]
      have hpaused := markPaused_mirrored hterm
      exact ⟨hpaused.status, hpaused.failed, hpaused.failedCount, hpaused.createdCount⟩
  | rollbackDecisionExecution i actor =>
    dsimp only [operate]
    rcases rollbackDecisionExecution_cases i actor w with ⟨-, hr⟩ | ⟨hcan, _, hr⟩
    · rw [hr]
      exact hw
    · rw [hr]
      exact ⟨hw.status.trans (hop hcan), hw.failed, hw.failedCount, hw.createdCount⟩
  | decide requiresApproval critical => exact hsame
  | wait => exact hsame

theorem pending_nothing_done {items : List Item} (h : ∀ item ∈ items, item.pending) :
    failedDevices items = [] ∧ items.countP Item.created = 0 := by
  have hdisjoint : ∀ s ∈ pendingStates, s ∉ failedStates ∧ s ∉ createdStates := by decide
  constructor
  · unfold failedDevices
    rw [List.map_eq_nil_iff, List.filter_eq_nil_iff]
    intro item hitem
    rw [decide_eq_true_eq]
    exact (hdisjoint _ (of_decide_eq_true (h item hitem))).1
  · rw [List.countP_eq_zero]
    intro item hitem
    unfold Item.created
    rw [decide_eq_true_eq]
    exact (hdisjoint _ (of_decide_eq_true (h item hitem))).2

theorem confirmed_mirrored {request : BatchRequest} {decisions : List Decision} {clock : ℕ}
    {manifestOk : Bool} {a : Answers} {r : Outcome}
    (h : workflowOtaBatchRequestConfirm request decisions clock manifestOk a = some r) :
    Mirrored r.world := by
  unfold workflowOtaBatchRequestConfirm at h
  split_ifs at h with hmanifest
  obtain rfl := Option.some.inj h
  rcases startNextBatch_cases a (createBatchRun request decisions clock) with
    hr | ⟨next, -, -, -, -, hr⟩
  · -- nothing was started: the summary is still the one of the creation
    have hitems := createBatchRun_items request decisions clock
    obtain ⟨hfailed, hcreated⟩ := pending_nothing_done fun item hitem => (hitems item hitem).1
    obtain ⟨hfailed', hcreated'⟩ := pending_nothing_done fun item hitem =>
      (hitems item ((List.mem_insertionSort _).mpr hitem)).1
    have hsame := hfailed'.trans hfailed.symm
    rw [hr]
    refine ⟨rfl, hsame, ?_, ?_⟩
    · rw [summary_failedCount]
      exact (summary_failedCount _ request.blockedDeviceIds).trans (congrArg List.length hsame)
    · rw [summary_createdCount]
      exact (summary_createdCount _ request.blockedDeviceIds).trans (hcreated'.trans hcreated.symm)
  · rw [hr]
    exact ⟨rfl, rfl, rfl, rfl⟩

/-- Along a run whose steps keep the mirror the approval tells what the run tells. -/
theorem approval_mirrors_run {gateway : Gateway} {request : BatchRequest}
    {decisions : List Decision} {clock : ℕ} {manifestOk : Bool} {a : Answers} {r : Outcome}
    {ops : List Op}
    (hconfirm : workflowOtaBatchRequestConfirm request decisions clock manifestOk a = some r)
    (hkeeps : Always (step gateway) KeepsMirror r.world ops) :
    Mirrored r.world ∧
      Always (step gateway) (fun w op => Mirrored (step gateway w op).1) r.world ops := by
  refine ⟨confirmed_mirrored hconfirm, Always.of_invariant (I := Mirrored) ?_
    (confirmed_mirrored hconfirm) hkeeps⟩
  intro w op hw hop
  exact ⟨hw.step hop, hw.step hop⟩

theorem approval_mirrors_retry :
    Mirrored twoBatchesConfirmed.world ∧
      Always (step quickGateway) (fun w op => Mirrored (step quickGateway w op).1)
        twoBatchesConfirmed.world
        [.refreshBatchRun, .pauseBatchRun, .terminateBatchRun,
          .retryBatchFailedDevices (granted "t2")] :=
  approval_mirrors_run (Option.some_get _).symm
    ⟨trivial, trivial, trivial, fun _ => ⟨by decide +kernel, by decide +kernel⟩, trivial⟩

theorem quickGateway_moves : quickGateway.Moves := by
  intro t task_uuid src dst hsrc hdst
  have hsame : some dst = some src := hdst.symm.trans hsrc
  obtain rfl := Option.some.inj hsame
  exact if_pos rfl

/-- The start of a paused run leaves its approval paused. -/
theorem approval_left_paused :
    ¬∀ (gateway : Gateway) (request : BatchRequest) (decisions : List Decision) (clock : ℕ)
      (manifestOk : Bool) (a : Answers) (r : Outcome) (ops : List Op), gateway.Moves →
      workflowOtaBatchRequestConfirm request decisions clock manifestOk a = some r →
      Always (step gateway) (fun w op => (step gateway w op).2.1 = true) r.world ops →
      Mirrored (run (step gateway) r.world ops) := by
  intro h
  have hmirror := h quickGateway twoBatches [] 0 true (granted "t1") twoBatchesConfirmed
    [.refreshBatchRun, .pauseBatchRun, .startNextBatch (granted "t2")] quickGateway_moves
    (Option.some_get _).symm (by decide +kernel)
  exact absurd hmirror.status (by decide +kernel)

end EdgeLink.Rollout
