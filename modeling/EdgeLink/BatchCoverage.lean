import EdgeLink.BatchPlan
import EdgeLink.RolloutGate

namespace EdgeLink.Rollout

open Ota (OtaTaskState stateText)
open Machine

theorem batchIndexOf_passed {after : List (List ℤ)} {d : ℤ} (h : ∀ batch ∈ after, d ∉ batch)
    (n : ℕ) (found : Option ℕ) :
    (after.zipIdx n).foldl (fun found x => if d ∈ x.1 then some x.2 else found) found = found := by
  induction after generalizing n with
  | nil => rfl
  | cons batch after ih =>
    rw [List.zipIdx_cons, List.foldl_cons]
    dsimp only
    rw [if_neg (h batch List.mem_cons_self)]
    exact ih (fun later hlater => h later (List.mem_cons_of_mem _ hlater)) (n + 1)

/-- The last batch that lists a device is the one that counts. -/
theorem batchIndexOf_last {before after : List (List ℤ)} {batch : List ℤ} {d : ℤ} (hd : d ∈ batch)
    (hafter : ∀ later ∈ after, d ∉ later) :
    batchIndexOf (before ++ batch :: after) d = some (before.length + 1) := by
  unfold batchIndexOf
  rw [List.zipIdx_append, List.foldl_append, List.zipIdx_cons, List.foldl_cons]
  dsimp only
  rw [if_pos hd, batchIndexOf_passed hafter, Nat.add_comm]

/-- A device that is listed once is listed by the batch that its item is put in. -/
theorem batchIndexOf_once {batches : List (List ℤ)} {d : ℤ} (h : batches.flatten.count d = 1) :
    ∃ k batch, batches[k]? = some batch ∧ d ∈ batch ∧ batchIndexOf batches d = some (k + 1) := by
  have hmem : d ∈ batches.flatten := List.count_pos_iff.mp (by omega)
  obtain ⟨batch, hbatch, hd⟩ := List.mem_flatten.mp hmem
  obtain ⟨before, after, rfl⟩ := List.append_of_mem hbatch
  have hpos : 0 < batch.count d := List.count_pos_iff.mpr hd
  rw [List.flatten_append, List.flatten_cons, List.count_append, List.count_append] at h
  have hafter : ∀ later ∈ after, d ∉ later := by
    intro later hlater hin
    have hlisted : 0 < after.flatten.count d :=
      List.count_pos_iff.mpr (List.mem_flatten.mpr ⟨later, hlater, hin⟩)
    omega
  refine ⟨before.length, batch, ?_, hd, batchIndexOf_last hd hafter⟩
  rw [List.getElem?_append_right le_rfl, Nat.sub_self, List.getElem?_cons_zero]

theorem createBatchRun_perm (request : BatchRequest) (decisions : List Decision) (clock : ℕ) :
    (createBatchRun request decisions clock).items.Perm (batchItems request) :=
  List.perm_insertionSort _ _

/-- A run has as many items of a device as the request lists it ready. -/
theorem createBatchRun_count (request : BatchRequest) (decisions : List Decision) (clock : ℕ)
    (d : ℤ) :
    (createBatchRun request decisions clock).items.countP (·.deviceId = d) =
      request.readyDeviceIds.count d := by
  rw [(createBatchRun_perm request decisions clock).countP_eq]
  unfold batchItems
  rw [List.countP_map, List.count_eq_countP]
  apply List.countP_congr
  intro id _
  dsimp only [Function.comp]
  rw [decide_eq_true_eq, beq_iff_eq]

/-- The items of a device that are still to be started. -/
def pendingOf (d : ℤ) (items : List Item) : ℕ :=
  items.countP fun item => item.deviceId = d ∧ item.pending

theorem pendingOf_cons (d : ℤ) (item : Item) (items : List Item) :
    pendingOf d (item :: items) =
      pendingOf d items + if item.deviceId = d ∧ item.pending then 1 else 0 := by
  unfold pendingOf
  rw [List.countP_cons]
  simp only [decide_eq_true_eq]

theorem pendingOf_le (d : ℤ) (items : List Item) :
    pendingOf d items ≤ items.countP (·.deviceId = d) := by
  apply List.countP_mono_left
  intro item _ h
  exact decide_eq_true (of_decide_eq_true h).1

/-- Items that are as they were, or that are no longer pending. -/
def Settles (items items' : List Item) : Prop :=
  List.Forall₂ (fun old new => new.deviceId = old.deviceId ∧ (new.pending → old.pending)) items items'

theorem Settles.refl (items : List Item) : Settles items items :=
  List.forall₂_same.mpr fun _ _ => ⟨rfl, id⟩

theorem Settles.of_map {items : List Item} {f : Item → Item}
    (h : ∀ item, (f item).deviceId = item.deviceId ∧ ((f item).pending → item.pending)) :
    Settles items (items.map f) :=
  List.forall₂_map_right_iff.mpr (List.forall₂_same.mpr fun item _ => h item)

theorem Settles.pendingOf_le {items items' : List Item} (h : Settles items items') (d : ℤ) :
    pendingOf d items' ≤ pendingOf d items := by
  induction h with
  | nil => exact le_rfl
  | cons hitem _ ih =>
    rw [pendingOf_cons, pendingOf_cons, hitem.1]
    apply Nat.add_le_add ih
    split_ifs with hnew hold hold
    · exact le_rfl
    · exact absurd ⟨hnew.1, hitem.2 hnew.2⟩ hold
    · exact Nat.zero_le 1
    · exact le_rfl

theorem submittedStatus_settled (created : Created) : submittedStatus created ∉ pendingStates := by
  unfold submittedStatus
  cases created.ok <;> decide

/-- A device is asked for out of its pending items, and each is pending no longer. -/
theorem startItems_spent (w : World) (a : Answers) (next_batch_index i : ℕ) (items : List Item)
    (d : ℤ) :
    (startItems w a next_batch_index i items).2.2.countP (·.deviceId = d) +
      pendingOf d (startItems w a next_batch_index i items).1 ≤ pendingOf d items := by
  induction items generalizing i with
  | nil => exact le_rfl
  | cons item items ih =>
    unfold startItems
    by_cases hnext : item.batchIndex = next_batch_index ∧ item.pending
    · rw [if_pos hnext]
      dsimp only
      have hsettled : ¬(item.deviceId = d ∧ Item.pending { item with
          status := submittedStatus (a.submit i), taskUuid := (a.submit i).taskUuid.getD "",
          lastCheckedAt := w.clock }) :=
        fun h => submittedStatus_settled _ (of_decide_eq_true h.2)
      have hcall : (if a.guardOk i then [startCall w item.deviceId] else []).countP
          (·.deviceId = d) ≤ if item.deviceId = d ∧ item.pending then 1 else 0 := by
        by_cases hd : item.deviceId = d
        · have hone : (if a.guardOk i then [startCall w item.deviceId] else []).length ≤ 1 := by
            split_ifs
            · exact le_rfl
            · exact Nat.zero_le 1
          rw [if_pos (And.intro hd hnext.2)]
          exact List.countP_le_length.trans hone
        · rw [List.countP_eq_zero.mpr]
          · exact Nat.zero_le _
          · intro call hcall h
            split_ifs at hcall
            · rw [List.mem_singleton.mp hcall] at h
              exact hd (of_decide_eq_true h)
            · exact absurd hcall List.not_mem_nil
      have hrest := ih (i + 1)
      rw [List.countP_append, pendingOf_cons, pendingOf_cons, if_neg hsettled]
      omega
    · rw [if_neg hnext]
      dsimp only
      have hrest := ih i
      rw [pendingOf_cons, pendingOf_cons]
      omega

theorem cancelPending_settles (acted_at : ℕ) (items : List Item) :
    Settles items (items.map (cancelPending acted_at)) := by
  apply Settles.of_map
  intro item
  unfold cancelPending
  split_ifs with hpending
  · exact ⟨rfl, fun _ => hpending⟩
  · exact ⟨rfl, id⟩

theorem retryItem_settles (acted_at : ℕ) (retry_results : List (ℤ × Created)) (items : List Item) :
    Settles items (items.map (retryItem acted_at retry_results)) := by
  apply Settles.of_map
  intro item
  unfold retryItem
  cases retry_results.lookup item.deviceId with
  | none => exact ⟨rfl, id⟩
  | some created =>
    exact ⟨rfl, fun h => absurd (of_decide_eq_true h) (submittedStatus_settled created)⟩

/-- No state of a task is taken for one of an item that waits. -/
theorem normalize_stateText_settled (s : OtaTaskState) (fallback : String) :
    normalizeBatchItemStatus (stateText s) fallback ∉ pendingStates := by
  have hname : lower (strip (stateText s)) ≠ "" := by cases s <;> decide +kernel
  rw [normalize_fallback hname]
  cases s <;> decide +kernel

theorem normalize_self_settled : ∀ s ∈ allStates, s ∉ pendingStates →
    normalizeBatchItemStatus s s ∉ pendingStates := by
  decide +kernel

theorem refreshed_status (seen : Option OtaTaskState) {item : Item} (h : item.status ∈ allStates) :
    normalizeBatchItemStatus (rawState seen item) item.status ∈ allStates ∧
      (normalizeBatchItemStatus (rawState seen item) item.status ∈ pendingStates →
        item.status ∈ pendingStates) := by
  cases seen with
  | some s =>
    exact ⟨(normalize_stateText s item.status).1,
      fun hnew => absurd hnew (normalize_stateText_settled s item.status)⟩
  | none =>
    refine ⟨(normalize_self item.status h).1, fun hnew => ?_⟩
    by_contra hold
    exact normalize_self_settled item.status h hold hnew

theorem pending_iff (item : Item) : item.pending = true ↔ item.status ∈ pendingStates :=
  decide_eq_true_iff

theorem refreshItems_settles (gateway : Gateway) (t : ℕ) {items : List Item}
    (hknown : ∀ item ∈ items, item.status ∈ allStates) :
    Settles items (refreshItems gateway t items) ∧
      ∀ item ∈ refreshItems gateway t items, item.status ∈ allStates := by
  induction items generalizing t with
  | nil => exact ⟨List.Forall₂.nil, fun _ h => absurd h List.not_mem_nil⟩
  | cons item items ih =>
    have hitem := hknown item List.mem_cons_self
    have hitems := fun i hi => hknown i (List.mem_cons_of_mem item hi)
    unfold refreshItems
    dsimp only
    split_ifs with hblank
    · obtain ⟨hsettles, hrest⟩ := ih t hitems
      exact ⟨List.Forall₂.cons ⟨rfl, id⟩ hsettles, List.forall_mem_cons.mpr ⟨hitem, hrest⟩⟩
    · obtain ⟨hsettles, hrest⟩ := ih (t + 1) hitems
      have hstatus := refreshed_status (gateway.look t (strip item.taskUuid)) hitem
      rw [List.forall_mem_cons]
      refine ⟨List.Forall₂.cons ⟨rfl, ?_⟩ hsettles, ?_, hrest⟩
      · rw [pending_iff, pending_iff]
        dsimp only
        exact hstatus.2
      · dsimp only
        exact hstatus.1

def noteStarts (_ : World) (notes : List Call) (op : Op) (answer : Bool × List Call) : List Call :=
  match op with
  | .startNextBatch _ => notes ++ answer.2
  | _ => notes

/-- The items are in states that are known, and what was asked for was pending before. -/
structure Spent (d : ℤ) (listed : ℕ) (w : World × List Call) : Prop where
  known : ∀ item ∈ w.1.items, item.status ∈ allStates
  spent : w.2.countP (·.deviceId = d) + pendingOf d w.1.items ≤ listed

theorem startNextBatch_spent (a : Answers) (w : World) (d : ℤ) :
    (startNextBatch a w).calls.countP (·.deviceId = d) + pendingOf d (startNextBatch a w).world.items ≤
      pendingOf d w.items := by
  rcases startNextBatch_cases a w with hr | ⟨next, -, -, -, -, hr⟩
  · rw [hr]
    exact (Nat.zero_add _).le
  · rw [hr]
    exact startItems_spent w a next 0 w.items d

/-- No operation makes an item wait again; a start is the only one that is noted. -/
theorem operate_settles (gateway : Gateway) (w : World) (op : Op)
    (hknown : ∀ item ∈ w.items, item.status ∈ allStates)
    (hop : ∀ a, op ≠ .startNextBatch a) : Settles w.items (operate gateway w op).world.items := by
  cases op with
  | startNextBatch a => exact absurd rfl (hop a)
  | pauseBatchRun =>
    dsimp only [operate]
    rcases pauseBatchRun_cases w with hr | ⟨-, hr⟩
    · rw [hr]
      exact Settles.refl _
    · rw [hr]
      exact Settles.refl _
  | terminateBatchRun => exact cancelPending_settles _ _
  | retryBatchFailedDevices a =>
    dsimp only [operate]
    rcases retryBatchFailedDevices_cases a w with ⟨-, hr⟩ | ⟨-, -, hr⟩
    · rw [hr]
      exact Settles.refl _
    · rw [hr]
      exact retryItem_settles _ _ _
  | refreshBatchRun => exact (refreshItems_settles gateway w.clock hknown).1
  | executeDecision i actor force_execute =>
    dsimp only [operate]
    rcases executeDecision_cases i actor force_execute w with ⟨_, hr⟩ | ⟨_, -, hr⟩
    · rw [hr]
      exact Settles.refl _
    · rw [hr]
      exact Settles.refl _
  | rollbackDecisionExecution i actor =>
    dsimp only [operate]
    rcases rollbackDecisionExecution_cases i actor w with ⟨-, hr⟩ | ⟨-, _, hr⟩
    · rw [hr]
      exact Settles.refl _
    · rw [hr]
      exact Settles.refl _
  | decide requiresApproval critical => exact Settles.refl _
  | wait => exact Settles.refl _

theorem operate_known (gateway : Gateway) (w : World) (op : Op)
    (hknown : ∀ item ∈ w.items, item.status ∈ allStates) :
    ∀ item ∈ (operate gateway w op).world.items, item.status ∈ allStates := by
  by_cases hop : op = .refreshBatchRun
  · subst hop
    exact (refreshItems_settles gateway w.clock hknown).2
  · intro item' hitem'
    obtain ⟨item, hitem, -, -, rfl | hnew⟩ := (operate_rewritten gateway w hop).1 item' hitem'
    · exact hknown item' hitem
    · exact hnew.1

theorem Spent.step {gateway : Gateway} {d : ℤ} {listed : ℕ} {w : World × List Call} (op : Op)
    (h : Spent d listed w) : Spent d listed (watched (step gateway) noteStarts w op).1 := by
  refine ⟨operate_known gateway w.1 op h.known, ?_⟩
  have hspent := h.spent
  by_cases hop : ∃ a, op = .startNextBatch a
  · obtain ⟨a, rfl⟩ := hop
    have hstart := startNextBatch_spent a w.1 d
    change (w.2 ++ (startNextBatch a w.1).calls).countP _ +
      pendingOf d (startNextBatch a w.1).world.items ≤ listed
    rw [List.countP_append]
    omega
  · have hother : ∀ a, op ≠ .startNextBatch a := fun a ha => hop ⟨a, ha⟩
    have hnotes : noteStarts w.1 w.2 op (Rollout.step gateway w.1 op).2 = w.2 := by
      cases op <;> first | rfl | exact absurd rfl (hother _)
    have hsettles := (operate_settles gateway w.1 op h.known hother).pendingOf_le d
    change (noteStarts w.1 w.2 op (Rollout.step gateway w.1 op).2).countP _ +
      pendingOf d (operate gateway w.1 op).world.items ≤ listed
    rw [hnotes]
    omega

/-- The batches are small, and they list every positive id. -/
structure Batched (device_ids : List ℤ) (size : ℤ) (plan : BatchPlan) : Prop where
  small : ∀ batch ∈ plan.rolloutBatches, (batch.length : ℤ) ≤ size
  listed : ∀ d ∈ device_ids, 0 < d → ∃ batch ∈ plan.rolloutBatches, d ∈ batch

/-- A ready device has one item, in a batch in which the plan lists it; a blocked one has none. -/
structure Placed (plan : BatchPlan) (items : List Item) (d : ℤ) : Prop where
  ready : d ∈ plan.readyDeviceIds → items.countP (·.deviceId = d) = 1
  listed : ∀ item ∈ items, item.deviceId = d →
    ∃ k batch, plan.rolloutBatches[k]? = some batch ∧ d ∈ batch ∧ item.batchIndex = k + 1
  blocked : d ∈ plan.blockedDeviceIds → ∀ item ∈ items, item.deviceId ≠ d

/-- The calls that starts have made in a run from its confirmation on. -/
def startsOf (gateway : Gateway) (r : Outcome) (ops : List Op) : List Call :=
  (Machine.run (watched (step gateway) noteStarts) (r.world, r.calls) ops).2

/-- Whatever run is made of the plan, it has `P` of its first items and its calls. -/
def AfterConfirm (gateway : Gateway) (plan : BatchPlan) (P : List Item → List Call → Prop) : Prop :=
  ∀ (decisions : List Decision) (clock : ℕ) (manifestOk : Bool) (a : Answers) (r : Outcome),
    workflowOtaBatchRequestConfirm (workflowOtaBatchRequestCreate plan) decisions clock manifestOk a =
      some r →
    ∀ ops, P (createBatchRun (workflowOtaBatchRequestCreate plan) decisions clock).items
      (startsOf gateway r ops)

/-- The run covers a device exactly once. -/
def Covered (gateway : Gateway) (plan : BatchPlan) (d : ℤ) : Prop :=
  AfterConfirm gateway plan fun items calls =>
    Placed plan items d ∧ calls.countP (·.deviceId = d) ≤ 1

/-- In any run a device is asked for at most once for each of its items. -/
theorem starts_le_items {gateway : Gateway} {request : BatchRequest} {decisions : List Decision}
    {clock : ℕ} {manifestOk : Bool} {a : Answers} {r : Outcome}
    (hconfirm : workflowOtaBatchRequestConfirm request decisions clock manifestOk a = some r)
    (ops : List Op) (d : ℤ) :
    (startsOf gateway r ops).countP (·.deviceId = d) ≤
      (createBatchRun request decisions clock).items.countP (·.deviceId = d) := by
  have hknown := (createBatchRun_sound gateway request decisions clock).known
  have hfirst : Spent d ((createBatchRun request decisions clock).items.countP (·.deviceId = d))
      (r.world, r.calls) := by
    unfold workflowOtaBatchRequestConfirm at hconfirm
    split_ifs at hconfirm with hmanifest
    obtain rfl := Option.some.inj hconfirm
    refine ⟨operate_known gateway _ (.startNextBatch a) hknown, ?_⟩
    exact (startNextBatch_spent a _ d).trans (pendingOf_le d _)
  have hrun : Spent d _ (Machine.run (watched (step gateway) noteStarts) (r.world, r.calls) ops) :=
    run_invariant (I := Spent d _) (C := fun _ _ => True) (fun w op h _ => h.step op) hfirst
      (Always.of_forall _ (fun _ _ _ => trivial) _)
  exact (Nat.le_add_right _ _).trans hrun.spent

section
variable (device_ids : List ℤ) (firmware_id transport target : String) (batch_size : ℤ)
  (inquiry : ℕ → Inquiry)

/-- A device that is listed once is placed once. -/
theorem createBatchRun_placed (decisions : List Decision) (clock : ℕ) {d : ℤ}
    (honce : (positiveIds device_ids).count d ≤ 1) :
    let plan := workflowOtaBatchPlan device_ids firmware_id transport target batch_size inquiry
    Placed plan (createBatchRun (workflowOtaBatchRequestCreate plan) decisions clock).items d := by
  intro plan
  have hsplit : plan.readyDeviceIds.count d + plan.blockedDeviceIds.count d =
      (positiveIds device_ids).count d :=
    plan_split device_ids firmware_id transport target batch_size inquiry d
  have hflatten : plan.rolloutBatches.flatten = positiveIds device_ids :=
    plan_flatten device_ids firmware_id transport target batch_size inquiry
  have hcount : (createBatchRun (workflowOtaBatchRequestCreate plan) decisions clock).items.countP
      (·.deviceId = d) = plan.readyDeviceIds.count d :=
    createBatchRun_count (workflowOtaBatchRequestCreate plan) decisions clock d
  have hcounted : ∀ item ∈ (createBatchRun (workflowOtaBatchRequestCreate plan) decisions clock).items,
      item.deviceId = d → 0 < plan.readyDeviceIds.count d := by
    intro item hitem hd
    rw [← hcount]
    exact List.countP_pos_iff.mpr ⟨item, hitem, decide_eq_true hd⟩
  refine ⟨fun hready => ?_, fun item hitem hd => ?_, fun hblocked item hitem hd => ?_⟩
  · have hpos : 0 < plan.readyDeviceIds.count d := List.count_pos_iff.mpr hready
    omega
  · -- the device is ready, so it is the one that is listed once
    have hpos := hcounted item hitem hd
    have hlisted : plan.rolloutBatches.flatten.count d = 1 := by
      rw [hflatten]
      omega
    obtain ⟨k, batch, hbatch, hmem, hindex⟩ := batchIndexOf_once hlisted
    refine ⟨k, batch, hbatch, hmem, ?_⟩
    have hput := (createBatchRun_items (workflowOtaBatchRequestCreate plan) decisions clock item
      hitem).2
    rw [hd] at hput
    exact hput.trans (congrArg (Option.getD · _) hindex)
  · have hpos := hcounted item hitem hd
    have hblock : 0 < plan.blockedDeviceIds.count d := List.count_pos_iff.mpr hblocked
    omega

/-- The batches of a plan hold every positive id; the run has items of ready devices alone and asks
at most once for each of them; and a device that is listed once is covered exactly once. -/
theorem plan_covers_once (gateway : Gateway) :
    let plan := workflowOtaBatchPlan device_ids firmware_id transport target batch_size inquiry
    Batched device_ids (max 1 batch_size) plan ∧
      AfterConfirm gateway plan (fun items calls =>
        (∀ item ∈ items, item.deviceId ∈ plan.readyDeviceIds) ∧
          ∀ d, calls.countP (·.deviceId = d) ≤ items.countP (·.deviceId = d)) ∧
      ∀ d, (positiveIds device_ids).count d ≤ 1 → Covered gateway plan d := by
  intro plan
  refine ⟨⟨?_, ?_⟩, ?_, ?_⟩
  · exact plan_small device_ids firmware_id transport target batch_size inquiry
  · exact plan_listed device_ids firmware_id transport target batch_size inquiry
  · intro decisions clock manifestOk a r hconfirm ops
    refine ⟨fun item hitem => ?_, fun d => starts_le_items hconfirm ops d⟩
    rw [← List.count_pos_iff]
    exact (List.countP_pos_iff.mpr ⟨item, hitem, decide_eq_true rfl⟩).trans_eq
      (createBatchRun_count (workflowOtaBatchRequestCreate plan) decisions clock item.deviceId)
  · intro d honce decisions clock manifestOk a r hconfirm ops
    refine ⟨createBatchRun_placed device_ids firmware_id transport target batch_size inquiry decisions
      clock honce, (starts_le_items hconfirm ops d).trans ?_⟩
    have hsplit := plan_split device_ids firmware_id transport target batch_size inquiry d
    rw [createBatchRun_count]
    exact (Nat.le_add_right _ _).trans (hsplit.le.trans honce)

end

/-- A device that is free for its update. -/
def freeDevice : Inquiry :=
  ⟨⟨"low", true, [], true⟩, ⟨true, "tcp_binary", "", ""⟩, ⟨true, some true⟩⟩

def freePlan (device_ids : List ℤ) (batch_size : ℤ) : BatchPlan :=
  workflowOtaBatchPlan device_ids "fw" "serial" "127.0.0.1:19090" batch_size fun _ => freeDevice

def freeConfirmed (device_ids : List ℤ) (batch_size : ℤ) : Option Outcome :=
  workflowOtaBatchRequestConfirm (workflowOtaBatchRequestCreate (freePlan device_ids batch_size)) [] 0
    true (granted "t1")

/-- A device beside one that is listed twice. -/
theorem plan_covers_once_beside :
    Batched [3, 5, 3] (max 1 2) (freePlan [3, 5, 3] 2) ∧
      Placed (freePlan [3, 5, 3] 2)
        (createBatchRun (workflowOtaBatchRequestCreate (freePlan [3, 5, 3] 2)) [] 0).items 5 ∧
      (startsOf quickGateway ((freeConfirmed [3, 5, 3] 2).get rfl)
        [.refreshBatchRun, .startNextBatch (granted "t2")]).countP (·.deviceId = 5) ≤ 1 := by
  obtain ⟨hbatched, -, hcovered⟩ := plan_covers_once [3, 5, 3] "fw" "serial" "127.0.0.1:19090" 2
    (fun _ => freeDevice) quickGateway
  exact ⟨hbatched, hcovered 5 (by decide) [] 0 true (granted "t1") _ (Option.some_get _).symm
    [.refreshBatchRun, .startNextBatch (granted "t2")]⟩

/-- A batch has at least one device, and a device that is listed twice has two items. -/
theorem plan_uncovered :
    ¬Batched [7] 0 (freePlan [7] 0) ∧ ¬Covered quickGateway (freePlan [7, 7] 1) 7 := by
  constructor
  · intro h
    exact absurd (h.small [7] (by decide +kernel)) (by decide)
  · intro h
    obtain ⟨hplaced, -⟩ := h [] 0 true (granted "t1") ((freeConfirmed [7, 7] 1).get rfl)
      (Option.some_get _).symm []
    exact absurd (hplaced.ready (by decide +kernel)) (by decide +kernel)

end EdgeLink.Rollout
