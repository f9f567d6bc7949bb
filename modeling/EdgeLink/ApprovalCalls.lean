import EdgeLink.Holders
import EdgeLink.Machine
import EdgeLink.RolloutSteps

namespace EdgeLink.Approvals
open Holders Machine Rollout

inductive Request
  | single (call : Call)
  | batch (request : BatchRequest)
  deriving DecidableEq

/-- What `workflow_ota_request_confirm` reads from the payload: a batch names no `device_id`. -/
def Request.singleCall : Request → Call
  | .single call => call
  | .batch request => ⟨0, request.firmwareId, request.transport, request.target⟩

/-- What `workflow_ota_batch_request_confirm` reads: a single request names no lists of devices. -/
def Request.batchRequest : Request → BatchRequest
  | .single call => ⟨call.firmwareId, call.transport, call.target, [], [], [], []⟩
  | .batch request => request

/-- What a call does next. -/
inductive Place
  -- `workflow_ota_request_confirm`
  | checked
  | guarded
  | manifested
  | created (ok : Bool)
  -- `workflow_ota_batch_request_confirm`
  | batchChecked
  | batchManifested
  | runCreated (run : BatchRun) (items : List Item)
  | startNext (run : BatchRun) (items : List Item)
  | submitting (run : BatchRun) (next_batch_index : ℕ) (submitted items : List Item)
  | syncing (approval_status run_status : RunStatus)
  | finishing (run_status : RunStatus)
  -- both
  | failing
  | rejecting
  | cancelling
  | ended
  deriving DecidableEq

/-- What the gateway answers. -/
structure Answer where
  guardOk : Bool
  manifestOk : Bool
  createOk : Bool

structure World where
  request : Request
  status : RunStatus
  calls : List Place
  /-- the calls of `create_ota_task` -/
  creates : List Call
  /-- how many batch runs were created -/
  runs : ℕ
  /-- how many calls have had an effect on the gateway, the runs or the request -/
  effects : ℕ
  /-- the request was rejected or cancelled -/
  declined : Bool

def World.goto (w : World) (t : ℕ) (place : Place) : World := { w with calls := w.calls.set t place }

def World.begin (w : World) (place : Place) : World := { w with calls := w.calls ++ [place] }

def World.updateStatus (w : World) (status : RunStatus) : World := { w with status := status }

def World.effect (w : World) : World := { w with effects := w.effects + 1 }

/-- The checks at the beginning of `start_next_batch`. -/
def startNextBatch (w : World) (t : ℕ) (manifestOk : Bool) (run : BatchRun) (items : List Item) :
    World :=
  if run.status = .terminated ∨ items = [] then w.goto t (.finishing run.status)
  else match nextBatchIndex items with
    | none => w.goto t (.finishing run.status)
    | some next_batch_index =>
      if validatePreviousBatchesBeforeStart items next_batch_index ≠ "" ∨ manifestOk = false then
        w.goto t (.finishing run.status)
      else w.goto t (.submitting run next_batch_index [] items)

def batchCall (w : World) (run : BatchRun) (device_id : ℤ) : Call :=
  let r := resolveBatchDeviceTransport w.request.batchRequest.deviceTransportOverrides run.transport
    run.target device_id
  ⟨device_id, run.firmwareId, r.1, r.2⟩

/-- The loop over the devices of the batch, one device at a time. -/
def submitNext (w : World) (t : ℕ) (answer : Answer) (run : BatchRun) (next_batch_index : ℕ)
    (submitted : List Item) : List Item → World
  | [] =>
    let summary := summarizeBatchRunItems submitted run.summaryPayload.blockedDeviceIds
    w.goto t (.syncing (composeBatchRunStatus run summary) (deriveBatchRunStatus summary))
  | item :: items =>
    if item.batchIndex = next_batch_index ∧ item.pending then
      let ok := answer.guardOk && answer.createOk
      let submitted := submitted ++ [{ item with status := if ok then "task_created" else "submit_failed" }]
      { w with
        creates := if answer.guardOk then w.creates ++ [batchCall w run item.deviceId] else w.creates
      }.goto t (.submitting run next_batch_index submitted items)
    else w.goto t (.submitting run next_batch_index (submitted ++ [item]) items)

/-- The next read, gateway call or write of a call. -/
def advance (w : World) (t : ℕ) (answer : Answer) : Place → World
  | .checked => w.goto t (if answer.guardOk then .guarded else .failing)
  | .guarded => w.goto t (if answer.manifestOk then .manifested else .failing)
  | .manifested =>
    { w with creates := w.creates ++ [w.request.singleCall] }.effect.goto t (.created answer.createOk)
  | .created ok => (w.updateStatus (if ok then .approved else .executeFailed)).goto t .ended
  | .batchChecked => w.goto t (if answer.manifestOk then .batchManifested else .failing)
  | .batchManifested =>
    let created := createBatchRun w.request.batchRequest [] 0
    { w with runs := w.runs + 1 }.effect.goto t (.runCreated created.run created.items)
  | .runCreated run items => (w.updateStatus .approved).goto t (.startNext run items)
  | .startNext run items => startNextBatch w t answer.manifestOk run items
  | .submitting run next_batch_index submitted items =>
    submitNext w t answer run next_batch_index submitted items
  | .syncing approval_status run_status =>
    (w.updateStatus approval_status).goto t (.finishing run_status)
  | .finishing run_status => (w.updateStatus run_status).goto t .ended
  | .failing => (w.updateStatus .executeFailed).effect.goto t .ended
  | .rejecting => ({ w with declined := true }.updateStatus .rejected).effect.goto t .ended
  | .cancelling => ({ w with declined := true }.updateStatus .cancelled).effect.goto t .ended
  | .ended => w

inductive Event
  | workflowOtaRequestConfirm
  | workflowOtaBatchRequestConfirm
  | rejectApprovalRequest
  | cancelApprovalRequest
  | next (t : ℕ) (answer : Answer)

/-- A call goes on when it has read `pending`. -/
def beginPending (w : World) (place : Place) : World :=
  if w.status ≠ .pending then w else w.begin place

def step (w : World) : Event → World × Unit
  | .workflowOtaRequestConfirm => (beginPending w .checked, ())
  | .workflowOtaBatchRequestConfirm => (beginPending w .batchChecked, ())
  | .rejectApprovalRequest => (beginPending w .rejecting, ())
  | .cancelApprovalRequest => (beginPending w .cancelling, ())
  | .next t answer =>
    match w.calls[t]? with
    | none => (w, ())
    | some place => (advance w t answer place, ())

def start (request : Request) : World := ⟨request, .pending, [], [], 0, 0, false⟩

def Place.holds : Place → Option Unit
  | .ended => none
  | _ => some ()

/-- No other call on the request is under way. -/
def World.free (w : World) : Prop := Free Place.holds w.calls ()

instance (w : World) : Decidable w.free := inferInstanceAs (Decidable (Free Place.holds w.calls ()))

/-- A call that reads `pending` is the only one; and a batch is not confirmed as a single request. -/
def Exclusive (w : World) : Event → Prop
  | .next _ _ => True
  | .workflowOtaRequestConfirm =>
    w.status = .pending → w.free ∧ w.request = .single w.request.singleCall
  | .workflowOtaBatchRequestConfirm | .rejectApprovalRequest | .cancelApprovalRequest =>
    w.status = .pending → w.free

instance (w : World) (e : Event) : Decidable (Exclusive w e) :=
  match e with
  | .next _ _ => isTrue trivial
  | .workflowOtaRequestConfirm =>
    inferInstanceAs (Decidable (w.status = .pending →
      w.free ∧ w.request = .single w.request.singleCall))
  | .workflowOtaBatchRequestConfirm | .rejectApprovalRequest | .cancelApprovalRequest =>
    inferInstanceAs (Decidable (w.status = .pending → w.free))

/-- The tasks are those that were approved. -/
def World.Proper (w : World) : Prop :=
  match w.request with
  | .single call => w.creates = [] ∨ w.creates = [call]
  | .batch request => ∀ call ∈ w.creates,
      call.deviceId ∈ request.readyDeviceIds ∧ call.firmwareId = request.firmwareId

/-- The approval has been used once at most, and for what was approved. -/
structure Consumed (w : World) : Prop where
  effects : w.effects ≤ 1
  proper : w.Proper
  runs : w.runs ≤ 1
  declined : w.declined = true → w.creates = []

structure Fresh (w : World) : Prop where
  status : w.status = .pending
  effects : w.effects = 0
  creates : w.creates = []
  runs : w.runs = 0
  declined : w.declined = false

structure Settled (w : World) : Prop where
  status : w.status ≠ .pending
  effects : w.effects = 1
  proper : w.Proper
  runs : w.runs ≤ 1
  declined : w.declined = true → w.creates = []

/-- The tasks are for ready devices of the batch, of which a single request has none. -/
def World.Within (w : World) : Prop := ∀ call ∈ w.creates,
  call.deviceId ∈ w.request.batchRequest.readyDeviceIds ∧
    call.firmwareId = w.request.batchRequest.firmwareId

/-- The batch run is there, and these of its items are left. -/
structure Started (w : World) (run : BatchRun) (items : List Item) : Prop where
  effects : w.effects = 1
  runs : w.runs = 1
  declined : w.declined = false
  within : w.Within
  firmware : run.firmwareId = w.request.batchRequest.firmwareId
  status : run.status ≠ .pending
  items : ∀ item ∈ items, item.deviceId ∈ w.request.batchRequest.readyDeviceIds

def Place.Ok (w : World) : Place → Prop
  | .checked | .guarded | .manifested => Fresh w ∧ w.request = .single w.request.singleCall
  | .created _ => w.effects = 1 ∧ w.runs = 0 ∧ w.declined = false ∧
      w.creates = [w.request.singleCall] ∧ w.request = .single w.request.singleCall
  | .batchChecked | .batchManifested | .failing | .rejecting | .cancelling => Fresh w
  | .runCreated run items => Started w run items
  | .startNext run items | .submitting run _ _ items => w.status ≠ .pending ∧ Started w run items
  | .syncing approval_status run_status =>
    Settled w ∧ approval_status ≠ .pending ∧ run_status ≠ .pending
  | .finishing run_status => Settled w ∧ run_status ≠ .pending
  | .ended => True

structure Sound (w : World) : Prop where
  single : Single Place.holds w.calls
  places : ∀ p ∈ w.calls, p.Ok w
  idle : w.free → Fresh w ∨ Settled w

theorem World.Within.proper {w : World} (h : w.Within) : w.Proper := by
  unfold World.Within at h
  unfold World.Proper
  cases hrequest : w.request with
  | single call =>
    rw [hrequest] at h
    refine Or.inl (List.eq_nil_iff_forall_not_mem.mpr fun c hc => ?_)
    exact absurd (h c hc).1 List.not_mem_nil
  | batch request =>
    rw [hrequest] at h
    exact h

theorem Fresh.within {w : World} (h : Fresh w) : w.Within := by
  intro call hcall
  rw [h.creates] at hcall
  cases hcall

theorem Fresh.consumed {w : World} (h : Fresh w) : Consumed w :=
  ⟨h.effects ▸ Nat.zero_le 1, h.within.proper, h.runs ▸ Nat.zero_le 1, fun _ => h.creates⟩

theorem Settled.consumed {w : World} (h : Settled w) : Consumed w :=
  ⟨h.effects.le, h.proper, h.runs, h.declined⟩

theorem Started.consumed {w : World} {run : BatchRun} {items : List Item} (h : Started w run items) :
    Consumed w :=
  ⟨h.effects.le, h.within.proper, h.runs.le, fun hd => Bool.noConfusion (h.declined.symm.trans hd)⟩

theorem Place.Ok.consumed {w : World} {p : Place} (h : p.Ok w) (hp : p ≠ .ended) : Consumed w := by
  cases p with
  | checked | guarded | manifested => exact h.1.consumed
  | created ok =>
    obtain ⟨heffects, hruns, hdeclined, hcreates, hrequest⟩ := h
    refine ⟨heffects.le, ?_, hruns ▸ Nat.zero_le 1,
      fun hd => Bool.noConfusion (hdeclined.symm.trans hd)⟩
    unfold World.Proper
    rw [hcreates]
    rw [hrequest]
    exact Or.inr rfl
  | batchChecked | batchManifested | failing | rejecting | cancelling => exact Fresh.consumed h
  | runCreated run items => exact Started.consumed h
  | startNext run items | submitting run next submitted items => exact h.2.consumed
  | syncing approval_status run_status | finishing run_status => exact h.1.consumed
  | ended => exact absurd rfl hp

theorem ended_of_holds {p : Place} (h : p.holds ≠ some ()) : p = .ended := by
  cases p with
  | ended => rfl
  | _ => exact absurd rfl h

theorem Sound.consumed {w : World} (hw : Sound w) : Consumed w := by
  by_cases hfree : w.free
  · rcases hw.idle hfree with h | h
    · exact h.consumed
    · exact h.consumed
  · obtain ⟨p, hp, hholds⟩ : ∃ p ∈ w.calls, p.holds = some () := by
      by_contra hno
      exact hfree fun p hp hholds => hno ⟨p, hp, hholds⟩
    refine (hw.places p hp).consumed ?_
    rintro rfl
    cases hholds

/-- The one call that is under way moves, or a first one begins. -/
theorem moves_sound {w w' : World} (hw : Sound w) {t : ℕ} {p' : Place}
    (hm : Moves w.calls w'.calls t p')
    (hheld : heldAt Place.holds w.calls t = some () ∨ w.free) (hp' : p'.Ok w')
    (hidle : p' = .ended → Fresh w' ∨ Settled w') : Sound w' := by
  refine ⟨hw.single.moves hm fun _ _ => hheld, ?_, fun hfree => hidle ?_⟩
  · refine hm.all hw.places hp' fun j q hj hq _ => ?_
    have hended : q = .ended := by
      apply ended_of_holds
      rcases hheld with hheld | hfree
      · exact hw.single.others hj hq hheld
      · exact hfree q (List.mem_of_getElem? hq)
    rw [hended]
    trivial
  · exact ended_of_holds (hfree p' (List.mem_of_getElem? hm.new))

theorem derive_ne_pending (summary : Summary) : deriveBatchRunStatus summary ≠ .pending := by
  unfold deriveBatchRunStatus
  split_ifs <;> decide

theorem compose_ne_pending (run : BatchRun) (summary : Summary) :
    composeBatchRunStatus run summary ≠ .pending := by
  unfold composeBatchRunStatus
  split_ifs
  · decide
  · decide
  · exact derive_ne_pending summary

theorem createBatchRun_items (request : BatchRequest) (decisions : List Decision) (clock : ℕ) :
    ∀ item ∈ (createBatchRun request decisions clock).items,
      item.deviceId ∈ request.readyDeviceIds := by
  intro item hitem
  have hitem := (List.mem_insertionSort _).mp hitem
  obtain ⟨device_id, hd, rfl⟩ := List.mem_map.mp hitem
  exact hd

section Step
variable {w : World} {t : ℕ} {p : Place}

/-- The call goes to its next place. -/
theorem goto_sound (hw : Sound w) (ht : w.calls[t]? = some p) (hp : p.holds = some ()) {w' : World}
    {p' : Place} (hcalls : w'.calls = w.calls.set t p') (hp' : p'.Ok w')
    (hidle : p' = .ended → Fresh w' ∨ Settled w') : Sound w' :=
  moves_sound hw (hcalls ▸ Moves.set ht p') (Or.inl ((heldAt_some ht).trans hp)) hp' hidle

/-- The call ends with a status of the request that is not pending any more. -/
theorem settle_sound (hw : Sound w) (ht : w.calls[t]? = some p) (hp : p.holds = some ()) {w' : World}
    (hcalls : w'.calls = w.calls.set t .ended) (h : Settled w') : Sound w' :=
  goto_sound hw ht hp hcalls trivial fun _ => Or.inr h

theorem Fresh.goto (h : Fresh w) (t : ℕ) (p : Place) : Fresh (w.goto t p) :=
  ⟨h.status, h.effects, h.creates, h.runs, h.declined⟩

theorem Settled.goto (h : Settled w) (t : ℕ) (p : Place) : Settled (w.goto t p) :=
  ⟨h.status, h.effects, h.proper, h.runs, h.declined⟩

theorem Started.goto {run : BatchRun} {items : List Item} (h : Started w run items) (t : ℕ)
    (p : Place) : Started (w.goto t p) run items :=
  ⟨h.effects, h.runs, h.declined, h.within, h.firmware, h.status, h.items⟩

theorem Fresh.settled (h : Fresh w) {w' : World} (hstatus : w'.status ≠ .pending)
    (heffects : w'.effects = w.effects + 1) (hcreates : w'.creates = w.creates)
    (hruns : w'.runs = w.runs) : Settled w' := by
  have hempty : w'.creates = [] := hcreates.trans h.creates
  have hwithin : w'.Within := by
    intro call hcall
    rw [hempty] at hcall
    cases hcall
  refine ⟨hstatus, ?_, hwithin.proper, ?_, fun _ => hempty⟩
  · rw [heffects, h.effects]
  · rw [hruns, h.runs]
    exact Nat.zero_le 1

theorem startNextBatch_sound (hw : Sound w) {run : BatchRun} {items : List Item}
    (ht : w.calls[t]? = some (.startNext run items)) (manifestOk : Bool) :
    Sound (startNextBatch w t manifestOk run items) := by
  obtain ⟨hstatus, hstarted⟩ := hw.places _ (List.mem_of_getElem? ht)
  have hsettled : Settled w := ⟨hstatus, hstarted.effects, hstarted.within.proper, hstarted.runs.le,
    fun hd => Bool.noConfusion (hstarted.declined.symm.trans hd)⟩
  have hfinish : Sound (w.goto t (.finishing run.status)) :=
    goto_sound hw ht rfl rfl ⟨hsettled.goto t _, hstarted.status⟩ nofun
  unfold startNextBatch
  -- nothing to start: the call settles the approval with the run as it is
  by_cases hempty : run.status = .terminated ∨ items = []
  · rw [if_pos hempty]
    exact hfinish
  rw [if_neg hempty]
  cases nextBatchIndex items with
  | none => exact hfinish
  | some next =>
    dsimp only
    split_ifs
    · exact hfinish
    · exact goto_sound hw ht rfl rfl ⟨hstatus, hstarted.goto t _⟩ nofun

theorem submitNext_sound (hw : Sound w) {run : BatchRun} {next : ℕ} {submitted items : List Item}
    (ht : w.calls[t]? = some (.submitting run next submitted items)) (answer : Answer) :
    Sound (submitNext w t answer run next submitted items) := by
  obtain ⟨hstatus, hstarted⟩ := hw.places _ (List.mem_of_getElem? ht)
  cases items with
  | nil =>
    have hsettled : Settled w := ⟨hstatus, hstarted.effects, hstarted.within.proper,
      hstarted.runs.le, fun hd => Bool.noConfusion (hstarted.declined.symm.trans hd)⟩
    exact goto_sound hw ht rfl rfl ⟨hsettled.goto t _, compose_ne_pending _ _, derive_ne_pending _⟩
      nofun
  | cons item items =>
    have hrest : ∀ item ∈ items, item.deviceId ∈ w.request.batchRequest.readyDeviceIds :=
      fun item hitem => hstarted.items item (List.mem_cons_of_mem _ hitem)
    have hready := hstarted.items item List.mem_cons_self
    unfold submitNext
    dsimp only
    by_cases hturn : item.batchIndex = next ∧ item.pending = true
    · rw [if_pos hturn]
      refine goto_sound hw ht rfl rfl ⟨hstatus, ⟨hstarted.effects, hstarted.runs, hstarted.declined,
        ?_, hstarted.firmware, hstarted.status, hrest⟩⟩ nofun
      cases answer.guardOk with
      | false => exact hstarted.within
      -- the guard let this device through, and it is one of the ready devices of the request
      | true =>
        intro call hcall
        rcases List.mem_append.mp hcall with hold | hnew
        · exact hstarted.within call hold
        · obtain rfl := List.mem_singleton.mp hnew
          exact ⟨hready, hstarted.firmware⟩
    · rw [if_neg hturn]
      exact goto_sound hw ht rfl rfl ⟨hstatus, ⟨hstarted.effects, hstarted.runs, hstarted.declined,
        hstarted.within, hstarted.firmware, hstarted.status, hrest⟩⟩ nofun

theorem advance_sound (hw : Sound w) (ht : w.calls[t]? = some p) (answer : Answer) :
    Sound (advance w t answer p) := by
  have hok := hw.places p (List.mem_of_getElem? ht)
  cases p with
  | checked =>
    dsimp only [advance]
    split_ifs
    · exact goto_sound hw ht rfl rfl ⟨hok.1.goto t _, hok.2⟩ nofun
    · exact goto_sound hw ht rfl rfl (hok.1.goto t .failing) nofun
  | guarded =>
    dsimp only [advance]
    split_ifs
    · exact goto_sound hw ht rfl rfl ⟨hok.1.goto t _, hok.2⟩ nofun
    · exact goto_sound hw ht rfl rfl (hok.1.goto t .failing) nofun
  | manifested =>
    -- the one effect of the call: the task has been sent to the gateway
    obtain ⟨hfresh, hrequest⟩ := hok
    refine goto_sound hw ht rfl rfl ⟨?_, hfresh.runs, hfresh.declined, ?_, hrequest⟩ nofun
    · exact congrArg (· + 1) hfresh.effects
    · exact congrArg (· ++ [w.request.singleCall]) hfresh.creates
  | created ok =>
    obtain ⟨heffects, hruns, hdeclined, hcreates, hrequest⟩ := hok
    refine settle_sound hw ht rfl rfl ⟨?_, heffects, ?_, hruns ▸ Nat.zero_le 1,
      fun hd => Bool.noConfusion (hdeclined.symm.trans hd)⟩
    · cases ok with
      | false => exact nofun
      | true => exact nofun
    · change World.Proper w
      unfold World.Proper
      rw [hcreates, hrequest]
      exact Or.inr rfl
  | batchChecked =>
    dsimp only [advance]
    split_ifs
    · exact goto_sound hw ht rfl rfl (Fresh.goto hok t .batchManifested) nofun
    · exact goto_sound hw ht rfl rfl (Fresh.goto hok t .failing) nofun
  | batchManifested =>
    -- the one effect of the call: the run has been created
    refine goto_sound hw ht rfl rfl ⟨congrArg (· + 1) hok.effects, congrArg (· + 1) hok.runs,
      hok.declined, hok.within, rfl, nofun, createBatchRun_items _ _ _⟩ nofun
  | runCreated run items =>
    exact goto_sound hw ht rfl rfl ⟨nofun, ⟨hok.effects, hok.runs, hok.declined, hok.within,
      hok.firmware, hok.status, hok.items⟩⟩ nofun
  | startNext run items => exact startNextBatch_sound hw ht _
  | submitting run next submitted items => exact submitNext_sound hw ht answer
  | syncing approval_status run_status =>
    obtain ⟨hsettled, happroval, hrun⟩ := hok
    exact goto_sound hw ht rfl rfl ⟨⟨happroval, hsettled.effects, hsettled.proper, hsettled.runs,
      hsettled.declined⟩, hrun⟩ nofun
  | finishing run_status =>
    obtain ⟨hsettled, hrun⟩ := hok
    exact settle_sound hw ht rfl rfl ⟨hrun, hsettled.effects, hsettled.proper, hsettled.runs,
      hsettled.declined⟩
  | failing => exact settle_sound hw ht rfl rfl (Fresh.settled hok nofun rfl rfl rfl)
  | rejecting => exact settle_sound hw ht rfl rfl (Fresh.settled hok nofun rfl rfl rfl)
  | cancelling => exact settle_sound hw ht rfl rfl (Fresh.settled hok nofun rfl rfl rfl)
  | ended => exact hw

theorem beginPending_sound (hw : Sound w) {p' : Place} (hfree : w.status = .pending → w.free)
    (hp' : w.status = .pending → Fresh w → p'.Ok (w.begin p')) (hne : p' ≠ .ended) :
    Sound (beginPending w p') := by
  unfold beginPending
  by_cases hstatus : w.status ≠ .pending
  · rw [if_pos hstatus]
    exact hw
  rw [if_neg hstatus]
  have hpending := not_not.mp hstatus
  have hfresh : Fresh w := by
    rcases hw.idle (hfree hpending) with h | h
    · exact h
    · exact absurd hpending h.status
  exact moves_sound hw (Moves.concat w.calls p') (Or.inr (hfree hpending)) (hp' hpending hfresh)
    fun h => absurd h hne

theorem Fresh.begin (h : Fresh w) (p : Place) : Fresh (w.begin p) :=
  ⟨h.status, h.effects, h.creates, h.runs, h.declined⟩

end Step

def StaysConsumed (w : World) (e : Event) : Prop := Consumed (step w e).1

theorem step_sound (w : World) (e : Event) (hw : Sound w) (he : Exclusive w e) :
    Sound (step w e).1 ∧ StaysConsumed w e := by
  have hsound : Sound (step w e).1 := by
    cases e with
    | workflowOtaRequestConfirm =>
      exact beginPending_sound hw (fun h => (he h).1)
        (fun hpending hfresh => ⟨hfresh.begin _, (he hpending).2⟩) nofun
    | workflowOtaBatchRequestConfirm =>
      exact beginPending_sound hw he (fun _ hfresh => hfresh.begin .batchChecked) nofun
    | rejectApprovalRequest =>
      exact beginPending_sound hw he (fun _ hfresh => hfresh.begin .rejecting) nofun
    | cancelApprovalRequest =>
      exact beginPending_sound hw he (fun _ hfresh => hfresh.begin .cancelling) nofun
    | next t answer =>
      dsimp only [step]
      cases ht : w.calls[t]? with
      | none => exact hw
      | some p => exact advance_sound hw ht answer
  exact ⟨hsound, hsound.consumed⟩

theorem start_sound (request : Request) : Sound (start request) := by
  refine ⟨fun i j p q r hi => ?_, nofun, fun _ => Or.inl ⟨rfl, rfl, rfl, rfl, rfl⟩⟩
  cases hi

/-- When the calls that read `pending` exclude one another, and batches are confirmed as batches, a
request is consumed at most once and for what was approved. -/
theorem consumed_once (request : Request) (es : List Event)
    (h : Always step Exclusive (start request) es) :
    Always step StaysConsumed (start request) es :=
  Always.of_invariant (I := Sound) step_sound (start_sound request) h

def granted : Answer := ⟨true, true, true⟩

def oneDevice : Call := ⟨5, "fw", "serial", "127.0.0.1:19090"⟩

def confirmRun (first : Event) : List Event :=
  first :: List.replicate 12 (.next 0 granted) ++ [.rejectApprovalRequest]

def twoDevices : BatchRequest where
  firmwareId := "fw"
  transport := "serial"
  target := "127.0.0.1:19090"
  rolloutBatches := [[1], [2]]
  readyDeviceIds := [1, 2]
  blockedDeviceIds := []
  deviceTransportOverrides := []

theorem confirmRun_consumed :
    (run step (start (.single oneDevice)) (confirmRun .workflowOtaRequestConfirm)).creates =
      [oneDevice] ∧
    Always step StaysConsumed (start (.single oneDevice)) (confirmRun .workflowOtaRequestConfirm) ∧
    (run step (start (.batch twoDevices)) (confirmRun .workflowOtaBatchRequestConfirm)).creates =
      [⟨1, "fw", "serial", "127.0.0.1:19090"⟩] ∧
    Always step StaysConsumed (start (.batch twoDevices))
      (confirmRun .workflowOtaBatchRequestConfirm) :=
  ⟨by decide +kernel, consumed_once _ _ (by decide +kernel), by decide +kernel,
    consumed_once _ _ (by decide +kernel)⟩

/-- Both calls read `pending`, then both ask for the task. -/
def twoConfirms : List Event :=
  [.workflowOtaRequestConfirm, .workflowOtaRequestConfirm] ++ List.replicate 3 (.next 0 granted) ++
    List.replicate 3 (.next 1 granted)

/-- A batch request in the hands of the confirmation for single requests. -/
def wrongConfirm : List Event := .workflowOtaRequestConfirm :: List.replicate 3 (.next 0 granted)

theorem consumed_run {request : Request} {es : List Event}
    (h : Always step StaysConsumed (start request) es) : Consumed (run step (start request) es) :=
  run_invariant (fun _ _ _ hc => hc) (start_sound request).consumed h

theorem twoConfirms_not_consumed :
    ¬ Always step StaysConsumed (start (.single oneDevice)) twoConfirms ∧
      ¬ Always step StaysConsumed (start (.batch twoDevices)) wrongConfirm := by
  constructor
  · intro h
    have heffects : (run step (start (.single oneDevice)) twoConfirms).effects = 2 := by
      decide +kernel
    have hone := (consumed_run h).effects
    rw [heffects] at hone
    exact absurd hone (by decide)
  · intro h
    have hproper : ∀ call ∈ (run step (start (.batch twoDevices)) wrongConfirm).creates,
        call.deviceId ∈ twoDevices.readyDeviceIds ∧ call.firmwareId = twoDevices.firmwareId :=
      (consumed_run h).proper
    have hcreates : (run step (start (.batch twoDevices)) wrongConfirm).creates =
        [⟨0, "fw", "serial", "127.0.0.1:19090"⟩] := by
      decide +kernel
    rw [hcreates] at hproper
    exact absurd (hproper _ List.mem_cons_self).1 (by decide)

end EdgeLink.Approvals
