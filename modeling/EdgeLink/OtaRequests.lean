import EdgeLink.OtaTaskLaws
import EdgeLink.OtaExecutor

namespace EdgeLink.Ota
open Machine OtaTaskState

/-- Tasks are filed under their own id. -/
def Keyed (tasks : String → Option OtaTask) : Prop :=
  ∀ task_uuid t, tasks task_uuid = some t → t.taskUuid = task_uuid

theorem loadTasks_keyed (s : PersistentStore) : Keyed (loadTasks s) :=
  fun _ _ h => (loaded_text h).1

theorem openTasks_keyed (s : PersistentStore) (opened : Bool) : Keyed (openTasks s opened) := by
  cases opened with
  | true => exact loadTasks_keyed s
  | false => exact fun _ _ h => (by cases h)

theorem none_keyed : Keyed fun _ => none := fun _ _ h => by cases h

theorem change_keyed {m : OtaTaskManager} {c : Call × Env} (hk : Keyed m.tasks) {key : String}
    {t : OtaTask} (h : change m c = some (key, t)) : t.taskUuid = key := by
  rcases step_cases m c with ⟨hc, -, -⟩ | ⟨device_id, device_type, firmware_id, hc⟩ |
    ⟨task_uuid, old, t', detail, hc, -, hold, ht, -⟩
  · rw [hc] at h
    cases h
  · simp only [change, hc, Option.some.injEq, Prod.mk.injEq] at h
    obtain ⟨rfl, rfl⟩ := h
    rfl
  · rw [hc] at h
    obtain ⟨rfl, rfl⟩ := Prod.mk.inj (Option.some.inj h)
    rw [ht]
    exact hk task_uuid old hold

theorem step_keyed {m : OtaTaskManager} (c : Call × Env) (hk : Keyed m.tasks) :
    Keyed (step m c).1.tasks := by
  rw [step_tasks]
  cases hc : change m c with
  | none => exact hk
  | some kt =>
    obtain ⟨key, t⟩ := kt
    intro task_uuid t' h
    dsimp only at h
    by_cases hu : task_uuid = key
    · subst hu
      rw [Function.update_self] at h
      cases h
      exact change_keyed hk hc
    · rw [Function.update_of_ne hu] at h
      exact hk _ _ h

theorem persist_rows (m : OtaTaskManager) (v : Env) (task_uuid : String) (t : OtaTask)
    (detail : String) : (persist m v task_uuid t detail).1.store.tasks =
    if v.saveError = none then Function.update m.store.tasks t.taskUuid (some (taskRow t))
    else m.store.tasks := by
  unfold persist
  cases v.saveError with
  | some err => rfl
  | none =>
    cases v.appendError with
    | some err => rfl
    | none => rfl

theorem appendEvent_tasks (s : PersistentStore) (e : OtaTaskEvent) :
    (appendEvent s e).tasks = s.tasks := by
  unfold appendEvent
  rfl

theorem create_rows (m : OtaTaskManager) (v : Env) (device_id : UInt8)
    (device_type firmware_id : String) :
    (create m v device_id device_type firmware_id).1.store.tasks =
    if v.saveError = none then Function.update m.store.tasks (nowUuid v.uuidMs)
      (some (taskRow ⟨nowUuid v.uuidMs, device_id, device_type, firmware_id, created, ""⟩))
    else m.store.tasks := by
  unfold create
  dsimp only
  cases v.saveError with
  | some err => cases v.appendError <;> simp only [appendEvent_tasks, reduceCtorEq, if_false]
  | none => cases v.appendError <;> simp only [appendEvent_tasks, saveTask, if_true]

/-- The one row that a call writes, unless the write fails. -/
theorem step_rows {m : OtaTaskManager} (c : Call × Env) (hk : Keyed m.tasks) :
    (step m c).1.store.tasks =
    match change m c with
    | none => m.store.tasks
    | some (key, t) =>
      if c.2.saveError = none then Function.update m.store.tasks key (some (taskRow t))
      else m.store.tasks := by
  rcases step_cases m c with ⟨hc, -, err, hs⟩ | ⟨device_id, device_type, firmware_id, hc⟩ |
    ⟨task_uuid, old, t, detail, hc, -, -, -, hs⟩
  · rw [hc, hs]
  · obtain ⟨call, v⟩ := c
    obtain rfl : call = _ := hc
    simp only [step, create_rows, change]
  · rw [hs, hc, persist_rows]
    dsimp only
    rw [change_keyed hk hc]

/-- A call is granted when it changes its task and both writes go through. -/
theorem step_error_none {m : OtaTaskManager} {c : Call × Env} (h : (step m c).2.error = none) :
    ∃ key t, change m c = some (key, t) ∧ c.2.saveError = none ∧ c.2.appendError = none := by
  rcases step_cases m c with ⟨hc, -, err, hs⟩ | ⟨device_id, device_type, firmware_id, hc⟩ |
    ⟨task_uuid, old, t, detail, hc, -, -, -, hs⟩
  · rw [hs] at h
    cases h
  · obtain ⟨call, v⟩ := c
    obtain rfl : call = _ := hc
    have herr : v.appendError.or v.saveError = none := h
    refine ⟨_, _, rfl, ?_⟩
    rw [Option.or_eq_none_iff] at herr
    exact ⟨herr.2, herr.1⟩
  · rw [hs, persist] at h
    refine ⟨task_uuid, t, hc, ?_⟩
    cases hsave : c.2.saveError with
    | some err =>
      rw [hsave] at h
      cases h
    | none =>
      rw [hsave] at h
      cases happ : c.2.appendError with
      | some err =>
        rw [happ] at h
        cases h
      | none => exact ⟨rfl, rfl⟩

/-- The task that a call is about. -/
def Call.key : Call → String
  | .create .. => ""
  | .updateState task_uuid _ _ | .fail task_uuid _ | .cancel task_uuid | .retry task_uuid => task_uuid

theorem change_key {m : OtaTaskManager} {c : Call × Env} (hc : ¬ c.1.creates) {key : String}
    {t : OtaTask} (h : change m c = some (key, t)) : key = c.1.key := by
  obtain ⟨call, v⟩ := c
  cases call with
  | create device_id device_type firmware_id => exact absurd trivial hc
  | fail task_uuid reason =>
    obtain ⟨t', -, ht⟩ := Option.map_eq_some_iff.mp h
    exact (Prod.mk.inj ht).1.symm
  | updateState task_uuid next detail | cancel task_uuid | retry task_uuid =>
    obtain ⟨t', -, ht⟩ := Option.bind_eq_some_iff.mp h
    split_ifs at ht
    exact (Prod.mk.inj (Option.some.inj ht)).1.symm

/-- Rows of other tasks stay. -/
theorem step_rows_of_ne {m : OtaTaskManager} {c : Call × Env} (hk : Keyed m.tasks)
    (hc : ¬ c.1.creates) {u : String} (hu : u ≠ c.1.key) :
    (step m c).1.store.tasks u = m.store.tasks u := by
  rw [step_rows c hk]
  cases h : change m c with
  | none => rfl
  | some kt =>
    obtain ⟨key, t⟩ := kt
    rw [← change_key hc h] at hu
    dsimp only
    split_ifs
    · rw [Function.update_of_ne hu]
    · rfl

/-- No row goes away. -/
theorem step_rows_isSome {m : OtaTaskManager} (c : Call × Env) (hk : Keyed m.tasks) {u : String}
    (h : (m.store.tasks u).isSome) : ((step m c).1.store.tasks u).isSome := by
  rw [step_rows c hk]
  cases change m c with
  | none => exact h
  | some kt =>
    dsimp only
    split_ifs
    · by_cases hu : u = kt.1
      · rw [hu, Function.update_self]
        rfl
      · rw [Function.update_of_ne hu]
        exact h
    · exact h

/-- The state of a task as the next manager will read it. -/
def storedState (s : PersistentStore) (task_uuid : String) : Option OtaTaskState :=
  (loadTasks s task_uuid).map OtaTask.state

theorem storedState_congr {s s' : PersistentStore} {u : String} (h : s'.tasks u = s.tasks u) :
    storedState s' u = storedState s u := by
  unfold storedState loadTasks
  rw [h]

theorem storedState_isSome {s : PersistentStore} {u : String} :
    (storedState s u).isSome = (s.tasks u).isSome := by
  unfold storedState loadTasks
  rw [Option.isSome_map, Option.isSome_map]

theorem storedState_of_row {s : PersistentStore} {u : String} {t : OtaTask}
    (h : s.tasks u = some (taskRow t)) : storedState s u = some t.state := by
  unfold storedState loadTasks
  rw [h, Option.map_some, rowTask_taskRow]
  rfl

/-- What a call leaves stored of its task. -/
theorem step_storedState {m : OtaTaskManager} {c : Call × Env} (hk : Keyed m.tasks) {u : String}
    {t : OtaTask} (h : change m c = some (u, t)) : storedState (step m c).1.store u =
    if c.2.saveError = none then some t.state else storedState m.store u := by
  have hrow := congrFun (step_rows c hk) u
  rw [h] at hrow
  dsimp only at hrow
  split_ifs at hrow ⊢ with hs
  · rw [Function.update_self] at hrow
    exact storedState_of_row hrow
  · exact storedState_congr hrow

def Executor.call (x : Executor) (v : Input) : Option Call :=
  match x.pc with
  | .reject => some (.fail x.taskUuid "too many concurrent ota tasks")
  | .update next => some (.updateState x.taskUuid next.state next.detail)
  | .progress => some (.updateState x.taskUuid transferring ("progress=" ++ toString v.percent))
  | .esp32Report _ _ => some (.updateState x.taskUuid transferring
      ("esp32:" ++ v.status.otaState ++ ":" ++ toString v.status.progress))
  | .succeed => some (.updateState x.taskUuid success "ota success")
  | .failing reason => some (.fail x.taskUuid reason)
  | .canceling => some (.cancel x.taskUuid)
  | _ => none

section Worker
variable (x : Executor) (sh : Shared) (v : Input)

theorem Executor.call_key {c : Call} (h : x.call v = some c) :
    c.key = x.taskUuid ∧ ¬ c.creates := by
  obtain ⟨task_uuid, device_type, transport, device_id, pc, tasks, entered, muted, locked⟩ := x
  cases pc <;> cases h <;> exact ⟨rfl, id⟩

theorem Executor.step_store : (x.step sh v).1.store =
    match x.call v with
    | some c => (Ota.step ⟨x.tasks, sh.store⟩ (c, v.env)).1.store
    | none => sh.store := by
  obtain ⟨task_uuid, device_type, transport, device_id, pc, tasks, entered, muted, locked⟩ := x
  cases pc <;> rfl

theorem Executor.step_tasks : (x.step sh v).2.tasks =
    match x.call v with
    | some c => (Ota.step ⟨x.tasks, sh.store⟩ (c, v.env)).1.tasks
    | none => if x.pc = .load ∨ x.pc = .rejectLoad then openTasks sh.store v.opened else x.tasks := by
  obtain ⟨task_uuid, device_type, transport, device_id, pc, tasks, entered, muted, locked⟩ := x
  cases pc <;> rfl

theorem Executor.step_uuid : (x.step sh v).2.taskUuid = x.taskUuid := by
  obtain ⟨task_uuid, device_type, transport, device_id, pc, tasks, entered, muted, locked⟩ := x
  cases pc <;> rfl

theorem Executor.step_flags_of_ne {u : String} (h : u ≠ x.taskUuid) :
    (x.step sh v).1.cancelFlags u = sh.cancelFlags u := by
  obtain ⟨task_uuid, device_type, transport, device_id, pc, tasks, entered, muted, locked⟩ := x
  have hu : u ≠ task_uuid := h
  cases pc <;> first
    | rfl
    | simp only [Executor.step, Shared.otaCancelSet, Shared.otaCancelClear, Function.update_of_ne hu]

variable {x}

theorem Executor.step_keyed (hk : Keyed x.tasks) : Keyed (x.step sh v).2.tasks := by
  rw [x.step_tasks]
  cases x.call v with
  | some c => exact Ota.step_keyed (c, v.env) hk
  | none =>
    dsimp only
    split_ifs
    · exact openTasks_keyed sh.store v.opened
    · exact hk

theorem Executor.step_rows_of_ne (hk : Keyed x.tasks) {u : String} (hu : u ≠ x.taskUuid) :
    (x.step sh v).1.store.tasks u = sh.store.tasks u := by
  rw [x.step_store]
  cases hc : x.call v with
  | none => rfl
  | some c =>
    obtain ⟨hkey, hcr⟩ := x.call_key v hc
    exact Ota.step_rows_of_ne hk hcr (by rw [hkey]; exact hu)

theorem Executor.step_rows_isSome (hk : Keyed x.tasks) {u : String}
    (h : (sh.store.tasks u).isSome) : ((x.step sh v).1.store.tasks u).isSome := by
  rw [x.step_store]
  cases x.call v with
  | none => exact h
  | some c => exact Ota.step_rows_isSome (c, v.env) hk h

end Worker

section Requests
variable (g : Gateway)

/-- A create request is refused as it stands, or it makes a task, which stays with the request unless
a write has failed. -/
theorem Gateway.handleCreate_cases (src : Source) (req : CreateRequest) (active_t : String) (v : Env) :
    (∃ err, g.handleCreate src req active_t v = (g, some (.refused "400 Bad Request" err))) ∨
    ∃ t store, t.taskUuid = nowUuid v.uuidMs ∧ t.state = created ∧
      store.tasks = (if v.saveError = none then
        Function.update g.shared.store.tasks t.taskUuid (some (taskRow t))
        else g.shared.store.tasks) ∧
      ((v.saveError = none ∧ v.appendError = none ∧ g.handleCreate src req active_t v =
          ((g.setStore store).setRequest src (some (.creating t req.transport)), none)) ∨
        ∃ err, v.appendError.or v.saveError = some err ∧ g.handleCreate src req active_t v =
          (g.setStore store, some (.refused "500 Internal Server Error" err))) := by
  unfold handleCreate
  split
  · rename_i device_id firmware_id _ _
    by_cases hrange : device_id < 0 ∨ 255 < device_id
    · rw [if_pos hrange]
      exact Or.inl ⟨_, rfl⟩
    · rw [if_neg hrange]
      right
      dsimp only
      generalize (if req.deviceType.getD "" = "" then defaultDeviceType active_t
        else req.deviceType.getD "") = device_type
      refine ⟨⟨nowUuid v.uuidMs, UInt8.ofNat device_id.toNat, device_type, firmware_id, created, ""⟩,
        _, rfl, rfl, create_rows ⟨loadTasks g.shared.store, g.shared.store⟩ v
          (UInt8.ofNat device_id.toNat) device_type firmware_id, ?_⟩
      have hout : (create ⟨loadTasks g.shared.store, g.shared.store⟩ v (UInt8.ofNat device_id.toNat)
          device_type firmware_id).2 = .created ⟨nowUuid v.uuidMs, UInt8.ofNat device_id.toNat,
            device_type, firmware_id, created, ""⟩ (v.appendError.or v.saveError) := rfl
      rw [hout]
      cases herr : v.appendError.or v.saveError with
      | none =>
        rw [Option.or_eq_none_iff] at herr
        exact Or.inl ⟨herr.2, herr.1, rfl⟩
      | some err => exact Or.inr ⟨err, rfl, rfl⟩
  · exact Or.inl ⟨_, rfl⟩

/-- What a request has read of the store. -/
def Request.tasks : Request → String → Option OtaTask
  | .canceling _ tasks | .retrying _ tasks => tasks
  | .creating _ _ | .canceled _ => fun _ => none

/-- Who will work on which task: a request that has created it, then a worker. -/
def Gateway.owner (g : Gateway) : Source ⊕ ℕ → Option String
  | .inl src => (g.requests src).bind fun r =>
    match r with
    | .creating t _ => some t.taskUuid
    | _ => none
  | .inr i => g.executors[i]?.map Executor.taskUuid

/-- Each task has one owner at most, and a row. -/
structure Owned (g : Gateway) : Prop where
  keyed : ∀ x ∈ g.executors, Keyed x.tasks
  keyedRequest : ∀ src r, g.requests src = some r → Keyed r.tasks
  stored : ∀ o u, g.owner o = some u → (g.shared.store.tasks u).isSome
  one : ∀ o o' u, g.owner o = some u → g.owner o' = some u → o = o'

variable {g}

/-- Owners change places or leave, rows stay. -/
theorem Owned.map {g' : Gateway} (h : Owned g) {f : Source ⊕ ℕ → Source ⊕ ℕ}
    (hf : Function.Injective f) (ho : ∀ o u, g'.owner o = some u → g.owner (f o) = some u)
    (hs : ∀ u, (g.shared.store.tasks u).isSome → (g'.shared.store.tasks u).isSome)
    (hk : ∀ x ∈ g'.executors, Keyed x.tasks)
    (hr : ∀ src r, g'.requests src = some r → Keyed r.tasks) : Owned g' :=
  ⟨hk, hr, fun o u hu => hs u (h.stored _ u (ho o u hu)),
    fun o o' u hu hu' => hf (h.one _ _ u (ho o u hu) (ho o' u hu'))⟩

theorem setRequest_keyed {src : Source} {r : Option Request}
    (hr : ∀ src r, g.requests src = some r → Keyed r.tasks) (hnew : ∀ q, r = some q → Keyed q.tasks) :
    ∀ src' q, (g.setRequest src r).requests src' = some q → Keyed q.tasks := by
  intro src' q hq
  by_cases hsrc : src' = src
  · subst hsrc
    simp only [Gateway.setRequest, Function.update_self] at hq
    exact hnew q hq
  · simp only [Gateway.setRequest, Function.update_of_ne hsrc] at hq
    exact hr src' q hq

/-- A request takes its place, or leaves it. -/
theorem owner_setRequest {src : Source} {r : Option Request} {o : Source ⊕ ℕ} {u : String}
    (h : (g.setRequest src r).owner o = some u) :
    (o = .inl src ∧ ∃ t transport, r = some (.creating t transport) ∧ t.taskUuid = u) ∨
      g.owner o = some u := by
  cases o with
  | inr i => exact Or.inr h
  | inl src' =>
    by_cases hsrc : src' = src
    · subst hsrc
      simp only [Gateway.owner, Gateway.setRequest, Function.update_self] at h
      obtain ⟨q, rfl, hq⟩ := Option.bind_eq_some_iff.mp h
      cases q with
      | creating t transport => exact Or.inl ⟨rfl, t, transport, rfl, Option.some.inj hq⟩
      | canceling task_uuid tasks | retrying task_uuid tasks | canceled task_uuid => cases hq
    · simp only [Gateway.owner, Gateway.setRequest, Function.update_of_ne hsrc] at h
      exact Or.inr h

/-- A request that creates nothing takes the place of another. -/
theorem Owned.setRequest {g' : Gateway} (h : Owned g) {src : Source} {r : Option Request}
    (he : g'.executors = g.executors) (hr : g'.requests = (g.setRequest src r).requests)
    (hs : ∀ u, (g.shared.store.tasks u).isSome → (g'.shared.store.tasks u).isSome)
    (hnew : ∀ q, r = some q → Keyed q.tasks ∧ ∀ t transport, q ≠ .creating t transport) :
    Owned g' := by
  have hown : ∀ o u, g'.owner o = some u → g.owner o = some u := by
    intro o u hu
    have hu : (g.setRequest src r).owner o = some u := by
      cases o with
      | inl src' =>
        simp only [Gateway.owner, ← hr]
        exact hu
      | inr i =>
        simp only [Gateway.owner, he] at hu
        exact hu
    rcases owner_setRequest hu with ⟨-, t, transport, hq, -⟩ | hu
    · exact absurd rfl ((hnew _ hq).2 t transport)
    · exact hu
  refine h.map Function.injective_id hown hs (by rw [he]; exact h.keyed) fun src' q hq => ?_
  rw [hr] at hq
  exact setRequest_keyed h.keyedRequest (fun q hq => (hnew q hq).1) src' q hq

/-- A task has just been created. -/
theorem Owned.create (h : Owned g) {src : Source} {t : OtaTask} {transport : Option String}
    {store : PersistentStore} (hfree : g.shared.store.tasks t.taskUuid = none)
    (hs : store.tasks = Function.update g.shared.store.tasks t.taskUuid (some (taskRow t))) :
    Owned ((g.setStore store).setRequest src (some (.creating t transport))) := by
  have hrow : ∀ u, (g.shared.store.tasks u).isSome → (store.tasks u).isSome := by
    intro u hu
    rw [hs]
    by_cases hut : u = t.taskUuid
    · rw [hut, Function.update_self]
      rfl
    · rw [Function.update_of_ne hut]
      exact hu
  -- nobody owns it yet
  have hnew : ∀ o, g.owner o ≠ some t.taskUuid := by
    intro o ho
    have hsome := h.stored o _ ho
    rw [hfree] at hsome
    cases hsome
  have hcases : ∀ o u, ((g.setStore store).setRequest src (some (.creating t transport))).owner o =
      some u → (o = .inl src ∧ u = t.taskUuid) ∨ g.owner o = some u := by
    intro o u hu
    rcases owner_setRequest hu with ⟨ho, t', transport', hr, rfl⟩ | ho
    · cases hr
      exact Or.inl ⟨ho, rfl⟩
    · exact Or.inr ho
  refine ⟨h.keyed, setRequest_keyed h.keyedRequest fun q hq => ?_, fun o u hu => ?_,
    fun o o' u hu hu' => ?_⟩
  · cases hq
    exact none_keyed
  · rcases hcases o u hu with ⟨-, rfl⟩ | ho
    · show (store.tasks t.taskUuid).isSome
      rw [hs, Function.update_self]
      rfl
    · exact hrow u (h.stored o u ho)
  · rcases hcases o u hu with ⟨rfl, rfl⟩ | ho
    · rcases hcases o' _ hu' with ⟨rfl, -⟩ | ho'
      · rfl
      · exact absurd ho' (hnew o')
    · rcases hcases o' _ hu' with ⟨-, rfl⟩ | ho'
      · exact absurd ho (hnew o)
      · exact h.one o o' u ho ho'

/-- The request hands its task to a new worker. -/
theorem Owned.launch (h : Owned g) {src : Source} {t : OtaTask} {transport : Option String}
    (hr : g.requests src = some (.creating t transport)) (run_transport : String) :
    Owned ((g.setRequest src none).launchOtaTask t run_transport) := by
  refine h.map (Equiv.swap (Sum.inl src) (Sum.inr g.executors.length)).injective
    (fun o u hu => ?_) (fun u hu => hu) (fun x hx => ?_)
    (setRequest_keyed h.keyedRequest fun q hq => (by cases hq))
  · cases o with
    | inl src' =>
      by_cases hsrc : src' = src
      · subst hsrc
        simp only [Gateway.owner, Gateway.launchOtaTask, Gateway.setRequest, Function.update_self] at hu
        cases hu
      · rw [Equiv.swap_apply_of_ne_of_ne (by simpa using hsrc) (by simp)]
        simp only [Gateway.owner, Gateway.launchOtaTask, Gateway.setRequest,
          Function.update_of_ne hsrc] at hu
        exact hu
    | inr i =>
      obtain ⟨x, hx, rfl⟩ := Option.map_eq_some_iff.mp hu
      rcases getElem?_concat_cases hx with hx | ⟨rfl, rfl⟩
      · have hi : i ≠ g.executors.length := (List.getElem?_eq_some_iff.mp hx).1.ne
        rw [Equiv.swap_apply_of_ne_of_ne (by simp) (by simpa using hi)]
        show g.executors[i]?.map Executor.taskUuid = some x.taskUuid
        have hx : g.executors[i]? = some x := hx
        rw [hx]
        rfl
      · show g.owner (Equiv.swap _ _ (Sum.inr g.executors.length)) = some t.taskUuid
        rw [Equiv.swap_apply_right]
        show (g.requests src).bind _ = _
        rw [hr]
        rfl
  · rcases List.mem_append.mp hx with hx | hx
    · exact h.keyed x hx
    · rw [List.mem_singleton.mp hx]
      exact none_keyed

theorem Owned.exec (h : Owned g) {i : ℕ} {x : Executor} (hx : g.executors[i]? = some x) (v : Input) :
    Owned { g with shared := (x.step g.shared v).1,
                   executors := g.executors.set i (x.step g.shared v).2 } := by
  have hkx := h.keyed x (List.mem_of_getElem? hx)
  refine h.map Function.injective_id (fun o u hu => ?_)
    (fun u hu => Executor.step_rows_isSome g.shared v hkx hu) (fun y hy => ?_) h.keyedRequest
  · cases o with
    | inl src => exact hu
    | inr j =>
      obtain ⟨y, hy, rfl⟩ := Option.map_eq_some_iff.mp hu
      show g.executors[j]?.map Executor.taskUuid = some y.taskUuid
      rcases getElem?_set_cases hy with ⟨rfl, rfl⟩ | ⟨-, hj⟩
      · rw [hx, x.step_uuid]
        rfl
      · rw [hj]
        rfl
  · obtain ⟨j, hj⟩ := List.mem_iff_getElem?.mp hy
    rcases getElem?_set_cases hj with ⟨rfl, rfl⟩ | ⟨-, hj⟩
    · exact Executor.step_keyed g.shared v hkx
    · exact h.keyed y (List.mem_of_getElem? hj)

theorem Owned.write (h : Owned g) {r : Request} (hr : g.requests .monitor = some r) (c : Call)
    (v : Env) {next : Option Request} (reply : Option Reply)
    (hnew : ∀ q, next = some q → Keyed q.tasks ∧ ∀ t transport, q ≠ .creating t transport) :
    Owned (g.handleWrite r.tasks c v next reply).1 := by
  have hk := h.keyedRequest _ _ hr
  have hs : ∀ u, (g.shared.store.tasks u).isSome →
      ((Ota.step ⟨r.tasks, g.shared.store⟩ (c, v)).1.store.tasks u).isSome :=
    fun u hu => step_rows_isSome (c, v) hk hu
  unfold Gateway.handleWrite
  dsimp only
  split
  · exact h.setRequest rfl rfl hs fun q hq => by cases hq
  · exact h.setRequest rfl rfl hs hnew

end Requests

/-- The id of a new task is not in use. -/
def Fresh (g : Gateway) : Event → Prop
  | .create _ _ _ v => g.shared.store.tasks (nowUuid v.uuidMs) = none
  | _ => True

instance (g : Gateway) (e : Event) : Decidable (Fresh g e) :=
  match e with
  | .create _ _ _ v =>
    inferInstanceAs (Decidable (g.shared.store.tasks (nowUuid v.uuidMs) = none))
  | .launch .. | .cancel .. | .retry .. | .write _ | .flag | .exec .. => isTrue trivial

theorem Owned.step {g : Gateway} {e : Event} (h : Owned g) (hf : Fresh g e) : Owned (g.step e).1 := by
  cases e with
  | create src req active_t v =>
    simp only [Gateway.step]
    cases hr : g.requests src with
    | some r => exact h
    | none =>
      dsimp only
      rcases g.handleCreate_cases src req active_t v with ⟨err, hc⟩ |
        ⟨t, store, ht, -, hs, ⟨hsave, -, hc⟩ | ⟨err, -, hc⟩⟩
      · rw [hc]
        exact h
      · rw [hc]
        rw [if_pos hsave] at hs
        exact h.create (by rw [ht]; exact hf) hs
      -- the answer is an error, yet the row may have been written
      · rw [hc]
        refine h.map Function.injective_id (fun o u hu => hu) (fun u hu => ?_) h.keyed h.keyedRequest
        show (store.tasks u).isSome
        rw [hs]
        split_ifs
        · by_cases hut : u = t.taskUuid
          · rw [hut, Function.update_self]
            rfl
          · rw [Function.update_of_ne hut]
            exact hu
        · exact hu
  | launch src active_t =>
    simp only [Gateway.step]
    split
    · rename_i t transport hr
      unfold Gateway.handleLaunch
      dsimp only
      split
      · exact h.setRequest rfl rfl (fun u hu => hu) fun q hq => by cases hq
      · exact h.launch hr _
    · exact h
  | cancel task_uuid opened =>
    simp only [Gateway.step]
    split
    · refine h.setRequest rfl rfl (fun u hu => hu) fun q hq => ?_
      cases hq
      exact ⟨openTasks_keyed _ opened, fun t transport => nofun⟩
    · exact h
  | retry task_uuid opened =>
    simp only [Gateway.step]
    split
    · refine h.setRequest rfl rfl (fun u hu => hu) fun q hq => ?_
      cases hq
      exact ⟨openTasks_keyed _ opened, fun t transport => nofun⟩
    · exact h
  | write v =>
    simp only [Gateway.step]
    split
    · rename_i task_uuid tasks hr
      refine h.write hr (.cancel task_uuid) v none fun q hq => ?_
      cases hq
      exact ⟨none_keyed, fun t transport => nofun⟩
    · rename_i task_uuid tasks hr
      exact h.write hr (.retry task_uuid) v _ fun q hq => by cases hq
    · exact h
  | flag =>
    simp only [Gateway.step]
    split
    · exact h.setRequest rfl rfl (fun u hu => hu) fun q hq => by cases hq
    · exact h
  | exec i v =>
    simp only [Gateway.step]
    cases hx : g.executors[i]? with
    | none => exact h
    | some x => exact h.exec hx v

theorem bootGateway_owned (store : PersistentStore) : Owned (bootGateway store) := by
  have hno : ∀ o, (bootGateway store).owner o = none := by
    intro o
    cases o <;> rfl
  refine ⟨fun x hx => (by cases hx), fun src r hr => (by cases hr), fun o u hu => ?_,
    fun o o' u hu => ?_⟩
  · rw [hno] at hu
    cases hu
  · rw [hno] at hu
    cases hu

end EdgeLink.Ota
