import EdgeLink.OtaTasks

namespace EdgeLink.Ota
open Machine OtaTaskState

/-- The task that a call puts into memory, and its key, when the call gets that far. -/
def change (m : OtaTaskManager) (c : Call × Env) : Option (String × OtaTask) :=
  match c.1 with
  | .create device_id device_type firmware_id =>
    some (nowUuid c.2.uuidMs,
      ⟨nowUuid c.2.uuidMs, device_id, device_type, firmware_id, created, ""⟩)
  | .updateState task_uuid next _ => (m.tasks task_uuid).bind fun t =>
    if canTransition t.state next then some (task_uuid, { t with state := next }) else none
  | .fail task_uuid reason => (m.tasks task_uuid).map fun t =>
    (task_uuid, { t with state := failed, lastError := reason })
  | .cancel task_uuid => (m.tasks task_uuid).bind fun t =>
    if canTransition t.state canceled then some (task_uuid, { t with state := canceled }) else none
  | .retry task_uuid => (m.tasks task_uuid).bind fun t =>
    if t.state = failed ∨ t.state = canceled then
      some (task_uuid, { t with state := created, lastError := "" }) else none

def Call.creates : Call → Prop
  | .create .. => True
  | _ => False

instance (c : Call) : Decidable c.creates := by
  unfold Call.creates
  cases c <;> infer_instance

section Change
variable {m : OtaTaskManager} {v : Env} {task_uuid key : String} {t : OtaTask}

theorem change_updateState_iff {next : OtaTaskState} {detail : String} :
    change m (.updateState task_uuid next detail, v) = some (key, t) ↔ ∃ old,
      m.tasks task_uuid = some old ∧ canTransition old.state next = true ∧ task_uuid = key ∧
        { old with state := next } = t := by
  simp [change, Option.bind_eq_some_iff]

theorem change_fail_iff {reason : String} :
    change m (.fail task_uuid reason, v) = some (key, t) ↔ ∃ old,
      m.tasks task_uuid = some old ∧ task_uuid = key ∧
        { old with state := failed, lastError := reason } = t := by
  simp [change, Option.map_eq_some_iff]

theorem canTransition_canceled (s : OtaTaskState) : canTransition s canceled = true := by
  cases s <;> rfl

/-- The check in front of CANCELED never refuses. -/
theorem change_cancel_iff :
    change m (.cancel task_uuid, v) = some (key, t) ↔ ∃ old,
      m.tasks task_uuid = some old ∧ task_uuid = key ∧ { old with state := canceled } = t := by
  simp [change, Option.bind_eq_some_iff, canTransition_canceled]

theorem change_retry_iff :
    change m (.retry task_uuid, v) = some (key, t) ↔ ∃ old,
      m.tasks task_uuid = some old ∧ (old.state = failed ∨ old.state = canceled) ∧
        task_uuid = key ∧ { old with state := created, lastError := "" } = t := by
  simp [change, Option.bind_eq_some_iff]

end Change

/-- A call is refused, or it creates its task, or it puts its change into memory and store. -/
theorem step_cases (m : OtaTaskManager) (c : Call × Env) :
    (change m c = none ∧ ¬ c.1.creates ∧ ∃ err, step m c = (m, .failed err)) ∨
    (∃ device_id device_type firmware_id, c.1 = .create device_id device_type firmware_id) ∨
    ∃ task_uuid old t detail, change m c = some (task_uuid, t) ∧ ¬ c.1.creates ∧
      m.tasks task_uuid = some old ∧
      t = { old with state := t.state, lastError := t.lastError } ∧
      step m c = persist m c.2 task_uuid t detail := by
  obtain ⟨call, v⟩ := c
  cases call with
  | create device_id device_type firmware_id =>
    exact Or.inr (Or.inl ⟨device_id, device_type, firmware_id, rfl⟩)
  | updateState task_uuid next detail =>
    simp only [change, step, updateState]
    cases ht : m.tasks task_uuid with
    | none => exact Or.inl ⟨rfl, id, _, rfl⟩
    | some t =>
      by_cases hc : canTransition t.state next = true
      · exact Or.inr (Or.inr ⟨task_uuid, t, _, detail, if_pos hc, id, ht, rfl,
          if_neg (not_not.mpr hc)⟩)
      · exact Or.inl ⟨if_neg hc, id, _, if_pos hc⟩
  | fail task_uuid reason =>
    simp only [change, step, fail]
    cases ht : m.tasks task_uuid with
    | none => exact Or.inl ⟨rfl, id, _, rfl⟩
    | some t => exact Or.inr (Or.inr ⟨task_uuid, t, _, reason, rfl, id, ht, rfl, rfl⟩)
  | cancel task_uuid =>
    simp only [change, step, cancel]
    cases ht : m.tasks task_uuid with
    | none => exact Or.inl ⟨rfl, id, _, rfl⟩
    | some t =>
      by_cases hc : canTransition t.state canceled = true
      · exact Or.inr (Or.inr ⟨task_uuid, t, _, _, if_pos hc, id, ht, rfl, if_neg (not_not.mpr hc)⟩)
      · exact Or.inl ⟨if_neg hc, id, _, if_pos hc⟩
  | retry task_uuid =>
    simp only [change, step, retry]
    cases ht : m.tasks task_uuid with
    | none => exact Or.inl ⟨rfl, id, _, rfl⟩
    | some t =>
      by_cases hc : t.state = failed ∨ t.state = canceled
      · have hno : ¬ (t.state ≠ failed ∧ t.state ≠ canceled) := by tauto
        exact Or.inr (Or.inr ⟨task_uuid, t, _, _, if_pos hc, id, ht, rfl, if_neg hno⟩)
      · exact Or.inl ⟨if_neg hc, id, _, if_pos (not_or.mp hc)⟩

theorem persist_tasks (m : OtaTaskManager) (v : Env) (task_uuid : String) (t : OtaTask)
    (detail : String) :
    (persist m v task_uuid t detail).1.tasks = Function.update m.tasks task_uuid (some t) := by
  unfold persist
  cases v.saveError with
  | some err => rfl
  | none =>
    cases v.appendError with
    | some err => rfl
    | none => rfl

/-- Memory after a call, whatever the store did. -/
theorem step_tasks (m : OtaTaskManager) (c : Call × Env) : (step m c).1.tasks =
    match change m c with
    | none => m.tasks
    | some (task_uuid, t) => Function.update m.tasks task_uuid (some t) := by
  rcases step_cases m c with ⟨hc, -, err, hs⟩ | ⟨device_id, device_type, firmware_id, hc⟩ |
    ⟨task_uuid, old, t, detail, hc, -, -, -, hs⟩
  · rw [hs, hc]
  · obtain ⟨call, v⟩ := c
    obtain rfl : call = _ := hc
    rfl
  · rw [hs, hc, persist_tasks]

def ended : OtaTaskState → Prop
  | success | failed | rollback | canceled => True
  | _ => False

def failureTarget (s : OtaTaskState) : Prop := s = failed ∨ s = canceled ∨ s = rollback

/-- SUCCESS and ROLLBACK stay, FAILED and CANCELED stay or are retried. -/
def Lawful (m : OtaTaskManager) (c : Call × Env) : Prop :=
  ∀ task_uuid t, m.tasks task_uuid = some t → ∃ t', (step m c).1.tasks task_uuid = some t' ∧
    (t.state = success ∨ t.state = rollback → t'.state = t.state) ∧
    (t.state = failed ∨ t.state = canceled → t'.state = t.state ∨ c.1 = .retry task_uuid)

/-- No call moves an ended task to a failure state it is not in, and none creates over one. -/
def Gentle (m : OtaTaskManager) (c : Call × Env) : Prop :=
  match c.1 with
  | .create .. => ∀ t, m.tasks (nowUuid c.2.uuidMs) = some t → ¬ ended t.state
  | .updateState task_uuid next _ => ∀ t, m.tasks task_uuid = some t → ended t.state →
    failureTarget next → next = t.state
  | .fail task_uuid _ => ∀ t, m.tasks task_uuid = some t → ended t.state → t.state = failed
  | .cancel task_uuid => ∀ t, m.tasks task_uuid = some t → ended t.state → t.state = canceled
  | .retry _ => True

theorem ended_iff (s : OtaTaskState) :
    ended s ↔ (s = success ∨ s = rollback) ∨ s = failed ∨ s = canceled := by
  cases s <;> simp [ended]

/-- An ended task can only move to a failure state. -/
theorem canTransition_ended {s next : OtaTaskState} (hs : ended s) :
    canTransition s next = true ↔ next = s ∨ failureTarget next := by
  unfold canTransition failureTarget
  split_ifs with heq hf
  · exact ⟨fun _ => Or.inl heq.symm, fun _ => rfl⟩
  · exact ⟨fun _ => Or.inr hf, fun _ => rfl⟩
  · constructor
    · intro h
      cases s <;> first | exact hs.elim | cases h
    · rintro (h | h)
      · exact absurd h.symm heq
      · exact absurd h hf

/-- What the law asks of a task when call `c` replaces it by `t'`. -/
def LawfulChange (c : Call) (task_uuid : String) (t t' : OtaTask) : Prop :=
  (t.state = success ∨ t.state = rollback → t'.state = t.state) ∧
    (t.state = failed ∨ t.state = canceled → t'.state = t.state ∨ c = .retry task_uuid)

theorem lawful_none {m : OtaTaskManager} {c : Call × Env} (h : change m c = none) : Lawful m c := by
  intro task_uuid t ht
  refine ⟨t, ?_, fun _ => rfl, fun _ => Or.inl rfl⟩
  rw [step_tasks, h]
  exact ht

/-- The law looks at one task, the one that the call changes. -/
theorem lawful_some {m : OtaTaskManager} {c : Call × Env} {key : String} {new : OtaTask}
    (h : change m c = some (key, new)) :
    Lawful m c ↔ ∀ t, m.tasks key = some t → LawfulChange c.1 key t new := by
  have hself : (step m c).1.tasks key = some new := by
    rw [step_tasks, h]
    exact Function.update_self ..
  constructor
  · intro hlaw t ht
    obtain ⟨t', hin, hkeep⟩ := hlaw key t ht
    rw [hself] at hin
    cases hin
    exact hkeep
  · intro hlaw task_uuid t ht
    by_cases hk : task_uuid = key
    · rw [hk] at ht ⊢
      exact ⟨new, hself, hlaw t ht⟩
    · refine ⟨t, ?_, fun _ => rfl, fun _ => Or.inl rfl⟩
      rw [step_tasks, h]
      dsimp only
      rw [Function.update_of_ne hk]
      exact ht

/-- For calls other than `retry` it says that an ended task keeps its state. -/
theorem lawfulChange_iff {c : Call} {task_uuid : String} (hc : c ≠ .retry task_uuid)
    (t t' : OtaTask) :
    LawfulChange c task_uuid t t' ↔ (ended t.state → t'.state = t.state) := by
  unfold LawfulChange
  rw [ended_iff]
  tauto

/-- The law looks at the task that the call changes, if it changes one. -/
theorem lawful_iff_change {m : OtaTaskManager} {c : Call × Env} :
    Lawful m c ↔ ∀ key t t', change m c = some (key, t') → m.tasks key = some t →
      LawfulChange c.1 key t t' := by
  cases hc : change m c with
  | none => exact iff_of_true (lawful_none hc) fun key t t' h => by cases h
  | some x =>
    obtain ⟨key, t'⟩ := x
    rw [lawful_some hc]
    constructor
    · intro h key' t t'' hx ht
      cases hx
      exact h t ht
    · exact fun h t ht => h key t t' rfl ht

theorem step_lawful_iff (m : OtaTaskManager) (c : Call × Env) : Gentle m c ↔ Lawful m c := by
  obtain ⟨call, v⟩ := c
  rw [lawful_iff_change]
  cases call with
  | create device_id device_type firmware_id =>
    constructor
    · intro hgentle key t t' hc ht
      cases hc
      rw [lawfulChange_iff (by simp)]
      exact fun hend => absurd hend (hgentle t ht)
    -- the new task is in CREATED, so the old one was not ended
    · intro hlaw t ht hend
      have hkeep := (lawfulChange_iff (by simp) _ _).mp (hlaw _ t _ rfl ht) hend
      rw [← hkeep] at hend
      exact hend
  | updateState task_uuid next detail =>
    constructor
    · intro hgentle key t t' hc ht
      obtain ⟨old, hold, hcan, rfl, rfl⟩ := change_updateState_iff.mp hc
      obtain rfl := Option.some.inj (ht.symm.trans hold)
      rw [lawfulChange_iff (by simp)]
      intro hend
      rcases (canTransition_ended hend).mp hcan with hnext | hnext
      · exact hnext
      · exact hgentle t ht hend hnext
    · intro hlaw t ht hend hfail
      have hcan := (canTransition_ended hend).mpr (Or.inr hfail)
      have hchange := hlaw _ t _ (change_updateState_iff.mpr ⟨t, ht, hcan, rfl, rfl⟩) ht
      exact (lawfulChange_iff (by simp) _ _).mp hchange hend
  | fail task_uuid reason =>
    constructor
    · intro hgentle key t t' hc ht
      obtain ⟨old, hold, rfl, rfl⟩ := change_fail_iff.mp hc
      obtain rfl := Option.some.inj (ht.symm.trans hold)
      rw [lawfulChange_iff (by simp)]
      exact fun hend => (hgentle t ht hend).symm
    · intro hlaw t ht hend
      have hchange := hlaw _ t _ (change_fail_iff.mpr ⟨t, ht, rfl, rfl⟩) ht
      exact ((lawfulChange_iff (by simp) _ _).mp hchange hend).symm
  | cancel task_uuid =>
    constructor
    · intro hgentle key t t' hc ht
      obtain ⟨old, hold, rfl, rfl⟩ := change_cancel_iff.mp hc
      obtain rfl := Option.some.inj (ht.symm.trans hold)
      rw [lawfulChange_iff (by simp)]
      exact fun hend => (hgentle t ht hend).symm
    · intro hlaw t ht hend
      have hchange := hlaw _ t _ (change_cancel_iff.mpr ⟨t, ht, rfl, rfl⟩) ht
      exact ((lawfulChange_iff (by simp) _ _).mp hchange hend).symm
  | retry task_uuid =>
    refine ⟨fun _ key t t' hc ht => ?_, fun _ => trivial⟩
    obtain ⟨old, hold, hs, rfl, rfl⟩ := change_retry_iff.mp hc
    obtain rfl := Option.some.inj (ht.symm.trans hold)
    refine ⟨fun hend => ?_, fun _ => Or.inr rfl⟩
    rcases hend with hend | hend <;> rw [hend] at hs <;> rcases hs with h | h <;> cases h

/-- Over every run, ended tasks stay ended exactly as long as all calls are gentle. -/
theorem ended_stays_iff (m : OtaTaskManager) (calls : List (Call × Env)) :
    Always step Gentle m calls ↔ Always step Lawful m calls := by
  apply always_iff_of_invariant (I := fun _ => True)
  · exact fun _ _ _ _ => trivial
  · exact fun m c _ => step_lawful_iff m c
  · trivial

/-- A finished update, as the store has it. -/
def doneStore : PersistentStore :=
  ⟨fun task_uuid => if task_uuid = "ota-1" then some ⟨1, "stm32f407", "fw-1", "SUCCESS", ""⟩
    else none, []⟩

theorem cancel_reopens : ¬ Always step Lawful (openManager doneStore)
    [(.cancel "ota-1", ⟨0, 0, none, none⟩)] := by
  intro h
  obtain ⟨t', hin, hkeep, -⟩ := h.1 "ota-1" ⟨"ota-1", 1, "stm32f407", "fw-1", success, ""⟩
    (by decide +kernel)
  have hcancel : (step (openManager doneStore) (.cancel "ota-1", ⟨0, 0, none, none⟩)).1.tasks
      "ota-1" = some ⟨"ota-1", 1, "stm32f407", "fw-1", canceled, ""⟩ := by decide +kernel
  rw [hcancel] at hin
  cases hin
  cases hkeep (Or.inl rfl)

def NoNul (s : String) : Prop := '\x00' ∉ s.toList

/-- A call that reports an error leaves memory alone, a new task has a new name, and memory is what
the store would be read back as. -/
def Agrees (m : OtaTaskManager) (c : Call × Env) : Prop :=
  (∀ err, (step m c).2.error = some err → (step m c).1.tasks = m.tasks) ∧
    (∀ t err, (step m c).2 = .created t err → m.tasks t.taskUuid = none) ∧
    (step m c).1.tasks = loadTasks (step m c).1.store

def Stored (v : Env) : Prop := v.saveError = none ∧ v.appendError = none

/-- A new task is stored, under a name that is free; any other call changes nothing or is stored. -/
def Sound (m : OtaTaskManager) (c : Call × Env) : Prop :=
  match c.1 with
  | .create _ device_type firmware_id => m.tasks (nowUuid c.2.uuidMs) = none ∧
    Stored c.2 ∧ NoNul device_type ∧ NoNul firmware_id
  | .updateState task_uuid next _ => ∀ t, m.tasks task_uuid = some t →
    canTransition t.state next = true → t.state = next ∨ Stored c.2
  | .fail task_uuid reason => ∀ t, m.tasks task_uuid = some t →
    (t.state = failed ∧ t.lastError = reason) ∨ (Stored c.2 ∧ NoNul reason)
  | .cancel task_uuid => ∀ t, m.tasks task_uuid = some t → t.state = canceled ∨ Stored c.2
  | .retry task_uuid => ∀ t, m.tasks task_uuid = some t → t.state = failed ∨ t.state = canceled →
    Stored c.2

theorem columnText_eq_iff (s : String) : columnText s = s ↔ NoNul s := by
  have hinj : columnText s = s ↔ s.toList.takeWhile (· ≠ '\x00') = s.toList := by
    rw [columnText, ← String.toList_inj, String.toList_ofList]
  rw [hinj, List.takeWhile_eq_self_iff, NoNul]
  constructor
  · intro h hmem
    exact absurd (h _ hmem) (by simp)
  · intro h x hx
    simp only [ne_eq, decide_eq_true_eq]
    intro hnul
    exact h (hnul ▸ hx)

theorem columnText_idem (s : String) : columnText (columnText s) = columnText s := by
  rw [columnText_eq_iff, NoNul, columnText, String.toList_ofList]
  intro h
  exact absurd (List.mem_takeWhile_imp h) (by simp)

theorem loadTasks_saveTask (s : PersistentStore) (t : OtaTask) : loadTasks (saveTask s t) =
    Function.update (loadTasks s) t.taskUuid (some (rowTask t.taskUuid (taskRow t))) := by
  funext task_uuid
  unfold loadTasks saveTask
  by_cases h : task_uuid = t.taskUuid
  · rw [h]
    simp only [Function.update_self, Option.map_some]
  · simp only [Function.update_of_ne h]

theorem loadTasks_appendEvent (s : PersistentStore) (e : OtaTaskEvent) :
    loadTasks (appendEvent s e) = loadTasks s := by
  unfold loadTasks appendEvent
  rfl

theorem rowTask_taskRow (task_uuid : String) (t : OtaTask) : rowTask task_uuid (taskRow t) =
    ⟨task_uuid, t.deviceId, columnText t.deviceType, columnText t.firmwareId, t.state,
      columnText t.lastError⟩ := by
  unfold rowTask taskRow
  simp only [fromString_stateText, Option.getD_some]

/-- What was read from the store reads back the same. -/
theorem loaded_text {s : PersistentStore} {task_uuid : String} {t : OtaTask}
    (h : loadTasks s task_uuid = some t) : t.taskUuid = task_uuid ∧
      columnText t.deviceType = t.deviceType ∧ columnText t.firmwareId = t.firmwareId ∧
      columnText t.lastError = t.lastError := by
  obtain ⟨r, -, rfl⟩ := Option.map_eq_some_iff.mp h
  exact ⟨rfl, columnText_idem _, columnText_idem _, columnText_idem _⟩

theorem update_eq_iff {α β : Type*} [DecidableEq α] {f : α → Option β} {a : α} {b : β}
    {old : β} (h : f a = some old) : Function.update f a (some b) = f ↔ b = old := by
  constructor
  · intro he
    have ha := congrFun he a
    rw [Function.update_self, h] at ha
    exact Option.some.inj ha
  · rintro rfl
    rw [← h, Function.update_eq_self]

theorem update_inj {α β : Type*} [DecidableEq α] {f : α → Option β} {a : α} {b b' : β} :
    Function.update f a (some b) = Function.update f a (some b') ↔ b = b' := by
  constructor
  · intro he
    have ha := congrFun he a
    rw [Function.update_self, Function.update_self] at ha
    exact Option.some.inj ha
  · rintro rfl
    rfl

/-- A change is reported and stored faithfully if it changes nothing or both writes succeed. -/
theorem persist_agrees_iff {m : OtaTaskManager} {v : Env} {task_uuid detail : String}
    {old t : OtaTask} (hm : m.tasks = loadTasks m.store) (hold : m.tasks task_uuid = some old)
    (ht : t = { old with state := t.state, lastError := t.lastError }) :
    ((∀ err, (persist m v task_uuid t detail).2.error = some err →
        (persist m v task_uuid t detail).1.tasks = m.tasks) ∧
      (persist m v task_uuid t detail).1.tasks =
        loadTasks (persist m v task_uuid t detail).1.store) ↔
      t = old ∨ (Stored v ∧ NoNul t.lastError) := by
  obtain ⟨huuid, htype, hfw, herr⟩ := loaded_text (hm ▸ hold)
  have hkey : t.taskUuid = task_uuid := by rw [ht, huuid]
  have hrow : t = rowTask t.taskUuid (taskRow t) ↔ NoNul t.lastError := by
    rw [eq_comm, rowTask_taskRow, ← columnText_eq_iff]
    have hty : columnText t.deviceType = t.deviceType := by rw [ht, htype]
    have hfi : columnText t.firmwareId = t.firmwareId := by rw [ht, hfw]
    rw [hty, hfi]
    constructor
    · exact fun h => congrArg OtaTask.lastError h
    · intro h
      rw [h]
  have hclean : t = old → NoNul t.lastError := fun h => h ▸ (columnText_eq_iff _).mp herr
  have hload : loadTasks (saveTask m.store t) =
      Function.update m.tasks task_uuid (some (rowTask t.taskUuid (taskRow t))) := by
    rw [loadTasks_saveTask, ← hm, hkey]
  rw [persist_tasks, update_eq_iff hold]
  unfold persist Stored
  cases v.saveError with
  | some err =>
    dsimp only
    rw [← hm, update_eq_iff hold]
    simp [Outcome.error]
  | none =>
    cases v.appendError with
    | some err =>
      dsimp only
      rw [hload, update_inj, hrow]
      simp only [Outcome.error, Option.some.injEq, forall_eq', reduceCtorEq, and_false, false_and, or_false]
      exact ⟨fun h => h.1, fun h => ⟨h, hclean h⟩⟩
    | none =>
      dsimp only
      rw [loadTasks_appendEvent, hload, update_inj, hrow]
      simp only [Outcome.error, reduceCtorEq, false_implies, implies_true, true_and, and_self]
      exact ⟨fun h => Or.inr h, fun h => h.elim hclean id⟩

theorem persist_outcome (m : OtaTaskManager) (v : Env) (task_uuid : String) (t : OtaTask)
    (detail : String) :
    ∀ t' err, (persist m v task_uuid t detail).2 ≠ .created t' err := by
  intro t' err
  unfold persist
  cases v.saveError with
  | some err => simp
  | none =>
    cases v.appendError with
    | some err => simp
    | none => simp

/-- For a call that does not create, a task is found and changed. -/
theorem agrees_of_persist {m : OtaTaskManager} {c : Call × Env} {task_uuid detail : String}
    {old t : OtaTask} (hm : m.tasks = loadTasks m.store) (hold : m.tasks task_uuid = some old)
    (ht : t = { old with state := t.state, lastError := t.lastError })
    (hs : step m c = persist m c.2 task_uuid t detail) :
    Agrees m c ↔ t = old ∨ (Stored c.2 ∧ NoNul t.lastError) := by
  rw [← @persist_agrees_iff m c.2 task_uuid detail old t hm hold ht]
  unfold Agrees
  rw [hs]
  constructor
  · exact fun h => ⟨h.1, h.2.2⟩
  · exact fun h => ⟨h.1, fun t' err hc => absurd hc (persist_outcome _ _ _ _ _ t' err), h.2⟩

theorem agrees_of_refused {m : OtaTaskManager} {c : Call × Env} {err : String}
    (hm : m.tasks = loadTasks m.store) (hs : step m c = (m, .failed err)) : Agrees m c := by
  unfold Agrees
  rw [hs]
  refine ⟨fun _ _ => rfl, fun t err h => ?_, hm⟩
  cases h

theorem create_agrees_iff {m : OtaTaskManager} (v : Env) (device_id : UInt8)
    (device_type firmware_id : String) (hm : m.tasks = loadTasks m.store) :
    Agrees m (.create device_id device_type firmware_id, v) ↔
      m.tasks (nowUuid v.uuidMs) = none ∧ Stored v ∧ NoNul device_type ∧ NoNul firmware_id := by
  let t : OtaTask := ⟨nowUuid v.uuidMs, device_id, device_type, firmware_id, created, ""⟩
  have hempty : columnText "" = "" := by decide +kernel
  have hrow : t = rowTask t.taskUuid (taskRow t) ↔ NoNul device_type ∧ NoNul firmware_id := by
    rw [rowTask_taskRow, ← columnText_eq_iff, ← columnText_eq_iff]
    simp only [t, OtaTask.mk.injEq, true_and, hempty, and_true]
    exact and_congr eq_comm eq_comm
  have hput : (create m v device_id device_type firmware_id).1.tasks =
      Function.update m.tasks (nowUuid v.uuidMs) (some t) := rfl
  -- the new task is in memory in any case, so nothing may have gone wrong
  have hgrown : m.tasks (nowUuid v.uuidMs) = none →
      Function.update m.tasks (nowUuid v.uuidMs) (some t) ≠ m.tasks := by
    intro hfree he
    have ha := congrFun he (nowUuid v.uuidMs)
    rw [Function.update_self, hfree] at ha
    cases ha
  have hsaved : Stored v → (loadTasks (create m v device_id device_type firmware_id).1.store =
      Function.update m.tasks (nowUuid v.uuidMs) (some (rowTask t.taskUuid (taskRow t)))) := by
    rintro ⟨hs, ha⟩
    unfold create
    rw [hs, ha]
    dsimp only
    rw [loadTasks_appendEvent, loadTasks_saveTask, hm]
  have herr : v.appendError.or v.saveError = none ↔ Stored v := by
    rw [Option.or_eq_none_iff, Stored, and_comm]
  constructor
  · rintro ⟨hfail, hnew, hsame⟩
    have hfree : m.tasks (nowUuid v.uuidMs) = none := hnew t _ rfl
    have hstored : Stored v := by
      rw [← herr, Option.eq_none_iff_forall_ne_some]
      intro err he
      exact hgrown hfree (hput ▸ hfail err he)
    refine ⟨hfree, hstored, hrow.mp ?_⟩
    exact update_inj.mp (hput.symm.trans (hsame.trans (hsaved hstored)))
  · rintro ⟨hfree, hstored, htext⟩
    refine ⟨fun err he => ?_, fun t' err he => ?_, ?_⟩
    · have hnone : v.appendError.or v.saveError = some err := he
      rw [herr.mpr hstored] at hnone
      cases hnone
    · cases he
      exact hfree
    · show (create m v device_id device_type firmware_id).1.tasks = _
      rw [hput]
      exact (update_inj.mpr (hrow.mpr htext)).trans (hsaved hstored).symm

theorem withState_eq_iff {t : OtaTask} {next : OtaTaskState} :
    { t with state := next } = t ↔ t.state = next :=
  ⟨fun h => (congrArg OtaTask.state h).symm, fun h => by rw [← h]⟩

theorem step_agrees_iff {m : OtaTaskManager} (hm : m.tasks = loadTasks m.store) (c : Call × Env) :
    Sound m c ↔ Agrees m c := by
  obtain ⟨call, v⟩ := c
  rcases step_cases m (call, v) with ⟨hc, hno, err, hs⟩ | ⟨device_id, device_type, firmware_id, hc⟩ |
    ⟨task_uuid, old, t, detail, hc, hno, hold, ht, hs⟩
  · -- refused: the guard of the call fails
    refine ⟨fun _ => agrees_of_refused hm hs, fun _ => ?_⟩
    cases call with
    | create device_id device_type firmware_id => exact absurd trivial hno
    | updateState task_uuid next detail =>
      intro t ht hcan
      cases hc.symm.trans (change_updateState_iff.mpr ⟨t, ht, hcan, rfl, rfl⟩)
    | fail task_uuid reason =>
      intro t ht
      cases hc.symm.trans (change_fail_iff.mpr ⟨t, ht, rfl, rfl⟩)
    | cancel task_uuid =>
      intro t ht
      cases hc.symm.trans (change_cancel_iff.mpr ⟨t, ht, rfl, rfl⟩)
    | retry task_uuid =>
      intro t ht hstate
      cases hc.symm.trans (change_retry_iff.mpr ⟨t, ht, hstate, rfl, rfl⟩)
  · obtain rfl : call = _ := hc
    exact (create_agrees_iff v device_id device_type firmware_id hm).symm
  · rw [agrees_of_persist hm hold ht hs]
    obtain ⟨-, -, -, herr⟩ := loaded_text (hm ▸ hold)
    have hclean : NoNul old.lastError := (columnText_eq_iff _).mp herr
    cases call with
    | create device_id device_type firmware_id => exact absurd trivial hno
    | updateState key next text =>
      obtain ⟨t', hkey, hcan, rfl, rfl⟩ := change_updateState_iff.mp hc
      obtain rfl : t' = old := Option.some.inj (hkey.symm.trans hold)
      simp only [Sound, hold, Option.some.injEq, forall_eq', hcan, true_implies, withState_eq_iff,
        hclean, and_true]
    | fail key reason =>
      obtain ⟨t', hkey, rfl, rfl⟩ := change_fail_iff.mp hc
      obtain rfl : t' = old := Option.some.inj (hkey.symm.trans hold)
      have hsame : { t' with state := failed, lastError := reason } = t' ↔
          t'.state = failed ∧ t'.lastError = reason :=
        ⟨fun h => ⟨(congrArg OtaTask.state h).symm, (congrArg OtaTask.lastError h).symm⟩,
          fun h => by rw [← h.1, ← h.2]⟩
      simp only [Sound, hold, Option.some.injEq, forall_eq', hsame]
    | cancel key =>
      obtain ⟨t', hkey, rfl, rfl⟩ := change_cancel_iff.mp hc
      obtain rfl : t' = old := Option.some.inj (hkey.symm.trans hold)
      simp only [Sound, hold, Option.some.injEq, forall_eq', withState_eq_iff, hclean, and_true]
    | retry key =>
      obtain ⟨t', hkey, hstate, rfl, rfl⟩ := change_retry_iff.mp hc
      obtain rfl : t' = old := Option.some.inj (hkey.symm.trans hold)
      -- a retried task was not in CREATED
      have hsame : { t' with state := created, lastError := "" } ≠ t' := by
        intro h
        have hst := congrArg OtaTask.state h
        rcases hstate with h' | h' <;> rw [h'] at hst <;> cases hst
      have hempty : NoNul "" := by simp [NoNul]
      simp only [Sound, hold, Option.some.injEq, forall_eq', hstate, true_implies, hsame, hempty,
        false_or, and_true]

/-- Over every run of a manager opened on a store, memory and store agree after each call exactly as
long as all calls are sound. -/
theorem memory_agrees_iff (s : PersistentStore) (calls : List (Call × Env)) :
    Always step Sound (openManager s) calls ↔ Always step Agrees (openManager s) calls := by
  apply always_iff_of_invariant (I := fun m => m.tasks = loadTasks m.store)
  · exact fun m c hm hc => ((step_agrees_iff hm c).mp hc).2.2
  · exact fun m c hm => step_agrees_iff hm c
  · rfl

theorem failed_save_remembered : ¬ Always step Agrees (openManager doneStore)
    [(.cancel "ota-1", ⟨0, 0, some "execute saveTask failed", none⟩)] := by
  intro h
  have hkept := congrFun (h.1.1 "execute saveTask failed" (by decide +kernel)) "ota-1"
  have hcancel : (step (openManager doneStore)
      (.cancel "ota-1", ⟨0, 0, some "execute saveTask failed", none⟩)).1.tasks "ota-1" =
      some ⟨"ota-1", 1, "stm32f407", "fw-1", canceled, ""⟩ := by decide +kernel
  have hopen : (openManager doneStore).tasks "ota-1" =
      some ⟨"ota-1", 1, "stm32f407", "fw-1", success, ""⟩ := by decide +kernel
  rw [hcancel, hopen] at hkept
  cases hkept

end EdgeLink.Ota
