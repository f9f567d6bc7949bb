import EdgeLink.OtaRequests

namespace EdgeLink.Ota
open Machine OtaTaskState

/-! A worker on its course: its place in the code, its copy of the task, and the row. -/

/-- The task is stored in a terminal state, or not at all. -/
def Over (s : PersistentStore) (task_uuid : String) : Prop :=
  ∀ st ∈ storedState s task_uuid, ended st

instance : DecidablePred ended := fun s => by
  unfold ended
  cases s <;> infer_instance

instance (s : PersistentStore) (u : String) : Decidable (Over s u) := by
  unfold Over
  infer_instance

/-- The worker has not read the tasks. -/
def Pc.early : Pc → Bool
  | .start | .rejectRelease | .rejectLoad | .load => true
  | _ => false

/-- It has made its last write. -/
def Pc.late : Pc → Bool
  | .rejectClear | .clearCancel | .unlock | .unmute | .leave | .release | .done => true
  | _ => false

def Stage.before : Stage → OtaTaskState
  | waitDeviceOnline => created
  | precheck => .waitDeviceOnline
  | prepareDevice => .precheck
  | transferring => .prepareDevice
  | verifying => .transferring
  | committing => .verifying
  | rebooting => .committing
  | versionCheck => .rebooting
  | healthConfirm => .versionCheck

/-- The state that its copy of the task should have. -/
def Pc.expects : Pc → Option OtaTaskState
  | .resetCancel | .enterDevice | .firstPoll => some created
  | .update next => some next.before
  | .poll passed => some passed.state
  | .firmware => some precheck
  | .dispatch | .mute | .lock | .image | .enterMode | .hello | .runPoll | .exchange | .progress
  | .esp32Send | .esp32Wait | .esp32Report _ _ | .runDone _ _ => some transferring
  | .succeed => some healthConfirm
  | _ => none

structure Executor.OnCourse (x : Executor) (s : PersistentStore) : Prop where
  early : x.pc.early = true → ∀ st ∈ storedState s x.taskUuid, st = created ∨ ended st
  late : x.pc.late = true → Over s x.taskUuid
  copy : x.pc.early = false → x.pc.late = false →
    (x.tasks x.taskUuid).isSome = true ∨ Over s x.taskUuid
  state : ∀ st ∈ x.pc.expects, ∀ t ∈ x.tasks x.taskUuid,
    t.state = st ∨ ended t.state ∧ Over s x.taskUuid

/-- The steps that a task cannot do without: the worker reads the tasks, and makes its last write. -/
def Pc.needs (pc : Pc) (v : Input) : Prop :=
  match pc with
  | .rejectLoad | .load => v.opened = true
  | .reject | .succeed | .failing _ | .canceling => v.env.saveError = none
  | _ => True

instance (pc : Pc) (v : Input) : Decidable (pc.needs v) := by
  unfold Pc.needs
  split <;> infer_instance

/-- The row is terminal now, or was before and still is. -/
theorem Executor.OnCourse.congr {x : Executor} {s s' : PersistentStore} (h : x.OnCourse s)
    (hs : storedState s' x.taskUuid = storedState s x.taskUuid ∨ Over s' x.taskUuid) :
    x.OnCourse s' := by
  have hkeep : Over s x.taskUuid → Over s' x.taskUuid := by
    intro ho
    rcases hs with hs | hs
    · unfold Over
      rw [hs]
      exact ho
    · exact hs
  refine ⟨fun he => ?_, fun ho => hkeep (h.late ho), fun he ho => (h.copy he ho).imp_right hkeep,
    fun st hst t ht => (h.state st hst t ht).imp_right fun hst => ⟨hst.1, hkeep hst.2⟩⟩
  rcases hs with hs | hs
  · rw [hs]
    exact h.early he
  · exact fun st hst => Or.inr (hs st hst)

theorem Over.congr {s s' : PersistentStore} {u : String} (h : Over s u)
    (hs : storedState s' u = storedState s u) : Over s' u := by
  unfold Over
  rw [hs]
  exact h

section Step
variable {x : Executor} {sh : Shared} {v : Input}

theorem Over.saved {m : OtaTaskManager} {c : Call × Env} (hk : Keyed m.tasks) {u : String}
    {t : OtaTask} (hc : change m c = some (u, t)) (ht : ended t.state)
    (hs : Over m.store u ∨ c.2.saveError = none) : Over (Ota.step m c).1.store u := by
  unfold Over
  rw [step_storedState hk hc]
  split_ifs with hsave
  · intro st hst
    cases hst
    exact ht
  · exact hs.resolve_right hsave

theorem Over.refused {m : OtaTaskManager} {c : Call × Env} (hk : Keyed m.tasks) {u : String}
    (hc : change m c = none) (hs : Over m.store u) : Over (Ota.step m c).1.store u := by
  have hrow := congrFun (step_rows c hk) u
  rw [hc] at hrow
  unfold Over
  rw [storedState_congr hrow]
  exact hs

/-- The last write of a worker: it makes the task terminal, where the worker has the task. -/
theorem Over.closing {m : OtaTaskManager} {c : Call × Env} (hk : Keyed m.tasks) {u : String}
    (hcopy : (m.tasks u).isSome = true ∨ Over m.store u) (hs : Over m.store u ∨ c.2.saveError = none)
    (hnone : m.tasks u = none → change m c = none)
    (hsome : ∀ t ∈ m.tasks u, change m c = none ∧ Over m.store u ∨
      ∃ t', change m c = some (u, t') ∧ ended t'.state) : Over (Ota.step m c).1.store u := by
  cases ht : m.tasks u with
  | none =>
    rw [ht] at hcopy
    exact Over.refused hk (hnone ht) (hcopy.resolve_left nofun)
  | some t =>
    rcases hsome t ht with ⟨hc, hover⟩ | ⟨t', hc, hend⟩
    · exact Over.refused hk hc hover
    · exact Over.saved hk hc hend hs

/-- An update on the way, from the state where the copy should be, unless the task was terminal when
the worker read it. -/
theorem updateState_course (m : OtaTaskManager) (v : Env) (u detail : String)
    {st next : OtaTaskState} (hk : Keyed m.tasks) (hcan : canTransition st next = true) (hnext : ¬ ended next)
    (hcopy : (m.tasks u).isSome = true ∨ Over m.store u)
    (hstate : ∀ t ∈ m.tasks u, t.state = st ∨ ended t.state ∧ Over m.store u) :
    ((((Ota.step m (.updateState u next detail, v)).1.tasks u).isSome = true ∨
        Over (Ota.step m (.updateState u next detail, v)).1.store u)) ∧
      ∀ t ∈ (Ota.step m (.updateState u next detail, v)).1.tasks u, t.state = next ∨
        ended t.state ∧ Over (Ota.step m (.updateState u next detail, v)).1.store u := by
  have hrefused : change m (.updateState u next detail, v) = none → Over m.store u →
      (Ota.step m (.updateState u next detail, v)).1.tasks = m.tasks ∧
        Over (Ota.step m (.updateState u next detail, v)).1.store u := by
    intro hc ho
    refine ⟨?_, Over.refused hk hc ho⟩
    rw [Ota.step_tasks, hc]
  cases ht : m.tasks u with
  | none =>
    rw [ht] at hcopy
    obtain ⟨htasks, hover⟩ := hrefused (by simp [change, ht]) (hcopy.resolve_left nofun)
    refine ⟨Or.inr hover, fun t hmem => ?_⟩
    rw [htasks, ht] at hmem
    cases hmem
  | some t =>
    rcases hstate t ht with hst | ⟨hend, ho⟩
    · have hc : change m (.updateState u next detail, v) = some (u, { t with state := next }) := by
        simp only [change, ht, Option.bind_some, hst, hcan, if_true]
      have htasks : (Ota.step m (.updateState u next detail, v)).1.tasks u =
          some { t with state := next } := by
        rw [Ota.step_tasks, hc]
        exact Function.update_self ..
      rw [htasks]
      refine ⟨Or.inl rfl, fun t' ht' => ?_⟩
      cases ht'
      exact Or.inl rfl
    · -- a terminal task only moves to a failure state
      have hno : ¬ canTransition t.state next = true := by
        rw [canTransition_ended hend]
        rintro (rfl | hf)
        · exact hnext hend
        · rcases hf with rfl | rfl | rfl <;> exact hnext trivial
      obtain ⟨htasks, hover⟩ := hrefused
        (by simp only [change, ht, Option.bind_some, if_neg hno]) ho
      rw [htasks, ht]
      refine ⟨Or.inl rfl, fun t' ht' => ?_⟩
      cases ht'
      exact Or.inr ⟨hend, hover⟩

/-- Where a worker goes from `pc` without a call. -/
def Pc.follows (pc pc' : Pc) : Prop :=
  pc'.early = false ∧ pc'.late = false ∧ ∀ st ∈ pc'.expects, st ∈ pc.expects

theorem Stage.go_follows (s : Stage) : (Pc.poll s).follows s.go := by
  cases s <;> exact ⟨rfl, rfl, fun st hst => hst⟩

theorem verdict_follows (device_type : String) (ok ok' : Bool) (err err' : String) :
    (Pc.runDone ok' err').follows (verdict device_type ok err) := by
  unfold verdict
  split_ifs <;> exact ⟨rfl, rfl, fun st hst => (by first | exact hst | cases hst)⟩

theorem Executor.step_follows (x : Executor) (sh : Shared) (v : Input) (he : x.pc.early = false)
    (hl : x.pc.late = false) (hc : x.call v = none) : x.pc.follows (x.step sh v).2.pc := by
  obtain ⟨task_uuid, device_type, transport, device_id, pc, tasks, entered, muted, locked⟩ := x
  cases pc with
  | poll passed =>
    simp only [Executor.step, Executor.unlessCanceled, Executor.goto]
    split_ifs
    · exact ⟨rfl, rfl, fun st hst => by cases hst⟩
    · exact passed.go_follows
  | exchange =>
    simp only [Executor.step, Executor.goto]
    cases v.link <;> exact ⟨rfl, rfl, fun st hst => hst⟩
  | runDone ok err =>
    simp only [Executor.step, Executor.unlessCanceled, Executor.goto]
    split_ifs
    · exact ⟨rfl, rfl, fun st hst => by cases hst⟩
    · exact verdict_follows ..
  | start | rejectRelease | rejectLoad | load => cases he
  | rejectClear | clearCancel | unlock | unmute | leave | release | done => cases hl
  | update | reject | progress | esp32Report | succeed | failing | canceling => cases hc
  | _ =>
    simp only [Executor.step, Executor.unlessCanceled, Executor.goto]
    first
      | exact ⟨rfl, rfl, fun st hst => hst⟩
      | (split_ifs <;> exact ⟨rfl, rfl, fun st hst => (by first | exact hst | cases hst)⟩)

theorem OnCourse.of_late {s : PersistentStore} (hl : x.pc.late = true) (h : Over s x.taskUuid) :
    x.OnCourse s := by
  refine ⟨fun he => ?_, fun _ => h, fun _ hn => absurd hl (by rw [hn]; decide), fun st hst => ?_⟩
  · revert hl he
    cases x.pc <;> simp [Pc.late, Pc.early]
  · revert hl hst
    cases x.pc <;> simp [Pc.late, Pc.expects]

theorem Executor.OnCourse.step_late (h : x.OnCourse sh.store) (hl : x.pc.late = true) :
    (x.step sh v).2.OnCourse (x.step sh v).1.store := by
  have hover := h.late hl
  obtain ⟨task_uuid, device_type, transport, device_id, pc, tasks, entered, muted, locked⟩ := x
  cases pc <;> first
    | exact OnCourse.of_late rfl hover
    | cases hl

theorem Executor.OnCourse.step_early (h : x.OnCourse sh.store) (he : x.pc.early = true)
    (hrow : (storedState sh.store x.taskUuid).isSome = true)
    (hn : Over sh.store x.taskUuid ∨ x.pc.needs v) :
    (x.step sh v).2.OnCourse (x.step sh v).1.store := by
  have hstart := h.early he
  -- the copy is that of the store, where it opens
  have hcopy : v.opened = true ∨ Over sh.store x.taskUuid →
      (openTasks sh.store v.opened x.taskUuid).isSome = true ∨ Over sh.store x.taskUuid := by
    rintro (hop | hover)
    · left
      rw [hop]
      simpa [storedState, openTasks] using hrow
    · exact Or.inr hover
  have hread : ∀ t ∈ openTasks sh.store v.opened x.taskUuid,
      t.state = created ∨ ended t.state ∧ Over sh.store x.taskUuid := by
    intro t ht
    cases hop : v.opened with
    | false =>
      rw [hop] at ht
      cases ht
    | true =>
      rw [hop] at ht
      have hst : storedState sh.store x.taskUuid = some t.state := by
        rw [storedState, show loadTasks sh.store x.taskUuid = some t from ht]
        rfl
      refine (hstart t.state hst).imp_right fun hend => ⟨hend, fun st hmem => ?_⟩
      rw [hst] at hmem
      cases hmem
      exact hend
  obtain ⟨task_uuid, device_type, transport, device_id, pc, tasks, entered, muted, locked⟩ := x
  cases pc with
  | start =>
    simp only [Executor.step, Executor.goto]
    split_ifs
    · exact ⟨fun _ => hstart, fun hl => (by cases hl), fun he => (by cases he), fun st hst => (by cases hst)⟩
    · exact ⟨fun _ => hstart, fun hl => (by cases hl), fun he => (by cases he), fun st hst => (by cases hst)⟩
  | rejectRelease =>
    exact ⟨fun _ => hstart, fun hl => (by cases hl), fun he => (by cases he), fun st hst => (by cases hst)⟩
  | rejectLoad =>
    exact ⟨fun he => (by cases he), fun hl => (by cases hl), fun _ _ => hcopy hn.symm,
      fun st hst => (by cases hst)⟩
  | load =>
    refine ⟨fun he => (by cases he), fun hl => (by cases hl), fun _ _ => hcopy hn.symm,
      fun st hst t ht => ?_⟩
    cases hst
    exact hread t ht
  | _ => cases he

theorem Executor.OnCourse.step_quiet (h : x.OnCourse sh.store) (he : x.pc.early = false)
    (hl : x.pc.late = false) (hc : x.call v = none) :
    (x.step sh v).2.OnCourse (x.step sh v).1.store := by
  obtain ⟨hearly, hlate, hexp⟩ := x.step_follows sh v he hl hc
  have hstore : (x.step sh v).1.store = sh.store := by rw [x.step_store, hc]
  have htasks : (x.step sh v).2.tasks = x.tasks := by
    rw [x.step_tasks, hc]
    dsimp only
    rw [if_neg]
    rintro (hpc | hpc) <;> rw [hpc] at he <;> cases he
  rw [hstore]
  refine ⟨fun hn => ?_, fun hn => ?_, fun _ _ => ?_, fun st hst t ht => ?_⟩
  · rw [hearly] at hn
    cases hn
  · rw [hlate] at hn
    cases hn
  · rw [htasks, x.step_uuid]
    exact h.copy he hl
  · rw [htasks, x.step_uuid] at ht
    rw [x.step_uuid]
    exact h.state st (hexp st hst) t ht

/-- The worker updates its task on the way. -/
theorem Executor.OnCourse.step_update (h : x.OnCourse sh.store) (hk : Keyed x.tasks)
    {st next : OtaTaskState} {detail : String} (he : x.pc.early = false) (hl : x.pc.late = false)
    (hc : x.call v = some (.updateState x.taskUuid next detail)) (hexp : x.pc.expects = some st)
    (hcan : canTransition st next = true) (hnext : ¬ ended next)
    (he' : (x.step sh v).2.pc.early = false) (hl' : (x.step sh v).2.pc.late = false)
    (hexp' : (x.step sh v).2.pc.expects = some next) :
    (x.step sh v).2.OnCourse (x.step sh v).1.store := by
  have hstore : (x.step sh v).1.store =
      (Ota.step ⟨x.tasks, sh.store⟩ (.updateState x.taskUuid next detail, v.env)).1.store := by
    rw [x.step_store, hc]
  have htasks : (x.step sh v).2.tasks =
      (Ota.step ⟨x.tasks, sh.store⟩ (.updateState x.taskUuid next detail, v.env)).1.tasks := by
    rw [x.step_tasks, hc]
  obtain ⟨hcopy, hstate⟩ := updateState_course ⟨x.tasks, sh.store⟩ v.env x.taskUuid detail hk hcan
    hnext (h.copy he hl) (h.state st hexp)
  rw [hstore]
  refine ⟨fun hn => ?_, fun hn => ?_, fun _ _ => ?_, fun st' hst t ht => ?_⟩
  · rw [he'] at hn
    cases hn
  · rw [hl'] at hn
    cases hn
  · rw [htasks, x.step_uuid]
    exact hcopy
  · rw [hexp'] at hst
    cases hst
    rw [htasks, x.step_uuid] at ht
    rw [x.step_uuid]
    exact hstate t ht

/-- The worker makes its last write. -/
theorem Executor.OnCourse.step_last (h : x.OnCourse sh.store) (hk : Keyed x.tasks) {c : Call}
    (he : x.pc.early = false) (hl : x.pc.late = false) (hc : x.call v = some c)
    (hs : Over sh.store x.taskUuid ∨ v.env.saveError = none)
    (hnone : x.tasks x.taskUuid = none → change ⟨x.tasks, sh.store⟩ (c, v.env) = none)
    (hsome : ∀ t ∈ x.tasks x.taskUuid,
      change ⟨x.tasks, sh.store⟩ (c, v.env) = none ∧ Over sh.store x.taskUuid ∨
      ∃ t', change ⟨x.tasks, sh.store⟩ (c, v.env) = some (x.taskUuid, t') ∧ ended t'.state)
    (hl' : (x.step sh v).2.pc.late = true) : (x.step sh v).2.OnCourse (x.step sh v).1.store := by
  apply OnCourse.of_late hl'
  rw [x.step_store, hc, x.step_uuid]
  exact Over.closing hk (h.copy he hl) hs hnone hsome

theorem Stage.canTransition (s : Stage) : canTransition s.before s.state = true := by
  cases s <;> rfl

theorem Stage.not_ended (s : Stage) : ¬ ended s.state := by
  cases s <;> exact id

theorem Executor.OnCourse.step_fail (h : x.OnCourse sh.store) (hk : Keyed x.tasks) {reason : String}
    (he : x.pc.early = false) (hl : x.pc.late = false)
    (hc : x.call v = some (.fail x.taskUuid reason))
    (hs : Over sh.store x.taskUuid ∨ v.env.saveError = none)
    (hl' : (x.step sh v).2.pc.late = true) : (x.step sh v).2.OnCourse (x.step sh v).1.store := by
  refine h.step_last hk he hl hc hs (fun hnone => ?_)
    (fun t ht => Or.inr ⟨{ t with state := failed, lastError := reason }, ?_, trivial⟩) hl'
  · simp only [change, hnone, Option.map_none]
  · simp only [change, show x.tasks x.taskUuid = some t from ht, Option.map_some]

theorem Executor.OnCourse.step (h : x.OnCourse sh.store) (hk : Keyed x.tasks)
    (hrow : (storedState sh.store x.taskUuid).isSome = true)
    (hn : Over sh.store x.taskUuid ∨ x.pc.needs v) :
    (x.step sh v).2.OnCourse (x.step sh v).1.store := by
  cases he : x.pc.early with
  | true => exact h.step_early he hrow hn
  | false =>
    cases hl : x.pc.late with
    | true => exact h.step_late hl
    | false =>
      cases hc : x.call v with
      | none => exact h.step_quiet he hl hc
      | some c =>
        obtain ⟨task_uuid, device_type, transport, device_id, pc, tasks, entered, muted, locked⟩ := x
        cases pc with
        | update next =>
          exact h.step_update hk he hl rfl rfl next.canTransition next.not_ended rfl rfl rfl
        | progress =>
          refine h.step_update hk he hl rfl rfl rfl id ?_ ?_ ?_ <;>
            (simp only [Executor.step, Executor.manage]; split_ifs <;> rfl)
        | esp32Report ok err => exact h.step_update hk he hl rfl rfl rfl id rfl rfl rfl
        | reject => exact h.step_fail hk he hl rfl hn rfl
        | failing reason => exact h.step_fail hk he hl rfl hn rfl
        | canceling =>
          refine h.step_last hk he hl rfl hn (fun hnone => ?_)
            (fun t ht => Or.inr ⟨{ t with state := canceled }, ?_, trivial⟩) rfl
          · simp only [change, show tasks task_uuid = none from hnone, Option.bind_none]
          · simp only [change, show tasks task_uuid = some t from ht, Option.bind_some,
              canTransition_canceled, if_true]
        | succeed =>
          refine h.step_last hk he hl rfl hn (fun hnone => ?_) (fun t ht => ?_) rfl
          · simp only [change, show tasks task_uuid = none from hnone, Option.bind_none]
          · have ht : tasks task_uuid = some t := ht
            by_cases hcan : canTransition t.state success = true
            · refine Or.inr ⟨{ t with state := success }, ?_, trivial⟩
              simp only [change, ht, Option.bind_some, hcan, if_true]
            · refine Or.inl ⟨by simp only [change, ht, Option.bind_some, if_neg hcan], ?_⟩
              rcases h.state _ rfl t ht with hst | ⟨-, hover⟩
              · exact absurd (by rw [hst]; rfl) hcan
              · exact hover
        | _ => cases hc

end Step

end EdgeLink.Ota
