import EdgeLink.OtaRequests
import EdgeLink.OtaGuards

namespace EdgeLink.Ota
open Machine OtaTaskState

/-- The worker looks at the cancel flag before it stores anything again. -/
def Pc.asks : Pc → Bool
  | .enterDevice | .firstPoll | .poll _ | .enterMode | .hello | .runPoll | .runDone _ _ => true
  | _ => false

/-- It looks at once. -/
def Pc.looks : Pc → Bool
  | .firstPoll | .poll _ | .runPoll | .runDone _ _ => true
  | _ => false

/-- It stores nothing any more, or CANCELED. -/
def Pc.ends : Pc → Bool
  | .rejectClear | .canceling | .clearCancel | .unlock | .unmute | .leave | .release | .done => true
  | _ => false

/-- Which cancels are granted, and not followed by a retry that was stored. -/
def observe (g : Gateway) (granted : String → Bool) (e : Event) (r : Option Reply) : String → Bool :=
  match e, r, g.requests .monitor with
  | .flag, some (.ok task_uuid), _ => Function.update granted task_uuid true
  | .write v, _, some (.retrying task_uuid tasks) =>
    if v.saveError = none ∧ (change ⟨tasks, g.shared.store⟩ (.retry task_uuid, v)).isSome then
      Function.update granted task_uuid false
    else granted
  | _, _, _ => granted

/-- The gateway, and the cancels that it has granted. -/
def apiStep : Gateway × (String → Bool) → Event → (Gateway × (String → Bool)) × Option Reply :=
  watched Gateway.step observe

def CancelFinal (w : Gateway × (String → Bool)) (e : Event) : Prop :=
  ∀ u, (apiStep w e).1.2 u = true → storedState (apiStep w e).1.1.shared.store u = some canceled

/-- The task has no worker that could still store something without looking at the flag. -/
def Quiet (g : Gateway) (u : String) : Prop :=
  (∀ src, g.owner (.inl src) ≠ some u) ∧
    ∀ x ∈ g.executors, x.taskUuid = u → x.pc.ends = true ∨ x.pc.asks = true

instance (g : Gateway) (u : String) : Decidable (Quiet g u) := by
  unfold Quiet
  infer_instance

/-- CANCELED is stored for a quiet task, and its worker does not look at the flag before it is set. -/
def Timely (g : Gateway) (e : Event) : Prop :=
  match e with
  | .write v =>
    match g.requests .monitor with
    | some (.canceling task_uuid tasks) => (tasks task_uuid).isSome → v.saveError = none →
      v.appendError = none → Quiet g task_uuid
    | _ => True
  | .exec i _ => ∀ x ∈ g.executors[i]?, g.requests .monitor = some (.canceled x.taskUuid) →
      x.pc.looks = false
  | _ => True

instance (r : Option Request) (u : String) : Decidable (r = some (.canceled u)) :=
  match r with
  | some (.canceled key) => decidable_of_iff (key = u) (by simp)
  | some (.creating _ _) | some (.canceling _ _) | some (.retrying _ _) | none => isFalse nofun

instance (g : Gateway) (e : Event) : Decidable (Timely g e) :=
  match e with
  | .write v => by
    dsimp only [Timely]
    generalize g.requests .monitor = r
    rcases r with _ | ⟨_, _⟩ | ⟨_, _⟩ | ⟨_, _⟩ | _ <;> infer_instance
  | .exec i _ => inferInstanceAs (Decidable (∀ x ∈ g.executors[i]?, _ → _))
  | .create .. | .launch .. | .cancel .. | .retry .. | .flag => isTrue trivial

section Worker
variable {x : Executor} {sh : Shared} (v : Input)

theorem Executor.step_asks (h : x.pc.asks = true)
    (hl : x.pc.looks = false ∨ sh.cancelFlags x.taskUuid = some true) :
    ((x.step sh v).2.pc.ends = true ∨ (x.step sh v).2.pc.asks = true) ∧
      (x.step sh v).1.store = sh.store ∧ (x.step sh v).1.cancelFlags = sh.cancelFlags := by
  obtain ⟨task_uuid, device_type, transport, device_id, pc, tasks, entered, muted, locked⟩ := x
  -- where it looks, the flag is set
  have hset : Pc.looks pc = true → sh.otaCancelRequested task_uuid = true := by
    intro hlook
    rcases hl with hl | hl
    · exact absurd hlook (by rw [show pc.looks = false from hl]; decide)
    · rw [Shared.otaCancelRequested, show sh.cancelFlags task_uuid = some true from hl]
      rfl
  cases pc with
  | enterDevice => exact ⟨Or.inr rfl, rfl, rfl⟩
  | firstPoll | poll passed | runDone ok err =>
    refine ⟨Or.inl ?_, rfl, rfl⟩
    simp only [Executor.step, Executor.unlessCanceled, hset rfl, if_true, Executor.goto]
    rfl
  | runPoll =>
    refine ⟨Or.inr ?_, rfl, rfl⟩
    simp only [Executor.step, hset rfl, if_true, Executor.goto]
    rfl
  | enterMode | hello =>
    refine ⟨Or.inr ?_, rfl, rfl⟩
    simp only [Executor.step, Executor.goto]
    split_ifs <;> rfl
  | _ => cases h

variable (x sh) in
theorem Executor.step_ends (h : x.pc.ends = true) :
    (x.step sh v).2.pc.ends = true ∧ (x.call v = none ∨ x.call v = some (.cancel x.taskUuid)) := by
  obtain ⟨task_uuid, device_type, transport, device_id, pc, tasks, entered, muted, locked⟩ := x
  cases pc <;> first
    | exact ⟨rfl, Or.inl rfl⟩
    | exact ⟨rfl, Or.inr rfl⟩
    | cases h

end Worker

theorem change_cancel {m : OtaTaskManager} {u key : String} {v : Env} {t : OtaTask}
    (h : change m (.cancel u, v) = some (key, t)) : key = u ∧ t.state = canceled := by
  obtain ⟨t', -, ht⟩ := Option.bind_eq_some_iff.mp h
  split_ifs at ht
  obtain ⟨rfl, rfl⟩ := Prod.mk.inj (Option.some.inj ht)
  exact ⟨rfl, rfl⟩

theorem cancel_keeps {m : OtaTaskManager} (hk : Keyed m.tasks) (v : Env) {u : String}
    (h : storedState m.store u = some canceled) :
    storedState (step m (.cancel u, v)).1.store u = some canceled := by
  cases hc : change m (.cancel u, v) with
  | none =>
    have hrow := congrFun (step_rows (.cancel u, v) hk) u
    rw [hc] at hrow
    rw [storedState_congr hrow, h]
  | some kt =>
    obtain ⟨key, t⟩ := kt
    obtain ⟨rfl, ht⟩ := change_cancel hc
    rw [step_storedState hk hc, ht, h, ite_self]

theorem cancel_granted {m : OtaTaskManager} (hk : Keyed m.tasks) {v : Env} {u : String}
    (h : (step m (.cancel u, v)).2.error = none) : (m.tasks u).isSome ∧ v.saveError = none ∧
      v.appendError = none ∧ storedState (step m (.cancel u, v)).1.store u = some canceled := by
  obtain ⟨key, t, hc, hsave, happ⟩ := step_error_none h
  obtain ⟨rfl, ht⟩ := change_cancel hc
  obtain ⟨t', ht', -⟩ := Option.bind_eq_some_iff.mp hc
  refine ⟨by rw [ht']; rfl, hsave, happ, ?_⟩
  rw [step_storedState hk hc, if_pos hsave, ht]

structure Settled (w : Gateway × (String → Bool)) (u : String) : Prop where
  row : storedState w.1.shared.store u = some canceled
  quiet : Quiet w.1 u
  flag : ∀ x ∈ w.1.executors, x.taskUuid = u → x.pc.asks = true → w.2 u = true →
    w.1.shared.cancelFlags u = some true

/-- A step that is not about the task. -/
theorem Settled.congr {w w' : Gateway × (String → Bool)} {u : String} (h : Settled w u)
    (hrow : storedState w'.1.shared.store u = storedState w.1.shared.store u)
    (hown : ∀ src, w'.1.owner (.inl src) = some u → ∃ src', w.1.owner (.inl src') = some u)
    (hexec : ∀ x ∈ w'.1.executors, x.taskUuid = u → x ∈ w.1.executors)
    (hflag : w'.2 u = true → w.2 u = true ∧
      w'.1.shared.cancelFlags u = w.1.shared.cancelFlags u) : Settled w' u := by
  refine ⟨by rw [hrow]; exact h.row, ⟨fun src hs => ?_, fun x hx hu => ?_⟩, fun x hx hu ha hg => ?_⟩
  · obtain ⟨src', hs'⟩ := hown src hs
    exact h.quiet.1 src' hs'
  · exact h.quiet.2 x (hexec x hx hu) hu
  · obtain ⟨hg, hf⟩ := hflag hg
    rw [hf]
    exact h.flag x (hexec x hx hu) hu ha hg

structure Calm (w : Gateway × (String → Bool)) : Prop where
  owned : Owned w.1
  settled : ∀ u, w.2 u = true ∨ w.1.requests .monitor = some (.canceled u) → Settled w u

/-- Its worker takes a step. -/
theorem Settled.exec_own {g : Gateway} {granted : String → Bool} {i : ℕ} {x : Executor}
    (h : Settled (g, granted) x.taskUuid) (ho : Owned g) (hx : g.executors[i]? = some x) (v : Input)
    (hl : granted x.taskUuid = true ∨ x.pc.looks = false) :
    Settled ({ g with shared := (x.step g.shared v).1,
                      executors := g.executors.set i (x.step g.shared v).2 }, granted)
      x.taskUuid := by
  have hxm := List.mem_of_getElem? hx
  -- the task has no other worker
  have hone : ∀ y ∈ g.executors.set i (x.step g.shared v).2, y.taskUuid = x.taskUuid →
      y = (x.step g.shared v).2 := by
    intro y hy hu
    obtain ⟨j, hj⟩ := List.mem_iff_getElem?.mp hy
    rcases getElem?_set_cases hj with ⟨-, rfl⟩ | ⟨hne, hj⟩
    · rfl
    · have heq := ho.one (.inr j) (.inr i) x.taskUuid (by simp [Gateway.owner, hj, hu])
        (by simp [Gateway.owner, hx])
      exact absurd (Sum.inr.inj heq) hne
  rcases h.quiet.2 x hxm rfl with hends | hasks
  · obtain ⟨hends', hcall⟩ := x.step_ends g.shared v hends
    refine ⟨?_, ⟨h.quiet.1, fun y hy hu => ?_⟩, fun y hy hu ha _ => ?_⟩
    · show storedState (x.step g.shared v).1.store x.taskUuid = some canceled
      rw [x.step_store]
      rcases hcall with hcall | hcall
      · rw [hcall]
        exact h.row
      · rw [hcall]
        exact cancel_keeps (ho.keyed x hxm) v.env h.row
    · rw [hone y hy hu]
      exact Or.inl hends'
    · -- at its end it does not ask
      rw [hone y hy hu] at ha
      revert hends' ha
      cases (x.step g.shared v).2.pc <;> simp [Pc.ends, Pc.asks]
  · have hflag : x.pc.looks = false ∨ g.shared.cancelFlags x.taskUuid = some true :=
      hl.elim (fun hg => Or.inr (h.flag x hxm rfl hasks hg)) Or.inl
    obtain ⟨hnext, hstore, hflags⟩ := x.step_asks v hasks hflag
    refine ⟨?_, ⟨h.quiet.1, fun y hy hu => ?_⟩, fun y hy hu _ hg => ?_⟩
    · show storedState (x.step g.shared v).1.store x.taskUuid = some canceled
      rw [hstore]
      exact h.row
    · rw [hone y hy hu]
      exact hnext
    · show (x.step g.shared v).1.cancelFlags x.taskUuid = some true
      rw [hflags]
      exact h.flag x hxm rfl hasks hg

theorem Settled.exec {g : Gateway} {granted : String → Bool} {u : String} {i : ℕ} {x : Executor}
    (h : Settled (g, granted) u) (ho : Owned g) (hx : g.executors[i]? = some x) (v : Input)
    (hl : x.taskUuid = u → granted u = true ∨ x.pc.looks = false) :
    Settled ({ g with shared := (x.step g.shared v).1,
                      executors := g.executors.set i (x.step g.shared v).2 }, granted) u := by
  by_cases hu : x.taskUuid = u
  · subst hu
    exact h.exec_own ho hx v (hl rfl)
  · have hne : u ≠ x.taskUuid := fun heq => hu heq.symm
    refine h.congr ?_ (fun src hs => ⟨src, hs⟩) (fun y hy hyu => ?_) fun hg => ⟨hg, ?_⟩
    · exact storedState_congr
        (Executor.step_rows_of_ne g.shared v (ho.keyed x (List.mem_of_getElem? hx)) hne)
    · obtain ⟨j, hj⟩ := List.mem_iff_getElem?.mp hy
      rcases getElem?_set_cases hj with ⟨-, rfl⟩ | ⟨-, hj⟩
      · rw [x.step_uuid] at hyu
        exact absurd hyu hu
      · exact List.mem_of_getElem? hj
    · exact x.step_flags_of_ne g.shared v hne

/-- A step in which a request comes, goes or is replaced, and some row is written. -/
theorem Settled.request {g g' : Gateway} {granted granted' : String → Bool} {u : String}
    (h : Settled (g, granted) u) (src : Source) (r : Option Request)
    (hr : g'.requests = (g.setRequest src r).requests)
    (hx : g'.executors = g.executors)
    (hf : granted' u = true → granted u = true ∧ g'.shared.cancelFlags u = g.shared.cancelFlags u)
    (hnew : ∀ t transport, r = some (.creating t transport) → t.taskUuid ≠ u)
    (hrow : storedState g'.shared.store u = storedState g.shared.store u) :
    Settled (g', granted') u := by
  refine h.congr hrow (fun src' hs => ?_) (fun y hy _ => by rw [← hx]; exact hy) hf
  have hs : (g.setRequest src r).owner (.inl src') = some u := by
    simp only [Gateway.owner, ← hr]
    exact hs
  rcases owner_setRequest hs with ⟨-, t, transport, hc, hu⟩ | hs
  · exact absurd hu (hnew t transport hc)
  · exact ⟨src', hs⟩

/-- What is asked of a step, for one task. -/
def Stays (w : Gateway × (String → Bool)) (e : Event) : Prop :=
  ∀ u, (apiStep w e).1.2 u = true ∨ (w.1.step e).1.requests .monitor = some (.canceled u) →
    Settled ((w.1.step e).1, (apiStep w e).1.2) u

theorem stays_idle {w : Gateway × (String → Bool)} {e : Event} (h : Calm w)
    (hs : (w.1.step e).1 = w.1) (hg : ∀ u, (apiStep w e).1.2 u = true → w.2 u = true) :
    Stays w e := by
  intro u hu
  rw [hs] at hu ⊢
  have hold := h.settled u (hu.imp_left (hg u))
  exact hold.congr rfl (fun src hsrc => ⟨src, hsrc⟩) (fun x hx _ => hx) fun hgu => ⟨hg u hgu, rfl⟩

/-- A settled task is not the one that is created. -/
theorem Settled.ne_of_fresh {w : Gateway × (String → Bool)} {u key : String} (h : Settled w u)
    (hf : w.1.shared.store.tasks key = none) : key ≠ u := by
  rintro rfl
  have hsome := storedState_isSome (s := w.1.shared.store) (u := key)
  rw [h.row, hf] at hsome
  cases hsome

theorem stays_create {g : Gateway} {granted : String → Bool} (h : Calm (g, granted)) {src : Source}
    {req : CreateRequest} {active_t : String} {v : Env}
    (hf : g.shared.store.tasks (nowUuid v.uuidMs) = none) :
    Stays (g, granted) (.create src req active_t v) := by
  intro u hu
  have hgr : (apiStep (g, granted) (.create src req active_t v)).1.2 = granted := rfl
  rw [hgr] at hu ⊢
  dsimp only at hu ⊢
  cases hr : g.requests src with
  | some r =>
    have hs : (g.step (.create src req active_t v)).1 = g := by simp only [Gateway.step, hr]
    rw [hs] at hu ⊢
    exact h.settled u hu
  | none =>
    have hs : (g.step (.create src req active_t v)).1 = (g.handleCreate src req active_t v).1 := by
      simp only [Gateway.step, hr]
    rw [hs] at hu ⊢
    rcases g.handleCreate_cases src req active_t v with ⟨err, hc⟩ |
      ⟨t, store, htu, -, hstore, hc⟩
    · rw [hc] at hu ⊢
      exact h.settled u hu
    · -- the row of a settled task stays
      have hrow : Settled (g, granted) u → storedState store u = storedState g.shared.store u := by
        intro hold
        have hne := hold.ne_of_fresh hf
        apply storedState_congr
        rw [hstore]
        split_ifs
        · rw [Function.update_of_ne (by rw [htu]; exact hne.symm)]
        · rfl
      rcases hc with ⟨-, -, hc⟩ | ⟨err, -, hc⟩
      · rw [hc] at hu ⊢
        have hold : Settled (g, granted) u := by
          apply h.settled u
          refine hu.imp_right fun hreq => ?_
          cases src with
          | monitor => simp [Gateway.setRequest] at hreq
          | upstream => exact hreq
        exact hold.request src _ rfl rfl (fun hg => ⟨hg, rfl⟩)
          (fun t' transport' hq => by cases hq; rw [htu]; exact hold.ne_of_fresh hf) (hrow hold)
      · rw [hc] at hu ⊢
        have hold := h.settled u hu
        exact hold.congr (hrow hold) (fun src hsrc => ⟨src, hsrc⟩) (fun x hx _ => hx)
          fun hg => ⟨hg, rfl⟩

theorem stays_launch {g : Gateway} {granted : String → Bool} (h : Calm (g, granted)) (src : Source)
    (active_t : String) : Stays (g, granted) (.launch src active_t) := by
  cases hr : g.requests src with
  | none => exact stays_idle h (by simp only [Gateway.step, hr]) fun u hu => hu
  | some r =>
    cases r with
    | canceling key tasks | retrying key tasks | canceled key =>
      exact stays_idle h (by simp only [Gateway.step, hr]) fun u hu => hu
    | creating t transport =>
      intro u hu
      have hs : (g.step (.launch src active_t)).1 = (g.handleLaunch src t transport active_t).1 := by
        simp only [Gateway.step, hr]
      have hmon : (g.handleLaunch src t transport active_t).1.requests =
          (g.setRequest src none).requests := by
        unfold Gateway.handleLaunch
        dsimp only
        split <;> rfl
      have hold : Settled (g, granted) u := by
        apply h.settled u
        refine hu.imp_right fun hreq => ?_
        rw [hs, hmon] at hreq
        cases src with
        | monitor => simp [Gateway.setRequest] at hreq
        | upstream => exact hreq
      -- the task that is launched is not the settled one
      have hne : t.taskUuid ≠ u := by
        intro heq
        apply hold.quiet.1 src
        simp only [Gateway.owner, hr]
        exact congrArg some heq
      show Settled ((g.step (.launch src active_t)).1, granted) u
      rw [hs]
      unfold Gateway.handleLaunch
      dsimp only
      split
      · exact hold.request src none rfl rfl (fun hg => ⟨hg, rfl⟩) (fun _ _ h => by cases h) rfl
      · have hgone : Settled (g.setRequest src none, granted) u :=
          hold.request src none rfl rfl (fun hg => ⟨hg, rfl⟩) (fun _ _ h => by cases h) rfl
        refine hgone.congr rfl (fun src' hs' => ⟨src', hs'⟩) (fun x hx hxu => ?_) fun hg => ⟨hg, rfl⟩
        rcases List.mem_append.mp hx with hx | hx
        · exact hx
        · rw [List.mem_singleton.mp hx] at hxu
          exact absurd hxu hne

/-- A request reads the tasks. -/
theorem stays_read {g : Gateway} {granted : String → Bool} (h : Calm (g, granted)) {e : Event}
    {r : Request} (hr : ∀ t transport, r ≠ .creating t transport) (hc : ∀ u, r ≠ .canceled u)
    (hg : (apiStep (g, granted) e).1.2 = granted)
    (hs : (g.step e).1 = g ∨ (g.step e).1 = g.setRequest .monitor (some r)) :
    Stays (g, granted) e := by
  rcases hs with hs | hs
  · exact stays_idle h hs fun u hu => by rw [hg] at hu; exact hu
  · intro u hu
    show Settled ((g.step e).1, (apiStep (g, granted) e).1.2) u
    have hu : granted u = true ∨ (g.step e).1.requests .monitor = some (.canceled u) := by
      rw [← hg]
      exact hu
    rw [hs] at hu ⊢
    rw [hg]
    rcases hu with hu | hu
    · exact (h.settled u (Or.inl hu)).request .monitor (some r) rfl rfl (fun hg => ⟨hg, rfl⟩)
        (fun t transport hq => absurd (Option.some.inj hq) (hr t transport)) rfl
    · simp only [Gateway.setRequest, Function.update_self, Option.some.injEq] at hu
      exact absurd hu (hc u)

/-- The write of a request about task `key`. -/
theorem Settled.write {g : Gateway} {granted granted' : String → Bool} {u : String}
    (h : Settled (g, granted) u) {tasks : String → Option OtaTask} {c : Call} {v : Env}
    {next : Option Request} (reply : Option Reply)
    (hg : granted' u = true → granted u = true)
    (hnew : ∀ t transport, next = some (.creating t transport) → t.taskUuid ≠ u)
    (hrow : storedState (Ota.step ⟨tasks, g.shared.store⟩ (c, v)).1.store u =
      storedState g.shared.store u) :
    Settled ((g.handleWrite tasks c v next reply).1, granted') u := by
  unfold Gateway.handleWrite
  dsimp only
  split
  · exact h.request .monitor none rfl rfl (fun hu => ⟨hg hu, rfl⟩) (fun _ _ h => by cases h) hrow
  · exact h.request .monitor next rfl rfl (fun hu => ⟨hg hu, rfl⟩) hnew hrow

theorem handleWrite_monitor (g : Gateway) (tasks : String → Option OtaTask) (c : Call) (v : Env)
    (next : Option Request) (reply : Option Reply) :
    (g.handleWrite tasks c v next reply).1.requests .monitor =
      if (Ota.step ⟨tasks, g.shared.store⟩ (c, v)).2.error = none then next else none := by
  unfold Gateway.handleWrite
  dsimp only
  cases (Ota.step ⟨tasks, g.shared.store⟩ (c, v)).2.error with
  | none => simp [Gateway.setRequest]
  | some err => simp [Gateway.setRequest]

theorem stays_cancel {g : Gateway} {granted : String → Bool} (h : Calm (g, granted)) {v : Env}
    {key : String} {tasks : String → Option OtaTask}
    (hr : g.requests .monitor = some (.canceling key tasks)) (ht : Timely g (.write v)) :
    Stays (g, granted) (.write v) := by
  have hk : Keyed tasks := h.owned.keyedRequest _ _ hr
  have hs : (g.step (.write v)).1 =
      (g.handleWrite tasks (.cancel key) v (some (.canceled key)) none).1 := by
    simp only [Gateway.step, hr]
  have hgr : (apiStep (g, granted) (.write v)).1.2 = granted := by
    show observe g granted (.write v) _ = granted
    simp only [observe, hr]
  simp only [Timely, hr] at ht
  intro u hu
  rw [hgr] at hu ⊢
  dsimp only at hu ⊢
  rw [hs] at hu ⊢
  -- a settled task stays settled, be it the one that is canceled
  have hrow : storedState g.shared.store u = some canceled →
      storedState (Ota.step ⟨tasks, g.shared.store⟩ (.cancel key, v)).1.store u =
        storedState g.shared.store u := by
    intro hc
    by_cases huk : u = key
    · subst huk
      rw [hc]
      exact cancel_keeps hk v hc
    · exact storedState_congr (step_rows_of_ne hk id huk)
  by_cases hg : granted u = true
  · have hold := h.settled u (Or.inl hg)
    exact hold.write none id (fun _ _ h => by cases h) (hrow hold.row)
  · -- the cancel of `u` is about to be granted
    have hreq := hu.resolve_left hg
    rw [handleWrite_monitor] at hreq
    split_ifs at hreq with herr
    obtain rfl : key = u := by simpa using hreq
    obtain ⟨hsome, hsave, happ, hrow⟩ := cancel_granted hk herr
    obtain ⟨hown, hexec⟩ := ht hsome hsave happ
    have hnew : (g.handleWrite tasks (.cancel key) v (some (.canceled key)) none).1 =
        (g.setStore (Ota.step ⟨tasks, g.shared.store⟩ (.cancel key, v)).1.store).setRequest .monitor
          (some (.canceled key)) := by
      unfold Gateway.handleWrite
      dsimp only
      rw [herr]
    rw [hnew]
    refine ⟨hrow, ⟨fun src hsrc => ?_, hexec⟩, fun x _ _ _ hgu => absurd hgu hg⟩
    rcases owner_setRequest hsrc with ⟨-, t, transport, hq, -⟩ | hsrc
    · cases hq
    · exact hown src hsrc

theorem stays_retry {g : Gateway} {granted : String → Bool} (h : Calm (g, granted)) {v : Env}
    {key : String} {tasks : String → Option OtaTask}
    (hr : g.requests .monitor = some (.retrying key tasks)) : Stays (g, granted) (.write v) := by
  have hk : Keyed tasks := h.owned.keyedRequest _ _ hr
  have hs : (g.step (.write v)).1 =
      (g.handleWrite tasks (.retry key) v none (some (.ok key))).1 := by
    simp only [Gateway.step, hr]
  have hgr : (apiStep (g, granted) (.write v)).1.2 =
      if v.saveError = none ∧ (change ⟨tasks, g.shared.store⟩ (.retry key, v)).isSome then
        Function.update granted key false
      else granted := by
    show observe g granted (.write v) _ = _
    simp only [observe, hr]
  intro u hu
  rw [hgr] at hu ⊢
  dsimp only at hu ⊢
  rw [hs] at hu ⊢
  have hreq : (g.handleWrite tasks (.retry key) v none (some (.ok key))).1.requests .monitor = none := by
    rw [handleWrite_monitor, ite_self]
  rw [hreq] at hu
  have hu := hu.resolve_right fun h => by cases h
  -- the retried task is no longer granted once it is stored
  have hback : granted u = true ∧ (u = key →
      ¬(v.saveError = none ∧ (change ⟨tasks, g.shared.store⟩ (.retry key, v)).isSome)) := by
    by_cases hsave : v.saveError = none ∧ (change ⟨tasks, g.shared.store⟩ (.retry key, v)).isSome
    · rw [if_pos hsave] at hu
      by_cases huk : u = key
      · rw [huk, Function.update_self] at hu
        cases hu
      · rw [Function.update_of_ne huk] at hu
        exact ⟨hu, fun heq => absurd heq huk⟩
    · rw [if_neg hsave] at hu
      exact ⟨hu, fun _ => hsave⟩
  have hrow : storedState (Ota.step ⟨tasks, g.shared.store⟩ (.retry key, v)).1.store u =
      storedState g.shared.store u := by
    apply storedState_congr
    by_cases huk : u = key
    · rw [step_rows (.retry key, v) hk]
      cases hc : change ⟨tasks, g.shared.store⟩ (.retry key, v) with
      | none => rfl
      | some kt =>
        dsimp only
        rw [if_neg fun hsave => hback.2 huk ⟨hsave, by rw [hc]; rfl⟩]
    · exact step_rows_of_ne hk id huk
  exact (h.settled u (Or.inl hback.1)).write (some (.ok key)) (fun _ => hback.1) (fun _ _ h => by cases h) hrow

theorem stays_write {g : Gateway} {granted : String → Bool} (h : Calm (g, granted)) {v : Env}
    (ht : Timely g (.write v)) : Stays (g, granted) (.write v) := by
  have hidle : (g.step (.write v)).1 = g → (apiStep (g, granted) (.write v)).1.2 = granted →
      Stays (g, granted) (.write v) :=
    fun hs hg => stays_idle h hs fun u hu => by rw [hg] at hu; exact hu
  cases hr : g.requests .monitor with
  | none => exact hidle (by simp only [Gateway.step, hr]) (by simp [apiStep, watched, observe, hr])
  | some r =>
    cases r with
    | canceling key tasks => exact stays_cancel h hr ht
    | retrying key tasks => exact stays_retry h hr
    | creating t transport | canceled key =>
      exact hidle (by simp only [Gateway.step, hr]) (by simp [apiStep, watched, observe, hr])

theorem stays_flag {g : Gateway} {granted : String → Bool} (h : Calm (g, granted)) :
    Stays (g, granted) .flag := by
  have hidle : (g.step .flag) = (g, none) → Stays (g, granted) .flag := by
    intro hs
    refine stays_idle h (congrArg Prod.fst hs) fun u hu => ?_
    have hg : (apiStep (g, granted) .flag).1.2 = observe g granted .flag (g.step .flag).2 := rfl
    rw [hg, hs] at hu
    exact hu
  cases hr : g.requests .monitor with
  | none => exact hidle (by simp only [Gateway.step, hr])
  | some r =>
    cases r with
    | creating t transport | canceling key tasks | retrying key tasks =>
      exact hidle (by simp only [Gateway.step, hr])
    | canceled key =>
      have hs : g.step .flag = ({ g with shared := g.shared.otaCancelSet key true }.setRequest .monitor
          none, some (.ok key)) := by
        simp only [Gateway.step, hr]
      have hgr : (apiStep (g, granted) .flag).1.2 = Function.update granted key true := by
        show observe g granted .flag (g.step .flag).2 = _
        rw [hs]
        rfl
      intro u hu
      rw [hgr] at hu ⊢
      dsimp only at hu ⊢
      rw [hs] at hu ⊢
      by_cases huk : u = key
      · subst huk
        have hold := h.settled u (Or.inr hr)
        refine ⟨hold.row, ⟨fun src hsrc => ?_, hold.quiet.2⟩, fun x _ _ _ _ => ?_⟩
        · rcases owner_setRequest hsrc with ⟨-, t, transport, hq, -⟩ | hsrc
          · cases hq
          · exact hold.quiet.1 src hsrc
        · exact Function.update_self ..
      · rw [Function.update_of_ne huk] at hu
        have hu : granted u = true := hu.resolve_right (by simp [Gateway.setRequest])
        refine (h.settled u (Or.inl hu)).request .monitor none rfl rfl (fun _ => ⟨hu, ?_⟩)
          (fun _ _ h => by cases h) rfl
        exact Function.update_of_ne huk ..

theorem stays_exec {g : Gateway} {granted : String → Bool} (h : Calm (g, granted)) {i : ℕ} {v : Input}
    (ht : Timely g (.exec i v)) : Stays (g, granted) (.exec i v) := by
  cases hx : g.executors[i]? with
  | none => exact stays_idle h (by simp only [Gateway.step, hx]) fun u hu => hu
  | some x =>
    intro u hu
    have hs : (g.step (.exec i v)).1 =
        { g with shared := (x.step g.shared v).1,
                 executors := g.executors.set i (x.step g.shared v).2 } := by
      simp only [Gateway.step, hx]
    show Settled ((g.step (.exec i v)).1, granted) u
    have hu : granted u = true ∨ (g.step (.exec i v)).1.requests .monitor = some (.canceled u) := hu
    rw [hs] at hu ⊢
    refine (h.settled u hu).exec h.owned hx v fun hxu => ?_
    refine hu.imp_right fun hreq => ?_
    apply ht x hx
    rw [hxu]
    exact hreq

theorem Calm.step {w : Gateway × (String → Bool)} {e : Event} (h : Calm w) (hf : Fresh w.1 e)
    (ht : Timely w.1 e) : Calm (apiStep w e).1 := by
  refine ⟨h.owned.step hf, ?_⟩
  obtain ⟨g, granted⟩ := w
  show Stays (g, granted) e
  cases e with
  | create src req active_t v => exact stays_create h hf
  | launch src active_t => exact stays_launch h src active_t
  | cancel key opened =>
    refine stays_read h (r := .canceling key (openTasks g.shared.store opened)) (fun _ _ h => by cases h)
      (fun _ h => by cases h) rfl ?_
    cases hr : g.requests .monitor with
    | none => exact Or.inr (by simp only [Gateway.step, hr])
    | some r => exact Or.inl (by simp only [Gateway.step, hr])
  | retry key opened =>
    refine stays_read h (r := .retrying key (openTasks g.shared.store opened)) (fun _ _ h => by cases h)
      (fun _ h => by cases h) rfl ?_
    cases hr : g.requests .monitor with
    | none => exact Or.inr (by simp only [Gateway.step, hr])
    | some r => exact Or.inl (by simp only [Gateway.step, hr])
  | write v => exact stays_write h ht
  | flag => exact stays_flag h
  | exec i v => exact stays_exec h ht

theorem boot_calm (store : PersistentStore) : Calm (bootGateway store, fun _ => false) := by
  refine ⟨bootGateway_owned store, fun u hu => ?_⟩
  rcases hu with hu | hu <;> cases hu

/-- While every cancel is stored for a quiet task, whose worker then waits for the flag, a granted
cancel stays stored until a retry. -/
theorem cancel_final (store : PersistentStore) (es : List Event)
    (h : Always apiStep (fun w e => Fresh w.1 e ∧ Timely w.1 e) (bootGateway store, fun _ => false) es) :
    Always apiStep CancelFinal (bootGateway store, fun _ => false) es :=
  Always.of_invariant (fun _ _ hw hc => ⟨hw.step hc.1 hc.2,
    fun u hu => ((hw.step hc.1 hc.2).settled u (Or.inl hu)).row⟩) (boot_calm store) h

def cancelTask (task_uuid : String) : List Event :=
  [.cancel task_uuid true, .write ⟨0, 0, none, none⟩, .flag]

/-- The cancel comes while the worker is about to look at the flag, and the worker stops. -/
theorem cancel_final_in_time : Always apiStep CancelFinal (bootGateway emptyStore, fun _ => false)
    (stm32Task 1 ++ List.replicate 4 (.exec 0 calm) ++ cancelTask "ota-1" ++
      List.replicate 8 (.exec 0 calm)) :=
  cancel_final emptyStore _ (by decide +kernel)

/-- It comes before the worker has reset the flag, and the task ends as SUCCESS. -/
theorem cancel_undone : ¬ ∀ store es,
    Always apiStep CancelFinal (bootGateway store, fun _ => false) es := by
  intro h
  have hrun := h emptyStore ((stm32Task 1 ++ List.replicate 2 (.exec 0 calm) ++ cancelTask "ota-1" ++
    List.replicate 17 (.exec 0 calm) ++
    List.replicate 12 (.exec 0 { calm with link := .returns true "" })) ++ [.exec 0 calm])
  have hlast := ((always_append apiStep _ _ _ _).mp hrun).2.1 "ota-1"
  revert hlast
  decide +kernel

end EdgeLink.Ota
