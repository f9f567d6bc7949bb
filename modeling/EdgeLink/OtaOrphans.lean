import EdgeLink.OtaCourse
import EdgeLink.OtaGuards

namespace EdgeLink.Ota
open Machine OtaTaskState

structure Notes where
  /-- created here, or retried with success -/
  mine : String → Bool
  /-- the create request was answered with an error -/
  refused : String → Bool

def Notes.create (n : Notes) (task_uuid : String) (refused : Bool) : Notes :=
  ⟨Function.update n.mine task_uuid true, Function.update n.refused task_uuid refused⟩

def takeNote (g : Gateway) (n : Notes) (e : Event) (r : Option Reply) : Notes :=
  match e with
  | .create src _ _ v =>
    match g.requests src, r with
    | none, none => n.create (nowUuid v.uuidMs) false
    | none, some (.refused "500 Internal Server Error" _) => n.create (nowUuid v.uuidMs) true
    | _, _ => n
  | .launch src _ =>
    match g.requests src, r with
    | some (.creating t _), some (.refused _ _) => n.create t.taskUuid true
    | _, _ => n
  | .write _ =>
    match g.requests .monitor, r with
    | some (.retrying task_uuid _), some (.ok _) =>
      { n with mine := Function.update n.mine task_uuid true }
    | _, _ => n
  | _ => n

def taskStep : Gateway × Notes → Event → (Gateway × Notes) × Option Reply :=
  watched Gateway.step takeNote

/-- A worker of the task runs or is about to be launched. -/
def Gateway.Tended (g : Gateway) (u : String) : Prop :=
  (∃ src, g.owner (.inl src) = some u) ∨ ∃ x ∈ g.executors, x.taskUuid = u ∧ x.pc ≠ .done

structure NoOrphan (w : Gateway × Notes) : Prop where
  tended : ∀ u, w.2.mine u = true → Over w.1.shared.store u ∨ w.1.Tended u
  refused : ∀ u, w.2.refused u = true → storedState w.1.shared.store u = none

/-- A create request has a valid transport and its two writes do not go apart, a retry finds nothing
to retry, and the store does not fail a worker that reads its task or ends it. -/
def Unfailing (g : Gateway) (e : Event) : Prop :=
  match e with
  | .create _ _ _ v => v.saveError = none → v.appendError = none
  | .launch src active_t =>
    match g.requests src with
    | some (.creating _ transport) => validTransport (runTransport transport active_t)
    | _ => True
  | .write v =>
    match g.requests .monitor with
    | some (.retrying task_uuid tasks) => v.saveError = none →
      ∀ t ∈ tasks task_uuid, t.state ≠ failed ∧ t.state ≠ canceled
    | _ => True
  | .exec i v => ∀ x ∈ g.executors[i]?, Over g.shared.store x.taskUuid ∨ x.pc.needs v
  | _ => True

instance (g : Gateway) (e : Event) : Decidable (Unfailing g e) :=
  match e with
  | .create _ _ _ v => inferInstanceAs (Decidable (v.saveError = none → v.appendError = none))
  | .launch src _ => by
    dsimp only [Unfailing]
    generalize g.requests src = r
    rcases r with _ | ⟨_, _⟩ | ⟨_, _⟩ | ⟨_, _⟩ | _ <;> infer_instance
  | .write _ => by
    dsimp only [Unfailing]
    generalize g.requests .monitor = r
    rcases r with _ | ⟨_, _⟩ | ⟨_, _⟩ | ⟨_, _⟩ | _ <;> infer_instance
  | .exec i _ => inferInstanceAs (Decidable (∀ x ∈ g.executors[i]?, _ ∨ _))
  | .cancel .. | .retry .. | .flag => isTrue trivial

structure Attended (w : Gateway × Notes) : Prop where
  owned : Owned w.1
  course : ∀ x ∈ w.1.executors, x.OnCourse w.1.shared.store
  creating : ∀ src t transport, w.1.requests src = some (.creating t transport) →
    ∀ st ∈ storedState w.1.shared.store t.taskUuid, st = created ∨ ended st
  mine : ∀ u, w.2.mine u = true → Over w.1.shared.store u ∨ ∃ o, w.1.owner o = some u
  refused : ∀ u, w.2.refused u = true → storedState w.1.shared.store u = none
  read : ∀ src r u, w.1.requests src = some r → (r.tasks u).isSome →
    (storedState w.1.shared.store u).isSome

theorem Attended.noOrphan {w : Gateway × Notes} (h : Attended w) : NoOrphan w := by
  refine ⟨fun u hu => ?_, h.refused⟩
  rcases h.mine u hu with hover | ⟨o, ho⟩
  · exact Or.inl hover
  · cases o with
    | inl src => exact Or.inr (Or.inl ⟨src, ho⟩)
    | inr i =>
      obtain ⟨x, hx, rfl⟩ := Option.map_eq_some_iff.mp ho
      have hxm := List.mem_of_getElem? hx
      by_cases hpc : x.pc = .done
      · -- a worker is done when its task is
        exact Or.inl ((h.course x hxm).late (by rw [hpc]; rfl))
      · exact Or.inr (Or.inr ⟨x, hxm, rfl, hpc⟩)

section Steps
variable {g g' : Gateway} {n : Notes}

/-- A request of the HTTP server goes on: rows stay, or become terminal. -/
theorem Attended.monitor (h : Attended (g, n)) (ho : Owned g') {r : Option Request}
    (hmon : ∀ t transport, g.requests .monitor ≠ some (.creating t transport))
    (hr : g'.requests = (g.setRequest .monitor r).requests) (hx : g'.executors = g.executors)
    (hrow : ∀ u, storedState g'.shared.store u = storedState g.shared.store u ∨
      Over g'.shared.store u ∧ (storedState g.shared.store u).isSome ∧
        (storedState g'.shared.store u).isSome)
    (hread : ∀ q, r = some q → (∀ t transport, q ≠ .creating t transport) ∧
      ∀ u, (q.tasks u).isSome → (storedState g.shared.store u).isSome) : Attended (g', n) := by
  have hsome : ∀ u, (storedState g.shared.store u).isSome → (storedState g'.shared.store u).isSome := by
    intro u hu
    rcases hrow u with hs | ⟨-, -, hs⟩
    · rw [hs]
      exact hu
    · exact hs
  -- what is over stays over: the rows that changed are over too
  have hover : ∀ u, Over g.shared.store u → Over g'.shared.store u := by
    intro u hu
    rcases hrow u with hs | ⟨hs, -⟩
    · exact hu.congr hs
    · exact hs
  have hreq : ∀ src q, g'.requests src = some q → g.requests src = some q ∨ r = some q := by
    intro src q hq
    rw [hr] at hq
    by_cases hsrc : src = .monitor
    · subst hsrc
      simp only [Gateway.setRequest, Function.update_self] at hq
      exact Or.inr hq
    · simp only [Gateway.setRequest, Function.update_of_ne hsrc] at hq
      exact Or.inl hq
  refine ⟨ho, fun x hxm => ?_, fun src t transport hq st hst => ?_, fun u hu => ?_, fun u hu => ?_,
    fun src q u hq hu => ?_⟩
  · dsimp only at hxm
    rw [hx] at hxm
    exact (h.course x hxm).congr ((hrow x.taskUuid).imp_right fun hs => hs.1)
  · rcases hreq src _ hq with hq | hq
    · rcases hrow t.taskUuid with hs | ⟨hs, -⟩
      · dsimp only at hst
        rw [hs] at hst
        exact h.creating src t transport hq st hst
      · exact Or.inr (hs st hst)
    · exact absurd rfl ((hread _ hq).1 t transport)
  · rcases h.mine u hu with hu | ⟨o, hown⟩
    · exact Or.inl (hover u hu)
    · refine Or.inr ⟨o, ?_⟩
      cases o with
      | inr i =>
        show g'.executors[i]?.map Executor.taskUuid = some u
        rw [hx]
        exact hown
      | inl src =>
        show (g'.requests src).bind _ = some u
        obtain ⟨q, hq, hu⟩ := Option.bind_eq_some_iff.mp hown
        have hsrc : src ≠ .monitor := by
          rintro rfl
          cases q with
          | creating t transport => exact hmon t transport hq
          | canceling key tasks | retrying key tasks | canceled key => cases hu
        rw [hr]
        simp only [Gateway.setRequest, Function.update_of_ne hsrc]
        exact hown
  · rcases hrow u with hs | ⟨-, hs, -⟩
    · dsimp only
      rw [hs]
      exact h.refused u hu
    · rw [show storedState g.shared.store u = none from h.refused u hu] at hs
      cases hs
  · rcases hreq src q hq with hq | hq
    · exact hsome u (h.read src q u hq hu)
    · exact hsome u ((hread q hq).2 u hu)

theorem openTasks_isSome {s : PersistentStore} {opened : Bool} {u : String}
    (h : (openTasks s opened u).isSome) : (storedState s u).isSome := by
  cases opened with
  | false => cases h
  | true => simpa [storedState, openTasks] using h

theorem Attended.exec (h : Attended (g, n)) {i : ℕ} {x : Executor} (hx : g.executors[i]? = some x)
    {v : Input} (hn : Over g.shared.store x.taskUuid ∨ x.pc.needs v) :
    Attended ({ g with shared := (x.step g.shared v).1,
                       executors := g.executors.set i (x.step g.shared v).2 }, n) := by
  have hxm := List.mem_of_getElem? hx
  have hkx := h.owned.keyed x hxm
  have hown : g.owner (.inr i) = some x.taskUuid := by simp [Gateway.owner, hx]
  have hrow : (storedState g.shared.store x.taskUuid).isSome = true := by
    rw [storedState_isSome]
    exact h.owned.stored _ _ hown
  have hstay : ∀ u, u ≠ x.taskUuid →
      storedState (x.step g.shared v).1.store u = storedState g.shared.store u :=
    fun u hu => storedState_congr (Executor.step_rows_of_ne g.shared v hkx hu)
  have howned := h.owned.exec hx v
  -- other owners own other tasks
  have hne : ∀ o u, g.owner o = some u → o ≠ .inr i → u ≠ x.taskUuid :=
    fun o u ho hoi hu => hoi (h.owned.one o _ u ho (by rw [hu]; exact hown))
  refine ⟨howned, fun y hy => ?_, fun src t transport hr st hst => ?_, fun u hu => ?_, fun u hu => ?_,
    fun src r u hr hu => ?_⟩
  · obtain ⟨j, hj⟩ := List.mem_iff_getElem?.mp hy
    rcases getElem?_set_cases hj with ⟨rfl, rfl⟩ | ⟨hji, hj⟩
    · exact (h.course x hxm).step hkx hrow hn
    · refine (h.course y (List.mem_of_getElem? hj)).congr (Or.inl (hstay _ ?_))
      exact hne (.inr j) _ (by simp [Gateway.owner, hj]) (by simpa using hji)
  · have hst : st ∈ storedState (x.step g.shared v).1.store t.taskUuid := hst
    rw [hstay _ (hne (.inl src) _ (by simp [Gateway.owner, show g.requests src = _ from hr])
      fun h => by cases h)] at hst
    exact h.creating src t transport hr st hst
  · by_cases hux : u = x.taskUuid
    · refine Or.inr ⟨.inr i, ?_⟩
      show ((g.executors.set i (x.step g.shared v).2)[i]?).map Executor.taskUuid = some u
      rw [List.getElem?_set_self (List.getElem?_eq_some_iff.mp hx).1, hux]
      exact congrArg some (x.step_uuid g.shared v)
    · rcases h.mine u hu with hu | ⟨o, ho⟩
      · exact Or.inl (hu.congr (hstay u hux))
      · refine Or.inr ⟨o, ?_⟩
        cases o with
        | inl src => exact ho
        | inr j =>
          obtain ⟨y, hy, hyu⟩ := Option.map_eq_some_iff.mp ho
          have hji : j ≠ i := by
            rintro rfl
            rw [hx] at hy
            cases hy
            exact hux hyu.symm
          show ((g.executors.set i (x.step g.shared v).2)[j]?).map Executor.taskUuid = some u
          rw [List.getElem?_set_ne hji.symm]
          exact ho
  · have hux : u ≠ x.taskUuid := by
      rintro rfl
      rw [show storedState g.shared.store x.taskUuid = none from h.refused _ hu] at hrow
      cases hrow
    show storedState (x.step g.shared v).1.store u = none
    rw [hstay u hux]
    exact h.refused u hu
  · show (storedState (x.step g.shared v).1.store u).isSome
    rw [storedState_isSome]
    apply Executor.step_rows_isSome g.shared v hkx
    rw [← storedState_isSome]
    exact h.read src r u hr hu

theorem Attended.create (h : Attended (g, n)) {src : Source} {t : OtaTask} {transport : Option String}
    {store : PersistentStore} (hsrc : g.requests src = none)
    (hfree : g.shared.store.tasks t.taskUuid = none) (ht : t.state = created)
    (hs : store.tasks = Function.update g.shared.store.tasks t.taskUuid (some (taskRow t))) :
    Attended ((g.setStore store).setRequest src (some (.creating t transport)),
      n.create t.taskUuid false) := by
  have hstay : ∀ u, u ≠ t.taskUuid → storedState store u = storedState g.shared.store u :=
    fun u hu => storedState_congr (by rw [hs, Function.update_of_ne hu])
  -- the new row is the only one that differs, and no one owned its id
  have hnew : storedState store t.taskUuid = some created := by
    rw [← ht]
    exact storedState_of_row (by rw [hs, Function.update_self])
  have hne : ∀ u, (storedState g.shared.store u).isSome → u ≠ t.taskUuid := by
    rintro u hu rfl
    rw [storedState_isSome, hfree] at hu
    cases hu
  have hstored : ∀ o u, g.owner o = some u → u ≠ t.taskUuid := by
    intro o u ho
    apply hne
    rw [storedState_isSome]
    exact h.owned.stored o u ho
  have hreq : ∀ src' q, ((g.setStore store).setRequest src (some (.creating t transport))).requests src' =
      some q → g.requests src' = some q ∨ q = .creating t transport ∧ src' = src := by
    intro src' q hq
    by_cases hs' : src' = src
    · subst hs'
      simp only [Gateway.setRequest, Function.update_self, Option.some.injEq] at hq
      exact Or.inr ⟨hq.symm, rfl⟩
    · simp only [Gateway.setRequest, Function.update_of_ne hs'] at hq
      exact Or.inl hq
  refine ⟨h.owned.create hfree hs, fun x hx => ?_, fun src' t' transport' hq st hst => ?_,
    fun u hu => ?_, fun u hu => ?_, fun src' q u hq hu => ?_⟩
  · obtain ⟨i, hi⟩ := List.mem_iff_getElem?.mp hx
    refine (h.course x hx).congr (Or.inl (hstay _ (hstored (.inr i) _ ?_)))
    show g.executors[i]?.map Executor.taskUuid = some x.taskUuid
    rw [show g.executors[i]? = some x from hi]
    rfl
  · have hst : st ∈ storedState store t'.taskUuid := hst
    rcases hreq src' _ hq with hq | ⟨hq, -⟩
    · rw [hstay _ (hstored (.inl src') _ (by simp [Gateway.owner, hq]))] at hst
      exact h.creating src' t' transport' hq st hst
    · cases hq
      rw [hnew] at hst
      cases hst
      exact Or.inl rfl
  · by_cases hut : u = t.taskUuid
    · refine Or.inr ⟨.inl src, ?_⟩
      simp [Gateway.owner, Gateway.setRequest, hut]
    · have hu : n.mine u = true := by
        rw [← hu]
        exact (Function.update_of_ne hut ..).symm
      rcases h.mine u hu with hu | ⟨o, ho⟩
      · exact Or.inl (hu.congr (hstay u hut))
      · refine Or.inr ⟨o, ?_⟩
        cases o with
        | inr i => exact ho
        | inl src' =>
          have hs' : src' ≠ src := by
            rintro rfl
            simp [Gateway.owner, hsrc] at ho
          simp only [Gateway.owner, Gateway.setRequest, Function.update_of_ne hs']
          exact ho
  · by_cases hut : u = t.taskUuid
    · rw [hut] at hu
      simp [Notes.create] at hu
    · have hu : n.refused u = true := by
        rw [← hu]
        exact (Function.update_of_ne hut ..).symm
      show storedState store u = none
      rw [hstay u hut]
      exact h.refused u hu
  · rcases hreq src' q hq with hq | ⟨rfl, -⟩
    · have hsome := h.read src' q u hq hu
      show (storedState store u).isSome
      rw [hstay u (hne u hsome)]
      exact hsome
    · cases hu

/-- A create request whose row could not be written leaves nothing behind. -/
theorem Attended.refuse (h : Attended (g, n)) {key : String} {store : PersistentStore}
    (hfree : g.shared.store.tasks key = none) (hs : store.tasks = g.shared.store.tasks) :
    Attended (g.setStore store, n.create key true) := by
  have hstay : ∀ u, storedState store u = storedState g.shared.store u :=
    fun u => storedState_congr (by rw [hs])
  have hnone : storedState store key = none := by
    rw [hstay]
    unfold storedState loadTasks
    rw [hfree]
    rfl
  refine ⟨h.owned.map Function.injective_id (fun o u hu => hu)
    (fun u hu => by rw [Gateway.setStore, hs]; exact hu) h.owned.keyed h.owned.keyedRequest,
    fun x hx => (h.course x hx).congr (Or.inl (hstay _)), fun src t transport hr st hst => ?_,
    fun u hu => ?_, fun u hu => ?_, fun src r u hr hu => ?_⟩
  · have hst : st ∈ storedState store t.taskUuid := hst
    rw [hstay] at hst
    exact h.creating src t transport hr st hst
  · by_cases huk : u = key
    · subst huk
      left
      intro st hst
      have hst : st ∈ storedState store u := hst
      rw [hnone] at hst
      cases hst
    · have hu : n.mine u = true := by
        rw [← hu]
        exact (Function.update_of_ne huk ..).symm
      exact (h.mine u hu).imp_left fun hover => hover.congr (hstay u)
  · show storedState store u = none
    by_cases huk : u = key
    · rw [huk, hnone]
    · rw [hstay]
      apply h.refused u
      rw [← hu]
      exact (Function.update_of_ne huk ..).symm
  · show (storedState store u).isSome
    rw [hstay]
    exact h.read src r u hr hu

theorem Attended.launch (h : Attended (g, n)) {src : Source} {t : OtaTask} {transport : Option String}
    (hr : g.requests src = some (.creating t transport)) (run_transport : String) :
    Attended ((g.setRequest src none).launchOtaTask t run_transport, n) := by
  have hreq : ∀ src' q, ((g.setRequest src none).launchOtaTask t run_transport).requests src' = some q →
      g.requests src' = some q := by
    intro src' q hq
    by_cases hs : src' = src
    · subst hs
      simp [Gateway.launchOtaTask, Gateway.setRequest] at hq
    · simp only [Gateway.launchOtaTask, Gateway.setRequest, Function.update_of_ne hs] at hq
      exact hq
  refine ⟨h.owned.launch hr run_transport, fun x hx => ?_, fun src' t' transport' hq =>
    h.creating src' t' transport' (hreq src' _ hq), fun u hu => ?_, h.refused,
    fun src' q u hq hu => h.read src' q u (hreq src' q hq) hu⟩
  · rcases List.mem_append.mp hx with hx | hx
    · exact h.course x hx
    · rw [List.mem_singleton.mp hx]
      exact ⟨fun _ => h.creating src t transport hr, fun hl => (by cases hl), fun he => (by cases he),
        fun st hst => (by cases hst)⟩
  · refine (h.mine u hu).imp_right fun ho => ?_
    obtain ⟨o, ho⟩ := ho
    by_cases hos : o = .inl src
    · -- the new worker takes over from its request
      refine ⟨.inr g.executors.length, ?_⟩
      subst hos
      simp only [Gateway.owner, hr, Option.bind_some] at ho
      show ((g.executors ++ [newExecutor t run_transport])[g.executors.length]?).map
        Executor.taskUuid = some u
      rw [List.getElem?_concat_length]
      exact ho
    · refine ⟨o, ?_⟩
      cases o with
      | inl src' =>
        have hs : src' ≠ src := fun heq => hos (by rw [heq])
        simp only [Gateway.owner, Gateway.launchOtaTask, Gateway.setRequest, Function.update_of_ne hs]
        exact ho
      | inr i =>
        obtain ⟨x, hx, hxu⟩ := Option.map_eq_some_iff.mp ho
        show ((g.executors ++ [newExecutor t run_transport])[i]?).map Executor.taskUuid = some u
        rw [List.getElem?_append_left (List.getElem?_eq_some_iff.mp hx).1, hx, ← hxu]
        rfl

end Steps

theorem handleWrite_requests (g : Gateway) (tasks : String → Option OtaTask) (c : Call) (v : Env)
    (next : Option Request) (reply : Option Reply) :
    ∃ r, (r = none ∨ r = next) ∧ (g.handleWrite tasks c v next reply).1 =
      (g.setStore (Ota.step ⟨tasks, g.shared.store⟩ (c, v)).1.store).setRequest .monitor r := by
  unfold Gateway.handleWrite
  dsimp only
  split
  · exact ⟨none, Or.inl rfl, rfl⟩
  · exact ⟨next, Or.inr rfl, rfl⟩

theorem attended_create {g : Gateway} {n : Notes} (h : Attended (g, n)) {src : Source}
    {req : CreateRequest} {active_t : String} {v : Env}
    (hf : g.shared.store.tasks (nowUuid v.uuidMs) = none) (hu : v.saveError = none → v.appendError = none) :
    Attended (taskStep (g, n) (.create src req active_t v)).1 := by
  show Attended ((g.step (.create src req active_t v)).1,
    takeNote g n (.create src req active_t v) (g.step (.create src req active_t v)).2)
  cases hr : g.requests src with
  | some r =>
    simp only [Gateway.step, hr, takeNote]
    exact h
  | none =>
    have hs : g.step (.create src req active_t v) = g.handleCreate src req active_t v := by
      simp only [Gateway.step, hr]
    rw [hs]
    rcases g.handleCreate_cases src req active_t v with ⟨err, hc⟩ |
      ⟨t, store, htu, ht, hstore, ⟨hsave, -, hc⟩ | ⟨err, herr, hc⟩⟩
    · rw [hc]
      simp only [takeNote, hr]
      exact h
    · rw [hc]
      simp only [takeNote, hr, ← htu]
      rw [if_pos hsave] at hstore
      exact h.create hr (by rw [htu]; exact hf) ht hstore
    · rw [hc]
      simp only [takeNote, hr]
      -- the row was not written
      have hsave : v.saveError ≠ none := by
        intro hsave
        rw [hsave, hu hsave] at herr
        cases herr
      rw [if_neg hsave] at hstore
      exact h.refuse hf hstore

theorem attended_launch {g : Gateway} {n : Notes} (h : Attended (g, n)) {src : Source}
    {active_t : String} (hu : Unfailing g (.launch src active_t)) :
    Attended (taskStep (g, n) (.launch src active_t)).1 := by
  show Attended ((g.step (.launch src active_t)).1,
    takeNote g n (.launch src active_t) (g.step (.launch src active_t)).2)
  cases hr : g.requests src with
  | none =>
    simp only [Gateway.step, hr, takeNote]
    exact h
  | some r =>
    cases r with
    | canceling key tasks | retrying key tasks | canceled key =>
      simp only [Gateway.step, hr, takeNote]
      exact h
    | creating t transport =>
      simp only [Unfailing, hr] at hu
      have hs : g.step (.launch src active_t) =
          ((g.setRequest src none).launchOtaTask t (runTransport transport active_t),
            some (.launched t)) := by
        simp only [Gateway.step, hr, Gateway.handleLaunch]
        rw [if_neg (not_not.mpr hu)]
      rw [hs]
      simp only [takeNote, hr]
      exact h.launch hr _

theorem attended_cancel {g : Gateway} {n : Notes} (h : Attended (g, n)) {v : Env} {key : String}
    {tasks : String → Option OtaTask} (hr : g.requests .monitor = some (.canceling key tasks)) :
    Attended ((g.handleWrite tasks (.cancel key) v (some (.canceled key)) none).1, n) := by
  have hk : Keyed tasks := h.owned.keyedRequest _ _ hr
  have howned := h.owned.write hr (.cancel key) v none
    fun q (hq : some (Request.canceled key) = some q) => by
      cases hq
      exact ⟨none_keyed, fun t transport h => by cases h⟩
  obtain ⟨r, hcases, hs⟩ := handleWrite_requests g tasks (.cancel key) v (some (.canceled key)) none
  rw [show Request.tasks (.canceling key tasks) = tasks from rfl, hs] at howned
  rw [hs]
  refine h.monitor howned (fun t transport h => by rw [hr] at h; cases h) rfl rfl (fun u => ?_) fun q hq => ?_
  · cases hc : change ⟨tasks, g.shared.store⟩ (.cancel key, v) with
    | none =>
      have hrow := congrFun (step_rows (.cancel key, v) (m := ⟨tasks, g.shared.store⟩) hk) u
      rw [hc] at hrow
      exact Or.inl (storedState_congr hrow)
    | some kt =>
      obtain ⟨key', t⟩ := kt
      obtain ⟨t', ht', hput⟩ := Option.bind_eq_some_iff.mp hc
      rw [canTransition_canceled, if_pos rfl] at hput
      obtain ⟨rfl, rfl⟩ := Prod.mk.inj (Option.some.inj hput)
      by_cases huk : u = key
      · -- the row that is written is terminal
        subst huk
        have hold := h.read .monitor _ u hr (by rw [Request.tasks, show tasks u = some t' from ht']; rfl)
        have hst := step_storedState hk hc
        dsimp only at hst
        split_ifs at hst
        · refine Or.inr ⟨fun st hmem => ?_, hold, ?_⟩
          · have hmem : st ∈ storedState (Ota.step ⟨tasks, g.shared.store⟩ (.cancel u, v)).1.store u :=
              hmem
            rw [hst] at hmem
            cases hmem
            trivial
          · show (storedState (Ota.step ⟨tasks, g.shared.store⟩ (.cancel u, v)).1.store u).isSome
            rw [hst]
            rfl
        · exact Or.inl hst
      · exact Or.inl (storedState_congr (step_rows_of_ne hk id huk))
  · rcases hcases with rfl | rfl
    · cases hq
    · cases hq
      exact ⟨fun t transport h => (by cases h), fun u hu => by cases hu⟩

theorem attended_retry {g : Gateway} {n : Notes} (h : Attended (g, n)) {v : Env} {key : String}
    {tasks : String → Option OtaTask} (hr : g.requests .monitor = some (.retrying key tasks))
    (hu : v.saveError = none → ∀ t ∈ tasks key, t.state ≠ failed ∧ t.state ≠ canceled) :
    Attended (taskStep (g, n) (.write v)).1 := by
  have hk : Keyed tasks := h.owned.keyedRequest _ _ hr
  -- no retry is granted
  have hno : v.saveError = none → change ⟨tasks, g.shared.store⟩ (.retry key, v) = none := by
    intro hsave
    cases ht : tasks key with
    | none => simp only [change, ht, Option.bind_none]
    | some t =>
      obtain ⟨hf, hc⟩ := hu hsave t ht
      simp only [change, ht, Option.bind_some, hf, hc, or_self, if_false]
  have herr : ∃ err, (Ota.step ⟨tasks, g.shared.store⟩ (.retry key, v)).2.error = some err := by
    cases herr : (Ota.step ⟨tasks, g.shared.store⟩ (.retry key, v)).2.error with
    | some err => exact ⟨err, rfl⟩
    | none =>
      obtain ⟨key', t, hc, hsave, -⟩ := step_error_none herr
      rw [hno hsave] at hc
      cases hc
  obtain ⟨err, herr⟩ := herr
  have hs : g.step (.write v) =
      ((g.setStore (Ota.step ⟨tasks, g.shared.store⟩ (.retry key, v)).1.store).setRequest .monitor none,
        some (.refused "400 Bad Request" err)) := by
    simp only [Gateway.step, hr, Gateway.handleWrite, herr]
  have hrows : (Ota.step ⟨tasks, g.shared.store⟩ (.retry key, v)).1.store.tasks =
      g.shared.store.tasks := by
    rw [step_rows (.retry key, v) hk]
    by_cases hsave : v.saveError = none
    · rw [hno hsave]
    · cases change ⟨tasks, g.shared.store⟩ (.retry key, v) with
      | none => rfl
      | some kt => exact if_neg hsave
  show Attended ((g.step (.write v)).1, takeNote g n (.write v) (g.step (.write v)).2)
  rw [hs]
  simp only [takeNote, hr]
  refine h.monitor ?_ (fun t transport h => by rw [hr] at h; cases h) rfl rfl
    (fun u => Or.inl (storedState_congr (congrFun hrows u))) fun q hq => by cases hq
  exact h.owned.setRequest rfl rfl (fun u hsome => by rw [← hrows] at hsome; exact hsome)
    fun q hq => by cases hq

/-- A cancel or retry request reads the tasks. -/
theorem attended_read {g : Gateway} {n : Notes} (h : Attended (g, n)) {r : Request}
    (hr : g.requests .monitor = none) (howned : Owned (g.setRequest .monitor (some r)))
    (hnew : ∀ t transport, r ≠ .creating t transport)
    (hread : ∀ u, (r.tasks u).isSome → (storedState g.shared.store u).isSome) :
    Attended (g.setRequest .monitor (some r), n) := by
  refine h.monitor howned (fun t transport hcr => by rw [hr] at hcr; cases hcr) rfl rfl
    (fun u => Or.inl rfl) fun q hq => ?_
  cases hq
  exact ⟨hnew, hread⟩

theorem attended_write {g : Gateway} {n : Notes} (h : Attended (g, n)) {v : Env}
    (hu : Unfailing g (.write v)) : Attended (taskStep (g, n) (.write v)).1 := by
  show Attended ((g.step (.write v)).1, takeNote g n (.write v) (g.step (.write v)).2)
  cases hr : g.requests .monitor with
  | none =>
    simp only [Gateway.step, hr, takeNote]
    exact h
  | some r =>
    cases r with
    | retrying key tasks =>
      simp only [Unfailing, hr] at hu
      exact attended_retry h hr hu
    | canceling key tasks =>
      simp only [Gateway.step, hr, takeNote]
      exact attended_cancel h hr
    | creating t transport | canceled key =>
      simp only [Gateway.step, hr, takeNote]
      exact h

theorem attended_flag {g : Gateway} {n : Notes} (h : Attended (g, n))
    (howned : Owned (g.step .flag).1) : Attended ((g.step .flag).1, n) := by
  cases hr : g.requests .monitor with
  | none =>
    simp only [Gateway.step, hr]
    exact h
  | some r =>
    cases r with
    | creating t transport | canceling key tasks | retrying key tasks =>
      simp only [Gateway.step, hr]
      exact h
    | canceled key =>
      simp only [Gateway.step, hr] at howned ⊢
      exact h.monitor howned (fun t transport hcr => by rw [hr] at hcr; cases hcr) rfl rfl
        (fun u => Or.inl rfl) fun q hq => by cases hq

theorem Attended.step {w : Gateway × Notes} {e : Event} (h : Attended w) (hf : Fresh w.1 e)
    (hu : Unfailing w.1 e) : Attended (taskStep w e).1 := by
  obtain ⟨g, n⟩ := w
  have howned : Owned (g.step e).1 := h.owned.step hf
  cases e with
  | create src req active_t v => exact attended_create h hf hu
  | launch src active_t => exact attended_launch h hu
  | cancel key opened =>
    show Attended ((g.step (.cancel key opened)).1, n)
    cases hr : g.requests .monitor with
    | some r =>
      simp only [Gateway.step, hr]
      exact h
    | none =>
      simp only [Gateway.step, hr] at howned ⊢
      exact attended_read h hr howned (fun t transport hcr => by cases hcr)
        fun u hsome => openTasks_isSome hsome
  | retry key opened =>
    show Attended ((g.step (.retry key opened)).1, n)
    cases hr : g.requests .monitor with
    | some r =>
      simp only [Gateway.step, hr]
      exact h
    | none =>
      simp only [Gateway.step, hr] at howned ⊢
      exact attended_read h hr howned (fun t transport hcr => by cases hcr)
        fun u hsome => openTasks_isSome hsome
  | write v => exact attended_write h hu
  | flag => exact attended_flag h howned
  | exec i v =>
    show Attended ((g.step (.exec i v)).1, n)
    cases hx : g.executors[i]? with
    | none =>
      simp only [Gateway.step, hx]
      exact h
    | some x =>
      simp only [Gateway.step, hx]
      exact h.exec hx (hu x hx)

theorem boot_attended (store : PersistentStore) :
    Attended (bootGateway store, ⟨fun _ => false, fun _ => false⟩) :=
  ⟨bootGateway_owned store, fun x hx => (by cases hx), fun src t transport hr => (by cases hr),
    fun u hu => (by cases hu), fun u hu => (by cases hu), fun src r u hr => (by cases hr)⟩

/-- While create requests are valid and written as a whole, nothing is retried, and the store serves
the workers where they need it, no task is left without a worker. -/
theorem no_orphans (store : PersistentStore) (es : List Event)
    (h : Always taskStep (fun w e => Fresh w.1 e ∧ Unfailing w.1 e)
      (bootGateway store, ⟨fun _ => false, fun _ => false⟩) es) :
    Always taskStep (fun w e => NoOrphan (taskStep w e).1)
      (bootGateway store, ⟨fun _ => false, fun _ => false⟩) es :=
  Always.of_invariant (fun _ _ hw hc => ⟨hw.step hc.1 hc.2, (hw.step hc.1 hc.2).noOrphan⟩)
    (boot_attended store) h

/-- The firmware is missing, and the task is failed by its worker. -/
theorem no_orphans_failed : Always taskStep (fun w e => NoOrphan (taskStep w e).1)
    (bootGateway emptyStore, ⟨fun _ => false, fun _ => false⟩)
    (stm32Task 1 ++ List.replicate 17 (.exec 0 { calm with found := false })) :=
  no_orphans emptyStore _ (by decide +kernel)

/-- A request with transport `wifi` is refused after its task was stored. -/
theorem wifi_orphan : ¬ ∀ store es, Always taskStep (fun w e => NoOrphan (taskStep w e).1)
    (bootGateway store, ⟨fun _ => false, fun _ => false⟩) es := by
  intro h
  have hrun := h emptyStore [.create .monitor ⟨some 1, some "esp32", some "fw", some "wifi"⟩ ""
    ⟨1, 0, none, none⟩, .launch .monitor ""]
  have htended := hrun.2.1.tended "ota-1"
  unfold Gateway.Tended at htended
  revert htended
  decide +kernel

end EdgeLink.Ota
