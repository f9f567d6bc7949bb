import EdgeLink.OtaCancel

namespace EdgeLink.Ota
open Machine

/-! The controller's book of its workers, and how it stops. -/

/-- The thread of a worker, when `executeOtaTask` returns. -/
inductive Thread
  | executing
  /-- its id is out of `active_ota_task_ids_` -/
  | cleared
  /-- its future is ready -/
  | ready
  deriving DecidableEq

/-- Where `stop` is. -/
inductive Stopping
  | no
  | asked
  /-- the flags that `cancelActiveOtaTasks` has still to set -/
  | canceling (task_ids : List String)
  /-- the futures that `waitForOtaTasks` has still to get -/
  | waiting (tasks : List ℕ)
  | stopped
  deriving DecidableEq

def Stopping.tasks : Stopping → List ℕ
  | waiting tasks => tasks
  | _ => []

structure Controller where
  gateway : Gateway
  running : Bool
  /-- the workers whose futures are in `ota_tasks_` -/
  otaTasks : List ℕ
  activeOtaTaskIds : List String
  threads : ℕ → Thread
  stopping : Stopping

inductive ControllerEvent
  | gateway (e : Event)
  | clearTask (i : ℕ)
  | threadEnd (i : ℕ)
  | stop

namespace Controller
variable (c : Controller)

/-- The futures that are got are given back. -/
def reapFinishedOtaTasksLocked : Controller × List ℕ :=
  ({ c with otaTasks := c.otaTasks.filter fun i => c.threads i ≠ .ready },
    c.otaTasks.filter fun i => c.threads i = .ready)

def launchOtaTask (i : ℕ) (task_uuid : String) : Controller × List ℕ :=
  let r := c.reapFinishedOtaTasksLocked
  ({ r.1 with activeOtaTaskIds := r.1.activeOtaTaskIds.insert task_uuid,
              otaTasks := r.1.otaTasks ++ [i] }, r.2)

/-- The senders that a worker is given send nothing once the application stops. -/
def senders (v : Input) : Input :=
  if c.running then v else { v with sent := false, sendError := "app stopping" }

def given (e : Event) : Event :=
  match e with
  | .exec i v => .exec i (c.senders v)
  | e => e

/-- A request or a worker goes on. A new worker is the last one. -/
def onGateway (e : Event) : Controller × List ℕ :=
  let c' := { c with gateway := (c.gateway.step (c.given e)).1 }
  match c'.gateway.executors[c.gateway.executors.length]? with
  | some x => c'.launchOtaTask c.gateway.executors.length x.taskUuid
  | none => (c', [])

def clearTask (i : ℕ) : Controller :=
  match c.gateway.executors[i]? with
  | some x =>
    if x.pc = .done ∧ c.threads i = .executing then
      { c with threads := Function.update c.threads i .cleared,
               activeOtaTaskIds := c.activeOtaTaskIds.filter (· ≠ x.taskUuid) }
    else c
  | none => c

def threadEnd (i : ℕ) : Controller :=
  if c.threads i = .cleared then { c with threads := Function.update c.threads i .ready } else c

/-- The next step of the thread that stops the application. -/
def stop : Controller × List ℕ :=
  match c.stopping with
  | .no => ({ c with running := false, stopping := .asked }, [])
  | .asked => ({ c with stopping := .canceling c.activeOtaTaskIds }, [])
  | .canceling (task_id :: task_ids) =>
    ({ c with gateway := { c.gateway with shared := c.gateway.shared.otaCancelSet task_id true },
              stopping := .canceling task_ids }, [])
  | .canceling [] => ({ c with otaTasks := [], stopping := .waiting c.otaTasks }, [])
  | .waiting (i :: tasks) =>
    if c.threads i = .ready then ({ c with stopping := .waiting tasks }, [i]) else (c, [])
  | .waiting [] => ({ c with stopping := .stopped }, [])
  | .stopped => (c, [])

def step (e : ControllerEvent) : Controller × List ℕ :=
  match e with
  | .gateway e => c.onGateway e
  | .clearTask i => (c.clearTask i, [])
  | .threadEnd i => (c.threadEnd i, [])
  | .stop => c.stop

end Controller

def bootController (store : PersistentStore) : Controller :=
  ⟨bootGateway store, true, [], [], fun _ => .executing, .no⟩

/-- The futures that were got, and how many workers there were when `stop` took over theirs. -/
structure Got where
  futures : List ℕ
  before : Option ℕ

def got (c : Controller) (g : Got) (e : ControllerEvent) (out : List ℕ) : Got :=
  ⟨g.futures ++ out,
    match e with
    | .stop => if c.stopping = .canceling [] then some c.gateway.executors.length else g.before
    | _ => g.before⟩

section Workers
variable {c : Controller} {g : Gateway} {e : Event}

/-- Workers keep their tasks, stay through, and at most one joins them. -/
theorem executors_step (g : Gateway) (e : Event) :
    (∃ x, (g.step e).1.executors = g.executors ++ [x]) ∨
    (g.step e).1.executors.length = g.executors.length ∧
      ∀ (i : ℕ) (x : Executor), g.executors[i]? = some x → ∃ y, (g.step e).1.executors[i]? = some y ∧
        y.taskUuid = x.taskUuid ∧ (x.pc = .done → y.pc = .done) := by
  rcases g.step_cases e with ⟨i, x, v, rfl, hx, hs⟩ | ⟨src, t, transport, active_t, -, -, -, hs⟩ |
    ⟨hs, -⟩
  · right
    rw [hs]
    refine ⟨List.length_set, fun j y hy => ?_⟩
    by_cases hj : i = j
    · subst hj
      obtain rfl := Option.some.inj (hx.symm.trans hy)
      have hlen := (List.getElem?_eq_some_iff.mp hx).1
      refine ⟨_, List.getElem?_set_self hlen, x.step_uuid _ v, fun hdone => ?_⟩
      unfold Executor.step
      rw [hdone]
      exact hdone
    · exact ⟨y, (List.getElem?_set_ne hj).trans hy, rfl, id⟩
  · left
    rw [hs]
    exact ⟨_, rfl⟩
  · right
    rw [hs]
    exact ⟨rfl, fun i x hx => ⟨x, hx, rfl, id⟩⟩

/-- What is known of each worker is known of it as long as it is there. -/
theorem executors_kept {i : ℕ} {x : Executor} (hx : g.executors[i]? = some x) :
    ∃ y, (g.step e).1.executors[i]? = some y ∧ y.taskUuid = x.taskUuid ∧
      (x.pc = .done → y.pc = .done) := by
  rcases executors_step g e with ⟨z, hs⟩ | ⟨-, hs⟩
  · have hlen := (List.getElem?_eq_some_iff.mp hx).1
    exact ⟨x, by rw [hs, List.getElem?_append_left hlen, hx], rfl, id⟩
  · exact hs i x hx

end Workers

structure Book (c : Controller) (g : Got) : Prop where
  futures : (c.otaTasks ++ c.stopping.tasks ++ g.futures).Perm
    (List.range c.gateway.executors.length)
  ready : ∀ i ∈ g.futures, c.threads i = .ready
  through : ∀ (i : ℕ) (x : Executor), c.gateway.executors[i]? = some x → c.threads i ≠ .executing →
    x.pc = .done
  started : ∀ i, c.threads i ≠ .executing → i < c.gateway.executors.length
  active : ∀ u ∈ c.activeOtaTaskIds, ∃ (i : ℕ) (x : Executor),
    c.gateway.executors[i]? = some x ∧ x.taskUuid = u ∧ c.threads i = .executing
  listed : ∀ (i : ℕ) (x : Executor), c.gateway.executors[i]? = some x → c.threads i = .executing →
    x.taskUuid ∈ c.activeOtaTaskIds ∨
      ∃ (j : ℕ) (y : Executor), j ≠ i ∧ c.gateway.executors[j]? = some y ∧ y.taskUuid = x.taskUuid
  before : ∀ n ∈ g.before, ∀ i ∈ c.otaTasks, n ≤ i
  bound : ∀ n ∈ g.before, n ≤ c.gateway.executors.length
  taken : (∃ tasks, c.stopping = .waiting tasks) ∨ c.stopping = .stopped → g.before.isSome

section Book
variable {c : Controller} {g : Got}

/-- Workers go on, and no future changes hands. -/
theorem Book.workers (h : Book c g) {gateway : Gateway}
    (hlen : gateway.executors.length = c.gateway.executors.length)
    (hkept : ∀ (i : ℕ) (x : Executor), c.gateway.executors[i]? = some x →
      ∃ y, gateway.executors[i]? = some y ∧ y.taskUuid = x.taskUuid ∧ (x.pc = .done → y.pc = .done)) :
    Book { c with gateway := gateway } g := by
  have hback : ∀ (i : ℕ) (y : Executor), gateway.executors[i]? = some y →
      ∃ x, c.gateway.executors[i]? = some x ∧ y.taskUuid = x.taskUuid ∧
        (x.pc = .done → y.pc = .done) := by
    intro i y hy
    have hi := (List.getElem?_eq_some_iff.mp hy).1
    rw [hlen] at hi
    obtain ⟨z, hz, huuid, hdone⟩ := hkept i _ (List.getElem?_eq_getElem hi)
    obtain rfl := Option.some.inj (hy.symm.trans hz)
    exact ⟨_, List.getElem?_eq_getElem hi, huuid, hdone⟩
  constructor
  · rw [hlen]
    exact h.futures
  · exact h.ready
  · intro i y hy ht
    obtain ⟨x, hx, -, hdone⟩ := hback i y hy
    exact hdone (h.through i x hx ht)
  · rw [hlen]
    exact h.started
  · intro u hu
    obtain ⟨i, x, hx, rfl, ht⟩ := h.active u hu
    obtain ⟨y, hy, huuid, -⟩ := hkept i x hx
    exact ⟨i, y, hy, huuid, ht⟩
  · intro i y hy ht
    obtain ⟨x, hx, huuid, -⟩ := hback i y hy
    rw [huuid]
    refine (h.listed i x hx ht).imp_right ?_
    rintro ⟨j, z, hj, hz, hzx⟩
    obtain ⟨z', hz', huuid', -⟩ := hkept j z hz
    exact ⟨j, z', hj, hz', huuid'.trans hzx⟩
  · exact h.before
  · rw [hlen]
    exact h.bound
  · exact h.taken

/-- A worker joins, and the futures that are ready are got. -/
theorem Book.launch (h : Book c g) {gateway : Gateway} {x : Executor}
    (hs : gateway.executors = c.gateway.executors ++ [x]) :
    Book ({ c with gateway := gateway }.launchOtaTask c.gateway.executors.length x.taskUuid).1
      ⟨g.futures ++ ({ c with gateway := gateway }.launchOtaTask c.gateway.executors.length
        x.taskUuid).2, g.before⟩ := by
  have hnew : ∀ i, c.threads i ≠ .executing → i < gateway.executors.length := by
    intro i hi
    rw [hs, List.length_append]
    exact (h.started i hi).trans (Nat.lt_succ_self _)
  have hat : ∀ (i : ℕ) (y : Executor), gateway.executors[i]? = some y →
      c.gateway.executors[i]? = some y ∨ i = c.gateway.executors.length ∧ y = x := by
    intro i y hy
    rw [hs] at hy
    exact getElem?_concat_cases hy
  have hold : ∀ (i : ℕ) (y : Executor), c.gateway.executors[i]? = some y →
      gateway.executors[i]? = some y := by
    intro i y hy
    rw [hs, List.getElem?_append_left (List.getElem?_eq_some_iff.mp hy).1, hy]
  have hlast : gateway.executors[c.gateway.executors.length]? = some x := by
    rw [hs, List.getElem?_concat_length]
  have hrunning : c.threads c.gateway.executors.length = .executing := by
    by_contra hne
    exact absurd (h.started _ hne) (lt_irrefl _)
  constructor
  · -- the futures that are got and those that stay are the old ones, and the new one is last
    apply List.perm_iff_count.mpr
    intro i
    have hparts := (List.filter_append_perm (fun i => c.threads i ≠ .ready) c.otaTasks).count_eq i
    have hall := h.futures.count_eq i
    simp only [List.count_append, decide_not, Bool.not_not] at hparts hall
    show List.count i ((c.otaTasks.filter (fun i => c.threads i ≠ .ready) ++
      [c.gateway.executors.length]) ++ c.stopping.tasks ++
      (g.futures ++ c.otaTasks.filter fun i => c.threads i = .ready)) =
      List.count i (List.range gateway.executors.length)
    rw [hs, List.length_append, List.length_singleton, List.range_succ]
    simp only [List.count_append, decide_not]
    omega
  · intro i hi
    rcases List.mem_append.mp hi with hi | hi
    · exact h.ready i hi
    · exact of_decide_eq_true (List.mem_filter.mp hi).2
  · intro i y hy ht
    rcases hat i y hy with hy | ⟨rfl, -⟩
    · exact h.through i y hy ht
    · exact absurd hrunning ht
  · exact hnew
  · intro u hu
    rcases List.mem_insert_iff.mp hu with rfl | hu
    · exact ⟨_, x, hlast, rfl, hrunning⟩
    · obtain ⟨i, y, hy, huuid, ht⟩ := h.active u hu
      exact ⟨i, y, hold i y hy, huuid, ht⟩
  · intro i y hy ht
    rcases hat i y hy with hy | ⟨-, rfl⟩
    · apply (h.listed i y hy ht).imp
      · exact fun hu => List.mem_insert_of_mem hu
      · rintro ⟨j, z, hj, hz, hzy⟩
        exact ⟨j, z, hj, hold j z hz, hzy⟩
    · exact Or.inl List.mem_insert_self
  · intro n hn i hi
    rcases List.mem_append.mp hi with hi | hi
    · exact h.before n hn i (List.mem_of_mem_filter hi)
    · rw [List.mem_singleton.mp hi]
      exact h.bound n hn
  · intro n hn
    show n ≤ gateway.executors.length
    rw [hs, List.length_append]
    exact (h.bound n hn).trans (Nat.le_add_right _ _)
  · exact h.taken

theorem Book.onGateway (h : Book c g) (e : Event) :
    Book (c.onGateway e).1 ⟨g.futures ++ (c.onGateway e).2, g.before⟩ := by
  unfold Controller.onGateway
  dsimp only
  generalize c.given e = e
  rcases executors_step c.gateway e with ⟨x, hs⟩ | ⟨hlen, hkept⟩
  · have hlast : (c.gateway.step e).1.executors[c.gateway.executors.length]? = some x := by
      rw [hs, List.getElem?_concat_length]
    rw [hlast]
    exact h.launch hs
  · have hnone : (c.gateway.step e).1.executors[c.gateway.executors.length]? = none :=
      List.getElem?_eq_none hlen.le
    rw [hnone]
    dsimp only
    rw [List.append_nil]
    exact h.workers hlen hkept

theorem Book.clearTask (h : Book c g) (i : ℕ) : Book (c.clearTask i) g := by
  unfold Controller.clearTask
  cases hx : c.gateway.executors[i]? with
  | none => exact h
  | some x =>
    dsimp only
    split
    · next hdone =>
      have hother : ∀ {j}, j ≠ i → Function.update c.threads i .cleared j = c.threads j :=
        fun hj => Function.update_of_ne hj _ _
      have hself : Function.update c.threads i .cleared i = .cleared := Function.update_self ..
      have hready : ∀ j ∈ g.futures, j ≠ i := by
        rintro j hj rfl
        have := h.ready j hj
        rw [hdone.2] at this
        cases this
      constructor
      · exact h.futures
      · intro j hj
        exact (hother (hready j hj)).trans (h.ready j hj)
      · intro j y hy ht
        by_cases hj : j = i
        · subst hj
          obtain rfl := Option.some.inj (hx.symm.trans hy)
          exact hdone.1
        · exact h.through j y hy (by rwa [← hother hj])
      · intro j ht
        by_cases hj : j = i
        · subst hj
          exact (List.getElem?_eq_some_iff.mp hx).1
        · exact h.started j (by rwa [← hother hj])
      · -- the entry of the cleared worker's task is gone, the others have a worker that is not it
        intro u hu
        obtain ⟨hu, hne⟩ := List.mem_filter.mp hu
        obtain ⟨j, y, hy, rfl, ht⟩ := h.active u hu
        have hj : j ≠ i := by
          rintro rfl
          obtain rfl := Option.some.inj (hx.symm.trans hy)
          exact of_decide_eq_true hne rfl
        exact ⟨j, y, hy, rfl, (hother hj).trans ht⟩
      · intro j y hy ht
        have hj : j ≠ i := by
          rintro rfl
          exact Thread.noConfusion (hself.symm.trans ht)
        have ht := (hother hj).symm.trans ht
        rcases h.listed j y hy ht with hu | htwin
        · by_cases hne : y.taskUuid = x.taskUuid
          · -- a second worker of the same task has lost its entry to the first
            exact Or.inr ⟨i, x, Ne.symm hj, hx, hne.symm⟩
          · exact Or.inl (List.mem_filter.mpr ⟨hu, decide_eq_true hne⟩)
        · exact Or.inr htwin
      · exact h.before
      · exact h.bound
      · exact h.taken
    · exact h

theorem Book.threadEnd (h : Book c g) (i : ℕ) : Book (c.threadEnd i) g := by
  unfold Controller.threadEnd
  split
  · next hi =>
    have hexec : ∀ j, Function.update c.threads i .ready j = .executing ↔
        c.threads j = .executing := by
      intro j
      by_cases hj : j = i
      · subst hj
        simp [hi]
      · rw [Function.update_of_ne hj]
    constructor
    · exact h.futures
    · intro j hj
      by_cases hji : j = i
      · subst hji
        exact Function.update_self ..
      · exact (Function.update_of_ne hji _ _).trans (h.ready j hj)
    · exact fun j y hy ht => h.through j y hy fun he => ht ((hexec j).mpr he)
    · exact fun j ht => h.started j fun he => ht ((hexec j).mpr he)
    · intro u hu
      obtain ⟨j, y, hy, huuid, ht⟩ := h.active u hu
      exact ⟨j, y, hy, huuid, (hexec j).mpr ht⟩
    · exact fun j y hy ht => h.listed j y hy ((hexec j).mp ht)
    · exact h.before
    · exact h.bound
    · exact h.taken
  · exact h

theorem Book.stop (h : Book c g) :
    Book c.stop.1 (got c g .stop c.stop.2) := by
  unfold Controller.stop got
  -- only a ready future that `stop` waits for changes its list
  cases hs : c.stopping with
  | no | asked =>
    have hfutures := h.futures
    rw [hs] at hfutures
    rw [List.append_nil]
    refine ⟨hfutures, h.ready, h.through, h.started, h.active, h.listed, h.before, h.bound, ?_⟩
    rintro (⟨tasks, hw⟩ | ho)
    · cases hw
    · cases ho
  | canceling task_ids =>
    have hfutures := h.futures
    rw [hs] at hfutures
    cases task_ids with
    | cons task_id task_ids =>
      rw [List.append_nil]
      refine ⟨hfutures, h.ready, h.through, h.started, h.active, h.listed, h.before, h.bound, ?_⟩
      rintro (⟨tasks, hw⟩ | ho)
      · cases hw
      · cases ho
    | nil =>
      dsimp only
      rw [if_pos rfl, List.append_nil]
      refine ⟨?_, h.ready, h.through, h.started, h.active, h.listed, ?_, ?_, fun _ => rfl⟩
      · simpa [Stopping.tasks] using hfutures
      · exact fun _ _ i hi => absurd hi List.not_mem_nil
      · intro n hn
        rw [Option.mem_some_iff.mp hn]
  | waiting tasks =>
    have hfutures := h.futures
    rw [hs] at hfutures
    have htaken : g.before.isSome := h.taken (Or.inl ⟨tasks, hs⟩)
    cases tasks with
    | nil =>
      rw [List.append_nil]
      exact ⟨hfutures, h.ready, h.through, h.started, h.active, h.listed, h.before, h.bound,
        fun _ => htaken⟩
    | cons i tasks =>
      by_cases hi : c.threads i = .ready
      · simp only [if_pos hi]
        refine ⟨?_, ?_, h.through, h.started, h.active, h.listed, h.before, h.bound, fun _ => htaken⟩
        · refine List.Perm.trans ?_ hfutures
          show (c.otaTasks ++ tasks ++ (g.futures ++ [i])).Perm (c.otaTasks ++ (i :: tasks) ++ g.futures)
          apply List.perm_iff_count.mpr
          intro j
          simp only [List.count_append, List.count_cons, List.count_nil]
          omega
        · intro j hj
          rcases List.mem_append.mp hj with hj | hj
          · exact h.ready j hj
          · rw [List.mem_singleton.mp hj]
            exact hi
      · simp only [if_neg hi, List.append_nil]
        exact h
  | stopped =>
    rw [List.append_nil]
    exact h

theorem Book.step (h : Book c g) (e : ControllerEvent) :
    Book (c.step e).1 (got c g e (c.step e).2) := by
  cases e with
  | gateway e => exact h.onGateway e
  | clearTask i =>
    have hsame : got c g (.clearTask i) [] = g := congrArg (Got.mk · g.before) (List.append_nil _)
    show Book (c.clearTask i) (got c g (.clearTask i) [])
    rw [hsame]
    exact h.clearTask i
  | threadEnd i =>
    have hsame : got c g (.threadEnd i) [] = g := congrArg (Got.mk · g.before) (List.append_nil _)
    show Book (c.threadEnd i) (got c g (.threadEnd i) [])
    rw [hsame]
    exact h.threadEnd i
  | stop => exact h.stop

end Book

theorem Book.boot (store : PersistentStore) : Book (bootController store) ⟨[], none⟩ := by
  constructor
  · exact List.Perm.refl _
  · exact fun i hi => absurd hi List.not_mem_nil
  · exact fun i x hx => absurd hx (by simp [bootController, bootGateway])
  · exact fun i hi => absurd rfl hi
  · exact fun u hu => absurd hu List.not_mem_nil
  · exact fun i x hx => absurd hx (by simp [bootController, bootGateway])
  · exact fun n hn => absurd hn (Option.not_mem_none n)
  · exact fun n hn => absurd hn (Option.not_mem_none n)
  · rintro (⟨tasks, hw⟩ | ho)
    · cases hw
    · cases ho

/-- The controller, and what became of its futures. -/
def control (store : PersistentStore) (es : List ControllerEvent) : Controller × Got :=
  run (watched Controller.step got) (bootController store, ⟨[], none⟩) es

theorem Book.control (store : PersistentStore) (es : List ControllerEvent) :
    Book (control store es).1 (control store es).2 :=
  run_keeps (I := fun w : Controller × Got => Book w.1 w.2) (fun _ e h => h.step e) (Book.boot store) es

/-- However requests, workers, the ends of their threads and `stop` interleave: each worker's future is
in the controller's list, in that of `stop`, or has been got once, and then the worker is through;
the ids listed as active are those of workers that are not; and when `stop` has waited, every worker
launched before it took the list is through. Only those launched later may still be at work. -/
theorem stop_waits (store : PersistentStore) (es : List ControllerEvent) :
    let c := (control store es).1
    let g := (control store es).2
    (c.otaTasks ++ c.stopping.tasks ++ g.futures).Perm (List.range c.gateway.executors.length) ∧
    (∀ i ∈ g.futures, ∃ x, c.gateway.executors[i]? = some x ∧ x.pc = .done) ∧
    (∀ u ∈ c.activeOtaTaskIds, ∃ (i : ℕ) (x : Executor),
      c.gateway.executors[i]? = some x ∧ x.taskUuid = u ∧ c.threads i = .executing) ∧
    (∀ (i : ℕ) (x : Executor), c.gateway.executors[i]? = some x → c.threads i = .executing →
      x.taskUuid ∈ c.activeOtaTaskIds ∨
        ∃ (j : ℕ) (y : Executor), j ≠ i ∧ c.gateway.executors[j]? = some y ∧ y.taskUuid = x.taskUuid) ∧
    (c.stopping = .stopped → ∃ n ∈ g.before, (∀ i ∈ c.otaTasks, n ≤ i) ∧
      ∀ i < n, ∃ x, c.gateway.executors[i]? = some x ∧ x.pc = .done) := by
  intro c g
  have h : Book c g := Book.control store es
  have hthrough : ∀ i ∈ g.futures, ∃ x, c.gateway.executors[i]? = some x ∧ x.pc = .done := by
    intro i hi
    have hlen : i < c.gateway.executors.length :=
      List.mem_range.mp (h.futures.mem_iff.mp (List.mem_append_right _ hi))
    have hne : c.threads i ≠ .executing := by
      rw [h.ready i hi]
      exact Thread.noConfusion
    exact ⟨_, List.getElem?_eq_getElem hlen, h.through i _ (List.getElem?_eq_getElem hlen) hne⟩
  refine ⟨h.futures, hthrough, h.active, h.listed, fun hover => ?_⟩
  obtain ⟨n, hn⟩ := Option.isSome_iff_exists.mp (h.taken (Or.inr hover))
  refine ⟨n, hn, h.before n hn, fun i hi => hthrough i ?_⟩
  have hrange : i ∈ c.otaTasks ++ c.stopping.tasks ++ g.futures :=
    h.futures.mem_iff.mpr (List.mem_range.mpr (hi.trans_le (h.bound n hn)))
  have hnone : c.stopping.tasks = [] := congrArg Stopping.tasks hover
  rw [hnone, List.append_nil] at hrange
  rcases List.mem_append.mp hrange with hlist | hgot
  · exact absurd hi (not_lt.mpr (h.before n hn i hlist))
  · exact hgot

/-- It has still to reset its flag. -/
def Pc.resetAhead : Pc → Bool
  | .start | .load | .resetCancel => true
  | _ => false

/-- The steps to the end, once the flag is set. -/
def Pc.left : Pc → ℕ
  | .done => 0
  | .release | .rejectClear => 1
  | .leave | .reject => 2
  | .unmute | .rejectLoad => 3
  | .unlock | .rejectRelease => 4
  | .clearCancel => 5
  | .canceling | .failing _ | .succeed => 6
  | .firstPoll | .poll _ | .runDone _ _ => 7
  | .enterDevice | .update _ | .runPoll | .esp32Report _ _ => 8
  | .firmware | .exchange | .progress | .esp32Wait | .hello => 9
  | .esp32Send | .enterMode => 10
  | .image => 11
  | .lock => 12
  | .mute => 13
  | .dispatch => 14
  | .start | .load | .resetCancel => 15

/-- The flag may still be looked at. -/
def Pc.listens (pc : Pc) : Bool := 6 ≤ pc.left

/-- The exchanges of `adapter.run` are not counted. -/
def Pc.counts : Pc → ℕ
  | .exchange | .progress | .done => 0
  | _ => 1

theorem Pc.left_le {pc : Pc} (h : pc.resetAhead = false) : pc.left ≤ 14 := by
  cases pc with
  | start | load | resetCancel => cases h
  | _ => exact Nat.le_of_ble_eq_true rfl

section Worker
variable {x : Executor} {sh : Shared} (v : Input)

theorem Executor.step_resetAhead (he : x.pc.resetAhead = false) :
    (x.step sh v).2.pc.resetAhead = false := by
  obtain ⟨task_uuid, device_type, transport, device_id, pc, tasks, entered, muted, locked⟩ := x
  cases pc with
  | start | load | resetCancel => cases he
  | firstPoll | poll passed | runDone ok err =>
    simp only [Executor.step, Executor.unlessCanceled, Executor.goto]
    split
    · rfl
    · first | rfl | (cases passed <;> rfl) | (unfold verdict; split_ifs <;> rfl)
  | runPoll | hello | image | esp32Send | esp32Wait | firmware | dispatch | enterMode | progress =>
    simp only [Executor.step, Executor.goto, Executor.manage]
    split_ifs <;> rfl
  | exchange =>
    simp only [Executor.step, Executor.goto]
    split <;> rfl
  | _ => rfl

/-- A worker whose flag is set comes nearer to its end with every step that counts. -/
theorem Executor.step_left (he : x.pc.resetAhead = false)
    (hf : x.pc.listens = true → sh.cancelFlags x.taskUuid = some true) :
    ((x.step sh v).2.pc.listens = true → (x.step sh v).1.cancelFlags x.taskUuid = some true) ∧
      (x.step sh v).2.pc.left + x.pc.counts ≤ x.pc.left := by
  obtain ⟨task_uuid, device_type, transport, device_id, pc, tasks, entered, muted, locked⟩ := x
  have hset : Pc.listens pc = true → sh.otaCancelRequested task_uuid = true := by
    intro hl
    rw [Shared.otaCancelRequested, show sh.cancelFlags task_uuid = some true from hf hl]
    rfl
  cases pc with
  | start | load | resetCancel => cases he
  | firstPoll | poll passed | runPoll | runDone ok err =>
    have hset := hset rfl
    simp only [Executor.step, Executor.unlessCanceled, hset, if_true, Executor.goto]
    exact ⟨fun _ => hf rfl, le_rfl⟩
  | hello | image | esp32Send | esp32Wait | firmware | dispatch | enterMode | progress =>
    apply And.intro fun _ => hf rfl
    simp only [Executor.step, Executor.goto, Executor.manage]
    split_ifs <;> exact Nat.le_of_ble_eq_true rfl
  | exchange =>
    apply And.intro fun _ => hf rfl
    simp only [Executor.step, Executor.goto]
    split <;> exact Nat.le_of_ble_eq_true rfl
  | clearCancel | rejectRelease | rejectLoad | reject | rejectClear | unlock | unmute | leave |
    release | done => exact ⟨fun h => Bool.noConfusion h, le_rfl⟩
  | enterDevice | update next | mute | lock | esp32Report ok err | succeed | failing reason |
    canceling => exact ⟨fun _ => hf rfl, Nat.le_of_ble_eq_true rfl⟩

end Worker

/-- Requests take no flag back. -/
theorem Gateway.step_flags {g : Gateway} {u : String} (h : g.shared.cancelFlags u = some true)
    {e : Event} (he : ∀ i v, e ≠ .exec i v) : (g.step e).1.shared.cancelFlags u = some true := by
  cases e with
  | exec i v => exact absurd rfl (he i v)
  | create src req active_t v =>
    unfold Gateway.step
    dsimp only
    split
    · unfold handleCreate
      split
      · dsimp only
        split_ifs
        · exact h
        · split <;> exact h
        · split <;> exact h
      · exact h
    · exact h
  | launch src active_t =>
    unfold Gateway.step
    dsimp only
    split
    · unfold handleLaunch
      dsimp only
      split_ifs <;> exact h
    · exact h
  | cancel task_uuid opened | retry task_uuid opened =>
    unfold Gateway.step
    dsimp only
    split <;> exact h
  | write v =>
    have hwrite : ∀ tasks c next reply,
        (g.handleWrite tasks c v next reply).1.shared.cancelFlags u = some true := by
      intro tasks c next reply
      unfold handleWrite
      dsimp only
      split <;> exact h
    unfold Gateway.step
    dsimp only
    split
    · exact hwrite ..
    · exact hwrite ..
    · exact h
  | flag =>
    unfold Gateway.step
    dsimp only
    split
    · next task_uuid hr =>
      show Function.update g.shared.cancelFlags task_uuid (some true) u = some true
      by_cases hu : u = task_uuid
      · rw [hu, Function.update_self]
      · rw [Function.update_of_ne hu, h]
    · exact h

/-- The steps of worker `i`. -/
def stepsOf (i : ℕ) (c : Controller) (n : ℕ) (e : ControllerEvent) (_ : List ℕ) : ℕ :=
  match e with
  | .gateway (.exec j _) =>
    if j = i then n + (c.gateway.executors[i]?.map fun x => x.pc.counts).getD 0 else n
  | _ => n

/-- Another worker has the same task. -/
def Twin (c : Controller) (i : ℕ) : Prop :=
  ∃ (j : ℕ) (x y : Executor), j ≠ i ∧ c.gateway.executors[i]? = some x ∧
    c.gateway.executors[j]? = some y ∧ y.taskUuid = x.taskUuid

/-- The flag of a worker is set, or it will not look at it any more. -/
def Told (c : Controller) (x : Executor) : Prop :=
  x.pc.listens = true → c.gateway.shared.cancelFlags x.taskUuid = some true

/-- Worker `i`, past the reset of its flag, has gone from `x` to `y`. -/
structure Onward (i : ℕ) (c : Controller) (n : ℕ) (x : Executor) (c' : Controller) (n' : ℕ)
    (y : Executor) : Prop where
  here : c'.gateway.executors[i]? = some y
  uuid : y.taskUuid = x.taskUuid
  early : y.pc.resetAhead = false
  told : Told c x → Told c' y ∧ n' + y.pc.left ≤ n + x.pc.left

section Onward
variable {c : Controller} {i n : ℕ} {x : Executor}

theorem onGateway_gateway (c : Controller) (e : Event) :
    (c.onGateway e).1.gateway = (c.gateway.step (c.given e)).1 ∧
      (c.onGateway e).1.stopping = c.stopping := by
  unfold Controller.onGateway
  dsimp only
  split <;> exact ⟨rfl, rfl⟩

theorem clearTask_gateway (c : Controller) (j : ℕ) :
    (c.clearTask j).gateway = c.gateway ∧ (c.clearTask j).stopping = c.stopping := by
  unfold Controller.clearTask
  split
  · split <;> exact ⟨rfl, rfl⟩
  · exact ⟨rfl, rfl⟩

theorem threadEnd_gateway (c : Controller) (j : ℕ) :
    (c.threadEnd j).gateway = c.gateway ∧ (c.threadEnd j).stopping = c.stopping := by
  unfold Controller.threadEnd
  split <;> exact ⟨rfl, rfl⟩

/-- `stop` leaves the gateway as it is, or sets a flag. -/
theorem stop_gateway (c : Controller) : c.stop.1.gateway = c.gateway ∨
    ∃ u, c.stop.1.gateway = { c.gateway with shared := c.gateway.shared.otaCancelSet u true } := by
  unfold Controller.stop
  split
  · exact Or.inl rfl
  · exact Or.inl rfl
  · exact Or.inr ⟨_, rfl⟩
  · exact Or.inl rfl
  · left
    split <;> rfl
  · exact Or.inl rfl
  · exact Or.inl rfl

theorem Twin.congr (h : Twin c i) {c' : Controller}
    (hc : c'.gateway.executors = c.gateway.executors) : Twin c' i := by
  unfold Twin
  rw [hc]
  exact h

theorem Twin.step (h : Twin c i) (e : ControllerEvent) : Twin (c.step e).1 i := by
  cases e with
  | gateway e =>
    obtain ⟨j, x, y, hj, hx, hy, huuid⟩ := h
    show Twin (c.onGateway e).1 i
    unfold Twin
    rw [(onGateway_gateway c e).1]
    obtain ⟨x', hx', hxu, -⟩ := executors_kept (e := c.given e) hx
    obtain ⟨y', hy', hyu, -⟩ := executors_kept (e := c.given e) hy
    exact ⟨j, x', y', hj, hx', hy', by rw [hyu, hxu, huuid]⟩
  | clearTask j => exact h.congr (congrArg Gateway.executors (clearTask_gateway c j).1)
  | threadEnd j => exact h.congr (congrArg Gateway.executors (threadEnd_gateway c j).1)
  | stop =>
    show Twin c.stop.1 i
    apply h.congr
    rcases stop_gateway c with hs | ⟨u, hs⟩
    · rw [hs]
    · rw [hs]

theorem executor_waits {g : Gateway} {e : Event} (he : ∀ j v, e ≠ .exec j v)
    (hx : g.executors[i]? = some x) : (g.step e).1.executors[i]? = some x := by
  have hlen := (List.getElem?_eq_some_iff.mp hx).1
  rcases g.step_cases e with ⟨j, y, v, rfl, -, -⟩ | ⟨src, t, transport, active_t, -, -, -, hs⟩ | ⟨hs, -⟩
  · exact absurd rfl (he j v)
  · rw [hs]
    exact (List.getElem?_append_left hlen).trans hx
  · rw [hs, hx]

theorem onward_exec (hx : c.gateway.executors[i]? = some x) (he : x.pc.resetAhead = false) (j : ℕ)
    (v : Input) : Twin { c with gateway := (c.gateway.step (.exec j v)).1 } i ∨
      ∃ y, Onward i c n x { c with gateway := (c.gateway.step (.exec j v)).1 }
        (stepsOf i c n (.gateway (.exec j v)) []) y := by
  unfold Gateway.step stepsOf
  dsimp only
  cases hy : c.gateway.executors[j]? with
  | none =>
    have hj : j ≠ i := by
      rintro rfl
      cases hx.symm.trans hy
    rw [if_neg hj]
    exact Or.inr ⟨x, hx, rfl, he, fun ht => ⟨ht, le_rfl⟩⟩
  | some y =>
    have hlen := (List.getElem?_eq_some_iff.mp hy).1
    by_cases hj : j = i
    · subst hj
      obtain rfl := Option.some.inj (hx.symm.trans hy)
      right
      refine ⟨(x.step c.gateway.shared v).2, List.getElem?_set_self hlen, x.step_uuid _ v,
        x.step_resetAhead v he, fun ht => ?_⟩
      obtain ⟨hflag, hleft⟩ := x.step_left v he ht
      refine ⟨fun hl => ?_, ?_⟩
      · rw [x.step_uuid]
        exact hflag hl
      · simp only [if_true, hx, Option.map_some, Option.getD_some]
        omega
    · have hother : (c.gateway.executors.set j (y.step c.gateway.shared v).2)[i]? = some x := by
        rw [List.getElem?_set_ne hj, hx]
      by_cases huuid : y.taskUuid = x.taskUuid
      · exact Or.inl ⟨j, x, _, hj, hother, List.getElem?_set_self hlen,
          (y.step_uuid _ v).trans huuid⟩
      · rw [if_neg hj]
        refine Or.inr ⟨x, hother, rfl, he, fun ht => ⟨fun hl => ?_, le_rfl⟩⟩
        exact (y.step_flags_of_ne _ v (Ne.symm huuid)).trans (ht hl)

/-- A worker past the reset of its flag goes on, as long as it has its task for itself. -/
theorem onward (hx : c.gateway.executors[i]? = some x) (he : x.pc.resetAhead = false)
    (e : ControllerEvent) (out : List ℕ) :
    Twin (c.step e).1 i ∨ ∃ y, Onward i c n x (c.step e).1 (stepsOf i c n e out) y := by
  have hsame : ∀ c' : Controller, c'.gateway = c.gateway → Onward i c n x c' n x := by
    intro c' hc
    refine ⟨by rw [hc, hx], rfl, he, fun ht => ⟨fun hl => ?_, le_rfl⟩⟩
    rw [hc]
    exact ht hl
  cases e with
  | gateway e =>
    have hg := (onGateway_gateway c e).1
    have hsteps : stepsOf i c n (.gateway (c.given e)) [] = stepsOf i c n (.gateway e) out := by
      cases e <;> rfl
    have hgiven : Twin { c with gateway := (c.gateway.step (c.given e)).1 } i ∨
        ∃ y, Onward i c n x { c with gateway := (c.gateway.step (c.given e)).1 }
          (stepsOf i c n (.gateway (c.given e)) []) y := by
      cases e with
      | exec j v => exact onward_exec hx he j (c.senders v)
      | _ =>
        exact Or.inr ⟨x, executor_waits (by simp [Controller.given]) hx, rfl, he, fun ht =>
          ⟨fun hl => Gateway.step_flags (ht hl) (by simp [Controller.given]), le_rfl⟩⟩
    rcases hgiven with htwin | ⟨y, hy⟩
    · exact Or.inl (htwin.congr (congrArg Gateway.executors hg))
    · right
      rw [hsteps] at hy
      refine ⟨y, ?_, hy.uuid, hy.early, fun ht => ⟨fun hl => ?_, (hy.told ht).2⟩⟩
      · show (c.onGateway e).1.gateway.executors[i]? = some y
        rw [hg]
        exact hy.here
      · show (c.onGateway e).1.gateway.shared.cancelFlags y.taskUuid = some true
        rw [hg]
        exact (hy.told ht).1 hl
  | clearTask j => exact Or.inr ⟨x, hsame _ (clearTask_gateway c j).1⟩
  | threadEnd j => exact Or.inr ⟨x, hsame _ (threadEnd_gateway c j).1⟩
  | stop =>
    right
    rcases stop_gateway c with hs | ⟨u, hs⟩
    · exact ⟨x, hsame _ hs⟩
    · refine ⟨x, ?_, rfl, he, fun ht => ⟨fun hl => ?_, le_rfl⟩⟩
      · show c.stop.1.gateway.executors[i]? = some x
        rw [hs]
        exact hx
      · show c.stop.1.gateway.shared.cancelFlags x.taskUuid = some true
        rw [hs]
        show Function.update c.gateway.shared.cancelFlags u (some true) x.taskUuid = some true
        by_cases hu : x.taskUuid = u
        · rw [hu, Function.update_self]
        · rw [Function.update_of_ne hu, ht hl]

/-- Worker `i` is past the reset of its flag, and the flag is set, or `stop` is going to set it. -/
structure Coming (i : ℕ) (c : Controller) (x : Executor) : Prop where
  here : c.gateway.executors[i]? = some x
  early : x.pc.resetAhead = false
  told : Told c x ∨ ∃ task_ids, c.stopping = .canceling task_ids ∧ x.taskUuid ∈ task_ids

theorem Coming.step (h : Coming i c x) (e : ControllerEvent) :
    Twin (c.step e).1 i ∨ ∃ y, Coming i (c.step e).1 y := by
  rcases onward (n := 0) h.here h.early e [] with htwin | ⟨y, hy⟩
  · exact Or.inl htwin
  refine Or.inr ⟨y, hy.here, hy.early, ?_⟩
  rcases h.told with htold | ⟨task_ids, hs, hmem⟩
  · exact Or.inl (hy.told htold).1
  rw [← hy.uuid] at hmem
  cases e with
  | gateway e => exact Or.inr ⟨task_ids, (onGateway_gateway c e).2.trans hs, hmem⟩
  | clearTask j => exact Or.inr ⟨task_ids, (clearTask_gateway c j).2.trans hs, hmem⟩
  | threadEnd j => exact Or.inr ⟨task_ids, (threadEnd_gateway c j).2.trans hs, hmem⟩
  | stop =>
    show Told c.stop.1 y ∨ ∃ task_ids, c.stop.1.stopping = .canceling task_ids ∧ y.taskUuid ∈ task_ids
    unfold Controller.stop
    rw [hs]
    cases task_ids with
    | nil => exact absurd hmem List.not_mem_nil
    | cons task_id task_ids =>
      by_cases hu : y.taskUuid = task_id
      · left
        intro _
        show Function.update c.gateway.shared.cancelFlags task_id (some true) y.taskUuid = some true
        rw [hu, Function.update_self]
      · exact Or.inr ⟨task_ids, rfl, (List.mem_cons.mp hmem).resolve_left hu⟩

/-- `stop` takes the list of active tasks. -/
theorem Book.asked {g : Got} (h : Book c g) (hs : c.stopping = .asked)
    (hx : c.gateway.executors[i]? = some x) (he : x.pc.resetAhead = false) :
    Twin (c.step .stop).1 i ∨ Coming i (c.step .stop).1 x := by
  have hstop : c.step .stop = ({ c with stopping := .canceling c.activeOtaTaskIds }, []) := by
    show c.stop = _
    unfold Controller.stop
    rw [hs]
  rw [hstop]
  by_cases ht : c.threads i = .executing
  · rcases h.listed i x hx ht with hu | ⟨j, y, hj, hy, huuid⟩
    · exact Or.inr ⟨hx, he, Or.inr ⟨_, rfl, hu⟩⟩
    · exact Or.inl ⟨j, x, y, hj, hx, hy, huuid⟩
  · have hdone := h.through i x hx ht
    refine Or.inr ⟨hx, he, Or.inl fun hl => ?_⟩
    rw [hdone] at hl
    cases hl

end Onward

def Stopping.waits : Stopping → Bool
  | .waiting _ | .stopped => true
  | _ => false

/-- Worker `i` has reset its flag. -/
def Controller.past (c : Controller) (i : ℕ) : Bool :=
  c.gateway.executors[i]?.any fun x => !x.pc.resetAhead

theorem Controller.past_worker {c : Controller} {i : ℕ} (h : c.past i = true) :
    ∃ x, c.gateway.executors[i]? = some x ∧ x.pc.resetAhead = false := by
  unfold past at h
  cases hx : c.gateway.executors[i]? with
  | none =>
    rw [hx] at h
    cases h
  | some x =>
    rw [hx] at h
    exact ⟨x, rfl, (Bool.not_eq_true' _).mp h⟩

/-- Whatever goes on while `stop` sets the flags and waits: a worker that had reset its flag when `stop`
took the list of active tasks takes at most fourteen more steps once `stop` waits, its exchanges with
the device apart, unless another worker has the same task. -/
theorem stop_soon (store : PersistentStore) (es fs gs : List ControllerEvent) (i : ℕ)
    (hask : (control store es).1.stopping = .asked) (hpast : (control store es).1.past i = true)
    (hwait : (run Controller.step (control store es).1 (.stop :: fs)).stopping.waits = true) :
    let w := run (watched Controller.step (stepsOf i))
      (run Controller.step (control store es).1 (.stop :: fs), 0) gs
    Twin w.1 i ∨ ∃ y, w.1.gateway.executors[i]? = some y ∧ w.2 + y.pc.left ≤ 14 := by
  generalize hd : run Controller.step (control store es).1 (.stop :: fs) = d at hwait ⊢
  have hcoming : Twin d i ∨ ∃ y, Coming i d y := by
    rw [← hd]
    obtain ⟨x, hx, he⟩ := Controller.past_worker hpast
    refine run_keeps (I := fun c : Controller => Twin c i ∨ ∃ y, Coming i c y) (fun c e hc => ?_)
      (((Book.control store es).asked hask hx he).imp_right fun h => ⟨x, h⟩) fs
    rcases hc with htwin | ⟨y, hy⟩
    · exact Or.inl (htwin.step e)
    · exact hy.step e
  have hbegin : Twin d i ∨ ∃ y, d.gateway.executors[i]? = some y ∧ y.pc.resetAhead = false ∧ Told d y := by
    rcases hcoming with htwin | ⟨y, hhere, hearly, htold | ⟨task_ids, hs, -⟩⟩
    · exact Or.inl htwin
    · exact Or.inr ⟨y, hhere, hearly, htold⟩
    · rw [hs] at hwait
      cases hwait
  intro w
  have hrun : Twin w.1 i ∨ ∃ y, w.1.gateway.executors[i]? = some y ∧ y.pc.resetAhead = false ∧
      Told w.1 y ∧ w.2 + y.pc.left ≤ 14 := by
    refine run_keeps (I := fun v : Controller × ℕ => Twin v.1 i ∨ ∃ y,
        v.1.gateway.executors[i]? = some y ∧ y.pc.resetAhead = false ∧ Told v.1 y ∧ v.2 + y.pc.left ≤ 14)
      (fun v e hv => ?_) (hbegin.imp_right ?_) gs
    · rcases hv with htwin | ⟨y, hhere, hearly, htold, hleft⟩
      · exact Or.inl (htwin.step e)
      · refine (onward (n := v.2) hhere hearly e (v.1.step e).2).imp_right ?_
        rintro ⟨z, hz⟩
        exact ⟨z, hz.here, hz.early, (hz.told htold).1, (hz.told htold).2.trans hleft⟩
    · rintro ⟨y, hhere, hearly, htold⟩
      exact ⟨y, hhere, hearly, htold, (Nat.zero_add _).le.trans (Pc.left_le hearly)⟩
  refine hrun.imp_right ?_
  rintro ⟨y, hhere, -, -, hleft⟩
  exact ⟨y, hhere, hleft⟩

/-- A worker has reset its flag when `stop` comes. -/
def stopInTime : List ControllerEvent :=
  (stm32Task 1 ++ List.replicate 4 (Event.exec 0 calm)).map .gateway ++ [.stop]

theorem stop_soon_in_time :
    let w := run (watched Controller.step (stepsOf 0))
      (run Controller.step (control emptyStore stopInTime).1 [.stop, .stop, .stop], 0)
      (List.replicate 8 (.gateway (.exec 0 calm)))
    Twin w.1 0 ∨ ∃ y, w.1.gateway.executors[0]? = some y ∧ w.2 + y.pc.left ≤ 14 :=
  have hask : (control emptyStore stopInTime).1.stopping = .asked := by decide +kernel
  have hpast : (control emptyStore stopInTime).1.past 0 = true := by decide +kernel
  have hwait : (run Controller.step (control emptyStore stopInTime).1
      [.stop, .stop, .stop]).stopping.waits = true := by decide +kernel
  stop_soon emptyStore stopInTime [.stop, .stop] _ 0 hask hpast hwait

end EdgeLink.Ota
