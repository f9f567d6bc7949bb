import EdgeLink.Ingress
import EdgeLink.Monitor

/-! The queue between the threads of the gateway. A step is one hold of the mutex: from its
acquisition to the wait or the unlock. -/

namespace EdgeLink.ThreadSafeQueue
open Monitor

/-- What a call returns. -/
inductive Answer (T α : Type*)
  | pushed (t : T) (item : α)
  | refused (t : T) (item : α)
  | popped (t : T) (item : α)
  | missed (t : T)
  | stopped

structure Queue (T α : Type*) where
  capacity : ℕ
  queue : List α
  stopped : Bool
  /-- `cond_not_full_`, with the item each call of `push` holds -/
  notFull : Waiters (T × α)
  /-- `cond_not_empty_` -/
  notEmpty : Waiters T

/-- `wakes` picks the thread that `notify_one` wakes. -/
inductive Event (T α : Type*)
  | push (t : T) (item : α) (wakes : ℕ)
  | pop (t : T) (wakes : ℕ)
  | stop
  /-- a woken `push` has the mutex again -/
  | resumePush (i wakes : ℕ)
  /-- a woken `pop` has the mutex again, its deadline passed or not -/
  | resumePop (i wakes : ℕ) (expired : Bool)
  /-- a spurious wake-up -/
  | wakePush (i : ℕ)
  /-- a spurious wake-up, or the deadline -/
  | wakePop (i : ℕ)

namespace Queue
variable {T α : Type*} (q : Queue T α)

def push (t : T) (item : α) (wakes : ℕ) : Queue T α × Option (Answer T α) :=
  if q.stopped ∨ q.queue.length < q.capacity then
    if q.stopped then (q, some (.refused t item))
    else
      ({ q with queue := q.queue ++ [item], notEmpty := q.notEmpty.wake wakes },
        some (.pushed t item))
  else ({ q with notFull := q.notFull.sleep (t, item) }, none)

def pop (t : T) (wakes : ℕ) (expired : Bool) : Queue T α × Option (Answer T α) :=
  if q.stopped ∨ q.queue ≠ [] then
    match q.queue with
    | [] => (q, some (.missed t))
    | item :: rest =>
      ({ q with queue := rest, notFull := q.notFull.wake wakes }, some (.popped t item))
  else if expired then (q, some (.missed t))
  else ({ q with notEmpty := q.notEmpty.sleep t }, none)

def stop : Queue T α :=
  { q with stopped := true, notEmpty := q.notEmpty.wakeAll, notFull := q.notFull.wakeAll }

def step (e : Event T α) : Queue T α × Option (Answer T α) :=
  match e with
  | .push t item wakes => q.push t item wakes
  | .pop t wakes => q.pop t wakes false
  | .stop => (q.stop, some .stopped)
  | .resumePush i wakes =>
    match q.notFull.called[i]? with
    | none => (q, none)
    | some (t, item) => { q with notFull := q.notFull.dismiss i }.push t item wakes
  | .resumePop i wakes expired =>
    match q.notEmpty.called[i]? with
    | none => (q, none)
    | some t => { q with notEmpty := q.notEmpty.dismiss i }.pop t wakes expired
  | .wakePush i => ({ q with notFull := q.notFull.wake i }, none)
  | .wakePop i => ({ q with notEmpty := q.notEmpty.wake i }, none)

end Queue

def create (T α : Type*) (capacity : ℕ) : Queue T α := ⟨capacity, [], false, .nobody, .nobody⟩

/-- What is answered in a run, in the order of the answers. -/
def Queue.answers {T α : Type*} (q : Queue T α) : List (Event T α) → List (Answer T α)
  | [] => []
  | e :: es => (q.step e).2.toList ++ (q.step e).1.answers es

def play {T α : Type*} (capacity : ℕ) (es : List (Event T α)) : Queue T α × List (Answer T α) :=
  (Machine.run Queue.step (create T α capacity) es, (create T α capacity).answers es)

section
variable {T α : Type*} {q : Queue T α}

theorem push_cases (t : T) (item : α) (wakes : ℕ) :
    q.stopped = true ∧ q.push t item wakes = (q, some (.refused t item)) ∨
    q.stopped = false ∧ q.queue.length < q.capacity ∧ q.push t item wakes =
      ({ q with queue := q.queue ++ [item], notEmpty := q.notEmpty.wake wakes },
        some (.pushed t item)) ∨
    q.stopped = false ∧ q.capacity ≤ q.queue.length ∧ q.push t item wakes =
      ({ q with notFull := q.notFull.sleep (t, item) }, none) := by
  unfold Queue.push
  by_cases hs : q.stopped = true
  · left
    simp [hs]
  · by_cases hc : q.queue.length < q.capacity
    · right; left
      simp [hs, hc]
    · right; right
      simp [hs, hc, Nat.le_of_not_lt hc]

theorem pop_cases (t : T) (wakes : ℕ) (expired : Bool) :
    q.queue = [] ∧ (q.stopped = true ∨ expired = true) ∧
      q.pop t wakes expired = (q, some (.missed t)) ∨
    (∃ item rest, q.queue = item :: rest ∧ q.pop t wakes expired =
      ({ q with queue := rest, notFull := q.notFull.wake wakes }, some (.popped t item))) ∨
    q.queue = [] ∧ q.stopped = false ∧ q.pop t wakes expired =
      ({ q with notEmpty := q.notEmpty.sleep t }, none) := by
  unfold Queue.pop
  cases hq : q.queue with
  | cons item rest =>
    right; left
    exact ⟨item, rest, rfl, by simp⟩
  | nil =>
    by_cases hs : q.stopped = true
    · left
      simp [hs]
    · cases expired with
      | true => left; simp [hs]
      | false => right; right; simp [hs]

end

structure Plain (α : Type*) where
  queue : List α
  stopped : Bool

/-- The answer is right for a queue in this state, and leaves it in the next. -/
def Plain.answer {T α : Type*} [DecidableEq α] (capacity : ℕ) (s : Plain α) :
    Answer T α → Option (Plain α)
  | .pushed _ item =>
    if s.stopped = false ∧ s.queue.length < capacity then
      some { s with queue := s.queue ++ [item] }
    else none
  | .refused _ _ => if s.stopped then some s else none
  | .popped _ item =>
    match s.queue with
    | [] => none
    | front :: rest => if front = item then some { s with queue := rest } else none
  | .missed _ => if s.queue = [] then some s else none
  | .stopped => some { s with stopped := true }

def Queue.plain {T α : Type*} (q : Queue T α) : Plain α := ⟨q.queue, q.stopped⟩

section
variable {T α : Type*} [DecidableEq α] {q : Queue T α}

theorem push_plain (t : T) (item : α) (wakes : ℕ) :
    (q.push t item wakes).2.toList.foldlM (Plain.answer q.capacity) q.plain =
      some (q.push t item wakes).1.plain := by
  obtain ⟨hs, h⟩ | ⟨hs, hc, h⟩ | ⟨-, -, h⟩ := push_cases (q := q) t item wakes
  · simp [h, Plain.answer, Queue.plain, hs]
  · simp [h, Plain.answer, Queue.plain, hs, hc]
  · simp [h, Queue.plain]

theorem pop_plain (t : T) (wakes : ℕ) (expired : Bool) :
    (q.pop t wakes expired).2.toList.foldlM (Plain.answer q.capacity) q.plain =
      some (q.pop t wakes expired).1.plain := by
  obtain ⟨hq, -, h⟩ | ⟨item, rest, hq, h⟩ | ⟨-, -, h⟩ := pop_cases (q := q) t wakes expired
  · simp [h, Plain.answer, Queue.plain, hq]
  · simp [h, Plain.answer, Queue.plain, hq]
  · simp [h, Queue.plain]

theorem step_plain (e : Event T α) :
    (q.step e).2.toList.foldlM (Plain.answer q.capacity) q.plain = some (q.step e).1.plain := by
  cases e with
  | push t item wakes => exact push_plain t item wakes
  | pop t wakes => exact pop_plain t wakes false
  | stop => rfl
  | wakePush i => rfl
  | wakePop i => rfl
  | resumePush i wakes =>
    simp only [Queue.step]
    cases q.notFull.called[i]? with
    | none => rfl
    | some call => exact push_plain (q := { q with notFull := q.notFull.dismiss i }) _ _ _
  | resumePop i wakes expired =>
    simp only [Queue.step]
    cases q.notEmpty.called[i]? with
    | none => rfl
    | some t => exact pop_plain (q := { q with notEmpty := q.notEmpty.dismiss i }) _ _ _

end

section
variable {T α : Type*} {q : Queue T α}

theorem step_capacity (e : Event T α) : (q.step e).1.capacity = q.capacity := by
  have hpush (q : Queue T α) (t : T) (item : α) (wakes : ℕ) :
      (q.push t item wakes).1.capacity = q.capacity := by
    obtain ⟨-, h⟩ | ⟨-, -, h⟩ | ⟨-, -, h⟩ := push_cases (q := q) t item wakes <;> simp [h]
  have hpop (q : Queue T α) (t : T) (wakes : ℕ) (expired : Bool) :
      (q.pop t wakes expired).1.capacity = q.capacity := by
    obtain ⟨-, -, h⟩ | ⟨item, rest, -, h⟩ | ⟨-, -, h⟩ := pop_cases (q := q) t wakes expired <;>
      simp [h]
  cases e with
  | push t item wakes => exact hpush q t item wakes
  | pop t wakes => exact hpop q t wakes false
  | stop => rfl
  | wakePush i => rfl
  | wakePop i => rfl
  | resumePush i wakes =>
    simp only [Queue.step]
    cases q.notFull.called[i]? with
    | none => rfl
    | some call => exact hpush _ _ _ _
  | resumePop i wakes expired =>
    simp only [Queue.step]
    cases q.notEmpty.called[i]? with
    | none => rfl
    | some t => exact hpop _ _ _ _

end

section
variable {T α : Type*}

theorem run_capacity (q : Queue T α) (es : List (Event T α)) :
    (Machine.run Queue.step q es).capacity = q.capacity :=
  Machine.run_keeps (I := fun r : Queue T α => r.capacity = q.capacity)
    (fun _ e h => (step_capacity e).trans h) rfl es

theorem answers_plain [DecidableEq α] (q : Queue T α) (es : List (Event T α)) :
    (q.answers es).foldlM (Plain.answer q.capacity) q.plain =
      some (Machine.run Queue.step q es).plain := by
  induction es generalizing q with
  | nil => rfl
  | cons e es ih =>
    rw [Queue.answers, List.foldlM_append, step_plain, Machine.run_cons, ← ih, step_capacity]
    rfl

end

/-- However the calls of the threads interleave, wake and time out, their answers, in the order they
are given, are those of the plain bounded queue, which then holds the same. -/
theorem answers_linearize {T α : Type*} [DecidableEq α] (capacity : ℕ) (es : List (Event T α)) :
    (play capacity es).2.foldlM (Plain.answer capacity) ⟨[], false⟩ =
      some (play capacity es).1.plain :=
  answers_plain (create T α capacity) es

/-- The threads that take data in see their queue as the plain one: an item leaves the hand of its
thread just when `push` has its answer. -/
theorem ingress_push {s : Ingress.State} {p : Ingress.Producer} {item : ℕ × Gateway.SensorData}
    (h : s.hand p = some item) :
    Plain.answer s.config.queueCapacity ⟨s.dataQueue, false⟩ (.pushed p item) =
      if (s.push p).hand p = none then some ⟨(s.push p).dataQueue, false⟩ else none := by
  by_cases hc : s.dataQueue.length < s.config.queueCapacity
  · simp [Ingress.State.push, Plain.answer, h, hc]
  · simp [Ingress.State.push, Plain.answer, h, hc]

/-- So does `uploaderLoop`. -/
theorem ingress_pop {s : Ingress.State} {item : ℕ × Gateway.SensorData}
    {rest : List (ℕ × Gateway.SensorData)} (hidle : s.uploading = .idle)
    (h : s.dataQueue = item :: rest) :
    Plain.answer s.config.queueCapacity ⟨s.dataQueue, false⟩ (.popped () item) =
      some ⟨s.uploaderStep.1.dataQueue, false⟩ := by
  have hr : s.uploaderStep.1.dataQueue = rest := by
    unfold Ingress.State.uploaderStep
    rw [hidle, h]
  rw [hr]
  simp [Plain.answer, h]

/-- `a` units of room and `b` items are promised to the thread that now has the mutex. -/
structure Promised {T α : Type*} (q : Queue T α) (a b : ℕ) : Prop where
  room : q.queue.length ≤ q.capacity
  producers : q.stopped = false → q.notFull.Covered (q.capacity - q.queue.length - a)
  consumers : q.stopped = false → q.notEmpty.Covered (q.queue.length - b)
  awake : q.stopped = true → q.notFull.asleep = [] ∧ q.notEmpty.asleep = []

section
variable {T α : Type*} {q : Queue T α}

theorem Promised.weaken (h : Promised q 0 0) (a b : ℕ) : Promised q a b where
  room := h.room
  producers hs := (h.producers hs).mono (by omega)
  consumers hs := (h.consumers hs).mono (by omega)
  awake := h.awake

/-- A queue without promises left. -/
theorem Promised.intro_stopped (hs : q.stopped = true) (hr : q.queue.length ≤ q.capacity)
    (hp : q.notFull.asleep = []) (hc : q.notEmpty.asleep = []) : Promised q 0 0 where
  room := hr
  producers h := absurd (hs.symm.trans h) (by decide)
  consumers h := absurd (hs.symm.trans h) (by decide)
  awake _ := ⟨hp, hc⟩

theorem Promised.push (h : Promised q 1 0) (t : T) (item : α) (wakes : ℕ) :
    Promised (q.push t item wakes).1 0 0 := by
  obtain ⟨hs, he⟩ | ⟨hs, hc, he⟩ | ⟨hs, hc, he⟩ := push_cases (q := q) t item wakes
  · rw [he]
    exact .intro_stopped hs h.room (h.awake hs).1 (h.awake hs).2
  · rw [he]
    constructor
    · simp only [List.length_append, List.length_singleton]
      omega
    · intro _
      refine (h.producers hs).mono ?_
      simp only [List.length_append, List.length_singleton]
      omega
    · intro _
      simpa using (h.consumers hs).notify wakes
    · intro hst
      exact absurd (hs.symm.trans hst) (by decide)
  · rw [he]
    constructor
    · exact h.room
    · intro _
      refine Waiters.Covered.zero.mono (Nat.le_zero.mpr ?_)
      dsimp only
      omega
    · exact h.consumers
    · intro hst
      exact absurd (hs.symm.trans hst) (by decide)

theorem Promised.pop (h : Promised q 0 1) (t : T) (wakes : ℕ) (expired : Bool) :
    Promised (q.pop t wakes expired).1 0 0 := by
  obtain ⟨hq, -, he⟩ | ⟨item, rest, hq, he⟩ | ⟨hq, hs, he⟩ :=
    pop_cases (q := q) t wakes expired
  · rw [he]
    exact
      { h with consumers := fun hs => (h.consumers hs).mono (by rw [hq]; exact Nat.zero_le _) }
  · have hr : rest.length + 1 ≤ q.capacity := by simpa [hq] using h.room
    rw [he]
    constructor
    · exact Nat.le_of_succ_le hr
    · intro hs
      refine ((h.producers hs).notify wakes).mono ?_
      rw [hq, List.length_cons]
      dsimp only
      omega
    · intro hs
      refine (h.consumers hs).mono ?_
      rw [hq, List.length_cons]
      dsimp only
      omega
    · intro hs
      exact ⟨Waiters.wake_asleep_nil (h.awake hs).1 wakes, (h.awake hs).2⟩
  · rw [he]
    constructor
    · exact h.room
    · exact h.producers
    · intro _
      refine Waiters.Covered.zero.mono ?_
      simp [hq]
    · intro hst
      exact absurd (hs.symm.trans hst) (by decide)

theorem Promised.dismissPush (h : Promised q 0 0) {i : ℕ} (hi : i < q.notFull.called.length) :
    Promised { q with notFull := q.notFull.dismiss i } 1 0 where
  room := h.room
  producers hs := by
    dsimp only
    by_cases hf : q.queue.length < q.capacity
    · refine ((h.producers hs).mono ?_).dismiss hi
      omega
    · exact Waiters.Covered.zero.mono (by omega)
  consumers := h.consumers
  awake := h.awake

theorem Promised.dismissPop (h : Promised q 0 0) {i : ℕ} (hi : i < q.notEmpty.called.length) :
    Promised { q with notEmpty := q.notEmpty.dismiss i } 0 1 where
  room := h.room
  producers := h.producers
  consumers hs := by
    dsimp only
    by_cases hq : 0 < q.queue.length
    · refine ((h.consumers hs).mono ?_).dismiss hi
      omega
    · exact Waiters.Covered.zero.mono (by omega)
  awake := h.awake

theorem Promised.step (h : Promised q 0 0) (e : Event T α) : Promised (q.step e).1 0 0 := by
  cases e with
  | push t item wakes => exact (h.weaken 1 0).push t item wakes
  | pop t wakes => exact (h.weaken 0 1).pop t wakes false
  | stop => exact .intro_stopped rfl h.room rfl rfl
  | resumePush i wakes =>
    simp only [Queue.step]
    cases hi : q.notFull.called[i]? with
    | none => exact h
    | some call =>
      exact (h.dismissPush (List.getElem?_eq_some_iff.mp hi).1).push call.1 call.2 wakes
  | resumePop i wakes expired =>
    simp only [Queue.step]
    cases hi : q.notEmpty.called[i]? with
    | none => exact h
    | some t => exact (h.dismissPop (List.getElem?_eq_some_iff.mp hi).1).pop t wakes expired
  | wakePush i =>
    exact
      { h with
        producers := fun hs => (h.producers hs).wake i
        awake := fun hs => ⟨Waiters.wake_asleep_nil (h.awake hs).1 i, (h.awake hs).2⟩ }
  | wakePop i =>
    exact
      { h with
        consumers := fun hs => (h.consumers hs).wake i
        awake := fun hs => ⟨(h.awake hs).1, Waiters.wake_asleep_nil (h.awake hs).2 i⟩ }

theorem Promised.create (capacity : ℕ) : Promised (create T α capacity) 0 0 where
  room := Nat.zero_le _
  producers _ := Waiters.Covered.nobody _
  consumers _ := Waiters.Covered.nobody _
  awake _ := ⟨rfl, rfl⟩

theorem Promised.run (h : Promised q 0 0) (es : List (Event T α)) :
    Promised (Machine.run Queue.step q es) 0 0 :=
  Machine.run_keeps (I := fun q : Queue T α => Promised q 0 0)
    (fun _ e h => Promised.step h e) h es

end

/-- A call, by the thread that makes it. -/
inductive Call (T α : Type*)
  | push (t : T) (item : α)
  | pop (t : T)
  | stop

def Event.call {T α : Type*} : Event T α → Option (Call T α)
  | .push t item _ => some (.push t item)
  | .pop t _ => some (.pop t)
  | .stop => some .stop
  | .resumePush _ _ | .resumePop _ _ _ | .wakePush _ | .wakePop _ => none

def Answer.call {T α : Type*} : Answer T α → Call T α
  | .pushed t item | .refused t item => .push t item
  | .popped t _ | .missed t => .pop t
  | .stopped => .stop

/-- The calls that wait for an answer. -/
def Queue.open {T α : Type*} (q : Queue T α) : List (Call T α) :=
  q.notFull.blocked.map (fun call => Call.push call.1 call.2) ++ q.notEmpty.blocked.map Call.pop

section
variable {T α : Type*} {q : Queue T α}

theorem push_open (t : T) (item : α) (wakes : ℕ) :
    ((q.push t item wakes).2.toList.map Answer.call ++ (q.push t item wakes).1.open).Perm
      (Call.push t item :: q.open) := by
  obtain ⟨-, h⟩ | ⟨-, -, h⟩ | ⟨-, -, h⟩ := push_cases (q := q) t item wakes
  · rw [h]
    exact List.Perm.refl _
  · rw [h]
    exact List.Perm.cons _ ((Waiters.blocked_wake wakes).map _ |>.append_left _)
  · rw [h]
    exact ((Waiters.blocked_sleep (w := q.notFull) (t, item)).map _).append_right _

theorem pop_open (t : T) (wakes : ℕ) (expired : Bool) :
    ((q.pop t wakes expired).2.toList.map Answer.call ++ (q.pop t wakes expired).1.open).Perm
      (Call.pop t :: q.open) := by
  obtain ⟨-, -, h⟩ | ⟨item, rest, -, h⟩ | ⟨-, -, h⟩ := pop_cases (q := q) t wakes expired
  · rw [h]
    exact List.Perm.refl _
  · rw [h]
    exact List.Perm.cons _ ((Waiters.blocked_wake wakes).map _ |>.append_right _)
  · rw [h]
    exact (((Waiters.blocked_sleep (w := q.notEmpty) t).map Call.pop).append_left _).trans
      List.perm_middle

theorem step_open (e : Event T α) :
    ((q.step e).2.toList.map Answer.call ++ (q.step e).1.open).Perm
      (e.call.toList ++ q.open) := by
  cases e with
  | push t item wakes => exact push_open t item wakes
  | pop t wakes => exact pop_open t wakes false
  | stop =>
    exact List.Perm.cons _
      ((Waiters.blocked_wakeAll.map _).append (Waiters.blocked_wakeAll.map _))
  | wakePush i => exact ((Waiters.blocked_wake i).map _).append_right _
  | wakePop i => exact ((Waiters.blocked_wake i).map _).append_left _
  | resumePush i wakes =>
    simp only [Queue.step]
    cases hi : q.notFull.called[i]? with
    | none => exact List.Perm.refl _
    | some call =>
      refine (push_open (q := { q with notFull := q.notFull.dismiss i }) _ _ _).trans ?_
      exact ((Waiters.blocked_dismiss hi).map fun c => Call.push c.1 c.2).symm.append_right _
  | resumePop i wakes expired =>
    simp only [Queue.step]
    cases hi : q.notEmpty.called[i]? with
    | none => exact List.Perm.refl _
    | some t =>
      refine (pop_open (q := { q with notEmpty := q.notEmpty.dismiss i }) _ _ _).trans ?_
      refine List.perm_middle.symm.trans ?_
      exact ((Waiters.blocked_dismiss hi).map Call.pop).symm.append_left _

theorem answers_open (q : Queue T α) (es : List (Event T α)) :
    ((q.answers es).map Answer.call ++ (Machine.run Queue.step q es).open).Perm
      (es.filterMap Event.call ++ q.open) := by
  induction es generalizing q with
  | nil => exact List.Perm.refl _
  | cons e es ih =>
    rw [Queue.answers, Machine.run_cons, List.map_append, List.append_assoc]
    refine ((ih (q.step e).1).append_left _).trans ?_
    refine (List.perm_append_comm_assoc _ _ _).trans ?_
    refine ((step_open e).append_left _).trans ?_
    refine (List.perm_append_comm_assoc _ _ _).trans ?_
    cases h : e.call <;> simp [h]

end

/-- No wake-up and no call is lost, whatever the order of calls, wake-ups and timeouts: a sleeping
`pop` leaves no item without a woken thread that comes for it, nor a sleeping `push` any room, so
that once all woken threads have run, sleepers mean an empty or a full queue; and every call has
its one answer or still waits. -/
theorem no_wakeup_lost {T α : Type*} (capacity : ℕ) (es : List (Event T α)) :
    let q := (play capacity es).1
    q.queue.length ≤ capacity ∧
    (q.stopped = true → q.notFull.asleep = [] ∧ q.notEmpty.asleep = []) ∧
    (q.stopped = false →
      (q.notEmpty.asleep ≠ [] → q.queue.length ≤ q.notEmpty.called.length) ∧
      (q.notFull.asleep ≠ [] → capacity ≤ q.queue.length + q.notFull.called.length)) ∧
    (0 < capacity → q.notFull.called = [] → q.notEmpty.called = [] →
      (q.notFull.asleep = [] ∧ (q.notEmpty.asleep ≠ [] → q.queue = [])) ∨
        (q.notEmpty.asleep = [] ∧ q.queue.length = capacity)) ∧
    ((play capacity es).2.map Answer.call ++ q.open).Perm (es.filterMap Event.call) := by
  have hcap : (play capacity es).1.capacity = capacity := run_capacity (create T α capacity) es
  have hopen : ((play capacity es).2.map Answer.call ++ (play capacity es).1.open).Perm
      (es.filterMap Event.call) := by
    have h := answers_open (create T α capacity) es
    rwa [show (create T α capacity).open = [] from rfl, List.append_nil] at h
  have hp : Promised (play capacity es).1 0 0 := (Promised.create capacity).run es
  generalize (play capacity es).1 = q at hcap hopen hp ⊢
  subst hcap
  have hcons : q.stopped = false → q.notEmpty.asleep ≠ [] →
      q.queue.length ≤ q.notEmpty.called.length := fun hs hne => hp.consumers hs hne
  have hprod : q.stopped = false → q.notFull.asleep ≠ [] →
      q.capacity ≤ q.queue.length + q.notFull.called.length := by
    intro hs hne
    have := hp.producers hs hne
    omega
  refine ⟨hp.room, hp.awake, fun hs => ⟨hcons hs, hprod hs⟩, ?_, hopen⟩
  -- with nobody called, both kinds asleep would ask for an empty and a full queue at once
  intro hpos hpc hcc
  cases hs : q.stopped with
  | true =>
    left
    refine ⟨(hp.awake hs).1, fun hne => absurd (hp.awake hs).2 hne⟩
  | false =>
    by_cases hf : q.notFull.asleep = []
    · left
      refine ⟨hf, fun hne => List.length_eq_zero_iff.mp ?_⟩
      have := hcons hs hne
      rw [hcc] at this
      exact Nat.le_zero.mp this
    · right
      have hfull := hprod hs hf
      rw [hpc] at hfull
      have hroom := hp.room
      refine ⟨by_contra fun hne => ?_, by simp at hfull; omega⟩
      have := hcons hs hne
      rw [hcc] at this
      simp at hfull this
      simp [this] at hfull
      omega

/-- A thread gets the mutex in the call. -/
def Queue.runs {T α : Type*} (q : Queue T α) : Event T α → Bool
  | .push _ _ _ | .pop _ _ => true
  | .resumePush i _ => i < q.notFull.called.length
  | .resumePop i _ _ => i < q.notEmpty.called.length
  | .stop | .wakePush _ | .wakePop _ => false

/-- The call is one that waited. -/
def Event.resumed {T α : Type*} : Event T α → Bool
  | .resumePush _ _ | .resumePop _ _ _ => true
  | _ => false

/-- How often a call that waited gets the mutex in a run. -/
def Queue.turns {T α : Type*} (q : Queue T α) : List (Event T α) → ℕ
  | [] => 0
  | e :: es => (if e.resumed && q.runs e then 1 else 0) + (q.step e).1.turns es

def Answer.item {T α : Type*} : Answer T α → Option α
  | .popped _ item => some item
  | .pushed _ _ | .refused _ _ | .missed _ | .stopped => none

def Answer.accepts {T α : Type*} : Answer T α → Bool
  | .pushed _ _ => true
  | .refused _ _ | .popped _ _ | .missed _ | .stopped => false

section
variable {T α : Type*} {q : Queue T α}

theorem push_stopped (h : q.stopped = true) (t : T) (item : α) (wakes : ℕ) :
    q.push t item wakes = (q, some (.refused t item)) := by
  simp [Queue.push, h]

/-- What a step of a stopped queue keeps, and that a thread with the mutex gets its answer. -/
theorem step_stopped (h : q.stopped = true) (e : Event T α) :
    (q.step e).1.stopped = true ∧
    (∀ a ∈ (q.step e).2, a.accepts = false) ∧
    (q.step e).2.toList.filterMap Answer.item ++ (q.step e).1.queue = q.queue ∧
    (q.runs e = true → (q.step e).2.isSome = true) := by
  -- a call and the way on of a woken thread are the same loop
  have hpush (q : Queue T α) (h : q.stopped = true) (t : T) (item : α) (wakes : ℕ) :
      (q.push t item wakes).1.stopped = true ∧
      (∀ a ∈ (q.push t item wakes).2, a.accepts = false) ∧
      (q.push t item wakes).2.toList.filterMap Answer.item ++ (q.push t item wakes).1.queue =
        q.queue ∧ (q.push t item wakes).2.isSome = true := by
    rw [push_stopped h]
    simp [h, Answer.accepts, Answer.item]
  have hpop (q : Queue T α) (h : q.stopped = true) (t : T) (wakes : ℕ) (expired : Bool) :
      (q.pop t wakes expired).1.stopped = true ∧
      (∀ a ∈ (q.pop t wakes expired).2, a.accepts = false) ∧
      (q.pop t wakes expired).2.toList.filterMap Answer.item ++ (q.pop t wakes expired).1.queue =
        q.queue ∧ (q.pop t wakes expired).2.isSome = true := by
    obtain ⟨hq, -, he⟩ | ⟨item, rest, hq, he⟩ | ⟨-, hs, -⟩ :=
      pop_cases (q := q) t wakes expired
    · simp [he, h, Answer.accepts, Answer.item]
    · simp [he, h, hq, Answer.accepts, Answer.item]
    · exact absurd (h.symm.trans hs) (by decide)
  cases e with
  | push t item wakes =>
    obtain ⟨h₁, h₂, h₃, h₄⟩ := hpush q h t item wakes
    exact ⟨h₁, h₂, h₃, fun _ => h₄⟩
  | pop t wakes =>
    obtain ⟨h₁, h₂, h₃, h₄⟩ := hpop q h t wakes false
    exact ⟨h₁, h₂, h₃, fun _ => h₄⟩
  | stop => simp [Queue.step, Queue.stop, Queue.runs, Answer.accepts, Answer.item]
  | wakePush i => simp [Queue.step, Queue.runs, h]
  | wakePop i => simp [Queue.step, Queue.runs, h]
  | resumePush i wakes =>
    simp only [Queue.step, Queue.runs]
    cases hi : q.notFull.called[i]? with
    | none => simpa [h] using hi
    | some call =>
      obtain ⟨h₁, h₂, h₃, h₄⟩ := hpush { q with notFull := q.notFull.dismiss i } h call.1 call.2 wakes
      exact ⟨h₁, h₂, h₃, fun _ => h₄⟩
  | resumePop i wakes expired =>
    simp only [Queue.step, Queue.runs]
    cases hi : q.notEmpty.called[i]? with
    | none => simpa [h] using hi
    | some t =>
      obtain ⟨h₁, h₂, h₃, h₄⟩ := hpop { q with notEmpty := q.notEmpty.dismiss i } h t wakes expired
      exact ⟨h₁, h₂, h₃, fun _ => h₄⟩

theorem step_turn (h : q.stopped = true) (e : Event T α) :
    (q.step e).1.open.length + (if e.resumed && q.runs e then 1 else 0) = q.open.length := by
  have hl := (step_open (q := q) e).length_eq
  have hr := (step_stopped h e).2.2.2
  cases e with
  | push t item wakes =>
    have hr := Option.isSome_iff_exists.mp (hr rfl)
    obtain ⟨a, ha⟩ := hr
    simp [ha, Event.call, Event.resumed] at hl ⊢
    omega
  | pop t wakes =>
    obtain ⟨a, ha⟩ := Option.isSome_iff_exists.mp (hr rfl)
    simp [ha, Event.call, Event.resumed] at hl ⊢
    omega
  | stop =>
    simp [Queue.step, Event.call, Event.resumed] at hl ⊢
    omega
  | wakePush i => simpa [Queue.step, Event.call, Event.resumed] using hl
  | wakePop i => simpa [Queue.step, Event.call, Event.resumed] using hl
  | resumePush i wakes =>
    by_cases hi : i < q.notFull.called.length
    · obtain ⟨a, ha⟩ := Option.isSome_iff_exists.mp (hr (by simpa [Queue.runs] using hi))
      simp [ha, Event.call, Event.resumed, Queue.runs, hi] at hl ⊢
      omega
    · simp [Queue.step, Event.resumed, Queue.runs, hi]
  | resumePop i wakes expired =>
    by_cases hi : i < q.notEmpty.called.length
    · obtain ⟨a, ha⟩ := Option.isSome_iff_exists.mp (hr (by simpa [Queue.runs] using hi))
      simp [ha, Event.call, Event.resumed, Queue.runs, hi] at hl ⊢
      omega
    · simp [Queue.step, Event.resumed, Queue.runs, hi]

theorem answers_stopped (h : q.stopped = true) (es : List (Event T α)) :
    (∀ a ∈ q.answers es, a.accepts = false) ∧
    (q.answers es).filterMap Answer.item ++ (Machine.run Queue.step q es).queue = q.queue ∧
    (Machine.run Queue.step q es).open.length + q.turns es = q.open.length ∧
    (Machine.run Queue.step q es).stopped = true := by
  induction es generalizing q with
  | nil => exact ⟨by simp [Queue.answers], rfl, rfl, h⟩
  | cons e es ih =>
    obtain ⟨hs, ha, hq, -⟩ := step_stopped h e
    obtain ⟨ha', hq', ht', hs'⟩ := ih hs
    have ht := step_turn h e
    refine ⟨?_, ?_, ?_, hs'⟩
    · intro a hm
      rcases List.mem_append.mp hm with hm | hm
      · exact ha a (Option.mem_toList.mp hm)
      · exact ha' a hm
    · rw [Machine.run_cons, Queue.answers, List.filterMap_append, List.append_assoc, hq', hq]
    · rw [Machine.run_cons, Queue.turns]
      omega

end

/-- Whatever was going on when `stop` was called, and whatever the threads do after it: nothing more
is accepted, what is in the queue still comes out in order, nobody sleeps, and each call that
waited needs the mutex once more to return. -/
theorem stop_releases {T α : Type*} (capacity : ℕ) (es fs : List (Event T α)) :
    let stopped := (play capacity (es ++ [.stop])).1
    let q := Machine.run Queue.step stopped fs
    (∀ a ∈ stopped.answers fs, a.accepts = false) ∧
    (stopped.answers fs).filterMap Answer.item ++ q.queue = stopped.queue ∧
    q.notFull.asleep = [] ∧ q.notEmpty.asleep = [] ∧
    q.open.length + stopped.turns fs = stopped.open.length ∧
    ∀ e, q.runs e = true → (q.step e).2.isSome = true := by
  have hst : (play capacity (es ++ [.stop])).1.stopped = true := by
    rw [play, Machine.run_append]
    rfl
  have hp : Promised (Machine.run Queue.step (play capacity (es ++ [.stop])).1 fs) 0 0 :=
    ((Promised.create capacity).run _).run fs
  obtain ⟨ha, hq, ht, hs⟩ := answers_stopped hst fs
  exact ⟨ha, hq, (hp.awake hs).1, (hp.awake hs).2, ht, fun e => (step_stopped hs e).2.2.2⟩

end EdgeLink.ThreadSafeQueue
