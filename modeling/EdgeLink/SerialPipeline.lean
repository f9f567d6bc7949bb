import EdgeLink.FrameParser
import EdgeLink.ThreadSafeQueue

namespace EdgeLink.ThreadSafeQueue
open Monitor

/-! In what order the items of one pushing thread pass the queue. -/

def Answer.accepted {T α : Type*} : Answer T α → Option α
  | .pushed _ item => some item
  | .refused _ _ | .popped _ _ | .missed _ | .stopped => none

def Answer.refusal {T α : Type*} : Answer T α → Option α
  | .refused _ item => some item
  | .pushed _ _ | .popped _ _ | .missed _ | .stopped => none

/-- The item of a call of `push` that has returned. -/
def Answer.handed {T α : Type*} : Answer T α → Option α
  | .pushed _ item | .refused _ item => some item
  | .popped _ _ | .missed _ | .stopped => none

def Event.item {T α : Type*} : Event T α → Option α
  | .push _ item _ => some item
  | .pop _ _ | .stop | .resumePush _ _ | .resumePop _ _ _ | .wakePush _ | .wakePop _ => none

/-- The items of the calls of `push` that wait. -/
def Queue.waiting {T α : Type*} (q : Queue T α) : List α := q.notFull.blocked.map Prod.snd

/-- No new call of `push` while one waits: there is one thread that pushes. -/
def OnePusher {T α : Type*} (q : Queue T α) : Event T α → Prop
  | .push _ _ _ => q.notFull.blocked = []
  | _ => True

section
variable {T α : Type*} {q : Queue T α}

/-- What goes in comes out in the same order. -/
theorem plain_fifo [DecidableEq α] {capacity : ℕ} {answers : List (Answer T α)} {s t : Plain α}
    (h : answers.foldlM (Plain.answer capacity) s = some t) :
    s.queue ++ answers.filterMap Answer.accepted = answers.filterMap Answer.item ++ t.queue := by
  induction answers generalizing s with
  | nil =>
    obtain rfl := Option.some.inj h
    simp
  | cons a answers ih =>
    rw [List.foldlM_cons] at h
    obtain ⟨s', ha, ht⟩ := Option.bind_eq_some_iff.mp h
    have hrest := ih ht
    cases a with
    | pushed t item =>
      simp only [Plain.answer, Option.ite_none_right_eq_some, Option.some.injEq] at ha
      obtain ⟨-, rfl⟩ := ha
      simpa [List.filterMap_cons, Answer.accepted, Answer.item] using hrest
    | refused t item =>
      simp only [Plain.answer, Option.ite_none_right_eq_some, Option.some.injEq] at ha
      obtain ⟨-, rfl⟩ := ha
      simpa [List.filterMap_cons, Answer.accepted, Answer.item] using hrest
    | popped t item =>
      simp only [Plain.answer] at ha
      cases hq : s.queue with
      | nil => simp [hq] at ha
      | cons front rest =>
        simp only [hq, Option.ite_none_right_eq_some, Option.some.injEq] at ha
        obtain ⟨rfl, rfl⟩ := ha
        simpa [List.filterMap_cons, Answer.accepted, Answer.item] using hrest
    | missed t =>
      simp only [Plain.answer, Option.ite_none_right_eq_some, Option.some.injEq] at ha
      obtain ⟨-, rfl⟩ := ha
      simpa [List.filterMap_cons, Answer.accepted, Answer.item] using hrest
    | stopped =>
      obtain rfl := Option.some.inj ha
      simpa [List.filterMap_cons, Answer.accepted, Answer.item] using hrest

/-- Nothing is accepted once a call has been refused. -/
theorem plain_refusals [DecidableEq α] {capacity : ℕ} {answers : List (Answer T α)} {s t : Plain α}
    (h : answers.foldlM (Plain.answer capacity) s = some t) :
    (s.stopped = true → answers.filterMap Answer.accepted = []) ∧
    answers.filterMap Answer.handed =
      answers.filterMap Answer.accepted ++ answers.filterMap Answer.refusal := by
  induction answers generalizing s with
  | nil => simp
  | cons a answers ih =>
    rw [List.foldlM_cons] at h
    obtain ⟨s', ha, ht⟩ := Option.bind_eq_some_iff.mp h
    obtain ⟨hstop, hsplit⟩ := ih ht
    cases a with
    | pushed t item =>
      simp only [Plain.answer, Option.ite_none_right_eq_some, Option.some.injEq] at ha
      obtain ⟨⟨hs, -⟩, rfl⟩ := ha
      refine ⟨fun hs' => absurd (hs.symm.trans hs') (by decide), ?_⟩
      simpa [List.filterMap_cons, Answer.accepted, Answer.handed, Answer.refusal] using hsplit
    | refused t item =>
      simp only [Plain.answer, Option.ite_none_right_eq_some, Option.some.injEq] at ha
      obtain ⟨hs, rfl⟩ := ha
      have hnil := hstop hs
      rw [hnil, List.nil_append] at hsplit
      refine ⟨fun _ => by simpa [List.filterMap_cons, Answer.accepted] using hnil, ?_⟩
      simp only [List.filterMap_cons, Answer.accepted, Answer.handed, Answer.refusal, hnil, hsplit,
        List.nil_append]
    | popped t item =>
      simp only [Plain.answer] at ha
      cases hq : s.queue with
      | nil => simp [hq] at ha
      | cons front rest =>
        simp only [hq, Option.ite_none_right_eq_some, Option.some.injEq] at ha
        obtain ⟨-, rfl⟩ := ha
        exact ⟨by simpa [List.filterMap_cons, Answer.accepted] using hstop,
          by simpa [List.filterMap_cons, Answer.accepted, Answer.handed, Answer.refusal] using hsplit⟩
    | missed t =>
      simp only [Plain.answer, Option.ite_none_right_eq_some, Option.some.injEq] at ha
      obtain ⟨-, rfl⟩ := ha
      exact ⟨by simpa [List.filterMap_cons, Answer.accepted] using hstop,
        by simpa [List.filterMap_cons, Answer.accepted, Answer.handed, Answer.refusal] using hsplit⟩
    | stopped =>
      obtain rfl := Option.some.inj ha
      exact ⟨fun _ => by simpa [List.filterMap_cons, Answer.accepted] using hstop rfl,
        by simpa [List.filterMap_cons, Answer.accepted, Answer.handed, Answer.refusal] using hsplit⟩

theorem eq_of_perm_short {β : Type*} {l m : List β} (h : m.Perm l) (hl : l.length ≤ 1) : m = l := by
  rcases l with _ | ⟨a, _ | ⟨b, l⟩⟩
  · exact h.eq_nil
  · exact List.perm_singleton.mp h
  · simp at hl

theorem waiting_of_perm {r : Queue T α} (hl : q.notFull.blocked.length ≤ 1)
    (h : r.notFull.blocked.Perm q.notFull.blocked) :
    r.waiting = q.waiting ∧ r.notFull.blocked.length ≤ 1 := by
  rw [Queue.waiting, eq_of_perm_short h hl]
  exact ⟨rfl, hl⟩

theorem push_ordered (h : q.notFull.blocked = []) (t : T) (item : α) (wakes : ℕ) :
    (q.push t item wakes).2.toList.filterMap Answer.handed ++ (q.push t item wakes).1.waiting =
      [item] ∧ (q.push t item wakes).1.notFull.blocked.length ≤ 1 := by
  obtain ⟨-, he⟩ | ⟨-, -, he⟩ | ⟨-, -, he⟩ := push_cases (q := q) t item wakes
  · simp [he, Answer.handed, Queue.waiting, h]
  · simp [he, Answer.handed, Queue.waiting, h]
  · have hp := Waiters.blocked_sleep (w := q.notFull) (t, item)
    rw [h] at hp
    rw [he]
    dsimp only
    rw [Queue.waiting, List.perm_singleton.mp hp]
    simp

theorem pop_ordered (hl : q.notFull.blocked.length ≤ 1) (t : T) (wakes : ℕ) (expired : Bool) :
    (q.pop t wakes expired).2.toList.filterMap Answer.handed ++ (q.pop t wakes expired).1.waiting =
      q.waiting ∧ (q.pop t wakes expired).1.notFull.blocked.length ≤ 1 := by
  obtain ⟨-, -, he⟩ | ⟨item, rest, -, he⟩ | ⟨-, -, he⟩ := pop_cases (q := q) t wakes expired
  · rw [he]
    exact ⟨rfl, hl⟩
  · rw [he]
    exact waiting_of_perm hl (Waiters.blocked_wake wakes)
  · rw [he]
    exact ⟨rfl, hl⟩

theorem step_ordered {e : Event T α} (hl : q.notFull.blocked.length ≤ 1) (h : OnePusher q e) :
    (q.step e).2.toList.filterMap Answer.handed ++ (q.step e).1.waiting =
      q.waiting ++ e.item.toList ∧ (q.step e).1.notFull.blocked.length ≤ 1 := by
  cases e with
  | push t item wakes =>
    have hw : q.waiting = [] := by rw [Queue.waiting, show q.notFull.blocked = [] from h, List.map_nil]
    rw [hw]
    exact push_ordered h t item wakes
  | pop t wakes =>
    simp only [Event.item, Option.toList_none, List.append_nil]
    exact pop_ordered hl t wakes false
  | stop =>
    simp only [Event.item, Option.toList_none, List.append_nil]
    exact waiting_of_perm hl Waiters.blocked_wakeAll
  | wakePush i =>
    simp only [Event.item, Option.toList_none, List.append_nil]
    exact waiting_of_perm hl (Waiters.blocked_wake i)
  | wakePop i =>
    simp only [Event.item, Option.toList_none, List.append_nil]
    exact ⟨rfl, hl⟩
  | resumePush i wakes =>
    simp only [Event.item, Option.toList_none, List.append_nil, Queue.step]
    cases hi : q.notFull.called[i]? with
    | none => exact ⟨rfl, hl⟩
    | some call =>
      have hp := Waiters.blocked_dismiss hi
      have hb : q.notFull.blocked = call :: (q.notFull.dismiss i).blocked :=
        (eq_of_perm_short hp.symm hl).symm
      have hnil : (q.notFull.dismiss i).blocked = [] := by
        rw [hb, List.length_cons] at hl
        exact List.length_eq_zero_iff.mp (Nat.le_zero.mp (Nat.le_of_succ_le_succ hl))
      have hw : q.waiting = [call.2] := by rw [Queue.waiting, hb, hnil, List.map_singleton]
      rw [hw]
      exact push_ordered (q := { q with notFull := q.notFull.dismiss i }) hnil call.1 call.2 wakes
  | resumePop i wakes expired =>
    simp only [Event.item, Option.toList_none, List.append_nil, Queue.step]
    cases q.notEmpty.called[i]? with
    | none => exact ⟨rfl, hl⟩
    | some t => exact pop_ordered (q := { q with notEmpty := q.notEmpty.dismiss i }) hl t wakes expired

theorem answers_ordered {es : List (Event T α)} (hl : q.notFull.blocked.length ≤ 1)
    (h : Machine.Always Queue.step OnePusher q es) :
    (q.answers es).filterMap Answer.handed ++ (Machine.run Queue.step q es).waiting =
      q.waiting ++ es.filterMap Event.item := by
  induction es generalizing q with
  | nil => simp [Queue.answers]
  | cons e es ih =>
    obtain ⟨ho, hl'⟩ := step_ordered hl h.1
    rw [Queue.answers, Machine.run_cons, List.filterMap_append, List.append_assoc, ih hl' h.2,
      ← List.append_assoc, ho]
    cases he : e.item <;> simp [he]

end

end EdgeLink.ThreadSafeQueue

namespace EdgeLink.SerialPipeline
open Gateway LittleEndian ThreadSafeQueue

/-- The rounds of `parserLoop`, by the chunks they pop; `clock` is what each round reads of the
clock. -/
def parserLoop (clock : ℕ → ℕ → UInt64) : ℕ → List Bytes → Intake → Intake
  | _, [], w => w
  | n, chunk :: chunks, w =>
    parserLoop clock (n + 1) chunks ((w.feed (.append chunk)).feed (.extract (clock n)))

/-- The loop is at rest between two rounds. -/
theorem parserLoop_drain (clock : ℕ → ℕ → UInt64) (n : ℕ) (chunks : List Bytes) (w : Intake)
    (hw : frameParser.next w.parser.buffer = none) :
    ((parserLoop clock n chunks w).parser.buffer, (parserLoop clock n chunks w).view) =
      frameParser.drain tally (w.parser.buffer ++ chunks.flatten) w.view := by
  induction chunks generalizing n w with
  | nil =>
    rw [List.flatten_nil, List.append_nil, frameParser.drain_stop tally _ hw]
    rfl
  | cons chunk chunks ih =>
    have hfeed := feed_extract (w.feed (.append chunk)) (clock n)
    obtain ⟨hbuffer, hview⟩ := Prod.ext_iff.mp hfeed
    dsimp only at hbuffer hview
    have hrest : frameParser.next
        ((w.feed (.append chunk)).feed (.extract (clock n))).parser.buffer = none := by
      rw [hbuffer]
      exact frameParser.drain_waits _ _ _
    have hstart : (w.feed (.append chunk)).parser.buffer = w.parser.buffer ++ chunk := rfl
    rw [parserLoop, ih (n + 1) _ hrest, hbuffer, hview, ← frameParser.drain_append, hstart,
      List.flatten_cons, List.append_assoc]
    rfl

/-- However the two threads and `stop` interleave: the chunks read from the port are, in order, those
that the parser has had, those in the queue, those refused after `stop` and the one that waits to
get in; and the parser has made of its chunks what one call makes of the whole stream. -/
theorem serial_pipeline {T : Type*} (capacity : ℕ) (clock : ℕ → ℕ → UInt64) (now : ℕ → UInt64)
    (es : List (Event T Bytes))
    (h : Machine.Always Queue.step OnePusher (create T Bytes capacity) es) :
    let q := (play capacity es).1
    let popped := (play capacity es).2.filterMap Answer.item
    let parsed := parserLoop clock 0 popped ⟨⟨[]⟩, {}, []⟩
    let whole := [Feed.append popped.flatten, Feed.extract now].foldl Intake.feed ⟨⟨[]⟩, {}, []⟩
    es.filterMap Event.item =
      popped ++ q.queue ++ (play capacity es).2.filterMap Answer.refusal ++ q.waiting ∧
    parsed.records.map untimed = whole.records.map untimed ∧ parsed.counters = whole.counters ∧
    parsed.parser.buffer = whole.parser.buffer := by
  intro q popped parsed whole
  have hlegal := answers_plain (create T Bytes capacity) es
  have hfifo := plain_fifo hlegal
  have hnobody : (create T Bytes capacity).notFull.blocked.length ≤ 1 := Nat.zero_le 1
  have horder := answers_ordered hnobody h
  rw [(plain_refusals hlegal).2] at horder
  refine ⟨?_, ?_⟩
  · have hstart : (create T Bytes capacity).waiting = [] := rfl
    have hempty : (create T Bytes capacity).plain.queue = [] := rfl
    rw [hempty, List.nil_append] at hfifo
    rw [hstart, List.nil_append, hfifo] at horder
    exact horder.symm
  · have hnil : frameParser.next ([] : Bytes) = none := frameParser.next_nil
    have hparsed := parserLoop_drain clock 0 popped ⟨⟨[]⟩, {}, []⟩ hnil
    have hwhole := feed_extract (Intake.feed ⟨⟨[]⟩, {}, []⟩ (.append popped.flatten)) now
    obtain ⟨hbuffer, hview⟩ := Prod.ext_iff.mp (hparsed.trans hwhole.symm)
    obtain ⟨hrecords, hcounters⟩ := Prod.ext_iff.mp hview
    exact ⟨hrecords, hcounters, hbuffer⟩

/-- A heartbeat that the port gives in two reads. -/
def heartbeatCut : List (Event ℕ Bytes) :=
  [.push 0 [0xAA, 0x55, 0x02] 0, .pop 1 0, .push 0 [0x03, 0x01, 0x50, 0xF0] 0, .pop 1 0]

theorem serial_pipeline_cut :
    let q := (play 4 heartbeatCut).1
    let popped := (play 4 heartbeatCut).2.filterMap Answer.item
    let parsed := parserLoop (fun _ _ => 0) 0 popped ⟨⟨[]⟩, {}, []⟩
    let whole :=
      [Feed.append popped.flatten, Feed.extract fun _ => 0].foldl Intake.feed ⟨⟨[]⟩, {}, []⟩
    heartbeatCut.filterMap Event.item =
      popped ++ q.queue ++ (play 4 heartbeatCut).2.filterMap Answer.refusal ++ q.waiting ∧
    parsed.records.map untimed = whole.records.map untimed ∧ parsed.counters = whole.counters ∧
    parsed.parser.buffer = whole.parser.buffer :=
  serial_pipeline 4 (fun _ _ => 0) (fun _ => 0) heartbeatCut ⟨rfl, trivial, rfl, trivial, trivial⟩

end EdgeLink.SerialPipeline
