import EdgeLink.Machine
import EdgeLink.WifiBridge

/-! The two tasks of the adapter on their queue: the UART task puts frames in, the network task
takes them out, sends them and puts back what it could not send. Every call on the queue is a step
of its own. -/

namespace EdgeLink.Bridge

open LittleEndian

def deadlineReached (now deadline_ms : UInt32) : Bool := (now - deadline_ms).toNat < 2 ^ 31

def xQueueSendToFront (q : FrameQueue) (pkt : Bytes) : Option FrameQueue :=
  if h : q.packets.length < FRAME_QUEUE_DEPTH then some ⟨pkt :: q.packets, h⟩ else none

def requeueFrameToFront (q : FrameQueue) (pkt : Bytes) : Option FrameQueue :=
  xQueueSendToFront q pkt

/-- What the UART task is about to do. The first three are `enqueueFrameDropOldest`. -/
inductive UartAt
  | reading
  | send (frame : Bytes)
  | makeRoom (frame : Bytes)
  | sendAgain (frame : Bytes)
  | sendNoDrop (frame : Bytes)
  | leaveOta
  deriving DecidableEq

/-- What the network task is about to do. -/
inductive NetAt
  | ready
  | holding (pkt : Bytes)
  /-- The write failed; the mode was read. -/
  | failed (mode : BridgeMode) (pkt : Bytes)
  /-- The lock was not had, in OTA mode. -/
  | blocked (pkt : Bytes)
  | send (pkt : Bytes)
  | makeRoom (pkt : Bytes)
  | sendAgain (pkt : Bytes)
  | leaveOta (close : Bool)
  deriving DecidableEq

def UartAt.held : UartAt → List Bytes
  | send f | makeRoom f | sendAgain f | sendNoDrop f => [f]
  | reading | leaveOta => []

def NetAt.held : NetAt → List Bytes
  | holding p | failed _ p | blocked p | send p | makeRoom p | sendAgain p => [p]
  | ready | leaveOta _ => []

/-- The network task is putting a frame back at the end of the queue. -/
def NetAt.puttingBack : NetAt → Bool
  | send _ | makeRoom _ | sendAgain _ => true
  | _ => false

/-- The tasks, and what an observer has seen: every frame from the UART, every frame written to
the end, of those that came since the OTA mode was entered, all and the answers among them, and
every frame that was no answer and came in OTA mode. -/
structure Tasks where
  g : Globals
  uart : UartAt
  net : NetAt
  received : List Bytes
  written : List Bytes
  otaFrames : List Bytes
  otaAnswers : List Bytes
  refused : List Bytes

def Tasks.boot : Tasks := ⟨Bridge.boot, .reading, .ready, [], [], [], [], []⟩

inductive Step
  /-- A frame from the UART is complete. -/
  | frame (frame : Bytes)
  | uart (now : UInt32)
  /-- Too many bad frames in a row. -/
  | parseErrors
  | take
  | write (ok : Bool)
  | lockTimeout
  | net (now : UInt32)
  /-- A control frame from the gateway. -/
  | enterOta (now session timeout : UInt32)
  | leaveOta
  | deadline (now : UInt32)
  | closeTcp

def Tasks.setQueue (t : Tasks) (q : FrameQueue) : Tasks := { t with g := { t.g with frameQ := q } }

/-- The OTA mode is left, and with it what came in it. -/
def Tasks.leave (t : Tasks) : Tasks :=
  { t with g := bridgeLeaveOtaMode t.g, otaFrames := [], otaAnswers := [] }

def Tasks.close (t : Tasks) : Tasks := { t with g := requestTcpClose t.g }

def Tasks.overflow (now : UInt32) (t : Tasks) : Tasks := { t with g := onQueueOverflow now t.g }

/-- The frame of the UART task in its queue, if it could be put there. -/
def uartSent (now : UInt32) (t : Tasks) : Tasks :=
  let t := { t with uart := .reading }
  if FRAME_QUEUE_DEPTH ≤ t.g.frameQ.packets.length then t.overflow now else t

def uartTaskStep (now : UInt32) (t : Tasks) : Tasks :=
  match t.uart with
  | .reading => t
  | .send f =>
    match xQueueSend t.g.frameQ f with
    | some q => uartSent now (t.setQueue q)
    | none => { t with uart := .makeRoom f }
  | .makeRoom f => { t.setQueue (xQueueReceive t.g.frameQ) with uart := .sendAgain f }
  | .sendAgain f =>
    match xQueueSend t.g.frameQ f with
    | some q => uartSent now (t.setQueue q)
    | none => uartSent now t
  | .sendNoDrop f =>
    match xQueueSend t.g.frameQ f with
    | some q => { t.setQueue q with uart := .reading }
    | none => { t with uart := .leaveOta }
  | .leaveOta => { t.leave.close with uart := .reading }

def netStep (now : UInt32) (t : Tasks) : Tasks :=
  match t.net with
  | .ready | .holding _ => t
  | .failed .ota p =>
    match requeueFrameToFront t.g.frameQ p with
    | some q => { t.setQueue q with net := .leaveOta false }
    | none => { t with net := .leaveOta false }
  | .failed .normal p =>
    match requeueFrameToFront t.g.frameQ p with
    | some q => { t.setQueue q with net := .ready }
    | none => { t with net := .send p }
  | .blocked p =>
    match requeueFrameToFront t.g.frameQ p with
    | some q => { t.setQueue q with net := .ready }
    | none => { t with net := .leaveOta true }
  | .send p =>
    match xQueueSend t.g.frameQ p with
    | some q => { (t.setQueue q).overflow now with net := .ready }
    | none => { t with net := .makeRoom p }
  | .makeRoom p => { t.setQueue (xQueueReceive t.g.frameQ) with net := .sendAgain p }
  | .sendAgain p =>
    match xQueueSend t.g.frameQ p with
    | some q => { (t.setQueue q).overflow now with net := .ready }
    | none => { t.overflow now with net := .ready }
  | .leaveOta close =>
    let t := { t.leave with net := .ready }
    if close then t.close else t

/-- The UART task with a frame: in OTA mode only answers go on. -/
def frameStep (f : Bytes) (t : Tasks) : Tasks :=
  let t := { t with received := t.received ++ [f] }
  if t.g.mode = .ota then
    let t := { t with otaFrames := t.otaFrames ++ [f] }
    if isOtaRespType (f.getD 3 0) then
      { t with otaAnswers := t.otaAnswers ++ [f], uart := .sendNoDrop f }
    else { t with refused := t.refused ++ [f] }
  else { t with uart := .send f }

def tasksStep (t : Tasks) : Step → Tasks
  | .frame f =>
    if t.uart = .reading ∧ kMinFrameSize ≤ f.length ∧ f.length ≤ MAX_FRAME_SIZE then frameStep f t
    else t
  | .uart now => uartTaskStep now t
  | .parseErrors => if t.uart = .reading ∧ t.g.mode = .ota then t.leave else t
  | .take =>
    match t.net, t.g.frameQ.packets with
    | .ready, p :: _ => { t.setQueue (xQueueReceive t.g.frameQ) with net := .holding p }
    | _, _ => t
  | .write ok =>
    match t.net with
    | .holding p =>
      if ok then { t with net := .ready, written := t.written ++ [p] }
      else { t with net := .failed t.g.mode p }
    | _ => t
  | .lockTimeout =>
    match t.net with
    | .holding p => { t with net := if t.g.mode = .ota then .blocked p else .send p }
    | _ => t
  | .net now => netStep now t
  | .enterOta now session timeout =>
    if t.net = .ready then { t with g := bridgeEnterOtaMode now t.g session timeout } else t
  | .leaveOta => if t.net = .ready then t.leave else t
  | .deadline now =>
    if t.net = .ready ∧ t.g.mode = .ota ∧ t.g.otaDeadlineMs ≠ 0 ∧
        deadlineReached now t.g.otaDeadlineMs = true then t.leave.close
    else t
  | .closeTcp =>
    if t.net = .ready then { t with g := { t.g with tcpCloseRequested := false } } else t

namespace Tasks

/-- The frames between the UART and the gateway, the oldest first. -/
def inside (t : Tasks) : List Bytes := t.net.held ++ t.g.frameQ.packets ++ t.uart.held

def pipeline (t : Tasks) : List Bytes := t.written ++ t.inside

/-- A task has found that a frame is lost and has not left the mode yet. -/
def leaving (t : Tasks) : Bool :=
  (match t.uart with | .leaveOta => true | _ => false) ||
    match t.net with | .leaveOta _ => true | _ => false

/-- No answer that came since the OTA mode was entered is missing. -/
def Complete (t : Tasks) (frames : List Bytes) : Prop :=
  t.g.mode = .ota → t.leaving = false → frames <:+ t.pipeline

end Tasks

section queue

variable {q q' : FrameQueue} {p : Bytes}

theorem xQueueSend_some (h : xQueueSend q p = some q') : q'.packets = q.packets ++ [p] := by
  unfold xQueueSend at h
  split_ifs at h
  rw [← Option.some.inj h]

theorem requeueFrameToFront_some (h : requeueFrameToFront q p = some q') :
    q'.packets = p :: q.packets := by
  unfold requeueFrameToFront xQueueSendToFront at h
  split_ifs at h
  rw [← Option.some.inj h]

end queue

/-- The overflow bookkeeping leaves the queue and the mode alone. -/
theorem overflow_eq (now : UInt32) (t : Tasks) :
    ∃ g, g.frameQ = t.g.frameQ ∧ g.mode = t.g.mode ∧ t.overflow now = { t with g := g } := by
  refine ⟨onQueueOverflow now t.g, ?_, ?_, rfl⟩ <;> unfold onQueueOverflow <;> split_ifs <;> rfl

theorem uartSent_eq (now : UInt32) (t : Tasks) :
    ∃ g, g.frameQ = t.g.frameQ ∧ g.mode = t.g.mode ∧
      uartSent now t = { t with g := g, uart := .reading } := by
  unfold uartSent
  simp only
  split_ifs
  · exact overflow_eq now { t with uart := .reading }
  · exact ⟨t.g, rfl, rfl, rfl⟩

namespace Tasks

/-- What a step leaves of the pipeline: `fresh` is the frame it brought. -/
structure Passes (t t' : Tasks) (fresh : List Bytes) : Prop where
  received : t'.received = t.received ++ fresh
  pipeline : t'.pipeline.Sublist (t.pipeline ++ fresh)
  counted : (t'.pipeline ++ t'.refused).Subperm (t.pipeline ++ t.refused ++ fresh)

theorem passes_same {t t' : Tasks} (hr : t'.received = t.received) (hf : t'.refused = t.refused)
    (hp : t'.pipeline.Sublist t.pipeline) : t.Passes t' [] := by
  refine ⟨?_, ?_, ?_⟩
  · rw [hr, List.append_nil]
  · rw [List.append_nil]
    exact hp
  · rw [hf, List.append_nil]
    exact (hp.append_right _).subperm

theorem Passes.refl (t : Tasks) : t.Passes t [] := passes_same rfl rfl (List.Sublist.refl _)

theorem pipeline_eq (t : Tasks) :
    t.pipeline = t.written ++ (t.net.held ++ (t.g.frameQ.packets ++ t.uart.held)) := by
  rw [pipeline, inside, List.append_assoc]

/-- Parts of the pipeline may only get lost. -/
theorem passes_parts {t t' : Tasks} (hr : t'.received = t.received) (hf : t'.refused = t.refused)
    (hw : t'.written = t.written) (hn : t'.net.held = t.net.held)
    (hq : (t'.g.frameQ.packets ++ t'.uart.held).Sublist (t.g.frameQ.packets ++ t.uart.held)) :
    t.Passes t' [] := by
  apply passes_same hr hf
  rw [pipeline_eq, pipeline_eq, hw, hn]
  exact (hq.append_left _).append_left _

end Tasks

section steps

variable (t : Tasks) (now : UInt32)

theorem uartTaskStep_passes : t.Passes (uartTaskStep now t) [] := by
  obtain ⟨g, uart, net, received, written, otaFrames, otaAnswers, refused⟩ := t
  have hlost : ∀ f : Bytes, (g.frameQ.packets.tail ++ [f]).Sublist (g.frameQ.packets ++ [f]) :=
    fun f => (List.tail_sublist _).append_right _
  -- a frame that finds room goes from the task's hand to the end of the queue
  have hsent : ∀ (uart : UartAt) (f : Bytes) (q : FrameQueue), uart.held = [f] →
      xQueueSend g.frameQ f = some q →
      Tasks.Passes ⟨g, uart, net, received, written, otaFrames, otaAnswers, refused⟩
        (uartSent now (Tasks.setQueue ⟨g, uart, net, received, written, otaFrames, otaAnswers, refused⟩ q))
        [] := by
    intro uart f q huart hq
    obtain ⟨g', hg', -, heq⟩ := uartSent_eq now
      (Tasks.setQueue ⟨g, uart, net, received, written, otaFrames, otaAnswers, refused⟩ q)
    rw [heq]
    refine Tasks.passes_parts rfl rfl rfl rfl ?_
    have hpackets : g'.frameQ.packets = g.frameQ.packets ++ [f] := by
      rw [hg']
      exact xQueueSend_some hq
    change (g'.frameQ.packets ++ []).Sublist (g.frameQ.packets ++ uart.held)
    rw [List.append_nil, hpackets, huart]
  cases uart with
  | reading => exact Tasks.Passes.refl _
  | send f =>
    simp only [uartTaskStep]
    cases hq : xQueueSend g.frameQ f with
    | none => exact Tasks.passes_parts rfl rfl rfl rfl (List.Sublist.refl _)
    | some q => exact hsent _ f q rfl hq
  | makeRoom f => exact Tasks.passes_parts rfl rfl rfl rfl (hlost f)
  | sendAgain f =>
    simp only [uartTaskStep]
    cases hq : xQueueSend g.frameQ f with
    | some q => exact hsent _ f q rfl hq
    | none =>
      obtain ⟨g', hg', -, heq⟩ := uartSent_eq now
        ⟨g, .sendAgain f, net, received, written, otaFrames, otaAnswers, refused⟩
      simp only
      rw [heq]
      refine Tasks.passes_parts rfl rfl rfl rfl ?_
      simp only [hg', UartAt.held, List.append_nil]
      exact List.sublist_append_left _ _
  | sendNoDrop f =>
    simp only [uartTaskStep]
    cases hq : xQueueSend g.frameQ f with
    | some q =>
      refine Tasks.passes_parts rfl rfl rfl rfl ?_
      simp only [Tasks.setQueue, xQueueSend_some hq, UartAt.held, List.append_nil,
        List.Sublist.refl]
    | none =>
      refine Tasks.passes_parts rfl rfl rfl rfl ?_
      simp only [UartAt.held, List.append_nil]
      exact List.sublist_append_left _ _
  | leaveOta => exact Tasks.passes_parts rfl rfl rfl rfl (List.Sublist.refl _)

/-- A packet goes back to the front, or is lost. -/
theorem requeue_passes {t' : Tasks} {p : Bytes} (hheld : t.net.held = [p])
    (hr : t'.received = t.received) (hf : t'.refused = t.refused) (hw : t'.written = t.written)
    (hu : t'.uart = t.uart) (hn : t'.net.held = [])
    (hq : t'.g.frameQ.packets = p :: t.g.frameQ.packets ∨ t'.g.frameQ = t.g.frameQ) :
    t.Passes t' [] := by
  apply Tasks.passes_same hr hf
  rw [Tasks.pipeline_eq, Tasks.pipeline_eq, hw, hu, hn, hheld]
  apply List.Sublist.append_left
  rcases hq with hq | hq
  · rw [hq]
    exact List.Sublist.refl _
  · rw [hq]
    exact List.sublist_append_right _ _

theorem netStep_passes (h : t.net.puttingBack = false) : t.Passes (netStep now t) [] := by
  obtain ⟨g, uart, net, received, written, otaFrames, otaAnswers, refused⟩ := t
  cases net with
  | ready => exact Tasks.Passes.refl _
  | holding p => exact Tasks.Passes.refl _
  | failed mode p =>
    cases mode with
    | ota =>
      simp only [netStep]
      cases hq : requeueFrameToFront g.frameQ p with
      | some q =>
        exact requeue_passes _ rfl rfl rfl rfl rfl rfl (Or.inl (requeueFrameToFront_some hq))
      | none => exact requeue_passes _ rfl rfl rfl rfl rfl rfl (Or.inr rfl)
    | normal =>
      simp only [netStep]
      cases hq : requeueFrameToFront g.frameQ p with
      | some q =>
        exact requeue_passes _ rfl rfl rfl rfl rfl rfl (Or.inl (requeueFrameToFront_some hq))
      | none => exact Tasks.passes_parts rfl rfl rfl rfl (List.Sublist.refl _)
  | blocked p =>
    simp only [netStep]
    cases hq : requeueFrameToFront g.frameQ p with
    | some q =>
      exact requeue_passes _ rfl rfl rfl rfl rfl rfl (Or.inl (requeueFrameToFront_some hq))
    | none => exact requeue_passes _ rfl rfl rfl rfl rfl rfl (Or.inr rfl)
  | send p => cases h
  | makeRoom p => cases h
  | sendAgain p => cases h
  | leaveOta close =>
    cases close <;> exact Tasks.passes_parts rfl rfl rfl rfl (List.Sublist.refl _)

theorem frameStep_passes (h : t.uart = .reading) (f : Bytes) :
    t.Passes (frameStep f t) [f] := by
  obtain ⟨g, uart, net, received, written, otaFrames, otaAnswers, refused⟩ := t
  obtain rfl := h
  have hbehind : ∀ l l' l'' : List Bytes, (l ++ l' ++ l'').Perm (l ++ l'' ++ l') := by
    intro l l' l''
    rw [List.append_assoc, List.append_assoc]
    exact List.perm_append_comm.append_left l
  unfold frameStep
  simp only
  split_ifs
  -- a frame that goes on is behind the others; one that is refused is beside them
  · refine ⟨rfl, by simp [Tasks.pipeline_eq, UartAt.held], ?_⟩
    simp only [Tasks.pipeline_eq, UartAt.held, List.append_nil, ← List.append_assoc]
    exact (hbehind _ _ _).subperm
  · refine ⟨rfl, List.sublist_append_left _ _, ?_⟩
    rw [List.append_assoc]
    exact List.Subperm.refl _
  · refine ⟨rfl, by simp [Tasks.pipeline_eq, UartAt.held], ?_⟩
    simp only [Tasks.pipeline_eq, UartAt.held, List.append_nil, ← List.append_assoc]
    exact (hbehind _ _ _).subperm

/-- The network task puts a frame back at the end of the queue. -/
def Step.putsBack (t : Tasks) : Step → Bool
  | .net _ => t.net.puttingBack
  | _ => false

/-- The frame a step brings. -/
def Step.fresh (t : Tasks) : Step → List Bytes
  | .frame f =>
    if t.uart = .reading ∧ kMinFrameSize ≤ f.length ∧ f.length ≤ MAX_FRAME_SIZE then [f] else []
  | _ => []

theorem take_passes : t.Passes (tasksStep t .take) [] := by
  obtain ⟨g, uart, net, received, written, otaFrames, otaAnswers, refused⟩ := t
  simp only [tasksStep]
  split
  next _ p rest hq =>
    refine Tasks.passes_same rfl rfl ?_
    simp only [Tasks.pipeline_eq, Tasks.setQueue, xQueueReceive, NetAt.held, hq, List.tail_cons]
    exact List.Sublist.refl _
  · exact Tasks.Passes.refl _

theorem write_passes (ok : Bool) : t.Passes (tasksStep t (.write ok)) [] := by
  obtain ⟨g, uart, net, received, written, otaFrames, otaAnswers, refused⟩ := t
  simp only [tasksStep]
  split
  next _ p =>
    cases ok with
    | true =>
      refine Tasks.passes_same rfl rfl ?_
      simp [Tasks.pipeline_eq, NetAt.held]
    | false => exact Tasks.passes_parts rfl rfl rfl rfl (List.Sublist.refl _)
  · exact Tasks.Passes.refl _

theorem lockTimeout_passes : t.Passes (tasksStep t .lockTimeout) [] := by
  obtain ⟨g, uart, net, received, written, otaFrames, otaAnswers, refused⟩ := t
  simp only [tasksStep]
  split
  next _ p =>
    refine Tasks.passes_parts rfl rfl rfl ?_ (List.Sublist.refl _)
    simp only
    split_ifs <;> rfl
  · exact Tasks.Passes.refl _

theorem passes_if {c : Prop} [Decidable c] {t' : Tasks} (h : t.Passes t' []) :
    t.Passes (if c then t' else t) [] := by
  split_ifs
  · exact h
  · exact Tasks.Passes.refl t

theorem tasksStep_passes {e : Step} (h : e.putsBack t = false) :
    t.Passes (tasksStep t e) (e.fresh t) := by
  cases e with
  | frame f =>
    simp only [tasksStep, Step.fresh]
    split_ifs with hf
    · exact frameStep_passes t hf.1 f
    · exact Tasks.Passes.refl t
  | uart now => exact uartTaskStep_passes t now
  | parseErrors =>
    exact passes_if t (Tasks.passes_parts rfl rfl rfl rfl (List.Sublist.refl _))
  | take => exact take_passes t
  | write ok => exact write_passes t ok
  | lockTimeout => exact lockTimeout_passes t
  | net now => exact netStep_passes t now h
  | enterOta now session timeout =>
    exact passes_if t (Tasks.passes_parts rfl rfl rfl rfl (List.Sublist.refl _))
  | leaveOta =>
    exact passes_if t (Tasks.passes_parts rfl rfl rfl rfl (List.Sublist.refl _))
  | deadline now =>
    exact passes_if t (Tasks.passes_parts rfl rfl rfl rfl (List.Sublist.refl _))
  | closeTcp =>
    exact passes_if t (Tasks.passes_parts rfl rfl rfl rfl (List.Sublist.refl _))

end steps

/-- As long as no frame is put back at the end, the pipeline is in the order of reception. -/
theorem step_ordered {t : Tasks} {e : Step} (h : e.putsBack t = false)
    (ho : t.pipeline.Sublist t.received) :
    (tasksStep t e).pipeline.Sublist (tasksStep t e).received := by
  obtain ⟨hr, hp, -⟩ := tasksStep_passes t h
  rw [hr]
  exact hp.trans (ho.append_right _)

/-- No frame is counted twice. -/
def Tasks.Counted (t : Tasks) : Prop := (t.pipeline ++ t.refused).Subperm t.received

/-- The UART task read the normal mode and has not finished with its frame. -/
def UartAt.dropping : UartAt → Bool
  | send _ | makeRoom _ | sendAgain _ => true
  | _ => false

/-- The network task read the normal mode and has not finished with its packet. -/
def NetAt.normal : NetAt → Bool
  | failed .normal _ | send _ | makeRoom _ | sendAgain _ => true
  | _ => false

/-- What holds of the answers that came in OTA mode. -/
structure OtaKept (t : Tasks) : Prop where
  complete : t.Complete t.otaAnswers
  outside : t.g.mode = .normal → t.otaAnswers = []
  dropping : t.uart.dropping = true → t.otaAnswers = []
  network : t.g.mode = .ota → t.net.normal = false

theorem OtaKept.boot : OtaKept .boot :=
  ⟨fun h => (by cases h), fun _ => rfl, fun _ => rfl, fun _ => rfl⟩

/-- Leaving the mode forgets the answers. -/
theorem OtaKept.left {t : Tasks} (hm : t.g.mode = .normal) (ha : t.otaAnswers = []) :
    OtaKept t := by
  have hota : t.g.mode ≠ .ota := by
    rw [hm]
    exact BridgeMode.noConfusion
  exact ⟨fun h => absurd h hota, fun _ => ha, fun _ => ha, fun h => absurd h hota⟩

def FrameQueue.full (q : FrameQueue) : Bool := FRAME_QUEUE_DEPTH ≤ q.packets.length

/-- The step finds the queue full, or goes on from there. -/
def Step.findsFull (t : Tasks) : Step → Bool
  | .uart _ =>
    match t.uart with
    | .send _ | .sendNoDrop _ => t.g.frameQ.full
    | .makeRoom _ | .sendAgain _ => true
    | .reading | .leaveOta => false
  | .net _ =>
    match t.net with
    | .failed _ _ | .blocked _ | .send _ => t.g.frameQ.full
    | .makeRoom _ | .sendAgain _ => true
    | .ready | .holding _ | .leaveOta _ => false
  | _ => false

theorem full_of_send_none {q : FrameQueue} {p : Bytes} (h : xQueueSend q p = none) :
    q.full = true := by
  unfold xQueueSend at h
  split_ifs at h with hroom
  exact decide_eq_true (not_lt.mp hroom)

theorem full_of_requeue_none {q : FrameQueue} {p : Bytes} (h : requeueFrameToFront q p = none) :
    q.full = true := by
  unfold requeueFrameToFront xQueueSendToFront at h
  split_ifs at h with hroom
  exact decide_eq_true (not_lt.mp hroom)

def Tasks.size (t : Tasks) : ℕ := t.pipeline.length + t.refused.length

/-- A step that brings no frame takes at most `n` away. -/
structure Tasks.Shrinks (t t' : Tasks) (n : ℕ) : Prop where
  received : t'.received = t.received
  refused : t'.refused = t.refused
  size : t.net.held.length + t.g.frameQ.packets.length + t.uart.held.length + t.written.length ≤
    t'.net.held.length + t'.g.frameQ.packets.length + t'.uart.held.length + t'.written.length + n

theorem Tasks.Shrinks.refl (t : Tasks) (n : ℕ) : t.Shrinks t n := ⟨rfl, rfl, Nat.le_add_right _ _⟩

theorem uartTaskStep_shrinks (t : Tasks) (now : UInt32) :
    t.Shrinks (uartTaskStep now t) (if (Step.uart now).findsFull t then 1 else 0) := by
  obtain ⟨g, uart, net, received, written, otaFrames, otaAnswers, refused⟩ := t
  have hsent : ∀ (uart : UartAt) (f : Bytes) (q : FrameQueue) (n : ℕ), uart.held = [f] →
      xQueueSend g.frameQ f = some q →
      Tasks.Shrinks ⟨g, uart, net, received, written, otaFrames, otaAnswers, refused⟩
        (uartSent now
          (Tasks.setQueue ⟨g, uart, net, received, written, otaFrames, otaAnswers, refused⟩ q)) n := by
    intro uart f q n huart hq
    obtain ⟨g', hg', -, heq⟩ := uartSent_eq now
      (Tasks.setQueue ⟨g, uart, net, received, written, otaFrames, otaAnswers, refused⟩ q)
    rw [heq]
    refine ⟨rfl, rfl, ?_⟩
    change net.held.length + g.frameQ.packets.length + uart.held.length + written.length ≤
      net.held.length + g'.frameQ.packets.length + 0 + written.length + n
    rw [hg', huart]
    simp only [Tasks.setQueue, xQueueSend_some hq, List.length_append, List.length_singleton]
    omega
  cases uart with
  | reading => exact .refl _ _
  | send f =>
    simp only [uartTaskStep]
    cases hq : xQueueSend g.frameQ f with
    | some q => exact hsent _ f q _ rfl hq
    | none => exact ⟨rfl, rfl, Nat.le_add_right _ _⟩
  | makeRoom f =>
    refine ⟨rfl, rfl, ?_⟩
    simp only [uartTaskStep, Tasks.setQueue, xQueueReceive, UartAt.held, Step.findsFull, if_true,
      List.length_tail, List.length_cons, List.length_nil]
    omega
  | sendAgain f =>
    simp only [uartTaskStep]
    cases hq : xQueueSend g.frameQ f with
    | some q => exact hsent _ f q _ rfl hq
    | none =>
      obtain ⟨g', hg', -, heq⟩ := uartSent_eq now
        ⟨g, .sendAgain f, net, received, written, otaFrames, otaAnswers, refused⟩
      simp only
      rw [heq]
      refine ⟨rfl, rfl, ?_⟩
      simp only [hg', UartAt.held, Step.findsFull, if_true, List.length_cons, List.length_nil]
      omega
  | sendNoDrop f =>
    simp only [uartTaskStep]
    cases hq : xQueueSend g.frameQ f with
    | some q =>
      refine ⟨rfl, rfl, ?_⟩
      simp only [Tasks.setQueue, xQueueSend_some hq, UartAt.held, List.length_append,
        List.length_cons, List.length_nil]
      omega
    | none =>
      refine ⟨rfl, rfl, ?_⟩
      simp only [UartAt.held, Step.findsFull, full_of_send_none hq, if_true, List.length_cons,
        List.length_nil]
      omega
  | leaveOta => exact ⟨rfl, rfl, Nat.le_add_right _ _⟩

theorem netStep_shrinks (t : Tasks) (now : UInt32) :
    t.Shrinks (netStep now t) (if (Step.net now).findsFull t then 1 else 0) := by
  obtain ⟨g, uart, net, received, written, otaFrames, otaAnswers, refused⟩ := t
  -- the packet of the task goes back to the queue, or it is lost and the queue was full
  have hback : ∀ (net net' : NetAt) (g' : Globals) (frames answers : List Bytes) (p : Bytes) (n : ℕ),
      net.held = [p] → g.frameQ.packets.length + 1 ≤
        net'.held.length + g'.frameQ.packets.length + n →
      Tasks.Shrinks ⟨g, uart, net, received, written, otaFrames, otaAnswers, refused⟩
        ⟨g', uart, net', received, written, frames, answers, refused⟩ n := by
    intro net net' g' frames answers p n hnet hle
    refine ⟨rfl, rfl, ?_⟩
    simp only [hnet, List.length_cons, List.length_nil]
    omega
  have hfront : ∀ {p : Bytes} {q : FrameQueue}, requeueFrameToFront g.frameQ p = some q →
      ∀ n, g.frameQ.packets.length + 1 ≤ 0 + q.packets.length + n := by
    intro p q hq n
    rw [requeueFrameToFront_some hq, List.length_cons]
    omega
  have hend : ∀ {p : Bytes} {q : FrameQueue}, xQueueSend g.frameQ p = some q →
      ∀ n, g.frameQ.packets.length + 1 ≤ 0 + q.packets.length + n := by
    intro p q hq n
    rw [xQueueSend_some hq, List.length_append, List.length_singleton]
    omega
  cases net with
  | ready => exact .refl _ _
  | holding p => exact .refl _ _
  | failed mode p =>
    cases mode with
    | ota =>
      simp only [netStep]
      cases hq : requeueFrameToFront g.frameQ p with
      | some q => exact hback _ _ _ _ _ p _ rfl (hfront hq _)
      | none =>
        refine hback _ _ _ _ _ p _ rfl ?_
        simp [Step.findsFull, full_of_requeue_none hq]
    | normal =>
      simp only [netStep]
      cases hq : requeueFrameToFront g.frameQ p with
      | some q => exact hback _ _ _ _ _ p _ rfl (hfront hq _)
      | none => exact ⟨rfl, rfl, Nat.le_add_right _ _⟩
  | blocked p =>
    simp only [netStep]
    cases hq : requeueFrameToFront g.frameQ p with
    | some q => exact hback _ _ _ _ _ p _ rfl (hfront hq _)
    | none =>
      refine hback _ _ _ _ _ p _ rfl ?_
      simp [Step.findsFull, full_of_requeue_none hq]
  | send p =>
    simp only [netStep]
    cases hq : xQueueSend g.frameQ p with
    | some q =>
      obtain ⟨g', hg', -, heq⟩ := overflow_eq now
        (Tasks.setQueue ⟨g, uart, .send p, received, written, otaFrames, otaAnswers, refused⟩ q)
      simp only [heq]
      refine hback _ _ g' _ _ p _ rfl ?_
      rw [hg']
      exact hend hq _
    | none => exact ⟨rfl, rfl, Nat.le_add_right _ _⟩
  | makeRoom p =>
    refine ⟨rfl, rfl, ?_⟩
    simp only [netStep, Tasks.setQueue, xQueueReceive, NetAt.held, Step.findsFull, if_true,
      List.length_tail, List.length_cons, List.length_nil]
    omega
  | sendAgain p =>
    simp only [netStep]
    cases hq : xQueueSend g.frameQ p with
    | some q =>
      obtain ⟨g', hg', -, heq⟩ := overflow_eq now
        (Tasks.setQueue ⟨g, uart, .sendAgain p, received, written, otaFrames, otaAnswers, refused⟩ q)
      simp only [heq]
      refine hback _ _ g' _ _ p _ rfl ?_
      rw [hg']
      exact hend hq _
    | none =>
      obtain ⟨g', hg', -, heq⟩ := overflow_eq now
        ⟨g, uart, .sendAgain p, received, written, otaFrames, otaAnswers, refused⟩
      simp only [heq]
      refine hback _ _ g' _ _ p _ rfl ?_
      rw [hg']
      exact Nat.le_add_left _ _
  | leaveOta close => cases close <;> exact ⟨rfl, rfl, Nat.le_add_right _ _⟩

theorem Tasks.size_eq (t : Tasks) : t.size = t.net.held.length + t.g.frameQ.packets.length +
    t.uart.held.length + t.written.length + t.refused.length := by
  simp only [Tasks.size, Tasks.pipeline_eq, List.length_append]
  omega

/-- A frame gets lost only where the queue was found full. -/
theorem step_short (t : Tasks) (e : Step) :
    (tasksStep t e).received.length + t.size ≤ t.received.length + (tasksStep t e).size +
      if e.findsFull t then 1 else 0 := by
  have hshrinks : ∀ {n : ℕ}, t.Shrinks (tasksStep t e) n → (tasksStep t e).received.length + t.size ≤
      t.received.length + (tasksStep t e).size + n := by
    intro n h
    have hsize := h.size
    rw [Tasks.size_eq, Tasks.size_eq, h.received, h.refused]
    omega
  obtain ⟨g, uart, net, received, written, otaFrames, otaAnswers, refused⟩ := t
  cases e with
  | frame f =>
    rw [if_neg (show ¬(Step.frame f).findsFull _ = true from Bool.false_ne_true)]
    simp only [tasksStep]
    split_ifs with hf
    · obtain ⟨rfl, -⟩ := hf
      unfold frameStep
      simp only
      split_ifs <;>
      · simp only [Tasks.size_eq, UartAt.held, List.length_append, List.length_cons, List.length_nil]
        omega
    · exact le_rfl
  | uart now => exact hshrinks (uartTaskStep_shrinks _ now)
  | net now => exact hshrinks (netStep_shrinks _ now)
  | take =>
    apply hshrinks
    simp only [tasksStep]
    split
    next _ p rest hq =>
      -- the frame moves from the queue into the hands of the task
      refine ⟨rfl, rfl, ?_⟩
      simp only [Tasks.setQueue, xQueueReceive, NetAt.held, hq, List.length_cons, List.length_nil,
        List.tail_cons]
      omega
    · exact .refl _ _
  | write ok =>
    apply hshrinks
    simp only [tasksStep]
    split
    next _ p =>
      cases ok
      · exact ⟨rfl, rfl, Nat.le_add_right _ _⟩
      · refine ⟨rfl, rfl, ?_⟩
        simp only [NetAt.held, if_true, List.length_append, List.length_cons, List.length_nil]
        omega
    · exact .refl _ _
  | lockTimeout =>
    apply hshrinks
    simp only [tasksStep]
    split
    next _ p => split_ifs <;> exact ⟨rfl, rfl, Nat.le_add_right _ _⟩
    · exact .refl _ _
  | parseErrors =>
    simp only [tasksStep]
    split_ifs <;> exact Nat.le_add_right _ _
  | enterOta now session timeout =>
    simp only [tasksStep]
    split_ifs <;> exact Nat.le_add_right _ _
  | leaveOta =>
    simp only [tasksStep]
    split_ifs <;> exact Nat.le_add_right _ _
  | deadline now =>
    simp only [tasksStep]
    split_ifs <;> exact Nat.le_add_right _ _
  | closeTcp =>
    simp only [tasksStep]
    split_ifs <;> exact Nat.le_add_right _ _

open Machine

end EdgeLink.Bridge
