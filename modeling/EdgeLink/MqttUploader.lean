import EdgeLink.Machine

namespace EdgeLink.Mqtt
open Machine

/-- Where a call of `publishRaw` stands. -/
inductive Place
  | idle
  | connecting
  | awaitConnect
  | publishing
  | noting (mid : UInt16) (msg : ℕ)
  | awaitAck (mid : UInt16) (msg : ℕ)
  deriving DecidableEq

structure World where
  connected : Bool
  connectReady : Bool
  loopStarted : Bool
  pendingPublishMids : Finset UInt16
  ackedPublishMids : Finset UInt16
  /-- the calls, by thread -/
  calls : ℕ → Place
  /-- the messages that the library still has in work, with their ids -/
  unfinished : List (ℕ × UInt16)
  next : ℕ
  /-- the messages for which the library has called `onPublish` -/
  acknowledged : List ℕ

inductive Event
  | call (t : ℕ) (loop : Bool)
  | connectAsync (t : ℕ) (ok : Bool)
  | wakeConnect (t : ℕ)
  /-- a publish that fails may have put the message into the library's queue -/
  | publish (t : ℕ) (mid : UInt16) (ok queued : Bool)
  | note (t : ℕ)
  | wakeAck (t : ℕ)
  | onConnect (ok : Bool)
  | onDisconnect
  | onPublish (msg : ℕ)

def World.goto (w : World) (t : ℕ) (p : Place) : World :=
  { w with calls := Function.update w.calls t p }

/-- The first half of `ensureConnected`. -/
def beginCall (w : World) (t : ℕ) (loop : Bool) : World × Option Bool :=
  if w.loopStarted = false ∧ loop = false then (w, some false)
  else
    let w := { w with loopStarted := true }
    if w.connected then (w.goto t .publishing, none)
    else ({ w with connectReady := false }.goto t .connecting, none)

/-- `connected` was waited for, or the time is up. -/
def endConnect (w : World) (t : ℕ) : World × Option Bool :=
  if w.connectReady = false ∨ w.connected = false then (w.goto t .idle, some false)
  else (w.goto t .publishing, none)

/-- The library gives no id that one of its messages still has. -/
def World.taken (w : World) (mid : UInt16) : Prop := mid ∈ w.unfinished.map Prod.snd

instance (w : World) (mid : UInt16) : Decidable (w.taken mid) :=
  inferInstanceAs (Decidable (mid ∈ w.unfinished.map Prod.snd))

def World.queue (w : World) (mid : UInt16) : World :=
  { w with unfinished := w.unfinished ++ [(w.next, mid)], next := w.next + 1 }

def World.forget (w : World) (mid : UInt16) : World :=
  { w with
    pendingPublishMids := w.pendingPublishMids.erase mid
    ackedPublishMids := w.ackedPublishMids.erase mid }

def publishOk (qos : ℕ) (w : World) (t : ℕ) (mid : UInt16) : World × Option Bool :=
  if w.taken mid then (w, none)
  else if qos > 0 then ((w.queue mid).goto t (.noting mid w.next), none)
  else ((w.queue mid).goto t .idle, some true)

def publishFailed (w : World) (t : ℕ) (mid : UInt16) (queued : Bool) : World × Option Bool :=
  if queued = true ∧ w.taken mid then (w, none)
  else
    let w := if queued then w.queue mid else w
    (({ w with connected := false }.forget mid).goto t .idle, some false)

/-- `waitForPublishAck`, once it holds the lock again. -/
def endWait (w : World) (t : ℕ) (mid : UInt16) : World × Option Bool :=
  if w.connected = false ∨ mid ∉ w.ackedPublishMids then
    (({ w with connected := false }.forget mid).goto t .idle, some false)
  else ((w.forget mid).goto t .idle, some true)

def onPublish (w : World) (msg : ℕ) (mid : UInt16) : World :=
  { w with
    ackedPublishMids := insert mid w.ackedPublishMids
    pendingPublishMids := w.pendingPublishMids.erase mid
    unfinished := w.unfinished.filter fun p => p.1 ≠ msg
    acknowledged := msg :: w.acknowledged }

def step (qos : ℕ) (w : World) : Event → World × Option Bool
  | .call t loop => if w.calls t = .idle then beginCall w t loop else (w, none)
  | .connectAsync t ok =>
    if w.calls t = .connecting then
      if ok then (w.goto t .awaitConnect, none) else (w.goto t .idle, some false)
    else (w, none)
  | .wakeConnect t => if w.calls t = .awaitConnect then endConnect w t else (w, none)
  | .publish t mid ok queued =>
    if w.calls t = .publishing then
      if ok then publishOk qos w t mid else publishFailed w t mid queued
    else (w, none)
  | .note t =>
    match w.calls t with
    | .noting mid msg =>
      ({ w with pendingPublishMids := insert mid w.pendingPublishMids }.goto t (.awaitAck mid msg),
        none)
    | _ => (w, none)
  | .wakeAck t =>
    match w.calls t with
    | .awaitAck mid _ => endWait w t mid
    | _ => (w, none)
  | .onConnect ok => ({ w with connectReady := true, connected := ok }, none)
  | .onDisconnect => ({ w with connected := false, connectReady := false }, none)
  | .onPublish msg =>
    match w.unfinished.lookup msg with
    | none => (w, none)
    | some mid => (onPublish w msg mid, none)

def start : World := ⟨false, false, false, ∅, ∅, fun _ => .idle, [], 0, []⟩

/-- The message that the call has published. -/
def Place.message : Place → Option (UInt16 × ℕ)
  | .noting mid msg | .awaitAck mid msg => some (mid, msg)
  | _ => none

/-- Success is for the message that this call has published. -/
def Honest (qos : ℕ) (w : World) (e : Event) : Prop :=
  (step qos w e).2 = some true →
    ∃ t mid msg, e = .wakeAck t ∧ w.calls t = .awaitAck mid msg ∧ msg ∈ w.acknowledged

/-- The new id is not among the acknowledged ones. -/
def Unstale (w : World) : Event → Prop
  | .publish t mid true _ => w.calls t = .publishing → mid ∉ w.ackedPublishMids
  | _ => True

instance (w : World) (e : Event) : Decidable (Unstale w e) :=
  match e with
  | .publish t mid true _ =>
    inferInstanceAs (Decidable (w.calls t = .publishing → mid ∉ w.ackedPublishMids))
  | .publish _ _ false _ | .call _ _ | .connectAsync _ _ | .wakeConnect _ | .note _ | .wakeAck _
  | .onConnect _ | .onDisconnect | .onPublish _ => isTrue trivial

/-- An acknowledged id that a call waits for was acknowledged for that call's message. -/
structure Sound (w : World) : Prop where
  numbered : ∀ p ∈ w.unfinished, p.1 < w.next
  distinct : ∀ p ∈ w.unfinished, ∀ q ∈ w.unfinished, p.2 = q.2 → p.1 = q.1
  calls : ∀ t mid msg, (w.calls t).message = some (mid, msg) →
    ((msg, mid) ∈ w.unfinished ∨ msg ∈ w.acknowledged) ∧
      (mid ∈ w.ackedPublishMids → msg ∈ w.acknowledged)

theorem message_update {calls : ℕ → Place} {t t' : ℕ} {p : Place} {r : UInt16 × ℕ}
    (h : (Function.update calls t p t').message = some r) :
    p.message = some r ∨ (calls t').message = some r := by
  rw [Function.update_apply] at h
  split_ifs at h
  · exact Or.inl h
  · exact Or.inr h

/-- A call that has nothing to wait for. -/
theorem goto_sound {w : World} (hw : Sound w) (t : ℕ) {p : Place}
    (hp : ∀ mid msg, p.message = some (mid, msg) →
      ((msg, mid) ∈ w.unfinished ∨ msg ∈ w.acknowledged) ∧
        (mid ∈ w.ackedPublishMids → msg ∈ w.acknowledged)) : Sound (w.goto t p) := by
  refine ⟨hw.numbered, hw.distinct, fun t' mid msg h => ?_⟩
  rcases message_update h with hnew | hold
  · exact hp mid msg hnew
  · exact hw.calls t' mid msg hold

theorem forget_sound {w : World} (hw : Sound w) (mid : UInt16) : Sound (w.forget mid) := by
  refine ⟨hw.numbered, hw.distinct, fun t mid' msg h => ?_⟩
  obtain ⟨hmessage, hacked⟩ := hw.calls t mid' msg h
  exact ⟨hmessage, fun hin => hacked (Finset.mem_of_mem_erase hin)⟩

theorem queue_sound {w : World} (hw : Sound w) {mid : UInt16} (hfree : ¬ w.taken mid) :
    Sound (w.queue mid) := by
  have hother : ∀ p ∈ w.unfinished, p.2 ≠ mid := by
    intro p hp hmid
    exact hfree (List.mem_map.mpr ⟨p, hp, hmid⟩)
  refine ⟨fun p hp => ?_, fun p hp q hq hmid => ?_, fun t mid' msg h => ?_⟩
  · rcases List.mem_append.mp hp with hold | hnew
    · exact Nat.lt_succ_of_lt (hw.numbered p hold)
    · obtain rfl := List.mem_singleton.mp hnew
      exact Nat.lt_succ_self _
  -- the id of the new message is free, so it is no id of an older one
  · rcases List.mem_append.mp hp with hp | hp <;> rcases List.mem_append.mp hq with hq | hq
    · exact hw.distinct p hp q hq hmid
    · obtain rfl := List.mem_singleton.mp hq
      exact absurd hmid (hother p hp)
    · obtain rfl := List.mem_singleton.mp hp
      exact absurd hmid.symm (hother q hq)
    · rw [List.mem_singleton.mp hp, List.mem_singleton.mp hq]
  · obtain ⟨hmessage, hacked⟩ := hw.calls t mid' msg h
    exact ⟨hmessage.imp_left fun hin => List.mem_append_left _ hin, hacked⟩

theorem onPublish_sound {w : World} (hw : Sound w) {msg : ℕ} {mid : UInt16}
    (hin : (msg, mid) ∈ w.unfinished) : Sound (onPublish w msg mid) := by
  refine ⟨fun p hp => hw.numbered p (List.mem_of_mem_filter hp),
    fun p hp q hq => hw.distinct p (List.mem_of_mem_filter hp) q (List.mem_of_mem_filter hq),
    fun t mid' msg' h => ?_⟩
  obtain ⟨hmessage, hacked⟩ := hw.calls t mid' msg' h
  have hkept : (msg', mid') ∈ (onPublish w msg mid).unfinished ∨
      msg' ∈ (onPublish w msg mid).acknowledged := by
    rcases hmessage with hstill | hdone
    · by_cases hsame : msg' = msg
      · exact Or.inr (List.mem_cons.mpr (Or.inl hsame))
      · exact Or.inl (List.mem_filter.mpr ⟨hstill, decide_eq_true hsame⟩)
    · exact Or.inr (List.mem_cons_of_mem _ hdone)
  refine ⟨hkept, fun hacked' => ?_⟩
  rcases Finset.mem_insert.mp hacked' with rfl | hold
  · -- no other message that is still in work has this id
    rcases hmessage with hstill | hdone
    · exact List.mem_cons.mpr (Or.inl (hw.distinct _ hstill _ hin rfl))
    · exact List.mem_cons_of_mem _ hdone
  · exact List.mem_cons_of_mem _ (hacked hold)

theorem mem_of_lookup {l : List (ℕ × UInt16)} {msg : ℕ} {mid : UInt16}
    (h : l.lookup msg = some mid) : (msg, mid) ∈ l := by
  obtain ⟨l₁, l₂, rfl, -⟩ := List.lookup_eq_some_iff.mp h
  exact List.mem_append_right _ List.mem_cons_self

theorem goto_quiet {w : World} (hw : Sound w) (t : ℕ) {p : Place} (hp : p.message = none) :
    Sound (w.goto t p) :=
  goto_sound hw t fun _ _ h => nomatch hp.symm.trans h

/-- The uploader's own flags do not matter to what is known about the ids. -/
theorem flags_sound {w : World} (hw : Sound w) (connected connectReady loopStarted : Bool)
    (pending : Finset UInt16) :
    Sound { w with
      connected := connected
      connectReady := connectReady
      loopStarted := loopStarted
      pendingPublishMids := pending } :=
  ⟨hw.numbered, hw.distinct, hw.calls⟩

theorem beginCall_sound {w : World} (hw : Sound w) (t : ℕ) (loop : Bool) :
    Sound (beginCall w t loop).1 ∧ (beginCall w t loop).2 ≠ some true := by
  unfold beginCall
  dsimp only
  split_ifs
  · exact ⟨hw, nofun⟩
  · exact ⟨goto_quiet (flags_sound hw _ _ _ _) t rfl, nofun⟩
  · exact ⟨goto_quiet (flags_sound hw _ _ _ _) t rfl, nofun⟩

theorem endConnect_sound {w : World} (hw : Sound w) (t : ℕ) :
    Sound (endConnect w t).1 ∧ (endConnect w t).2 ≠ some true := by
  unfold endConnect
  split_ifs
  · exact ⟨goto_quiet hw t rfl, nofun⟩
  · exact ⟨goto_quiet hw t rfl, nofun⟩

theorem publishOk_sound {qos : ℕ} (hqos : 0 < qos) {w : World} (hw : Sound w) (t : ℕ) {mid : UInt16}
    (hfresh : mid ∉ w.ackedPublishMids) :
    Sound (publishOk qos w t mid).1 ∧ (publishOk qos w t mid).2 ≠ some true := by
  unfold publishOk
  by_cases htaken : w.taken mid
  · rw [if_pos htaken]
    exact ⟨hw, nofun⟩
  · rw [if_neg htaken, if_pos hqos]
    refine ⟨goto_sound (queue_sound hw htaken) t fun mid' msg h => ?_, nofun⟩
    obtain ⟨rfl, rfl⟩ := Prod.mk.inj (Option.some.inj h)
    refine ⟨Or.inl ?_, fun hacked => absurd hacked hfresh⟩
    exact List.mem_append_right _ (List.mem_singleton_self _)

theorem publishFailed_sound {w : World} (hw : Sound w) (t : ℕ) (mid : UInt16) (queued : Bool) :
    Sound (publishFailed w t mid queued).1 ∧ (publishFailed w t mid queued).2 ≠ some true := by
  unfold publishFailed
  by_cases htaken : queued = true ∧ w.taken mid
  · rw [if_pos htaken]
    exact ⟨hw, nofun⟩
  rw [if_neg htaken]
  have hqueue : Sound (if queued then w.queue mid else w) := by
    split_ifs with hqueued
    · exact queue_sound hw fun h => htaken ⟨hqueued, h⟩
    · exact hw
  exact ⟨goto_quiet (forget_sound (flags_sound hqueue _ _ _ _) mid) t rfl, nofun⟩

theorem endWait_sound {w : World} (hw : Sound w) {t : ℕ} {mid : UInt16} {msg : ℕ}
    (ht : w.calls t = .awaitAck mid msg) : Sound (endWait w t mid).1 ∧
      ((endWait w t mid).2 = some true → msg ∈ w.acknowledged) := by
  unfold endWait
  by_cases hwait : w.connected = false ∨ mid ∉ w.ackedPublishMids
  · rw [if_pos hwait]
    exact ⟨goto_quiet (forget_sound (flags_sound hw _ _ _ _) mid) t rfl, nofun⟩
  · rw [if_neg hwait]
    refine ⟨goto_quiet (forget_sound hw mid) t rfl, fun _ => ?_⟩
    have hacked : mid ∈ w.ackedPublishMids := not_not.mp (not_or.mp hwait).2
    exact (hw.calls t mid msg (by rw [ht]; rfl)).2 hacked

theorem quiet_honest {r : World × Option Bool} {P : Prop} (h : Sound r.1 ∧ r.2 ≠ some true) :
    Sound r.1 ∧ (r.2 = some true → P) :=
  ⟨h.1, fun htrue => absurd htrue h.2⟩

theorem step_sound {qos : ℕ} (hqos : 0 < qos) (w : World) (e : Event) (hw : Sound w)
    (he : Unstale w e) : Sound (step qos w e).1 ∧ Honest qos w e := by
  unfold Honest
  cases e with
  | call t loop =>
    dsimp only [step]
    refine quiet_honest ?_
    split_ifs
    · exact beginCall_sound hw t loop
    · exact ⟨hw, nofun⟩
  | connectAsync t ok =>
    dsimp only [step]
    refine quiet_honest ?_
    split_ifs
    · exact ⟨goto_quiet hw t rfl, nofun⟩
    · exact ⟨goto_quiet hw t rfl, nofun⟩
    · exact ⟨hw, nofun⟩
  | wakeConnect t =>
    dsimp only [step]
    refine quiet_honest ?_
    split_ifs
    · exact endConnect_sound hw t
    · exact ⟨hw, nofun⟩
  | publish t mid ok queued =>
    dsimp only [step]
    refine quiet_honest ?_
    by_cases hplace : w.calls t = .publishing
    · rw [if_pos hplace]
      cases ok with
      | false => exact publishFailed_sound hw t mid queued
      | true => exact publishOk_sound hqos hw t (he hplace)
    · rw [if_neg hplace]
      exact ⟨hw, nofun⟩
  | note t =>
    dsimp only [step]
    refine quiet_honest ?_
    cases hplace : w.calls t with
    | noting mid msg =>
      refine ⟨goto_sound (flags_sound hw _ _ _ _) t fun mid' msg' h => ?_, nofun⟩
      exact hw.calls t mid' msg' (by rw [hplace]; exact h)
    | _ => exact ⟨hw, nofun⟩
  | wakeAck t =>
    dsimp only [step]
    cases hplace : w.calls t with
    | awaitAck mid msg =>
      obtain ⟨hafter, hanswer⟩ := endWait_sound hw hplace
      exact ⟨hafter, fun h => ⟨t, mid, msg, rfl, hplace, hanswer h⟩⟩
    | _ => exact ⟨hw, nofun⟩
  | onConnect ok => exact ⟨flags_sound hw _ _ _ _, nofun⟩
  | onDisconnect => exact ⟨flags_sound hw _ _ _ _, nofun⟩
  | onPublish msg =>
    dsimp only [step]
    refine quiet_honest ?_
    cases hmid : w.unfinished.lookup msg with
    | none => exact ⟨hw, nofun⟩
    -- the broker's answer is noted under the id of its message
    | some mid => exact ⟨onPublish_sound hw (mem_of_lookup hmid), nofun⟩

theorem start_sound : Sound start := ⟨nofun, nofun, nofun⟩

/-- When no publish is given an id that is still among the acknowledged ones, success is the
broker's acknowledgement of this publish. -/
theorem success_acknowledged {qos : ℕ} (hqos : 0 < qos) (es : List Event)
    (h : Always (step qos) Unstale start es) : Always (step qos) (Honest qos) start es :=
  Always.of_invariant (I := Sound) (step_sound hqos) start_sound h

/-- A publish on a new connection, acknowledged. -/
def publishRun : List Event :=
  [.call 0 true, .connectAsync 0 true, .onConnect true, .wakeConnect 0, .publish 0 1 true true, .note 0,
    .onPublish 0, .wakeAck 0]

theorem publishRun_acknowledged : (run (step 1) start publishRun).acknowledged = [0] ∧
    Always (step 1) (Honest 1) start publishRun :=
  ⟨by decide +kernel, success_acknowledged Nat.one_pos publishRun (by decide +kernel)⟩

/-- The acknowledgement of the first publish comes after its time-out; then a new connection. -/
def lateAck : List Event :=
  [.call 0 true, .connectAsync 0 true, .onConnect true, .wakeConnect 0, .publish 0 1 true true, .note 0,
    .wakeAck 0, .onPublish 0, .call 0 true, .connectAsync 0 true, .onConnect true, .wakeConnect 0]

/-- A publish that is acknowledged in time, and the start of the next call. -/
def ackedRound (mid : UInt16) (msg : ℕ) : List Event :=
  [.publish 0 mid true true, .note 0, .onPublish msg, .wakeAck 0, .call 0 true]

/-- All the other ids, until the first one is used again. -/
def wholeCycle (n : ℕ) : List Event :=
  (List.range n).flatMap fun i => ackedRound (UInt16.ofNat (i + 2)) (i + 1)

/-- A late acknowledgement of id 1 is in the set, and the next publish is about to begin. -/
structure Stained (w : World) (n : ℕ) : Prop where
  connected : w.connected = true
  loop : w.loopStarted = true
  acked : w.ackedPublishMids = {1}
  place : w.calls 0 = .publishing
  unfinished : w.unfinished = []
  next : w.next = n
  acknowledged : ∀ msg ∈ w.acknowledged, msg < n

theorem ackedRound_stained {w : World} {n : ℕ} (hw : Stained w n) {mid : UInt16} (hmid : mid ≠ 1) :
    Stained (run (step 1) w (ackedRound mid n)) (n + 1) := by
  obtain ⟨connected, ready, loop, pending, acked, calls, unfinished, next, acknowledged⟩ := w
  obtain ⟨rfl, rfl, rfl, hplace, rfl, rfl, hold⟩ := hw
  dsimp only at hplace hold
  have herase : (insert mid ({1} : Finset UInt16)).erase mid = {1} :=
    Finset.erase_insert (by rwa [Finset.mem_singleton])
  have hrun : run (step 1) ⟨true, ready, true, pending, {1}, calls, [], next, acknowledged⟩
      (ackedRound mid next) = ⟨true, ready, true, pending.erase mid, {1},
        Function.update calls 0 .publishing, [], next + 1, next :: acknowledged⟩ := by
    simp [ackedRound, step, hplace, publishOk, World.taken, World.goto, World.queue, World.forget,
      endWait, beginCall, onPublish, herase]
  rw [hrun]
  refine ⟨rfl, rfl, rfl, Function.update_self 0 _ calls, rfl, rfl, fun msg hmsg => ?_⟩
  rcases List.mem_cons.mp hmsg with rfl | hmsg
  · exact Nat.lt_succ_self _
  · exact Nat.lt_succ_of_lt (hold msg hmsg)

theorem wholeCycle_stained {w : World} (hw : Stained w 1) {n : ℕ} (hn : n ≤ 65534) :
    Stained (run (step 1) w (wholeCycle n)) (n + 1) := by
  induction n with
  | zero => exact hw
  | succ n ih =>
    have hcycle : wholeCycle (n + 1) = wholeCycle n ++ ackedRound (UInt16.ofNat (n + 2)) (n + 1) := by
      unfold wholeCycle
      rw [List.range_succ, List.flatMap_append, List.flatMap_singleton]
    have hmid : UInt16.ofNat (n + 2) ≠ 1 := by
      intro h
      have hvalue := congrArg UInt16.toNat h
      rw [UInt16.toNat_ofNat', UInt16.toNat_one] at hvalue
      omega
    rw [hcycle, run_append]
    exact ackedRound_stained (ih (by omega)) hmid

/-- After a whole cycle of ids a publish is given the stained one, and succeeds at once. -/
def staleRun : List Event :=
  lateAck ++ wholeCycle 65534 ++ [.publish 0 1 true true, .note 0, .wakeAck 0]

theorem staleRun_dishonest : ¬ Always (step 1) (Honest 1) start staleRun := by
  intro h
  have hlate : Stained (run (step 1) start lateAck) 1 := by
    refine ⟨by decide, by decide, by decide, by decide, by decide, by decide, by decide⟩
  have hcycle := wholeCycle_stained hlate (n := 65534) le_rfl
  rw [← run_append] at hcycle
  have hend := ((always_append (step 1) _ _ _ _).mp h).2
  revert hend
  generalize run (step 1) start (lateAck ++ wholeCycle 65534) = w at hcycle ⊢
  obtain ⟨connected, ready, loop, pending, acked, calls, unfinished, next, acknowledged⟩ := w
  obtain ⟨rfl, rfl, rfl, hplace, rfl, rfl, hold⟩ := hcycle
  dsimp only at hplace hold
  intro hend
  obtain ⟨t, mid, msg, he, hmsg, hack⟩ := hend.2.2.1 (by
    simp [step, hplace, publishOk, World.taken, World.goto, World.queue, endWait])
  obtain rfl := Event.wakeAck.inj he
  simp only [step, hplace, ↓reduceIte, publishOk, World.taken, List.map_nil, List.not_mem_nil,
    gt_iff_lt, Order.lt_one_iff, World.goto, World.queue, Function.update_self,
    Place.awaitAck.injEq] at hmsg hack
  obtain ⟨-, rfl⟩ := hmsg
  exact absurd (hold _ hack) (lt_irrefl _)

end EdgeLink.Mqtt
