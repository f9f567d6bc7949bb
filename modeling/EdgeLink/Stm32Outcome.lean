import EdgeLink.Stm32Laws
import EdgeLink.VerifyBoot

namespace EdgeLink.Stm32Ota
open Bootloader Machine

/-- As long as every ACK that settles an exchange answers a frame of this exchange, true means that
the image is committed, whatever is lost or delayed and in whichever call. -/
theorem fresh_run_honest (device : Device) (job : Job) (es : List Event)
    (h : Always step Fresh (start device job) es) : Always step Honest (start device job) es := by
  refine Always.of_invariant (I := Sound) (fun w e hw hfresh => ?_) (start_sound device job) h
  have hnext := step_sound w e hw hfresh
  exact ⟨hnext, fun err hp => hnext.committed hp⟩

instance decidableFresh : (w : World) → (e : Event) → Decidable (Fresh w e)
  | w, .send none =>
    have : Decidable (∀ tag, w.ackCache w.seq = some (tag, none) → tag = w.tag) :=
      match w.ackCache w.seq with
      | none => isTrue nofun
      | some (tag, some code) => isTrue nofun
      | some (tag, none) =>
        decidable_of_iff (tag = w.tag) ⟨fun ht _ hs => by cases hs; exact ht, fun hs => hs tag rfl⟩
    inferInstanceAs (Decidable (w.place = .send → w.job.customTransport = true → _))
  | w, .receive =>
    have (frame : Up) : Decidable (∀ tag, ackEvent frame = some (w.seq, tag, none) → tag = w.tag) :=
      match ackEvent frame with
      | none => isTrue nofun
      | some (seq, tag, some code) => isTrue nofun
      | some (seq, tag, none) =>
        decidable_of_iff (seq = w.seq → tag = w.tag)
          ⟨fun ht _ hs => by cases hs; exact ht rfl, fun hs heq => hs tag (by rw [heq])⟩
    inferInstanceAs (Decidable (w.place = .wait ∨ w.place = .grace → ∀ frame ∈ w.up.head?, _))
  | _, .again _ | _, .poll _ | _, .connect _ | _, .send (some _) | _, .recvFails _ | _, .deadline
  | _, .deliver _ | _, .incident _ | _, .announce | _, .loseDown _ | _, .loseUp _
  | _, .finish _ _ => isTrue trivial

def loopDevice : Device :=
  ⟨recordFlash blMetadataDefault, .loop blCtxReset blMetadataDefault false⟩

/-- An exchange without losses. -/
def prompt : List Event := [.send none, .deliver none, .receive]

/-- The ACK is late, so the frame is sent twice and answered twice. -/
def late : List Event := [.send none, .deliver none, .recvFails "", .send none, .deliver none]

def oneByte : Job :=
  { image := [5], imageCrc32 := 0xA2681B02, chunkSize := 246, maxRetries := 2
    waitBootHello := false, targetBase := 0, imageVersion := 0, customTransport := true, err := "" }

def fourBytes : Job :=
  { oneByte with image := [1, 2, 3, 4], imageCrc32 := 0xB63CFBCD, chunkSize := 1 }

/-- With a late ACK in the middle. -/
def lateUpdate : List Event :=
  [[.poll false], prompt, [.poll false], late, [.receive], prompt, [.receive], prompt].flatten

set_option maxRecDepth 2000 in
theorem lateUpdate_honest :
    let w := start loopDevice { oneByte with image := highStack, imageCrc32 := highStackCrc }
    (run step w lateUpdate).place = .returned true "" ∧ Always step Honest w lateUpdate :=
  ⟨by decide +kernel, fresh_run_honest _ _ _ (by decide +kernel)⟩

/-- Every ACK of the first call is late; it is cancelled before its VERIFY. -/
def canceledCall : List Event :=
  [[.poll false], late, [.receive, .poll false], late, [.receive, .receive, .poll false], late,
    [.receive, .receive, .poll false], late, [.receive, .receive, .poll true]].flatten

/-- The second call finds the ACKs of the first one, and all of its frames are lost. -/
def blindCall : List Event :=
  [.again oneByte, .poll false, .send none, .loseDown 0, .poll false, .send none, .loseDown 0,
    .send none, .loseDown 0, .send none, .loseDown 0]

theorem blindCall_dishonest :
    ¬ Always step Honest (start loopDevice fourBytes) (canceledCall ++ blindCall ++ [.receive]) := by
  intro h
  let w := run step (start loopDevice fourBytes) (canceledCall ++ blindCall)
  have hhonest : Honest w .receive := ((always_append _ _ _ _ _).mp h).2.1
  have hdone : (step w .receive).1.place = .returned true "" ∧
      (step w .receive).1.committed.isEmpty = true := by decide +kernel
  obtain ⟨x, hx, -⟩ := hhonest "" hdone.1
  rw [List.isEmpty_iff.mp hdone.2] at hx
  cases hx

/-- The options of `executeOtaTask`, which has waited for the hello itself on a transport of its
own. -/
def Job.OfExecutor (job : Job) : Prop :=
  job.chunkSize = 192 ∧ job.maxRetries = 5 ∧ job.waitBootHello = !job.customTransport

/-- The texts of the callbacks that `executeOtaTask` passes, and of the socket. -/
def ExecutorLink (w : World) : Event → Prop
  | .again job => job.OfExecutor
  | .connect (some err) => err ∈ ["socket create failed", "invalid host", "connect failed"]
  | .send (some err) =>
    err = if w.job.customTransport then "tcp_binary send failed" else "send frame failed"
  | .recvFails err =>
    err ∈ if w.job.customTransport then ["ota canceled", "ack timeout"]
      else ["ack timeout", "ack read failed", "ack payload read failed"]
  | _ => True

/-- A success means that the image is committed, or that VERIFY has accepted it and the ACK of the
COMMIT timed out. -/
def Told (w : World) (e : Event) : Prop :=
  (step w e).2 = some .success →
    w.Committed ∨ w.place = .returned false "commit ack timeout" ∧ w.Verified

structure Timely (w : World) : Prop where
  job : w.job.OfExecutor
  ready : w.place ≠ .hello
  timeout : w.place = .returned false "commit ack timeout" → w.phase = .commit

variable {w : World}

theorem timely_elsewhere (h : w.job.OfExecutor) (hhello : w.place ≠ .hello)
    (htimeout : w.place ≠ .returned false "commit ack timeout") : Timely w :=
  ⟨h, hhello, fun hp => absurd hp htimeout⟩

theorem exchange_timely (h : w.job.OfExecutor) : Timely w.exchange := by
  have hplace : w.exchange.place = .send := by
    unfold World.exchange
    rw [h.2.1]
    rfl
  apply timely_elsewhere (w := w.exchange) h
  · rw [hplace]
    exact nofun
  · rw [hplace]
    exact nofun

theorem afterConnect_timely (h : w.job.OfExecutor) : Timely w.afterConnect := by
  have hready : ¬(w.job.waitBootHello = true ∧ w.job.customTransport = true) := by
    rw [h.2.2]
    cases w.job.customTransport <;> simp
  unfold World.afterConnect
  rw [if_neg hready]
  exact exchange_timely h

theorem acknowledged_timely (h : w.job.OfExecutor) : Timely w.acknowledged := by
  unfold World.acknowledged
  split
  · exact ⟨h, nofun, nofun⟩
  · dsimp only
    split
    · exact ⟨h, nofun, nofun⟩
    · apply exchange_timely
      exact h

theorem attemptFailed_timely (h : w.job.OfExecutor) {err : String}
    (hne : err ≠ "commit ack timeout") : Timely (w.attemptFailed err) := by
  unfold World.attemptFailed
  split_ifs
  · exact ⟨h, nofun, nofun⟩
  · refine ⟨h, nofun, fun hp => ?_⟩
    by_contra hcommit
    injection hp with _ herr
    rw [if_neg fun hc => hcommit hc.1] at herr
    exact hne herr

theorem nackText_head (t : String) : ("received nack code=" ++ t).toList.head? = some 'r' := by
  have hr : "received nack code=".toList.head? = some 'r' := by decide
  rw [String.toList_append, List.head?_append, hr, Option.some_or]

theorem nackText_ne (code : UInt16) : nackText code ≠ "commit ack timeout" := by
  intro h
  have hhead : (nackText code).toList.head? = some 'r' := nackText_head (toString code)
  rw [h] at hhead
  exact absurd hhead (by decide)

theorem decided_timely (h : w.job.OfExecutor) (answer : Option UInt16) :
    Timely (w.decided answer) := by
  cases answer with
  | none => exact acknowledged_timely h
  | some code => exact attemptFailed_timely h (nackText_ne code)

theorem consumeCachedAck_timely (h : w.job.OfExecutor) {undecided : World → World}
    (hu : Timely (undecided w)) : Timely (w.consumeCachedAck undecided) := by
  unfold World.consumeCachedAck
  split
  · exact hu
  · apply decided_timely
    exact h

theorem answered_timely (h : w.job.OfExecutor) {frame : Up} {undecided : World → World}
    (hu : ∀ cache, Timely (undecided { w with ackCache := cache })) :
    Timely (w.answered frame undecided) := by
  unfold World.answered
  split
  · exact hu w.ackCache
  · split_ifs
    · apply consumeCachedAck_timely
      · exact h
      · exact hu _
    · exact decided_timely h _
    · exact hu w.ackCache

theorem send_timely (h : w.job.OfExecutor) {failure : Option String}
    (hne : ∀ err, failure = some err → err ≠ "commit ack timeout") : Timely (w.send failure) := by
  unfold World.send
  cases failure with
  | some err =>
    apply attemptFailed_timely
    · exact h
    · exact hne err rfl
  | none =>
    dsimp only
    split_ifs
    · apply consumeCachedAck_timely
      · exact h
      · exact ⟨h, nofun, nofun⟩
    · exact ⟨h, nofun, nofun⟩

theorem receive_timely (h : Timely w) : Timely w.receive := by
  have hj := h.job
  unfold World.receive
  cases w.up with
  | nil => exact h
  | cons frame up =>
    dsimp only
    split
    · exact absurd ‹w.place = .hello› h.ready
    · rename_i hwait
      apply answered_timely
      · exact hj
      · intro cache
        have hhere (p : Place) : p = .wait → Timely { w with up := up, ackCache := cache, place := p } := by
          rintro rfl
          exact ⟨hj, nofun, nofun⟩
        exact hhere w.place hwait
    · apply answered_timely
      · exact hj
      · intro cache
        apply attemptFailed_timely
        · exact hj
        · decide
    · exact h

theorem recvFails_timely (h : Timely w) {err : String} (hne : err ≠ "commit ack timeout") :
    Timely (w.recvFails err) := by
  unfold World.recvFails
  split
  · exact absurd ‹w.place = .hello› h.ready
  · apply attemptFailed_timely h.job
    split_ifs
    · decide
    · exact hne
  · exact attemptFailed_timely h.job (by decide)
  · exact h

theorem deadline_timely (h : Timely w) : Timely w.deadline := by
  unfold World.deadline
  split
  · exact absurd ‹w.place = .hello› h.ready
  · split_ifs
    · exact ⟨h.job, nofun, nofun⟩
    · exact attemptFailed_timely h.job (by decide)
  · exact h

theorem poll_timely (h : Timely w) (stop : Bool) : Timely (w.poll stop) := by
  unfold World.poll
  split
  · split_ifs
    · refine ⟨h.job, nofun, fun hp => ?_⟩
      injection hp with _ herr
      exact absurd herr (by decide)
    · exact exchange_timely h.job
    · exact afterConnect_timely h.job
    · exact ⟨h.job, nofun, nofun⟩
  · exact h

theorem connect_timely (h : Timely w) {failure : Option String}
    (hne : ∀ err, failure = some err → err ≠ "commit ack timeout") :
    Timely (w.connect failure) := by
  unfold World.connect
  split
  · split
    · rename_i err
      refine ⟨h.job, nofun, fun hp => ?_⟩
      injection hp with _ herr
      exact absurd herr (hne err rfl)
    · exact afterConnect_timely h.job
  · exact h

theorem call_timely {job : Job} (hjob : job.OfExecutor) (call : ℕ) : Timely (w.call job call) := by
  have hchunk : job.chunk ≠ 0 := by
    rw [Job.chunk, hjob.1]
    decide
  have hplace : (w.call job call).place = .poll := if_neg hchunk
  apply timely_elsewhere (w := w.call job call) hjob
  · rw [hplace]
    exact nofun
  · rw [hplace]
    exact nofun

theorem connectText_ne {err : String} (hlink : ExecutorLink w (.connect (some err))) :
    err ≠ "commit ack timeout" := by
  rintro rfl
  exact (by decide : ¬ "commit ack timeout" ∈ ["socket create failed", "invalid host",
    "connect failed"]) hlink

theorem sendText_ne {err : String} (hlink : ExecutorLink w (.send (some err))) :
    err ≠ "commit ack timeout" := by
  rintro rfl
  revert hlink
  unfold ExecutorLink
  cases w.job.customTransport <;> decide

theorem recvText_ne {err : String} (hlink : ExecutorLink w (.recvFails err)) :
    err ≠ "commit ack timeout" := by
  rintro rfl
  revert hlink
  unfold ExecutorLink
  cases w.job.customTransport <;> decide

theorem step_timely (e : Event) (h : Timely w) (hlink : ExecutorLink w e) :
    Timely (step w e).1 := by
  change Timely (act w e)
  cases e with
  | again job =>
    unfold act
    dsimp only
    split
    · exact call_timely hlink _
    · exact h
  | poll stop => exact poll_timely h stop
  | connect failure =>
    refine connect_timely h ?_
    rintro err rfl
    exact connectText_ne hlink
  | send failure =>
    change Timely (if w.place = .send then w.send failure else w)
    split_ifs
    · refine send_timely h.job ?_
      rintro err rfl
      exact sendText_ne hlink
    · exact h
  | receive => exact receive_timely h
  | recvFails err => exact recvFails_timely h (recvText_ne hlink)
  | deadline => exact deadline_timely h
  | deliver life =>
    cases hd : w.down with
    | nil =>
      have hsame : act w (.deliver life) = w := by
        change w.deliver life = w
        unfold World.deliver
        rw [hd]
      rw [hsame]
      exact h
    | cons x down =>
      have htaken : act w (.deliver life) = taken w x.1 x.2 down life := deliver_eq life hd
      rw [htaken]
      exact ⟨h.job, h.ready, h.timeout⟩
  | incident e => exact ⟨h.job, h.ready, h.timeout⟩
  | announce => exact ⟨h.job, h.ready, h.timeout⟩
  | loseDown i => exact ⟨h.job, h.ready, h.timeout⟩
  | loseUp i => exact ⟨h.job, h.ready, h.timeout⟩
  | finish device_type canceled => exact h

theorem finish_success {device_type err : String} {ok : Bool} {canceled : ℕ → Bool}
    (h : finish device_type ok err canceled = .success) : ok = true ∨ err = "commit ack timeout" := by
  by_contra hno
  obtain ⟨hok, herr⟩ := not_or.mp hno
  have hverdict : ¬(ok = true ∨ err = "commit ack timeout" ∧ Ota.typeHas device_type "stm32") :=
    fun hc => hc.elim hok fun hc => herr hc.1
  unfold finish Ota.verdict at h
  rw [if_neg hverdict] at h
  split_ifs at h

/-- The COMMIT whose ACK timed out came after an acknowledged VERIFY. -/
theorem Sound.verified (h : Sound w) (hp : w.phase = .commit) : w.Verified := by
  have hphase : phaseAt w.job w.tag.exchange = .commit := h.phase.symm.trans hp
  have hpos : 0 < w.tag.exchange := by
    by_contra hzero
    rw [Nat.eq_zero_of_not_pos hzero] at hphase
    cases hphase
  obtain ⟨a, ha, hle⟩ := h.reached hpos
  have hcourse := h.course a ha
  refine hcourse.verified ?_
  rcases Nat.lt_or_ge a w.tag.exchange with hlt | hge
  · have hnext : w.tag.exchange = a + 1 := le_antisymm hle hlt
    rw [hnext] at hphase
    exact next_commit hphase
  · have hsame : a = w.tag.exchange := le_antisymm hcourse.upTo hge
    exact Or.inr (hsame ▸ hphase)

theorem told_of_sound (hs : Sound w) (ht : Timely w) (e : Event) : Told w e := by
  intro hsuccess
  cases e with
  | finish device_type canceled =>
    change taskState w (.finish device_type canceled) = _ at hsuccess
    unfold taskState at hsuccess
    cases hp : w.place with
    | returned ok err =>
      rw [hp] at hsuccess
      cases ok with
      | true => exact Or.inl (hs.committed hp)
      | false =>
        have herr := (finish_success (Option.some.inj hsuccess)).resolve_left nofun
        subst herr
        exact Or.inr ⟨rfl, hs.verified (ht.timeout hp)⟩
    | _ =>
      rw [hp] at hsuccess
      cases hsuccess
  | _ => cases hsuccess

theorem fresh_run_told (device : Device) (job : Job) (es : List Event) (hjob : job.OfExecutor)
    (hlink : Always step ExecutorLink (start device job) es)
    (hfresh : Always step Fresh (start device job) es) :
    Always step Told (start device job) es := by
  refine Always.of_invariant (I := fun w => Sound w ∧ Timely w)
    (C := fun w e => ExecutorLink w e ∧ Fresh w e) (fun w e hw hc => ?_)
    ⟨start_sound device job, call_timely hjob 0⟩ (hlink.and hfresh)
  exact ⟨⟨step_sound w e hw.1 hc.2, step_timely e hw.2 hc.1⟩, told_of_sound hw.1 hw.2 e⟩

instance decidableExecutorLink : (w : World) → (e : Event) → Decidable (ExecutorLink w e)
  | _, .again _ => inferInstanceAs (Decidable (_ ∧ _))
  | _, .connect (some err) => inferInstanceAs (Decidable (err ∈ _))
  | _, .send (some err) => inferInstanceAs (Decidable (err = _))
  | _, .recvFails err => inferInstanceAs (Decidable (err ∈ _))
  | _, .connect none | _, .send none | _, .poll _ | _, .receive | _, .deadline | _, .deliver _
  | _, .incident _ | _, .announce | _, .loseDown _ | _, .loseUp _ | _, .finish _ _ => isTrue trivial

/-- The job of a task that updates an STM32 with an image of eight bytes. -/
def highStackJob : Job :=
  { oneByte with image := highStack, imageCrc32 := highStackCrc, chunkSize := 192, maxRetries := 5 }

def lost : List Event := [.send none, .loseDown 0, .recvFails "ack timeout"]

/-- Every COMMIT is lost. -/
def lostCommit : List Event :=
  [[.poll false], prompt, [.poll false], prompt, prompt, lost, lost, lost, lost, lost].flatten

set_option maxRecDepth 2000 in
theorem lostCommit_told :
    Always step Told (start loopDevice highStackJob)
      (lostCommit ++ [.finish "stm32" fun _ => false]) :=
  fresh_run_told _ _ _ (by unfold Job.OfExecutor; decide) (by decide +kernel) (by decide +kernel)

/-- The task succeeds nevertheless. -/
theorem lostCommit_succeeds :
    let es := lostCommit ++ [.finish "stm32" fun _ => false]
    highStackJob.OfExecutor ∧ Always step ExecutorLink (start loopDevice highStackJob) es ∧
      ¬ Always step (fun w e => (step w e).2 = some .success → w.Committed)
        (start loopDevice highStackJob) es := by
  refine ⟨by unfold Job.OfExecutor; decide, by decide +kernel, fun h => ?_⟩
  let w := run step (start loopDevice highStackJob) lostCommit
  have hlast := ((always_append _ _ _ _ _).mp h).2.1
  have hdone : (step w (.finish "stm32" fun _ => false)).2 = some .success ∧
      w.committed.isEmpty = true := by decide +kernel
  obtain ⟨x, hx, -⟩ := hlast hdone.1
  rw [List.isEmpty_iff.mp hdone.2] at hx
  cases hx

end EdgeLink.Stm32Ota
