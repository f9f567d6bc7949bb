import EdgeLink.Stm32Session

namespace EdgeLink.Stm32Ota
open Bootloader LittleEndian Machine Nor

/-- In this call the device has answered a VERIFY over the image. -/
def World.Verified (w : World) : Prop :=
  ∃ x ∈ w.verified, x.1 = w.tag.call ∧ VerifiedImage w.job x.2.1 x.2.2

/-- In this call the device has written metadata whose target slot holds the image. -/
def World.Committed (w : World) : Prop :=
  ∃ x ∈ w.committed, x.1 = w.tag.call ∧ CommittedImage w.job x.2.1 x.2.2

/-- When `run` returns true, the device has committed the image. -/
def Honest (w : World) (e : Event) : Prop :=
  ∀ err, (step w e).1.place = .returned true err → (step w e).1.Committed

/-- An ACK that settles the exchange in this step is the reply to a frame of this exchange. -/
def Fresh (w : World) : Event → Prop
  | .send none => w.place = .send → w.job.customTransport = true →
      ∀ tag, w.ackCache w.seq = some (tag, none) → tag = w.tag
  | .receive => w.place = .wait ∨ w.place = .grace →
      ∀ frame ∈ w.up.head?, ∀ tag, ackEvent frame = some (w.seq, tag, none) → tag = w.tag
  | _ => True

/-- In the order in which the gateway sends. -/
def Tag.UpTo (t t' : Tag) : Prop := t.call < t'.call ∨ t.call = t'.call ∧ t.exchange ≤ t'.exchange

/-- Exchange `a` is the last one of the call that the device has acknowledged. -/
structure Course (w : World) (a : ℕ) : Prop where
  upTo : a ≤ w.tag.exchange
  /-- nothing older is on its way -/
  past : ∀ x ∈ w.down, x.1.call = w.tag.call ∧ a ≤ x.1.exchange
  session : DeviceOpen w.job a w.device
  verified : phaseAt w.job a = .verify ∨ phaseAt w.job a = .commit → w.Verified
  committed : phaseAt w.job a = .commit → w.Committed

/-- What the tag of an ACK says. -/
def Answered (w : World) (tag : Tag) : Prop :=
  tag.call ≤ w.tag.call ∧ (tag.call = w.tag.call → ∃ a, w.acked = some a ∧ tag.exchange ≤ a)

/-- The link, wherever the adapter stands. -/
structure Linked (w : World) : Prop where
  phase : w.phase = phaseAt w.job w.tag.exchange
  seq : w.seq = seqAt w.tag.exchange
  sent : ∀ x ∈ w.down, x.1.UpTo w.tag
  own : ∀ x ∈ w.down, x.1.call = w.tag.call → x.2 = frameAt w.job x.1.exchange
  ordered : w.down.Pairwise fun x y => x.1.UpTo y.1
  course : ∀ a, w.acked = some a → Course w a
  /-- every exchange before this one was acknowledged -/
  reached : 0 < w.tag.exchange → ∃ a, w.acked = some a ∧ w.tag.exchange ≤ a + 1
  up : ∀ tag seq, .reply tag (.ack seq) ∈ w.up → Answered w tag
  cached : ∀ seq tag, w.ackCache seq = some (tag, none) → Answered w tag

structure Sound (w : World) : Prop extends Linked w where
  waiting : w.place = .wait ∨ w.place = .grace → w.job.customTransport = true →
    w.ackCache w.seq = none
  returned : ∀ err, w.place = .returned true err →
    w.phase = .commit ∧ w.acked = some w.tag.exchange

/-- Nothing is read there, and nothing is claimed. -/
def Place.Quiet : Place → Prop
  | .wait => False
  | .grace => False
  | .returned true _ => False
  | _ => True

variable {w : World} {a : ℕ}

theorem Linked.quiet (h : Linked w) (hp : w.place.Quiet) : Sound w := by
  refine { h with waiting := ?_, returned := ?_ }
  · rintro (hw | hw)
    · exact (hw ▸ hp : Place.Quiet .wait).elim
    · exact (hw ▸ hp : Place.Quiet .grace).elim
  · intro err hr
    exact (hr ▸ hp : Place.Quiet (.returned true err)).elim

/-- What the adapter keeps to itself: its place, the attempt, the cache and what it has read. -/
theorem Linked.inside (h : Linked w) {cache : UInt16 → Option (Tag × Option UInt16)} {up : List Up}
    (hcached : ∀ seq tag, cache seq = some (tag, none) → Answered w tag)
    (hup : ∀ tag seq, .reply tag (.ack seq) ∈ up → Answered w tag) (p : Place) (n : ℕ) :
    Linked { w with place := p, attempt := n, ackCache := cache, up := up } := by
  refine { h with course := fun b hb => ?_, cached := hcached, up := hup }
  have hcourse := h.course b hb
  exact ⟨hcourse.upTo, hcourse.past, hcourse.session, hcourse.verified, hcourse.committed⟩

theorem Linked.goto (h : Linked w) (p : Place) (n : ℕ) :
    Linked { w with place := p, attempt := n } := h.inside h.cached h.up p n

/-- The next exchange, once this one was acknowledged. -/
theorem Linked.advance (h : Linked w) (ha : w.acked = some a) (hn : w.tag.exchange ≤ a)
    (p : Place) (n : ℕ) :
    Linked { w with
      phase := w.job.next w.phase, seq := w.seq + 1, tag := ⟨w.tag.call, w.tag.exchange + 1⟩
      place := p, attempt := n } where
  phase := by
    dsimp only
    rw [h.phase, phaseAt]
  seq := by
    dsimp only
    rw [h.seq, seqAt_succ]
  sent := by
    intro x hx
    rcases h.sent x hx with hlt | ⟨heq, hle⟩
    · exact Or.inl hlt
    · exact Or.inr ⟨heq, hle.trans (Nat.le_succ _)⟩
  own := h.own
  ordered := h.ordered
  course := fun b hb => by
    have hcourse := h.course b hb
    exact ⟨hcourse.upTo.trans (Nat.le_succ _), hcourse.past, hcourse.session, hcourse.verified,
      hcourse.committed⟩
  reached := fun _ => ⟨a, ha, Nat.succ_le_succ hn⟩
  up := h.up
  cached := h.cached

theorem exchange_sound (h : Linked w) : Sound w.exchange := by
  unfold World.exchange
  refine (h.goto _ 1).quiet ?_
  by_cases hretries : w.job.maxRetries = 0
  · simp only [if_pos hretries, Place.Quiet]
  · simp only [if_neg hretries, Place.Quiet]

theorem afterConnect_sound (h : Linked w) : Sound w.afterConnect := by
  unfold World.afterConnect
  split_ifs
  · exact (h.goto .hello w.attempt).quiet trivial
  · exact exchange_sound h

theorem giveUp_sound (h : Linked w) (err : String) : Sound (w.giveUp err) :=
  (h.goto (.returned false _) w.attempt).quiet trivial

theorem attemptFailed_sound (h : Linked w) (err : String) : Sound (w.attemptFailed err) := by
  unfold World.attemptFailed
  split_ifs
  · exact (h.goto .send _).quiet trivial
  · exact giveUp_sound h err

theorem acknowledged_sound (h : Linked w) (ha : w.acked = some a) (hn : w.tag.exchange ≤ a) :
    Sound w.acknowledged := by
  -- COMMIT ends the call, every other phase leads to the next exchange
  by_cases hcommit : w.phase = .commit
  · have hdone : w.acknowledged = { w with place := .returned true "" } := by
      unfold World.acknowledged
      rw [hcommit]
    have hlast : a = w.tag.exchange := le_antisymm (h.course a ha).upTo hn
    rw [hdone]
    refine { h.goto (.returned true "") w.attempt with
      waiting := ?_, returned := fun _ _ => ⟨hcommit, hlast ▸ ha⟩ }
    rintro (hw | hw) <;> cases hw
  · have hadvance (p : Place) := h.advance ha hn p w.attempt
    unfold World.acknowledged
    split
    · exact absurd ‹w.phase = .commit› hcommit
    dsimp only
    split
    · exact (hadvance .poll).quiet trivial
    · exact exchange_sound (hadvance w.place)

/-- What an answer does, if an ACK is the device's answer to this exchange. -/
theorem decided_sound (h : Linked w) {answer : Option UInt16}
    (hack : answer = none → ∃ a, w.acked = some a ∧ w.tag.exchange ≤ a) :
    Sound (w.decided answer) := by
  cases answer with
  | none =>
    obtain ⟨a, ha, hn⟩ := hack rfl
    exact acknowledged_sound h ha hn
  | some code => exact attemptFailed_sound h _

theorem Linked.withCache (h : Linked w) {cache : UInt16 → Option (Tag × Option UInt16)}
    (hc : ∀ seq tag, cache seq = some (tag, none) → Answered w tag) :
    Linked { w with ackCache := cache } := h.inside hc h.up w.place w.attempt

theorem consumeCachedAck_sound (h : Linked w) {undecided : World → World}
    (hfresh : ∀ tag, w.ackCache w.seq = some (tag, none) → tag = w.tag)
    (hu : w.ackCache w.seq = none → Sound (undecided w)) :
    Sound (w.consumeCachedAck undecided) := by
  unfold World.consumeCachedAck
  cases hc : w.ackCache w.seq with
  | none => exact hu hc
  | some entry =>
    obtain ⟨tag, answer⟩ := entry
    dsimp only
    -- the entry that decides is erased, the others were there before
    refine decided_sound (h.withCache fun seq tag' hs => ?_) fun hnone => ?_
    · by_cases hseq : seq = w.seq
      · rw [hseq, Function.update_self] at hs
        cases hs
      · rw [Function.update_of_ne hseq] at hs
        exact h.cached seq tag' hs
    · rw [hnone] at hc
      obtain rfl := hfresh tag hc
      exact (h.cached w.seq w.tag hc).2 rfl

theorem ackEvent_ack {frame : Up} {seq : UInt16} {tag : Tag}
    (h : ackEvent frame = some (seq, tag, none)) : frame = .reply tag (.ack seq) := by
  cases frame with
  | hello => cases h
  | reply tag' r =>
    cases r with
    | ack seq' =>
      cases h
      rfl
    | nack seq' code => cases h
    | version a b => cases h

/-- One frame is read; what is not decided goes on with the cache that it leaves. -/
theorem answered_sound (h : Linked w) {frame : Up} {undecided : World → World}
    (hfresh : ∀ tag, ackEvent frame = some (w.seq, tag, none) → tag = w.tag)
    (hup : ∀ tag seq, frame = .reply tag (.ack seq) → Answered w tag)
    (hempty : w.job.customTransport = true → w.ackCache w.seq = none)
    (hu : ∀ cache, Linked { w with ackCache := cache } →
      (w.job.customTransport = true → cache w.seq = none) →
      Sound (undecided { w with ackCache := cache })) :
    Sound (w.answered frame undecided) := by
  unfold World.answered
  cases hev : ackEvent frame with
  | none => exact hu w.ackCache h hempty
  | some event =>
    obtain ⟨seq, tag, answer⟩ := event
    dsimp only
    by_cases hcustom : w.job.customTransport = true
    · rw [if_pos hcustom]
      have hlinked : Linked { w with
          ackCache := Function.update w.ackCache seq (some (tag, answer)) } := by
        refine h.withCache fun seq' tag' hs => ?_
        by_cases hseq : seq' = seq
        · rw [hseq, Function.update_self] at hs
          cases hs
          exact hup tag seq (ackEvent_ack hev)
        · rw [Function.update_of_ne hseq] at hs
          exact h.cached seq' tag' hs
      refine consumeCachedAck_sound hlinked (fun tag' hs => ?_) fun hnone =>
        hu _ hlinked fun _ => hnone
      dsimp only at hs
      -- the cache had no answer to this exchange, so only the frame just read can settle it
      by_cases hseq : w.seq = seq
      · rw [hseq, Function.update_self] at hs
        cases hs
        exact hfresh tag (hseq ▸ hev)
      · rw [Function.update_of_ne hseq, hempty hcustom] at hs
        cases hs
    · rw [if_neg hcustom]
      by_cases hseq : seq = w.seq
      · rw [if_pos hseq]
        refine decided_sound h fun hnone => ?_
        rw [hnone, hseq] at hev
        have htag := hfresh tag hev
        exact (hup tag w.seq (ackEvent_ack hev)).2 (congrArg Tag.call htag) |>.imp
          fun a ha => ⟨ha.1, htag ▸ ha.2⟩
      · rw [if_neg hseq]
        exact hu w.ackCache h hempty

theorem send_sound (h : Linked w) {failure : Option String}
    (hfresh : failure = none → w.job.customTransport = true →
      ∀ tag, w.ackCache w.seq = some (tag, none) → tag = w.tag) :
    Sound (w.send failure) := by
  have hsent : Linked { w with down := w.down ++ [(w.tag, w.job.frame w.seq w.phase)] } := by
    refine { h with sent := ?_, own := ?_, ordered := ?_, course := ?_ }
    · intro x hx
      rcases List.mem_append.mp hx with hx | hx
      · exact h.sent x hx
      · rw [List.mem_singleton.mp hx]
        exact Or.inr ⟨rfl, le_rfl⟩
    · intro x hx hcall
      rcases List.mem_append.mp hx with hx | hx
      · exact h.own x hx hcall
      · rw [List.mem_singleton.mp hx, h.phase, h.seq]
        rfl
    · refine List.pairwise_append.mpr ⟨h.ordered, List.pairwise_singleton _ _, fun x hx y hy => ?_⟩
      rw [List.mem_singleton.mp hy]
      exact h.sent x hx
    · intro b hb
      have hcourse := h.course b hb
      refine ⟨hcourse.upTo, fun x hx => ?_, hcourse.session, hcourse.verified, hcourse.committed⟩
      rcases List.mem_append.mp hx with hx | hx
      · exact hcourse.past x hx
      · rw [List.mem_singleton.mp hx]
        exact ⟨rfl, hcourse.upTo⟩
  unfold World.send
  cases failure with
  | some err => exact attemptFailed_sound hsent err
  | none =>
    dsimp only
    by_cases hcustom : w.job.customTransport = true
    · rw [if_pos hcustom]
      refine consumeCachedAck_sound hsent (hfresh rfl hcustom) fun hnone => ?_
      refine { hsent.goto .wait w.attempt with waiting := fun _ _ => hnone, returned := ?_ }
      intro err hr
      cases hr
    · rw [if_neg hcustom]
      refine { hsent.goto .wait w.attempt with
        waiting := fun _ hc => absurd hc hcustom, returned := ?_ }
      intro err hr
      cases hr

theorem Linked.withUp (h : Linked w) {up : List Up}
    (hup : ∀ tag seq, .reply tag (.ack seq) ∈ up → Answered w tag) : Linked { w with up := up } :=
  h.inside h.cached hup w.place w.attempt

theorem receive_sound (h : Sound w) (hfresh : Fresh w .receive) : Sound w.receive := by
  unfold World.receive
  cases hup : w.up with
  | nil => exact h
  | cons frame up =>
    have hread : ∀ tag seq, frame = .reply tag (.ack seq) → Answered w tag := by
      rintro tag seq rfl
      exact h.up tag seq (hup ▸ List.mem_cons_self)
    have hrest : ∀ p, w.place = p → Linked { w with up := up, place := p } := by
      rintro p rfl
      exact h.toLinked.withUp fun tag seq hr => h.up tag seq (hup ▸ List.mem_cons_of_mem _ hr)
    have hmine (hp : w.place = .wait ∨ w.place = .grace) :
        ∀ tag, ackEvent frame = some (w.seq, tag, none) → tag = w.tag :=
      hfresh hp frame (by rw [hup]; rfl)
    dsimp only
    cases hplace : w.place with
    | hello =>
      cases frame with
      | hello => exact exchange_sound (hrest _ hplace)
      | reply tag r => exact (hrest _ hplace).quiet trivial
    | wait =>
      refine answered_sound (hrest _ hplace) (hmine (Or.inl hplace)) hread
        (h.waiting (Or.inl hplace)) ?_
      intro cache hl hempty
      refine { hl with waiting := fun _ => hempty, returned := fun err hr => ?_ }
      cases hr
    | grace =>
      refine answered_sound (hrest _ hplace) (hmine (Or.inr hplace)) hread
        (h.waiting (Or.inr hplace)) ?_
      exact fun cache hl _ => attemptFailed_sound hl _
    | _ => exact h

theorem recvFails_sound (h : Sound w) (err : String) : Sound (w.recvFails err) := by
  have hl := h.toLinked
  unfold World.recvFails
  cases w.place with
  | hello => exact (hl.goto (.returned false _) w.attempt).quiet trivial
  | wait => exact attemptFailed_sound hl _
  | grace => exact attemptFailed_sound hl _
  | _ => exact h

theorem deadline_sound (h : Sound w) : Sound w.deadline := by
  have hl := h.toLinked
  unfold World.deadline
  cases hplace : w.place with
  | hello => exact (hl.goto (.returned false _) w.attempt).quiet trivial
  | wait =>
    dsimp only
    by_cases hcustom : w.job.customTransport = true
    · rw [if_pos hcustom]
      refine { hl.goto .grace w.attempt with
        waiting := fun _ => h.waiting (Or.inl hplace), returned := ?_ }
      intro err hr
      cases hr
    · rw [if_neg hcustom]
      exact attemptFailed_sound hl _
  | _ => exact h

theorem poll_sound (h : Sound w) (stop : Bool) : Sound (w.poll stop) := by
  have hl := h.toLinked
  unfold World.poll
  cases w.place with
  | poll =>
    dsimp only
    by_cases hstop : stop = true
    · rw [if_pos hstop]
      exact (hl.goto (.returned false _) w.attempt).quiet trivial
    · rw [if_neg hstop]
      by_cases hphase : w.phase ≠ .prepare
      · rw [if_pos hphase]
        exact exchange_sound hl
      · rw [if_neg hphase]
        by_cases hcustom : w.job.customTransport = true
        · rw [if_pos hcustom]
          exact afterConnect_sound hl
        · rw [if_neg hcustom]
          exact (hl.goto .connect w.attempt).quiet trivial
  | _ => exact h

theorem connect_sound (h : Sound w) (failure : Option String) : Sound (w.connect failure) := by
  have hl := h.toLinked
  unfold World.connect
  cases w.place with
  | connect =>
    cases failure with
    | some err => exact (hl.goto (.returned false err) w.attempt).quiet trivial
    | none => exact afterConnect_sound hl
  | _ => exact h

/-- A new call knows of nothing. -/
theorem call_sound (h : Linked w) (job : Job) : Sound (w.call job (w.tag.call + 1)) := by
  -- whatever is still on its way belongs to an older call
  have hold : ∀ x ∈ w.down, x.1.call < w.tag.call + 1 := by
    intro x hx
    rcases h.sent x hx with hlt | ⟨heq, -⟩
    · exact hlt.trans (Nat.lt_succ_self _)
    · exact heq ▸ Nat.lt_succ_self _
  have hanswered : ∀ tag, Answered w tag → Answered (w.call job (w.tag.call + 1)) tag := by
    intro tag ht
    exact ⟨ht.1.trans (Nat.le_succ _), fun heq => absurd heq (Nat.ne_of_lt (Nat.lt_succ_of_le ht.1))⟩
  have hlinked : Linked (w.call job (w.tag.call + 1)) :=
    { phase := rfl
      seq := rfl
      sent := fun x hx => Or.inl (hold x hx)
      own := fun x hx hcall => absurd hcall (Nat.ne_of_lt (hold x hx))
      ordered := h.ordered
      course := fun _ hb => nomatch hb
      reached := fun hpos => absurd hpos (Nat.lt_irrefl 0)
      up := fun tag seq hr => hanswered tag (h.up tag seq hr)
      cached := fun seq tag hc => hanswered tag (h.cached seq tag hc) }
  refine hlinked.quiet ?_
  unfold World.call
  dsimp only
  split_ifs <;> trivial

theorem start_sound (device : Device) (job : Job) : Sound (start device job) := by
  have hlinked : Linked (start device job) :=
    { phase := rfl
      seq := rfl
      sent := fun x hx => absurd hx List.not_mem_nil
      own := fun x hx => absurd hx List.not_mem_nil
      ordered := List.Pairwise.nil
      course := fun _ hb => nomatch hb
      reached := fun hpos => absurd hpos (Nat.lt_irrefl 0)
      up := fun tag seq hr => absurd hr List.not_mem_nil
      cached := fun seq tag hc => nomatch hc }
  refine hlinked.quiet ?_
  unfold start World.call
  dsimp only
  split_ifs <;> trivial

theorem Sound.withUp (h : Sound w) {up : List Up}
    (hup : ∀ tag seq, .reply tag (.ack seq) ∈ up → Answered w tag) : Sound { w with up := up } :=
  { h.toLinked.withUp hup with waiting := h.waiting, returned := h.returned }

theorem loseDown_sound (h : Sound w) (i : ℕ) : Sound { w with down := w.down.eraseIdx i } := by
  have hsub := List.eraseIdx_sublist w.down i
  refine { h with
    sent := fun x hx => h.sent x (hsub.subset hx)
    own := fun x hx => h.own x (hsub.subset hx)
    ordered := h.ordered.sublist hsub
    course := fun b hb => ?_ }
  have hcourse := h.course b hb
  exact ⟨hcourse.upTo, fun x hx => hcourse.past x (hsub.subset hx), hcourse.session,
    hcourse.verified, hcourse.committed⟩

theorem incident_sound (h : Sound w) (e : Incident) :
    Sound { w with device := (Bootloader.step w.device e.event).1 } := by
  refine { h with course := fun b hb => ?_ }
  have hcourse := h.course b hb
  refine ⟨hcourse.upTo, hcourse.past, incident_open hcourse.session fun f life => ?_,
    hcourse.verified, hcourse.committed⟩
  cases e <;> exact nofun

theorem noteAcked_ack {tag : Tag} {r : Option Reply} (hack : ∃ seq, r = some (.ack seq))
    (hcall : tag.call = w.tag.call) : noteAcked w tag r = some tag.exchange := by
  obtain ⟨seq, rfl⟩ := hack
  exact if_pos hcall

theorem noteAcked_other {tag : Tag} {r : Option Reply}
    (h : (∀ seq, r ≠ some (.ack seq)) ∨ tag.call ≠ w.tag.call) : noteAcked w tag r = w.acked := by
  rcases r with _ | ⟨seq⟩ | _ | _
  · rfl
  · rcases h with h | h
    · exact absurd rfl (h seq)
    · exact if_neg h
  · rfl
  · rfl

section Deliver

variable {tag : Tag} {f : Frame} {down : List (Tag × Frame)} (life : Option ℕ)

/-- The world behind a frame that the device has taken. -/
def taken (w : World) (tag : Tag) (f : Frame) (down : List (Tag × Frame)) (life : Option ℕ) : World :=
  let r := Bootloader.step w.device (.frame f life)
  { w with
    device := r.1
    down := down
    up := w.up ++ (r.2.reply.map (Up.reply tag)).toList
    acked := noteAcked w tag r.2.reply
    verified := w.verified ++ noteVerified w f r.2.reply r.1
    committed := w.committed ++ r.2.written.map (w.tag.call, ·) }

theorem deliver_eq (hd : w.down = (tag, f) :: down) : w.deliver life = taken w tag f down life := by
  unfold World.deliver
  rw [hd]
  rfl

theorem taken_verified (h : w.Verified) : (taken w tag f down life).Verified := by
  obtain ⟨x, hx, himage⟩ := h
  exact ⟨x, List.mem_append_left _ hx, himage⟩

theorem taken_committed (h : w.Committed) : (taken w tag f down life).Committed := by
  obtain ⟨x, hx, himage⟩ := h
  exact ⟨x, List.mem_append_left _ hx, himage⟩

variable (h : Linked w) (hd : w.down = (tag, f) :: down)

include h hd

/-- What is behind a frame of the call is of the call, and not older. -/
theorem behind (hcall : tag.call = w.tag.call) :
    ∀ x ∈ down, x.1.call = w.tag.call ∧ tag.exchange ≤ x.1.exchange := by
  intro x hx
  have hsent := h.sent x (hd ▸ List.mem_cons_of_mem _ hx)
  have hordered := List.rel_of_pairwise_cons (hd ▸ h.ordered) hx
  rcases hordered with hlt | ⟨heq, hle⟩
  · rcases hsent with hlt' | ⟨heq', -⟩
    · have hlt : tag.call < x.1.call := hlt
      omega
    · have hlt : tag.call < x.1.call := hlt
      omega
  · exact ⟨heq.symm.trans hcall, hle⟩

/-- The device takes a frame of the exchange after the last one that it has acknowledged. -/
theorem next_course (hcall : tag.call = w.tag.call) (ha : w.acked = some a)
    (hnext : tag.exchange = a + 1)
    (hack : ∃ seq, (Bootloader.step w.device (.frame f life)).2.reply = some (.ack seq)) :
    Course (taken w tag f down life) (a + 1) := by
  have hcourse := h.course a ha
  have hsent := h.sent (tag, f) (hd ▸ List.mem_cons_self)
  have hframe : f = frameAt w.job (a + 1) :=
    hnext ▸ h.own (tag, f) (hd ▸ List.mem_cons_self) hcall
  subst hframe
  have hupTo : a + 1 ≤ w.tag.exchange := by
    rcases hsent with hlt | ⟨-, hle⟩
    · exact absurd hcall (Nat.ne_of_lt hlt)
    · exact hnext ▸ hle
  refine ⟨hupTo, fun x hx => ?_, (deliver_next hcourse.session life).1 hack,
    fun (hp : phaseAt w.job (a + 1) = .verify ∨ phaseAt w.job (a + 1) = .commit) => ?_,
    fun (hp : phaseAt w.job (a + 1) = .commit) => ?_⟩
  · have hbehind := behind h hd hcall x hx
    exact ⟨hbehind.1, hnext ▸ hbehind.2⟩
  · rcases hp with hp | hp
    · obtain ⟨g, m, final, hmode, himage⟩ := deliver_verified hcourse.session hp life hack
      obtain ⟨seq, hs⟩ := hack
      refine ⟨(w.tag.call, g, (Bootloader.step w.device (.frame (frameAt w.job (a + 1)) life)).1.flash),
        List.mem_append_right _ ?_, rfl, himage⟩
      have htype : (frameAt w.job (a + 1)).type = blDnOtaVerify := by
        change (phaseAt w.job (a + 1)).type = _
        rw [hp]
        rfl
      unfold noteVerified
      rw [hs, hmode]
      dsimp only
      rw [if_pos htype]
      exact List.mem_singleton_self _
    · exact taken_verified life (hcourse.verified (next_commit hp))
  · obtain ⟨x, hx, himage⟩ := deliver_committed hcourse.session hp life hack
    exact ⟨(w.tag.call, x), List.mem_append_right _ (List.mem_map_of_mem hx), rfl, himage⟩

/-- What was acknowledged before is still. -/
theorem kept_course (ha : w.acked = some a)
    (hopen : DeviceOpen w.job a (Bootloader.step w.device (.frame f life)).1) :
    Course (taken w tag f down life) a := by
  have hcourse := h.course a ha
  refine ⟨hcourse.upTo, fun x hx => ?_, hopen, fun hp => taken_verified life (hcourse.verified hp),
    fun hp => taken_committed life (hcourse.committed hp)⟩
  exact hcourse.past x (hd ▸ List.mem_cons_of_mem _ hx)

theorem first_course (hcall : tag.call = w.tag.call) (hfirst : tag.exchange = 0)
    (hack : ∃ seq, (Bootloader.step w.device (.frame f life)).2.reply = some (.ack seq)) :
    Course (taken w tag f down life) 0 := by
  have hframe : f = frameAt w.job 0 := hfirst ▸ h.own (tag, f) (hd ▸ List.mem_cons_self) hcall
  subst hframe
  refine ⟨Nat.zero_le _, fun x hx => ?_, deliver_first w.device life (Or.inr hack), ?_, nofun⟩
  · exact ⟨(behind h hd hcall x hx).1, Nat.zero_le _⟩
  · rintro (hp | hp) <;> cases hp

/-- A frame of the call is of the exchange that was acknowledged last, or of the next one. -/
theorem near_acked (hcall : tag.call = w.tag.call) (ha : w.acked = some a) :
    tag.exchange = a ∨ tag.exchange = a + 1 := by
  have hpast := ((h.course a ha).past (tag, f) (hd ▸ List.mem_cons_self)).2
  have hsent := h.sent (tag, f) (hd ▸ List.mem_cons_self)
  have hle : tag.exchange ≤ w.tag.exchange := by
    rcases hsent with hlt | ⟨-, hle⟩
    · exact absurd hcall (Nat.ne_of_lt hlt)
    · exact hle
  -- an exchange begins only when the one before it was acknowledged
  have hreached : w.tag.exchange ≤ a + 1 := by
    rcases Nat.eq_zero_or_pos w.tag.exchange with hzero | hpos
    · exact hzero ▸ Nat.zero_le _
    · obtain ⟨b, hb, hle⟩ := h.reached hpos
      obtain rfl := Option.some.inj (ha.symm.trans hb)
      exact hle
  have hpast : a ≤ tag.exchange := hpast
  omega

theorem acked_grows (ha : w.acked = some a) :
    ∃ b, (taken w tag f down life).acked = some b ∧ a ≤ b := by
  have hcall : tag.call = w.tag.call :=
    ((h.course a ha).past (tag, f) (hd ▸ List.mem_cons_self)).1
  by_cases hack : ∃ seq, (Bootloader.step w.device (.frame f life)).2.reply = some (.ack seq)
  · refine ⟨tag.exchange, noteAcked_ack hack hcall, ?_⟩
    rcases near_acked h hd hcall ha with heq | heq <;> omega
  · exact ⟨a, (noteAcked_other (Or.inl fun seq hs => hack ⟨seq, hs⟩)).trans ha, le_rfl⟩

theorem taken_course {b : ℕ} (hb : (taken w tag f down life).acked = some b) :
    Course (taken w tag f down life) b := by
  have hhead : (tag, f) ∈ w.down := hd ▸ List.mem_cons_self
  by_cases hack : (∃ seq, (Bootloader.step w.device (.frame f life)).2.reply = some (.ack seq)) ∧
      tag.call = w.tag.call
  · obtain ⟨hreply, hcall⟩ := hack
    obtain rfl := Option.some.inj ((noteAcked_ack hreply hcall).symm.trans hb)
    -- the first ACK of the call, a repetition, or the next exchange
    cases ha : w.acked with
    | none =>
      have hzero : tag.exchange = 0 := by
        have hfirst : w.tag.exchange = 0 := by
          by_contra hne
          obtain ⟨a, hacked, -⟩ := h.reached (Nat.pos_of_ne_zero hne)
          cases ha.symm.trans hacked
        rcases h.sent (tag, f) hhead with hlt | ⟨-, hle⟩
        · exact absurd hcall (Nat.ne_of_lt hlt)
        · exact Nat.le_zero.mp (hfirst ▸ hle)
      rw [hzero]
      exact first_course life h hd hcall hzero hreply
    | some a =>
      rcases near_acked h hd hcall ha with heq | heq
      · rw [heq]
        have hframe : f = frameAt w.job a := heq ▸ h.own (tag, f) hhead hcall
        subst hframe
        exact kept_course life h hd ha (deliver_again (h.course a ha).session life)
      · rw [heq]
        exact next_course life h hd hcall ha heq hreply
  · have hsame : noteAcked w tag (Bootloader.step w.device (.frame f life)).2.reply = w.acked := by
      refine noteAcked_other ?_
      by_cases hcall : tag.call = w.tag.call
      · exact Or.inl fun seq hs => hack ⟨⟨seq, hs⟩, hcall⟩
      · exact Or.inr hcall
    -- no ACK of this call: a session can still be closed or refuse the frame, but not move on
    have ha : w.acked = some b := hsame.symm.trans hb
    have hcall : tag.call = w.tag.call := ((h.course b ha).past (tag, f) hhead).1
    have hframe : f = frameAt w.job tag.exchange := h.own (tag, f) hhead hcall
    refine kept_course life h hd ha ?_
    rcases near_acked h hd hcall ha with heq | heq
    · rw [heq] at hframe
      subst hframe
      exact deliver_again (h.course b ha).session life
    · rw [heq] at hframe
      have hno : ∀ seq, (Bootloader.step w.device (.frame f life)).2.reply ≠ some (.ack seq) :=
        fun seq hs => hack ⟨⟨seq, hs⟩, hcall⟩
      subst hframe
      exact (deliver_next (h.course b ha).session life).2 hno

theorem answered_taken {t : Tag} (ht : Answered w t) : Answered (taken w tag f down life) t := by
  refine ⟨ht.1, fun hcall => ?_⟩
  obtain ⟨a, ha, hle⟩ := ht.2 hcall
  obtain ⟨b, hb, hab⟩ := acked_grows life h hd ha
  exact ⟨b, hb, hle.trans hab⟩

/-- What the device says in this step is about this frame. -/
theorem reply_taken {t : Tag} {seq : UInt16}
    (hr : .reply t (.ack seq) ∈ (taken w tag f down life).up) :
    Answered (taken w tag f down life) t := by
  rcases List.mem_append.mp hr with hr | hr
  · exact answered_taken life h hd (h.up t seq hr)
  · rw [Option.mem_toList, Option.map_eq_some_iff] at hr
    obtain ⟨r, hreply, hup⟩ := hr
    obtain ⟨rfl, rfl⟩ := Up.reply.inj hup
    have hsent := h.sent (tag, f) (hd ▸ List.mem_cons_self)
    refine ⟨hsent.elim Nat.le_of_lt fun heq => heq.1.le, fun hcall => ?_⟩
    exact ⟨tag.exchange, noteAcked_ack ⟨seq, hreply⟩ hcall, le_rfl⟩

omit h in
theorem taken_sound (h : Sound w) : Sound (taken w tag f down life) := by
  have hl := h.toLinked
  have htail (x : Tag × Frame) (hx : x ∈ down) : x ∈ w.down := hd ▸ List.mem_cons_of_mem _ hx
  refine { phase := h.phase, seq := h.seq, waiting := h.waiting, sent := ?_, own := ?_,
           ordered := ?_, course := ?_, reached := ?_, up := ?_, cached := ?_, returned := ?_ }
  · exact fun x hx => h.sent x (htail x hx)
  · exact fun x hx => h.own x (htail x hx)
  · exact (hd ▸ h.ordered : ((tag, f) :: down).Pairwise _).of_cons
  · exact fun b hb => taken_course life hl hd hb
  · intro hpos
    obtain ⟨a, ha, hle⟩ := h.reached hpos
    obtain ⟨b, hb, hab⟩ := acked_grows life hl hd ha
    exact ⟨b, hb, hle.trans (Nat.succ_le_succ hab)⟩
  · exact fun t seq hr => reply_taken life hl hd hr
  · exact fun seq t hc => answered_taken life hl hd (h.cached seq t hc)
  · intro err hr
    obtain ⟨hphase, ha⟩ := h.returned err hr
    obtain ⟨b, hb, hab⟩ := acked_grows life hl hd ha
    have hle := (taken_course life hl hd hb).upTo
    -- nothing comes after the last exchange
    have hsame : b = w.tag.exchange := le_antisymm hle hab
    exact ⟨hphase, hsame ▸ hb⟩

end Deliver

theorem deliver_sound (h : Sound w) (life : Option ℕ) : Sound (w.deliver life) := by
  cases hd : w.down with
  | nil =>
    unfold World.deliver
    rw [hd]
    exact h
  | cons x down =>
    rw [deliver_eq life hd]
    exact taken_sound life hd h

theorem step_sound (w : World) (e : Event) (h : Sound w) (hfresh : Fresh w e) :
    Sound (step w e).1 := by
  change Sound (act w e)
  cases e with
  | again job =>
    unfold act
    cases w.place with
    | returned ok err => exact call_sound h.toLinked job
    | _ => exact h
  | poll stop => exact poll_sound h stop
  | connect failure => exact connect_sound h failure
  | send failure =>
    change Sound (if w.place = .send then w.send failure else w)
    by_cases hplace : w.place = .send
    · rw [if_pos hplace]
      refine send_sound h.toLinked ?_
      rintro rfl hcustom
      exact hfresh hplace hcustom
    · rw [if_neg hplace]
      exact h
  | receive => exact receive_sound h hfresh
  | recvFails err => exact recvFails_sound h err
  | deadline => exact deadline_sound h
  | deliver life => exact deliver_sound h life
  | incident e => exact incident_sound h e
  | announce =>
    refine h.withUp fun tag seq hr => ?_
    rcases List.mem_append.mp hr with hr | hr
    · exact h.up tag seq hr
    · cases List.mem_singleton.mp hr
  | loseDown i => exact loseDown_sound h i
  | loseUp i => exact h.withUp fun tag seq hr => h.up tag seq ((List.eraseIdx_sublist _ _).subset hr)
  | finish device_type canceled => exact h

theorem Sound.committed (h : Sound w) {err : String} (hp : w.place = .returned true err) :
    w.Committed := by
  obtain ⟨hphase, ha⟩ := h.returned err hp
  exact (h.course _ ha).committed (h.phase.symm.trans hphase)

end EdgeLink.Stm32Ota
