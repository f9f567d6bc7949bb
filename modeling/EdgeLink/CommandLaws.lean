import EdgeLink.PendingCommands

namespace EdgeLink.Commands
open Machine

/-- The entries are those of the commands without an outcome, one each. -/
structure Tracked (pending : UInt32 → Option PendingCommand) (subs : List Submission) : Prop where
  entry : ∀ (i : ℕ) (s : Submission), subs[i]? = some s → s.live = true → (pending s.key).isSome
  owner : ∀ key, (pending key).isSome →
    ∃ (i : ℕ) (s : Submission), subs[i]? = some s ∧ s.live = true ∧ s.key = key
  unique : ∀ (i j : ℕ) (s s' : Submission), subs[i]? = some s → subs[j]? = some s' → s.live = true → s'.live = true →
    s.key = s'.key → i = j

def Phase.isAcked : Phase → Bool
  | .acked _ => true
  | _ => false

@[simp] theorem Phase.isAcked_acked (r : UInt8) : (Phase.acked r).isAcked = true := rfl
@[simp] theorem Phase.isAcked_timedOut : Phase.timedOut.isAcked = false := rfl
@[simp] theorem Phase.isAcked_sendFailed : Phase.sendFailed.isAcked = false := rfl

/-- An ACK with the ids of the command, as they stand in its line. -/
def Answers (s : Submission) (e : Event) : Prop :=
  ∃ d c r, e = .ack d c r ∧ d.toInt = s.deviceId.toNat ∧ c.toInt = s.commandId.toNat

structure Sound (g : Gateway) (e : Event) : Prop where
  /-- a submission takes no entry that is in use -/
  fresh : ∀ s : Submission, (step g e).1.submissions = g.submissions ++ [s] →
    g.pendingCommands s.key = none
  /-- an outcome is final -/
  final : ∀ (i : ℕ) (s : Submission), g.submissions[i]? = some s → s.live = false →
    (step g e).1.submissions[i]? = some s
  tracked : Tracked (step g e).1.pendingCommands (step g e).1.submissions
  /-- it ends when its caller has failed to send it or has waited long enough -/
  ends : ∀ (i : ℕ) (s : Submission), g.submissions[i]? = some s →
    (s.phase = .sending ∧ e = .sent i false) ∨ (s.phase = .waiting ∧ e = .wake i true) →
    ∃ s' : Submission, (step g e).1.submissions[i]? = some s' ∧ s'.live = false
  /-- only its own ACK changes its entry -/
  own : ∀ (i : ℕ) (s : Submission), g.submissions[i]? = some s → s.live = true → (step g e).1.submissions[i]? = some s →
    (step g e).1.pendingCommands s.key ≠ g.pendingCommands s.key → Answers s e
  /-- and what it is told then is what the ACK has put there -/
  told : ∀ (i : ℕ) (s s' : Submission) (r : UInt8), g.submissions[i]? = some s → s.live = true →
    (step g e).1.submissions[i]? = some s' → s'.phase = .acked r →
    g.pendingCommands s.key = some ⟨true, r⟩
  /-- with no command outstanding the counters add up -/
  balance : (∀ s ∈ (step g e).1.submissions, s.live = false) →
    (step g e).1.commandSubmitCount = (step g e).1.commandAckCount +
      (step g e).1.commandTimeoutCount +
      UInt64.ofNat ((step g e).1.submissions.countP (·.phase = .sendFailed))

/-- The steps on which the code relies: no tracked command takes ids that are in use, and no ACK
only fits an entry because its id was cut. -/
def Orderly (g : Gateway) : Event → Prop
  | .track device_id command_id => g.pendingCommands (makeCommandKey device_id command_id) = none
  | .ack device_id command_id _ =>
    (g.pendingCommands (makeCommandKey (castDevice device_id) (castCommand command_id))).isSome →
      command_id.toInt = (castCommand command_id).toNat
  | _ => True

section Tracked
variable {pending : UInt32 → Option PendingCommand} {subs : List Submission} {i j : ℕ}
  {s s' : Submission}

theorem Tracked.enter (h : Tracked pending subs) {d : UInt8} {c : UInt16} {cmd : PendingCommand}
    (hfree : pending (makeCommandKey d c) = none) :
    Tracked (Function.update pending (makeCommandKey d c) (some cmd))
      (subs ++ [⟨d, c, .sending⟩]) := by
  have hlast : (subs ++ [(⟨d, c, .sending⟩ : Submission)])[subs.length]? = some ⟨d, c, .sending⟩ :=
    List.getElem?_concat_length
  -- no earlier command has the new key
  have hnew : ∀ (j : ℕ) (s : Submission), subs[j]? = some s → s.live = true → s.key ≠ makeCommandKey d c := by
    intro j s hj hl hk
    have hsome := h.entry j s hj hl
    rw [hk, hfree] at hsome
    cases hsome
  refine ⟨fun i s hi hl => ?_, fun key hk => ?_, fun i j s s' hi hj hl hl' hk => ?_⟩
  · rcases getElem?_concat_cases hi with hi | ⟨-, rfl⟩
    · rw [Function.update_of_ne (hnew i s hi hl)]
      exact h.entry i s hi hl
    · show (Function.update pending (makeCommandKey d c) (some cmd) (makeCommandKey d c)).isSome
      rw [Function.update_self]
      rfl
  · by_cases hkey : key = makeCommandKey d c
    · exact ⟨_, _, hlast, rfl, hkey.symm⟩
    · rw [Function.update_of_ne hkey] at hk
      obtain ⟨i, s, hi, hl, hs⟩ := h.owner key hk
      exact ⟨i, s, by rw [List.getElem?_append_left (List.getElem?_eq_some_iff.mp hi).1, hi], hl, hs⟩
  · rcases getElem?_concat_cases hi with hi | ⟨rfl, rfl⟩ <;> rcases getElem?_concat_cases hj with hj | ⟨rfl, rfl⟩
    · exact h.unique i j s s' hi hj hl hl' hk
    · exact absurd hk (hnew i s hi hl)
    · exact absurd hk.symm (hnew j s' hj hl')
    · rfl

theorem Tracked.congr {pending' : UInt32 → Option PendingCommand} (h : Tracked pending subs)
    (hp : ∀ key, (pending' key).isSome = (pending key).isSome) : Tracked pending' subs :=
  ⟨fun i s hi hl => by rw [hp]; exact h.entry i s hi hl,
    fun key hk => h.owner key (by rw [← hp]; exact hk), h.unique⟩

/-- A command goes on, with its entry. -/
theorem Tracked.move (h : Tracked pending subs) (hi : subs[i]? = some s) (hl : s.live = true)
    {phase : Phase} (hl' : ({ s with phase := phase } : Submission).live = true) :
    Tracked pending (subs.set i { s with phase := phase }) := by
  have hlt := (List.getElem?_eq_some_iff.mp hi).1
  -- every command of the new list has its like in the old one
  have hback : ∀ (j : ℕ) (x : Submission), (subs.set i { s with phase := phase })[j]? = some x → x.live = true →
      ∃ y, subs[j]? = some y ∧ y.live = true ∧ y.key = x.key := by
    intro j x hj hx
    rcases getElem?_set_cases hj with ⟨rfl, rfl⟩ | ⟨-, hj⟩
    · exact ⟨s, hi, hl, rfl⟩
    · exact ⟨x, hj, hx, rfl⟩
  refine ⟨fun j x hj hx => ?_, fun key hk => ?_, fun j k x x' hj hk hx hx' hkey => ?_⟩
  · obtain ⟨y, hy, hly, hkey⟩ := hback j x hj hx
    rw [← hkey]
    exact h.entry j y hy hly
  · obtain ⟨j, x, hj, hx, hkey⟩ := h.owner key hk
    by_cases hji : j = i
    · subst hji
      obtain rfl := Option.some.inj (hi.symm.trans hj)
      exact ⟨j, _, List.getElem?_set_self hlt, hl', hkey⟩
    · exact ⟨j, x, by rw [List.getElem?_set_ne (Ne.symm hji)]; exact hj, hx, hkey⟩
  · obtain ⟨y, hy, hly, hky⟩ := hback j x hj hx
    obtain ⟨y', hy', hly', hky'⟩ := hback k x' hk hx'
    exact h.unique j k y y' hy hy' hly hly' (by rw [hky, hky', hkey])

/-- A command ends, and its entry goes. -/
theorem Tracked.resolve (h : Tracked pending subs) (hi : subs[i]? = some s) (hl : s.live = true)
    {phase : Phase} (hl' : ({ s with phase := phase } : Submission).live = false) :
    Tracked (Function.update pending s.key none) (subs.set i { s with phase := phase }) := by
  have hlt := (List.getElem?_eq_some_iff.mp hi).1
  have hback : ∀ (j : ℕ) (x : Submission), (subs.set i { s with phase := phase })[j]? = some x → x.live = true →
      j ≠ i ∧ subs[j]? = some x ∧ x.key ≠ s.key := by
    intro j x hj hx
    rcases getElem?_set_cases hj with ⟨rfl, rfl⟩ | ⟨hne, hj⟩
    · rw [hl'] at hx
      cases hx
    · exact ⟨hne, hj, fun hk => hne (h.unique j i x s hj hi hx hl hk)⟩
  refine ⟨fun j x hj hx => ?_, fun key hk => ?_, fun j k x x' hj hk hx hx' hkey => ?_⟩
  · obtain ⟨-, hj, hk⟩ := hback j x hj hx
    rw [Function.update_of_ne hk]
    exact h.entry j x hj hx
  · by_cases hkey : key = s.key
    · rw [hkey, Function.update_self] at hk
      cases hk
    · rw [Function.update_of_ne hkey] at hk
      obtain ⟨j, x, hj, hx, hxk⟩ := h.owner key hk
      have hji : i ≠ j := by
        rintro rfl
        obtain rfl := Option.some.inj (hi.symm.trans hj)
        exact hkey hxk.symm
      exact ⟨j, x, by rw [List.getElem?_set_ne hji]; exact hj, hx, hxk⟩
  · exact h.unique j k x x' (hback j x hj hx).2.1 (hback k x' hk hx').2.1 hx hx' hkey

end Tracked

structure Counted (g : Gateway) : Prop where
  submits : g.commandSubmitCount = UInt64.ofNat g.submissions.length
  acks : g.commandAckCount = UInt64.ofNat (g.submissions.countP (·.phase.isAcked))
  timeouts : g.commandTimeoutCount = UInt64.ofNat (g.submissions.countP (·.phase = .timedOut))

theorem countP_setPhase {subs : List Submission} {i : ℕ} {s x : Submission} (p : Submission → Bool)
    (hi : subs[i]? = some s) (hs : p s = false) :
    (subs.set i x).countP p = subs.countP p + if p x then 1 else 0 := by
  obtain ⟨hlt, hget⟩ := List.getElem?_eq_some_iff.mp hi
  rw [List.countP_set hlt, hget, hs]
  simp

theorem live_phase {s : Submission} (h : s.live = true) :
    s.phase.isAcked = false ∧ decide (s.phase = .timedOut) = false ∧
      decide (s.phase = .sendFailed) = false := by
  rcases of_decide_eq_true h with h | h <;> rw [h] <;> exact ⟨rfl, by decide, by decide⟩

/-- Every outcome is of one of the three kinds. -/
theorem length_of_ended {subs : List Submission} (h : ∀ s ∈ subs, s.live = false) :
    subs.length = subs.countP (·.phase.isAcked) + subs.countP (·.phase = .timedOut) +
      subs.countP (·.phase = .sendFailed) := by
  induction subs with
  | nil => rfl
  | cons s subs ih =>
    have ht := ih fun x hx => h x (List.mem_cons_of_mem _ hx)
    have hs := h s List.mem_cons_self
    obtain ⟨d, c, phase⟩ := s
    simp only [List.countP_cons, List.length_cons]
    cases phase with
    | sending => cases hs
    | waiting => cases hs
    | acked r => simp; omega
    | timedOut => simp; omega
    | sendFailed => simp; omega

theorem Counted.balance {g : Gateway} (h : Counted g) (hall : ∀ s ∈ g.submissions, s.live = false) :
    g.commandSubmitCount = g.commandAckCount + g.commandTimeoutCount +
      UInt64.ofNat (g.submissions.countP (·.phase = .sendFailed)) := by
  rw [h.submits, h.acks, h.timeouts, length_of_ended hall, UInt64.ofNat_add, UInt64.ofNat_add]

def SameCounts (g g' : Gateway) : Prop :=
  g'.commandSubmitCount = g.commandSubmitCount ∧ g'.commandAckCount = g.commandAckCount ∧
    g'.commandTimeoutCount = g.commandTimeoutCount

inductive Change (g : Gateway) (e : Event) (g' : Gateway) : Prop
  | idle (hp : g'.pendingCommands = g.pendingCommands) (hs : g'.submissions = g.submissions)
      (hn : SameCounts g g')
  | entered (d : UInt8) (c : UInt16) (hfree : g.pendingCommands (makeCommandKey d c) = none)
      (hp : g'.pendingCommands =
        Function.update g.pendingCommands (makeCommandKey d c) (some ⟨false, 0xFF⟩))
      (hs : g'.submissions = g.submissions ++ [⟨d, c, .sending⟩])
      (hn : SameCounts { g with commandSubmitCount := g.commandSubmitCount + 1 } g')
  | moved (i : ℕ) (s : Submission) (phase : Phase)
      (hi : g.submissions[i]? = some s) (hl : s.live = true)
      (hl' : ({ s with phase := phase } : Submission).live = true)
      (hp : g'.pendingCommands = g.pendingCommands)
      (hs : g'.submissions = g.submissions.set i { s with phase := phase }) (hn : SameCounts g g')
  | resolved (i : ℕ) (s : Submission) (phase : Phase)
      (hi : g.submissions[i]? = some s) (hl : s.live = true)
      (hl' : ({ s with phase := phase } : Submission).live = false)
      (ha : ∀ r, phase = .acked r → g.pendingCommands s.key = some ⟨true, r⟩)
      (hp : g'.pendingCommands = Function.update g.pendingCommands s.key none)
      (hs : g'.submissions = g.submissions.set i { s with phase := phase })
      (hn : SameCounts { g with
        commandAckCount := g.commandAckCount + if phase.isAcked then 1 else 0,
        commandTimeoutCount := g.commandTimeoutCount + if phase = .timedOut then 1 else 0 } g')
  | acked (d c r : Int64) (cmd : PendingCommand) (he : e = .ack d c r) (h0 : 0 ≤ d) (h255 : d ≤ 255)
      (hsome : (g.pendingCommands (makeCommandKey (castDevice d) (castCommand c))).isSome)
      (hp : g'.pendingCommands = Function.update g.pendingCommands
        (makeCommandKey (castDevice d) (castCommand c)) (some cmd))
      (hs : g'.submissions = g.submissions) (hn : SameCounts g g')

section Change
variable {g g' : Gateway} {e : Event}

theorem SameCounts.refl (g : Gateway) : SameCounts g g := ⟨rfl, rfl, rfl⟩

theorem enter_change (next : UInt16) {d : UInt8} {c : UInt16}
    (hfree : g.pendingCommands (makeCommandKey d c) = none) :
    Change g e (enter { g with nextGeneratedCommandId := next } d c) :=
  .entered d c hfree rfl rfl ⟨rfl, rfl, rfl⟩

theorem reserveId_free {pending : UInt32 → Option PendingCommand} {d : UInt8} {c last : UInt16}
    (tries : ℕ) (next : UInt16) (h : reserveId pending d tries next = (some c, last)) :
    pending (makeCommandKey d c) = none := by
  induction tries generalizing next with
  | zero => cases h
  | succ tries ih =>
    unfold reserveId at h
    dsimp only at h
    generalize (if next + 1 = 0 then 1 else next + 1) = candidate at h
    split_ifs at h with hused
    · exact ih _ h
    · obtain ⟨hc, -⟩ := Prod.mk.inj h
      obtain rfl := Option.some.inj hc
      exact Option.not_isSome_iff_eq_none.mp hused

theorem wake_change (h : Tracked g.pendingCommands g.submissions) (i : ℕ) (elapsed : Bool) :
    Change g (.wake i elapsed) (step g (.wake i elapsed)).1 := by
  unfold step
  dsimp only
  cases hi : g.submissions[i]? with
  | none => exact .idle rfl rfl (.refl g)
  | some s =>
    dsimp only
    by_cases hw : s.phase = .waiting
    · rw [if_neg (not_not.mpr hw)]
      have hl : s.live = true := decide_eq_true (Or.inr hw)
      obtain ⟨cmd, hcmd⟩ := Option.isSome_iff_exists.mp (h.entry i s hi hl)
      unfold waitCommandAck
      rw [hcmd]
      dsimp only
      by_cases hacked : cmd.acked = true
      · rw [if_pos hacked]
        have ha : ∀ r, Phase.acked cmd.ackResult = .acked r →
            g.pendingCommands s.key = some ⟨true, r⟩ := by
          rintro r ⟨⟩
          rw [hcmd, ← hacked]
        refine .resolved i s (.acked cmd.ackResult) hi hl rfl ha rfl rfl ⟨rfl, rfl, ?_⟩
        show g.commandTimeoutCount = g.commandTimeoutCount + 0
        rw [UInt64.add_zero]
      · rw [if_neg hacked]
        by_cases hout : elapsed = true ∨ ¬ g.running = true
        · rw [if_pos hout]
          refine .resolved i s .timedOut hi hl rfl (fun r h => nomatch h) rfl rfl ⟨rfl, ?_, rfl⟩
          show g.commandAckCount = g.commandAckCount + 0
          rw [UInt64.add_zero]
        · rw [if_neg hout]
          exact .idle rfl rfl (.refl g)
    · rw [if_pos hw]
      exact .idle rfl rfl (.refl g)

theorem sent_change (i : ℕ) (ok : Bool) : Change g (.sent i ok) (step g (.sent i ok)).1 := by
  unfold step
  dsimp only
  cases hi : g.submissions[i]? with
  | none => exact .idle rfl rfl (.refl g)
  | some s =>
    dsimp only
    by_cases hw : s.phase = .sending
    · rw [if_neg (not_not.mpr hw)]
      have hl : s.live = true := decide_eq_true (Or.inl hw)
      cases ok with
      | true => exact .moved i s .waiting hi hl rfl rfl rfl (.refl g)
      | false =>
        refine .resolved i s .sendFailed hi hl rfl (fun r h => nomatch h) rfl rfl ⟨rfl, ?_, ?_⟩
        · show g.commandAckCount = g.commandAckCount + 0
          rw [UInt64.add_zero]
        · show g.commandTimeoutCount = g.commandTimeoutCount + 0
          rw [UInt64.add_zero]
    · rw [if_pos hw]
      exact .idle rfl rfl (.refl g)

theorem ack_change (d c r : Int64) : Change g (.ack d c r) (step g (.ack d c r)).1 := by
  unfold step
  dsimp only
  by_cases hrange : d < 0 ∨ 255 < d
  · rw [if_pos hrange]
    exact .idle rfl rfl (.refl g)
  · rw [if_neg hrange]
    rw [not_or, Int64.not_lt, Int64.not_lt] at hrange
    unfold completeCommandAck
    cases hk : g.pendingCommands (makeCommandKey (castDevice d) (castCommand c)) with
    | none => exact .idle rfl rfl ⟨rfl, rfl, rfl⟩
    | some cmd =>
      exact .acked d c r _ rfl hrange.1 hrange.2 (by rw [hk]; rfl) rfl rfl (.refl g)

theorem step_change (h : Tracked g.pendingCommands g.submissions) (hc : Orderly g e) :
    Change g e (step g e).1 := by
  cases e with
  | execute d c =>
    unfold step
    dsimp only
    split_ifs with hused
    · exact .idle rfl rfl (.refl g)
    · exact enter_change g.nextGeneratedCommandId (Option.not_isSome_iff_eq_none.mp hused)
  | executeGenerated d =>
    show Change g _ (reservePendingCommand g d)
    unfold reservePendingCommand
    rcases hr : reserveId g.pendingCommands d 65535 g.nextGeneratedCommandId with ⟨_ | c, next⟩
    · exact .idle rfl rfl ⟨rfl, rfl, rfl⟩
    · exact enter_change next (reserveId_free _ _ hr)
  | track d c => exact enter_change g.nextGeneratedCommandId hc
  | sent i ok => exact sent_change i ok
  | wake i elapsed => exact wake_change h i elapsed
  | ack d c r => exact ack_change d c r
  | stop => exact .idle rfl rfl ⟨rfl, rfl, rfl⟩

theorem Change.tracked (hx : Change g e g') (h : Tracked g.pendingCommands g.submissions) :
    Tracked g'.pendingCommands g'.submissions := by
  cases hx with
  | idle hp hs => rw [hp, hs]; exact h
  | entered d c hfree hp hs => rw [hp, hs]; exact h.enter hfree
  | moved i s phase hi hl hl' hp hs => rw [hp, hs]; exact h.move hi hl hl'
  | resolved i s phase hi hl hl' ha hp hs => rw [hp, hs]; exact h.resolve hi hl hl'
  | acked d c r cmd he h0 h255 hsome hp hs =>
    rw [hp, hs]
    refine h.congr fun key => ?_
    by_cases hkey : key = makeCommandKey (castDevice d) (castCommand c)
    · rw [hkey, Function.update_self, hsome]
      rfl
    · rw [Function.update_of_ne hkey]

theorem Counted.of_set {i : ℕ} {s : Submission} {phase : Phase} (h : Counted g)
    (hi : g.submissions[i]? = some s) (hl : s.live = true)
    (hs : g'.submissions = g.submissions.set i { s with phase := phase })
    (hn : SameCounts { g with
      commandAckCount := g.commandAckCount + if phase.isAcked then 1 else 0,
      commandTimeoutCount := g.commandTimeoutCount + if phase = .timedOut then 1 else 0 } g') :
    Counted g' := by
  obtain ⟨hsub, hack, hout⟩ := hn
  obtain ⟨hnack, hnout, -⟩ := live_phase hl
  have hif : ∀ b : Bool, (if b = true then (1 : UInt64) else 0) = UInt64.ofNat (if b then 1 else 0) := by
    decide
  refine ⟨?_, ?_, ?_⟩
  · rw [hsub, hs, List.length_set]
    exact h.submits
  · rw [hack, hs, countP_setPhase _ hi hnack, UInt64.ofNat_add, ← h.acks]
    dsimp only
    rw [hif]
  · rw [hout, hs, countP_setPhase _ hi hnout, UInt64.ofNat_add, ← h.timeouts]
    dsimp only
    rw [← hif]
    simp only [decide_eq_true_eq]

theorem Change.counted (hx : Change g e g') (h : Counted g) : Counted g' := by
  cases hx with
  | idle hp hs hn => exact ⟨by rw [hn.1, hs, h.submits], by rw [hn.2.1, hs, h.acks],
      by rw [hn.2.2, hs, h.timeouts]⟩
  | entered d c hfree hp hs hn =>
    refine ⟨?_, ?_, ?_⟩
    · rw [hn.1, hs, List.length_append, UInt64.ofNat_add, ← h.submits]
      rfl
    · rw [hn.2.1, hs, List.countP_append]
      exact h.acks
    · rw [hn.2.2, hs, List.countP_append]
      exact h.timeouts
  | moved i s phase hi hl hl' hp hs hn =>
    obtain ⟨hack, hout, -⟩ := live_phase hl'
    refine h.of_set hi hl hs ?_
    dsimp only at hack hout
    rw [hack, if_neg (by simp), if_neg (of_decide_eq_false hout), UInt64.add_zero, UInt64.add_zero]
    exact hn
  | resolved i s phase hi hl hl' ha hp hs hn => exact h.of_set hi hl hs hn
  | acked d c r cmd he h0 h255 hsome hp hs hn => exact ⟨by rw [hn.1, hs, h.submits],
      by rw [hn.2.1, hs, h.acks], by rw [hn.2.2, hs, h.timeouts]⟩

theorem Change.fresh (hx : Change g e g') {s : Submission}
    (hs' : g'.submissions = g.submissions ++ [s]) : g.pendingCommands s.key = none := by
  -- otherwise the list has kept its length
  have hsame : g'.submissions.length ≠ g.submissions.length := by
    rw [hs', List.length_append, List.length_singleton]
    exact Nat.succ_ne_self _
  cases hx with
  | idle hp hs => exact absurd (by rw [hs]) hsame
  | entered d c hfree hp hs =>
    rw [hs, List.append_cancel_left_eq] at hs'
    rw [← List.singleton_injective hs']
    exact hfree
  | moved i x phase hi hl hl' hp hs => exact absurd (by rw [hs, List.length_set]) hsame
  | resolved i x phase hi hl hl' ha hp hs => exact absurd (by rw [hs, List.length_set]) hsame
  | acked d c r cmd he h0 h255 hsome hp hs => exact absurd (by rw [hs]) hsame

theorem Change.final (hx : Change g e g') {i : ℕ} {s : Submission} (hi : g.submissions[i]? = some s)
    (hl : s.live = false) : g'.submissions[i]? = some s := by
  -- only a command without outcome changes its phase
  have hset : ∀ (j : ℕ) (x y : Submission), g.submissions[j]? = some x → x.live = true →
      (g.submissions.set j y)[i]? = some s := by
    intro j x y hj hx
    rw [List.getElem?_set_ne, hi]
    rintro rfl
    obtain rfl := Option.some.inj (hj.symm.trans hi)
    rw [hl] at hx
    cases hx
  cases hx with
  | idle hp hs => rw [hs, hi]
  | entered d c hfree hp hs =>
    rw [hs, List.getElem?_append_left (List.getElem?_eq_some_iff.mp hi).1, hi]
  | moved j x phase hj hx hx' hp hs =>
    rw [hs]
    exact hset j x _ hj hx
  | resolved j x phase hj hx hx' ha hp hs =>
    rw [hs]
    exact hset j x _ hj hx
  | acked d c r cmd he h0 h255 hsome hp hs => rw [hs, hi]

theorem castDevice_toNat {d : Int64} (h0 : 0 ≤ d) (h255 : d ≤ 255) :
    d.toInt = (castDevice d).toNat := by
  have hhi : d.toInt ≤ 255 := Int64.le_iff_toInt_le.mp h255
  have hbits := Int64.toNat_toUInt64_of_le h0
  have hclamp := Int64.cast_toNatClampNeg d h0
  unfold castDevice
  rw [UInt64.toNat_toUInt8]
  omega

theorem Change.own (hx : Change g e g') (hc : Orderly g e)
    (ht : Tracked g.pendingCommands g.submissions) {i : ℕ} {s : Submission}
    (hi : g.submissions[i]? = some s) (hl : s.live = true) (hi' : g'.submissions[i]? = some s)
    (hne : g'.pendingCommands s.key ≠ g.pendingCommands s.key) : Answers s e := by
  cases hx with
  | idle hp => exact absurd (congrFun hp _) hne
  | entered d c hfree hp =>
    refine absurd ?_ hne
    rw [hp, Function.update_of_ne]
    intro hk
    have hsome := ht.entry i s hi hl
    rw [hk, hfree] at hsome
    cases hsome
  | moved j x phase hj hx hx' hp => exact absurd (congrFun hp _) hne
  | resolved j x phase hj hx hx' ha hp hs =>
    refine absurd ?_ hne
    rw [hp, Function.update_of_ne]
    intro hk
    -- it would be the command that ends
    obtain rfl := ht.unique i j s x hi hj hl hx hk
    rw [hs, List.getElem?_set_self (List.getElem?_eq_some_iff.mp hj).1] at hi'
    rw [← Option.some.inj hi'] at hl
    exact absurd (hx'.symm.trans hl) (by simp)
  | acked d c r cmd he h0 h255 hsome hp hs =>
    by_cases hk : s.key = makeCommandKey (castDevice d) (castCommand c)
    · obtain ⟨hd, hid⟩ := makeCommandKey_inj hk
      subst he
      exact ⟨d, c, r, rfl, by rw [hd]; exact castDevice_toNat h0 h255, by rw [hid]; exact hc hsome⟩
    · refine absurd ?_ hne
      rw [hp, Function.update_of_ne hk]

theorem Change.told (hx : Change g e g') {i : ℕ} {s s' : Submission} {r : UInt8}
    (hi : g.submissions[i]? = some s) (hl : s.live = true) (hi' : g'.submissions[i]? = some s')
    (hr : s'.phase = .acked r) : g.pendingCommands s.key = some ⟨true, r⟩ := by
  have hlt := (List.getElem?_eq_some_iff.mp hi).1
  -- a command that goes on is not told anything
  have hsame : g'.submissions[i]? = some s → g.pendingCommands s.key = some ⟨true, r⟩ := by
    intro hs
    obtain rfl := Option.some.inj (hi'.symm.trans hs)
    rw [Submission.live, hr] at hl
    cases hl
  cases hx with
  | idle hp hs => exact hsame (by rw [hs, hi])
  | entered d c hfree hp hs => exact hsame (by rw [hs, List.getElem?_append_left hlt, hi])
  | moved j x phase hj hx hx' hp hs =>
    rw [hs] at hi'
    rcases getElem?_set_cases hi' with ⟨rfl, rfl⟩ | ⟨hne, -⟩
    · rw [Submission.live, show phase = .acked r from hr] at hx'
      cases hx'
    · exact hsame (by rw [hs, List.getElem?_set_ne (Ne.symm hne), hi])
  | resolved j x phase hj hx hx' ha hp hs =>
    rw [hs] at hi'
    rcases getElem?_set_cases hi' with ⟨rfl, rfl⟩ | ⟨hne, -⟩
    · obtain rfl := Option.some.inj (hj.symm.trans hi)
      exact ha r hr
    · exact hsame (by rw [hs, List.getElem?_set_ne (Ne.symm hne), hi])
  | acked d c r' cmd he h0 h255 hsome hp hs => exact hsame (by rw [hs, hi])

end Change

theorem step_ends {g : Gateway} {e : Event} (ht : Tracked g.pendingCommands g.submissions) (i : ℕ)
    (s : Submission) (hi : g.submissions[i]? = some s)
    (he : (s.phase = .sending ∧ e = .sent i false) ∨ (s.phase = .waiting ∧ e = .wake i true)) :
    ∃ s' : Submission, (step g e).1.submissions[i]? = some s' ∧ s'.live = false := by
  have hlt := (List.getElem?_eq_some_iff.mp hi).1
  rcases he with ⟨hphase, rfl⟩ | ⟨hphase, rfl⟩
  · unfold step
    dsimp only
    rw [hi]
    dsimp only
    rw [if_neg (not_not.mpr hphase)]
    exact ⟨_, List.getElem?_set_self hlt, rfl⟩
  · obtain ⟨cmd, hcmd⟩ := Option.isSome_iff_exists.mp
      (ht.entry i s hi (decide_eq_true (Or.inr hphase)))
    unfold step
    dsimp only
    rw [hi]
    dsimp only
    rw [if_neg (not_not.mpr hphase)]
    unfold waitCommandAck
    rw [hcmd]
    dsimp only
    by_cases hacked : cmd.acked = true
    · rw [if_pos hacked]
      exact ⟨_, List.getElem?_set_self hlt, rfl⟩
    · rw [if_neg hacked, if_pos (Or.inl rfl)]
      exact ⟨_, List.getElem?_set_self hlt, rfl⟩

def Kept (g : Gateway) : Prop := Tracked g.pendingCommands g.submissions ∧ Counted g

theorem step_sound (g : Gateway) (e : Event) (h : Kept g) (hc : Orderly g e) :
    Kept (step g e).1 ∧ Sound g e := by
  obtain ⟨ht, hn⟩ := h
  have hx := step_change ht hc
  have hkept : Kept (step g e).1 := ⟨hx.tracked ht, hx.counted hn⟩
  refine ⟨hkept, ?_⟩
  constructor
  · exact fun s hs => hx.fresh hs
  · exact fun i s hi hl => hx.final hi hl
  · exact hkept.1
  · exact step_ends ht
  · exact fun i s hi hl hi' hne => hx.own hc ht hi hl hi' hne
  · exact fun i s s' r hi hl hi' hr => hx.told hi hl hi' hr
  · exact hkept.2.balance

theorem started_kept : Kept started := by
  refine ⟨⟨?_, ?_, ?_⟩, rfl, rfl, rfl⟩
  · intro i s hi
    cases hi
  · intro key hk
    cases hk
  · intro i j s s' hi
    cases hi

/-- In every run whose steps are orderly, commands are resolved once and by their own ACKs. -/
theorem resolved_once (es : List Event) (h : Always step Orderly started es) :
    Always step Sound started es :=
  Always.of_invariant step_sound started_kept h

/-- One command, acknowledged in time. -/
theorem resolved_once_alone :
    Always step Sound started [.execute 1 5, .sent 0 true, .ack 1 5 0, .wake 0 false] :=
  resolved_once _ ⟨trivial, trivial, fun _ => by decide, trivial, trivial⟩

/-- A command of the API, and a tracked one with the same ids. -/
def overwriting : List Event := [.execute 1 5, .sent 0 true, .track 1 5]

/-- An ACK for command 65541 of device 1. -/
def cutAck : List Event := [.execute 1 5, .sent 0 true, .ack 1 65541 0]

theorem not_resolved_once :
    ¬ Always step Sound started overwriting ∧ ¬ Always step Sound started cutAck := by
  constructor
  · rintro ⟨-, -, h, -⟩
    exact absurd (h.fresh ⟨1, 5, .sending⟩ rfl) (by decide)
  · rintro ⟨-, -, h, -⟩
    obtain ⟨d, c, r, he, -, hc⟩ := h.own 0 ⟨1, 5, .waiting⟩ rfl rfl rfl (by decide)
    cases he
    exact absurd hc (by decide)

end EdgeLink.Commands
