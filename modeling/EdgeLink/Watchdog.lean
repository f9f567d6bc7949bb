import EdgeLink.Machine

namespace EdgeLink.Watchdog
open Machine

def wdTaskMax : ℕ := 7

structure WatchdogEntry where
  used : Bool
  timeoutMs : UInt32
  lastKickMs : UInt32

/-- The 32-bit tick count at a time; a tick is a millisecond. -/
def tickMs (time : ℕ) : UInt32 := UInt32.ofNat time

def watchdogRegisterTask (tick : UInt32) (gWd : ℕ → WatchdogEntry) (id : ℕ) (timeout_ms : UInt32) :
    ℕ → WatchdogEntry :=
  if id ≥ wdTaskMax then gWd else Function.update gWd id ⟨true, timeout_ms, tick⟩

def watchdogKick (tick : UInt32) (gWd : ℕ → WatchdogEntry) (id : ℕ) : ℕ → WatchdogEntry :=
  if id ≥ wdTaskMax ∨ (gWd id).used = false then gWd
  else Function.update gWd id { gWd id with lastKickMs := tick }

/-- A tick that was read, and when. -/
structure Sample where
  now : UInt32
  time : ℕ

structure World where
  time : ℕ
  gWd : ℕ → WatchdogEntry
  /-- when each task was last kicked or registered -/
  kicked : ℕ → ℕ
  /-- the scan that is under way, with the next index -/
  scan : Option (Sample × ℕ)
  /-- the call of `Watchdog_IsTaskFresh` that is under way -/
  call : Option (Sample × ℕ)
  dead : Option ℕ

inductive Event
  | tick
  | kick (id : ℕ)
  | scan
  | compare
  | ask (id : ℕ)
  | answer

def sampleTick (w : World) : Sample := ⟨tickMs w.time, w.time⟩

def tooOld (now : UInt32) (e : WatchdogEntry) : Bool := now - e.lastKickMs > e.timeoutMs

/-- One round of the loop over the table. -/
def scanEntry (w : World) (s : Sample) (i : ℕ) : World :=
  if (w.gWd i).used = true ∧ tooOld s.now (w.gWd i) = true then
    { w with scan := none, dead := some i }
  else { w with scan := if i + 1 < wdTaskMax then some (s, i + 1) else none }

/-- The first half of `Watchdog_IsTaskFresh`: an unknown task is answered at once. -/
def askFresh (w : World) (id : ℕ) : World × Option Bool :=
  if id ≥ wdTaskMax ∨ (w.gWd id).used = false then (w, some false)
  else ({ w with call := some (sampleTick w, id) }, none)

/-- After `NVIC_SystemReset` nothing goes on. -/
def step (w : World) (e : Event) : World × Option Bool :=
  if w.dead.isSome then (w, none)
  else match e with
    | .tick => ({ w with time := w.time + 1 }, none)
    | .kick id =>
      ({ w with
          gWd := watchdogKick (tickMs w.time) w.gWd id
          kicked := Function.update w.kicked id w.time }, none)
    | .scan =>
      ({ w with scan := if w.scan.isNone then some (sampleTick w, 0) else w.scan }, none)
    | .compare =>
      match w.scan with
      | none => (w, none)
      | some (s, i) => (scanEntry w s i, none)
    | .ask id => if w.call.isNone then askFresh w id else (w, none)
    | .answer =>
      match w.call with
      | none => (w, none)
      | some (s, id) => ({ w with call := none }, some (!tooOld s.now (w.gWd id)))

/-- The scheduler starts with the tasks that were registered before it. -/
def start (tasks : List (ℕ × UInt32)) : World :=
  let gWd := tasks.foldl (fun gWd task => watchdogRegisterTask (tickMs 0) gWd task.1 task.2)
    fun _ => ⟨false, 0, 0⟩
  ⟨0, gWd, fun _ => 0, none, none, none⟩

def World.registered (w : World) (id : ℕ) : Prop := id < wdTaskMax ∧ (w.gWd id).used = true

def World.timeout (w : World) (id : ℕ) : ℕ := (w.gWd id).timeoutMs.toNat

/-- The tick does not run past a time-out: each task kicks in each window. -/
def Kicks (w : World) : Event → Prop
  | .tick => ∀ id < wdTaskMax, (w.gWd id).used = true → w.time + 1 ≤ w.kicked id + w.timeout id
  | _ => True

instance (w : World) (id : ℕ) : Decidable (w.registered id) := inferInstanceAs (Decidable (_ ∧ _))

/-- The task was not kicked in a later millisecond than that of the sample. -/
def Undisturbed (w : World) : Event → Prop
  | .compare => ∀ r ∈ w.scan, w.registered r.2 → w.kicked r.2 ≤ r.1.time
  | .answer => ∀ r ∈ w.call, w.registered r.2 → w.kicked r.2 ≤ r.1.time
  | _ => True

instance (w : World) (e : Event) : Decidable (Kicks w e) :=
  match e with
  | .tick => inferInstanceAs (Decidable (∀ id < wdTaskMax, _ → _))
  | .kick _ | .scan | .compare | .ask _ | .answer => isTrue trivial

instance (w : World) (e : Event) : Decidable (Undisturbed w e) :=
  match e with
  | .compare => inferInstanceAs (Decidable (∀ r ∈ w.scan, _ → _))
  | .answer => inferInstanceAs (Decidable (∀ r ∈ w.call, _ → _))
  | .tick | .kick _ | .scan | .ask _ => isTrue trivial

/-- No task is declared dead, and each registered task is answered to be fresh. -/
def Calm (w : World) (e : Event) : Prop :=
  (step w e).1.dead = none ∧ ((step w e).2 = some false → ∃ id, e = .ask id ∧ ¬ w.registered id)

/-- At the time of the sample the task was late. -/
def World.late (w : World) (s : Sample) (id : ℕ) : Prop :=
  w.kicked id + w.timeout id < s.time ∧ s.time < w.kicked id + 2 ^ 31

/-- A task that is late when its entry is compared is declared dead, and a scan that ends without a
dead task has met no late task. -/
structure Detects (w : World) (e : Event) : Prop where
  found : ∀ s i, w.dead = none → w.scan = some (s, i) → e = .compare → w.registered i →
    w.late s i → (step w e).1.dead = some i
  ended : ∀ s i, w.scan = some (s, i) → (step w e).1.scan = none → (step w e).1.dead = none →
    ∀ id, w.registered id → ¬ w.late s id

theorem elapsed {a b : ℕ} (hle : a ≤ b) (hlt : b < a + 2 ^ 32) :
    (tickMs b - tickMs a).toNat = b - a := by
  unfold tickMs
  rw [UInt32.toNat_sub, UInt32.toNat_ofNat', UInt32.toNat_ofNat']
  omega

/-- The comparison is right for a kick that is not newer than the sample. -/
theorem tooOld_iff {e : WatchdogEntry} {kicked time : ℕ} (hkick : e.lastKickMs = tickMs kicked)
    (hle : kicked ≤ time) (hlt : time < kicked + 2 ^ 32) :
    tooOld (tickMs time) e = true ↔ kicked + e.timeoutMs.toNat < time := by
  unfold tooOld
  rw [decide_eq_true_iff, hkick, gt_iff_lt, UInt32.lt_iff_toNat_lt, elapsed hle hlt]
  omega

theorem kick_entry (tick : UInt32) (gWd : ℕ → WatchdogEntry) (id j : ℕ) :
    (watchdogKick tick gWd id j).used = (gWd j).used ∧
      (watchdogKick tick gWd id j).timeoutMs = (gWd j).timeoutMs := by
  unfold watchdogKick
  split_ifs with hguard
  · exact ⟨rfl, rfl⟩
  · by_cases hj : j = id
    · subst hj
      rw [Function.update_self]
      exact ⟨rfl, rfl⟩
    · rw [Function.update_of_ne hj]
      exact ⟨rfl, rfl⟩

theorem kick_registered {w : World} (id : ℕ) {j : ℕ} {tick : UInt32} (hj : w.registered j) :
    (watchdogKick tick w.gWd id j).lastKickMs = if j = id then tick else (w.gWd j).lastKickMs := by
  unfold watchdogKick
  by_cases hid : j = id
  · subst hid
    have hguard : ¬(j ≥ wdTaskMax ∨ (w.gWd j).used = false) := by
      rintro (hrange | hunused)
      · exact absurd hj.1 (not_lt.mpr hrange)
      · exact Bool.noConfusion (hunused.symm.trans hj.2)
    rw [if_neg hguard, if_pos rfl, Function.update_self]
  · rw [if_neg hid]
    split_ifs with hguard
    · rfl
    · rw [Function.update_of_ne hid]

/-- What the table and the readers remember, whoever kicks. -/
structure Exact (w : World) : Prop where
  kicks : ∀ id, w.registered id → (w.gWd id).lastKickMs = tickMs (w.kicked id)
  past : ∀ id, w.kicked id ≤ w.time
  scan : ∀ s i, w.scan = some (s, i) → s.now = tickMs s.time ∧ s.time ≤ w.time ∧ i < wdTaskMax ∧
    ∀ j < i, w.registered j → ¬ w.late s j
  call : ∀ s id, w.call = some (s, id) → s.now = tickMs s.time ∧ s.time ≤ w.time ∧ w.registered id

/-- A late task is found. -/
theorem late_tooOld {w : World} (hw : Exact w) {s : Sample} (hs : s.now = tickMs s.time) {id : ℕ}
    (hid : w.registered id) (hlate : w.late s id) : tooOld s.now (w.gWd id) = true := by
  obtain ⟨hover, hnear⟩ := hlate
  rw [hs, tooOld_iff (hw.kicks id hid) (by omega) (by omega)]
  exact hover

/-- A task that kicks in time is not found, unless it has kicked after the sample. -/
theorem punctual_fresh {w : World} (hw : Exact w) {s : Sample} (hs : s.now = tickMs s.time) {id : ℕ}
    (hid : w.registered id) (hkick : w.kicked id ≤ s.time)
    (hintime : s.time ≤ w.kicked id + w.timeout id) : tooOld s.now (w.gWd id) = false := by
  have htimeout : w.timeout id < 2 ^ 32 := (w.gWd id).timeoutMs.toNat_lt
  rw [Bool.eq_false_iff, hs, Ne, tooOld_iff (hw.kicks id hid) hkick (by omega), not_lt]
  exact hintime

theorem tick_exact {w : World} (hw : Exact w) : Exact { w with time := w.time + 1 } := by
  refine ⟨hw.kicks, fun id => (hw.past id).trans (Nat.le_succ _), fun s i h => ?_, fun s id h => ?_⟩
  · obtain ⟨hnow, hpast, hrest⟩ := hw.scan s i h
    exact ⟨hnow, hpast.trans (Nat.le_succ _), hrest⟩
  · obtain ⟨hnow, hpast, hid⟩ := hw.call s id h
    exact ⟨hnow, hpast.trans (Nat.le_succ _), hid⟩

def kickEvent (w : World) (id : ℕ) : World :=
  { w with
    gWd := watchdogKick (tickMs w.time) w.gWd id
    kicked := Function.update w.kicked id w.time }

theorem kickEvent_registered (w : World) (id j : ℕ) :
    (kickEvent w id).registered j ↔ w.registered j := by
  unfold World.registered kickEvent
  rw [(kick_entry _ _ _ _).1]

theorem kickEvent_timeout (w : World) (id j : ℕ) : (kickEvent w id).timeout j = w.timeout j := by
  unfold World.timeout kickEvent
  rw [(kick_entry _ _ _ _).2]

theorem kickEvent_exact {w : World} (hw : Exact w) (id : ℕ) : Exact (kickEvent w id) := by
  have hkicked : ∀ j, (kickEvent w id).kicked j = if j = id then w.time else w.kicked j :=
    fun j => Function.update_apply _ _ _ _
  refine ⟨fun j hj => ?_, fun j => ?_, fun s i h => ?_, fun s j h => ?_⟩
  · have hj' := (kickEvent_registered w id j).mp hj
    refine (kick_registered id hj').trans ?_
    rw [hkicked]
    split_ifs
    · rfl
    · exact hw.kicks j hj'
  · rw [hkicked]
    split_ifs
    · exact le_rfl
    · exact hw.past j
  · obtain ⟨hnow, hpast, hi, hfound⟩ := hw.scan s i h
    refine ⟨hnow, hpast, hi, fun j hj hreg hlate => ?_⟩
    unfold World.late at hlate
    rw [kickEvent_timeout, hkicked] at hlate
    split_ifs at hlate
    · omega
    · exact hfound j hj ((kickEvent_registered w id j).mp hreg) hlate
  · obtain ⟨hnow, hpast, hreg⟩ := hw.call s j h
    exact ⟨hnow, hpast, (kickEvent_registered w id j).mpr hreg⟩

/-- The scan goes on past an entry only when its task is not late. -/
theorem scanEntry_exact {w : World} (hw : Exact w) {s : Sample} {i : ℕ}
    (hscan : w.scan = some (s, i)) :
    Exact (scanEntry w s i) ∧ ((scanEntry w s i).scan = none → (scanEntry w s i).dead = none →
      ∀ id, w.registered id → ¬ w.late s id) := by
  obtain ⟨hnow, hpast, hi, hfound⟩ := hw.scan s i hscan
  unfold scanEntry
  by_cases hold : (w.gWd i).used = true ∧ tooOld s.now (w.gWd i) = true
  · rw [if_pos hold]
    exact ⟨⟨hw.kicks, hw.past, nofun, hw.call⟩, fun _ hdead => nomatch hdead⟩
  · rw [if_neg hold]
    have hnext : ∀ j < i + 1, w.registered j → ¬ w.late s j := by
      intro j hj hreg hlate
      rcases Nat.lt_succ_iff_lt_or_eq.mp hj with hlt | rfl
      · exact hfound j hlt hreg hlate
      -- the entry was compared just now and found in time
      · exact hold ⟨hreg.2, late_tooOld hw hnow hreg hlate⟩
    refine ⟨⟨hw.kicks, hw.past, fun s' i' h => ?_, hw.call⟩, fun hended _ id hid => ?_⟩
    · dsimp only at h
      split_ifs at h with hlt
      obtain ⟨rfl, rfl⟩ := Prod.mk.inj (Option.some.inj h)
      exact ⟨hnow, hpast, hlt, hnext⟩
    · dsimp only at hended
      split_ifs at hended with hlt
      exact hnext id (hid.1.trans_le (not_lt.mp hlt)) hid

theorem askFresh_exact {w : World} (hw : Exact w) (id : ℕ) : Exact (askFresh w id).1 := by
  unfold askFresh
  by_cases hguard : id ≥ wdTaskMax ∨ (w.gWd id).used = false
  · rw [if_pos hguard]
    exact hw
  · rw [if_neg hguard]
    obtain ⟨hrange, hused⟩ := not_or.mp hguard
    refine ⟨hw.kicks, hw.past, hw.scan, fun s id' h => ?_⟩
    obtain ⟨rfl, rfl⟩ := Prod.mk.inj (Option.some.inj h)
    exact ⟨rfl, le_rfl, not_le.mp hrange, Bool.eq_true_of_not_eq_false hused⟩

theorem compare_found {w : World} (hw : Exact w) (halive : w.dead = none) {s : Sample} {i : ℕ}
    (hscan : w.scan = some (s, i)) (hreg : w.registered i) (hlate : w.late s i) :
    (step w .compare).1.dead = some i := by
  have hold := late_tooOld hw (hw.scan s i hscan).1 hreg hlate
  unfold step
  rw [halive, hscan]
  dsimp only [scanEntry]
  rw [if_neg (by decide), if_pos ⟨hreg.2, hold⟩]

theorem step_ended (w : World) (e : Event) (hw : Exact w) : Exact (step w e).1 ∧
    ∀ s i, w.scan = some (s, i) → (step w e).1.scan = none → (step w e).1.dead = none →
      ∀ id, w.registered id → ¬ w.late s id := by
  by_cases hdead : w.dead.isSome = true
  · have hstep : step w e = (w, none) := if_pos hdead
    rw [hstep]
    exact ⟨hw, fun s i hscan hended => nomatch hscan.symm.trans hended⟩
  have halive : step w e = _ := if_neg hdead
  rw [halive]
  cases e with
  | tick => exact ⟨tick_exact hw, fun s i hscan hended => nomatch hscan.symm.trans hended⟩
  | kick id => exact ⟨kickEvent_exact hw id, fun s i hscan hended => nomatch hscan.symm.trans hended⟩
  | scan =>
    dsimp only
    cases hscan : w.scan with
    | none =>
      refine ⟨⟨hw.kicks, hw.past, fun s i h => ?_, hw.call⟩, nofun⟩
      obtain ⟨rfl, rfl⟩ := Prod.mk.inj (Option.some.inj h)
      exact ⟨rfl, le_rfl, by decide, nofun⟩
    | some r =>
      refine ⟨⟨hw.kicks, hw.past, fun s i h => ?_, hw.call⟩, fun s i _ hended => nomatch hended⟩
      exact hw.scan s i (hscan.trans h)
  | compare =>
    dsimp only
    cases hscan : w.scan with
    | none => exact ⟨hw, nofun⟩
    | some r =>
      -- only a comparison can end a scan
      obtain ⟨hafter, hfound⟩ := scanEntry_exact hw hscan
      refine ⟨hafter, fun s i h hended hquiet => ?_⟩
      obtain rfl := Option.some.inj h
      exact hfound hended hquiet
  | ask id =>
    dsimp only
    have hscan : (if w.call.isNone then askFresh w id else (w, none)).1.scan = w.scan := by
      unfold askFresh
      split_ifs <;> rfl
    refine ⟨?_, fun s i h hended => nomatch h.symm.trans (hscan.symm.trans hended)⟩
    split_ifs
    · exact askFresh_exact hw id
    · exact hw
  | answer =>
    dsimp only
    cases hcall : w.call with
    | none => exact ⟨hw, fun s i hscan hended => nomatch hscan.symm.trans hended⟩
    | some r =>
      exact ⟨⟨hw.kicks, hw.past, hw.scan, nofun⟩,
        fun s i hscan hended => nomatch hscan.symm.trans hended⟩

theorem step_exact (w : World) (e : Event) (hw : Exact w) : Exact (step w e).1 ∧ Detects w e := by
  obtain ⟨hafter, hended⟩ := step_ended w e hw
  refine ⟨hafter, fun s i halive hscan he hreg hlate => ?_, hended⟩
  subst he
  exact compare_found hw halive hscan hreg hlate

/-- The system is up, and each task has kicked within its time-out. -/
structure Healthy (w : World) : Prop where
  exact : Exact w
  alive : w.dead = none
  kicks : ∀ id, w.registered id → w.time ≤ w.kicked id + w.timeout id

theorem step_healthy (w : World) (e : Event) (hw : Healthy w) (he : Kicks w e ∧ Undisturbed w e) :
    Healthy (step w e).1 ∧ Calm w e := by
  have hexact := (step_exact w e hw.exact).1
  have halive : step w e = _ := if_neg (show ¬ w.dead.isSome = true by rw [hw.alive]; decide)
  have hcurrent : ∀ s : Sample, s.time ≤ w.time → ∀ id, w.registered id →
      s.time ≤ w.kicked id + w.timeout id := fun s hs id hid => hs.trans (hw.kicks id hid)
  unfold Calm
  rw [halive] at hexact ⊢
  cases e with
  | tick => exact ⟨⟨hexact, hw.alive, fun id hid => he.1 id hid.1 hid.2⟩, hw.alive, nofun⟩
  | kick id =>
    refine ⟨⟨hexact, hw.alive, fun j hj => ?_⟩, hw.alive, nofun⟩
    have hj' := hw.kicks j ((kickEvent_registered w id j).mp hj)
    have hkicked : (kickEvent w id).kicked j = if j = id then w.time else w.kicked j :=
      Function.update_apply _ _ _ _
    change w.time ≤ (kickEvent w id).kicked j + (kickEvent w id).timeout j
    rw [kickEvent_timeout, hkicked]
    split_ifs
    · exact Nat.le_add_right _ _
    · exact hj'
  | scan => exact ⟨⟨hexact, hw.alive, hw.kicks⟩, hw.alive, nofun⟩
  | compare =>
    dsimp only at hexact ⊢
    cases hscan : w.scan with
    | none => exact ⟨hw, hw.alive, nofun⟩
    | some r =>
      rw [hscan] at hexact
      obtain ⟨s, i⟩ := r
      obtain ⟨hnow, hpast, hi, -⟩ := hw.exact.scan s i hscan
      have hfresh : ¬((w.gWd i).used = true ∧ tooOld s.now (w.gWd i) = true) := by
        rintro ⟨hused, hold⟩
        -- a kick after the sample would make the difference wrap
        have hkick : w.kicked i ≤ s.time := he.2 (s, i) hscan ⟨hi, hused⟩
        rw [punctual_fresh hw.exact hnow ⟨hi, hused⟩ hkick (hcurrent s hpast i ⟨hi, hused⟩)] at hold
        cases hold
      have hentry : scanEntry w s i =
          { w with scan := if i + 1 < wdTaskMax then some (s, i + 1) else none } := if_neg hfresh
      dsimp only at hexact ⊢
      rw [hentry] at hexact ⊢
      exact ⟨⟨hexact, hw.alive, hw.kicks⟩, hw.alive, nofun⟩
  | ask id =>
    dsimp only at hexact ⊢
    by_cases hcall : w.call.isNone = true
    · rw [if_pos hcall] at hexact ⊢
      unfold askFresh at hexact ⊢
      by_cases hguard : id ≥ wdTaskMax ∨ (w.gWd id).used = false
      · rw [if_pos hguard]
        refine ⟨hw, hw.alive, fun _ => ⟨id, rfl, fun hreg => ?_⟩⟩
        rcases hguard with hrange | hunused
        · exact absurd hreg.1 (not_lt.mpr hrange)
        · exact Bool.noConfusion (hunused.symm.trans hreg.2)
      · rw [if_neg hguard] at hexact ⊢
        exact ⟨⟨hexact, hw.alive, hw.kicks⟩, hw.alive, nofun⟩
    · rw [if_neg hcall]
      exact ⟨hw, hw.alive, nofun⟩
  | answer =>
    dsimp only at hexact ⊢
    cases hcall : w.call with
    | none => exact ⟨hw, hw.alive, nofun⟩
    | some r =>
      rw [hcall] at hexact
      obtain ⟨s, id⟩ := r
      obtain ⟨hnow, hpast, hreg⟩ := hw.exact.call s id hcall
      have hfresh : tooOld s.now (w.gWd id) = false :=
        punctual_fresh hw.exact hnow hreg (he.2 (s, id) hcall hreg) (hcurrent s hpast id hreg)
      refine ⟨⟨hexact, hw.alive, hw.kicks⟩, hw.alive, fun hanswer => ?_⟩
      dsimp only at hanswer
      rw [hfresh] at hanswer
      cases hanswer

theorem start_healthy (tasks : List (ℕ × UInt32)) : Healthy (start tasks) := by
  have hzero : ∀ id, ((start tasks).gWd id).lastKickMs = tickMs 0 := by
    intro id
    unfold start
    dsimp only
    generalize hgWd : (fun _ => ⟨false, 0, 0⟩ : ℕ → WatchdogEntry) = gWd
    have hempty : (gWd id).lastKickMs = tickMs 0 := by
      rw [← hgWd]
      rfl
    clear hgWd
    induction tasks generalizing gWd with
    | nil => exact hempty
    | cons task tasks ih =>
      refine ih _ ?_
      dsimp only [watchdogRegisterTask]
      split_ifs
      · exact hempty
      · rw [Function.update_apply]
        split_ifs
        · rfl
        · exact hempty
  exact ⟨⟨fun id _ => hzero id, fun _ => le_rfl, nofun, nofun⟩, rfl, fun _ _ => Nat.zero_le _⟩

/-- While every task kicks in time nothing is declared dead in a run in which no task kicks between
a sample and its comparison; and a late task is found in every run. -/
theorem calm_and_detects (tasks : List (ℕ × UInt32)) (es : List Event) :
    (Always step Kicks (start tasks) es → Always step Undisturbed (start tasks) es →
      Always step Calm (start tasks) es) ∧ Always step Detects (start tasks) es := by
  have hstart := start_healthy tasks
  constructor
  · intro hkicks hundisturbed
    exact Always.of_invariant (I := Healthy) step_healthy hstart (hkicks.and hundisturbed)
  · have hall : Always step (fun _ _ => True) (start tasks) es :=
      Always.of_forall step (fun _ _ _ => trivial) _
    exact Always.of_invariant (I := Exact) (fun w e hw _ => step_exact w e hw) hstart.exact hall

/-- What `main` registers. -/
def mainTasks : List (ℕ × UInt32) :=
  [(0, 6000), (1, 6000), (2, 6000), (3, 12000), (4, 6000), (5, 6000), (6, 6000)]

/-- A kick, then a whole scan, and a question. -/
def scanRun : List Event :=
  .tick :: .kick 1 :: .scan :: List.replicate 7 .compare ++ [.ask 1, .answer]

theorem scanRun_calm :
    Always step Calm (start mainTasks) scanRun ∧ Always step Detects (start mainTasks) scanRun := by
  have h := calm_and_detects mainTasks scanRun
  exact ⟨h.1 (by decide +kernel) (by decide +kernel), h.2⟩

/-- A task kicks while the scan is under way, a millisecond after the tick was read. -/
def kickedDuringScan : List Event := [.scan, .tick, .kick 1, .compare, .compare]

theorem kickedDuringScan_resets :
    Always step Kicks (start mainTasks) kickedDuringScan ∧
      ¬ Always step Calm (start mainTasks) kickedDuringScan := by
  refine ⟨by decide +kernel, fun h => ?_⟩
  have hcalm : (run step (start mainTasks) kickedDuringScan).dead = none := h.2.2.2.2.1.1
  have hdead : (run step (start mainTasks) kickedDuringScan).dead = some 1 := by
    decide +kernel
  exact nomatch hdead.symm.trans hcalm

end EdgeLink.Watchdog
