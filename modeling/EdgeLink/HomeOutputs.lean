import EdgeLink.HomeTasks

namespace EdgeLink.Home
open EdgeLink.Report (SmartHomeState)

/-! The LED and the buzzer against what the last round of the alarm task went by. -/

/-- The LED task has nothing to do. -/
def World.LedRests (w : World) : Prop := w.ledTask = .waiting ∧ w.mailbox = none

instance (w : World) : Decidable w.LedRests :=
  match ht : w.ledTask, hm : w.mailbox with
  | .waiting, none => isTrue ⟨ht, hm⟩
  | .waiting, some _ => isFalse fun h => by cases hm.symm.trans h.2
  | .notified _, _ => isFalse fun h => by cases ht.symm.trans h.1
  | .written _, _ => isFalse fun h => by cases ht.symm.trans h.1

structure Seen where
  /-- the state and the alarm that the last round went by -/
  round : Option (SmartHomeState × Bool)
  /-- the LED task had nothing to do when that round looked -/
  quiet : Bool
  /-- the last value the LED task was notified of -/
  last : Option Bool

def Seen.next (w : World) (g : Seen) (e : Event) (_ : Output) : Seen :=
  match e with
  | .alarm =>
    match w.alarm with
    | .configured cfg =>
      { g with round := some (w.state, alarmNow cfg w.state), quiet := decide w.LedRests }
    | .notify s a => { g with last := some (desiredLed s a) }
    | _ => g
  | _ => g

/-- The way of a notification to the pin. -/
structure LedInv (led : Bool) (w : World) (g : Seen) : Prop where
  mailbox : ∀ v, w.mailbox = some v → g.last = some v
  notified : ∀ v, w.ledTask = .notified v → w.mailbox = none → g.last = some v
  written : ∀ v, w.ledTask = .written v → w.led = v ∧ (w.mailbox = none → g.last = some v)
  rests : w.LedRests → ∀ v, g.last = some v → w.led = v
  fresh : g.last = none → w.led = led ∧ w.LedRests

/-- By the place of the alarm task. -/
def AlarmInv (w : World) (g : Seen) : Prop :=
  match w.alarm with
  | .idle | .configured _ =>
    w.beep = w.state.buzzerOn ∧ (w.LedRests → w.state.ledOn = g.last.getD false) ∧
      ∀ s a, g.round = some (s, a) → w.state.alarmOn = a ∧
        w.state.buzzerOn = desiredBuzzer s a ∧
        (g.quiet = true → g.last.getD false = desiredLed s a)
  | .judged s a =>
    w.beep = w.state.buzzerOn ∧ (w.LedRests → w.state.ledOn = g.last.getD false) ∧
      g.round = some (s, a) ∧ s.buzzerOn = w.state.buzzerOn ∧
      (g.quiet = true → g.last.getD false = s.ledOn)
  | .led s a =>
    w.beep = w.state.buzzerOn ∧ (w.LedRests → w.state.ledOn = g.last.getD false) ∧
      g.round = some (s, a) ∧ s.buzzerOn = w.state.buzzerOn ∧ w.state.alarmOn = a ∧
      (g.quiet = true → g.last.getD false = s.ledOn)
  | .notify s a =>
    w.beep = w.state.buzzerOn ∧ g.round = some (s, a) ∧ s.buzzerOn = w.state.buzzerOn ∧
      w.state.alarmOn = a
  | .buzzer s a =>
    w.beep = w.state.buzzerOn ∧ (w.LedRests → w.state.ledOn = g.last.getD false) ∧
      g.round = some (s, a) ∧ s.buzzerOn = w.state.buzzerOn ∧ w.state.alarmOn = a ∧
      (g.quiet = true → g.last.getD false = desiredLed s a)
  | .beep s a =>
    (w.LedRests → w.state.ledOn = g.last.getD false) ∧ g.round = some (s, a) ∧
      w.state.buzzerOn = desiredBuzzer s a ∧ w.state.alarmOn = a ∧
      (g.quiet = true → g.last.getD false = desiredLed s a)
  | .events s a =>
    w.beep = w.state.buzzerOn ∧ (w.LedRests → w.state.ledOn = g.last.getD false) ∧
      g.round = some (s, a) ∧ w.state.buzzerOn = desiredBuzzer s a ∧ w.state.alarmOn = a ∧
      (g.quiet = true → g.last.getD false = desiredLed s a)

section
variable {led : Bool} {w : World} {g : Seen}

/-- A step that touches nothing of the alarm and LED tasks. -/
theorem AlarmInv.frame {w' : World} (h : AlarmInv w g) (ha : w'.alarm = w.alarm)
    (hb : w'.beep = w.beep) (hl : w'.LedRests ↔ w.LedRests)
    (hbuzz : w'.state.buzzerOn = w.state.buzzerOn) (hled : w'.state.ledOn = w.state.ledOn)
    (halarm : w'.state.alarmOn = w.state.alarmOn) : AlarmInv w' g := by
  unfold AlarmInv at *
  rw [ha]
  cases hp : w.alarm <;> rw [hp] at h <;> simpa only [hb, hl, hbuzz, hled, halarm] using h

theorem LedInv.frame {w' : World} (h : LedInv led w g) (hm : w'.mailbox = w.mailbox)
    (ht : w'.ledTask = w.ledTask) (hl : w'.led = w.led) : LedInv led w' g where
  mailbox := by rw [hm]; exact h.mailbox
  notified := by rw [hm, ht]; exact h.notified
  written := by rw [hm, ht, hl]; exact h.written
  rests := by unfold World.LedRests; rw [hm, ht, hl]; exact h.rests
  fresh := by unfold World.LedRests; rw [hm, ht, hl]; exact h.fresh

theorem LedInv.notify (h : LedInv led w g) (s : SmartHomeState) (a : Bool) (place : AlarmPlace) :
    LedInv led { w with mailbox := some (desiredLed s a), alarm := place }
      { g with last := some (desiredLed s a) } where
  mailbox v hv := hv
  notified v _ hm := by cases hm
  written v hv := ⟨(h.written v hv).1, fun hm => by cases hm⟩
  rests hr := by cases hr.2
  fresh hl := by cases hl

theorem LedInv.ledStep (h : LedInv led w g) : LedInv led w.ledStep.1 g := by
  unfold World.ledStep
  cases ht : w.ledTask with
  | waiting =>
    dsimp only
    cases hm : w.mailbox with
    | none => exact h
    | some value =>
      have hlast := h.mailbox value hm
      constructor
      · intro v hv
        cases hv
      · intro v hv _
        exact (LedPlace.notified.inj hv) ▸ hlast
      · intro v hv
        cases hv
      · intro hr
        cases hr.1
      · intro hl
        cases hlast.symm.trans hl
  | notified value =>
    have hlast := h.notified value ht
    constructor
    · exact h.mailbox
    · intro v hv
      cases hv
    · intro v hv
      obtain rfl := LedPlace.written.inj hv
      exact ⟨rfl, hlast⟩
    · intro hr
      cases hr.1
    · intro hl
      have hrests := (h.fresh hl).2.1
      cases ht.symm.trans hrests
  | written value =>
    obtain ⟨hled, hlast⟩ := h.written value ht
    constructor
    · exact h.mailbox
    · intro v hv
      cases hv
    · intro v hv
      cases hv
    · intro hr v hv
      have hval := hlast hr.2
      exact hled.trans (Option.some.inj (hval.symm.trans hv))
    · intro hl
      have hrests := (h.fresh hl).2.1
      cases ht.symm.trans hrests

/-- After the LED task has gone on, the shared flag is right if the task rests. -/
theorem ledStep_rests (h : LedInv led w g) (hl : w.LedRests → w.state.ledOn = g.last.getD false)
    (hr : w.ledStep.1.LedRests) : w.ledStep.1.state.ledOn = g.last.getD false := by
  unfold World.ledStep at *
  cases ht : w.ledTask with
  | waiting =>
    rw [ht] at hr
    dsimp only at hr ⊢
    cases hm : w.mailbox with
    | none =>
      rw [hm] at hr
      exact hl hr
    | some value =>
      rw [hm] at hr
      cases hr.1
  | notified value =>
    rw [ht] at hr
    cases hr.1
  | written value =>
    rw [ht] at hr
    rw [(h.written value ht).2 hr.2]
    rfl

theorem ledStep_frame : w.ledStep.1.alarm = w.alarm ∧ w.ledStep.1.beep = w.beep ∧
    w.ledStep.1.state.buzzerOn = w.state.buzzerOn ∧ w.ledStep.1.state.alarmOn = w.state.alarmOn := by
  unfold World.ledStep
  cases w.ledTask with
  | waiting => cases w.mailbox <;> exact ⟨rfl, rfl, rfl, rfl⟩
  | notified value => exact ⟨rfl, rfl, rfl, rfl⟩
  | written value => exact ⟨rfl, rfl, rfl, rfl⟩

theorem AlarmInv.ledStep (h : AlarmInv w g) (hl : LedInv led w g) : AlarmInv w.ledStep.1 g := by
  obtain ⟨ha, hb, hbuzz, halarm⟩ := ledStep_frame (w := w)
  unfold AlarmInv at *
  rw [ha]
  cases hp : w.alarm <;> rw [hp] at h <;> simp only [hb, hbuzz, halarm]
  case idle | configured => exact ⟨h.1, ledStep_rests hl h.2.1, h.2.2⟩
  case judged | led | buzzer | events => exact ⟨h.1, ledStep_rests hl h.2.1, h.2.2⟩
  case notify => exact h
  case beep => exact ⟨ledStep_rests hl h.1, h.2⟩

theorem LedInv.alarmStep (h : LedInv led w g) :
    LedInv led w.alarmStep.1 (Seen.next w g .alarm w.alarmStep.2) := by
  unfold World.alarmStep Seen.next
  cases hp : w.alarm with
  | idle => exact h.frame rfl rfl rfl
  | configured cfg => exact { h with }
  | judged s a => exact h.frame rfl rfl rfl
  | led s a =>
    dsimp only
    split
    · exact h.frame rfl rfl rfl
    · exact h.frame rfl rfl rfl
  | notify s a => exact h.notify s a _
  | buzzer s a =>
    dsimp only
    split
    · exact h.frame rfl rfl rfl
    · exact h.frame rfl rfl rfl
  | beep s a => exact h.frame rfl rfl rfl
  | events s a =>
    dsimp only
    split
    · unfold World.reportAlarmEvent
      split
      · exact h.frame rfl rfl rfl
      · exact h.frame rfl rfl rfl
    · exact h.frame rfl rfl rfl

theorem AlarmInv.alarmStep (h : AlarmInv w g) :
    AlarmInv w.alarmStep.1 (Seen.next w g .alarm w.alarmStep.2) := by
  unfold AlarmInv at h
  unfold World.alarmStep Seen.next
  cases hp : w.alarm with
  | idle =>
    rw [hp] at h
    exact h
  | configured cfg =>
    rw [hp] at h
    refine ⟨h.1, h.2.1, rfl, rfl, fun hq => ?_⟩
    exact (h.2.1 (of_decide_eq_true hq)).symm
  | judged s a =>
    rw [hp] at h
    exact ⟨h.1, h.2.1, h.2.2.1, h.2.2.2.1, rfl, h.2.2.2.2⟩
  | led s a =>
    rw [hp] at h
    dsimp only
    by_cases hne : s.ledOn ≠ desiredLed s a
    · rw [if_pos hne]
      exact ⟨h.1, h.2.2.1, h.2.2.2.1, h.2.2.2.2.1⟩
    · rw [if_neg hne]
      refine ⟨h.1, h.2.1, h.2.2.1, h.2.2.2.1, h.2.2.2.2.1, fun hq => ?_⟩
      exact (h.2.2.2.2.2 hq).trans (not_not.mp hne)
  | notify s a =>
    rw [hp] at h
    refine ⟨h.1, fun hr => ?_, h.2.1, h.2.2.1, h.2.2.2, fun _ => rfl⟩
    cases hr.2
  | buzzer s a =>
    rw [hp] at h
    dsimp only
    by_cases hne : s.buzzerOn ≠ desiredBuzzer s a
    · rw [if_pos hne]
      exact ⟨h.2.1, h.2.2.1, rfl, h.2.2.2.2.1, h.2.2.2.2.2⟩
    · rw [if_neg hne]
      exact ⟨h.1, h.2.1, h.2.2.1, h.2.2.2.1.symm.trans (not_not.mp hne), h.2.2.2.2.1, h.2.2.2.2.2⟩
  | beep s a =>
    rw [hp] at h
    exact ⟨h.2.2.1.symm, h.1, h.2.1, h.2.2.1, h.2.2.2.1, h.2.2.2.2⟩
  | events s a =>
    rw [hp] at h
    obtain ⟨hbeep, hled, hround, hbuzz, halarm, hq⟩ := h
    -- the end of the round, with the event queued, dropped or not due
    have hdone (w' : World) (ha : w'.alarm = .idle) (hs : w'.state = w.state) (hb : w'.beep = w.beep)
        (hr : w'.LedRests ↔ w.LedRests) : AlarmInv w' g := by
      unfold AlarmInv
      rw [ha]
      refine ⟨by rw [hb, hs]; exact hbeep, fun h => by rw [hs]; exact hled (hr.mp h), ?_⟩
      intro s' a' hround'
      obtain ⟨rfl, rfl⟩ := Prod.ext_iff.mp (Option.some.inj (hround.symm.trans hround'))
      rw [hs]
      exact ⟨halarm, hbuzz, hq⟩
    dsimp only
    split
    · unfold World.reportAlarmEvent
      split
      · exact hdone _ rfl rfl rfl Iff.rfl
      · exact hdone _ rfl rfl rfl Iff.rfl
    · exact hdone _ rfl rfl rfl Iff.rfl

/-- What the steps of the other tasks leave alone. -/
structure SameOutputs (w w' : World) : Prop where
  alarm : w'.alarm = w.alarm
  beep : w'.beep = w.beep
  mailbox : w'.mailbox = w.mailbox
  ledTask : w'.ledTask = w.ledTask
  led : w'.led = w.led
  ledOn : w'.state.ledOn = w.state.ledOn
  buzzerOn : w'.state.buzzerOn = w.state.buzzerOn
  alarmOn : w'.state.alarmOn = w.state.alarmOn

theorem SameOutputs.reportAlarmEvent (w : World) (event_code : UInt8) :
    SameOutputs w (w.reportAlarmEvent event_code).1 := by
  unfold World.reportAlarmEvent
  split <;> exact ⟨rfl, rfl, rfl, rfl, rfl, rfl, rfl, rfl⟩

theorem SameOutputs.sensorStep (w : World) (read : Option (ℚ × ℚ × UInt16)) (light : UInt16) :
    SameOutputs w (w.sensorStep read light).1 := by
  unfold World.sensorStep
  cases w.sensor with
  | idle => cases read <;> exact ⟨rfl, rfl, rfl, rfl, rfl, rfl, rfl, rfl⟩
  | failed light s => exact ⟨rfl, rfl, rfl, rfl, rfl, rfl, rfl, rfl⟩
  | report event_code =>
    have h := SameOutputs.reportAlarmEvent { w with sensor := .idle } event_code
    exact ⟨h.alarm, h.beep, h.mailbox, h.ledTask, h.led, h.ledOn, h.buzzerOn, h.alarmOn⟩

theorem SameOutputs.keyStep (w : World) (time : UInt32) : SameOutputs w (w.keyStep time).1 := by
  unfold World.keyStep
  cases w.key with
  | idle =>
    dsimp only
    split <;> exact ⟨rfl, rfl, rfl, rfl, rfl, rfl, rfl, rfl⟩
  | pressed mode => exact ⟨rfl, rfl, rfl, rfl, rfl, rfl, rfl, rfl⟩

/-- Only two of the tasks touch the outputs. -/
theorem SameOutputs.step {e : Event} (ha : e ≠ .alarm) (hl : e ≠ .led) (w : World) :
    SameOutputs w (w.step e).1 := by
  cases e with
  | alarm => exact absurd rfl ha
  | led => exact absurd rfl hl
  | sensor read light => exact SameOutputs.sensorStep w read light
  | key time => exact SameOutputs.keyStep w time
  | receiveEvent =>
    unfold World.step
    cases w.eventQueue <;> exact ⟨rfl, rfl, rfl, rfl, rfl, rfl, rfl, rfl⟩
  | setManualLed on => exact ⟨rfl, rfl, rfl, rfl, rfl, rfl, rfl, rfl⟩
  | setManualBuzzer on => exact ⟨rfl, rfl, rfl, rfl, rfl, rfl, rfl, rfl⟩
  | setMode auto => exact ⟨rfl, rfl, rfl, rfl, rfl, rfl, rfl, rfl⟩
  | setThreshold temp humi => exact ⟨rfl, rfl, rfl, rfl, rfl, rfl, rfl, rfl⟩

theorem SameOutputs.rests {w' : World} (h : SameOutputs w w') : w'.LedRests ↔ w.LedRests := by
  unfold World.LedRests
  rw [h.ledTask, h.mailbox]

theorem Seen.next_other {e : Event} (ha : e ≠ .alarm) (w : World) (g : Seen) (o : Output) :
    Seen.next w g e o = g := by
  cases e <;> first | exact absurd rfl ha | rfl

theorem outputs_step (h : LedInv led w g ∧ AlarmInv w g) (e : Event) :
    LedInv led (w.step e).1 (Seen.next w g e (w.step e).2) ∧
      AlarmInv (w.step e).1 (Seen.next w g e (w.step e).2) := by
  by_cases ha : e = .alarm
  · subst ha
    exact ⟨h.1.alarmStep, h.2.alarmStep⟩
  · rw [Seen.next_other ha]
    by_cases hl : e = .led
    · subst hl
      exact ⟨h.1.ledStep, h.2.ledStep h.1⟩
    · have hsame := SameOutputs.step ha hl w
      exact ⟨h.1.frame hsame.mailbox hsame.ledTask hsame.led,
        h.2.frame hsame.alarm hsame.beep hsame.rests hsame.buzzerOn hsame.ledOn hsame.alarmOn⟩

end

def watch (led : Bool) (es : List Event) : World × Seen :=
  Machine.run (Machine.watched World.step Seen.next) (boot led, ⟨none, false, none⟩) es

theorem outputs_watch (led : Bool) (es : List Event) :
    LedInv led (watch led es).1 (watch led es).2 ∧ AlarmInv (watch led es).1 (watch led es).2 := by
  refine Machine.run_keeps (I := fun v : World × Seen => LedInv led v.1 v.2 ∧ AlarmInv v.1 v.2)
    (fun v e h => outputs_step h e) ⟨?_, ?_⟩ es
  · constructor
    · intro v hv
      cases hv
    · intro v hv
      cases hv
    · intro v hv
      cases hv
    · intro _ v hv
      cases hv
    · exact fun _ => ⟨rfl, rfl, rfl⟩
  · refine ⟨rfl, fun _ => rfl, fun s a h => ?_⟩
    cases h

/-- Under every interleaving of the tasks, once the alarm task is between two rounds: the flag of the
alarm and the buzzer are what its last look asks for; the LED is as the shared flag says, unless
it still has the level it had at the start because nothing else was ever asked for; and if the
LED task had nothing to do at that look and has nothing to do now, the LED is as the look asks. -/
theorem outputs_follow (led : Bool) (es : List Event) :
    let w := (watch led es).1
    let g := (watch led es).2
    w.alarm = .idle →
      w.beep = w.state.buzzerOn ∧
      (w.LedRests → w.led = w.state.ledOn ∨
        g.last = none ∧ w.led = led ∧ w.state.ledOn = false) ∧
      ∀ s a, g.round = some (s, a) → w.state.alarmOn = a ∧ w.beep = desiredBuzzer s a ∧
        (g.quiet = true → w.LedRests → w.state.ledOn = desiredLed s a ∧
          (w.led = desiredLed s a ∨ g.last = none ∧ w.led = led ∧ desiredLed s a = false)) := by
  intro w g hidle
  obtain ⟨hl, ha⟩ := outputs_watch led es
  unfold AlarmInv at ha
  rw [show (watch led es).1.alarm = .idle from hidle] at ha
  obtain ⟨hbeep, hled, hround⟩ := ha
  have hpin : w.LedRests → w.led = g.last.getD false ∨ g.last = none ∧ w.led = led := by
    intro hr
    cases hlast : g.last with
    | none => exact Or.inr ⟨rfl, (hl.fresh hlast).1⟩
    | some v => exact Or.inl (hl.rests hr v hlast)
  refine ⟨hbeep, fun hr => ?_, fun s a hsa => ?_⟩
  · rcases hpin hr with h | ⟨hnone, h⟩
    · exact Or.inl (h.trans (hled hr).symm)
    · exact Or.inr ⟨hnone, h, (hled hr).trans (by rw [show (watch led es).2.last = none from hnone]; rfl)⟩
  · obtain ⟨halarm, hbuzz, hq⟩ := hround s a hsa
    refine ⟨halarm, hbeep.trans hbuzz, fun hquiet hr => ⟨(hled hr).trans (hq hquiet), ?_⟩⟩
    rcases hpin hr with h | ⟨hnone, h⟩
    · exact Or.inl (h.trans (hq hquiet))
    · refine Or.inr ⟨hnone, h, (hq hquiet).symm.trans ?_⟩
      rw [show (watch led es).2.last = none from hnone]
      rfl

/-- A round after the LED is asked for, and one that finds it lit. -/
def litRun : List Event :=
  .setManualLed true :: List.replicate 7 .alarm ++ List.replicate 3 .led ++ List.replicate 6 .alarm

theorem outputs_follow_lit :
    let w := (watch false litRun).1
    w.led = true ∧ w.led = w.state.ledOn ∧ w.beep = w.state.buzzerOn ∧ w.state.alarmOn = true ∧
      w.beep = false := by
  intro w
  have hlast : (watch false litRun).2.last = some true := by decide +kernel
  have hidle : (watch false litRun).1.alarm = .idle := rfl
  obtain ⟨hbeep, hled, hround⟩ := outputs_follow false litRun hidle
  obtain ⟨halarm, hoff, hquiet⟩ := hround _ _ rfl
  have hasked : w.led = true := by
    rcases (hquiet (by decide +kernel) (by decide +kernel)).2 with hlit | ⟨hnone, -⟩
    · exact hlit.trans (by decide +kernel)
    · cases hlast.symm.trans hnone
  refine ⟨hasked, ?_, hbeep, halarm.trans (by decide +kernel), hoff.trans (by decide +kernel)⟩
  rcases hled (by decide +kernel) with hflag | ⟨hnone, -⟩
  · exact hflag
  · cases hlast.symm.trans hnone

end EdgeLink.Home
