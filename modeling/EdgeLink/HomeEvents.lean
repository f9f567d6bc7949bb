import EdgeLink.HomeTasks

namespace EdgeLink.Home
open EdgeLink.Report (SmartHomeState)

def changes (a : Bool) : List Bool → List Bool
  | [] => []
  | b :: l => if b = a then changes a l else b :: changes b l

theorem changes_concat (a : Bool) (l : List Bool) (b : Bool) :
    changes a (l ++ [b]) = changes a l ++ if b = l.getLastD a then [] else [b] := by
  induction l generalizing a with
  | nil => rfl
  | cons c l ih =>
    simp only [List.cons_append, changes]
    by_cases hc : c = a
    · subst hc
      rw [if_pos rfl, if_pos rfl, ih]
      cases l <;> rfl
    · rw [if_neg hc, if_neg hc, ih, List.cons_append]
      cases l <;> rfl

theorem changes_alternate (a : Bool) (l : List Bool) : (a :: changes a l).IsChain (· ≠ ·) := by
  induction l generalizing a with
  | nil => exact List.isChain_singleton a
  | cons b l ih =>
    rw [changes]
    by_cases hb : b = a
    · rw [if_pos hb]
      exact ih a
    · rw [if_neg hb]
      exact List.isChain_cons_cons.mpr ⟨Ne.symm hb, ih b⟩

/-- How many reads in a row have failed by now. -/
def failing (reads : List Bool) : ℕ := (reads.reverse.takeWhile fun ok => !ok).length

/-- It has worked, and has not failed three times in a row since. -/
def usable (reads : List Bool) : Bool := true ∈ reads ∧ failing reads < 3

/-- After each read. -/
def usableSoFar (reads : List Bool) : List Bool :=
  (List.range reads.length).map fun i => usable (reads.take (i + 1))

@[simp] theorem failing_ok (reads : List Bool) : failing (reads ++ [true]) = 0 := by
  simp [failing]

@[simp] theorem failing_fail (reads : List Bool) :
    failing (reads ++ [false]) = failing reads + 1 := by
  simp [failing]

@[simp] theorem usable_ok (reads : List Bool) : usable (reads ++ [true]) = true := by
  simp [usable]

@[simp] theorem usable_fail (reads : List Bool) :
    usable (reads ++ [false]) = (usable reads && failing reads + 1 < 3) := by
  simp only [usable, failing_fail, List.mem_append, List.mem_singleton, Bool.true_eq_false, or_false,
    ← Bool.decide_and]
  congr 1
  ext
  constructor
  · rintro ⟨hmem, hlt⟩
    exact ⟨⟨hmem, by omega⟩, hlt⟩
  · rintro ⟨⟨hmem, -⟩, hlt⟩
    exact ⟨hmem, hlt⟩

theorem usableSoFar_concat (reads : List Bool) (ok : Bool) :
    usableSoFar (reads ++ [ok]) = usableSoFar reads ++ [usable (reads ++ [ok])] := by
  unfold usableSoFar
  rw [List.length_append, List.length_singleton, List.range_succ, List.map_append,
    List.map_singleton, List.take_of_length_le (by simp)]
  congr 1
  refine List.map_congr_left fun i hi => ?_
  rw [List.take_append_of_le_length (Nat.succ_le_of_lt (List.mem_range.mp hi))]

theorem usableSoFar_last (reads : List Bool) : (usableSoFar reads).getLastD false = usable reads := by
  induction reads using List.reverseRecOn with
  | nil => rfl
  | append_singleton reads ok => rw [usableSoFar_concat]; simp

structure Report where
  eventCode : UInt8
  dropped : Bool
  /-- how many events were in the queue -/
  waiting : ℕ

structure Told where
  reports : List Report
  sent : List UInt8
  /-- the alarm of each round of the alarm task -/
  rounds : List Bool
  /-- the reads of the sensor task that it has dealt with -/
  reads : List Bool

def Told.rounded (w : World) (t : Told) : List Bool :=
  match w.alarm with
  | .events _ a => t.rounds ++ [a]
  | _ => t.rounds

def Told.dealt (w : World) (t : Told) (read : Option (ℚ × ℚ × UInt16)) : List Bool :=
  match w.sensor, read with
  | .idle, some _ => t.reads ++ [true]
  | .failed _ _, _ => t.reads ++ [false]
  | _, _ => t.reads

/-- `waiting` is how many events were in the queue. -/
def Told.output (t : Told) (waiting : ℕ) : Output → Told
  | .none => t
  | .reported event_code dropped =>
    { t with reports := t.reports ++ [⟨event_code, dropped, waiting⟩] }
  | .sent event_code => { t with sent := t.sent ++ [event_code] }

def Told.next (w : World) (t : Told) (e : Event) (o : Output) : Told :=
  match e with
  | .alarm => { t.output w.eventQueue.length o with rounds := t.rounded w }
  | .sensor read _ => { t.output w.eventQueue.length o with reads := t.dealt w read }
  | _ => t.output w.eventQueue.length o

def alarmCode (a : Bool) : UInt8 := if a then 1 else 2

def sensorCode (valid : Bool) : UInt8 := if valid then 4 else 3

/-- What the sensor task still has to report. -/
def World.unreported (w : World) : List UInt8 :=
  match w.sensor with
  | .report event_code => [event_code]
  | _ => []

def Told.codes (t : Told) : List UInt8 := t.reports.map Report.eventCode

def Told.kept (t : Told) : List UInt8 :=
  (t.reports.filter fun r => !r.dropped).map Report.eventCode

/-- The event queue against the reports. -/
structure QueueInv (w : World) (t : Told) : Prop where
  fifo : t.sent ++ w.eventQueue = t.kept
  full : ∀ r ∈ t.reports, r.dropped = true ↔ GW_EVENT_QUEUE_LEN ≤ r.waiting

structure AlarmEvents (w : World) (t : Told) : Prop where
  prev : w.prevAlarm = t.rounds.getLastD false
  codes : t.codes.filter (· ≤ 2) = (changes false t.rounds).map alarmCode

structure SensorEvents (w : World) (t : Told) : Prop where
  valid : w.sensorValid = usable t.reads
  shared : w.state.sensorValid = usable t.reads
  counting : w.failCount.toNat = min 255 (failing t.reads +
    match w.sensor with | .failed _ _ => 1 | _ => 0)
  looked : ∀ light s, w.sensor = .failed light s → s.sensorValid = usable t.reads
  codes : t.codes.filter (2 < ·) ++ w.unreported =
    (changes false (usableSoFar t.reads)).map sensorCode
  code : ∀ c, w.sensor = .report c → 2 < c

section
variable {w : World} {t : Told}

/-- What the reports do not concern. -/
theorem QueueInv.congr {w' : World} {t' : Told} (h : QueueInv w t)
    (hq : w'.eventQueue = w.eventQueue) (hr : t'.reports = t.reports) (hs : t'.sent = t.sent) :
    QueueInv w' t' where
  fifo := by
    have := h.fifo
    unfold Told.kept at *
    rw [hq, hr, hs, this]
  full := by
    rw [hr]
    exact h.full

theorem QueueInv.report (h : QueueInv w t) (event_code : UInt8) :
    QueueInv (w.reportAlarmEvent event_code).1
      (t.output w.eventQueue.length (w.reportAlarmEvent event_code).2) := by
  unfold World.reportAlarmEvent
  have hfull (dropped : Bool) (hd : dropped = true ↔ GW_EVENT_QUEUE_LEN ≤ w.eventQueue.length) :
      ∀ r ∈ t.reports ++ [⟨event_code, dropped, w.eventQueue.length⟩],
        r.dropped = true ↔ GW_EVENT_QUEUE_LEN ≤ r.waiting := by
    intro r hr
    rcases List.mem_append.mp hr with hr | hr
    · exact h.full r hr
    · rw [List.mem_singleton.mp hr]
      exact hd
  have hf := h.fifo
  by_cases hl : w.eventQueue.length < GW_EVENT_QUEUE_LEN
  · rw [if_pos hl]
    refine ⟨?_, hfull false ⟨fun hd => (by cases hd), fun hle => absurd hl (Nat.not_lt.mpr hle)⟩⟩
    simp only [Told.kept, Told.output, List.filter_append, List.map_append] at hf ⊢
    rw [← List.append_assoc, hf]
    rfl
  · rw [if_neg hl]
    refine ⟨?_, hfull true ⟨fun _ => Nat.le_of_not_lt hl, fun _ => rfl⟩⟩
    simp only [Told.kept, Told.output, List.filter_append, List.map_append] at hf ⊢
    rw [hf]
    exact (List.append_nil _).symm

theorem QueueInv.receive (h : QueueInv w t) :
    QueueInv (w.step .receiveEvent).1 (Told.next w t .receiveEvent (w.step .receiveEvent).2) := by
  simp only [World.step, Told.next]
  cases hq : w.eventQueue with
  | nil => exact h
  | cons event_code rest =>
    refine ⟨?_, h.full⟩
    have hf := h.fifo
    rw [hq] at hf
    simpa [Told.output, Told.kept] using hf

theorem QueueInv.step (h : QueueInv w t) (e : Event) :
    QueueInv (w.step e).1 (Told.next w t e (w.step e).2) := by
  cases e with
  | receiveEvent => exact h.receive
  | alarm =>
    simp only [World.step, Told.next]
    unfold World.alarmStep
    cases w.alarm with
    | events s a =>
      dsimp only
      split
      · exact (QueueInv.report (w := { w with prevAlarm := a, alarm := .idle })
          (h.congr rfl rfl rfl) _).congr rfl rfl rfl
      · exact h.congr rfl rfl rfl
    | led s a => dsimp only; split <;> exact h.congr rfl rfl rfl
    | buzzer s a => dsimp only; split <;> exact h.congr rfl rfl rfl
    | idle => exact h.congr rfl rfl rfl
    | configured cfg => exact h.congr rfl rfl rfl
    | judged s a => exact h.congr rfl rfl rfl
    | notify s a => exact h.congr rfl rfl rfl
    | beep s a => exact h.congr rfl rfl rfl
  | sensor read light =>
    simp only [World.step, Told.next]
    unfold World.sensorStep
    cases w.sensor with
    | idle => cases read <;> exact h.congr rfl rfl rfl
    | failed light s => exact h.congr rfl rfl rfl
    | report event_code =>
      exact (QueueInv.report (w := { w with sensor := .idle }) (h.congr rfl rfl rfl) _).congr
        rfl rfl rfl
  | led =>
    simp only [World.step, Told.next]
    unfold World.ledStep
    cases w.ledTask with
    | waiting => cases w.mailbox <;> exact h.congr rfl rfl rfl
    | notified value => exact h.congr rfl rfl rfl
    | written value => exact h.congr rfl rfl rfl
  | key time =>
    simp only [World.step, Told.next]
    unfold World.keyStep
    cases w.key with
    | idle => dsimp only; split <;> exact h.congr rfl rfl rfl
    | pressed mode => exact h.congr rfl rfl rfl
  | setManualLed on => exact h.congr rfl rfl rfl
  | setManualBuzzer on => exact h.congr rfl rfl rfl
  | setMode auto => exact h.congr rfl rfl rfl
  | setThreshold temp humi => exact h.congr rfl rfl rfl

theorem output_codes (waiting : ℕ) (w : World) (t : Told) (event_code : UInt8) :
    (t.output waiting (w.reportAlarmEvent event_code).2).codes = t.codes ++ [event_code] := by
  unfold World.reportAlarmEvent
  split <;> simp [Told.output, Told.codes]

theorem output_rounds (waiting : ℕ) (t : Told) (o : Output) :
    (t.output waiting o).rounds = t.rounds ∧ (t.output waiting o).reads = t.reads := by
  cases o <;> exact ⟨rfl, rfl⟩

theorem reportAlarmEvent_frame (w : World) (event_code : UInt8) :
    (w.reportAlarmEvent event_code).1.sensorValid = w.sensorValid ∧
      (w.reportAlarmEvent event_code).1.state = w.state ∧
      (w.reportAlarmEvent event_code).1.failCount = w.failCount ∧
      (w.reportAlarmEvent event_code).1.sensor = w.sensor ∧
      (w.reportAlarmEvent event_code).1.prevAlarm = w.prevAlarm := by
  unfold World.reportAlarmEvent
  split <;> exact ⟨rfl, rfl, rfl, rfl, rfl⟩

theorem AlarmEvents.congr {w' : World} {t' : Told} (h : AlarmEvents w t)
    (hp : w'.prevAlarm = w.prevAlarm) (hr : t'.rounds = t.rounds)
    (hc : t'.codes.filter (· ≤ 2) = t.codes.filter (· ≤ 2)) : AlarmEvents w' t' where
  prev := by rw [hp, hr]; exact h.prev
  codes := by rw [hc, hr]; exact h.codes

theorem AlarmEvents.round (h : AlarmEvents w t) {s : SmartHomeState} {a : Bool}
    (hp : w.alarm = .events s a) :
    AlarmEvents (w.step .alarm).1 (Told.next w t .alarm (w.step .alarm).2) := by
  simp only [World.step, Told.next, World.alarmStep, Told.rounded, hp]
  by_cases hne : a ≠ w.prevAlarm
  · rw [if_pos hne]
    have hlast : ¬ a = t.rounds.getLastD false := h.prev ▸ hne
    constructor
    · have hprev := (reportAlarmEvent_frame { w with prevAlarm := a, alarm := .idle }
        (if a then 1 else 2)).2.2.2.2
      simpa using hprev
    · show ((t.output _ ({ w with prevAlarm := a, alarm := .idle }.reportAlarmEvent
        (if a then 1 else 2)).2).codes).filter (· ≤ 2) = _
      rw [output_codes, changes_concat, if_neg hlast, List.filter_append, h.codes, List.map_append]
      cases a <;> rfl
  · rw [if_neg hne]
    have hlast : a = t.rounds.getLastD false := h.prev ▸ not_not.mp hne
    constructor
    · simpa using (not_not.mp hne).symm
    · rw [changes_concat, if_pos hlast, List.append_nil]
      exact h.codes

theorem AlarmEvents.step (h : AlarmEvents w t) (hs : SensorEvents w t) (e : Event) :
    AlarmEvents (w.step e).1 (Told.next w t e (w.step e).2) := by
  cases e with
  | alarm =>
    cases hp : w.alarm with
    | events s a => exact h.round hp
    | led s a =>
      simp only [World.step, Told.next, World.alarmStep, Told.rounded, hp]
      split <;> exact h.congr rfl rfl rfl
    | buzzer s a =>
      simp only [World.step, Told.next, World.alarmStep, Told.rounded, hp]
      split <;> exact h.congr rfl rfl rfl
    | idle | configured | judged | notify | beep =>
      simp only [World.step, Told.next, World.alarmStep, Told.rounded, hp]
      exact h.congr rfl rfl rfl
  | sensor read light =>
    simp only [World.step, Told.next]
    unfold World.sensorStep
    cases hp : w.sensor with
    | idle => cases read <;> exact h.congr rfl rfl rfl
    | failed light s => exact h.congr rfl rfl rfl
    | report event_code =>
      have hprev := (reportAlarmEvent_frame { w with sensor := .idle } event_code).2.2.2.2
      refine h.congr hprev (output_rounds _ _ _).1 ?_
      show ((t.output _ ({ w with sensor := .idle }.reportAlarmEvent event_code).2).codes).filter _ = _
      rw [output_codes, List.filter_append,
        List.filter_cons_of_neg (by simpa using hs.code event_code hp), List.filter_nil,
        List.append_nil]
  | led =>
    simp only [World.step, Told.next]
    unfold World.ledStep
    cases w.ledTask with
    | waiting => cases w.mailbox <;> exact h.congr rfl rfl rfl
    | notified value => exact h.congr rfl rfl rfl
    | written value => exact h.congr rfl rfl rfl
  | key time =>
    simp only [World.step, Told.next]
    unfold World.keyStep
    cases w.key with
    | idle => dsimp only; split <;> exact h.congr rfl rfl rfl
    | pressed mode => exact h.congr rfl rfl rfl
  | receiveEvent =>
    simp only [World.step, Told.next]
    cases w.eventQueue <;> exact h.congr rfl rfl rfl
  | setManualLed on => exact h.congr rfl rfl rfl
  | setManualBuzzer on => exact h.congr rfl rfl rfl
  | setMode auto => exact h.congr rfl rfl rfl
  | setThreshold temp humi => exact h.congr rfl rfl rfl

theorem SensorEvents.congr {w' : World} {t' : Told} (h : SensorEvents w t)
    (hv : w'.sensorValid = w.sensorValid) (hs : w'.state.sensorValid = w.state.sensorValid)
    (hf : w'.failCount = w.failCount) (hp : w'.sensor = w.sensor) (hr : t'.reads = t.reads)
    (hc : t'.codes.filter (2 < ·) = t.codes.filter (2 < ·)) : SensorEvents w' t' where
  valid := by rw [hv, hr]; exact h.valid
  shared := by rw [hs, hr]; exact h.shared
  counting := by rw [hf, hp, hr]; exact h.counting
  looked := by rw [hp, hr]; exact h.looked
  codes := by unfold World.unreported; rw [hc, hp, hr]; exact h.codes
  code := by rw [hp]; exact h.code

/-- A read that works. -/
theorem SensorEvents.ok (h : SensorEvents w t) (hp : w.sensor = .idle) (data : ℚ × ℚ × UInt16)
    (light : UInt16) : SensorEvents (w.step (.sensor (some data) light)).1
      (Told.next w t (.sensor (some data) light) (w.step (.sensor (some data) light)).2) := by
  have hcodes := h.codes
  simp only [World.unreported, hp, List.append_nil] at hcodes
  simp only [World.step, World.sensorStep, Told.next, Told.output, Told.dealt, hp]
  constructor
  · exact (usable_ok _).symm
  · exact (usable_ok _).symm
  · simp only [failing_ok]
    cases w.sensorValid <;> rfl
  · intro light s hs
    cases hv : w.sensorValid <;> simp [hv] at hs
  · show t.codes.filter (2 < ·) ++ _ = _
    rw [usableSoFar_concat, changes_concat, usableSoFar_last, usable_ok, ← h.valid, hcodes,
      List.map_append]
    cases hv : w.sensorValid <;> simp [World.unreported, sensorCode]
  · intro c hc
    cases hv : w.sensorValid with
    | true => simp [hv] at hc
    | false =>
      simp [hv] at hc
      subst hc
      decide

/-- A read that fails: the first half of the round only counts it. -/
theorem SensorEvents.fail (h : SensorEvents w t) (hp : w.sensor = .idle) (light : UInt16) :
    SensorEvents (w.step (.sensor none light)).1
      (Told.next w t (.sensor none light) (w.step (.sensor none light)).2) := by
  have hcodes := h.codes
  simp only [World.unreported, hp, List.append_nil] at hcodes
  have hcount := h.counting
  simp only [hp, Nat.add_zero] at hcount
  simp only [World.step, World.sensorStep, Told.next, Told.output, Told.dealt, hp]
  constructor
  · exact h.valid
  · exact h.shared
  · by_cases hlt : w.failCount < 0xFF
    · have hn : w.failCount.toNat < 255 := UInt8.lt_iff_toNat_lt.mp hlt
      rw [if_pos hlt, UInt8.toNat_add, Nat.mod_eq_of_lt (by simpa using by omega)]
      simp only [UInt8.reduceToNat]
      omega
    · have hn : 255 ≤ w.failCount.toNat := UInt8.le_iff_toNat_le.mp (UInt8.not_lt.mp hlt)
      rw [if_neg hlt]
      dsimp only
      omega
  · intro light' s hs
    obtain ⟨-, rfl⟩ := SensorPlace.failed.inj hs
    exact h.shared
  · simpa [World.unreported] using hcodes
  · intro c hc
    cases hc

theorem tolerance_le (h : SensorEvents w t) {light : UInt16} {s : SmartHomeState}
    (hp : w.sensor = .failed light s) :
    w.failCount ≥ SENSOR_FAIL_TOLERANCE_COUNT ↔ 3 ≤ failing t.reads + 1 := by
  have hcount := h.counting
  simp only [hp] at hcount
  rw [ge_iff_le, UInt8.le_iff_toNat_le, hcount, show SENSOR_FAIL_TOLERANCE_COUNT.toNat = 3 from rfl]
  omega

/-- The second half publishes it. -/
theorem SensorEvents.publish (h : SensorEvents w t) {light' : UInt16} {s : SmartHomeState}
    (hp : w.sensor = .failed light' s) (read : Option (ℚ × ℚ × UInt16)) (light : UInt16) :
    SensorEvents (w.step (.sensor read light)).1
      (Told.next w t (.sensor read light) (w.step (.sensor read light)).2) := by
  have hcodes := h.codes
  simp only [World.unreported, hp, List.append_nil] at hcodes
  have hcount := h.counting
  simp only [hp] at hcount
  have htol := tolerance_le h hp
  have hlook := h.looked light' s hp
  have hvalid := h.valid
  simp only [World.step, World.sensorStep, World.setSensor, Told.next, Told.output, Told.dealt, hp, htol]
  -- the third failure in a row makes the sensor unusable, and is told if it was usable
  by_cases hthree : 3 ≤ failing t.reads + 1
  · have hus : usable (t.reads ++ [false]) = false := by
      rw [usable_fail, decide_eq_false (by omega), Bool.and_false]
    cases hv : w.sensorValid with
    | true =>
      rw [hv] at hvalid
      simp only [hthree, and_self, if_true]
      constructor
      · exact hus.symm
      · exact hus.symm
      · simpa using hcount
      · intro l s' hs
        cases hs
      · show t.codes.filter (2 < ·) ++ [3] = _
        rw [usableSoFar_concat, changes_concat, usableSoFar_last, hus, ← hvalid, hcodes, if_neg (by simp),
          List.map_append]
        rfl
      · intro c hc
        rw [← SensorPlace.report.inj hc]
        decide
    | false =>
      rw [hv] at hvalid
      simp only [hthree, Bool.false_eq_true, and_false, if_true, if_false]
      constructor
      · exact hus.symm
      · exact hus.symm
      · simpa using hcount
      · intro l s' hs
        cases hs
      · show t.codes.filter (2 < ·) ++ [] = _
        rw [usableSoFar_concat, changes_concat, usableSoFar_last, hus, ← hvalid, hcodes, if_pos rfl,
          List.append_nil, List.append_nil]
      · intro c hc
        cases hc
  · have hus : usable (t.reads ++ [false]) = usable t.reads := by
      rw [usable_fail, decide_eq_true (by omega), Bool.and_true]
    simp only [hthree, false_and, if_false]
    constructor
    · exact hvalid.trans hus.symm
    · exact hlook.trans hus.symm
    · simpa using hcount
    · intro l s' hs
      cases hs
    · show t.codes.filter (2 < ·) ++ [] = _
      rw [usableSoFar_concat, changes_concat, usableSoFar_last, hus, if_pos rfl, List.append_nil,
        List.append_nil, hcodes]
    · intro c hc
      cases hc

theorem SensorEvents.tell (h : SensorEvents w t) {event_code : UInt8}
    (hp : w.sensor = .report event_code) (read : Option (ℚ × ℚ × UInt16)) (light : UInt16) :
    SensorEvents (w.step (.sensor read light)).1
      (Told.next w t (.sensor read light) (w.step (.sensor read light)).2) := by
  have hcodes := h.codes
  simp only [World.unreported, hp] at hcodes
  have hcount := h.counting
  simp only [hp, Nat.add_zero] at hcount
  simp only [World.step, World.sensorStep, Told.next, Told.dealt, hp]
  obtain ⟨hv, hs, hf, hsensor, -⟩ := reportAlarmEvent_frame { w with sensor := .idle } event_code
  constructor
  · rw [hv]
    exact h.valid
  · rw [hs]
    exact h.shared
  · rw [hf, hsensor]
    exact hcount
  · intro l s hsen
    cases hsensor.symm.trans hsen
  · show ((t.output _ ({ w with sensor := .idle }.reportAlarmEvent event_code).2).codes).filter _ ++ _ = _
    rw [World.unreported, hsensor, output_codes, List.filter_append,
      List.filter_cons_of_pos (by simpa using h.code event_code hp), List.filter_nil, ← hcodes,
      List.append_nil]
  · intro c hc
    cases hsensor.symm.trans hc

theorem SensorEvents.step (h : SensorEvents w t) (e : Event) :
    SensorEvents (w.step e).1 (Told.next w t e (w.step e).2) := by
  cases e with
  | sensor read light =>
    cases hp : w.sensor with
    | idle =>
      cases read with
      | some data => exact h.ok hp data light
      | none => exact h.fail hp light
    | failed light' s => exact h.publish hp read light
    | report event_code => exact h.tell hp read light
  | alarm =>
    simp only [World.step, Told.next]
    unfold World.alarmStep
    cases w.alarm with
    | events s a =>
      dsimp only
      split
      · -- the codes of the alarm are no codes of the sensor
        have hcodes : ((t.output w.eventQueue.length ({ w with prevAlarm := a, alarm := .idle }.reportAlarmEvent
            (if a then 1 else 2)).2).codes).filter (2 < ·) = t.codes.filter (2 < ·) := by
          rw [output_codes, List.filter_append]
          cases a <;> simp
        obtain ⟨hv, hs, hf, hsensor, -⟩ :=
          reportAlarmEvent_frame { w with prevAlarm := a, alarm := .idle } (if a then 1 else 2)
        exact h.congr hv (by rw [hs]) hf hsensor (output_rounds _ _ _).2 hcodes
      · exact h.congr rfl rfl rfl rfl rfl rfl
    | led s a => dsimp only; split <;> exact h.congr rfl rfl rfl rfl rfl rfl
    | buzzer s a => dsimp only; split <;> exact h.congr rfl rfl rfl rfl rfl rfl
    | idle | configured | judged | notify | beep => exact h.congr rfl rfl rfl rfl rfl rfl
  | led =>
    simp only [World.step, Told.next]
    unfold World.ledStep
    cases w.ledTask with
    | waiting => cases w.mailbox <;> exact h.congr rfl rfl rfl rfl rfl rfl
    | notified value => exact h.congr rfl rfl rfl rfl rfl rfl
    | written value => exact h.congr rfl rfl rfl rfl rfl rfl
  | key time =>
    simp only [World.step, Told.next]
    unfold World.keyStep
    cases w.key with
    | idle => dsimp only; split <;> exact h.congr rfl rfl rfl rfl rfl rfl
    | pressed mode => exact h.congr rfl rfl rfl rfl rfl rfl
  | receiveEvent =>
    simp only [World.step, Told.next]
    cases w.eventQueue <;> exact h.congr rfl rfl rfl rfl rfl rfl
  | setManualLed on => exact h.congr rfl rfl rfl rfl rfl rfl
  | setManualBuzzer on => exact h.congr rfl rfl rfl rfl rfl rfl
  | setMode auto => exact h.congr rfl rfl rfl rfl rfl rfl
  | setThreshold temp humi => exact h.congr rfl rfl rfl rfl rfl rfl

end

def tell (led : Bool) (es : List Event) : World × Told :=
  Machine.run (Machine.watched World.step Told.next) (boot led, ⟨[], [], [], []⟩) es

theorem chain_codes (code : Bool → UInt8) (hcode : code true ≠ code false) (a : Bool) (l : List Bool) :
    (code a :: (changes a l).map code).IsChain (· ≠ ·) := by
  rw [← List.map_cons, List.isChain_map]
  refine (changes_alternate a l).imp fun b c hbc => ?_
  cases b <;> cases c
  · exact absurd rfl hbc
  · exact hcode.symm
  · exact hcode
  · exact absurd rfl hbc

/-- Under every interleaving of the tasks: the alarm events reported are the changes of the alarm from
round to round, the sensor events those of the sensor being usable (it has worked and has not failed
three times in a row since), which is also what the shared state says, and both alternate; what the
gateway task has sent and still has to send are, in order, the reports that found room in the
queue, and only a full queue drops one. -/
theorem events_told (led : Bool) (es : List Event) :
    let w := (tell led es).1
    let t := (tell led es).2
    t.codes.filter (· ≤ 2) = (changes false t.rounds).map alarmCode ∧
    t.codes.filter (2 < ·) ++ w.unreported =
      (changes false (usableSoFar t.reads)).map sensorCode ∧
    (2 :: t.codes.filter (· ≤ 2)).IsChain (· ≠ ·) ∧
    (3 :: (t.codes.filter (2 < ·) ++ w.unreported)).IsChain (· ≠ ·) ∧
    w.state.sensorValid = usable t.reads ∧
    t.sent ++ w.eventQueue = t.kept ∧
    ∀ r ∈ t.reports, r.dropped = true ↔ GW_EVENT_QUEUE_LEN ≤ r.waiting := by
  have h : QueueInv (tell led es).1 (tell led es).2 ∧ AlarmEvents (tell led es).1 (tell led es).2 ∧
      SensorEvents (tell led es).1 (tell led es).2 := by
    refine Machine.run_keeps (I := fun v : World × Told =>
      QueueInv v.1 v.2 ∧ AlarmEvents v.1 v.2 ∧ SensorEvents v.1 v.2)
      (fun v e h => ⟨h.1.step e, h.2.1.step h.2.2 e, h.2.2.step e⟩) ⟨?_, ?_, ?_⟩ es
    · exact ⟨rfl, fun r hr => by cases hr⟩
    · exact ⟨rfl, rfl⟩
    · exact ⟨rfl, rfl, rfl, fun _ _ hs => (by cases hs), rfl, fun _ hc => (by cases hc)⟩
  refine ⟨h.2.1.codes, h.2.2.codes, ?_, ?_, h.2.2.shared, h.1.fifo, h.1.full⟩
  · rw [h.2.1.codes]
    exact chain_codes alarmCode (by decide) false _
  · rw [h.2.2.codes]
    exact chain_codes sensorCode (by decide) false _

end EdgeLink.Home
