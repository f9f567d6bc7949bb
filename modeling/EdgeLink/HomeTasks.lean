import EdgeLink.Machine
import EdgeLink.ReportTask

/-! The tasks of the device around its shared state: any of them can be preempted between any two of
the accesses below. -/

namespace EdgeLink.Home
open EdgeLink.Report (SmartHomeMode SmartHomeState)

structure RuntimeConfig where
  temperatureHigh : ℚ
  humidityHigh : ℚ

def smartHomeStateInit : SmartHomeState :=
  ⟨0, 0, 0, false, false, false, false, false, .manual, false⟩

def smartHomeConfigInit : RuntimeConfig := ⟨35, 80⟩

def alarmNow (cfg : RuntimeConfig) (s : SmartHomeState) : Bool :=
  ¬ s.sensorValid ∨ cfg.temperatureHigh ≤ s.temperature ∨ cfg.humidityHigh ≤ s.humidity

def desiredLed (s : SmartHomeState) (alarm_now : Bool) : Bool :=
  match s.mode with
  | .auto => alarm_now
  | .manual => s.manualLedOn

def desiredBuzzer (s : SmartHomeState) (alarm_now : Bool) : Bool :=
  match s.mode with
  | .auto => alarm_now
  | .manual => s.manualBuzzerOn

/-- `state` and `alarm_now` are what the round goes by. -/
inductive AlarmPlace
  | idle
  | configured (cfg : RuntimeConfig)
  | judged (state : SmartHomeState) (alarm_now : Bool)
  | led (state : SmartHomeState) (alarm_now : Bool)
  | notify (state : SmartHomeState) (alarm_now : Bool)
  | buzzer (state : SmartHomeState) (alarm_now : Bool)
  | beep (state : SmartHomeState) (alarm_now : Bool)
  | events (state : SmartHomeState) (alarm_now : Bool)

inductive LedPlace
  | waiting
  | notified (value : Bool)
  | written (value : Bool)

inductive SensorPlace
  | idle
  /-- a read failed; `state` is the state it goes back to -/
  | failed (light : UInt16) (state : SmartHomeState)
  | report (event_code : UInt8)

inductive KeyPlace
  | idle
  | pressed (mode : SmartHomeMode)

def SENSOR_FAIL_TOLERANCE_COUNT : UInt8 := 3
def GW_EVENT_QUEUE_LEN : ℕ := 8
def KEY_MODE_SWITCH_PRESS_MS : UInt32 := 2000

structure World where
  state : SmartHomeState
  cfg : RuntimeConfig
  /-- the pins -/
  led : Bool
  beep : Bool
  /-- the notification of the LED task -/
  mailbox : Option Bool
  /-- `g_gateway_event_queue` -/
  eventQueue : List UInt8
  alarm : AlarmPlace
  prevAlarm : Bool
  ledTask : LedPlace
  sensor : SensorPlace
  failCount : UInt8
  /-- `sensor_valid` of the task -/
  sensorValid : Bool
  key : KeyPlace

/-- A step of a task; the gateway task runs a command, or sends one event. -/
inductive Event
  | alarm
  | led
  | sensor (read : Option (ℚ × ℚ × UInt16)) (light : UInt16)
  | key (time : UInt32)
  | setManualLed (on : Bool)
  | setManualBuzzer (on : Bool)
  | setMode (auto : Bool)
  | setThreshold (temp humi : UInt16)
  | receiveEvent

inductive Output
  | none
  /-- `Gateway_ReportAlarmEvent` -/
  | reported (event_code : UInt8) (dropped : Bool)
  /-- `gw_send_alarm_event` -/
  | sent (event_code : UInt8)
  deriving DecidableEq

namespace World
variable (w : World)

def reportAlarmEvent (event_code : UInt8) : World × Output :=
  if w.eventQueue.length < GW_EVENT_QUEUE_LEN then
    ({ w with eventQueue := w.eventQueue ++ [event_code] }, .reported event_code false)
  else (w, .reported event_code true)

def alarmStep : World × Output :=
  match w.alarm with
  | .idle => ({ w with alarm := .configured w.cfg }, .none)
  | .configured cfg => ({ w with alarm := .judged w.state (alarmNow cfg w.state) }, .none)
  | .judged s a => ({ w with state := { w.state with alarmOn := a }, alarm := .led s a }, .none)
  | .led s a =>
    if s.ledOn ≠ desiredLed s a then
      ({ w with state := { w.state with ledOn := desiredLed s a }, alarm := .notify s a }, .none)
    else ({ w with alarm := .buzzer s a }, .none)
  | .notify s a => ({ w with mailbox := some (desiredLed s a), alarm := .buzzer s a }, .none)
  | .buzzer s a =>
    if s.buzzerOn ≠ desiredBuzzer s a then
      ({ w with state := { w.state with buzzerOn := desiredBuzzer s a }, alarm := .beep s a }, .none)
    else ({ w with alarm := .events s a }, .none)
  | .beep s a => ({ w with beep := desiredBuzzer s a, alarm := .events s a }, .none)
  | .events _ a =>
    if a ≠ w.prevAlarm then
      { w with prevAlarm := a, alarm := .idle }.reportAlarmEvent (if a then 1 else 2)
    else ({ w with alarm := .idle }, .none)

def ledStep : World × Output :=
  match w.ledTask with
  | .waiting =>
    match w.mailbox with
    | none => (w, .none)
    | some value => ({ w with mailbox := none, ledTask := .notified value }, .none)
  | .notified value => ({ w with led := value, ledTask := .written value }, .none)
  | .written value =>
    ({ w with state := { w.state with ledOn := value }, ledTask := .waiting }, .none)

def setSensor (temperature humidity : ℚ) (light : UInt16) (valid : Bool) : World :=
  { w with state := { w.state with temperature := temperature, humidity := humidity, light := light,
                                   sensorValid := valid } }

/-- `read` is what the sensor gives, `light` what the fallback reads. -/
def sensorStep (read : Option (ℚ × ℚ × UInt16)) (light : UInt16) : World × Output :=
  match w.sensor with
  | .idle =>
    match read with
    | some data =>
      let recovered := ¬ w.sensorValid
      ({ w.setSensor data.1 data.2.1 data.2.2 true with
          failCount := 0, sensorValid := true
          sensor := if recovered then .report 4 else .idle }, .none)
    | none =>
      ({ w with failCount := if w.failCount < 0xFF then w.failCount + 1 else w.failCount
                sensor := .failed light w.state }, .none)
  | .failed light s =>
    let reported_valid := if w.failCount ≥ SENSOR_FAIL_TOLERANCE_COUNT then false else s.sensorValid
    let invalid := w.failCount ≥ SENSOR_FAIL_TOLERANCE_COUNT ∧ w.sensorValid = true
    ({ w.setSensor s.temperature s.humidity light reported_valid with
        sensorValid := if invalid then false else w.sensorValid
        sensor := if invalid then .report 3 else .idle }, .none)
  | .report event_code => { w with sensor := .idle }.reportAlarmEvent event_code

def keyStep (time : UInt32) : World × Output :=
  match w.key with
  | .idle =>
    if time ≥ KEY_MODE_SWITCH_PRESS_MS then ({ w with key := .pressed w.state.mode }, .none)
    else (w, .none)
  | .pressed mode =>
    let new_mode := match mode with | .auto => SmartHomeMode.manual | .manual => .auto
    ({ w with state := { w.state with mode := new_mode }, key := .idle }, .none)

def step (e : Event) : World × Output :=
  match e with
  | .alarm => w.alarmStep
  | .led => w.ledStep
  | .sensor read light => w.sensorStep read light
  | .key time => w.keyStep time
  | .setManualLed on => ({ w with state := { w.state with manualLedOn := on } }, .none)
  | .setManualBuzzer on => ({ w with state := { w.state with manualBuzzerOn := on } }, .none)
  | .setMode auto =>
    ({ w with state := { w.state with mode := if auto then .auto else .manual } }, .none)
  | .setThreshold temp humi =>
    ({ w with cfg := ⟨Binary32.round32 (temp.toNat / 10), Binary32.round32 (humi.toNat / 10)⟩ }, .none)
  | .receiveEvent =>
    match w.eventQueue with
    | [] => (w, .none)
    | event_code :: rest => ({ w with eventQueue := rest }, .sent event_code)

end World

/-- The scheduler starts; the LED pin keeps what it had. -/
def boot (led : Bool) : World where
  state := smartHomeStateInit
  cfg := smartHomeConfigInit
  led := led
  beep := false
  mailbox := none
  eventQueue := []
  alarm := .idle
  prevAlarm := false
  ledTask := .waiting
  sensor := .idle
  failCount := 0
  sensorValid := false
  key := .idle

end EdgeLink.Home
