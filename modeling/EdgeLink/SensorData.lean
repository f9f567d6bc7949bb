import Mathlib

namespace EdgeLink.Gateway

inductive FrameType
  | sensorData | alarmEvent | heartbeat | commandAck | deviceStatus | reportAck | unknown
  deriving DecidableEq, Repr

/-- The enumerator's number. -/
def FrameType.wire : FrameType → UInt8
  | sensorData => 0x01
  | alarmEvent => 0x02
  | heartbeat => 0x03
  | commandAck => 0x04
  | deviceStatus => 0x05
  | reportAck => 0x06
  | unknown => 0xFF

def frameTypeFromWire (type : UInt8) : FrameType :=
  if type = 0x01 then .sensorData
  else if type = 0x02 then .alarmEvent
  else if type = 0x03 then .heartbeat
  else if type = 0x04 then .commandAck
  else if type = 0x05 then .deviceStatus
  else if type = 0x06 then .reportAck
  else .unknown

def frameTypeName : FrameType → String
  | .sensorData => "sensor_data"
  | .alarmEvent => "alarm_event"
  | .heartbeat => "heartbeat"
  | .commandAck => "command_ack"
  | .deviceStatus => "device_status"
  | .reportAck => "report_ack"
  | .unknown => "unknown"

theorem frameTypeFromWire_wire (t : FrameType) : frameTypeFromWire t.wire = t := by
  cases t <;> rfl

/-- The `double`s are in thousandths. -/
structure SensorData where
  timestampUnixMs : UInt64 := 0
  deviceId : UInt8 := 0
  frameType : FrameType := .sensorData
  deviceName : String := ""
  topicSuffix : String := ""
  payloadSummary : String := ""
  lastError : String := ""
  temperature : ℤ := 0
  humidity : ℤ := 0
  voltage : ℤ := 0
  light : ℤ := -1000
  status : UInt8 := 0
  commandId : UInt16 := 0
  commandResult : UInt8 := 0
  linkType : String := "serial"
  wifiRssi : ℤ := 0
  wifiConnected : Bool := false
  wifiLastSeenMs : UInt64 := 0
  seq : UInt64 := 0
  mq2Alarm : ℤ := -1
  ld2402Presence : ℤ := -1
  ledOn : ℤ := -1
  alarmOn : ℤ := -1
  sensorValid : ℤ := -1
  autoMode : ℤ := -1
  deriving DecidableEq

def decimal (n : ℕ) : List Char := Nat.toDigits 10 n

/-- `std::fixed` with three digits. -/
def fixed3 (m : ℤ) : List Char :=
  (if m < 0 then ['-'] else []) ++ decimal (m.natAbs / 1000) ++
    ['.', (m.natAbs / 100 % 10).digitChar, (m.natAbs / 10 % 10).digitChar,
      (m.natAbs % 10).digitChar]

/-- `std::to_string` of a `double`: six digits. -/
def toStringDouble (m : ℤ) : String := String.ofList (fixed3 m ++ ['0', '0', '0'])

end EdgeLink.Gateway
