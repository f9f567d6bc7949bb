import EdgeLink.IdTable
import EdgeLink.Machine
import EdgeLink.RecordCodec

/-! The history of the gateway in SQLite, and the two routes that page through it. -/

namespace EdgeLink.History
open Gateway IdTable

/-- Without the id; the `double`s are in thousandths. -/
structure SensorEventRecord where
  tsUnixMs : ℤ
  deviceId : ℤ
  deviceName : String
  frameType : String
  linkType : String
  seq : ℤ
  temperature : ℤ
  humidity : ℤ
  voltage : ℤ
  light : ℤ
  status : ℤ
  commandId : ℤ
  commandResult : ℤ
  payloadSummary : String
  lastError : String
  wifiRssi : ℤ
  wifiConnected : Bool
  wifiLastSeenMs : ℤ
  mq2Alarm : ℤ
  ld2402Presence : ℤ
  ledOn : ℤ
  alarmOn : ℤ
  sensorValid : ℤ
  autoMode : ℤ
  deriving DecidableEq

structure SystemEventRecord where
  tsUnixMs : ℤ
  eventType : String
  deviceId : ℤ
  detail : String
  deriving DecidableEq

/-- What is bound for the row, as it is read back. -/
def sensorEvent (data : SensorData) : SensorEventRecord where
  tsUnixMs := data.timestampUnixMs.toInt64.toInt
  deviceId := data.deviceId.toNat
  deviceName := data.deviceName
  frameType := frameTypeName data.frameType
  linkType := data.linkType
  seq := data.seq.toInt64.toInt
  temperature := data.temperature
  humidity := data.humidity
  voltage := data.voltage
  light := data.light
  status := data.status.toNat
  commandId := data.commandId.toNat
  commandResult := data.commandResult.toNat
  payloadSummary := data.payloadSummary
  lastError := data.lastError
  wifiRssi := data.wifiRssi
  wifiConnected := data.wifiConnected
  wifiLastSeenMs := data.wifiLastSeenMs.toInt64.toInt
  mq2Alarm := data.mq2Alarm
  ld2402Presence := data.ld2402Presence
  ledOn := data.ledOn
  alarmOn := data.alarmOn
  sensorValid := data.sensorValid
  autoMode := data.autoMode

def kSensorMaxRows : ℕ := 100000

def kSystemMaxRows : ℕ := 50000

def kSensorPruneInterval : ℕ := 1000

def kSystemPruneInterval : ℕ := 500

structure HistoryStore where
  sensorEvents : Table SensorEventRecord
  systemEvents : Table SystemEventRecord
  /-- `db_` and the two prepared statements -/
  db : Bool
  sensorInsertCount : ℕ
  systemInsertCount : ℕ

/-- How the calls of SQLite in an insert go. -/
structure Calls where
  bound : Bool
  stepped : Bool
  /-- the `DELETE`, should it come to that -/
  pruned : Bool

/-- How those in a query go: an error may end it behind some of the rows. -/
structure Reading where
  prepared : Bool
  failsAfter : Option ℕ

/-- No call fails. -/
def Reading.fine : Reading := ⟨true, none⟩

def Reading.rows {R : Type*} (reading : Reading) (window : List R) : List R :=
  if ¬ reading.prepared then [] else reading.failsAfter.elim window window.take

namespace HistoryStore
variable (s : HistoryStore)

def pruneSensorEvents (pruned : Bool) : HistoryStore :=
  if pruned then { s with sensorEvents := s.sensorEvents.keepNewest kSensorMaxRows } else s

def pruneSystemEvents (pruned : Bool) : HistoryStore :=
  if pruned then { s with systemEvents := s.systemEvents.keepNewest kSystemMaxRows } else s

def insertSensorEvent (data : SensorData) (calls : Calls) : HistoryStore × Bool :=
  if ¬ s.db then (s, false)
  else if ¬ calls.bound then (s, false)
  else if ¬ calls.stepped then (s, false)
  else
    let s := { s with sensorEvents := s.sensorEvents.insert (sensorEvent data)
                      sensorInsertCount := s.sensorInsertCount + 1 }
    if s.sensorInsertCount ≥ kSensorPruneInterval then
      ({ s with sensorInsertCount := 0 }.pruneSensorEvents calls.pruned, true)
    else (s, true)

/-- A row that is not written counts too. -/
def insertSystemEvent (row : SystemEventRecord) (calls : Calls) : HistoryStore × Bool :=
  if ¬ s.db then (s, false)
  else if ¬ calls.bound then (s, false)
  else
    let s := if calls.stepped then { s with systemEvents := s.systemEvents.insert row } else s
    let s := { s with systemInsertCount := s.systemInsertCount + 1 }
    if s.systemInsertCount ≥ kSystemPruneInterval then
      ({ s with systemInsertCount := 0 }.pruneSystemEvents calls.pruned, calls.stepped)
    else (s, calls.stepped)

/-- A new process opens the same file. -/
def restart (opened : Bool) : HistoryStore :=
  { s with db := opened, sensorInsertCount := 0, systemInsertCount := 0 }

def querySensorEvents (device_id limit offset : ℤ) (reading : Reading) :
    List (ℕ × SensorEventRecord) :=
  if ¬ s.db then []
  else reading.rows
    (s.sensorEvents.select (fun r => device_id = 0 ∨ r.deviceId = device_id) limit offset)

def querySystemEvents (limit offset : ℤ) (reading : Reading) : List (ℕ × SystemEventRecord) :=
  if ¬ s.db then [] else reading.rows (s.systemEvents.select (fun _ => true) limit offset)

end HistoryStore

inductive Event
  | sensor (data : SensorData) (calls : Calls)
  | system (row : SystemEventRecord) (calls : Calls)
  | restart (opened : Bool)

/-- The output tells whether a row was written. -/
def step (s : HistoryStore) (e : Event) : HistoryStore × Bool :=
  match e with
  | .sensor data calls => s.insertSensorEvent data calls
  | .system row calls => s.insertSystemEvent row calls
  | .restart opened => (s.restart opened, false)

def fresh (opened : Bool) : HistoryStore := ⟨.empty, .empty, opened, 0, 0⟩

structure Written where
  sensor : List SensorEventRecord
  system : List SystemEventRecord
  /-- restarts, and prunings that did not work -/
  sensorMisses : ℕ
  systemMisses : ℕ

def Event.missedSensorPrune (s : HistoryStore) (written : Bool) : Event → Bool
  | .sensor _ calls => written ∧ s.sensorInsertCount + 1 ≥ kSensorPruneInterval ∧ ¬ calls.pruned
  | .system _ _ => false
  | .restart _ => true

def Event.missedSystemPrune (s : HistoryStore) : Event → Bool
  | .sensor _ _ => false
  | .system _ calls =>
    s.db ∧ calls.bound ∧ s.systemInsertCount + 1 ≥ kSystemPruneInterval ∧ ¬ calls.pruned
  | .restart _ => true

def note (s : HistoryStore) (w : Written) (e : Event) (written : Bool) : Written where
  sensor :=
    match e with
    | .sensor data _ => if written then w.sensor ++ [sensorEvent data] else w.sensor
    | .system _ _ | .restart _ => w.sensor
  system :=
    match e with
    | .system row _ => if written then w.system ++ [row] else w.system
    | .sensor _ _ | .restart _ => w.system
  sensorMisses := w.sensorMisses + (e.missedSensorPrune s written).toNat
  systemMisses := w.systemMisses + (e.missedSystemPrune s).toNat

/-- A table with its counter: besides the `max` rows to keep there are those of the present interval,
and a whole interval for each pruning that was missed. -/
structure Kept {R : Type*} (t : Table R) (inserted : List R) (max interval count misses : ℕ) :
    Prop where
  retains : t.Retains inserted max
  counting : count < interval
  few : t.rows.length ≤ max + count + interval * misses

section
variable {R : Type*} {t t' : Table R} {inserted inserted' : List R}
  {max interval count misses : ℕ}

theorem Kept.restart (h : Kept t inserted max interval count misses) :
    Kept t inserted max interval 0 (misses + 1) where
  retains := h.retains
  counting := Nat.zero_lt_of_lt h.counting
  few := by
    have := h.few
    have := h.counting
    rw [Nat.mul_succ]
    omega

theorem Kept.next (h : Kept t inserted max interval count misses)
    (hr : t'.Retains inserted' max) (hl : t'.rows.length ≤ t.rows.length + 1)
    (hc : ¬ count + 1 ≥ interval) : Kept t' inserted' max interval (count + 1) misses where
  retains := hr
  counting := Nat.lt_of_not_ge hc
  few := by
    have := h.few
    omega

end

structure Inv (s : HistoryStore) (w : Written) : Prop where
  sensor : Kept s.sensorEvents w.sensor kSensorMaxRows kSensorPruneInterval s.sensorInsertCount
    w.sensorMisses
  system : Kept s.systemEvents w.system kSystemMaxRows kSystemPruneInterval s.systemInsertCount
    w.systemMisses

section
variable {s : HistoryStore} {w : Written}

theorem Inv.restart (h : Inv s w) (opened : Bool) :
    Inv (step s (.restart opened)).1 (note s w (.restart opened) (step s (.restart opened)).2) :=
  ⟨h.sensor.restart, h.system.restart⟩

theorem Inv.fresh (opened : Bool) : Inv (fresh opened) ⟨[], [], 0, 0⟩ where
  sensor := ⟨.empty _, Nat.succ_pos _, Nat.zero_le _⟩
  system := ⟨.empty _, Nat.succ_pos _, Nat.zero_le _⟩

end

/-- `queryParam` behind the question mark. -/
def findParam (key : List UInt8) (s : List UInt8) : List UInt8 :=
  if s = [] then []
  else
    let field := s.takeWhile (· ≠ 0x26)
    if 0x3D ∈ field ∧ field.takeWhile (· ≠ 0x3D) = key then (field.dropWhile (· ≠ 0x3D)).drop 1
    else findParam key (s.drop (field.length + 1))
termination_by s.length
decreasing_by
  rename_i h _
  have := List.length_pos_of_ne_nil h
  rw [List.length_drop]
  omega

def queryParam (full_path key : List UInt8) : List UInt8 :=
  findParam key ((full_path.dropWhile (· ≠ 0x3F)).drop 1)

def INT_MAX : ℤ := 2147483647

def normalizeQueryParam (full_path key : List UInt8) (default_val min_val max_val : ℤ) : ℤ :=
  match queryParam full_path key with
  | [] => default_val
  | s =>
    match stoi (chars s) with
    | none => default_val
    | some val =>
      if val < 0 then default_val
      else if val < min_val then min_val
      else if val > max_val then max_val
      else val

theorem normalizeQueryParam_mem (full_path key : List UInt8) {default_val min_val max_val : ℤ}
    (hd : min_val ≤ default_val ∧ default_val ≤ max_val) :
    min_val ≤ normalizeQueryParam full_path key default_val min_val max_val ∧
      normalizeQueryParam full_path key default_val min_val max_val ≤ max_val := by
  unfold normalizeQueryParam
  cases queryParam full_path key with
  | nil => exact hd
  | cons c s =>
    dsimp only
    cases stoi (chars (c :: s)) with
    | none => exact hd
    | some val =>
      dsimp only
      split_ifs <;> omega

/-- `/api/history` -/
def historyRoute (s : HistoryStore) (path : List UInt8) (reading : Reading) :
    List (ℕ × SensorEventRecord) :=
  s.querySensorEvents (normalizeQueryParam path "device_id".toUTF8.toList 0 0 INT_MAX)
    (normalizeQueryParam path "limit".toUTF8.toList 100 1 1000)
    (normalizeQueryParam path "offset".toUTF8.toList 0 0 INT_MAX) reading

/-- `/api/history/system` -/
def systemRoute (s : HistoryStore) (path : List UInt8) (reading : Reading) :
    List (ℕ × SystemEventRecord) :=
  s.querySystemEvents (normalizeQueryParam path "limit".toUTF8.toList 100 1 1000)
    (normalizeQueryParam path "offset".toUTF8.toList 0 0 INT_MAX) reading

/-- The answer is the beginning of the window, and all of it if nothing fails. -/
structure Serves {R : Type*} (s : HistoryStore) (reading : Reading) (answer window : List R) :
    Prop where
  begins : answer <+: window
  whole : s.db = true → reading = .fine → answer = window

theorem Serves.rows {R : Type*} (s : HistoryStore) (reading : Reading) (window : List R) :
    Serves s reading (if ¬ s.db then [] else reading.rows window) window := by
  refine ⟨?_, ?_⟩
  · unfold Reading.rows
    split
    · exact List.nil_prefix
    · split
      · exact List.nil_prefix
      · cases reading.failsAfter with
        | none => exact List.prefix_rfl
        | some n => exact List.take_prefix n window
  · rintro hdb rfl
    rw [if_neg (not_not.mpr hdb)]
    rfl

/-- All calls of SQLite work. -/
def Calls.fine : Calls := ⟨true, true, true⟩

/-- No path makes a route ask SQLite for everything: a page has at most a thousand events. -/
theorem pages_short (s : HistoryStore) (path : List UInt8) (reading : Reading) :
    (historyRoute s path reading).length ≤ 1000 ∧ (systemRoute s path reading).length ≤ 1000 := by
  have hlimit : 1 ≤ normalizeQueryParam path "limit".toUTF8.toList 100 1 1000 ∧
      normalizeQueryParam path "limit".toUTF8.toList 100 1 1000 ≤ 1000 :=
    normalizeQueryParam_mem _ _ ⟨by decide, by decide⟩
  have hselect {R : Type} (t : Table R) (p : R → Bool) (limit offset : ℤ)
      (h : 1 ≤ limit ∧ limit ≤ 1000) : (t.select p limit offset).length ≤ 1000 := by
    rw [Table.select, if_neg (by omega)]
    exact (List.length_take_le _ _).trans (by omega)
  exact ⟨(Serves.rows s reading _).begins.length_le.trans (hselect _ _ _ _ hlimit),
    (Serves.rows s reading _).begins.length_le.trans (hselect _ _ _ _ hlimit)⟩

end EdgeLink.History
