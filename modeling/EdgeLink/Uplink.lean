import EdgeLink.JsonEvents
import EdgeLink.RawFields

namespace EdgeLink.Uplink

open Json
open Gateway (FrameType frameTypeName)
open CommandJson (device_id_plain device_name_plain link_type_plain
  payload_summary_plain topic_suffix_plain event_type_plain timestamp_plain status_plain
  command_id_plain command_result_plain)
open Doubles (Double)
open Utf8 (Encoded)
open RawFields

/-- What the writers read of a record. The texts are bytes as they came. -/
structure SensorData where
  timestamp_unix_ms : UInt64 := 0
  device_id : UInt8 := 0
  frame_type : FrameType := .sensorData
  device_name : Text := []
  topic_suffix : Text := []
  payload_summary : Text := []
  temperature : Double := .finite false 0
  humidity : Double := .finite false 0
  voltage : Double := .finite false 0
  status : UInt8 := 0
  command_id : UInt16 := 0
  command_result : UInt8 := 0
  link_type : Text := ascii "serial"

def name (data : SensorData) : Text :=
  if data.device_name = [] then ascii "sensor-" ++ natText data.device_id.toNat
  else data.device_name

def linkType (data : SensorData) : Text :=
  if data.link_type = [] then ascii "serial" else data.link_type

/-- The object with the members that a writer puts behind the name. -/
def toJson (link : Text) (data : SensorData) : Text :=
  ascii "\x7b"
    ++ ascii "\"device_id\":" ++ natText data.device_id.toNat ++ ascii ","
    ++ ascii "\"device_name\":\"" ++ name data ++ ascii "\","
    ++ link
    ++ ascii "\"event_type\":\"" ++ ascii (frameTypeName data.frame_type) ++ ascii "\","
    ++ ascii "\"timestamp\":" ++ natText data.timestamp_unix_ms.toNat ++ ascii ","
    ++ ascii "\"temperature\":" ++ data.temperature.text ++ ascii ","
    ++ ascii "\"humidity\":" ++ data.humidity.text ++ ascii ","
    ++ ascii "\"voltage\":" ++ data.voltage.text ++ ascii ","
    ++ ascii "\"status\":" ++ natText data.status.toNat ++ ascii ","
    ++ ascii "\"command_id\":" ++ natText data.command_id.toNat ++ ascii ","
    ++ ascii "\"command_result\":" ++ natText data.command_result.toNat
    ++ (if data.payload_summary ≠ [] then
        ascii ",\"payload_summary\":\"" ++ data.payload_summary ++ ascii "\""
      else [])
    ++ (if data.topic_suffix ≠ [] then
        ascii ",\"topic_suffix\":\"" ++ data.topic_suffix ++ ascii "\""
      else [])
    ++ ascii "\x7d"

def TcpUploader.toJson (data : SensorData) : Text :=
  Uplink.toJson (ascii "\"link_type\":\"" ++ linkType data ++ ascii "\",") data

def MqttUploader.toJson (data : SensorData) : Text := Uplink.toJson [] data

/-- What reaches the socket, and whether all of it did. A call that sends says how many bytes. -/
def sendAll (send : ℕ → Text → ℤ) (calls : ℕ) (data : Text) : Text × Bool :=
  if data = [] then ([], true)
  else if send calls data ≤ 0 then ([], false)
  else
    let rest := sendAll send (calls + 1) (data.drop (send calls data).toNat)
    (data.take (send calls data).toNat ++ rest.1, rest.2)
termination_by data.length
decreasing_by
  rename_i hne hsent
  have hpos := List.length_pos_of_ne_nil hne
  rw [List.length_drop]
  omega

def sendLine (send : ℕ → Text → ℤ) (payload : Text) : Text × Bool :=
  sendAll send 0 (payload ++ ascii "\n")

theorem sendAll_spec (send : ℕ → Text → ℤ) (calls : ℕ) (data : Text) :
    (sendAll send calls data).1 <+: data ∧
      ((sendAll send calls data).2 = true → (sendAll send calls data).1 = data) := by
  induction calls, data using sendAll.induct send with
  | case1 calls =>
    rw [sendAll, if_pos rfl]
    exact ⟨List.prefix_rfl, fun _ => rfl⟩
  | case2 calls data hne hsent =>
    rw [sendAll, if_neg hne, if_pos hsent]
    exact ⟨List.nil_prefix, nofun⟩
  | case3 calls data hne hsent ih =>
    rw [sendAll, if_neg hne, if_neg hsent]
    dsimp only
    obtain ⟨hpre, hall⟩ := ih
    have hsplit := List.take_append_drop (send calls data).toNat data
    constructor
    · conv_rhs => rw [← hsplit]
      exact List.prefix_append_right_inj _ |>.mpr hpre
    · intro hok
      rw [hall hok, hsplit]

def deviceFields (data : SensorData) : List (PlainName × Field) :=
  [(⟨ascii "device_id", device_id_plain⟩, .int data.device_id.toNat),
    (⟨ascii "device_name", device_name_plain⟩, .text (name data))]

def linkFields (data : SensorData) : List (PlainName × Field) :=
  [(⟨ascii "link_type", link_type_plain⟩, .text (linkType data))]

def summaryFields (data : SensorData) : List (PlainName × Field) :=
  if data.payload_summary ≠ [] then
    [(⟨ascii "payload_summary", payload_summary_plain⟩, .text data.payload_summary)]
  else []

def topicFields (data : SensorData) : List (PlainName × Field) :=
  if data.topic_suffix ≠ [] then
    [(⟨ascii "topic_suffix", topic_suffix_plain⟩, .text data.topic_suffix)]
  else []

def eventFields (data : SensorData) : List (PlainName × Field) :=
  [(⟨ascii "event_type", event_type_plain⟩, .text (ascii (frameTypeName data.frame_type))),
    (⟨ascii "timestamp", timestamp_plain⟩, .int data.timestamp_unix_ms.toNat),
    (⟨ascii "temperature", by decide⟩, .real data.temperature),
    (⟨ascii "humidity", by decide⟩, .real data.humidity),
    (⟨ascii "voltage", by decide⟩, .real data.voltage),
    (⟨ascii "status", status_plain⟩, .int data.status.toNat),
    (⟨ascii "command_id", command_id_plain⟩, .int data.command_id.toNat),
    (⟨ascii "command_result", command_result_plain⟩, .int data.command_result.toNat)]
    ++ summaryFields data ++ topicFields data

def recordFields (link : List (PlainName × Field)) (data : SensorData) : List (PlainName × Field) :=
  deviceFields data ++ link ++ eventFields data

/-- The two texts are objects of one line with the record's members, and one line is sent. -/
structure Carried (data : SensorData) : Prop where
  tcp : Spelled (recordFields (linkFields data) data) (TcpUploader.toJson data)
  mqtt : Spelled (recordFields [] data) (MqttUploader.toJson data)
  line : ∀ send, (sendLine send (TcpUploader.toJson data)).2 = true →
    ∃ line, (sendLine send (TcpUploader.toJson data)).1 = line ++ [0x0A] ∧ 0x0A ∉ line

/-- Every text can stand between quotes as it is, and every measurement is a number. -/
structure Writable (data : SensorData) : Prop where
  device_name : PlainText data.device_name ∧ Encoded data.device_name
  link_type : PlainText data.link_type ∧ Encoded data.link_type
  payload_summary : PlainText data.payload_summary ∧ Encoded data.payload_summary
  topic_suffix : PlainText data.topic_suffix ∧ Encoded data.topic_suffix
  temperature : data.temperature.isFinite = true
  humidity : data.humidity.isFinite = true
  voltage : data.voltage.isFinite = true

/-- A `double` of so many thousandths. -/
def thousandths (m : ℤ) : Double := .finite (decide (m < 0)) (m.natAbs / 1000)

/-- What the writers read of a record in the gateway's queue. -/
def ofQueued (data : Gateway.SensorData) : SensorData where
  timestamp_unix_ms := data.timestampUnixMs
  device_id := data.deviceId
  frame_type := data.frameType
  device_name := CommandJson.bytes data.deviceName
  topic_suffix := CommandJson.bytes data.topicSuffix
  payload_summary := CommandJson.bytes data.payloadSummary
  temperature := thousandths data.temperature
  humidity := thousandths data.humidity
  voltage := thousandths data.voltage
  status := data.status
  command_id := data.commandId
  command_result := data.commandResult
  link_type := CommandJson.bytes data.linkType

/-- Its measurements are finite, so only the texts can be in the way. -/
theorem writable_ofQueued (data : Gateway.SensorData) : Writable (ofQueued data) ↔
    ∀ s ∈ [data.deviceName, data.linkType, data.payloadSummary, data.topicSuffix],
      PlainText (CommandJson.bytes s) ∧ Encoded (CommandJson.bytes s) := by
  simp only [List.forall_mem_cons]
  constructor
  · exact fun h => ⟨h.device_name, h.link_type, h.payload_summary, h.topic_suffix, nofun⟩
  · rintro ⟨hname, hlink, hsummary, htopic, -⟩
    exact ⟨hname, hlink, hsummary, htopic, rfl, rfl, rfl⟩

theorem toJson_eq (link : List (PlainName × Field)) (linkText : Text) (data : SensorData)
    (hlink : ∀ rest : List (PlainName × Field), rest ≠ [] →
      membersRaw (link ++ rest) = linkText ++ membersRaw rest) :
    toJson linkText data = objectRaw (recordFields link data) := by
  have hopen : ascii "\x7b" = [0x7B] := rfl
  have hclose : ascii "\x7d" = [0x7D] := rfl
  have hcomma : ascii "," = [0x2C] := rfl
  have hquote : ascii "\"" = [0x22] := rfl
  have hnext : ascii "\"," = [0x22, 0x2C] := rfl
  have h₁ : ascii "\"device_id\":" = 0x22 :: (ascii "device_id" ++ [0x22, 0x3A]) := rfl
  have h₂ : ascii "\"device_name\":\"" = 0x22 :: (ascii "device_name" ++ [0x22, 0x3A, 0x22]) := rfl
  have h₃ : ascii "\"event_type\":\"" = 0x22 :: (ascii "event_type" ++ [0x22, 0x3A, 0x22]) := rfl
  have h₄ : ascii "\"timestamp\":" = 0x22 :: (ascii "timestamp" ++ [0x22, 0x3A]) := rfl
  have h₅ : ascii "\"temperature\":" = 0x22 :: (ascii "temperature" ++ [0x22, 0x3A]) := rfl
  have h₆ : ascii "\"humidity\":" = 0x22 :: (ascii "humidity" ++ [0x22, 0x3A]) := rfl
  have h₇ : ascii "\"voltage\":" = 0x22 :: (ascii "voltage" ++ [0x22, 0x3A]) := rfl
  have h₈ : ascii "\"status\":" = 0x22 :: (ascii "status" ++ [0x22, 0x3A]) := rfl
  have h₉ : ascii "\"command_id\":" = 0x22 :: (ascii "command_id" ++ [0x22, 0x3A]) := rfl
  have h₁₀ : ascii "\"command_result\":" = 0x22 :: (ascii "command_result" ++ [0x22, 0x3A]) := rfl
  have h₁₁ : ascii ",\"payload_summary\":\"" =
      0x2C :: 0x22 :: (ascii "payload_summary" ++ [0x22, 0x3A, 0x22]) := rfl
  have h₁₂ : ascii ",\"topic_suffix\":\"" =
      0x2C :: 0x22 :: (ascii "topic_suffix" ++ [0x22, 0x3A, 0x22]) := rfl
  have hmore (f g : PlainName × Field) (fs : List (PlainName × Field)) : membersRaw (f :: g :: fs) =
      f.1.label.text ++ (f.2.raw ++ 0x2C :: membersRaw (g :: fs)) := rfl
  have hone (f : PlainName × Field) : membersRaw [f] = f.1.label.text ++ f.2.raw := rfl
  have hdevice (rest : List (PlainName × Field)) (hne : rest ≠ []) :
      membersRaw (deviceFields data ++ rest) = 0x22 :: (ascii "device_id" ++ 0x22 :: 0x3A ::
        (natText data.device_id.toNat ++ 0x2C :: 0x22 :: (ascii "device_name" ++
          0x22 :: 0x3A :: 0x22 :: (name data ++ 0x22 :: 0x2C :: membersRaw rest)))) := by
    obtain ⟨g, rest, rfl⟩ := List.exists_cons_of_ne_nil hne
    unfold deviceFields
    simp only [List.cons_append, List.nil_append, hmore, PlainName.label_text, Field.raw,
      List.append_assoc]
  have hevent : eventFields data ≠ [] := List.cons_ne_nil _ _
  unfold objectRaw recordFields
  rw [List.append_assoc, hdevice _ (List.append_ne_nil_of_right_ne_nil _ hevent), hlink _ hevent]
  unfold toJson eventFields summaryFields topicFields
  simp only [hopen, hclose, hcomma, hquote, hnext, h₁, h₂, h₃, h₄, h₅, h₆, h₇, h₈, h₉, h₁₀, h₁₁, h₁₂]
  by_cases hsummary : data.payload_summary ≠ [] <;> by_cases htopic : data.topic_suffix ≠ [] <;>
    simp only [hsummary, htopic, if_true, if_false, not_false_eq_true, ne_eq,
      hmore, hone, PlainName.label_text, Field.raw, List.append_assoc, List.cons_append,
      List.nil_append, List.append_nil]

theorem tcp_toJson_eq (data : SensorData) :
    TcpUploader.toJson data = objectRaw (recordFields (linkFields data) data) := by
  refine toJson_eq _ _ data fun rest hne => ?_
  have hopen : ascii "\"link_type\":\"" = 0x22 :: (ascii "link_type" ++ [0x22, 0x3A, 0x22]) := rfl
  have hnext : ascii "\"," = [0x22, 0x2C] := rfl
  obtain ⟨g, rest, rfl⟩ := List.exists_cons_of_ne_nil hne
  change (PlainName.label ⟨ascii "link_type", _⟩).text ++ (0x22 :: (linkType data ++ [0x22]) ++
    0x2C :: membersRaw (g :: rest)) = _
  simp only [PlainName.label_text, hopen, hnext, List.append_assoc, List.cons_append, List.nil_append]

theorem mqtt_toJson_eq (data : SensorData) :
    MqttUploader.toJson data = objectRaw (recordFields [] data) :=
  toJson_eq [] [] data fun _ _ => rfl

section Fields

variable (data : SensorData)

def memberNames : List Text :=
  [ascii "device_id", ascii "device_name", ascii "link_type", ascii "event_type", ascii "timestamp",
    ascii "temperature", ascii "humidity", ascii "voltage", ascii "status", ascii "command_id",
    ascii "command_result", ascii "payload_summary", ascii "topic_suffix"]

theorem summary_sublist : ((summaryFields data).map (·.1.1)).Sublist [ascii "payload_summary"] := by
  unfold summaryFields
  split_ifs
  · exact List.Sublist.refl _
  · exact List.nil_sublist _

theorem topic_sublist : ((topicFields data).map (·.1.1)).Sublist [ascii "topic_suffix"] := by
  unfold topicFields
  split_ifs
  · exact List.Sublist.refl _
  · exact List.nil_sublist _

theorem names_sublist {link : List (PlainName × Field)}
    (hlink : (link.map (·.1.1)).Sublist [ascii "link_type"]) :
    ((recordFields link data).map (·.1.1)).Sublist memberNames := by
  unfold recordFields eventFields
  simp only [List.map_append]
  exact (((List.Sublist.refl _).append hlink).append
    (((List.Sublist.refl _).append (summary_sublist data)).append (topic_sublist data)))

theorem memberNames_nodup : memberNames.Nodup := by decide +kernel

theorem memberNames_encoded : ∀ n ∈ memberNames, Encoded n := by
  have hlow : ∀ n ∈ memberNames, n.all (· < 0x80) = true := by decide +kernel
  exact fun n hn => Encoded.of_ascii fun b hb => of_decide_eq_true (List.all_eq_true.mp (hlow n hn) b hb)

theorem record_spelled_iff {link : List (PlainName × Field)}
    (hlink : (link.map (·.1.1)).Sublist [ascii "link_type"]) :
    Spelled (recordFields link data) (objectRaw (recordFields link data)) ↔
      ∀ f ∈ recordFields link data, f.2.Sound := by
  have hnames := names_sublist data hlink
  exact spelled_iff (List.cons_ne_nil _ _) (hnames.nodup memberNames_nodup)
    fun f hf => memberNames_encoded _ (hnames.subset (List.mem_map_of_mem hf))

theorem ascii_encoded {t : Text} (h : t.all (· < 0x80) = true) : Encoded t :=
  Encoded.of_ascii fun b hb => of_decide_eq_true (List.all_eq_true.mp h b hb)

/-- A made name is as sound as an empty one. -/
theorem name_sound : (Field.text (name data)).Sound ↔ (Field.text data.device_name).Sound := by
  unfold name
  split_ifs with h
  · rw [h]
    have hempty : (Field.text []).Sound := ⟨nofun, Encoded.nil⟩
    have hmade : (Field.text (ascii "sensor-" ++ natText data.device_id.toNat)).Sound :=
      ⟨CommandJson.plainText_append (by decide) (CommandJson.natText_plain _),
        (ascii_encoded (by decide +kernel)).append (digits_inline _).1⟩
    exact iff_of_true hmade hempty
  · rfl

theorem linkType_sound : (Field.text (linkType data)).Sound ↔ (Field.text data.link_type).Sound := by
  unfold linkType
  split_ifs with h
  · rw [h]
    have hempty : (Field.text []).Sound := ⟨nofun, Encoded.nil⟩
    exact iff_of_true ⟨by decide, ascii_encoded (by decide +kernel)⟩ hempty
  · rfl

theorem summary_sound :
    (∀ f ∈ summaryFields data, f.2.Sound) ↔ (Field.text data.payload_summary).Sound := by
  unfold summaryFields
  split_ifs with h
  · exact List.forall_mem_singleton
  · rw [not_not.mp h]
    exact iff_of_true nofun ⟨nofun, Encoded.nil⟩

theorem topic_sound :
    (∀ f ∈ topicFields data, f.2.Sound) ↔ (Field.text data.topic_suffix).Sound := by
  unfold topicFields
  split_ifs with h
  · exact List.forall_mem_singleton
  · rw [not_not.mp h]
    exact iff_of_true nofun ⟨nofun, Encoded.nil⟩

theorem frameTypeName_sound : (Field.text (ascii (frameTypeName data.frame_type))).Sound := by
  cases data.frame_type <;> exact ⟨by decide, ascii_encoded (by decide +kernel)⟩

/-- The fields beside the link's are sound as the record's texts and measurements are. -/
theorem record_sound (link : List (PlainName × Field)) :
    (∀ f ∈ recordFields link data, f.2.Sound) ↔
      (Field.text data.device_name).Sound ∧ (∀ f ∈ link, f.2.Sound) ∧
      (data.temperature.isFinite = true ∧ data.humidity.isFinite = true ∧
        data.voltage.isFinite = true) ∧
      (Field.text data.payload_summary).Sound ∧ (Field.text data.topic_suffix).Sound := by
  have hint (n : ℕ) : (Field.int n).Sound := trivial
  unfold recordFields eventFields deviceFields
  simp only [List.forall_mem_append, List.forall_mem_cons, summary_sound, topic_sound, name_sound]
  constructor
  · rintro ⟨⟨⟨-, hname, -⟩, hlink⟩, ⟨⟨-, -, ht, hh, hv, -⟩, hsummary⟩, htopic⟩
    exact ⟨hname, hlink, ⟨ht, hh, hv⟩, hsummary, htopic⟩
  · rintro ⟨hname, hlink, ⟨ht, hh, hv⟩, hsummary, htopic⟩
    exact ⟨⟨⟨hint _, hname, nofun⟩, hlink⟩, ⟨⟨frameTypeName_sound data, hint _, ht, hh, hv, hint _,
      hint _, hint _, nofun⟩, hsummary⟩, htopic⟩

theorem tcp_spelled_iff :
    Spelled (recordFields (linkFields data) data) (TcpUploader.toJson data) ↔ Writable data := by
  rw [tcp_toJson_eq, record_spelled_iff data (List.Sublist.refl _), record_sound, linkFields,
    List.forall_mem_singleton, linkType_sound]
  constructor
  · rintro ⟨hname, hlink, ⟨ht, hh, hv⟩, hsummary, htopic⟩
    exact ⟨hname, hlink, hsummary, htopic, ht, hh, hv⟩
  · intro h
    exact ⟨h.device_name, h.link_type, ⟨h.temperature, h.humidity, h.voltage⟩, h.payload_summary,
      h.topic_suffix⟩

theorem mqtt_spelled (h : Writable data) : Spelled (recordFields [] data) (MqttUploader.toJson data) := by
  rw [mqtt_toJson_eq, @record_spelled_iff data [] (List.nil_sublist _), record_sound]
  exact ⟨h.device_name, nofun, ⟨h.temperature, h.humidity, h.voltage⟩, h.payload_summary,
    h.topic_suffix⟩

end Fields

/-- A record goes up as one object a line if and only if its texts need no escape, are UTF-8, and
its measurements are finite. -/
theorem carried_iff (data : SensorData) : Carried data ↔ Writable data := by
  constructor
  · exact fun h => (tcp_spelled_iff data).mp h.tcp
  · intro h
    have htcp := (tcp_spelled_iff data).mpr h
    refine ⟨htcp, mqtt_spelled data h, fun send hsent => ⟨TcpUploader.toJson data, ?_, htcp.oneLine⟩⟩
    obtain ⟨-, hall⟩ := sendAll_spec send 0 (TcpUploader.toJson data ++ ascii "\n")
    exact hall hsent

/-- A device that gives itself a name with a quote in it breaks the record. -/
theorem quoted_name_not_carried : ¬Carried { device_name := ascii "a\"b" } := by
  intro h
  have hplain := ((tcp_spelled_iff _).mp h.tcp).device_name.1
  exact absurd hplain (by decide)

end EdgeLink.Uplink
