import EdgeLink.CommandAgreement

namespace EdgeLink.CommandJson

open Json Lookup Gateway Node

/-- `?` stands for the control characters that have no short escape. -/
def escapeChar (b : UInt8) : StrChar :=
  if b = 0x22 then .escape .quote
  else if b = 0x5C then .escape .backslash
  else if b = 0x08 then .escape .backspace
  else if b = 0x0C then .escape .formFeed
  else if b = 0x0A then .escape .lineFeed
  else if b = 0x0D then .escape .carriageReturn
  else if b = 0x09 then .escape .tab
  else if h : 0x20 ≤ b ∧ b ≠ 0x22 ∧ b ≠ 0x5C then .plain ⟨b, h⟩
  else .plain ⟨0x3F, by decide⟩

def Str.escaped (t : Text) : Str := t.map escapeChar

/-- The control characters that can be escaped. -/
def shortEscaped : List UInt8 := [0x08, 0x0C, 0x0A, 0x0D, 0x09]

def Clean (t : Text) : Prop := ∀ b ∈ t, 0x20 ≤ b ∨ b ∈ shortEscaped

instance (t : Text) : Decidable (Clean t) := inferInstanceAs (Decidable (∀ b ∈ t, _))

theorem escapeChar_text (b : UInt8) : (escapeChar b).text = escapeByte b := by
  unfold escapeChar escapeByte
  by_cases hquote : b = 0x22
  · rw [if_pos hquote, if_pos hquote]
    rfl
  rw [if_neg hquote, if_neg hquote]
  by_cases hback : b = 0x5C
  · rw [if_pos hback, if_pos hback]
    rfl
  rw [if_neg hback, if_neg hback]
  split_ifs with _ _ _ _ _ hplain hlow hlow
  any_goals rfl
  · exact absurd hlow (UInt8.not_lt.mpr hplain.1)
  · exact absurd ⟨UInt8.not_lt.mp hlow, hquote, hback⟩ hplain

theorem escapeChar_simple (b : UInt8) : (escapeChar b).isUnicode = false := by
  unfold escapeChar
  split_ifs <;> rfl

theorem decode_escapeChar {b : UInt8} (hb : 0x20 ≤ b ∨ b ∈ shortEscaped) (s : Str) :
    Str.decode (escapeChar b :: s) = b :: s.decode := by
  unfold escapeChar
  split_ifs with hquote hback hbs hff hlf hcr htab hplain
  · rw [hquote]; rfl
  · rw [hback]; rfl
  · rw [hbs]; rfl
  · rw [hff]; rfl
  · rw [hlf]; rfl
  · rw [hcr]; rfl
  · rw [htab]; rfl
  · rfl
  · have hshort := hb.resolve_left fun h => hplain ⟨h, hquote, hback⟩
    simp [shortEscaped, hbs, hff, hlf, hcr, htab] at hshort

section Escaped

variable (t : Text)

theorem Str.text_escaped : (Str.escaped t).text = 0x22 :: (jsonEscape t ++ [0x22]) := by
  have hbody : (Str.escaped t).body = jsonEscape t := by
    unfold Str.body Str.escaped jsonEscape
    rw [List.flatMap_map]
    exact List.flatMap_congr fun b _ => escapeChar_text b
  rw [Str.text, hbody]

theorem Str.simple_escaped : (Str.escaped t).Simple := by
  intro c hc
  obtain ⟨b, -, rfl⟩ := List.mem_map.mp hc
  exact escapeChar_simple b

variable {t}

theorem Str.decode_escaped (ht : Clean t) : (Str.escaped t).decode = t := by
  induction t with
  | nil => rfl
  | cons b t ih =>
    have htail := ih fun c hc => ht c (List.mem_cons_of_mem b hc)
    exact (decode_escapeChar (ht b List.mem_cons_self) _).trans (congrArg (b :: ·) htail)

/-- What is written as an escaped string is read as the text. -/
theorem simpleString_escaped (ht : Clean t) : simpleString (.string (Str.escaped t)) = some t := by
  rw [simpleString, if_pos (Str.simple_escaped t), Str.decode_escaped ht]

end Escaped

theorem int64_natCast {n : ℕ} : (number (n : ℤ)).int64? = if n < 2 ^ 63 then some (n : ℤ) else none := by
  rw [number, Value.int64?, Number.int?_ofInt, Option.filter_some]
  by_cases h : n < 2 ^ 63
  · rw [if_pos h, if_pos (decide_eq_true (by omega))]
  · rw [if_neg h, if_neg (by rw [decide_eq_true_iff]; omega)]

/-- The bytes of a text of one character a byte. -/
def bytes (s : String) : Text := s.toList.map fun c => .ofNat c.toNat

theorem bytes_fromBytes (t : Text) : bytes (fromBytes t) = t := by
  unfold bytes fromBytes
  rw [String.toList_ofList, List.map_map]
  refine (List.map_congr_left fun b _ => ?_).trans (List.map_id t)
  have hlt := b.toNat_lt
  have hvalid : b.toNat.isValidChar := Or.inl (by omega)
  simp only [Function.comp_apply, Char.toNat_ofNat, if_pos hvalid, UInt8.ofNat_toNat, id]

/-- The device's name, or one made from its number. -/
def eventName (data : SensorData) : Text :=
  if data.deviceName = "" then ascii "sensor-" ++ natText data.deviceId.toNat
  else bytes data.deviceName

def eventLink (data : SensorData) : Text :=
  if data.linkType = "" then ascii "serial" else bytes data.linkType

def buildUpstreamFrameEventJson (data : SensorData) : Text :=
  ascii "\x7b"
    ++ ascii "\"type\":\"event\","
    ++ ascii "\"device_id\":" ++ natText data.deviceId.toNat ++ ascii ","
    ++ ascii "\"device_name\":\"" ++ jsonEscape (eventName data) ++ ascii "\","
    ++ ascii "\"event_type\":\"" ++ jsonEscape (ascii (frameTypeName data.frameType)) ++ ascii "\","
    ++ ascii "\"timestamp\":" ++ natText data.timestampUnixMs.toNat ++ ascii ","
    ++ ascii "\"status\":" ++ natText data.status.toNat ++ ascii ","
    ++ ascii "\"command_id\":" ++ natText data.commandId.toNat ++ ascii ","
    ++ ascii "\"command_result\":" ++ natText data.commandResult.toNat ++ ascii ","
    ++ ascii "\"link_type\":\"" ++ jsonEscape (eventLink data) ++ ascii "\","
    ++ ascii "\"payload_summary\":\"" ++ jsonEscape (bytes data.payloadSummary) ++ ascii "\""
    ++ (if data.topicSuffix ≠ "" then
        ascii ",\"topic_suffix\":\"" ++ jsonEscape (bytes data.topicSuffix) ++ ascii "\""
      else [])
    ++ ascii "\x7d"

def escapedString (t : Text) : Value := .string (Str.escaped t)

theorem status_plain : PlainText (ascii "status") := by decide

theorem topic_suffix_plain : PlainText (ascii "topic_suffix") := by decide

def eventFields (data : SensorData) : List (PlainName × Value) :=
  [(⟨ascii "device_id", device_id_plain⟩, number data.deviceId.toNat),
    (⟨ascii "device_name", device_name_plain⟩, escapedString (eventName data)),
    (⟨ascii "event_type", event_type_plain⟩, escapedString (ascii (frameTypeName data.frameType))),
    (⟨ascii "timestamp", timestamp_plain⟩, number data.timestampUnixMs.toNat),
    (⟨ascii "status", status_plain⟩, number data.status.toNat),
    (⟨ascii "command_id", command_id_plain⟩, number data.commandId.toNat),
    (⟨ascii "command_result", command_result_plain⟩, number data.commandResult.toNat),
    (⟨ascii "link_type", link_type_plain⟩, escapedString (eventLink data)),
    (⟨ascii "payload_summary", payload_summary_plain⟩, escapedString (bytes data.payloadSummary))] ++
  if data.topicSuffix ≠ "" then
    [(⟨ascii "topic_suffix", topic_suffix_plain⟩, escapedString (bytes data.topicSuffix))]
  else []

def eventObject (data : SensorData) : ObjectText :=
  .members [] (.ofFields (⟨ascii "type", by decide⟩, plainString (ascii "event") (by decide))
    (eventFields data)) []

theorem eventText_eq (data : SensorData) :
    buildUpstreamFrameEventJson data = (eventObject data).text := by
  have hopen : ascii "\x7b" = [0x7B] := rfl
  have hclose : ascii "\x7d" = [0x7D] := rfl
  have hcomma : ascii "," = [0x2C] := rfl
  have hquote : ascii "\"" = [0x22] := rfl
  have hnext : ascii "\"," = [0x22, 0x2C] := rfl
  have h₁ : ascii "\"type\":\"event\"," = 0x22 :: (ascii "type" ++
      0x22 :: 0x3A :: 0x22 :: (ascii "event" ++ [0x22, 0x2C])) := rfl
  have h₂ : ascii "\"device_id\":" = 0x22 :: (ascii "device_id" ++ [0x22, 0x3A]) := rfl
  have h₃ : ascii "\"device_name\":\"" = 0x22 :: (ascii "device_name" ++ [0x22, 0x3A, 0x22]) := rfl
  have h₄ : ascii "\"event_type\":\"" = 0x22 :: (ascii "event_type" ++ [0x22, 0x3A, 0x22]) := rfl
  have h₅ : ascii "\"timestamp\":" = 0x22 :: (ascii "timestamp" ++ [0x22, 0x3A]) := rfl
  have h₆ : ascii "\"status\":" = 0x22 :: (ascii "status" ++ [0x22, 0x3A]) := rfl
  have h₇ : ascii "\"command_id\":" = 0x22 :: (ascii "command_id" ++ [0x22, 0x3A]) := rfl
  have h₈ : ascii "\"command_result\":" = 0x22 :: (ascii "command_result" ++ [0x22, 0x3A]) := rfl
  have h₉ : ascii "\"link_type\":\"" = 0x22 :: (ascii "link_type" ++ [0x22, 0x3A, 0x22]) := rfl
  have h₁₀ : ascii "\"payload_summary\":\"" =
      0x22 :: (ascii "payload_summary" ++ [0x22, 0x3A, 0x22]) := rfl
  have h₁₁ : ascii ",\"topic_suffix\":\"" =
      0x2C :: 0x22 :: (ascii "topic_suffix" ++ [0x22, 0x3A, 0x22]) := rfl
  unfold buildUpstreamFrameEventJson
  simp only [hopen, hclose, hcomma, hquote, hnext, h₁, h₂, h₃, h₄, h₅, h₆, h₇, h₈, h₉, h₁₀, h₁₁]
  by_cases htopic : data.topicSuffix ≠ ""
  · simp only [eventObject, eventFields, if_pos htopic, ObjectText.text, List.cons_append,
      List.nil_append, Members.text_ofFields_cons, Members.text_ofFields_nil]
    simp only [PlainName.label_text, plainString, escapedString, number, Value.text]
    simp only [Str.text_ofPlain, Str.text_escaped, Number.text_ofInt, intText_natCast, Ws.text,
      List.map_nil]
    simp only [List.append_assoc, List.cons_append, List.nil_append]
  · simp only [eventObject, eventFields, if_neg htopic, ObjectText.text, List.cons_append,
      List.nil_append, Members.text_ofFields_cons, Members.text_ofFields_nil]
    simp only [PlainName.label_text, plainString, escapedString, number, Value.text]
    simp only [Str.text_ofPlain, Str.text_escaped, Number.text_ofInt, intText_natCast, Ws.text,
      List.map_nil]
    simp only [List.append_assoc, List.cons_append, List.nil_append]

section Event

variable {data : SensorData} {key : Text}

theorem event_readable (data : SensorData) (key : Text) :
    Readable ((eventObject data).namesTo key) := Members.simple_ofFields _ _ key

theorem event_int {n : ℕ} (h : (eventObject data).first? key = some (number n)) :
    jsonGetInt (buildUpstreamFrameEventJson data) key = if n < 2 ^ 63 then some (n : ℤ) else none := by
  rw [eventText_eq, jsonGetInt_text, if_pos (event_readable data key), h, Option.bind_some,
    int64_natCast]

theorem event_string {t : Text} (ht : Clean t)
    (h : (eventObject data).first? key = some (escapedString t)) :
    jsonGetString (buildUpstreamFrameEventJson data) key = some t := by
  rw [eventText_eq, jsonGetString_text, if_pos (event_readable data key), h, Option.bind_some,
    escapedString, simpleString_escaped ht]

end Event

/-- The texts of the event have no control characters but those with a short escape. -/
structure CleanEvent (data : SensorData) : Prop where
  name : Clean (bytes data.deviceName)
  link : Clean (bytes data.linkType)
  summary : Clean (bytes data.payloadSummary)
  topic : Clean (bytes data.topicSuffix)

/-- What is read from the event. The empty topic is not written, and the reader has signed words
of 64 bits. -/
structure EventRead (data : SensorData) (line : Text) : Prop where
  deviceId : jsonGetInt line (ascii "device_id") = some (data.deviceId.toNat : ℤ)
  deviceName : jsonGetString line (ascii "device_name") = some (eventName data)
  eventType : jsonGetString line (ascii "event_type") = some (ascii (frameTypeName data.frameType))
  timestamp : jsonGetInt line (ascii "timestamp") =
    if data.timestampUnixMs.toNat < 2 ^ 63 then some (data.timestampUnixMs.toNat : ℤ) else none
  commandId : jsonGetInt line (ascii "command_id") = some (data.commandId.toNat : ℤ)
  linkType : jsonGetString line (ascii "link_type") = some (eventLink data)
  payloadSummary : jsonGetString line (ascii "payload_summary") = some (bytes data.payloadSummary)
  topicSuffix : jsonGetString line (ascii "topic_suffix") =
    if data.topicSuffix = "" then none else some (bytes data.topicSuffix)

theorem clean_plain {t : Text} (ht : PlainText t) : Clean t := fun b hb => Or.inl (ht b hb).1

theorem eventName_clean {data : SensorData} (h : CleanEvent data) : Clean (eventName data) := by
  unfold eventName
  split_ifs
  · exact clean_plain (plainText_append (by decide) (natText_plain _))
  · exact h.name

theorem eventLink_clean {data : SensorData} (h : CleanEvent data) : Clean (eventLink data) := by
  unfold eventLink
  split_ifs
  · exact clean_plain (by decide)
  · exact h.link

theorem frameTypeName_clean (type : FrameType) : Clean (ascii (frameTypeName type)) := by
  cases type <;> exact clean_plain (by decide)

theorem event_topic {data : SensorData} (h : Clean (bytes data.topicSuffix)) :
    jsonGetString (buildUpstreamFrameEventJson data) (ascii "topic_suffix") =
      if data.topicSuffix = "" then none else some (bytes data.topicSuffix) := by
  by_cases htopic : data.topicSuffix = ""
  · have hfirst : (eventObject data).first? (ascii "topic_suffix") = none := by
      rw [eventObject, ObjectText.first?, Members.first?_ofFields, eventFields,
        if_neg (not_not.mpr htopic)]
      rfl
    rw [if_pos htopic, eventText_eq, jsonGetString_text, if_pos (event_readable data _), hfirst,
      Option.bind_none]
  · rw [if_neg htopic]
    refine event_string h ?_
    rw [eventObject, ObjectText.first?, Members.first?_ofFields, eventFields, if_pos htopic]
    rfl

theorem event_read {data : SensorData} (h : CleanEvent data) :
    EventRead data (buildUpstreamFrameEventJson data) where
  deviceId := by
    have hlt := data.deviceId.toNat_lt
    refine (event_int ?_).trans (if_pos (by omega))
    rw [eventObject, ObjectText.first?, Members.first?_ofFields]
    rfl
  deviceName := by
    refine event_string (eventName_clean h) ?_
    rw [eventObject, ObjectText.first?, Members.first?_ofFields]
    rfl
  eventType := by
    refine event_string (frameTypeName_clean _) ?_
    rw [eventObject, ObjectText.first?, Members.first?_ofFields]
    rfl
  timestamp := by
    refine event_int (n := data.timestampUnixMs.toNat) ?_
    rw [eventObject, ObjectText.first?, Members.first?_ofFields]
    rfl
  commandId := by
    have hlt := data.commandId.toNat_lt
    refine (event_int ?_).trans (if_pos (by omega))
    rw [eventObject, ObjectText.first?, Members.first?_ofFields]
    rfl
  linkType := by
    refine event_string (eventLink_clean h) ?_
    rw [eventObject, ObjectText.first?, Members.first?_ofFields]
    rfl
  payloadSummary := by
    refine event_string h.summary ?_
    rw [eventObject, ObjectText.first?, Members.first?_ofFields]
    rfl
  topicSuffix := event_topic h.topic

section Command

variable {D : Type} (f : Doubles D) (req : CommandRequest D) (command_id : UInt16)

/-- The members before the parameters. -/
def commandFields : List (PlainName × Value) :=
  [(⟨ascii "device_id", device_id_plain⟩, number req.deviceId.toNat),
    (⟨ascii "command_id", command_id_plain⟩, number command_id.toNat),
    (⟨ascii "command_type", by decide⟩, escapedString req.commandType)]

def typeField : PlainName × Value :=
  (⟨ascii "type", by decide⟩, plainString (ascii "command") (by decide))

def levelMembers (level : Text) : Members :=
  .ofFields (⟨ascii "level", by decide⟩, escapedString level) []

/-- The parameters may hold numbers that are no JSON; they stand behind what is read. -/
theorem commandLine_front : ∃ s, buildWifiCommandLine f req command_id =
    0x7B :: ((Members.ofFields typeField (commandFields req command_id)).text ++ 0x2C :: s) := by
  refine ⟨field (ascii "params") (0x7B :: wifiParams f req) (wifiTail req), ?_⟩
  rw [buildWifiCommandLine_eq]
  simp only [wifiHead, field, quoted]
  simp only [typeField, commandFields, Members.text_ofFields_cons, Members.text_ofFields_nil]
  simp only [PlainName.label_text, plainString, escapedString, number, Value.text]
  simp only [Str.text_ofPlain, Str.text_escaped, Number.text_ofInt, intText_natCast]
  simp only [List.append_assoc, List.cons_append, List.nil_append]

theorem levelLine_front (h : req.commandType = ascii "set_log_level") :
    ∃ s, buildWifiCommandLine f req command_id =
      0x7B :: ((Members.ofFields typeField (commandFields req command_id ++
        [(⟨ascii "params", by decide⟩, .object (levelMembers req.logLevel))])).text ++ 0x2C :: s) := by
  have hne {t : Text} (ht : ascii "set_log_level" ≠ t) : req.commandType ≠ t := h ▸ ht
  have hlevel : ascii "\"level\":\"" = 0x22 :: (ascii "level" ++ [0x22, 0x3A, 0x22]) := rfl
  have hquote : ascii "\"" = [0x22] := rfl
  refine ⟨field (ascii "timeout_ms") (intText req.timeoutMs) [0x7D], ?_⟩
  rw [buildWifiCommandLine_eq]
  rw [wifiParams, if_neg (hne (by decide)), if_neg (hne (by decide)), if_neg (hne (by decide)),
    if_neg (hne (by decide)), if_pos h, hlevel, hquote]
  simp only [wifiHead, wifiTail, field, quoted]
  simp only [typeField, commandFields, levelMembers, List.cons_append, List.nil_append,
    Members.text_ofFields_cons, Members.text_ofFields_nil]
  simp only [PlainName.label_text, plainString, escapedString, number, Value.text]
  simp only [Members.text_ofFields_nil, PlainName.label_text, Value.text]
  simp only [Str.text_ofPlain, Str.text_escaped, Number.text_ofInt, intText_natCast]
  simp only [List.append_assoc, List.cons_append, List.nil_append]

/-- What is read from the line. -/
structure CommandRead (line : Text) : Prop where
  commandId : jsonGetInt line (ascii "command_id") = some (command_id.toNat : ℤ)
  commandType : jsonGetString line (ascii "command_type") = some req.commandType
  level : req.commandType = ascii "set_log_level" →
    (jsonGetObject line (ascii "params")).bind (jsonGetString · (ascii "level")) = some req.logLevel

theorem level_read {level : Text} (h : Clean level) :
    jsonGetString (Value.object (levelMembers level)).text (ascii "level") = some level := by
  have htext : (Value.object (levelMembers level)).text =
      (ObjectText.members [] (levelMembers level) []).text := by
    simp [Value.text, ObjectText.text, Ws.text]
  have hfirst : (levelMembers level).first? (ascii "level") = some (escapedString level) := by
    rw [levelMembers, Members.first?_ofFields]
    rfl
  have hread : Readable ((ObjectText.members [] (levelMembers level) []).namesTo (ascii "level")) :=
    Members.simple_ofFields _ _ _
  rw [htext, jsonGetString_text, if_pos hread, ObjectText.first?, hfirst, Option.bind_some,
    escapedString, simpleString_escaped h]

theorem command_read (htype : Clean req.commandType) (hlevel : Clean req.logLevel) :
    CommandRead req command_id (buildWifiCommandLine f req command_id) where
  commandId := by
    have hlt := command_id.toNat_lt
    obtain ⟨s, hline⟩ := commandLine_front f req command_id
    obtain ⟨rest, hspan⟩ := findJsonValueSpan_front (ascii "command_id")
      (Members.ofFields typeField (commandFields req command_id)) (v := number command_id.toNat)
      (Members.simple_ofFields _ _ _) (by rw [Members.first?_ofFields]; rfl) s
    rw [hline, jsonGetInt_span hspan, int64_natCast, if_pos (by omega)]
  commandType := by
    obtain ⟨s, hline⟩ := commandLine_front f req command_id
    obtain ⟨rest, hspan⟩ := findJsonValueSpan_front (ascii "command_type")
      (Members.ofFields typeField (commandFields req command_id)) (v := escapedString req.commandType)
      (Members.simple_ofFields _ _ _) (by rw [Members.first?_ofFields]; rfl) s
    rw [hline, jsonGetString_span hspan, escapedString, simpleString_escaped htype]
  level := by
    intro h
    obtain ⟨s, hline⟩ := levelLine_front f req command_id h
    obtain ⟨rest, hspan⟩ := findJsonValueSpan_front (ascii "params")
      (Members.ofFields typeField (commandFields req command_id ++
        [(⟨ascii "params", by decide⟩, .object (levelMembers req.logLevel))]))
      (v := .object (levelMembers req.logLevel))
      (Members.simple_ofFields _ _ _) (by rw [Members.first?_ofFields]; rfl) s
    rw [hline, jsonGetObject_span hspan, Value.object?, Option.bind_some, level_read hlevel]

end Command

/-- What the gateway writes as JSON it reads back. -/
theorem written_is_read :
    (∀ data, CleanEvent data → EventRead data (buildUpstreamFrameEventJson data)) ∧
    ∀ {D : Type} (f : Doubles D) (req : CommandRequest D) (command_id : UInt16),
      Clean req.commandType → Clean req.logLevel →
        CommandRead req command_id (buildWifiCommandLine f req command_id) :=
  ⟨fun _ h => event_read h, fun f req command_id => command_read f req command_id⟩

/-- `"}, {"a":1\` and two bytes of UTF-8. -/
def oddText : Text :=
  ascii "\"\x7d, \x7b\"topic_suffix\":1\\" ++ [0x0A, 0xC3, 0xA9]

def oddEvent : SensorData :=
  { timestampUnixMs := 1700000000000, deviceId := 3, frameType := .commandAck, commandId := 65535,
    deviceName := fromBytes oddText, payloadSummary := fromBytes oddText,
    topicSuffix := fromBytes oddText }

def oddRequest : CommandRequest ℤ :=
  { deviceId := 2, commandType := ascii "set_log_level", hasLogLevel := true, logLevel := oddText,
    thresholdTemp := 0, thresholdHumi := 0 }

theorem oddText_clean : Clean oddText := by decide +kernel

theorem oddEvent_clean : CleanEvent oddEvent := by
  have hodd : Clean (bytes (fromBytes oddText)) := by
    rw [bytes_fromBytes]
    exact oddText_clean
  exact ⟨hodd, by decide +kernel, hodd, hodd⟩

theorem odd_is_read : EventRead oddEvent (buildUpstreamFrameEventJson oddEvent) ∧
    CommandRead oddRequest 7 (buildWifiCommandLine wholeNumbers oddRequest 7) :=
  ⟨written_is_read.1 oddEvent oddEvent_clean,
    written_is_read.2 wholeNumbers oddRequest 7 (clean_plain (by decide)) oddText_clean⟩

/-- A time beyond the signed words is not read, and an empty link or topic is not read as such. -/
theorem default_not_read :
    jsonGetInt (buildUpstreamFrameEventJson { timestampUnixMs := 2 ^ 63 }) (ascii "timestamp") = none ∧
    jsonGetString (buildUpstreamFrameEventJson { linkType := "" }) (ascii "link_type") =
      some (ascii "serial") ∧
    jsonGetString (buildUpstreamFrameEventJson { topicSuffix := "" }) (ascii "topic_suffix") = none := by
  decide +kernel

end EdgeLink.CommandJson
