import EdgeLink.CommandLines

namespace EdgeLink.CommandJson

open Json Lookup Node

def plainString (t : Text) (h : PlainText t) : Value := .string (Str.ofPlain t h)

def number (z : ℤ) : Value := .number (Number.ofInt z)

theorem natText_plain (n : ℕ) : PlainText (natText n) := by
  intro b hb
  obtain ⟨d, -, rfl⟩ := List.mem_map.mp hb
  have hdigit : ∀ d, 0x20 ≤ digitByte d ∧ digitByte d ≠ 0x22 ∧ digitByte d ≠ 0x5C := by decide
  exact hdigit d

theorem intText_plainText (z : ℤ) : PlainText (intText z) := by
  intro b hb
  rcases List.mem_append.mp hb with h | h
  · split_ifs at h
    · rw [List.mem_singleton.mp h]
      decide
    · exact absurd h List.not_mem_nil
  · exact natText_plain _ b h

theorem plainText_append {s t : Text} (hs : PlainText s) (ht : PlainText t) : PlainText (s ++ t) :=
  fun b hb => (List.mem_append.mp hb).elim (hs b) (ht b)

theorem command_id_plain : PlainText (ascii "command_id") := by decide

theorem command_result_plain : PlainText (ascii "command_result") := by decide

theorem payload_summary_plain : PlainText (ascii "payload_summary") := by decide

theorem link_type_plain : PlainText (ascii "link_type") := by decide

theorem device_id_plain : PlainText (ascii "device_id") := by decide

theorem device_name_plain : PlainText (ascii "device_name") := by decide

theorem event_type_plain : PlainText (ascii "event_type") := by decide

theorem timestamp_plain : PlainText (ascii "timestamp") := by decide

section Ack

variable (env : Env) (seq : UInt32) (command_id : ℤ) {cmd message : Text} (result : ℤ)
  (hcmd : PlainText (publicCommandName cmd)) (hmessage : PlainText message)

def summaryText : Text :=
  ascii "cmd_id=" ++ intText command_id ++ ascii ",result=" ++ intText result

theorem summaryText_plain : PlainText (summaryText command_id result) :=
  plainText_append (plainText_append (plainText_append (by decide) (intText_plainText _))
    (by decide)) (intText_plainText _)

def ackRssi : ℤ := if env.wifiConnected then env.wifiRssi else 0

def okText (result : ℤ) : Text := if result = 0 then ascii "ok" else ascii "error"

theorem okText_plain : PlainText (okText result) := by
  unfold okText
  split_ifs <;> decide

/-- The members from the command's number on. -/
def ackFields : List (PlainName × Value) :=
  [(⟨ascii "command_id", command_id_plain⟩, number command_id),
    (⟨ascii "cmd", by decide⟩, plainString _ hcmd),
    (⟨ascii "result", by decide⟩, plainString _ (okText_plain result)),
    (⟨ascii "code", by decide⟩, number (if result = 0 then 0 else -1)),
    (⟨ascii "message", by decide⟩, plainString _ hmessage),
    (⟨ascii "command_result", command_result_plain⟩, number result),
    (⟨ascii "payload_summary", payload_summary_plain⟩,
      plainString _ (summaryText_plain command_id result)),
    (⟨ascii "link_type", link_type_plain⟩, plainString (ascii "wifi") (by decide)),
    (⟨ascii "wifi_rssi", by decide⟩, number (ackRssi env)),
    (⟨ascii "seq", by decide⟩, number seq.toNat)]

def ackObject : ObjectText :=
  .members [] (.ofFields
    (⟨ascii "gateway_id", by decide⟩, plainString (ascii "gw001") (by decide))
    ((⟨ascii "device_id", device_id_plain⟩, number deviceId) ::
      (⟨ascii "device_name", device_name_plain⟩,
        plainString (ascii "wifi-node-02") (by decide)) ::
      (⟨ascii "msg_type", by decide⟩,
        plainString (ascii "command_ack") (by decide)) ::
      (⟨ascii "event_type", event_type_plain⟩,
        plainString (ascii "command_ack") (by decide)) ::
      (⟨ascii "timestamp", timestamp_plain⟩, number 0) ::
      (⟨ascii "uptime_ms", by decide⟩, number env.millis.toNat) ::
      ackFields env seq command_id result hcmd hmessage)) []

theorem intText_natCast (n : ℕ) : intText n = natText n := by
  rw [intText_nonneg (Int.natCast_nonneg n), Int.natAbs_natCast]

theorem ackText_eq : ackText env seq command_id cmd result (some message) =
    (ackObject env seq command_id result hcmd hmessage).text := by
  have hopen : ascii "\x7b" = [0x7B] := rfl
  have hclose : ascii "\x7d" = [0x7D] := rfl
  have hcomma : ascii "," = [0x2C] := rfl
  have hquote : ascii "\"," = [0x22, 0x2C] := rfl
  have h₁ : ascii "\"gateway_id\":\"" = 0x22 :: (ascii "gateway_id" ++ [0x22, 0x3A, 0x22]) := rfl
  have h₂ : ascii "\"device_id\":" = 0x22 :: (ascii "device_id" ++ [0x22, 0x3A]) := rfl
  have h₃ : ascii "\"device_name\":\"" = 0x22 :: (ascii "device_name" ++ [0x22, 0x3A, 0x22]) := rfl
  have h₄ : ascii "\"msg_type\":\"command_ack\"," = 0x22 :: (ascii "msg_type" ++
      0x22 :: 0x3A :: 0x22 :: (ascii "command_ack" ++ [0x22, 0x2C])) := rfl
  have h₅ : ascii "\"event_type\":\"command_ack\"," = 0x22 :: (ascii "event_type" ++
      0x22 :: 0x3A :: 0x22 :: (ascii "command_ack" ++ [0x22, 0x2C])) := rfl
  have h₆ : ascii "\"timestamp\":0," = 0x22 :: (ascii "timestamp" ++
      0x22 :: 0x3A :: (natText 0 ++ [0x2C])) := by decide +kernel
  have h₇ : ascii "\"uptime_ms\":" = 0x22 :: (ascii "uptime_ms" ++ [0x22, 0x3A]) := rfl
  have h₈ : ascii "\"command_id\":" = 0x22 :: (ascii "command_id" ++ [0x22, 0x3A]) := rfl
  have h₉ : ascii "\"cmd\":\"" = 0x22 :: (ascii "cmd" ++ [0x22, 0x3A, 0x22]) := rfl
  have h₁₀ : ascii "\"result\":\"" = 0x22 :: (ascii "result" ++ [0x22, 0x3A, 0x22]) := rfl
  have h₁₁ : ascii "\"code\":" = 0x22 :: (ascii "code" ++ [0x22, 0x3A]) := rfl
  have h₁₂ : ascii "\"message\":\"" = 0x22 :: (ascii "message" ++ [0x22, 0x3A, 0x22]) := rfl
  have h₁₃ : ascii "\"command_result\":" = 0x22 :: (ascii "command_result" ++ [0x22, 0x3A]) := rfl
  have h₁₄ : ascii "\"payload_summary\":\"cmd_id=" = 0x22 :: (ascii "payload_summary" ++
      0x22 :: 0x3A :: 0x22 :: ascii "cmd_id=") := rfl
  have h₁₅ : ascii "\"link_type\":\"wifi\"," = 0x22 :: (ascii "link_type" ++
      0x22 :: 0x3A :: 0x22 :: (ascii "wifi" ++ [0x22, 0x2C])) := rfl
  have h₁₆ : ascii "\"wifi_rssi\":" = 0x22 :: (ascii "wifi_rssi" ++ [0x22, 0x3A]) := rfl
  have h₁₇ : ascii "\"seq\":" = 0x22 :: (ascii "seq" ++ [0x22, 0x3A]) := rfl
  have hzero : intText 0 = natText 0 := rfl
  unfold ackText
  simp only [hopen, hclose, hcomma, hquote, h₁, h₂, h₃, h₄, h₅, h₆, h₇, h₈, h₉, h₁₀, h₁₁, h₁₂, h₁₃,
    h₁₄, h₁₅, h₁₆, h₁₇, Option.getD_some]
  simp only [ackObject, ackFields, ObjectText.text, Members.text_ofFields_cons,
    Members.text_ofFields_nil]
  simp only [PlainName.label_text, plainString, number, Value.text]
  simp only [Str.text_ofPlain, Number.text_ofInt]
  simp only [intText_natCast]
  simp only [hzero]
  simp only [Ws.text, List.map_nil, okText, ackRssi, summaryText]
  simp only [List.append_assoc, List.cons_append, List.nil_append]

theorem ack_readable (key : Text) :
    Readable ((ackObject env seq command_id result hcmd hmessage).namesTo key) :=
  Members.simple_ofFields _ _ key

theorem ack_int {key : Text} {z : ℤ} (hz : -2 ^ 63 ≤ z ∧ z < 2 ^ 63)
    (h : (ackObject env seq command_id result hcmd hmessage).first? key = some (number z)) :
    jsonGetInt (ackObject env seq command_id result hcmd hmessage).text key = some z := by
  rw [jsonGetInt_text, if_pos (ack_readable env seq command_id result hcmd hmessage key), h,
    Option.bind_some, number, Value.int64?, Number.int?_ofInt, Option.filter_some,
    if_pos (decide_eq_true hz)]

theorem ack_deviceId : jsonGetInt (ackObject env seq command_id result hcmd hmessage).text
    (ascii "device_id") = some deviceId := by
  refine ack_int env seq command_id result hcmd hmessage (by decide) ?_
  rw [ackObject, ObjectText.first?, Members.first?_ofFields]
  rfl

theorem ack_commandId (hid : -2 ^ 63 ≤ command_id ∧ command_id < 2 ^ 63) :
    jsonGetInt (ackObject env seq command_id result hcmd hmessage).text (ascii "command_id") =
      some command_id := by
  refine ack_int env seq command_id result hcmd hmessage hid ?_
  rw [ackObject, ObjectText.first?, Members.first?_ofFields]
  rfl

theorem ack_result (hresult : -2 ^ 63 ≤ result ∧ result < 2 ^ 63) :
    jsonGetInt (ackObject env seq command_id result hcmd hmessage).text (ascii "command_result") =
      some result := by
  refine ack_int env seq command_id result hcmd hmessage hresult ?_
  rw [ackObject, ObjectText.first?, Members.first?_ofFields]
  rfl

theorem ack_eventType : jsonGetString (ackObject env seq command_id result hcmd hmessage).text
    (ascii "event_type") = some (ascii "command_ack") := by
  have hfirst : (ackObject env seq command_id result hcmd hmessage).first? (ascii "event_type") =
      some (plainString (ascii "command_ack") (by decide)) := by
    rw [ackObject, ObjectText.first?, Members.first?_ofFields]
    rfl
  rw [jsonGetString_text,
    if_pos (ack_readable env seq command_id result hcmd hmessage (ascii "event_type")), hfirst]
  simp only [Option.bind_some, plainString, simpleString, if_pos (Str.simple_ofPlain _),
    Str.decode_ofPlain]

end Ack

/-- An acknowledgement is read back by the gateway. -/
theorem ack_parsed (env : Env) (seq : UInt32) (command_id : ℤ) {cmd message : Text} (result : ℤ)
    (hcmd : PlainText (publicCommandName cmd)) (hmessage : PlainText message)
    (hid : -2 ^ 63 ≤ command_id ∧ command_id < 2 ^ 63) (hresult : -2 ^ 63 ≤ result ∧ result < 2 ^ 63)
    (stod : Text → Option (ℤ × ℕ)) (now : UInt64) :
    ∃ data, parseWifiJsonEvent stod now (ackText env seq command_id cmd result (some message)) =
        .ok data ∧ data.deviceId = .ofNat deviceId ∧ data.frameType = .commandAck ∧
      data.commandId = UInt16.ofInt command_id ∧ data.commandResult = UInt8.ofInt result := by
  rw [ackText_eq env seq command_id result hcmd hmessage]
  simp only [parseWifiJsonEvent, ack_deviceId, ack_eventType, ackEvent,
    ack_commandId env seq command_id result hcmd hmessage hid,
    ack_result env seq command_id result hcmd hmessage hresult]
  exact ⟨_, if_neg (by decide), rfl, rfl, rfl, rfl⟩

section Answer

variable {D : Type}

/-- The requests that the node answers with an error. -/
def refused (req : CommandRequest D) : Bool :=
  req.commandType = ascii "set_mode" ∨ req.commandType = ascii "set_threshold" ∨
    req.commandType = ascii "set_report_interval" ∧ req.reportIntervalMs < minReportIntervalMs

/-- The state that the request asks for. -/
def asked (req : CommandRequest D) (n : State) : State :=
  if req.commandType = ascii "set_led" then
    { n with ledState := if req.on then 1 else 0, rgbOverrideMode := if req.on then 1 else 2 }
  else if req.commandType = ascii "set_report_interval" ∧ ¬refused req then
    { n with reportIntervalMs := .ofNat req.reportIntervalMs.toNat }
  else n

/-- The status that the request asks for, published behind the acknowledgement. -/
def statusAsked (req : CommandRequest D) (n : State) : List Publication :=
  if req.commandType = ascii "get_status" then
    [.status (n.seqId + 1) n.reportIntervalMs n.rgbOverrideMode]
  else []

theorem refused_of_ne {req : CommandRequest D} (hmode : req.commandType ≠ ascii "set_mode")
    (hthr : req.commandType ≠ ascii "set_threshold")
    (hint : req.commandType = ascii "set_report_interval" →
      minReportIntervalMs ≤ req.reportIntervalMs) : refused req = false := by
  rw [refused, decide_eq_false_iff_not, not_or, not_or]
  exact ⟨hmode, hthr, fun h => absurd h.2 (not_lt.mpr (hint h.1))⟩

theorem asked_eq_self {req : CommandRequest D} (hled : req.commandType ≠ ascii "set_led")
    (hint : req.commandType ≠ ascii "set_report_interval") (n : State) : asked req n = n := by
  rw [asked, if_neg hled, if_neg fun h => hint h.1]

/-- The outcome that the gateway counts on, with some message. -/
def Outcome.agreed (req : CommandRequest D) (n : State) (message : Text) : Outcome :=
  { node := asked req n, result := if refused req then 1 else 0, ackMessage := message,
    needStatusReport := decide (req.commandType = ascii "get_status") }

/-- Two types that the gateway accepts are unknown to the node. -/
theorem executeCommand_unsupported {req : CommandRequest D}
    (h : req.commandType = ascii "set_mode" ∨ req.commandType = ascii "set_threshold") (n : State)
    (line : Text) (id : ℤ) : executeCommand n line req.commandType id =
      Outcome.agreed req n (ascii "unsupported command") := by
  have hne {t : Text} (hmode : ascii "set_mode" ≠ t) (hthreshold : ascii "set_threshold" ≠ t) :
      req.commandType ≠ t := by
    rcases h with h | h <;> rwa [h]
  have hrefused : refused req = true := by
    rw [refused, decide_eq_true_iff]
    exact h.imp_right Or.inl
  have hget : req.commandType ≠ ascii "get_status" := hne (by decide) (by decide)
  rw [Outcome.agreed, hrefused, asked_eq_self (hne (by decide) (by decide))
    (hne (by decide) (by decide)), executeCommand, if_neg hget, if_neg (hne (by decide) (by decide)),
    if_neg (hne (by decide) (by decide)), if_neg (hne (by decide) (by decide)),
    if_neg (hne (by decide) (by decide)), if_neg (hne (by decide) (by decide)), decide_eq_false hget,
    if_pos rfl]

theorem executeCommand_interval {req : CommandRequest D} (hreq : Accepted req)
    (h : req.commandType = ascii "set_report_interval") {command_id : UInt16}
    {line topic otaTopic : Text} (hreads : Reads req command_id line topic otaTopic) (n : State)
    (id : ℤ) : ∃ message, PlainText message ∧
      executeCommand n line req.commandType id = Outcome.agreed req n message := by
  have hne {t : Text} (ht : ascii "set_report_interval" ≠ t) : req.commandType ≠ t := h ▸ ht
  have hget : req.commandType ≠ ascii "get_status" := hne (by decide)
  have hpos := (hreq.interval h).1
  have hnonneg : ¬req.reportIntervalMs < 0 := by omega
  have hexec : executeCommand n line req.commandType id =
      if req.reportIntervalMs ≥ minReportIntervalMs then
        { node := setReportIntervalMs n (UInt32.ofNat req.reportIntervalMs.toNat),
          ackMessage := ascii "report interval updated" }
      else { node := n, result := 1, ackMessage := ascii "invalid report interval" } := by
    rw [executeCommand, if_neg hget, if_neg (hne (by decide)), if_neg (hne (by decide)), if_pos h]
    simp only [hreads.interval h, if_neg hnonneg]
  unfold Outcome.agreed
  rw [hexec, decide_eq_false hget]
  -- the node refuses what is shorter than its minimum
  by_cases hmin : req.reportIntervalMs ≥ minReportIntervalMs
  · have hrefused : refused req = false :=
      refused_of_ne (hne (by decide)) (hne (by decide)) fun _ => hmin
    refine ⟨ascii "report interval updated", by decide, ?_⟩
    rw [if_pos hmin, hrefused, asked, if_neg (hne (by decide)), if_pos ⟨h, by simp [hrefused]⟩]
    rfl
  · have hrefused : refused req = true := by
      rw [refused, decide_eq_true_iff]
      exact Or.inr (Or.inr ⟨h, not_le.mp hmin⟩)
    refine ⟨ascii "invalid report interval", by decide, ?_⟩
    rw [if_neg hmin, hrefused, asked, if_neg (hne (by decide)), if_neg (by simp [hrefused])]
    rfl

theorem executeCommand_eq {req : CommandRequest D} (hreq : Accepted req) {command_id : UInt16}
    {line topic otaTopic : Text} (hreads : Reads req command_id line topic otaTopic) (n : State)
    (id : ℤ) : ∃ message, PlainText message ∧ executeCommand n line req.commandType id =
      { node := asked req n, result := if refused req then 1 else 0, ackMessage := message,
        needStatusReport := decide (req.commandType = ascii "get_status") } := by
  have h := hreq.type
  simp only [List.mem_cons, List.not_mem_nil, or_false] at h
  rcases h with h | h | h | h | h | h
  · -- set_led
    have hne {t : Text} (ht : ascii "set_led" ≠ t) : req.commandType ≠ t := h ▸ ht
    have hrefused : refused req = false :=
      refused_of_ne (hne (by decide)) (hne (by decide)) fun hi => absurd hi (hne (by decide))
    have hget : req.commandType ≠ ascii "get_status" := hne (by decide)
    refine ⟨ascii "led updated", by decide, ?_⟩
    rw [hrefused, asked, if_pos h, executeCommand, if_neg hget, if_pos h, decide_eq_false hget]
    simp only [hreads.value h, setLedState]
    cases req.on <;> rfl
  · exact ⟨_, by decide, executeCommand_unsupported (Or.inl h) n line id⟩
  · -- get_status
    have hne {t : Text} (ht : ascii "get_status" ≠ t) : req.commandType ≠ t := h ▸ ht
    have hrefused : refused req = false :=
      refused_of_ne (hne (by decide)) (hne (by decide)) fun hi => absurd hi (hne (by decide))
    refine ⟨ascii "status queued", by decide, ?_⟩
    rw [hrefused, asked_eq_self (hne (by decide)) (hne (by decide)), executeCommand, if_pos h,
      decide_eq_true h]
    rfl
  · exact ⟨_, by decide, executeCommand_unsupported (Or.inr h) n line id⟩
  · exact executeCommand_interval hreq h hreads n id
  · -- set_log_level
    have hne {t : Text} (ht : ascii "set_log_level" ≠ t) : req.commandType ≠ t := h ▸ ht
    have hrefused : refused req = false :=
      refused_of_ne (hne (by decide)) (hne (by decide)) fun hi => absurd hi (hne (by decide))
    have hget : req.commandType ≠ ascii "get_status" := hne (by decide)
    refine ⟨ascii "log level noop", by decide, ?_⟩
    rw [hrefused, asked_eq_self (hne (by decide)) (hne (by decide)), executeCommand, if_neg hget,
      if_neg (hne (by decide)), if_neg (hne (by decide)), if_neg (hne (by decide)), if_pos h,
      decide_eq_false hget]
    rfl

theorem processCommand_eq {req : CommandRequest D} (hreq : Accepted req) {command_id : UInt16}
    (hid : command_id ≠ 0) {line topic otaTopic : Text}
    (hreads : Reads req command_id line topic otaTopic) (n : State) (env : Env) :
    ∃ message, PlainText message ∧ processCommand n env line topic otaTopic =
      ({ asked req n with
          seqId := n.seqId + (if req.commandType = ascii "get_status" then 2 else 1) },
        .commandAck (ackText env n.seqId command_id.toNat req.commandType
          (if refused req then 1 else 0) (some message)) :: statusAsked req n) := by
  obtain ⟨message, hplain, hexec⟩ := executeCommand_eq hreq hreads n command_id.toNat
  refine ⟨message, hplain, ?_⟩
  have hid' : ((command_id.toNat : ℕ) : ℤ) ≠ 0 := by
    intro h
    exact hid (UInt16.toNat_inj.mp (by simpa using h))
  have hseq : (asked req n).seqId = n.seqId := by
    unfold asked
    split_ifs <;> rfl
  rw [processCommand, hreads.name]
  simp only [hreads.id, if_neg hid', hexec, Bool.false_eq_true, if_false, sendAck, nextSeq, hseq,
    if_neg hreq.plain.2.1.ne, List.nil_append, decide_eq_true_eq]
  by_cases hget : req.commandType = ascii "get_status"
  · have hne {t : Text} (ht : ascii "get_status" ≠ t) : req.commandType ≠ t := hget ▸ ht
    have hrefused : refused req = false :=
      refused_of_ne (hne (by decide)) (hne (by decide)) fun hi => absurd hi (hne (by decide))
    have hadd : n.seqId + 1 + 1 = n.seqId + 2 := by rw [add_assoc]; rfl
    rw [asked_eq_self (hne (by decide)) (hne (by decide)), hrefused, if_pos ⟨hget, rfl⟩,
      statusAsked, if_pos hget, if_pos hget, ← hadd]
    rfl
  · rw [if_neg fun h => hget h.1, statusAsked, if_neg hget, if_neg hget]

end Answer

/-- The text that `executeControlCommand` sends over a transport that speaks JSON. -/
def commandLine {D : Type} (f : Doubles D) (req : CommandRequest D) (command_id : UInt16)
    (transport : String) : Except String Text :=
  if transport = "wifi" then .ok (buildWifiCommandLine f req command_id)
  else buildMqttCommandPayload req command_id

theorem reads_of_supported {D : Type} (f : Doubles D) {req : CommandRequest D}
    (hreq : Accepted req) {transport : String} (htransport : transport = "wifi" ∨ transport = "mqtt")
    (hsupported : supported req transport = .ok ()) (command_id : UInt16) :
    ∃ line, commandLine f req command_id transport = .ok line ∧
      ∀ topic otaTopic, Reads req command_id line topic otaTopic := by
  rcases htransport with rfl | rfl
  · exact ⟨_, if_pos rfl, wifi_reads f hreq command_id⟩
  · refine ⟨mqttLine command_id req, ?_, mqtt_reads hreq command_id⟩
    refine (if_neg (by decide)).trans (buildMqttCommandPayload_eq req command_id ?_)
    have h := hreq.type
    simp only [List.mem_cons, List.not_mem_nil, or_false] at h ⊢
    rcases h with h | h | h | h | h | h
    · exact Or.inl h
    · have hname : fromBytes (ascii "set_mode") = "set_mode" := by decide
      rw [supported, h, hname] at hsupported
      cases hsupported
    · exact Or.inr (Or.inl h)
    · have hname : fromBytes (ascii "set_threshold") = "set_threshold" := by decide
      rw [supported, h, hname] at hsupported
      cases hsupported
    · exact Or.inr (Or.inr (Or.inl h))
    · exact Or.inr (Or.inr (Or.inr h))

/-- A line that is read as the request is acknowledged once, under the number it has. -/
theorem line_answered {D : Type} (stod : Text → Option (ℤ × ℕ)) {req : CommandRequest D}
    (hreq : Accepted req) {command_id : UInt16} (hid : command_id ≠ 0) {line topic otaTopic : Text}
    (hreads : Reads req command_id line topic otaTopic) (n : State) (env : Env) (now : UInt64) :
    ∃ ack data, processCommand n env line topic otaTopic =
          ({ asked req n with
              seqId := n.seqId + (if req.commandType = ascii "get_status" then 2 else 1) },
            .commandAck ack :: statusAsked req n) ∧
        parseWifiJsonEvent stod now ack = .ok data ∧ data.deviceId = .ofNat deviceId ∧
        data.frameType = .commandAck ∧ data.commandId = command_id ∧
        data.commandResult = if refused req then 1 else 0 := by
  obtain ⟨message, hplain, hrun⟩ := processCommand_eq hreq hid hreads n env
  have hpublic : PlainText (publicCommandName req.commandType) := by
    have h := hreq.type
    simp only [List.mem_cons, List.not_mem_nil, or_false] at h
    rcases h with h | h | h | h | h | h <;> rw [h] <;> decide
  have hlt := command_id.toNat_lt
  obtain ⟨data, hdata, hdevice, htype, hcommand, hresult⟩ :=
    ack_parsed env n.seqId command_id.toNat (if refused req then 1 else 0) hpublic hplain
      (by omega) (by split_ifs <;> decide) stod now
  refine ⟨_, data, hrun, hdata, hdevice, htype, ?_, ?_⟩
  · have hmod : ((command_id.toNat : ℤ) % 2 ^ 16).toNat = command_id.toNat := by omega
    rw [hcommand, UInt16.ofInt, hmod, UInt16.ofNat_toNat]
  · rw [hresult]
    split_ifs <;> rfl

/-- Every request that the gateway sends to the node is acknowledged once, under its number; the
node is then as the request asks, or has refused it and says so. -/
theorem command_answered {D : Type} (f : Doubles D) (stod : Text → Option (ℤ × ℕ)) {body : Text}
    {req : CommandRequest D} (hparse : parseControlCommandRequest f body = .ok req)
    {transport : String} (htransport : transport = "wifi" ∨ transport = "mqtt")
    (hsupported : supported req transport = .ok ()) {command_id : UInt16} (hid : command_id ≠ 0) :
    ∃ line, commandLine f req command_id transport = .ok line ∧
      ∀ (n : State) (env : Env) (topic otaTopic : Text) (now : UInt64), ∃ ack data,
        processCommand n env line topic otaTopic =
          ({ asked req n with
              seqId := n.seqId + (if req.commandType = ascii "get_status" then 2 else 1) },
            .commandAck ack :: statusAsked req n) ∧
        parseWifiJsonEvent stod now ack = .ok data ∧ data.deviceId = .ofNat deviceId ∧
        data.frameType = .commandAck ∧ data.commandId = command_id ∧
        data.commandResult = if refused req then 1 else 0 := by
  have hreq := accepted_of_parse f hparse
  obtain ⟨line, hline, hreads⟩ := reads_of_supported f hreq htransport hsupported command_id
  exact ⟨line, hline, fun n env topic otaTopic now =>
    line_answered stod hreq hid (hreads topic otaTopic) n env now⟩

/-- Numbers without a fraction. -/
def wholeNumbers : Doubles ℤ where
  zero := 0
  stod := stoll
  put := intText
  put_plain _ h := intText_plain _ _ h rfl

def readThousandths (t : Text) : Option (ℤ × ℕ) := (stoll t).map fun r => (r.1 * 1000, r.2)

def ledBody : Text :=
  ascii "\x7b\"device_id\":2,\"command_type\":\"set_led\",\"args\":\x7b\"on\":true\x7d\x7d"

def ledRequest : CommandRequest ℤ :=
  { deviceId := 2, commandType := ascii "set_led", hasOn := true, on := true, thresholdTemp := 0,
    thresholdHumi := 0 }

theorem led_answered : parseControlCommandRequest wholeNumbers ledBody = .ok ledRequest ∧
    ∃ line, commandLine wholeNumbers ledRequest 7 "mqtt" = .ok line ∧
      ∀ (n : State) (env : Env) (topic otaTopic : Text) (now : UInt64), ∃ ack data,
        processCommand n env line topic otaTopic =
          ({ asked ledRequest n with
              seqId := n.seqId + (if ledRequest.commandType = ascii "get_status" then 2 else 1) },
            .commandAck ack :: statusAsked ledRequest n) ∧
        parseWifiJsonEvent readThousandths now ack = .ok data ∧
        data.deviceId = .ofNat deviceId ∧ data.frameType = .commandAck ∧ data.commandId = 7 ∧
        data.commandResult = if refused ledRequest then 1 else 0 :=
  have hparse : parseControlCommandRequest wholeNumbers ledBody = .ok ledRequest := by
    decide +kernel
  ⟨hparse, command_answered wholeNumbers readThousandths hparse (Or.inr rfl) (by rfl) (by decide)⟩

def modeBody : Text :=
  ascii "\x7b\"device_id\":2,\"command_type\":\"set_mode\",\"args\":\x7b\"mode\":1\x7d\x7d"

def modeRequest : CommandRequest ℤ :=
  { deviceId := 2, commandType := ascii "set_mode", hasMode := true, modeAuto := true,
    thresholdTemp := 0, thresholdHumi := 0 }

/-- Over `wifi` the gateway takes a change of mode. In any state the node answers that it has not
carried it out, and nothing but its message number changes. -/
theorem mode_not_executed : parseControlCommandRequest wholeNumbers modeBody = .ok modeRequest ∧
    supported modeRequest "wifi" = .ok () ∧
    ∃ line, commandLine wholeNumbers modeRequest 1 "wifi" = .ok line ∧
      ∀ (n : State) (env : Env) (topic otaTopic : Text) (now : UInt64), ∃ ack data,
        processCommand n env line topic otaTopic =
          ({ n with seqId := n.seqId + 1 }, [.commandAck ack]) ∧
        parseWifiJsonEvent readThousandths now ack = .ok data ∧ data.commandId = 1 ∧
        data.commandResult = 1 := by
  have hparse : parseControlCommandRequest wholeNumbers modeBody = .ok modeRequest := by
    decide +kernel
  have hsupported : supported modeRequest "wifi" = .ok () := rfl
  have hreq := accepted_of_parse wholeNumbers hparse
  have hrefused : refused modeRequest = true := by decide
  obtain ⟨line, hline, hreads⟩ := reads_of_supported wholeNumbers hreq (Or.inl rfl) hsupported 1
  refine ⟨hparse, hsupported, line, hline, fun n env topic otaTopic now => ?_⟩
  obtain ⟨ack, data, hrun, hdata, -, -, hcommand, hresult⟩ :=
    line_answered readThousandths hreq (by decide) (hreads topic otaTopic) n env now
  rw [hrefused, if_pos rfl] at hresult
  exact ⟨ack, data, hrun, hdata, hcommand, hresult⟩

end EdgeLink.CommandJson
