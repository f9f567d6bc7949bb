import EdgeLink.LineSearch

namespace EdgeLink.CommandJson

open Json Lookup Node

section Lines

variable {D : Type} (f : Doubles D) (req : CommandRequest D) (command_id : UInt16)

/-- What stands before the parameters. -/
def wifiHead (s : Text) : Text :=
  0x7B :: field (ascii "type") (quoted (ascii "command")) (0x2C ::
    field (ascii "device_id") (natText req.deviceId.toNat) (0x2C ::
    field (ascii "command_id") (natText command_id.toNat) (0x2C ::
    field (ascii "command_type") (quoted (jsonEscape req.commandType)) (0x2C :: s))))

def wifiTail : Text := 0x7D :: 0x2C :: field (ascii "timeout_ms") (intText req.timeoutMs) [0x7D]

theorem buildWifiCommandLine_eq : buildWifiCommandLine f req command_id =
    wifiHead req command_id
      (field (ascii "params") (0x7B :: wifiParams f req) (wifiTail req)) := by
  have h₁ : ascii "\x7b" = [0x7B] := by decide
  have h₂ : ascii "\"type\":\"command\"," =
      quoted (ascii "type") ++ 0x3A :: (quoted (ascii "command") ++ [0x2C]) := by decide
  have h₃ : ascii "\"device_id\":" = quoted (ascii "device_id") ++ [0x3A] := by decide
  have h₄ : ascii "," = [0x2C] := by decide
  have h₅ : ascii "\"command_id\":" = quoted (ascii "command_id") ++ [0x3A] := by decide
  have h₆ : ascii "\"command_type\":\"" = quoted (ascii "command_type") ++ [0x3A, 0x22] := by
    decide
  have h₇ : ascii "\"," = [0x22, 0x2C] := by decide
  have h₈ : ascii "\"params\":\x7b" = quoted (ascii "params") ++ [0x3A, 0x7B] := by decide
  have h₉ : ascii "\x7d," = [0x7D, 0x2C] := by decide
  have h₁₀ : ascii "\"timeout_ms\":" = quoted (ascii "timeout_ms") ++ [0x3A] := by decide
  have h₁₁ : ascii "\x7d" = [0x7D] := by decide
  rw [buildWifiCommandLine, h₁, h₂, h₃, h₄, h₅, h₆, h₇, h₈, h₉, h₁₀, h₁₁]
  simp only [wifiHead, wifiTail, field, quoted, List.append_assoc, List.cons_append,
    List.nil_append]

def mqttHead (cmd s : Text) : Text :=
  0x7B :: field (ascii "command_id") (natText command_id.toNat) (0x2C ::
    field (ascii "cmd") (quoted cmd) (0x2C ::
    field (ascii "command_type") (quoted req.commandType) s))

/-- The field that stands for the argument, on either way. -/
def argument (s : Text) : Text :=
  if req.commandType = ascii "set_led" then 0x2C :: field (ascii "value") (bit req.on) s
  else if req.commandType = ascii "set_report_interval" then
    0x2C :: field (ascii "interval_ms") (intText req.reportIntervalMs) s
  else if req.commandType = ascii "set_log_level" then
    0x2C :: field (ascii "level") (quoted (jsonEscape req.logLevel)) s
  else s

theorem buildMqttCommandPayload_eq
    (h : req.commandType ∈ [ascii "set_led", ascii "get_status", ascii "set_report_interval",
      ascii "set_log_level"]) :
    buildMqttCommandPayload req command_id =
      .ok (mqttHead req command_id (publicCommandName req.commandType) (argument req [0x7D])) := by
  have hopen : ascii "\x7b" = [0x7B] := by decide
  have hid : ascii "\"command_id\":" = quoted (ascii "command_id") ++ [0x3A] := by decide
  have hcomma : ascii "," = [0x2C] := by decide
  have hclose : ascii "\x7d" = [0x7D] := by decide
  simp only [List.mem_cons, List.not_mem_nil, or_false] at h
  -- the fixed text of each type is the quoted fields it consists of
  rcases h with h | h | h | h
  · have hcmd : ascii "\"cmd\":\"led_set\"," ++ ascii "\"command_type\":\"set_led\"," =
        quoted (ascii "cmd") ++ 0x3A :: (quoted (publicCommandName (ascii "set_led")) ++ 0x2C ::
          (quoted (ascii "command_type") ++ 0x3A :: (quoted (ascii "set_led") ++ [0x2C]))) := by
      decide
    have hvalue : ascii "\"value\":" = quoted (ascii "value") ++ [0x3A] := by decide
    rw [buildMqttCommandPayload, if_pos h, argument, if_pos h, mqttHead, h, hcmd, hopen, hid,
      hcomma, hclose, hvalue]
    simp only [field, quoted, List.append_assoc, List.cons_append, List.nil_append,
      bind, Except.bind]
  · have hcmd : ascii "\"cmd\":\"status_get\"," ++ ascii "\"command_type\":\"get_status\"" =
        quoted (ascii "cmd") ++ 0x3A :: (quoted (publicCommandName (ascii "get_status")) ++ 0x2C ::
          (quoted (ascii "command_type") ++ 0x3A :: quoted (ascii "get_status"))) := by
      decide
    have hled : req.commandType ≠ ascii "set_led" := by rw [h]; decide
    have hint : req.commandType ≠ ascii "set_report_interval" := by rw [h]; decide
    have hlog : req.commandType ≠ ascii "set_log_level" := by rw [h]; decide
    rw [buildMqttCommandPayload, if_neg hled, if_pos h, argument, if_neg hled, if_neg hint,
      if_neg hlog, mqttHead, h, hcmd, hopen, hid, hcomma, hclose]
    simp only [field, quoted, List.append_assoc, List.cons_append, List.nil_append,
      bind, Except.bind]
  · have hcmd : ascii "\"cmd\":\"report_interval_set\"," ++
        ascii "\"command_type\":\"set_report_interval\"," =
        quoted (ascii "cmd") ++ 0x3A :: (quoted (publicCommandName (ascii "set_report_interval"))
          ++ 0x2C :: (quoted (ascii "command_type") ++ 0x3A ::
          (quoted (ascii "set_report_interval") ++ [0x2C]))) := by
      decide
    have hvalue : ascii "\"interval_ms\":" = quoted (ascii "interval_ms") ++ [0x3A] := by
      decide
    have hled : req.commandType ≠ ascii "set_led" := by rw [h]; decide
    have hget : req.commandType ≠ ascii "get_status" := by rw [h]; decide
    rw [buildMqttCommandPayload, if_neg hled, if_neg hget, if_pos h, argument, if_neg hled,
      if_pos h, mqttHead, h, hcmd, hopen, hid, hcomma, hclose, hvalue]
    simp only [field, quoted, List.append_assoc, List.cons_append, List.nil_append,
      bind, Except.bind]
  · have hcmd : ascii "\"cmd\":\"set_log_level\"," ++
        ascii "\"command_type\":\"set_log_level\"," =
        quoted (ascii "cmd") ++ 0x3A :: (quoted (publicCommandName (ascii "set_log_level"))
          ++ 0x2C :: (quoted (ascii "command_type") ++ 0x3A ::
          (quoted (ascii "set_log_level") ++ [0x2C]))) := by
      decide
    have hvalue : ascii "\"level\":\"" = quoted (ascii "level") ++ [0x3A, 0x22] := by
      decide
    have hquote : ascii "\"" = [0x22] := by decide
    have hled : req.commandType ≠ ascii "set_led" := by rw [h]; decide
    have hget : req.commandType ≠ ascii "get_status" := by rw [h]; decide
    have hint : req.commandType ≠ ascii "set_report_interval" := by rw [h]; decide
    rw [buildMqttCommandPayload, if_neg hled, if_neg hget, if_neg hint, if_pos h, argument,
      if_neg hled, if_neg hint, if_pos h, mqttHead, h, hcmd, hopen, hid, hcomma, hclose, hvalue,
      hquote]
    simp only [field, quoted, List.append_assoc, List.cons_append, List.nil_append,
      bind, Except.bind]

end Lines

section Reads

variable {D : Type} (f : Doubles D) (req : CommandRequest D) (command_id : UInt16)

/-- The requests that `parseControlCommandRequest` lets through. -/
structure Accepted : Prop where
  type : req.commandType ∈ [ascii "set_led", ascii "set_mode", ascii "get_status",
    ascii "set_threshold", ascii "set_report_interval", ascii "set_log_level"]
  interval : req.commandType = ascii "set_report_interval" →
    0 < req.reportIntervalMs ∧ req.reportIntervalMs ≤ 86400000

/-- What the node makes of a line. -/
structure Reads (line topic otaTopic : Text) : Prop where
  name : commandName line topic otaTopic = some req.commandType
  id : findIntField line (ascii "command_id") 0 = command_id.toNat
  value : req.commandType = ascii "set_led" →
    findIntField line (ascii "value") 0 = if req.on then 1 else 0
  interval : req.commandType = ascii "set_report_interval" →
    findIntField line (ascii "interval_ms") (-1) = req.reportIntervalMs

end Reads

theorem bind_ok_iff {α β : Type} {x : Except String α} {g : α → Except String β} {b : β} :
    (x >>= g) = .ok b ↔ ∃ a, x = .ok a ∧ g a = .ok b := by
  cases x <;> simp [bind, Except.bind]

section Parsed

variable {D : Type} {out req : CommandRequest D} {scope : Text}

theorem parseLed_type (h : parseLed out scope = .ok req) : req.commandType = out.commandType := by
  unfold parseLed at h
  split at h
  · cases h
    rfl
  · split at h
    · cases h
    · split_ifs at h
      cases h
      rfl

theorem parseMode_type (h : parseMode out scope = .ok req) : req.commandType = out.commandType := by
  unfold parseMode at h
  split at h
  · split_ifs at h <;> (cases h; rfl)
  · split at h
    · split at h
      · cases h
      · cases h
        rfl
    · split_ifs at h
      cases h
      rfl

theorem parseThreshold_type (f : Doubles D) (h : parseThreshold f out scope = .ok req) :
    req.commandType = out.commandType := by
  simp only [parseThreshold] at h
  split at h
  · cases h
    rfl
  · split at h
    · cases h
      rfl
    · cases h

theorem parseInterval_type (h : parseInterval out scope = .ok req) :
    req.commandType = out.commandType ∧ 0 < req.reportIntervalMs ∧
      req.reportIntervalMs ≤ 86400000 := by
  simp only [parseInterval] at h
  split_ifs at h with hrange
  cases h
  rw [not_or, not_le, not_lt] at hrange
  exact ⟨rfl, hrange⟩

theorem parseLogLevel_type (h : parseLogLevel out scope = .ok req) :
    req.commandType = out.commandType := by
  simp only [parseLogLevel] at h
  split at h
  · cases h
    rfl
  · cases h

end Parsed

theorem accepted_of_type {D : Type} {req : CommandRequest D} {type : Text}
    (h : req.commandType = type)
    (ht : type ∈ [ascii "set_led", ascii "set_mode", ascii "get_status", ascii "set_threshold",
      ascii "set_report_interval", ascii "set_log_level"])
    (hne : type ≠ ascii "set_report_interval") : Accepted req :=
  ⟨h ▸ ht, fun hi => absurd (h.symm.trans hi) hne⟩

theorem accepted_of_parse {D : Type} (f : Doubles D) {body : Text} {req : CommandRequest D}
    (h : parseControlCommandRequest f body = .ok req) : Accepted req := by
  unfold parseControlCommandRequest at h
  simp only at h
  split at h
  · split_ifs at h with hid hled hmode hthr hint hlog hget
    all_goals
      rw [bind_ok_iff] at h
      obtain ⟨id, -, h⟩ := h
      rw [bind_ok_iff] at h
      obtain ⟨timeout, -, h⟩ := h
    · exact accepted_of_type (parseLed_type h |>.trans hled) (by simp) (by decide)
    · exact accepted_of_type (parseMode_type h |>.trans hmode) (by simp) (by decide)
    · exact accepted_of_type (parseThreshold_type f h |>.trans hthr) (by simp) (by decide)
    · have ht := parseInterval_type h
      exact ⟨by simp [ht.1.trans hint], fun _ => ht.2⟩
    · exact accepted_of_type (parseLogLevel_type h |>.trans hlog) (by simp) (by decide)
    · cases h
    · cases h
      exact accepted_of_type (not_not.mp hget) (by simp) (by decide)
  · cases h

section Wifi

variable {D : Type} (f : Doubles D) {req : CommandRequest D} (hreq : Accepted req)
  (command_id : UInt16)

include hreq

/-- The names of the commands hold nothing that is escaped or that a search takes for a key. -/
theorem Accepted.plain : jsonEscape req.commandType = req.commandType ∧ IsKey req.commandType ∧
    canonicalCommandName req.commandType = req.commandType ∧
    req.commandType ∉ [ascii "type", ascii "cmd", ascii "command_type", ascii "command_id",
      ascii "value", ascii "interval_ms"] := by
  have h := hreq.type
  simp only [List.mem_cons, List.not_mem_nil, or_false] at h
  rcases h with h | h | h | h | h | h <;> rw [h] <;> decide

theorem wifiHead_skip {key : Text} (hkey : IsKey key)
    (hk : key ∉ [ascii "type", ascii "device_id", ascii "command_id", ascii "command_type",
      ascii "command"]) (ht : key ≠ req.commandType) (s : Text) :
    behind (quoted key) (wifiHead req command_id s) = behind (quoted key) s := by
  simp only [List.mem_cons, List.not_mem_nil, or_false, not_or] at hk
  obtain ⟨h₁, h₂, h₃, h₄, h₅⟩ := hk
  have hcomma (s : Text) : behind (quoted key) (0x2C :: s) = behind (quoted key) s :=
    behind_skip (by decide) s
  have htype : ∀ b ∈ req.commandType, b ≠ 0x22 := fun b hb => (hreq.plain.2.1.plain b hb).1
  rw [wifiHead, hreq.plain.1, behind_skip (by decide),
    behind_textField hkey (by decide) h₁ (by decide +kernel) h₅ hkey.comma, hcomma,
    behind_numberField hkey (by decide) h₂ fun b hb => (natText_digit b hb).2, hcomma,
    behind_numberField hkey (by decide) h₃ fun b hb => (natText_digit b hb).2, hcomma,
    behind_textField hkey (by decide) h₄ htype ht hkey.comma, hcomma]

omit hreq in
theorem wifiTail_skip {key : Text} (hkey : IsKey key) (hk : key ≠ ascii "timeout_ms") :
    behind (quoted key) (wifiTail req) = none := by
  rw [wifiTail, behind_skip (by decide), behind_skip (by decide),
    behind_numberField hkey (by decide) hk (intText_plain _), behind_skip (by decide),
    behind, if_neg (by simp [quoted])]

omit hreq in
theorem bit_eq (b : Bool) : bit b = natText (if b then 1 else 0) := rfl

omit hreq in
theorem wifiParams_field {key : Text} (hkey : IsKey key) (hk : key ∉ [ascii "timeout_ms",
    ascii "value", ascii "temperature", ascii "humidity", ascii "interval_ms", ascii "level"]) :
    behind (quoted key) (wifiParams f req ++ wifiTail req) = none ∨
      ∃ s, behind (quoted key) (wifiParams f req ++ wifiTail req) = some (0x7D :: s) := by
  simp only [List.mem_cons, List.not_mem_nil, or_false, not_or] at hk
  obtain ⟨h₁, h₂, h₃, h₄, h₅, h₆⟩ := hk
  have htail := @wifiTail_skip _ req _ hkey h₁
  have hvalue : ascii "\"value\":" = quoted (ascii "value") ++ [0x3A] := by decide
  have hnumber (name t s : Text) : (quoted name ++ [0x3A]) ++ t ++ s = field name t s := by
    simp [field]
  unfold wifiParams
  -- one kind of command after the other; only the level is a text that could hold the key
  split_ifs with hled hmode hthr hint hlog
  · rw [hvalue, hnumber, bit_eq, behind_numberField hkey (by decide) h₂
      fun b hb => (natText_digit b hb).2]
    exact Or.inl htail
  · rw [hvalue, hnumber, bit_eq, behind_numberField hkey (by decide) h₂
      fun b hb => (natText_digit b hb).2]
    exact Or.inl htail
  · have htemp : ascii "\"temperature\":" = quoted (ascii "temperature") ++ [0x3A] := by
      decide
    have hhumi : ascii "\"humidity\":" = quoted (ascii "humidity") ++ [0x3A] := by decide
    have hcomma : ascii "," = [0x2C] := by decide
    have htext : quoted (ascii "temperature") ++ [0x3A] ++ f.put req.thresholdTemp ++ [0x2C] ++
        quoted (ascii "humidity") ++ [0x3A] ++ f.put req.thresholdHumi ++ wifiTail req =
        field (ascii "temperature") (f.put req.thresholdTemp)
          (0x2C :: field (ascii "humidity") (f.put req.thresholdHumi) (wifiTail req)) := by
      simp [field]
    have hput (d : D) : ∀ b ∈ f.put d, b ≠ 0x22 := fun b hb hq => f.put_plain d (hq ▸ hb)
    rw [htemp, hhumi, hcomma, ← List.append_assoc, htext,
      behind_numberField hkey (by decide) h₃ (hput _), behind_skip (by decide),
      behind_numberField hkey (by decide) h₄ (hput _)]
    exact Or.inl htail
  · have hinterval : ascii "\"interval_ms\":" = quoted (ascii "interval_ms") ++ [0x3A] := by
      decide
    rw [hinterval, hnumber, behind_numberField hkey (by decide) h₅ (intText_plain _)]
    exact Or.inl htail
  · have hlevel : ascii "\"level\":\"" = quoted (ascii "level") ++ [0x3A, 0x22] := by
      decide
    have hquote : ascii "\"" = [0x22] := by decide
    have htext : quoted (ascii "level") ++ [0x3A, 0x22] ++ jsonEscape req.logLevel ++ [0x22] ++
        wifiTail req =
        field (ascii "level") (quoted (jsonEscape req.logLevel)) (wifiTail req) := by
      simp [field, quoted]
    rw [hlevel, hquote, htext, behind_other hkey (by decide) h₆, wifiTail]
    rcases behind_escaped hkey hkey.brace (0x2C :: field (ascii "timeout_ms")
      (intText req.timeoutMs) [0x7D]) req.logLevel with h | h
    · exact Or.inr ⟨_, h⟩
    · exact Or.inl (h.trans htail)
  · exact Or.inl htail

/-- Behind the head the search goes on in the parameters. -/
theorem wifiLine_skip {key : Text} (hkey : IsKey key)
    (hk : key ∉ [ascii "type", ascii "device_id", ascii "command_id", ascii "command_type",
      ascii "command"]) (hp : key ≠ ascii "params") (ht : key ≠ req.commandType) :
    behind (quoted key) (buildWifiCommandLine f req command_id) =
      behind (quoted key) (wifiParams f req ++ wifiTail req) := by
  rw [buildWifiCommandLine_eq, wifiHead_skip hreq command_id hkey hk ht,
    behind_other hkey (by decide) hp, List.cons_append, behind_skip (by decide)]

theorem wifi_commandName (topic otaTopic : Text) :
    commandName (buildWifiCommandLine f req command_id) topic otaTopic = some req.commandType := by
  obtain ⟨hescape, hname, hcanonical, hnot⟩ := hreq.plain
  have hcomma {key : Text} (s : Text) : behind (quoted key) (0x2C :: s) = behind (quoted key) s :=
    behind_skip (by decide) s
  simp only [List.mem_cons, List.not_mem_nil, or_false, not_or] at hnot
  have htype : findStringField (buildWifiCommandLine f req command_id) (ascii "type") =
      ascii "command" := by
    refine findStringField_eq (by decide +kernel) ?_
    rw [buildWifiCommandLine_eq, wifiHead, behind_skip (by decide), behind_field]
    exact ⟨_, rfl⟩
  have hlegacy : findStringField (buildWifiCommandLine f req command_id) (ascii "command_type") =
      req.commandType := by
    have hkey : IsKey (ascii "command_type") := by decide
    refine findStringField_eq (fun b hb => (hname.plain b hb).1) ?_
    rw [buildWifiCommandLine_eq, wifiHead, hescape, behind_skip (by decide),
        behind_textField hkey (by decide) (by decide) (by decide +kernel)
          (by decide) hkey.comma, hcomma,
        behind_numberField hkey (by decide) (by decide)
          fun b hb => (natText_digit b hb).2, hcomma,
        behind_numberField hkey (by decide) (by decide)
          fun b hb => (natText_digit b hb).2, hcomma, behind_field]
    exact ⟨_, rfl⟩
  have hcmd : findStringField (buildWifiCommandLine f req command_id) (ascii "cmd") = [] := by
    have hkey : IsKey (ascii "cmd") := by decide
    refine findStringField_nil ?_
    rw [wifiLine_skip f hreq command_id hkey (by decide) (by decide)
      (Ne.symm hnot.2.1)]
    exact wifiParams_field f hkey (by decide)
  have hne : ascii "command" ≠ [] := by decide
  simp only [commandName, htype, hlegacy, hcmd, if_true, hcanonical, hname.ne, and_false, if_false,
    hne, false_and]

theorem wifi_reads (topic otaTopic : Text) :
    Reads req command_id (buildWifiCommandLine f req command_id) topic otaTopic where
  name := wifi_commandName f hreq command_id topic otaTopic
  id := by
    have hkey : IsKey (ascii "command_id") := by decide
    have hlt := command_id.toNat_lt
    refine findIntField_eq (b := 0x2C) (by omega) (by decide) 0 ?_
    rw [buildWifiCommandLine_eq, wifiHead, behind_skip (by decide),
      behind_textField hkey (by decide) (by decide) (by decide +kernel)
        (by decide) hkey.comma, behind_skip (by decide),
      behind_numberField hkey (by decide) (by decide)
        fun b hb => (natText_digit b hb).2, behind_skip (by decide), behind_field]
    exact ⟨_, rfl⟩
  value := by
    intro hled
    have hkey : IsKey (ascii "value") := by decide
    have hvalue : ascii "\"value\":" = quoted (ascii "value") ++ [0x3A] := by decide
    have hfield : wifiParams f req ++ wifiTail req =
        field (ascii "value") (natText (if req.on then 1 else 0)) (wifiTail req) := by
      rw [wifiParams, if_pos hled, hvalue]
      simp [field, bit]
    have h : findIntField (buildWifiCommandLine f req command_id) (ascii "value") 0 =
        ((if req.on then 1 else 0 : ℕ) : ℤ) := by
      refine findIntField_eq (b := 0x7D) (by split_ifs <;> decide) (by decide) 0 ?_
      rw [wifiLine_skip f hreq command_id hkey (by decide) (by decide)
        (by rw [hled]; decide), hfield, behind_field]
      exact ⟨_, rfl⟩
    rw [h]
    split_ifs <;> rfl
  interval := by
    intro hint
    obtain ⟨hpos, hmax⟩ := hreq.interval hint
    have hkey : IsKey (ascii "interval_ms") := by decide
    have hvalue : ascii "\"interval_ms\":" = quoted (ascii "interval_ms") ++ [0x3A] := by
      decide
    have hled : req.commandType ≠ ascii "set_led" := by rw [hint]; decide
    have hmode : req.commandType ≠ ascii "set_mode" := by rw [hint]; decide
    have hthr : req.commandType ≠ ascii "set_threshold" := by rw [hint]; decide
    have hfield : wifiParams f req ++ wifiTail req =
        field (ascii "interval_ms") (natText req.reportIntervalMs.natAbs) (wifiTail req) := by
      rw [wifiParams, if_neg hled, if_neg hmode, if_neg hthr, if_pos hint, hvalue,
        intText_nonneg hpos.le]
      simp [field]
    have h : findIntField (buildWifiCommandLine f req command_id) (ascii "interval_ms") (-1) =
        (req.reportIntervalMs.natAbs : ℤ) := by
      refine findIntField_eq (b := 0x7D) (by omega) (by decide) (-1) ?_
      rw [wifiLine_skip f hreq command_id hkey (by decide) (by decide)
        (by rw [hint]; decide), hfield, behind_field]
      exact ⟨_, rfl⟩
    rw [h, Int.natAbs_of_nonneg hpos.le]

end Wifi

section Mqtt

variable {D : Type} {req : CommandRequest D} (hreq : Accepted req) (command_id : UInt16)

/-- The payload of a command that the transport takes. -/
def mqttLine (req : CommandRequest D) : Text :=
  mqttHead req command_id (publicCommandName req.commandType) (argument req [0x7D])

include hreq

theorem publicName_plain : IsKey (publicCommandName req.commandType) ∧
    canonicalCommandName (publicCommandName req.commandType) = req.commandType ∧
    publicCommandName req.commandType ∉ [ascii "type", ascii "command_type", ascii "command_id",
      ascii "value", ascii "interval_ms"] := by
  have h := hreq.type
  simp only [List.mem_cons, List.not_mem_nil, or_false] at h
  rcases h with h | h | h | h | h | h <;> rw [h] <;> decide

omit hreq in
/-- A search that comes as far as the argument ends at the closing brace, if it ends. -/
theorem argument_field {key : Text} (hkey : IsKey key)
    (hk : key ∉ [ascii "value", ascii "interval_ms", ascii "level"]) :
    behind (quoted key) (argument req [0x7D]) = none ∨
      ∃ s, behind (quoted key) (argument req [0x7D]) = some (0x7D :: s) := by
  have hend : behind (quoted key) [0x7D] = none := by
    rw [behind_skip (by decide), behind, if_neg (by simp [quoted])]
  simp only [List.mem_cons, List.not_mem_nil, or_false, not_or] at hk
  unfold argument
  split_ifs with hled hint hlog
  · rw [behind_skip (by decide), bit_eq, behind_numberField hkey (by decide) hk.1
      fun b hb => (natText_digit b hb).2]
    exact Or.inl hend
  · rw [behind_skip (by decide), behind_numberField hkey (by decide) hk.2.1
      (intText_plain _)]
    exact Or.inl hend
  · rw [behind_skip (by decide), behind_other hkey (by decide) hk.2.2]
    rcases behind_escaped hkey hkey.brace [] req.logLevel with h | h
    · exact Or.inr ⟨_, h⟩
    · exact Or.inl (h.trans hend)
  · exact Or.inl hend

omit hreq in
theorem argument_cons : ∃ b s, argument req [0x7D] = b :: s ∧ (b = 0x2C ∨ b = 0x7D) := by
  unfold argument
  split_ifs
  all_goals first
    | exact ⟨_, _, rfl, Or.inl rfl⟩
    | exact ⟨_, _, rfl, Or.inr rfl⟩

theorem mqttLine_skip {key : Text} (hkey : IsKey key)
    (hk : key ∉ [ascii "command_id", ascii "cmd", ascii "command_type"])
    (hc : key ≠ publicCommandName req.commandType) (ht : key ≠ req.commandType) :
    behind (quoted key) (mqttLine command_id req) = behind (quoted key) (argument req [0x7D]) := by
  obtain ⟨b, s, harg, hb⟩ := @argument_cons _ req
  have hbkey : b ∉ key := by
    rcases hb with rfl | rfl
    · exact hkey.comma
    · exact hkey.brace
  have hpublic : ∀ b ∈ publicCommandName req.commandType, b ≠ 0x22 :=
    fun b hb => ((publicName_plain hreq).1.plain b hb).1
  have htype : ∀ b ∈ req.commandType, b ≠ 0x22 := fun b hb => (hreq.plain.2.1.plain b hb).1
  simp only [List.mem_cons, List.not_mem_nil, or_false, not_or] at hk
  rw [mqttLine, mqttHead, behind_skip (by decide), behind_numberField hkey (by decide) hk.1
      fun b hb => (natText_digit b hb).2, behind_skip (by decide),
    behind_textField hkey (by decide) hk.2.1 hpublic hc hkey.comma,
    behind_skip (by decide), harg,
    behind_textField hkey (by decide) hk.2.2 htype ht hbkey]

theorem mqtt_commandName (topic otaTopic : Text) :
    commandName (mqttLine command_id req) topic otaTopic = some req.commandType := by
  obtain ⟨-, hname, -, hnot⟩ := hreq.plain
  obtain ⟨hpublic, hcanonical, hnotp⟩ := publicName_plain hreq
  simp only [List.mem_cons, List.not_mem_nil, or_false, not_or] at hnot hnotp
  have htype : findStringField (mqttLine command_id req) (ascii "type") = [] := by
    have hkey : IsKey (ascii "type") := by decide
    refine findStringField_nil ?_
    rw [mqttLine_skip hreq command_id hkey (by decide) (Ne.symm hnotp.1) (Ne.symm hnot.1)]
    exact argument_field hkey (by decide)
  have hcmd : findStringField (mqttLine command_id req) (ascii "cmd") =
      publicCommandName req.commandType := by
    have hkey : IsKey (ascii "cmd") := by decide
    refine findStringField_eq (fun b hb => (hpublic.plain b hb).1) ?_
    rw [mqttLine, mqttHead, behind_skip (by decide), behind_numberField hkey (by decide)
      (by decide) fun b hb => (natText_digit b hb).2, behind_skip (by decide), behind_field]
    exact ⟨_, rfl⟩
  simp only [commandName, htype, hcmd, hpublic.ne, if_false, hcanonical, hname.ne, and_false,
    ne_eq, not_false_eq_true, and_self, if_true]

theorem mqtt_reads (topic otaTopic : Text) :
    Reads req command_id (mqttLine command_id req) topic otaTopic where
  name := mqtt_commandName hreq command_id topic otaTopic
  id := by
    have hlt := command_id.toNat_lt
    refine findIntField_eq (b := 0x2C) (by omega) (by decide) 0 ?_
    rw [mqttLine, mqttHead, behind_skip (by decide), behind_field]
    exact ⟨_, rfl⟩
  value := by
    intro hled
    have hkey : IsKey (ascii "value") := by decide
    have h : findIntField (mqttLine command_id req) (ascii "value") 0 =
        ((if req.on then 1 else 0 : ℕ) : ℤ) := by
      refine findIntField_eq (b := 0x7D) (by split_ifs <;> decide) (by decide) 0 ?_
      rw [mqttLine_skip hreq command_id hkey (by decide) (by rw [hled]; decide)
        (by rw [hled]; decide), argument, if_pos hled, behind_skip (by decide),
        behind_field]
      exact ⟨_, rfl⟩
    rw [h]
    split_ifs <;> rfl
  interval := by
    intro hint
    obtain ⟨hpos, hmax⟩ := hreq.interval hint
    have hkey : IsKey (ascii "interval_ms") := by decide
    have hled : req.commandType ≠ ascii "set_led" := by rw [hint]; decide
    have h : findIntField (mqttLine command_id req) (ascii "interval_ms") (-1) =
        (req.reportIntervalMs.natAbs : ℤ) := by
      refine findIntField_eq (b := 0x7D) (by omega) (by decide) (-1) ?_
      rw [mqttLine_skip hreq command_id hkey (by decide) (by rw [hint]; decide)
        (by rw [hint]; decide), argument, if_neg hled, if_pos hint,
        intText_nonneg hpos.le, behind_skip (by decide), behind_field]
      exact ⟨_, rfl⟩
    rw [h, Int.natAbs_of_nonneg hpos.le]

end Mqtt

end EdgeLink.CommandJson
