import EdgeLink.ConfigLines

namespace EdgeLink.Config
open Json Lookup

/-! What becomes of the settings behind the line loop. -/

/-- The fields of `GatewayConfig`, by the names that they have in the file. -/
structure GatewayConfig where
  texts : Text → Text
  ints : Text → ℤ
  sizes : Text → ℕ
  bools : Text → Bool
  parity : UInt8
  devices : List DeviceConfig
  serials : List (Text × SerialConfig)

/-- One of the steps after the loop: a field is set if the file has it, or checked. -/
inductive Setting
  | text (name : String)
  | int (name : String)
  | size (name : String)
  | bool (name : String)
  | bounds (name : String) (least : ℤ) (most : Option ℤ) (complaint : String)
  | nonzero (name complaint : String)
  | serialParity
  | serialName
  | uploaderType

def serialSettings : List Setting :=
  [.text "serial.device", .text "serial.instance_name", .serialParity, .int "serial.baudrate",
    .int "serial.data_bits", .int "serial.stop_bits", .size "serial.read_chunk_size", .serialName]

def uploaderSettings : List Setting :=
  [.text "uploader.host", .text "uploader.type", .text "uploader.mqtt_topic",
    .text "uploader.mqtt_heartbeat_topic", .text "uploader.mqtt_status_topic",
    .text "uploader.mqtt_event_topic", .text "uploader.mqtt_command_ack_topic",
    .text "uploader.mqtt_ota_status_topic", .text "uploader.mqtt_command_down_topic",
    .text "uploader.mqtt_ota_start_topic", .text "uploader.mqtt_control_client_id",
    .text "uploader.mqtt_client_id", .text "uploader.mqtt_username", .text "uploader.mqtt_password",
    .text "uploader.disk_cache_file", .size "uploader.disk_cache_max_lines",
    .size "uploader.replay_batch_size", .int "uploader.port", .int "uploader.connect_timeout_ms",
    .int "uploader.reconnect_initial_ms", .int "uploader.reconnect_max_ms",
    .int "uploader.replay_pause_ms", .int "uploader.mqtt_qos", .int "uploader.mqtt_keepalive_sec",
    .int "uploader.mqtt_max_inflight", .bool "uploader.mqtt_clean_session",
    .bool "uploader.mqtt_control_enabled", .bool "uploader.disk_cache_enabled",
    .bounds "uploader.replay_pause_ms" 0 none ", expected >= 0",
    .bounds "uploader.mqtt_qos" 0 (some 2) ", expected 0..2",
    .bounds "uploader.mqtt_keepalive_sec" 1 none ", expected > 0",
    .bounds "uploader.mqtt_max_inflight" 1 none ", expected > 0"]

def runtimeSettings : List Setting :=
  [.size "runtime.queue_capacity", .int "runtime.stats_interval_sec",
    .bool "runtime.drop_unknown_devices", .int "runtime.device_offline_timeout_sec",
    .size "runtime.cache_backlog_warn_threshold",
    .bounds "runtime.device_offline_timeout_sec" 1 none ", expected > 0"]

def serviceSettings : List Setting :=
  [.text "command.bind_host", .bool "command.enabled", .int "command.port",
    .int "command.client_timeout_ms", .bounds "command.port" 1 (some 65535) " range",
    .bounds "command.client_timeout_ms" 1 none ", expected > 0", .text "heartbeat.gateway_id",
    .bool "heartbeat.enabled", .int "heartbeat.interval_sec",
    .bounds "heartbeat.interval_sec" 1 none ", expected > 0", .bool "reload.enabled",
    .int "reload.check_interval_sec", .bounds "reload.check_interval_sec" 1 none ", expected > 0",
    .text "monitor.bind_host", .bool "monitor.enabled", .int "monitor.port",
    .size "monitor.recent_capacity", .bounds "monitor.port" 1 (some 65535) " range",
    .nonzero "monitor.recent_capacity" ", expected > 0"]

def ingressSettings : List Setting :=
  [.text "wifi_device_server.listen_host", .bool "wifi_device_server.enabled",
    .int "wifi_device_server.listen_port",
    .bounds "wifi_device_server.listen_port" 1 (some 65535) " range",
    .text "mqtt_device_ingress.host", .text "mqtt_device_ingress.client_id",
    .text "mqtt_device_ingress.username", .text "mqtt_device_ingress.password",
    .text "mqtt_device_ingress.gateway_id", .text "mqtt_device_ingress.topic_prefix",
    .bool "mqtt_device_ingress.enabled", .int "mqtt_device_ingress.port",
    .int "mqtt_device_ingress.keepalive_sec", .bool "mqtt_device_ingress.clean_session",
    .int "mqtt_device_ingress.reconnect_initial_ms", .int "mqtt_device_ingress.reconnect_max_ms",
    .bounds "mqtt_device_ingress.port" 1 (some 65535) " range",
    .bounds "mqtt_device_ingress.keepalive_sec" 1 none ", expected > 0",
    .bounds "mqtt_device_ingress.reconnect_initial_ms" 1 none ", expected > 0",
    .bounds "mqtt_device_ingress.reconnect_max_ms" 1 none ", expected > 0",
    .text "tcp_binary.listen_host", .bool "tcp_binary.enabled", .int "tcp_binary.port",
    .text "tcp_binary.name", .int "tcp_binary.priority", .int "tcp_binary.heartbeat_timeout_ms",
    .bounds "tcp_binary.port" 1 (some 65535) " range",
    .bounds "tcp_binary.priority" 0 none ", expected >= 0",
    .bounds "tcp_binary.heartbeat_timeout_ms" 1 none ", expected > 0"]

/-- In the order of `loadFromFile`. -/
def settings : List Setting :=
  serialSettings ++ uploaderSettings ++ runtimeSettings ++ serviceSettings ++ ingressSettings ++
    [.text "log.file", .text "log.level", .bool "log.also_stdout", .uploaderType]

namespace GatewayConfig
variable (out : GatewayConfig)

def setText (name val : Text) : GatewayConfig :=
  { out with texts := Function.update out.texts name val }

def setInt (name : Text) (i : ℤ) : GatewayConfig :=
  { out with ints := Function.update out.ints name i }

def setSize (name : Text) (z : ℕ) : GatewayConfig :=
  { out with sizes := Function.update out.sizes name z }

def setBool (name : Text) (b : Bool) : GatewayConfig :=
  { out with bools := Function.update out.bools name b }

/-- A field is left alone if the file does not have it. -/
def convert {α : Type} (read : Text → Option α) (set : Text → α → GatewayConfig) (name : String)
    (val : Option Text) : Except Text GatewayConfig :=
  match val with
  | none => .ok out
  | some val => (need (read val) name).map (set (ascii name))

end GatewayConfig

def outOfBounds (i least : ℤ) (most : Option ℤ) : Bool := i < least || most.any (· < i)

def Setting.apply (kv : Text → Option Text) (out : GatewayConfig) : Setting → Except Text GatewayConfig
  | .text name => .ok ((kv (ascii name)).elim out (out.setText (ascii name)))
  | .int name => out.convert toInt out.setInt name (kv (ascii name))
  | .size name => out.convert toSize out.setSize name (kv (ascii name))
  | .bool name => out.convert toBool out.setBool name (kv (ascii name))
  | .bounds name least most complaint =>
    if outOfBounds (out.ints (ascii name)) least most then
      .error (ascii "invalid " ++ ascii name ++ ascii complaint)
    else .ok out
  | .nonzero name complaint =>
    if out.sizes (ascii name) = 0 then .error (ascii "invalid " ++ ascii name ++ ascii complaint)
    else .ok out
  | .serialParity =>
    .ok (((kv (ascii "serial.parity")).bind List.head?).elim out fun c => { out with parity := c })
  | .serialName =>
    let name := ascii "serial.instance_name"
    .ok (if out.texts name = [] then out.setText name (ascii "default") else out)
  | .uploaderType =>
    let name := ascii "uploader.type"
    let type := lower (out.texts name)
    if type ≠ ascii "tcp" ∧ type ≠ ascii "mqtt" then
      .error (ascii "invalid uploader.type, expected tcp or mqtt")
    else .ok (out.setText name type)

def applySettings (kv : Text → Option Text) (steps : List Setting) (out : GatewayConfig) :
    Except Text GatewayConfig := steps.foldlM (fun out step => step.apply kv out) out

/-- The checks of the devices, beside the ids that are taken. -/
def checkDevices : List UInt8 → List DeviceConfig → Except Text (List DeviceConfig)
  | _, [] => .ok []
  | ids, dev :: devs =>
    let link_type := lower (if dev.linkType = [] then ascii "serial" else dev.linkType)
    if dev.name = [] then .error (ascii "devices.name is required")
    else if dev.id ∈ ids then .error (ascii "duplicated devices.id")
    else if link_type ∉ [ascii "serial", ascii "wifi", ascii "mqtt"] then
      .error (ascii "invalid devices.link_type, expected serial or wifi or mqtt")
    else (checkDevices (dev.id :: ids) devs).map ({ dev with linkType := link_type } :: ·)

/-- The checks of the serial instances from the `idx`-th on, beside the names that are taken. -/
def checkSerials : ℕ → List Text → List SerialConfig → Except Text (List (Text × SerialConfig))
  | _, _, [] => .ok []
  | idx, names, serial :: serials =>
    let name := if serial.instanceName = [] then ascii "serial-" ++ natText idx else serial.instanceName
    if serial.device = [] then .error (ascii "serials.device is required")
    else if name ∈ names then .error (ascii "duplicated serials.instance_name")
    else (checkSerials (idx + 1) (name :: names) serials).map
      ((name, { serial with instanceName := name }) :: ·)

/-- The lists, which come last. -/
def Loader.finishLists (s : Loader) (out : GatewayConfig) : Except Text GatewayConfig :=
  match checkDevices [] s.parsedDevices with
  | .error err => .error err
  | .ok devices =>
    (checkSerials 0 [] s.parsedSerials).map fun serials =>
      { out with devices := devices, serials := serials }

def Loader.finish (s : Loader) (out : GatewayConfig) : Except Text GatewayConfig :=
  match applySettings s.kv settings out with
  | .error err => .error err
  | .ok out => s.finishLists out

/-- The text of the file, if it can be opened, and the configuration so far. -/
def loadFromFile (path : Text) (file : Option Text) (out : GatewayConfig) : Except Text GatewayConfig :=
  match file with
  | none => .error (ascii "cannot open config file: " ++ path)
  | some text =>
    match loadLines {} (getlines text) with
    | .error err => .error err
    | .ok s => s.finish out

def Setting.textName? : Setting → Option Text
  | .text name => some (ascii name)
  | _ => none

/-- The setting that the step makes something of. -/
def Setting.converted? : Setting → Option Text
  | .int name | .size name | .bool name => some (ascii name)
  | .serialParity => some (ascii "serial.parity")
  | .serialName => some (ascii "serial.instance_name")
  | .uploaderType => some (ascii "uploader.type")
  | _ => none

/-- A text field that nothing is made of. -/
def Verbatim (name : Text) : Prop :=
  name ∈ settings.filterMap Setting.textName? ∧ name ∉ settings.filterMap Setting.converted?

def fileOf (lines : List Text) : Text := lines.flatMap (· ++ [0x0A])

/-- The line `key: "v"` sets `key` in its section to `v`, whatever came before it. In a file it gives
the field `v`, unless a later line sets it again, and if the file is rejected, then so it is with any
other text in place of `v`. -/
structure TakenVerbatim (name key : Text) (quote : UInt8) (v : Text) : Prop where
  line : ∀ s : Loader, s.currentSection = name →
    s.loadLine (configLine key quote v) = .ok (s.next.set key v)
  used : ∀ (before after : List Text) (s s' : Loader) (path : Text) (out : GatewayConfig),
    (∀ line ∈ before ++ after, 0x0A ∉ line) → loadLines {} before = .ok s → s.currentSection = name →
    loadLines (s.next.set key v) after = .ok s' → s'.kv (entry name key) = some v →
    Verbatim (entry name key) →
    match loadFromFile path (some (fileOf (before ++ configLine key quote v :: after))) out with
    | .ok cfg => cfg.texts (entry name key) = v
    | .error err => ∀ w, { s' with kv := Function.update s'.kv (entry name key) (some w) }.finish out =
        .error err

section Settings
variable {kv : Text → Option Text} {out out' : GatewayConfig} {step : Setting} {name v : Text}

theorem convert_texts {α : Type} {read : Text → Option α} {set : Text → α → GatewayConfig} {n : String}
    {val : Option Text} (hset : ∀ a, (set (ascii n) a).texts = out.texts)
    (h : out.convert read set n val = .ok out') : out'.texts = out.texts := by
  unfold GatewayConfig.convert need at h
  split at h
  · cases h
    rfl
  · split at h
    · cases h
    · cases h
      exact hset _

/-- A text that is there, or that the step sets. -/
theorem apply_text (h : step.apply kv out = .ok out') (hkv : kv name = some v)
    (hno : step.converted? ≠ some name)
    (hname : out.texts name = v ∨ step.textName? = some name) : out'.texts name = v := by
  have hset : ∀ (n val : Text), n ≠ name → out.texts name = v → (out.setText n val).texts name = v :=
    fun n val hn hv => (Function.update_of_ne (Ne.symm hn) ..).trans hv
  -- the conversions and checks touch no text, and the two that convert one are excluded
  cases step with
  | text n =>
    cases h
    by_cases hn : ascii n = name
    · rw [hn, hkv]
      exact Function.update_self ..
    · have hv := hname.resolve_right fun hsome => hn (Option.some.inj hsome)
      cases kv (ascii n) with
      | none => exact hv
      | some val => exact hset _ _ hn hv
  | int n =>
    rw [convert_texts (fun _ => rfl) h]
    exact hname.resolve_right nofun
  | size n =>
    rw [convert_texts (fun _ => rfl) h]
    exact hname.resolve_right nofun
  | bool n =>
    rw [convert_texts (fun _ => rfl) h]
    exact hname.resolve_right nofun
  | bounds n least most complaint =>
    simp only [Setting.apply] at h
    split_ifs at h
    cases h
    exact hname.resolve_right nofun
  | nonzero n complaint =>
    simp only [Setting.apply] at h
    split_ifs at h
    cases h
    exact hname.resolve_right nofun
  | serialParity =>
    cases h
    cases (kv (ascii "serial.parity")).bind List.head? <;> exact hname.resolve_right nofun
  | serialName =>
    cases h
    have hn : ascii "serial.instance_name" ≠ name := fun hn => hno (congrArg some hn)
    split_ifs
    · exact hset _ _ hn (hname.resolve_right nofun)
    · exact hname.resolve_right nofun
  | uploaderType =>
    have hn : ascii "uploader.type" ≠ name := fun hn => hno (congrArg some hn)
    simp only [Setting.apply] at h
    split_ifs at h
    cases h
    exact hset _ _ hn (hname.resolve_right nofun)

theorem applySettings_cons (kv : Text → Option Text) (step : Setting) (steps : List Setting)
    (out : GatewayConfig) : applySettings kv (step :: steps) out =
      match step.apply kv out with
      | .error err => .error err
      | .ok out => applySettings kv steps out := by
  unfold applySettings
  rw [List.foldlM_cons]
  cases step.apply kv out <;> rfl

theorem not_converted {steps : List Setting}
    (hno : name ∉ (step :: steps).filterMap Setting.converted?) :
    step.converted? ≠ some name ∧ name ∉ steps.filterMap Setting.converted? := by
  rw [List.mem_filterMap] at hno
  refine ⟨fun hstep => hno ⟨step, List.mem_cons_self, hstep⟩, fun hmem => ?_⟩
  obtain ⟨later, hlater, hconv⟩ := List.mem_filterMap.mp hmem
  exact hno ⟨later, List.mem_cons_of_mem _ hlater, hconv⟩

theorem applySettings_text {steps : List Setting} (h : applySettings kv steps out = .ok out')
    (hkv : kv name = some v) (hno : name ∉ steps.filterMap Setting.converted?)
    (hname : out.texts name = v ∨ name ∈ steps.filterMap Setting.textName?) : out'.texts name = v := by
  induction steps generalizing out with
  | nil =>
    cases h
    exact hname.resolve_right List.not_mem_nil
  | cons step steps ih =>
    obtain ⟨hstep, hlater⟩ := not_converted hno
    rw [applySettings_cons] at h
    cases hnext : step.apply kv out with
    | error err =>
      rw [hnext] at h
      cases h
    | ok next =>
      rw [hnext] at h
      by_cases hnow : out.texts name = v ∨ step.textName? = some name
      · exact ih h hlater (Or.inl (apply_text hnext hkv hstep hnow))
      · rw [not_or] at hnow
        refine ih h hlater (Or.inr ?_)
        obtain ⟨found, hmem, htext⟩ := List.mem_filterMap.mp (hname.resolve_left hnow.1)
        rcases List.mem_cons.mp hmem with rfl | hmem
        · exact absurd htext hnow.2
        · exact List.mem_filterMap.mpr ⟨found, hmem, htext⟩

/-- Two configurations that differ in this text at most. -/
structure SameBut (name : Text) (a b : GatewayConfig) : Prop where
  texts : ∀ n, n ≠ name → a.texts n = b.texts n
  ints : a.ints = b.ints
  sizes : a.sizes = b.sizes
  bools : a.bools = b.bools
  parity : a.parity = b.parity
  devices : a.devices = b.devices
  serials : a.serials = b.serials

/-- Both succeed, alike but for this text, or both fail alike. -/
def AlikeBut (name : Text) (a b : Except Text GatewayConfig) : Prop :=
  (∃ a' b', a = .ok a' ∧ b = .ok b' ∧ SameBut name a' b') ∨ ∃ err, a = .error err ∧ b = .error err

theorem SameBut.setText {a b : GatewayConfig} (h : SameBut name a b) (n : Text) {val val' : Text}
    (hval : n ≠ name → val = val') : SameBut name (a.setText n val) (b.setText n val') := by
  refine ⟨fun n' hn' => ?_, h.ints, h.sizes, h.bools, h.parity, h.devices, h.serials⟩
  unfold GatewayConfig.setText
  dsimp only
  rw [Function.update_apply, Function.update_apply]
  split_ifs with heq
  · exact hval (heq ▸ hn')
  · exact h.texts n' hn'

theorem SameBut.convert {a b : GatewayConfig} (h : SameBut name a b) {α : Type}
    {read : Text → Option α} {set set' : Text → α → GatewayConfig} {n : String} {val : Option Text}
    (hset : ∀ i, SameBut name (set (ascii n) i) (set' (ascii n) i)) :
    AlikeBut name (a.convert read set n val) (b.convert read set' n val) := by
  unfold GatewayConfig.convert need
  split
  · exact Or.inl ⟨a, b, rfl, rfl, h⟩
  · rename_i val
    cases read val with
    | none => exact Or.inr ⟨_, rfl, rfl⟩
    | some i => exact Or.inl ⟨_, _, rfl, rfl, hset i⟩

/-- A step that does not convert the text does not depend on it. -/
theorem apply_alike {a b : GatewayConfig} (h : SameBut name a b) (w : Text)
    (hno : step.converted? ≠ some name) :
    AlikeBut name (step.apply kv a) (step.apply (Function.update kv name (some w)) b) := by
  have hkv : ∀ n, n ≠ name → Function.update kv name (some w) n = kv n :=
    fun n hn => Function.update_of_ne hn ..
  cases step with
  | text n =>
    refine Or.inl ⟨_, _, rfl, rfl, ?_⟩
    -- a text is taken as it stands, so the other value only shows in this one field
    by_cases hn : ascii n = name
    · rw [hn, Function.update_self]
      cases kv name with
      | none =>
        refine ⟨fun n' hn' => ?_, h.ints, h.sizes, h.bools, h.parity, h.devices, h.serials⟩
        exact (h.texts n' hn').trans (Function.update_of_ne hn' ..).symm
      | some val => exact h.setText name fun hne => absurd rfl hne
    · rw [hkv _ hn]
      cases kv (ascii n) with
      | none => exact h
      | some val => exact h.setText _ fun _ => rfl
  | int n =>
    simp only [Setting.apply]
    rw [hkv _ fun hn => hno (congrArg some hn)]
    refine h.convert fun i => ⟨h.texts, ?_, h.sizes, h.bools, h.parity, h.devices, h.serials⟩
    exact congrArg (Function.update · (ascii n) i) h.ints
  | size n =>
    simp only [Setting.apply]
    rw [hkv _ fun hn => hno (congrArg some hn)]
    refine h.convert fun z => ⟨h.texts, h.ints, ?_, h.bools, h.parity, h.devices, h.serials⟩
    exact congrArg (Function.update · (ascii n) z) h.sizes
  | bool n =>
    simp only [Setting.apply]
    rw [hkv _ fun hn => hno (congrArg some hn)]
    refine h.convert fun i => ⟨h.texts, h.ints, h.sizes, ?_, h.parity, h.devices, h.serials⟩
    exact congrArg (Function.update · (ascii n) i) h.bools
  | bounds n least most complaint =>
    simp only [Setting.apply, h.ints]
    split_ifs
    · exact Or.inr ⟨_, rfl, rfl⟩
    · exact Or.inl ⟨a, b, rfl, rfl, h⟩
  | nonzero n complaint =>
    simp only [Setting.apply, h.sizes]
    split_ifs
    · exact Or.inr ⟨_, rfl, rfl⟩
    · exact Or.inl ⟨a, b, rfl, rfl, h⟩
  | serialParity =>
    simp only [Setting.apply]
    rw [hkv _ fun hn => hno (congrArg some hn)]
    refine Or.inl ⟨_, _, rfl, rfl, ?_⟩
    cases (kv (ascii "serial.parity")).bind List.head? with
    | none => exact h
    | some c => exact ⟨h.texts, h.ints, h.sizes, h.bools, rfl, h.devices, h.serials⟩
  | serialName =>
    have hn : ascii "serial.instance_name" ≠ name := fun hn => hno (congrArg some hn)
    simp only [Setting.apply, h.texts _ hn]
    refine Or.inl ⟨_, _, rfl, rfl, ?_⟩
    split_ifs
    · exact h.setText _ fun _ => rfl
    · exact h
  | uploaderType =>
    have hn : ascii "uploader.type" ≠ name := fun hn => hno (congrArg some hn)
    simp only [Setting.apply, h.texts _ hn]
    split_ifs
    · exact Or.inr ⟨_, rfl, rfl⟩
    · exact Or.inl ⟨_, _, rfl, rfl, h.setText _ fun _ => rfl⟩

theorem applySettings_alike {steps : List Setting} {a b : GatewayConfig} (h : SameBut name a b)
    (w : Text) (hno : name ∉ steps.filterMap Setting.converted?) :
    AlikeBut name (applySettings kv steps a)
      (applySettings (Function.update kv name (some w)) steps b) := by
  induction steps generalizing a b with
  | nil => exact Or.inl ⟨a, b, rfl, rfl, h⟩
  | cons step steps ih =>
    obtain ⟨hstep, hlater⟩ := not_converted hno
    rw [applySettings_cons, applySettings_cons]
    rcases @apply_alike kv step name a b h w hstep with ⟨a', b', ha, hb, hsame⟩ | ⟨err, ha, hb⟩
    · rw [ha, hb]
      exact ih hsame hlater
    · rw [ha, hb]
      exact Or.inr ⟨err, rfl, rfl⟩

theorem finish_text {s : Loader} (h : s.finish out = .ok out') (hkv : s.kv name = some v)
    (hname : Verbatim name) : out'.texts name = v := by
  unfold Loader.finish Loader.finishLists at h
  split at h
  · cases h
  · rename_i hset
    have htext := applySettings_text hset hkv hname.2 (Or.inr hname.1)
    split at h
    · cases h
    · cases hserials : checkSerials 0 [] s.parsedSerials with
      | error err =>
        rw [hserials] at h
        cases h
      | ok serials =>
        rw [hserials] at h
        cases h
        exact htext

/-- The text of a verbatim field does not decide whether the file is rejected. -/
theorem finish_error {s : Loader} {err : Text} (h : s.finish out = .error err) (hname : Verbatim name)
    (w : Text) : { s with kv := Function.update s.kv name (some w) }.finish out = .error err := by
  have hsame : SameBut name out out := ⟨fun _ _ => rfl, rfl, rfl, rfl, rfl, rfl, rfl⟩
  unfold Loader.finish at h ⊢
  rcases @applySettings_alike s.kv name settings out out hsame w hname.2 with
    ⟨a, b, ha, hb, -⟩ | ⟨err', ha, hb⟩
  · rw [ha] at h
    dsimp only at h ⊢
    rw [hb]
    dsimp only
    unfold Loader.finishLists at h ⊢
    dsimp only
    split at h
    · exact h
    · cases hserials : checkSerials 0 [] s.parsedSerials with
      | error err' =>
        rw [hserials] at h
        exact h
      | ok serials =>
        rw [hserials] at h
        cases h
  · rw [ha] at h
    dsimp only at h ⊢
    rw [hb]
    exact h

end Settings

theorem getlines_line {line : Text} (h : 0x0A ∉ line) (rest : Text) :
    getlines (line ++ 0x0A :: rest) = line :: getlines rest := by
  induction line with
  | nil => rfl
  | cons c line ih =>
    rw [List.mem_cons, not_or] at h
    rw [List.cons_append, getlines, if_neg (Ne.symm h.1), ih h.2]

theorem getlines_fileOf {lines : List Text} (h : ∀ line ∈ lines, 0x0A ∉ line) :
    getlines (fileOf lines) = lines := by
  induction lines with
  | nil => rfl
  | cons line lines ih =>
    have hcons : fileOf (line :: lines) = line ++ 0x0A :: fileOf lines := by
      simp [fileOf]
    rw [hcons, getlines_line (h line List.mem_cons_self),
      ih fun l hl => h l (List.mem_cons_of_mem _ hl)]

theorem loadLines_around {before after : List Text} {line : Text} {s t s' : Loader}
    (hbefore : loadLines {} before = .ok s) (hline : s.loadLine line = .ok t)
    (hafter : loadLines t after = .ok s') : loadLines {} (before ++ line :: after) = .ok s' := by
  unfold loadLines at hbefore hafter ⊢
  rw [List.foldlM_append, hbefore]
  change (line :: after).foldlM Loader.loadLine s = .ok s'
  rw [List.foldlM_cons, hline]
  exact hafter

section Verbatim
variable {name key v : Text} {quote : UInt8}

theorem used_of_line (hkey : IsKey key) (hq : IsQuoted quote v)
    (hline : ∀ s : Loader, s.currentSection = name →
      s.loadLine (configLine key quote v) = .ok (s.next.set key v)) :
    TakenVerbatim name key quote v := by
  refine ⟨hline, fun before after s s' path out hlines hbefore hsection hafter hkv hname => ?_⟩
  have hnewline : 0x0A ∉ configLine key quote v := by
    have hmark : (0x0A : UInt8) ≠ quote := by rcases hq.mark with rfl | rfl <;> decide
    simp only [configLine, List.mem_append, List.mem_cons, List.not_mem_nil, or_false, not_or]
    exact ⟨hkey.newline, by decide, by decide, hmark, hq.newline, hmark⟩
  have hall : ∀ line ∈ before ++ configLine key quote v :: after, 0x0A ∉ line := by
    intro line hmem
    rcases List.mem_append.mp hmem with hmem | hmem
    · exact hlines line (List.mem_append_left _ hmem)
    · rcases List.mem_cons.mp hmem with rfl | hmem
      · exact hnewline
      · exact hlines line (List.mem_append_right _ hmem)
  have hload : loadFromFile path (some (fileOf (before ++ configLine key quote v :: after))) out =
      s'.finish out := by
    unfold loadFromFile
    dsimp only
    rw [getlines_fileOf hall, loadLines_around hbefore (hline s hsection) hafter]
  rw [hload]
  split
  · rename_i cfg hfinish
    exact finish_text hfinish hkv hname
  · rename_i err hfinish
    exact finish_error hfinish hname

/-- A quoted text is taken as it is, exactly if it has no `#`; the section and the key have to be ones,
without blanks around the key. -/
theorem quoted_verbatim_iff (hkey : IsKey key) (hq : IsQuoted quote v)
    (hother : name ≠ ascii "devices" ∧ name ≠ ascii "serials") :
    TakenVerbatim name key quote v ↔ 0x23 ∉ v ∧ name ≠ [] ∧ key ≠ [] ∧ trim key = key :=
  ⟨fun h => (loadLine_quoted_iff hkey hq hother).mp h.line,
    fun h => used_of_line hkey hq ((loadLine_quoted_iff hkey hq hother).mpr h)⟩

end Verbatim

example : Verbatim (ascii "uploader.mqtt_password") := by
  unfold Verbatim
  decide +kernel

theorem quoted_verbatim_once :
    TakenVerbatim (ascii "uploader") (ascii "mqtt_password") 0x22 (ascii " a: 'b' - c:") :=
  (quoted_verbatim_iff
    ⟨by decide +kernel, by decide +kernel, by decide +kernel, by decide +kernel⟩
    ⟨Or.inl rfl, by decide +kernel, by decide +kernel⟩
    ⟨by decide +kernel, by decide +kernel⟩).mpr
    ⟨by decide +kernel, by decide +kernel, by decide +kernel, by decide +kernel⟩

/-- What stands behind a `#` in a password is lost. -/
theorem quoted_cut : ¬ ∀ (name key : Text) (quote : UInt8) (v : Text), IsKey key → IsQuoted quote v →
    name ≠ ascii "devices" ∧ name ≠ ascii "serials" → name ≠ [] → key ≠ [] → trim key = key →
    TakenVerbatim name key quote v := by
  intro h
  have hkey : IsKey (ascii "mqtt_password") :=
    ⟨by decide +kernel, by decide +kernel, by decide +kernel, by decide +kernel⟩
  have hq : IsQuoted 0x22 (ascii "pa#ss") := ⟨Or.inl rfl, by decide +kernel, by decide +kernel⟩
  have hother : ascii "uploader" ≠ ascii "devices" ∧ ascii "uploader" ≠ ascii "serials" :=
    ⟨by decide +kernel, by decide +kernel⟩
  have htaken := h _ _ _ _ hkey hq hother (by decide +kernel) (by decide +kernel) (by decide +kernel)
  exact ((loadLine_quoted_iff hkey hq hother).mp htaken.line).1 (by decide +kernel)

end EdgeLink.Config
