import EdgeLink.Ingress
import EdgeLink.ReportCache

namespace EdgeLink.Ingress
open Machine Gateway

/-- Would the uploader pass it on now? -/
def State.passes (s : State) (data : SensorData) : Bool :=
  match s.config.resolve data with
  | none => false
  | some data => s.transports.shouldAcceptTransportData data.deviceId data.linkType

/-- The thread has something to push and is not held up. -/
def State.canPush (s : State) (p : Producer) : Prop :=
  s.hand p ≠ none ∧ s.dataQueue.length < s.config.queueCapacity

def stateAt (config : Config) (es : ℕ → Event) : ℕ → State := trace State.step (boot config) es

def outputAt (config : Config) (es : ℕ → Event) (n : ℕ) : Option Output :=
  ((stateAt config es n).step (es n)).2

/-- Nothing is stopped: the uploader goes on, and a thread that is let through again and again gets
through. -/
structure Fair (config : Config) (es : ℕ → Event) : Prop where
  uploads : ∀ n, ∃ m, n ≤ m ∧ es m = .upload
  pushes : ∀ p, StrongFair (fun m => (stateAt config es m).canPush p)
    (fun m => es m = .push p ∧ (stateAt config es m).canPush p)

section Step
variable {s : State} {e : Event} {p : Producer} {item : ℕ × SensorData}

theorem clearLast_eq (s : State) (last_device : Option UInt8) :
    ∃ t, s.clearLast last_device = { s with transports := t } := by
  cases last_device with
  | none => exact ⟨s.transports, rfl⟩
  | some d => exact ⟨s.transports.clearActiveTransport d, rfl⟩

theorem receive_frame (s : State) (p : Producer) (data : SensorData) (last_device : Option UInt8) :
    (s.receive p data last_device).1.config = s.config ∧
      (s.receive p data last_device).1.dataQueue = s.dataQueue ∧
      (s.receive p data last_device).1.uploading = s.uploading ∧
      ∀ p', p' ≠ p → (s.receive p data last_device).1.hand p' = s.hand p' := by
  cases p with
  | serial =>
    simp only [State.receive, State.parserItem]
    split
    · exact ⟨rfl, rfl, rfl, fun _ _ => rfl⟩
    · exact ⟨rfl, rfl, rfl, fun p' hp => Function.update_of_ne hp ..⟩
  | tcp =>
    simp only [State.receive, State.tcpBinaryItem]
    split_ifs
    · exact ⟨rfl, rfl, rfl, fun _ _ => rfl⟩
    · exact ⟨rfl, rfl, rfl, fun _ _ => rfl⟩
    · exact ⟨rfl, rfl, rfl, fun p' hp => Function.update_of_ne hp ..⟩
  | wifi =>
    simp only [State.receive, State.wifiItem]
    split
    · exact ⟨rfl, rfl, rfl, fun _ _ => rfl⟩
    · exact ⟨rfl, rfl, rfl, fun p' hp => Function.update_of_ne hp ..⟩
  | mqtt => exact ⟨rfl, rfl, rfl, fun p' hp => Function.update_of_ne hp ..⟩

theorem push_eq (s : State) (p : Producer) : s.push p = s ∨ ∃ item, s.hand p = some item ∧
    s.dataQueue.length < s.config.queueCapacity ∧ s.push p =
      { s with dataQueue := s.dataQueue ++ [item], hand := Function.update s.hand p none } := by
  unfold State.push
  cases hp : s.hand p with
  | none => exact Or.inl rfl
  | some item =>
    by_cases hroom : s.dataQueue.length < s.config.queueCapacity
    · exact Or.inr ⟨item, rfl, hroom, if_pos hroom⟩
    · exact Or.inl (if_neg hroom)

/-- How many steps `uploaderLoop` is at most from its next item. -/
def Uploading.left : Uploading → ℕ
  | .idle => 0
  | .bound _ => 1
  | .accepted _ => 2
  | .popped _ => 3

theorem uploaderStep_idle (h : s.uploading = .idle) : (s.dataQueue = [] ∧ s.uploaderStep = (s, none)) ∨
    ∃ item rest, s.dataQueue = item :: rest ∧
      s.uploaderStep = ({ s with dataQueue := rest, uploading := .popped item }, none) := by
  unfold State.uploaderStep
  rw [h]
  cases hq : s.dataQueue with
  | nil => exact Or.inl ⟨rfl, rfl⟩
  | cons item rest => exact Or.inr ⟨item, rest, rfl, rfl⟩

theorem uploaderStep_popped (h : s.uploading = .popped item) : ∃ u, u.left < 3 ∧
    s.uploaderStep = ({ s with uploading := u }, some (.taken item (s.passes item.2))) := by
  unfold State.uploaderStep State.passes
  rw [h]
  dsimp only
  cases s.config.resolve item.2 with
  | none => exact ⟨.idle, by decide, rfl⟩
  | some data =>
    dsimp only
    cases hacc : s.transports.shouldAcceptTransportData data.deviceId data.linkType with
    | true => exact ⟨.accepted data, Nat.lt_succ_self 2, rfl⟩
    | false => exact ⟨.idle, by decide, rfl⟩

/-- With an item in hand the uploader leaves queue and threads alone, and comes closer to the next. -/
theorem uploaderStep_busy (h : s.uploading ≠ .idle) : ∃ u t o, u.left < s.uploading.left ∧
    s.uploaderStep = ({ s with uploading := u, transports := t }, o) ∧ ∀ item, o ≠ some (.acked item) := by
  cases hu : s.uploading with
  | idle => exact absurd hu h
  | popped item =>
    obtain ⟨u, hleft, he⟩ := uploaderStep_popped hu
    exact ⟨u, s.transports, _, hleft, he, fun _ h => by cases h⟩
  | accepted data =>
    refine ⟨.bound data, s.transports.bindActiveTransport data.deviceId data.linkType, none,
      Nat.lt_succ_self 1, ?_, fun _ h => by cases h⟩
    unfold State.uploaderStep
    rw [hu]
    rfl
  | bound data =>
    refine ⟨.idle, s.transports, none, Nat.zero_lt_one, ?_, fun _ h => by cases h⟩
    unfold State.uploaderStep
    rw [hu]

theorem uploaderStep_cases (s : State) : s.uploaderStep = (s, none) ∨
    (∃ item rest, s.dataQueue = item :: rest ∧
      s.uploaderStep = ({ s with dataQueue := rest, uploading := .popped item }, none)) ∨
    ∃ u t o, s.uploaderStep = ({ s with uploading := u, transports := t }, o) ∧
      ∀ item, o ≠ some (.acked item) := by
  by_cases hidle : s.uploading = .idle
  · rcases uploaderStep_idle hidle with ⟨-, he⟩ | hpop
    · exact Or.inl he
    · exact Or.inr (Or.inl hpop)
  · obtain ⟨u, t, o, -, he, hno⟩ := uploaderStep_busy hidle
    exact Or.inr (Or.inr ⟨u, t, o, he, hno⟩)

/-- The rest leaves queue and threads alone. -/
theorem step_cases (s : State) (e : Event) :
    (∃ p data last_device, e = .receive p data last_device ∧ s.hand p = none ∧
      s.step e = s.receive p data last_device) ∨ (∃ p, e = .push p) ∨ e = .upload ∨
    ((s.step e).1.config = s.config ∧ (s.step e).1.dataQueue = s.dataQueue ∧
      (s.step e).1.hand = s.hand ∧ (s.step e).1.uploading = s.uploading ∧ (s.step e).2 = none) := by
  cases e with
  | receive p data last_device =>
    cases hp : s.hand p with
    | none => exact Or.inl ⟨p, data, last_device, rfl, hp, by simp [State.step, hp]⟩
    | some item => exact Or.inr (Or.inr (Or.inr (by simp [State.step, hp])))
  | push p => exact Or.inr (Or.inl ⟨p, rfl⟩)
  | upload => exact Or.inr (Or.inr (Or.inl rfl))
  | tcpTimeout last_device lost =>
    obtain ⟨t, ht⟩ := clearLast_eq s last_device
    refine Or.inr (Or.inr (Or.inr ?_))
    by_cases hskip : s.skipReclaim last_device <;> simp [State.step, ht, hskip]
  | tcpDisconnect last_device lost =>
    obtain ⟨t, ht⟩ := clearLast_eq s last_device
    exact Or.inr (Or.inr (Or.inr (by simp [State.step, ht])))
  | mqttSeen | wifiDisconnect | mqttOffline | brokerDisconnect | otaLock | otaUnlock | otaMute
  | otaUnmute => exact Or.inr (Or.inr (Or.inr ⟨rfl, rfl, rfl, rfl, rfl⟩))

theorem step_config (s : State) (e : Event) : (s.step e).1.config = s.config := by
  rcases step_cases s e with ⟨p, data, last_device, -, -, he⟩ | ⟨p, rfl⟩ | rfl | ⟨hc, -⟩
  · rw [he]
    exact (receive_frame s p data last_device).1
  · rcases push_eq s p with he | ⟨item, -, -, he⟩ <;> simp only [State.step, he]
  · rcases uploaderStep_cases s with he | ⟨item, rest, -, he⟩ | ⟨u, t, o, he, -⟩ <;>
      simp only [State.step, he]
  · exact hc

/-- A thread keeps what it has until it can push it. -/
theorem step_hand (h : s.hand p = some item) (hno : ¬ (e = .push p ∧ s.canPush p)) :
    (s.step e).1.hand p = some item := by
  rcases step_cases s e with ⟨p', data, last_device, -, hp', he⟩ | ⟨p', rfl⟩ | rfl | ⟨-, -, hh, -⟩
  · have hne : p ≠ p' := by
      rintro rfl
      rw [h] at hp'
      cases hp'
    rw [he, (receive_frame s p' data last_device).2.2.2 p hne, h]
  · rcases push_eq s p' with he | ⟨item', hp', hroom, he⟩
    · simp only [State.step, he, h]
    · have hne : p ≠ p' := by
        rintro rfl
        exact hno ⟨rfl, by rw [h]; exact Option.some_ne_none item, hroom⟩
      simp only [State.step, he, Function.update_of_ne hne, h]
  · rcases uploaderStep_cases s with he | ⟨item', rest, -, he⟩ | ⟨u, t, o, he, -⟩ <;>
      simp only [State.step, he, h]
  · rw [hh, h]

theorem step_push (h : s.hand p = some item) (hcan : s.canPush p) :
    (s.step (.push p)).1.dataQueue[s.dataQueue.length]? = some item := by
  simp [State.step, State.push, h, hcan.2]

/-- The item that the uploader works on is its own. -/
theorem step_uploading (hno : e ≠ .upload) : (s.step e).1.uploading = s.uploading := by
  rcases step_cases s e with ⟨p', data, last_device, -, -, he⟩ | ⟨p', rfl⟩ | rfl | ⟨-, -, -, hu, -⟩
  · rw [he]
    exact (receive_frame s p' data last_device).2.2.1
  · rcases push_eq s p' with he | ⟨item', -, -, he⟩ <;> simp only [State.step, he]
  · exact absurd rfl hno
  · exact hu

/-- An item keeps its place until the uploader takes the next one. -/
theorem step_queue {k : ℕ} (h : s.dataQueue[k]? = some item)
    (hno : ¬ (e = .upload ∧ s.uploading = .idle)) : (s.step e).1.dataQueue[k]? = some item := by
  rcases step_cases s e with ⟨p', data, last_device, -, -, he⟩ | ⟨p', rfl⟩ | rfl | ⟨-, hq, -⟩
  · rw [he, (receive_frame s p' data last_device).2.1, h]
  · rcases push_eq s p' with he | ⟨item', -, -, he⟩
    · simp only [State.step, he, h]
    · simp only [State.step, he]
      rw [List.getElem?_append_left (List.getElem?_eq_some_iff.mp h).1, h]
  · obtain ⟨u, t, o, -, he, -⟩ := uploaderStep_busy fun hidle => hno ⟨rfl, hidle⟩
    simp only [State.step, he, h]
  · rw [hq, h]

theorem step_upload {k : ℕ} (hidle : s.uploading = .idle) (h : s.dataQueue[k + 1]? = some item) :
    (s.step .upload).1.dataQueue[k]? = some item := by
  rcases uploaderStep_idle hidle with ⟨hq, -⟩ | ⟨item', rest, hq, he⟩
  · rw [hq] at h
    cases h
  · rw [hq, List.getElem?_cons_succ] at h
    simp only [State.step, he, h]

theorem upload_first (hidle : s.uploading = .idle) (h : s.dataQueue[0]? = some item) :
    (s.step .upload).1.uploading = .popped item := by
  rcases uploaderStep_idle hidle with ⟨hq, -⟩ | ⟨item', rest, hq, he⟩
  · rw [hq] at h
    cases h
  · rw [hq, List.getElem?_cons_zero] at h
    cases h
    simp only [State.step, he]

theorem upload_popped (h : s.uploading = .popped item) :
    (s.step .upload).2 = some (.taken item (s.passes item.2)) := by
  obtain ⟨u, -, he⟩ := uploaderStep_popped h
  simp only [State.step, he]

theorem step_length (h : s.dataQueue.length ≤ s.config.queueCapacity) :
    (s.step e).1.dataQueue.length ≤ (s.step e).1.config.queueCapacity := by
  rw [step_config]
  rcases step_cases s e with ⟨p', data, last_device, -, -, he⟩ | ⟨p', rfl⟩ | rfl | ⟨-, hq, -⟩
  · rw [he, (receive_frame s p' data last_device).2.1]
    exact h
  · rcases push_eq s p' with he | ⟨item', -, hroom, he⟩
    · simp only [State.step, he, h]
    · simp only [State.step, he, List.length_append, List.length_singleton]
      exact hroom
  · rcases uploaderStep_cases s with he | ⟨item', rest, hq, he⟩ | ⟨u, t, o, he, -⟩
    · simp only [State.step, he, h]
    · rw [hq, List.length_cons] at h
      simp only [State.step, he]
      omega
    · simp only [State.step, he, h]
  · rw [hq]
    exact h

/-- When the uploader has taken an item there is room. -/
theorem upload_room (hidle : s.uploading = .idle) (h : s.dataQueue.length ≤ s.config.queueCapacity)
    (hcap : 0 < s.config.queueCapacity) :
    (s.step .upload).1.dataQueue.length < (s.step .upload).1.config.queueCapacity := by
  rw [step_config]
  rcases uploaderStep_idle hidle with ⟨hq, he⟩ | ⟨item', rest, hq, he⟩
  · simp only [State.step, he, hq]
    exact hcap
  · rw [hq, List.length_cons] at h
    simp only [State.step, he]
    omega

theorem take_acked {data : SensorData} (h : (s.take p data).2 = some (.acked item)) :
    (s.take p data).1.hand p = some item ∧ item.2 = data := by
  unfold State.take at h ⊢
  dsimp only at h ⊢
  split_ifs at h
  cases h
  exact ⟨Function.update_self .., rfl⟩

/-- Only what a thread has by now is acknowledged, and it came in over serial or TCP. -/
theorem acked_hand (h : (s.step e).2 = some (.acked item)) :
    ∃ p, (s.step e).1.hand p = some item ∧ item.2.linkType ≠ "" := by
  rcases step_cases s e with ⟨p, data, last_device, -, -, he⟩ | ⟨p, rfl⟩ | rfl | ⟨-, -, -, -, ho⟩
  · rw [he] at h ⊢
    refine ⟨p, ?_⟩
    cases p with
    | serial =>
      simp only [State.receive, State.parserItem] at h ⊢
      split_ifs at h ⊢
      obtain ⟨hhand, hdata⟩ := take_acked h
      exact ⟨hhand, by rw [hdata]; exact of_decide_eq_true rfl⟩
    | tcp =>
      simp only [State.receive, State.tcpBinaryItem] at h ⊢
      split_ifs at h ⊢
      obtain ⟨hhand, hdata⟩ := take_acked h
      exact ⟨hhand, by rw [hdata]; exact of_decide_eq_true rfl⟩
    | wifi =>
      simp only [State.receive, State.wifiItem] at h
      split_ifs at h
    | mqtt => cases h
  · cases h
  · rcases uploaderStep_cases s with hr | ⟨item', rest, -, hr⟩ | ⟨u, t, o, hr, hno⟩
    · simp [State.step, hr] at h
    · simp [State.step, hr] at h
    · simp only [State.step, hr] at h
      exact absurd h (hno item)
  · rw [ho] at h
    cases h

end Step

section Run
variable {config : Config} {es : ℕ → Event} {n : ℕ} {item : ℕ × SensorData}

theorem stateAt_succ (config : Config) (es : ℕ → Event) (n : ℕ) :
    stateAt config es (n + 1) = ((stateAt config es n).step (es n)).1 := rfl

theorem stateAt_config (config : Config) (es : ℕ → Event) (n : ℕ) :
    (stateAt config es n).config = config := by
  have hinv : (stateAt config es n).config = config :=
    @trace_invariant _ _ _ State.step (fun s => s.config = config)
      (fun s e hs => (step_config s e).trans hs) (boot config) rfl es n
  exact hinv

theorem stateAt_length (config : Config) (es : ℕ → Event) (n : ℕ) :
    (stateAt config es n).dataQueue.length ≤ (stateAt config es n).config.queueCapacity :=
  @trace_invariant _ _ _ State.step (fun s => s.dataQueue.length ≤ s.config.queueCapacity)
    (fun _ _ hs => step_length hs) (boot config) (Nat.zero_le _) es n

/-- The uploader comes to its next item. -/
theorem idle_again (hfair : Fair config es) (n : ℕ) :
    ∃ m, n ≤ m ∧ es m = .upload ∧ (stateAt config es m).uploading = .idle := by
  induction hleft : (stateAt config es n).uploading.left using Nat.strong_induction_on generalizing n with
  | _ left ih =>
    obtain ⟨m, hm, hup, hsame⟩ := @trace_until _ _ _ State.step (boot config) es
      (fun s => s.uploading = (stateAt config es n).uploading) (fun m => es m = .upload) n
      (fun k hk hno => (step_uploading hno).trans hk) (fun _ => hfair.uploads n) rfl
    change (stateAt config es m).uploading = _ at hsame
    by_cases hidle : (stateAt config es m).uploading = .idle
    · exact ⟨m, hm, hup, hidle⟩
    · obtain ⟨u, t, o, hless, he, -⟩ := uploaderStep_busy hidle
      have hnext : (stateAt config es (m + 1)).uploading = u := by
        rw [stateAt_succ, hup]
        simp only [State.step, he]
      rw [hsame, hleft] at hless
      obtain ⟨m', hm', hfound⟩ := ih u.left hless (m + 1) (by rw [hnext])
      exact ⟨m', by omega, hfound⟩

/-- It gets into the queue. -/
theorem pushed_of_hand (hcap : 0 < config.queueCapacity) (hfair : Fair config es) {p : Producer}
    (h : (stateAt config es n).hand p = some item) :
    ∃ m k : ℕ, n ≤ m ∧ (stateAt config es m).dataQueue[k]? = some item := by
  obtain ⟨m, hm, ⟨hpush, hcan⟩, hhand⟩ := @trace_until _ _ _ State.step (boot config) es
    (fun s => s.hand p = some item)
    (fun m => es m = .push p ∧ (stateAt config es m).canPush p) n
    (fun k hk hno => step_hand hk hno) (fun hforever => by
      apply hfair.pushes p
      intro n'
      -- when the uploader has taken its next item there is room
      obtain ⟨m, hm, hup, hidle⟩ := idle_again hfair (max n n')
      refine ⟨m + 1, by omega, ?_, ?_⟩
      · have hhand := hforever (m + 1) (by omega)
        unfold stateAt
        rw [hhand]
        exact Option.some_ne_none item
      · rw [stateAt_succ, hup]
        exact upload_room hidle (stateAt_length config es m) (by rw [stateAt_config]; exact hcap)) h
  refine ⟨m + 1, (stateAt config es m).dataQueue.length, by omega, ?_⟩
  rw [stateAt_succ, hpush]
  exact step_push hhand hcan

theorem taken_of_popped (hfair : Fair config es)
    (h : (stateAt config es n).uploading = .popped item) : ∃ m, n ≤ m ∧
      outputAt config es m = some (.taken item ((stateAt config es m).passes item.2)) := by
  obtain ⟨m, hm, hup, hpopped⟩ := @trace_until _ _ _ State.step (boot config) es
    (fun s => s.uploading = .popped item) (fun m => es m = .upload) n
    (fun k hk hno => (step_uploading hno).trans hk) (fun _ => hfair.uploads n) h
  refine ⟨m, hm, ?_⟩
  rw [outputAt, hup]
  exact upload_popped hpopped

/-- It keeps its place until `uploaderLoop` is about to take the first one. -/
theorem queued_until (hfair : Fair config es) {k : ℕ}
    (h : (stateAt config es n).dataQueue[k]? = some item) : ∃ m, n ≤ m ∧ es m = .upload ∧
      (stateAt config es m).uploading = .idle ∧ (stateAt config es m).dataQueue[k]? = some item := by
  obtain ⟨m, hm, ⟨hup, hidle⟩, hq⟩ := @trace_until _ _ _ State.step (boot config) es
    (fun s => s.dataQueue[k]? = some item)
    (fun m => es m = .upload ∧ (stateAt config es m).uploading = .idle) n
    (fun k hk hno => step_queue hk hno) (fun _ => idle_again hfair n) h
  exact ⟨m, hm, hup, hidle, hq⟩

/-- And it is taken from there. -/
theorem taken_of_queued (hfair : Fair config es) {k : ℕ}
    (h : (stateAt config es n).dataQueue[k]? = some item) : ∃ m, n ≤ m ∧
      outputAt config es m = some (.taken item ((stateAt config es m).passes item.2)) := by
  -- each item before it is one turn of the uploader
  induction k generalizing n with
  | zero =>
    obtain ⟨m, hm, hup, hidle, hq⟩ := queued_until hfair h
    have hpopped : (stateAt config es (m + 1)).uploading = .popped item := by
      rw [stateAt_succ, hup]
      exact upload_first hidle hq
    obtain ⟨m', hm', htaken⟩ := taken_of_popped hfair hpopped
    exact ⟨m', by omega, htaken⟩
  | succ k ih =>
    obtain ⟨m, hm, hup, hidle, hq⟩ := queued_until hfair h
    have hnext : (stateAt config es (m + 1)).dataQueue[k]? = some item := by
      rw [stateAt_succ, hup]
      exact step_upload hidle hq
    obtain ⟨m', hm', htaken⟩ := ih hnext
    exact ⟨m', by omega, htaken⟩

theorem resolve_enabled {data : SensorData} {d : DeviceConfig} (hlink : data.linkType ≠ "")
    (hd : config.deviceMap data.deviceId = some d) (hen : d.enabled = true) :
    ∃ data', config.resolve data = some data' ∧ data'.deviceId = data.deviceId ∧
      data'.linkType = data.linkType := by
  refine ⟨{ data with deviceName := d.name, topicSuffix := d.topicSuffix }, ?_, rfl, rfl⟩
  simp [Config.resolve, hd, hen, hlink]

/-- An acknowledged report of an enabled device comes to the uploader, which passes it on exactly if
its transport is accepted at that time. -/
theorem taken_of_acked (hcap : 0 < config.queueCapacity) (hfair : Fair config es)
    (h : outputAt config es n = some (.acked item)) {d : DeviceConfig}
    (hd : config.deviceMap item.2.deviceId = some d) (hen : d.enabled = true) :
    ∃ m, n < m ∧ outputAt config es m = some (.taken item
      ((stateAt config es m).transports.shouldAcceptTransportData item.2.deviceId
        item.2.linkType)) := by
  obtain ⟨p, hhand, hlink⟩ := acked_hand h
  rw [← stateAt_succ] at hhand
  obtain ⟨m, k, hm, hq⟩ := pushed_of_hand hcap hfair hhand
  obtain ⟨m', hm', htaken⟩ := taken_of_queued hfair hq
  obtain ⟨data, hres, hdev, hdlink⟩ := resolve_enabled hlink hd hen
  refine ⟨m', by omega, ?_⟩
  rw [htaken, State.passes, stateAt_config, hres]
  dsimp only
  rw [hdev, hdlink]

end Run

end EdgeLink.Ingress

namespace EdgeLink.Report
open LittleEndian Nor Storage Gateway Machine

/-- The acknowledgement with this number comes. -/
def Answered (w : World) (e : Event) (report_seq : UInt32) : Prop :=
  ∃ i ack payload, e = .ackArrives i ∧ w.acks[i]? = some ack ∧ payload ∈ reportAcks ack.bytes ∧
    read32 payload 1 = report_seq

def Event.restarts : Event → Bool
  | .reboot => true
  | .writeCache _ life | .writeEvent _ _ _ life => life.isSome
  | _ => false

/-- The time at which the slots are scanned. -/
def Event.scansAt : Event → Option UInt32
  | .sendSensorData _ now_ms _ | .pendingScanTimeout now_ms => some now_ms
  | _ => none

/-- An abnormal report is handed to the storage task when the cache is empty, if it takes more. -/
def Taken (t t' : GwTask) (frame : Bytes) : Prop :=
  gwSensorFrameIsAbnormal frame = true → t.storage.cacheBacklog = 0 →
    frame ∈ t'.cacheQueue ∨ STORAGE_TASK_QUEUE_LEN ≤ t'.waiting

/-- Any other report is dropped. -/
structure Handed (t t' : GwTask) (frame : Bytes) : Prop where
  taken : Taken t t' frame
  dropped : gwSensorFrameIsAbnormal frame = false ∨ t.storage.cacheBacklog ≠ 0 ∨
      STORAGE_TASK_QUEUE_LEN ≤ t.waiting →
    t'.cacheQueue.count frame = t.cacheQueue.count frame

/-- A live report stays in its slot until it is answered or its time is up; then, or when it is not
sent or finds no slot, it is in no slot any more, and handed on or dropped. -/
structure KeepsUnacked (w : World) (e : Event) : Prop where
  waits : ∀ i slot, w.task.pending i = some slot → slot.fromReplay = false →
    (w.step e).1.task.pending i = some slot ∨ Answered w e slot.reportSeq ∨ e.restarts = true ∨
      ∃ now_ms ∈ e.scansAt, GW_REPORT_ACK_TIMEOUT_MS < now_ms - slot.sentMs ∧
        (w.step e).1.task.pending i ≠ some slot ∧ Handed w.task (w.step e).1.task slot.frame
  sent : ∀ state now_ms uart, e = .sendSensorData state now_ms uart →
    (∃ i slot, (w.step e).1.task.pending i = some slot ∧ slot.fromReplay = false ∧
      slot.frame = sensorFrame state (w.task.reportSeq + 1)) ∨
    (∀ i slot, (w.step e).1.task.pending i = some slot → w.task.pending i = some slot) ∧
      Handed w.task (w.step e).1.task (sensorFrame state (w.task.reportSeq + 1))

/-- No frame is too long for the cache. -/
def Short (t : GwTask) : Prop :=
  ∀ i slot, t.pending i = some slot → slot.frame.length ≤ STORAGE_MAX_PAYLOAD_LEN

/-- What joins the queue are abnormal reports, while the cache is empty and there is room. -/
structure Hands (t t' : GwTask) (added : List Bytes) : Prop where
  queue : t'.cacheQueue = t.cacheQueue ++ added
  texts : t'.texts = t.texts
  backlog : t'.storage.cacheBacklog = t.storage.cacheBacklog
  abnormal : ∀ frame ∈ added, gwSensorFrameIsAbnormal frame = true
  room : added ≠ [] → t.storage.cacheBacklog = 0 ∧ t.waiting < STORAGE_TASK_QUEUE_LEN

section Device
variable {t t' t'' : GwTask} {frame : Bytes} {added added' : List Bytes}

theorem Hands.nothing (hqueue : t'.cacheQueue = t.cacheQueue) (htexts : t'.texts = t.texts)
    (hstorage : t'.storage = t.storage) : Hands t t' [] :=
  ⟨by rw [hqueue, List.append_nil], htexts, by rw [hstorage],
    fun _ hmem => absurd hmem List.not_mem_nil, fun hne => absurd rfl hne⟩

theorem Hands.waiting (h : Hands t t' added) : t'.waiting = t.waiting + added.length := by
  unfold GwTask.waiting
  rw [h.queue, h.texts, List.length_append]
  omega

theorem Hands.trans (h : Hands t t' added) (h' : Hands t' t'' added') :
    Hands t t'' (added ++ added') := by
  refine ⟨by rw [h'.queue, h.queue, List.append_assoc], h'.texts.trans h.texts,
    h'.backlog.trans h.backlog, List.forall_mem_append.mpr ⟨h.abnormal, h'.abnormal⟩, fun hne => ?_⟩
  cases added with
  | nil =>
    have hroom := h'.room hne
    rw [h.backlog, h.waiting, List.length_nil] at hroom
    exact hroom
  | cons frame rest => exact h.room (List.cons_ne_nil frame rest)

theorem Hands.longer (h : Hands t t' added) : t.cacheQueue <+: t'.cacheQueue := by
  rw [h.queue]
  exact List.prefix_append _ _

/-- What is not abnormal, or finds records in the cache or the queue full, does not join it. -/
theorem Hands.dropped (h : Hands t t' added)
    (hno : gwSensorFrameIsAbnormal frame = false ∨ t.storage.cacheBacklog ≠ 0 ∨
      STORAGE_TASK_QUEUE_LEN ≤ t.waiting) :
    t'.cacheQueue.count frame = t.cacheQueue.count frame := by
  have hout : frame ∉ added := by
    intro hmem
    obtain ⟨hempty, hroom⟩ := h.room (List.ne_nil_of_mem hmem)
    rcases hno with hmild | hbacklog | hfull
    · rw [h.abnormal frame hmem] at hmild
      cases hmild
    · exact hbacklog hempty
    · exact absurd hroom (Nat.not_lt.mpr hfull)
  rw [h.queue, List.count_append, List.count_eq_zero_of_not_mem hout, Nat.add_zero]

theorem Taken.mono (h : Taken t t' frame) (hands : Hands t' t'' added) : Taken t t'' frame := by
  intro habnormal hempty
  rcases h habnormal hempty with hmem | hfull
  · exact Or.inl (hands.longer.subset hmem)
  · refine Or.inr (hfull.trans ?_)
    rw [hands.waiting]
    exact Nat.le_add_right _ _

theorem tryCache_hands (t : GwTask) (frame : Bytes) :
    ∃ added, Hands t (gwTryCacheAbnormalSnapshot t frame) added := by
  unfold gwTryCacheAbnormalSnapshot storageWriteCache
  by_cases habnormal : gwSensorFrameIsAbnormal frame = true
  · rw [if_neg (not_not.mpr habnormal)]
    split_ifs with hbacklog hno
    · exact ⟨[], Hands.nothing rfl rfl rfl⟩
    · exact ⟨[], Hands.nothing rfl rfl rfl⟩
    · rw [not_or, not_or] at hno
      refine ⟨[frame], rfl, rfl, rfl, fun frame' hmem => ?_, fun _ =>
        ⟨not_not.mp hbacklog, Nat.not_le.mp hno.2.2⟩⟩
      rw [List.mem_singleton.mp hmem]
      exact habnormal
  · rw [if_pos habnormal]
    exact ⟨[], Hands.nothing rfl rfl rfl⟩

theorem tryCache_taken (t : GwTask) (hlen : frame.length ≤ STORAGE_MAX_PAYLOAD_LEN) :
    Taken t (gwTryCacheAbnormalSnapshot t frame) frame := by
  intro habnormal hempty
  unfold gwTryCacheAbnormalSnapshot storageWriteCache
  rw [if_neg (not_not.mpr habnormal), if_neg (not_not.mpr hempty)]
  split_ifs with hno
  · rcases hno with hnil | hlong | hfull
    · rw [hnil] at habnormal
      exact absurd habnormal (by decide)
    · exact absurd hlen (Nat.not_le.mpr hlong)
    · exact Or.inr hfull
  · exact Or.inl (List.mem_append_right _ List.mem_cons_self)

theorem scanSlot_hands (now_ms : UInt32) (t : GwTask) (i : Fin GW_PENDING_QUEUE_SIZE) :
    ∃ added, Hands t (gwPendingScanSlot now_ms t i) added := by
  unfold gwPendingScanSlot gwPendingHandleTimeout
  split
  · exact ⟨[], Hands.nothing rfl rfl rfl⟩
  · rename_i slot _
    split_ifs
    · exact ⟨[], Hands.nothing rfl rfl rfl⟩
    · obtain ⟨added, h⟩ := tryCache_hands t slot.frame
      exact ⟨added, h.queue, h.texts, h.backlog, h.abnormal, h.room⟩
    · exact ⟨[], Hands.nothing rfl rfl rfl⟩

theorem scanSlots_hands (now_ms : UInt32) (t : GwTask) (is : List (Fin GW_PENDING_QUEUE_SIZE)) :
    ∃ added, Hands t (is.foldl (gwPendingScanSlot now_ms) t) added := by
  induction is generalizing t with
  | nil => exact ⟨[], Hands.nothing rfl rfl rfl⟩
  | cons i is ih =>
    obtain ⟨first, hfirst⟩ := scanSlot_hands now_ms t i
    obtain ⟨rest, hrest⟩ := ih (gwPendingScanSlot now_ms t i)
    exact ⟨first ++ rest, hfirst.trans hrest⟩

theorem scanSlot_taken {now_ms : UInt32} {i : Fin GW_PENDING_QUEUE_SIZE} {slot : PendingReport}
    (hslot : t.pending i = some slot) (hlive : slot.fromReplay = false)
    (hlate : GW_REPORT_ACK_TIMEOUT_MS < now_ms - slot.sentMs)
    (hlen : slot.frame.length ≤ STORAGE_MAX_PAYLOAD_LEN) :
    Taken t (gwPendingScanSlot now_ms t i) slot.frame := by
  unfold gwPendingScanSlot
  rw [hslot]
  dsimp only
  rw [if_pos hlate]
  unfold gwPendingHandleTimeout
  rw [hlive, if_neg Bool.false_ne_true]
  exact tryCache_taken t hlen

/-- Every live report whose time is up is handed on, in whatever slot. -/
theorem scanSlots_taken {now_ms : UInt32} {j : Fin GW_PENDING_QUEUE_SIZE} {slot : PendingReport}
    {is : List (Fin GW_PENDING_QUEUE_SIZE)} (hj : j ∈ is) (hslot : t.pending j = some slot)
    (hlive : slot.fromReplay = false) (hlate : GW_REPORT_ACK_TIMEOUT_MS < now_ms - slot.sentMs)
    (hlen : slot.frame.length ≤ STORAGE_MAX_PAYLOAD_LEN) :
    Taken t (is.foldl (gwPendingScanSlot now_ms) t) slot.frame := by
  induction is generalizing t with
  | nil => cases hj
  | cons i is ih =>
    rw [List.foldl_cons]
    by_cases hji : j = i
    · subst hji
      obtain ⟨added, hands⟩ := scanSlots_hands now_ms (gwPendingScanSlot now_ms t j) is
      exact (scanSlot_taken hslot hlive hlate hlen).mono hands
    · have hkeep : (gwPendingScanSlot now_ms t i).pending j = some slot := by
        rw [scanSlot_pending, if_neg fun h => hji h.1, hslot]
      have hrest := ih ((List.mem_cons.mp hj).resolve_left hji) hkeep
      intro habnormal hempty
      exact hrest habnormal (by rw [scanSlot_storage]; exact hempty)

theorem scanTimeout_keeps (now_ms : UInt32) {i : Fin GW_PENDING_QUEUE_SIZE} {slot : PendingReport}
    (hslot : t.pending i = some slot) (hlive : slot.fromReplay = false)
    (hlen : slot.frame.length ≤ STORAGE_MAX_PAYLOAD_LEN) :
    (gwPendingScanTimeout t now_ms).pending i = some slot ∨
      GW_REPORT_ACK_TIMEOUT_MS < now_ms - slot.sentMs ∧
        (gwPendingScanTimeout t now_ms).pending i = none ∧
        Taken t (gwPendingScanTimeout t now_ms) slot.frame := by
  rw [scanTimeout_pending, hslot]
  by_cases hlate : GW_REPORT_ACK_TIMEOUT_MS < now_ms - slot.sentMs
  · exact Or.inr ⟨hlate, if_pos (by simpa [vacant] using hlate),
      scanSlots_taken (List.mem_finRange i) hslot hlive hlate hlen⟩
  · exact Or.inl (if_neg (by simpa [vacant] using hlate))

/-- A report that is entered takes a free slot. -/
theorem enqueue_keeps {p p' : PendingReports} {new : PendingReport}
    (h : gwPendingEnqueue p new = some p') : new.frame.length ≤ GW_TX_FRAME_MAX_SIZE ∧
      (∃ i, p' i = some new) ∧ ∀ i slot, p i = some slot → p' i = some slot := by
  unfold gwPendingEnqueue at h
  cases halloc : gwPendingAllocSlot p with
  | none =>
    rw [halloc] at h
    cases h
  | some j =>
    rw [halloc] at h
    dsimp only at h
    split_ifs at h with hbad
    obtain rfl := Option.some.inj h
    refine ⟨Nat.not_lt.mp fun hlong => hbad (Or.inr hlong), ⟨j, Function.update_self ..⟩,
      fun i slot hslot => ?_⟩
    have hij : i ≠ j := by
      rintro rfl
      rw [(alloc_eq_some.mp halloc).1] at hslot
      cases hslot
    rw [Function.update_of_ne hij, hslot]

theorem replayRounds_keeps (now_ms : UInt32) (uart : Bool) (n : ℕ) (t : GwTask) (sent : List Bytes)
    {i : Fin GW_PENDING_QUEUE_SIZE} {slot : PendingReport} (h : t.pending i = some slot) :
    (replayRounds now_ms uart n t sent).1.pending i = some slot := by
  induction n generalizing t sent with
  | zero => exact h
  | succ n ih =>
    unfold replayRounds
    split
    · exact h
    · split
      · exact h
      · dsimp only
        split
        · exact h
        · split
          · exact ih _ _ h
          · split
            · exact h
            · split
              · exact h
              · rename_i henter
                exact ih _ _ ((enqueue_keeps henter).2.2 i slot h)

theorem tryReplayCache_keeps (t : GwTask) (now_ms : UInt32) (uart : Bool)
    {i : Fin GW_PENDING_QUEUE_SIZE} {slot : PendingReport} (h : t.pending i = some slot) :
    (gwTryReplayCache t now_ms uart).1.pending i = some slot := by
  unfold gwTryReplayCache
  split_ifs
  · exact h
  · exact h
  · exact replayRounds_keeps now_ms uart _ _ _ h

theorem processReportAck_keeps (t : GwTask) (payload : Bytes) {i : Fin GW_PENDING_QUEUE_SIZE}
    {slot : PendingReport} (h : t.pending i = some slot) :
    (gwProcessReportAck t payload).pending i = some slot ∨ read32 payload 1 = slot.reportSeq := by
  rcases processReportAck_cases t payload with hsame | ⟨j, slot', hlen, hfind, hslot', hseq, -⟩
  · rw [hsame]
    exact Or.inl h
  · rw [processReportAck_pending hlen hfind, Function.update_apply]
    by_cases hij : i = j
    · subst hij
      obtain rfl := Option.some.inj (h.symm.trans hslot')
      exact Or.inr hseq.symm
    · rw [if_neg hij]
      exact Or.inl h

theorem processReportAck_slot {payload : Bytes} {i : Fin GW_PENDING_QUEUE_SIZE}
    {slot : PendingReport} (h : (gwProcessReportAck t payload).pending i = some slot) :
    t.pending i = some slot := by
  rcases processReportAck_cases t payload with hsame | ⟨j, slot', hlen, hfind, -⟩
  · rwa [hsame] at h
  · rw [processReportAck_pending hlen hfind, Function.update_apply] at h
    split_ifs at h
    exact h

theorem receive_keeps {payloads : List Bytes} {i : Fin GW_PENDING_QUEUE_SIZE} {slot : PendingReport}
    (h : t.pending i = some slot) :
    (payloads.foldl gwProcessReportAck t).pending i = some slot ∨
      ∃ payload ∈ payloads, read32 payload 1 = slot.reportSeq := by
  induction payloads generalizing t with
  | nil => exact Or.inl h
  | cons payload payloads ih =>
    rw [List.foldl_cons]
    rcases processReportAck_keeps t payload h with hkeep | hseq
    · exact (ih hkeep).imp_right fun ⟨p, hp, hseq⟩ => ⟨p, List.mem_cons_of_mem _ hp, hseq⟩
    · exact Or.inr ⟨payload, List.mem_cons_self, hseq⟩

/-- Sending: the slots that stay, the new one, and what is handed on. -/
theorem sendSensorData_keeps (t : GwTask) (state : SmartHomeState) (now_ms : UInt32) (uart : Bool) :
    let scan := gwPendingScanTimeout { t with reportSeq := t.reportSeq + 1 } now_ms
    let t' := (gwSendSensorData t state now_ms uart).1
    (∃ added, Hands scan t' added) ∧
      (∀ i slot, scan.pending i = some slot → t'.pending i = some slot) ∧
      ((∃ i slot, t'.pending i = some slot ∧ slot.fromReplay = false ∧
          slot.frame = sensorFrame state (t.reportSeq + 1)) ∧
        (∀ i slot, t'.pending i = some slot → scan.pending i = some slot ∨ slot.sentMs = now_ms) ∨
        t'.pending = scan.pending ∧ Taken t t' (sensorFrame state (t.reportSeq + 1))) := by
  have hstorage := scanTimeout_storage { t with reportSeq := t.reportSeq + 1 } now_ms
  have hlen := sensorFrame_length state (t.reportSeq + 1)
  unfold gwSendSensorData
  dsimp only
  generalize sensorFrame state (t.reportSeq + 1) = frame at hlen
  generalize gwPendingScanTimeout { t with reportSeq := t.reportSeq + 1 } now_ms = scan at hstorage ⊢
  have htaken : Taken t (gwTryCacheAbnormalSnapshot scan frame) frame := by
    intro habnormal hempty
    refine tryCache_taken scan ?_ habnormal (by rw [hstorage]; exact hempty)
    rw [hlen]
    decide
  have hpending := gwTryCache_pending scan frame
  have hkeep : ∀ i slot, scan.pending i = some slot →
      (gwTryCacheAbnormalSnapshot scan frame).pending i = some slot :=
    fun i slot h => by rw [hpending]; exact h
  -- not sent or no slot: to the cache, as far as its policy goes
  cases uart with
  | false => exact ⟨tryCache_hands scan frame, hkeep, Or.inr ⟨hpending, htaken⟩⟩
  | true =>
    cases henter : gwPendingEnqueue scan.pending ⟨false, 0, t.reportSeq + 1, frame, now_ms⟩ with
    | none => exact ⟨tryCache_hands scan frame, hkeep, Or.inr ⟨hpending, htaken⟩⟩
    | some p =>
      obtain ⟨-, ⟨i, hi⟩, hstay⟩ := enqueue_keeps henter
      refine ⟨⟨[], Hands.nothing rfl rfl rfl⟩, hstay, Or.inl ⟨⟨i, _, hi, rfl, rfl⟩, ?_⟩⟩
      exact fun j slot hslot => (enqueue_slot henter hslot).imp_right fun h => by rw [h]

theorem restart_pending (t : GwTask) (life : Option ℕ) {i : Fin GW_PENDING_QUEUE_SIZE}
    {slot : PendingReport} (h : t.pending i = some slot) :
    (t.restart life).pending i = some slot ∨ life.isSome = true := by
  cases life with
  | none => exact Or.inl h
  | some k => exact Or.inr rfl

theorem sendSensorData_hands (t : GwTask) (state : SmartHomeState) (now_ms : UInt32) (uart : Bool) :
    ∃ added, Hands t (gwSendSensorData t state now_ms uart).1 added := by
  obtain ⟨first, hfirst⟩ := scanSlots_hands now_ms { t with reportSeq := t.reportSeq + 1 }
    (List.finRange GW_PENDING_QUEUE_SIZE)
  obtain ⟨⟨rest, hrest⟩, -⟩ := sendSensorData_keeps t state now_ms uart
  have hstart : Hands t { t with reportSeq := t.reportSeq + 1 } [] := Hands.nothing rfl rfl rfl
  exact ⟨_, (hstart.trans hfirst).trans hrest⟩

/-- A report whose time is up leaves its slot, and no other with the same time takes it. -/
theorem sendSensorData_late (t : GwTask) (state : SmartHomeState) {now_ms : UInt32} {uart : Bool}
    {i : Fin GW_PENDING_QUEUE_SIZE} {slot : PendingReport}
    (hgone : (gwPendingScanTimeout { t with reportSeq := t.reportSeq + 1 } now_ms).pending i = none)
    (hlate : GW_REPORT_ACK_TIMEOUT_MS < now_ms - slot.sentMs) :
    (gwSendSensorData t state now_ms uart).1.pending i ≠ some slot := by
  intro hslot
  rcases (sendSensorData_keeps t state now_ms uart).2.2 with ⟨-, hnew⟩ | ⟨hsame, -⟩
  · rcases hnew i slot hslot with hold | hnow
    · rw [hgone] at hold
      cases hold
    · rw [hnow, sub_self] at hlate
      exact absurd hlate (by decide)
  · rw [hsame, hgone] at hslot
    cases hslot

theorem step_keepsUnacked (w : World) (e : Event) (h : Short w.task) : KeepsUnacked w e := by
  refine ⟨fun i slot hslot hlive => ?_, fun state now_ms uart he => ?_⟩
  · have hlen := h i slot hslot
    cases e with
    | sendSensorData state now_ms uart =>
      -- the scan that comes first clears the late slots, the new report takes none that is used
      obtain ⟨⟨added, hands⟩, hkeep, -⟩ := sendSensorData_keeps w.task state now_ms uart
      rcases @scanTimeout_keeps { w.task with reportSeq := w.task.reportSeq + 1 } now_ms i slot hslot
        hlive hlen with hstay | ⟨hlate, hgone, htaken⟩
      · exact Or.inl (hkeep i slot hstay)
      · obtain ⟨all, hall⟩ := sendSensorData_hands w.task state now_ms uart
        exact Or.inr (Or.inr (Or.inr ⟨now_ms, rfl, hlate, sendSensorData_late _ _ hgone hlate,
          fun habnormal hempty => htaken.mono hands habnormal hempty, hall.dropped⟩))
    | tryReplayCache now_ms uart => exact Or.inl (tryReplayCache_keeps w.task now_ms uart hslot)
    | pendingScanTimeout now_ms =>
      rcases scanTimeout_keeps now_ms hslot hlive hlen with hstay | ⟨hlate, hgone, htaken⟩
      · exact Or.inl hstay
      · obtain ⟨added, hands⟩ := scanSlots_hands now_ms w.task (List.finRange GW_PENDING_QUEUE_SIZE)
        refine Or.inr (Or.inr (Or.inr ⟨now_ms, rfl, hlate, fun hstay => ?_, htaken, hands.dropped⟩))
        exact Option.some_ne_none slot (hstay.symm.trans hgone)
    | ackArrives k =>
      cases hack : w.acks[k]? with
      | none => exact Or.inl (by simp only [World.step, hack, hslot])
      | some ack =>
        rcases @receive_keeps w.task (reportAcks ack.bytes) i slot hslot with
          hstay | ⟨payload, hmem, hseq⟩
        · refine Or.inl ?_
          simp only [World.step, hack]
          exact hstay
        · exact Or.inr (Or.inl ⟨k, ack, payload, rfl, hack, hmem, hseq⟩)
    | ackLost k => exact Or.inl hslot
    | frameArrives k =>
      refine Or.inl ?_
      simp only [World.step]
      split <;> exact hslot
    | frameLost k => exact Or.inl hslot
    | writeCache tick_ms life =>
      have hsame : (w.task.writeCache tick_ms life).pending i = some slot := by
        unfold GwTask.writeCache
        split <;> exact hslot
      -- a write that is cut short is a restart
      exact (restart_pending _ life hsame).imp_right fun hr => Or.inr (Or.inl hr)
    | writeEvent rec_type payload tick_ms life =>
      have hsame : (w.task.writeEvent rec_type payload tick_ms life).pending i = some slot := hslot
      exact (restart_pending _ life hsame).imp_right fun hr => Or.inr (Or.inl hr)
    | queueTexts n => exact Or.inl hslot
    | reboot => exact Or.inr (Or.inr (Or.inl rfl))
  · subst he
    rcases (sendSensorData_keeps w.task state now_ms uart).2.2 with ⟨hentered, -⟩ | ⟨hsame, htaken⟩
    · exact Or.inl hentered
    · obtain ⟨added, hands⟩ := sendSensorData_hands w.task state now_ms uart
      refine Or.inr ⟨fun i slot hslot => ?_, htaken, hands.dropped⟩
      change (gwSendSensorData w.task state now_ms uart).1.pending i = some slot at hslot
      rw [hsame] at hslot
      exact @scanTimeout_slot { w.task with reportSeq := w.task.reportSeq + 1 } now_ms i slot hslot

theorem replayRounds_short (now_ms : UInt32) (uart : Bool) (n : ℕ) (h : Short t) (sent : List Bytes) :
    Short (replayRounds now_ms uart n t sent).1 := by
  induction n generalizing t sent with
  | zero => exact h
  | succ n ih =>
    unfold replayRounds
    split
    · exact h
    · split
      · exact h
      · dsimp only
        split
        · exact h
        · split
          · refine ih ?_ _
            exact h
          · split
            · exact h
            · split
              · exact h
              · rename_i henter
                refine ih (fun i slot hslot => ?_) _
                rcases enqueue_slot henter hslot with hold | rfl
                · exact h i slot hold
                · exact (enqueue_keeps henter).1.trans (by decide)

/-- Slots are freed or filled with short frames. -/
theorem step_short (w : World) (e : Event) (h : Short w.task) : Short (w.step e).1.task := by
  have hfewer : ∀ t' : GwTask, (∀ i slot, t'.pending i = some slot → w.task.pending i = some slot) →
      Short t' := fun t' ht i slot hslot => h i slot (ht i slot hslot)
  have hboot : ∀ m, Short (taskBoot m) := fun m i slot hslot => by cases hslot
  have hrestart : ∀ (t' : GwTask) (life : Option ℕ), Short t' → Short (t'.restart life) := by
    intro t' life ht
    unfold GwTask.restart
    split_ifs
    · exact hboot _
    · exact ht
  cases e with
  | sendSensorData state now_ms uart =>
    intro i slot hslot
    have hlen := sensorFrame_length state (w.task.reportSeq + 1)
    change (gwSendSensorData w.task state now_ms uart).1.pending i = some slot at hslot
    unfold gwSendSensorData at hslot
    dsimp only at hslot
    -- a slot holds what it held before the scan, or the new frame
    have hscan : ∀ slot, (gwPendingScanTimeout { w.task with reportSeq := w.task.reportSeq + 1 }
        now_ms).pending i = some slot → slot.frame.length ≤ STORAGE_MAX_PAYLOAD_LEN := fun slot hs =>
      h i slot (@scanTimeout_slot { w.task with reportSeq := w.task.reportSeq + 1 } now_ms i slot hs)
    generalize sensorFrame state (w.task.reportSeq + 1) = frame at hlen hslot
    generalize gwPendingScanTimeout { w.task with reportSeq := w.task.reportSeq + 1 } now_ms = scan
      at hscan hslot
    split at hslot
    · exact hscan slot (by rw [gwTryCache_pending] at hslot; exact hslot)
    · split at hslot
      · exact hscan slot (by rw [gwTryCache_pending] at hslot; exact hslot)
      · rename_i henter
        rcases enqueue_slot henter hslot with hold | rfl
        · exact hscan slot hold
        · rw [hlen]
          decide
  | tryReplayCache now_ms uart =>
    change Short (gwTryReplayCache w.task now_ms uart).1
    unfold gwTryReplayCache
    split_ifs
    · exact h
    · exact h
    · exact @replayRounds_short { w.task with replayLastTryMs := now_ms } now_ms uart _ h []
  | pendingScanTimeout now_ms => exact hfewer _ fun i slot hslot => scanTimeout_slot hslot
  | ackArrives k =>
    simp only [World.step]
    split
    · exact h
    · rename_i ack _
      have hreceive : ∀ (payloads : List Bytes) (t' : GwTask), Short t' →
          Short (payloads.foldl gwProcessReportAck t') := by
        intro payloads
        induction payloads with
        | nil => exact fun _ ht => ht
        | cons payload payloads ih =>
          refine fun t' ht => ih _ fun i slot hslot => ht i slot ?_
          exact processReportAck_slot hslot
      exact hreceive _ _ h
  | ackLost k => exact h
  | frameArrives k =>
    simp only [World.step]
    split <;> exact h
  | frameLost k => exact h
  | writeCache tick_ms life =>
    refine hrestart _ life (hfewer _ fun i slot hslot => ?_)
    unfold GwTask.writeCache at hslot
    split at hslot <;> exact hslot
  | writeEvent rec_type payload tick_ms life => exact hrestart _ life h
  | queueTexts n => exact h
  | reboot => exact hboot _

/-- Over every run of the device. -/
theorem keeps_unacked (m : Mem) (es : List Event) :
    Always World.step KeepsUnacked (worldBoot m) es := by
  have hinv : Always World.step (fun _ _ => True) (worldBoot m) es :=
    Always.of_forall World.step (fun _ _ _ => trivial) _
  exact Always.of_invariant (fun w e hw _ => ⟨step_short w e hw, step_keepsUnacked w e hw⟩)
    (fun i slot hslot => by cases hslot) hinv

end Device

end EdgeLink.Report

namespace EdgeLink.Ingress
open Machine Gateway Nor Storage

/-- An acknowledged report of an enabled device comes to the uploader, which passes it on exactly if
its transport is accepted at that time. The device keeps a live report until it is answered or its time
is up, hands an abnormal one on to an empty cache, and drops any other. -/
theorem acked_reports_kept :
    (∀ (config : Config) (es : ℕ → Event), 0 < config.queueCapacity → Fair config es →
      ∀ n item, outputAt config es n = some (.acked item) →
      ∀ d, config.deviceMap item.2.deviceId = some d → d.enabled = true →
      ∃ m, n < m ∧ outputAt config es m = some (.taken item
        ((stateAt config es m).transports.shouldAcceptTransportData item.2.deviceId
          item.2.linkType))) ∧
    ∀ (m : Mem) (es : List Report.Event),
      Always Report.World.step Report.KeepsUnacked (Report.worldBoot m) es :=
  ⟨fun _ _ hcap hfair _ _ h _ hd hen => taken_of_acked hcap hfair h hd hen, Report.keeps_unacked⟩

def twoLinks : Config :=
  ⟨100, 8, fun d => if d = 1 then some ⟨true, "node", "/node", "serial"⟩ else none, true⟩

def twoReports : List Event :=
  [.receive .tcp { deviceId := 1, seq := 1 } none, .push .tcp, .upload, .upload, .upload, .upload,
    .receive .serial { deviceId := 1, seq := 2 } none, .push .serial, .upload, .upload]

def twoReportsRun (n : ℕ) : Event := twoReports.getD n .upload

def secondReport : ℕ × SensorData := (1, { deviceId := 1, seq := 2, linkType := "serial" })

theorem twoReports_idle (n : ℕ) :
    stateAt twoLinks twoReportsRun (10 + n) = stateAt twoLinks twoReportsRun 10 := by
  induction n with
  | zero => rfl
  | succ n ih =>
    have hup : twoReportsRun (10 + n) = .upload := List.getD_eq_default _ _ (Nat.le_add_right 10 n)
    have hidle : (stateAt twoLinks twoReportsRun 10).uploading = .idle := rfl
    have hempty : (stateAt twoLinks twoReportsRun 10).dataQueue = [] := by decide +kernel
    rw [← Nat.add_assoc, stateAt_succ, ih, hup]
    rcases uploaderStep_idle hidle with ⟨-, he⟩ | ⟨_, _, hq, -⟩
    · rw [State.step, he]
    · rw [hempty] at hq
      cases hq

theorem twoReports_fair : Fair twoLinks twoReportsRun := by
  refine ⟨fun n => ⟨10 + n, Nat.le_add_left n 10, List.getD_eq_default _ _ (Nat.le_add_right 10 n)⟩,
    fun p hoften => ?_⟩
  obtain ⟨m, hm, hhand, -⟩ := hoften 10
  obtain ⟨k, rfl⟩ := Nat.exists_eq_add_of_le hm
  rw [twoReports_idle] at hhand
  exact absurd (by cases p <;> decide +kernel) hhand

theorem acked_reports_kept_once : ∃ m, 6 < m ∧ outputAt twoLinks twoReportsRun m =
    some (.taken secondReport ((stateAt twoLinks twoReportsRun m).transports.shouldAcceptTransportData
      1 "serial")) :=
  acked_reports_kept.1 twoLinks twoReportsRun (by decide) twoReports_fair 6 secondReport
    (by decide +kernel) ⟨true, "node", "/node", "serial"⟩ rfl rfl

theorem twoReports_outputs (m : ℕ) :
    outputAt twoLinks twoReportsRun m ≠ some (.taken secondReport true) := by
  by_cases hm : m < 10
  · have hall : ∀ m < 10, outputAt twoLinks twoReportsRun m ≠ some (.taken secondReport true) := by
      decide +kernel
    exact hall m hm
  · obtain ⟨k, rfl⟩ := Nat.exists_eq_add_of_le (Nat.not_lt.mp hm)
    have hup : twoReportsRun (10 + k) = .upload := List.getD_eq_default _ _ (Nat.le_add_right 10 k)
    unfold outputAt
    rw [twoReports_idle, hup]
    decide +kernel

/-- The device keeps every live report until it is answered, in its slot or for the cache. -/
def KeepsAll (w : Report.World) (e : Report.Event) : Prop :=
  ∀ i slot, w.task.pending i = some slot → slot.fromReplay = false →
    (w.step e).1.task.pending i = some slot ∨ Report.Answered w e slot.reportSeq ∨
      slot.frame ∈ (w.step e).1.task.cacheQueue

theorem mild_dropped : ¬ KeepsAll ((Report.worldBoot erasedFlash).step
    (.sendSensorData Report.mildState 0 true)).1 (.pendingScanTimeout 5000) := by
  intro h
  rcases h 0 ⟨false, 0, 1, Report.mildFrame, 0⟩ (by decide +kernel) rfl with
    hstay | ⟨i, ack, payload, he, -⟩ | hqueued
  · exact absurd hstay (by decide +kernel)
  · cases he
  · exact absurd hqueued (by decide +kernel)

/-- The second report is acknowledged and dropped, as TCP counts for more; and a report that is not
acknowledged is dropped by the device, when nothing is wrong with it. -/
theorem acked_report_dropped :
    (¬ ∀ (config : Config) (es : ℕ → Event), 0 < config.queueCapacity → Fair config es →
      ∀ n item, outputAt config es n = some (.acked item) →
      ∀ d, config.deviceMap item.2.deviceId = some d → d.enabled = true →
      ∃ m, outputAt config es m = some (.taken item true)) ∧
    ¬ ∀ (m : Mem) (es : List Report.Event), Always Report.World.step KeepsAll (Report.worldBoot m) es := by
  refine ⟨fun h => ?_, fun h => ?_⟩
  · obtain ⟨m, hm⟩ := h twoLinks twoReportsRun (by decide) twoReports_fair 6 secondReport
      (by decide +kernel) ⟨true, "node", "/node", "serial"⟩ rfl rfl
    exact twoReports_outputs m hm
  · exact mild_dropped (h erasedFlash [.sendSensorData Report.mildState 0 true,
      .pendingScanTimeout 5000]).2.1

end EdgeLink.Ingress
