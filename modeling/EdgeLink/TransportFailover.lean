import EdgeLink.Ingress
import EdgeLink.Machine

namespace EdgeLink.Ingress
open Machine Gateway

/-- The links that an event takes away. -/
def State.Loses (s : State) (e : Event) (d : UInt8) (transport : String) : Prop :=
  match e with
  | .tcpTimeout last_device lost =>
    transport = "tcp_binary" ∧ lost d = true ∧ ¬ s.skipReclaim last_device
  | .tcpDisconnect _ lost => transport = "tcp_binary" ∧ lost d = true
  | .wifiDisconnect lost => transport = "wifi" ∧ lost d = true
  | .mqttOffline d' => transport = "mqtt" ∧ d' = d
  | .brokerDisconnect => transport = "mqtt"
  | _ => False

/-- Something has come in over the link. -/
def State.Brings (s : State) (e : Event) (d : UInt8) (transport : String) : Prop :=
  match e with
  | .receive p data _ => s.hand p = none ∧ data.deviceId = d ∧ p.linkType data = transport
  | .mqttSeen d' => d' = d ∧ transport = "mqtt"
  | _ => False

def Event.isDisconnect : Event → Bool
  | .tcpTimeout _ _ | .tcpDisconnect _ _ | .wifiDisconnect _ | .mqttOffline _ | .brokerDisconnect => true
  | _ => false

instance (o : Option (ℕ × SensorData)) : Decidable (o = none) :=
  match o with
  | none => isTrue rfl
  | some _ => isFalse nofun

instance (s : State) (e : Event) (d : UInt8) (transport : String) :
    Decidable (s.Loses e d transport) := by
  unfold State.Loses
  cases e <;> infer_instance

instance (s : State) (e : Event) (d : UInt8) (transport : String) :
    Decidable (s.Brings e d transport) := by
  unfold State.Brings
  cases e <;> infer_instance

/-- Which links are dead: lost, and nothing has come in over them since. -/
def observe (s : State) (dead : UInt8 → String → Bool) (e : Event) (_ : Option Output) :
    UInt8 → String → Bool :=
  fun d transport =>
    if s.Loses e d transport then true else if s.Brings e d transport then false else dead d transport

abbrev Watched := State × (UInt8 → String → Bool)

def linkStep : Watched → Event → Watched × Option Output := watched State.step observe

structure FailsOver (w : Watched) (e : Event) : Prop where
  /-- without an OTA lock, no dead transport is the active one -/
  dead : ∀ d transport, (linkStep w e).1.2 d transport = true →
    (linkStep w e).1.1.transports.lockedTransport d = none →
    (linkStep w e).1.1.transports.activeTransportFor d ≠ transport
  /-- and when the active one is lost, data of the others is accepted -/
  accepts : ∀ d transport, w.1.Loses e d transport →
    w.1.transports.activeTransport d = some transport →
    (linkStep w e).1.1.transports.lockedTransport d = none →
    ∀ other, other ≠ transport →
      (linkStep w e).1.1.transports.shouldAcceptTransportData d other = true
  /-- losing another link changes nothing -/
  others : e.isDisconnect = true → ∀ d,
    (∀ transport, w.1.transports.activeTransport d = some transport → ¬ w.1.Loses e d transport) →
    (linkStep w e).1.1.transports.activeTransport d = w.1.transports.activeTransport d

/-- A TCP session ends. -/
def Transports.TcpEnds (t : Transports) (last_device : Option UInt8) (lost : UInt8 → Bool) : Prop :=
  ∀ d, (t.lockedTransport d).isSome = true ∨
    ((t.activeTransport d = some "tcp_binary" ∧ lost d = true → last_device = some d) ∧
      (last_device = some d → t.activeTransport d = none ∨
        t.activeTransport d = some "tcp_binary" ∧ lost d = true))

/-- A TCP session ends with all devices whose active transport it is, and with no other; no active
Wi-Fi or broker link ends except by an offline report of its own device; no dead transport stays
active under an OTA lock until its end, and none comes back with an item that was still waiting, or
accepted and not yet bound. -/
def Orderly (w : Watched) (e : Event) : Prop :=
  match e with
  | .upload => ∀ data, w.1.uploading = .accepted data → w.2 data.deviceId data.linkType = true →
      w.1.transports.lockedTransport data.deviceId = none →
      w.1.transports.shouldAcceptTransportData data.deviceId data.linkType = false
  | .tcpTimeout last_device lost =>
    w.1.skipReclaim last_device ∨ w.1.transports.TcpEnds last_device lost
  | .tcpDisconnect last_device lost => w.1.transports.TcpEnds last_device lost
  | .wifiDisconnect lost => ∀ d, lost d = true → w.1.transports.activeTransport d = some "wifi" →
      (w.1.transports.lockedTransport d).isSome = true
  | .mqttOffline d => (w.1.transports.lockedTransport d).isSome = true ∨
      w.1.transports.activeTransport d = none ∨ w.1.transports.activeTransport d = some "mqtt"
  | .brokerDisconnect => ∀ d, w.1.transports.activeTransport d = some "mqtt" →
      (w.1.transports.lockedTransport d).isSome = true
  | .otaUnlock d => ∀ transport ∈ w.1.transports.activeTransport d, w.2 d transport = false
  | _ => True

namespace Transports
variable {t : Transports}

/-- The priority noted beside the active transport is its own. -/
def Ranked (t : Transports) : Prop :=
  ∀ d, t.activePriority d = (t.activeTransport d).map t.transportPriority

/-- What binding asks is what accepting asks. -/
theorem shouldAccept_iff (h : t.Ranked) (d : UInt8) (transport : String) :
    t.shouldAcceptTransportData d transport = true ↔ ¬ t.lockedOut d transport ∧
      ¬ ∃ active ∈ t.activePriority d, t.transportPriority transport < active := by
  unfold shouldAcceptTransportData
  rw [h d]
  by_cases hl : t.lockedOut d transport
  · simp [hl]
  · rw [if_neg hl]
    cases t.activeTransport d with
    | none => simp [hl]
    | some active =>
      simp only [hl, not_false_iff, true_and, Option.map_some, Option.mem_def, Option.some.injEq,
        exists_eq_left', decide_eq_true_eq]
      constructor
      · intro hn hlt
        refine hn ⟨hlt, ?_⟩
        rintro rfl
        exact lt_irrefl _ hlt
      · exact fun hn hlt => hn hlt.1

theorem bind_eq (h : t.Ranked) (d : UInt8) (transport : String) :
    t.bindActiveTransport d transport =
    if t.shouldAcceptTransportData d transport = true then
      { t with activeTransport := Function.update t.activeTransport d (some transport)
               activePriority := Function.update t.activePriority d
                 (some (t.transportPriority transport)) }
    else t := by
  unfold bindActiveTransport
  have hiff := shouldAccept_iff h d transport
  dsimp only
  by_cases hl : t.lockedOut d transport
  · rw [if_pos hl, if_neg (fun ha => (hiff.mp ha).1 hl)]
  · rw [if_neg hl]
    by_cases hp : ∃ active ∈ t.activePriority d, t.transportPriority transport < active
    · rw [if_pos hp, if_neg (fun ha => (hiff.mp ha).2 hp)]
    · rw [if_neg hp, if_pos (hiff.mpr ⟨hl, hp⟩)]

theorem bind_locked (d : UInt8) (transport : String) :
    (t.bindActiveTransport d transport).lockedTransport = t.lockedTransport := by
  unfold bindActiveTransport
  dsimp only
  split_ifs <;> rfl

theorem Ranked.bind (h : t.Ranked) (d : UInt8) (transport : String) :
    (t.bindActiveTransport d transport).Ranked := by
  rw [bind_eq h]
  split_ifs
  · intro d'
    by_cases hd : d' = d
    · subst hd
      simp only [Function.update_self, Option.map_some]
      rfl
    · simp only [Function.update_of_ne hd]
      exact h d'
  · exact h

theorem Ranked.clear (h : t.Ranked) (d : UInt8) : (t.clearActiveTransport d).Ranked := by
  unfold clearActiveTransport
  split_ifs
  · exact h
  · intro d'
    by_cases hd : d' = d
    · subst hd
      simp only [Function.update_self, Option.map_none]
    · simp only [Function.update_of_ne hd]
      exact h d'

theorem clear_locked (d : UInt8) :
    (t.clearActiveTransport d).lockedTransport = t.lockedTransport := by
  unfold clearActiveTransport
  split_ifs <;> rfl

theorem clear_active (d d' : UInt8) : (t.clearActiveTransport d).activeTransport d' =
    if d = d' ∧ t.lockedTransport d' = none then none else t.activeTransport d' := by
  unfold clearActiveTransport
  by_cases hd : d = d'
  · subst hd
    cases hl : t.lockedTransport d with
    | none => simp
    | some transport => simp
  · simp only [hd, false_and, if_false]
    split
    · rfl
    · exact Function.update_of_ne (Ne.symm hd) ..

theorem accepts_of_none {d : UInt8} {transport : String} (hl : t.lockedTransport d = none)
    (ha : t.activeTransport d = none) : t.shouldAcceptTransportData d transport = true := by
  unfold shouldAcceptTransportData lockedOut
  simp [hl, ha]

end Transports

/-- No dead transport is active, but under an OTA lock. -/
def Alive (t : Transports) (dead : UInt8 → String → Bool) : Prop :=
  ∀ d transport, dead d transport = true → t.lockedTransport d = none →
    t.activeTransport d ≠ some transport

structure Sound (w : Watched) : Prop where
  ranked : w.1.transports.Ranked
  alive : Alive w.1.transports w.2
  named : ∀ d transport, w.2 d transport = true → transport ≠ "serial"

theorem linkStep_dead (w : Watched) (e : Event) (d : UInt8) (transport : String) :
    (linkStep w e).1.2 d transport =
      if w.1.Loses e d transport then true else if w.1.Brings e d transport then false
      else w.2 d transport := rfl

theorem linkStep_fst (w : Watched) (e : Event) : (linkStep w e).1.1 = (w.1.step e).1 := rfl

theorem Alive.mono {t t' : Transports} {dead dead' : UInt8 → String → Bool} (h : Alive t dead)
    (hd : ∀ d transport, dead' d transport = true → dead d transport = true)
    (hl : ∀ d, t'.lockedTransport d = none → t.lockedTransport d = none)
    (ha : t'.activeTransport = t.activeTransport) : Alive t' dead' := by
  intro d transport hdead hlock
  rw [ha]
  exact h d transport (hd d transport hdead) (hl d hlock)

/-- Binding a live transport. -/
theorem Alive.bind {t : Transports} {dead : UInt8 → String → Bool} (h : Alive t dead)
    (hr : t.Ranked) {d : UInt8} {transport : String}
    (hlive : t.shouldAcceptTransportData d transport = true → t.lockedTransport d = none →
      dead d transport = false) : Alive (t.bindActiveTransport d transport) dead := by
  rw [Transports.bind_eq hr]
  split_ifs with ha
  · intro d' transport' hdead hlock
    by_cases hd : d' = d
    · subst hd
      simp only [Function.update_self, ne_eq, Option.some.injEq]
      rintro rfl
      rw [hlive ha hlock] at hdead
      cases hdead
    · simp only [Function.update_of_ne hd]
      exact h d' transport' hdead hlock
  · exact h

/-- What is asked where `cleared` is cleared and `loses` tells which links end. -/
def Ends (t : Transports) (cleared : Option UInt8) (loses : UInt8 → String → Prop) : Prop :=
  ∀ d, (t.lockedTransport d).isSome = true ∨
    ((∀ transport, t.activeTransport d = some transport → loses d transport → cleared = some d) ∧
      (cleared = some d → ∀ transport, t.activeTransport d = some transport → loses d transport))

def clearOf (t : Transports) (cleared : Option UInt8) : Transports :=
  match cleared with
  | none => t
  | some d => t.clearActiveTransport d

theorem clearOf_active (t : Transports) (cleared : Option UInt8) (d : UInt8) :
    (clearOf t cleared).activeTransport d =
      if cleared = some d ∧ t.lockedTransport d = none then none else t.activeTransport d := by
  cases cleared with
  | none => simp [clearOf]
  | some d' => simp only [clearOf, Transports.clear_active, Option.some.injEq]

theorem clearOf_locked (t : Transports) (cleared : Option UInt8) :
    (clearOf t cleared).lockedTransport = t.lockedTransport := by
  cases cleared with
  | none => rfl
  | some d' => exact Transports.clear_locked d'

theorem ends_iff {t : Transports} {dead dead' : UInt8 → String → Bool} (h : Alive t dead)
    {cleared : Option UInt8} {loses : UInt8 → String → Prop}
    (hd : ∀ d transport, dead' d transport = true ↔ loses d transport ∨ dead d transport = true) :
    Ends t cleared loses ↔ Alive (clearOf t cleared) dead' ∧
      ∀ d, (∀ transport, t.activeTransport d = some transport → ¬ loses d transport) →
        (clearOf t cleared).activeTransport d = t.activeTransport d := by
  constructor
  · intro he
    refine ⟨fun d transport hdead hlock hact => ?_, fun d hno => ?_⟩
    · rw [clearOf_locked] at hlock
      rw [clearOf_active] at hact
      split_ifs at hact with hc
      rcases (hd d transport).mp hdead with hlose | hold
      · rcases he d with hl | ⟨hl, -⟩
        · rw [hlock] at hl
          cases hl
        · exact hc ⟨hl transport hact hlose, hlock⟩
      · exact h d transport hold hlock hact
    · rw [clearOf_active]
      split_ifs with hc
      · rcases he d with hl | ⟨-, hl⟩
        · rw [hc.2] at hl
          cases hl
        · cases hact : t.activeTransport d with
          | none => rfl
          | some transport => exact absurd (hl hc.1 transport hact) (hno transport hact)
      · rfl
  · rintro ⟨ha, ho⟩ d
    cases hlock : t.lockedTransport d with
    | some transport => exact Or.inl rfl
    | none =>
      refine Or.inr ⟨fun transport hact hlose => ?_, fun hc transport hact => ?_⟩
      · by_contra hc
        apply ha d transport ((hd d transport).mpr (Or.inl hlose)) (by rw [clearOf_locked, hlock])
        rw [clearOf_active, if_neg fun h => hc h.1, hact]
      · by_contra hlose
        have hkeep := ho d fun transport' hact' => by
          rw [hact] at hact'
          cases hact'
          exact hlose
        rw [clearOf_active, if_pos ⟨hc, hlock⟩, hact] at hkeep
        cases hkeep

theorem Ranked.clearOf {t : Transports} (h : t.Ranked) (cleared : Option UInt8) :
    (clearOf t cleared).Ranked := by
  cases cleared with
  | none => exact h
  | some d => exact h.clear d

theorem alive_iff {t : Transports} {dead : UInt8 → String → Bool}
    (hn : ∀ d transport, dead d transport = true → transport ≠ "serial") :
    Alive t dead ↔ ∀ d transport, dead d transport = true → t.lockedTransport d = none →
      t.activeTransportFor d ≠ transport := by
  apply forall₂_congr
  intro d transport
  apply forall₂_congr
  intro hdead _
  unfold Transports.activeTransportFor
  cases t.activeTransport d with
  | none => simpa using (hn d transport hdead).symm
  | some active => simp

/-- The end of a link is followed as it should be exactly when what it clears fits what it loses. -/
theorem failsOver_ends {w : Watched} (h : Sound w) {e : Event} (cleared : Option UInt8)
    (hdis : e.isDisconnect = true) (hs : (w.1.step e).1.transports = clearOf w.1.transports cleared)
    (hbr : ∀ d transport, ¬ w.1.Brings e d transport)
    (hn : ∀ d transport, w.1.Loses e d transport → transport ≠ "serial") :
    (Ends w.1.transports cleared (w.1.Loses e) ↔ FailsOver w e) ∧
      (Ends w.1.transports cleared (w.1.Loses e) → Sound (linkStep w e).1) := by
  have hdead : ∀ d transport, (linkStep w e).1.2 d transport = true ↔
      w.1.Loses e d transport ∨ w.2 d transport = true := by
    intro d transport
    rw [linkStep_dead]
    by_cases hl : w.1.Loses e d transport
    · simp [hl]
    · simp [hl, hbr d transport]
  have hends := @ends_iff w.1.transports w.2 _ h.alive cleared (w.1.Loses e) hdead
  have hnamed : ∀ d transport, (linkStep w e).1.2 d transport = true → transport ≠ "serial" :=
    fun d transport hd => ((hdead d transport).mp hd).elim (hn d transport) (h.named d transport)
  rw [← hs] at hends
  refine ⟨⟨fun he => ?_, fun hf => ?_⟩, fun he => ?_⟩
  · obtain ⟨halive, hothers⟩ := hends.mp he
    refine ⟨(alive_iff hnamed).mp halive, fun d transport hl hact hlock other _ => ?_,
      fun _ => hothers⟩
    apply Transports.accepts_of_none hlock
    -- the lost transport was active, so it was cleared
    have hgone := halive d transport ((hdead d transport).mpr (Or.inl hl)) hlock
    rw [linkStep_fst]
    rw [hs, clearOf_active] at hgone ⊢
    split_ifs at hgone ⊢ with hc
    · rfl
    · exact absurd hact hgone
  · exact hends.mpr ⟨(alive_iff hnamed).mpr hf.dead, hf.others hdis⟩
  · refine ⟨?_, (hends.mp he).1, hnamed⟩
    rw [linkStep_fst, hs]
    exact Ranked.clearOf h.ranked cleared

/-- Another step meets it exactly when it leaves no dead transport active. -/
theorem failsOver_quiet {w : Watched} (h : Sound w) {e : Event} (hdis : e.isDisconnect = false)
    (hr : (w.1.step e).1.transports.Ranked) :
    (FailsOver w e ↔ Alive (w.1.step e).1.transports (linkStep w e).1.2) ∧
      (Alive (w.1.step e).1.transports (linkStep w e).1.2 → Sound (linkStep w e).1) := by
  have hl : ∀ d transport, ¬ w.1.Loses e d transport := by
    intro d transport
    cases e <;> first
      | exact id
      | cases hdis
  have hnamed : ∀ d transport, (linkStep w e).1.2 d transport = true → transport ≠ "serial" := by
    intro d transport hd
    rw [linkStep_dead, if_neg (hl d transport)] at hd
    split_ifs at hd
    exact h.named d transport hd
  refine ⟨⟨fun hf => (alive_iff hnamed).mpr hf.dead, fun hal => ?_⟩, fun hal => ⟨hr, hal, hnamed⟩⟩
  refine ⟨(alive_iff hnamed).mp hal, fun d transport hlose => absurd hlose (hl d transport), fun hd => ?_⟩
  rw [hdis] at hd
  cases hd

theorem receive_transports (s : State) (p : Producer) (data : SensorData)
    (last_device : Option UInt8) : (s.receive p data last_device).1.transports =
      if p = .mqtt then s.transports.bindActiveTransport data.deviceId "mqtt" else s.transports := by
  cases p with
  | serial =>
    simp only [State.receive, State.parserItem]
    split <;> rfl
  | tcp =>
    simp only [State.receive, State.tcpBinaryItem]
    split
    · rfl
    · split <;> rfl
  | wifi =>
    simp only [State.receive, State.wifiItem]
    split <;> rfl
  | mqtt => rfl

theorem receive_failsOver {w : Watched} (h : Sound w) (p : Producer) (data : SensorData)
    (last_device : Option UInt8) :
    FailsOver w (.receive p data last_device) ∧ Sound (linkStep w (.receive p data last_device)).1 := by
  have hdead : ∀ d transport, (linkStep w (.receive p data last_device)).1.2 d transport = true →
      w.2 d transport = true ∧ ¬ w.1.Brings (.receive p data last_device) d transport := by
    intro d transport hd
    rw [linkStep_dead, if_neg (show ¬ w.1.Loses (.receive p data last_device) d transport from id)] at hd
    split_ifs at hd with hb
    exact ⟨hd, hb⟩
  have hstay : Alive w.1.transports (linkStep w (.receive p data last_device)).1.2 :=
    h.alive.mono (fun d transport hd => (hdead d transport hd).1) (fun d hl => hl) rfl
  have hts : (w.1.step (.receive p data last_device)).1.transports =
      if w.1.hand p = none ∧ p = .mqtt then w.1.transports.bindActiveTransport data.deviceId "mqtt"
      else w.1.transports := by
    simp only [State.step]
    cases hh : w.1.hand p with
    | some item => simp
    | none => simp [receive_transports]
  have hquiet := failsOver_quiet h (e := .receive p data last_device) rfl
    (by rw [hts]; split_ifs; exacts [h.ranked.bind _ _, h.ranked])
  have hal : Alive (w.1.step (.receive p data last_device)).1.transports
      (linkStep w (.receive p data last_device)).1.2 := by
    rw [hts]
    split_ifs with hm
    · apply hstay.bind h.ranked
      intro _ _
      -- the broker link has just brought an item
      by_contra hd
      rw [Bool.not_eq_false] at hd
      exact (hdead _ _ hd).2 ⟨hm.1, rfl, by rw [hm.2]; rfl⟩
    · exact hstay
  exact ⟨hquiet.1.mpr hal, hquiet.2 hal⟩

theorem mqttSeen_failsOver {w : Watched} (h : Sound w) (d : UInt8) :
    FailsOver w (.mqttSeen d) ∧ Sound (linkStep w (.mqttSeen d)).1 := by
  have hdead : ∀ d' transport, (linkStep w (.mqttSeen d)).1.2 d' transport = true →
      w.2 d' transport = true ∧ ¬ (d = d' ∧ transport = "mqtt") := by
    intro d' transport hd
    rw [linkStep_dead, if_neg (show ¬ w.1.Loses (.mqttSeen d) d' transport from id)] at hd
    split_ifs at hd with hb
    exact ⟨hd, hb⟩
  have hstay : Alive w.1.transports (linkStep w (.mqttSeen d)).1.2 :=
    h.alive.mono (fun d' transport hd => (hdead d' transport hd).1) (fun d hl => hl) rfl
  have hquiet := failsOver_quiet h (e := .mqttSeen d) rfl (h.ranked.bind d "mqtt")
  have hal : Alive (w.1.step (.mqttSeen d)).1.transports (linkStep w (.mqttSeen d)).1.2 := by
    apply hstay.bind h.ranked
    intro _ _
    by_contra hd
    rw [Bool.not_eq_false] at hd
    exact (hdead _ _ hd).2 ⟨rfl, rfl⟩
  exact ⟨hquiet.1.mpr hal, hquiet.2 hal⟩

/-- A step that brings and loses nothing. -/
theorem linkStep_dead_same {w : Watched} {e : Event} (hl : ∀ d transport, ¬ w.1.Loses e d transport)
    (hb : ∀ d transport, ¬ w.1.Brings e d transport) : (linkStep w e).1.2 = w.2 := by
  funext d transport
  rw [linkStep_dead, if_neg (hl d transport), if_neg (hb d transport)]

/-- Only binding changes what is active. -/
theorem uploaderStep_transports (s : State) (h : ∀ data, s.uploading ≠ .accepted data) :
    s.uploaderStep.1.transports = s.transports := by
  unfold State.uploaderStep
  cases hu : s.uploading with
  | idle => cases s.dataQueue <;> rfl
  | popped item =>
    dsimp only
    cases s.config.resolve item.2 with
    | none => rfl
    | some data =>
      dsimp only
      split_ifs <;> rfl
  | accepted data => exact absurd hu (h data)
  | bound data => rfl

theorem bind_failsOver {w : Watched} (h : Sound w) {data : SensorData}
    (hu : w.1.uploading = .accepted data) : (Orderly w .upload ↔ FailsOver w .upload) ∧
      (Orderly w .upload → Sound (linkStep w .upload).1) := by
  have hdead : (linkStep w .upload).1.2 = w.2 := linkStep_dead_same (fun _ _ => id) (fun _ _ => id)
  have hs : (w.1.step .upload).1.transports =
      w.1.transports.bindActiveTransport data.deviceId data.linkType := by
    simp only [State.step, State.uploaderStep, hu, State.bindTransport]
  have hord : Orderly w .upload ↔ (w.2 data.deviceId data.linkType = true →
      w.1.transports.lockedTransport data.deviceId = none →
      w.1.transports.shouldAcceptTransportData data.deviceId data.linkType = false) := by
    simp only [Orderly, hu, Uploading.accepted.injEq, forall_eq']
  have hquiet := failsOver_quiet h (e := .upload) rfl (by rw [hs]; exact h.ranked.bind _ _)
  have hal : Orderly w .upload → Alive (w.1.step .upload).1.transports (linkStep w .upload).1.2 := by
    intro ho
    rw [hs, hdead]
    apply h.alive.bind h.ranked
    intro hacc hlock
    by_contra hd
    rw [Bool.not_eq_false] at hd
    have hno := hord.mp ho hd hlock
    rw [hacc] at hno
    cases hno
  refine ⟨⟨fun ho => hquiet.1.mpr (hal ho), fun hf => hord.mpr fun hd hlock => ?_⟩,
    fun ho => hquiet.2 (hal ho)⟩
  by_contra hacc
  rw [Bool.not_eq_false] at hacc
  -- the dead transport becomes the active one
  have hno := (hquiet.1.mp hf) data.deviceId data.linkType (by rw [hdead]; exact hd)
    (by rw [hs, Transports.bind_locked]; exact hlock)
  rw [hs, Transports.bind_eq h.ranked, if_pos hacc] at hno
  exact absurd (Function.update_self ..) hno

theorem upload_failsOver {w : Watched} (h : Sound w) :
    (Orderly w .upload ↔ FailsOver w .upload) ∧
      (Orderly w .upload → Sound (linkStep w .upload).1) := by
  by_cases hbinds : ∃ data, w.1.uploading = .accepted data
  · obtain ⟨data, hu⟩ := hbinds
    exact bind_failsOver h hu
  · have hno : ∀ data, w.1.uploading ≠ .accepted data := not_exists.mp hbinds
    have hs : (w.1.step .upload).1.transports = w.1.transports := uploaderStep_transports w.1 hno
    have hdead : (linkStep w .upload).1.2 = w.2 := linkStep_dead_same (fun _ _ => id) (fun _ _ => id)
    have hquiet := failsOver_quiet h (e := .upload) rfl (by rw [hs]; exact h.ranked)
    rw [hs, hdead] at hquiet
    exact ⟨iff_of_true (fun data hu => absurd hu (hno data)) (hquiet.1.mpr h.alive),
      fun _ => hquiet.2 h.alive⟩

theorem otaUnlock_failsOver {w : Watched} (h : Sound w) (d : UInt8) :
    (Orderly w (.otaUnlock d) ↔ FailsOver w (.otaUnlock d)) ∧
      (Orderly w (.otaUnlock d) → Sound (linkStep w (.otaUnlock d)).1) := by
  have hdead : (linkStep w (.otaUnlock d)).1.2 = w.2 :=
    linkStep_dead_same (fun _ _ => id) (fun _ _ => id)
  have hquiet := failsOver_quiet h (e := .otaUnlock d) rfl h.ranked
  have hiff : Orderly w (.otaUnlock d) ↔
      Alive (w.1.step (.otaUnlock d)).1.transports (linkStep w (.otaUnlock d)).1.2 := by
    rw [hdead]
    constructor
    · intro ho d' transport hd hlock hact
      by_cases hdd : d' = d
      · subst hdd
        rw [ho transport hact] at hd
        cases hd
      · refine h.alive d' transport hd ?_ hact
        rw [← hlock]
        exact (Function.update_of_ne hdd ..).symm
    · intro ha transport hact
      by_contra hd
      rw [Bool.not_eq_false] at hd
      exact ha d transport hd (Function.update_self ..) hact
  exact ⟨hiff.trans hquiet.1.symm, fun ho => hquiet.2 (hiff.mp ho)⟩

/-- For the sessions of `tcpBinaryLoop`. -/
theorem tcpEnds_iff (t : Transports) (last_device : Option UInt8) (lost : UInt8 → Bool) :
    t.TcpEnds last_device lost ↔
      Ends t last_device fun d transport => transport = "tcp_binary" ∧ lost d = true := by
  apply forall_congr'
  intro d
  refine or_congr Iff.rfl (and_congr ?_ ?_)
  · constructor
    · rintro h transport hact ⟨rfl, hl⟩
      exact h ⟨hact, hl⟩
    · exact fun h hl => h _ hl.1 ⟨rfl, hl.2⟩
  · apply imp_congr_right
    intro _
    cases t.activeTransport d with
    | none => simp
    | some active => simp

/-- For a link whose end clears no active transport. -/
theorem unclearedEnds_iff (t : Transports) (name : String) {lost : UInt8 → Prop}
    {loses : UInt8 → String → Prop} (hl : ∀ d transport, loses d transport ↔ transport = name ∧ lost d) :
    (∀ d, lost d → t.activeTransport d = some name → (t.lockedTransport d).isSome = true) ↔
      Ends t none loses := by
  constructor
  · intro ho d
    rw [or_iff_not_imp_left]
    intro hfree
    refine ⟨fun transport hact hlose => ?_, nofun⟩
    obtain ⟨rfl, hlost⟩ := (hl d transport).mp hlose
    exact absurd (ho d hlost hact) hfree
  · intro he d hlost hact
    rcases he d with hlocked | ⟨hcleared, -⟩
    · exact hlocked
    · cases hcleared name hact ((hl d name).mpr ⟨rfl, hlost⟩)

/-- For the device that MQTT reports offline. -/
theorem mqttEnds_iff (t : Transports) (d : UInt8) :
    ((t.lockedTransport d).isSome = true ∨ t.activeTransport d = none ∨
      t.activeTransport d = some "mqtt") ↔
      Ends t (some d) fun d' transport => transport = "mqtt" ∧ d = d' := by
  constructor
  · intro ho d'
    by_cases hd : d = d'
    · subst hd
      refine ho.imp_right fun ha => ⟨fun _ _ _ => rfl, fun _ transport hact => ?_⟩
      rcases ha with ha | ha <;> rw [hact] at ha
      · cases ha
      · exact ⟨Option.some.inj ha, rfl⟩
    · exact Or.inr ⟨fun _ _ hl => absurd hl.2 hd, fun hc => absurd (Option.some.inj hc) hd⟩
  · intro he
    refine (he d).imp_right fun hl => ?_
    cases hact : t.activeTransport d with
    | none => exact Or.inl rfl
    | some active => exact Or.inr (by rw [(hl.2 rfl active hact).1])

theorem failsOver_of_ends {w : Watched} (h : Sound w) {e : Event} (cleared : Option UInt8)
    (hdis : e.isDisconnect = true) (hs : (w.1.step e).1.transports = clearOf w.1.transports cleared)
    (hbr : ∀ d transport, ¬ w.1.Brings e d transport)
    (hn : ∀ d transport, w.1.Loses e d transport → transport ≠ "serial")
    (hends : Orderly w e ↔ Ends w.1.transports cleared (w.1.Loses e)) :
    (Orderly w e ↔ FailsOver w e) ∧ (Orderly w e → Sound (linkStep w e).1) := by
  obtain ⟨hiff, hsound⟩ := failsOver_ends h cleared hdis hs hbr hn
  exact ⟨hends.trans hiff, fun ho => hsound (hends.mp ho)⟩

theorem disconnect_failsOver {w : Watched} (h : Sound w) {e : Event} (hdis : e.isDisconnect = true) :
    (Orderly w e ↔ FailsOver w e) ∧ (Orderly w e → Sound (linkStep w e).1) := by
  cases e with
  | tcpTimeout last_device lost =>
    -- under the device's own OTA lock the session is left alone
    by_cases hskip : w.1.skipReclaim last_device
    · have hs : (w.1.step (.tcpTimeout last_device lost)).1.transports =
          clearOf w.1.transports none := by
        simp [State.step, hskip, clearOf]
      have hno : ∀ d transport, ¬ w.1.Loses (.tcpTimeout last_device lost) d transport :=
        fun d transport hl => hl.2.2 hskip
      refine failsOver_of_ends h none hdis hs (fun _ _ => id)
        (fun d transport hl => absurd hl (hno d transport)) (iff_of_true (Or.inl hskip) fun d => ?_)
      exact Or.inr ⟨fun transport _ hl => absurd hl (hno d transport), nofun⟩
    · have hs : (w.1.step (.tcpTimeout last_device lost)).1.transports =
          clearOf w.1.transports last_device := by
        simp only [State.step, if_neg hskip]
        cases last_device <;> rfl
      have hends : Orderly w (.tcpTimeout last_device lost) ↔
          Ends w.1.transports last_device (w.1.Loses (.tcpTimeout last_device lost)) := by
        have hl : w.1.Loses (.tcpTimeout last_device lost) =
            fun d transport => transport = "tcp_binary" ∧ lost d = true := by
          funext d transport
          simp [State.Loses, hskip]
        simp only [Orderly, hskip, false_or, tcpEnds_iff, hl]
      refine failsOver_of_ends h last_device hdis hs (fun _ _ => id) (fun d transport hl => ?_) hends
      rw [hl.1]
      decide
  | tcpDisconnect last_device lost =>
    have hs : (w.1.step (.tcpDisconnect last_device lost)).1.transports =
        clearOf w.1.transports last_device := by
      cases last_device <;> rfl
    refine failsOver_of_ends h last_device hdis hs (fun _ _ => id) (fun d transport hl => ?_)
      (tcpEnds_iff w.1.transports last_device lost)
    rw [hl.1]
    decide
  | wifiDisconnect lost =>
    refine failsOver_of_ends h none hdis rfl (fun _ _ => id) (fun d transport hl => ?_)
      (unclearedEnds_iff w.1.transports "wifi" fun _ _ => Iff.rfl)
    rw [hl.1]
    decide
  | mqttOffline d =>
    refine failsOver_of_ends h (some d) hdis rfl (fun _ _ => id) (fun d transport hl => ?_)
      (mqttEnds_iff w.1.transports d)
    rw [hl.1]
    decide
  | brokerDisconnect =>
    have hends := @unclearedEnds_iff w.1.transports "mqtt" (fun _ => True)
      (w.1.Loses .brokerDisconnect) fun _ _ => (iff_of_eq (and_true _)).symm
    simp only [forall_const] at hends
    refine failsOver_of_ends h none hdis rfl (fun _ _ => id) (fun d transport hl => ?_) hends
    rw [show transport = "mqtt" from hl]
    decide
  | _ => cases hdis

/-- Where no link comes, goes or is bound, and no lock is released. -/
theorem idle_failsOver {w : Watched} (h : Sound w) {e : Event} (hdis : e.isDisconnect = false)
    (hl : ∀ d transport, ¬ w.1.Loses e d transport) (hb : ∀ d transport, ¬ w.1.Brings e d transport)
    (hr : (w.1.step e).1.transports.Ranked)
    (ha : (w.1.step e).1.transports.activeTransport = w.1.transports.activeTransport)
    (hlock : ∀ d, (w.1.step e).1.transports.lockedTransport d = none →
      w.1.transports.lockedTransport d = none) : FailsOver w e ∧ Sound (linkStep w e).1 := by
  obtain ⟨hiff, hsound⟩ := failsOver_quiet h hdis hr
  rw [linkStep_dead_same hl hb] at hiff hsound
  have hal := h.alive.mono (fun _ _ hd => hd) hlock ha
  exact ⟨hiff.mpr hal, hsound hal⟩

theorem push_transports (s : State) (p : Producer) : (s.push p).transports = s.transports := by
  unfold State.push
  split
  · rfl
  · split <;> rfl

theorem step_failsOver {w : Watched} (h : Sound w) (e : Event) :
    (Orderly w e ↔ FailsOver w e) ∧ (Orderly w e → Sound (linkStep w e).1) := by
  cases e with
  | receive p data last_device =>
    obtain ⟨hf, hs⟩ := receive_failsOver h p data last_device
    exact ⟨⟨fun _ => hf, fun _ => trivial⟩, fun _ => hs⟩
  | mqttSeen d =>
    obtain ⟨hf, hs⟩ := mqttSeen_failsOver h d
    exact ⟨⟨fun _ => hf, fun _ => trivial⟩, fun _ => hs⟩
  | upload => exact upload_failsOver h
  | otaUnlock d => exact otaUnlock_failsOver h d
  | tcpTimeout | tcpDisconnect | wifiDisconnect | mqttOffline | brokerDisconnect =>
    exact disconnect_failsOver h rfl
  | push p =>
    have hs : (w.1.step (.push p)).1.transports = w.1.transports := push_transports w.1 p
    obtain ⟨hf, hs⟩ := idle_failsOver h (e := .push p) rfl (fun _ _ => id) (fun _ _ => id)
      (by rw [hs]; exact h.ranked) (by rw [hs]) (fun d hl => by rw [hs] at hl; exact hl)
    exact ⟨⟨fun _ => hf, fun _ => trivial⟩, fun _ => hs⟩
  | otaLock d transport =>
    obtain ⟨hf, hs⟩ := idle_failsOver h (e := .otaLock d transport) rfl (fun _ _ => id)
      (fun _ _ => id) h.ranked rfl fun d' hl => by
        by_cases hd : d' = d
        · rw [hd] at hl
          simp [State.step, Transports.otaLockTransport] at hl
        · rw [← hl]
          exact (Function.update_of_ne hd ..).symm
    exact ⟨⟨fun _ => hf, fun _ => trivial⟩, fun _ => hs⟩
  | otaMute d =>
    obtain ⟨hf, hs⟩ := idle_failsOver h (e := .otaMute d) rfl (fun _ _ => id) (fun _ _ => id)
      h.ranked rfl fun _ hl => hl
    exact ⟨⟨fun _ => hf, fun _ => trivial⟩, fun _ => hs⟩
  | otaUnmute d =>
    obtain ⟨hf, hs⟩ := idle_failsOver h (e := .otaUnmute d) rfl (fun _ _ => id) (fun _ _ => id)
      h.ranked rfl fun _ hl => hl
    exact ⟨⟨fun _ => hf, fun _ => trivial⟩, fun _ => hs⟩

theorem boot_sound (config : Config) : Sound (boot config, fun _ _ => false) :=
  ⟨fun _ => rfl, fun _ _ hd => (by cases hd), fun _ _ hd => (by cases hd)⟩

/-- Over every run, transports fail over as they should exactly as long as links end, locks are
released and items are bound in order. -/
theorem failover_iff (config : Config) (es : List Event) :
    Always linkStep Orderly (boot config, fun _ _ => false) es ↔
      Always linkStep FailsOver (boot config, fun _ _ => false) es :=
  always_iff_of_invariant (fun _ e hw => (step_failsOver hw e).2) (fun _ e hw => (step_failsOver hw e).1)
    (boot_sound config)

/-- One node, on Wi-Fi. -/
def wifiNode : Config :=
  ⟨100, 8, fun d => if d = 1 then some ⟨true, "node", "/node", "wifi"⟩ else none, true⟩

/-- Its session ends, and its other links are shut out for good. -/
theorem wifi_stays_active :
    ¬ ∀ config es, Always linkStep FailsOver (boot config, fun _ _ => false) es := by
  intro h
  have hall := h wifiNode [.receive .wifi { deviceId := 1, linkType := "wifi" } none, .push .wifi,
    .upload, .upload, .upload, .wifiDisconnect fun _ => true]
  exact hall.2.2.2.2.2.1.dead 1 "wifi" (by decide +kernel) (by decide +kernel) (by decide +kernel)

end EdgeLink.Ingress
