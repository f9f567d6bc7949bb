import EdgeLink.BatchRollout
import EdgeLink.Machine

namespace EdgeLink.Alerts
open Machine Rollout

structure EventEnvelope where
  eventType : String
  severity : String
  deviceId : Option ℤ

def EventEnvelope.dedupeSubject (event : EventEnvelope) : String :=
  match event.deviceId with
  | some device_id => event.eventType ++ ":device:" ++ toString device_id
  | none => event.eventType ++ ":global"

structure AlertProposal where
  severity : String
  dedupeKey : String

def evaluate (event : EventEnvelope) : List AlertProposal :=
  if event.eventType = "device_offline" then
    [⟨if event.severity ∈ ["warning", "high"] then "high" else "critical", event.dedupeSubject⟩]
  else if event.eventType = "sensor_upload_gap" then
    [⟨if event.severity = "info" then "medium" else event.severity, event.dedupeSubject⟩]
  else if event.eventType = "ota_failure_spike" then
    [⟨"critical", event.dedupeSubject⟩]
  else []

def severityOrder : List String := ["info", "medium", "warning", "high", "critical"]

def normalizedSeverity (severity : String) : String :=
  lower (strip (if severity = "" then "info" else severity))

def escalateAlertSeverity (severity : String) : String :=
  let normalized := normalizedSeverity severity
  if normalized ∉ severityOrder then "high"
  else
    let index := severityOrder.idxOf normalized
    severityOrder.getD (min (index + 1) (severityOrder.length - 1)) ""

inductive AlertStatus
  | opened | acknowledged | suppressed | resolved
  deriving DecidableEq

structure Alert where
  severity : String
  status : AlertStatus
  dedupeKey : String
  occurrenceCount : ℕ
  /-- a time in microseconds -/
  suppressedUntil : Option ℕ
  escalationLevel : ℕ
  updatedAt : ℕ
  /-- how many proposals there had been before -/
  bornAt : ℕ
  deriving DecidableEq

structure World where
  /-- by alert id -/
  alerts : List Alert
  /-- the keys of all proposals -/
  proposed : List String

def getOpenAlertByDedupeKey (w : World) (dedupe_key : String) : Option (Alert × ℕ) :=
  (w.alerts.zipIdx.filter fun row => row.1.dedupeKey = dedupe_key ∧ row.1.status ≠ .resolved).argmax
    fun row => row.1.updatedAt

def stillSuppressed (now : ℕ) (alert : Alert) : Bool :=
  alert.status = .suppressed ∧ alert.suppressedUntil.any fun suppression_until => now < suppression_until

/-- What `ingest_realtime_event` makes of an alert that there is already. -/
def recur (now : ℕ) (existing : Alert) (proposal : AlertProposal) : Alert :=
  let next_occurrence_count := existing.occurrenceCount + 1
  if stillSuppressed now existing then
    { existing with
      severity := proposal.severity
      occurrenceCount := next_occurrence_count
      updatedAt := now }
  else if next_occurrence_count ≥ 3 then
    let next_severity := escalateAlertSeverity existing.severity
    { existing with
      status := .opened
      severity := next_severity
      occurrenceCount := next_occurrence_count
      escalationLevel :=
        if next_severity ≠ existing.severity then existing.escalationLevel + 1
        else existing.escalationLevel
      updatedAt := now }
  else
    { existing with
      status := .opened
      severity := proposal.severity
      occurrenceCount := next_occurrence_count
      updatedAt := now }

def newAlert (now : ℕ) (w : World) (proposal : AlertProposal) : Alert :=
  ⟨proposal.severity, .opened, proposal.dedupeKey, 1, none, 0, now, w.proposed.length⟩

def ingestProposal (now : ℕ) (w : World) (proposal : AlertProposal) : World :=
  match getOpenAlertByDedupeKey w proposal.dedupeKey with
  | none => ⟨w.alerts ++ [newAlert now w proposal], w.proposed ++ [proposal.dedupeKey]⟩
  | some (existing, alert_id) =>
    ⟨w.alerts.set alert_id (recur now existing proposal), w.proposed ++ [proposal.dedupeKey]⟩

def envelope (event_type severity : String) (device_id : Option ℤ) : EventEnvelope :=
  ⟨strip event_type, if strip severity = "" then "info" else strip severity, device_id⟩

def ingestRealtimeEvent (now : ℕ) (event_type severity : String) (device_id : Option ℤ) (w : World) :
    World :=
  (evaluate (envelope event_type severity device_id)).foldl (ingestProposal now) w

/-- An operator's call: the role first, then the row. -/
def operatorUpdate (alert_id : ℕ) (actor : Role) (f : Alert → Alert) (w : World) : World :=
  if roleRank actor < roleRank .operator then w
  else match w.alerts[alert_id]? with
    | none => w
    | some current => { w with alerts := w.alerts.set alert_id (f current) }

def suppressAlert (now alert_id : ℕ) (actor : Role) (minutes : ℤ) : World → World :=
  operatorUpdate alert_id actor fun current =>
    { current with
      status := .suppressed
      suppressedUntil := some (now + (max 1 minutes).toNat * 60000000)
      updatedAt := now }

def acknowledgeAlert (now alert_id : ℕ) (actor : Role) : World → World :=
  operatorUpdate alert_id actor fun current => { current with status := .acknowledged, updatedAt := now }

def resolveAlert (now alert_id : ℕ) (actor : Role) : World → World :=
  operatorUpdate alert_id actor fun current => { current with status := .resolved, updatedAt := now }

inductive Event
  | ingest (now : ℕ) (event_type severity : String) (device_id : Option ℤ)
  | suppress (now alert_id : ℕ) (actor : Role) (minutes : ℤ)
  | acknowledge (now alert_id : ℕ) (actor : Role)
  | resolve (now alert_id : ℕ) (actor : Role)

def step (w : World) : Event → World × Unit
  | .ingest now event_type severity device_id =>
    (ingestRealtimeEvent now event_type severity device_id w, ())
  | .suppress now alert_id actor minutes => (suppressAlert now alert_id actor minutes w, ())
  | .acknowledge now alert_id actor => (acknowledgeAlert now alert_id actor w, ())
  | .resolve now alert_id actor => (resolveAlert now alert_id actor w, ())

def start : World := ⟨[], []⟩

/-- A severity that the order does not have is below all the others. -/
def severityRank (severity : String) : ℕ :=
  if normalizedSeverity severity ∈ severityOrder then
    severityOrder.idxOf (normalizedSeverity severity) + 1
  else 0

def OneActive (w : World) : Prop :=
  ∀ (i j : ℕ) (a b : Alert), w.alerts[i]? = some a → w.alerts[j]? = some b →
    a.status ≠ .resolved → b.status ≠ .resolved → a.dedupeKey = b.dedupeKey → i = j

/-- The count of an active alert is that of the proposals since its creation. -/
def Counted (w : World) : Prop :=
  ∀ (i : ℕ) (a : Alert), w.alerts[i]? = some a → a.status ≠ .resolved →
    a.occurrenceCount = (w.proposed.drop a.bornAt).count a.dedupeKey

/-- What a call may do to one row. -/
def RowKept (a a' : Alert) : Prop :=
  (a.status = .resolved → a'.status = .resolved) ∧
    (a.status ≠ .resolved → a'.status ≠ .resolved →
      severityRank a.severity ≤ severityRank a'.severity)

def Lawful (w : World) (e : Event) : Prop :=
  let w' := (step w e).1
  OneActive w' ∧ Counted w' ∧
    ∀ (i : ℕ) (a : Alert), w.alerts[i]? = some a → ∃ a', w'.alerts[i]? = some a' ∧ RowKept a a'

/-- No operator calls back a resolved alert; and a proposal that is taken over as it stands is not
below the alert. -/
def Orderly (w : World) : Event → Prop
  | .ingest now event_type severity device_id =>
    ∀ p ∈ evaluate (envelope event_type severity device_id),
      ∀ row ∈ getOpenAlertByDedupeKey w p.dedupeKey,
        stillSuppressed now row.1 = true ∨ row.1.occurrenceCount < 2 →
          severityRank row.1.severity ≤ severityRank p.severity
  | .suppress _ alert_id actor _ | .acknowledge _ alert_id actor =>
    roleRank .operator ≤ roleRank actor → ∀ a ∈ w.alerts[alert_id]?, a.status ≠ .resolved
  | .resolve _ _ _ => True

instance (w : World) (e : Event) : Decidable (Orderly w e) :=
  match e with
  | .ingest _ event_type severity device_id =>
    inferInstanceAs (Decidable (∀ p ∈ evaluate (envelope event_type severity device_id),
      ∀ row ∈ getOpenAlertByDedupeKey w p.dedupeKey, _ → _))
  | .suppress _ alert_id actor _ | .acknowledge _ alert_id actor =>
    inferInstanceAs (Decidable (roleRank .operator ≤ roleRank actor →
      ∀ a ∈ w.alerts[alert_id]?, a.status ≠ .resolved))
  | .resolve _ _ _ => isTrue trivial

theorem escalate_rank (severity : String) :
    severityRank severity ≤ severityRank (escalateAlertSeverity severity) := by
  unfold escalateAlertSeverity
  dsimp only
  by_cases hin : normalizedSeverity severity ∈ severityOrder
  · rw [if_neg (not_not.mpr hin)]
    have hrank : severityRank severity = severityOrder.idxOf (normalizedSeverity severity) + 1 :=
      if_pos hin
    have hindex : severityOrder.idxOf (normalizedSeverity severity) < 5 := List.idxOf_lt_length_of_mem hin
    have hnext : ∀ i < 5, i + 1 ≤ severityRank (severityOrder.getD (min (i + 1) (5 - 1)) "") := by
      decide +kernel
    rw [hrank]
    exact hnext _ hindex
  · have hrank : severityRank severity = 0 := if_neg hin
    rw [hrank]
    exact Nat.zero_le _

section Lookup
variable {w : World} {key : String} {a : Alert} {i : ℕ}

theorem getOpen_some (h : getOpenAlertByDedupeKey w key = some (a, i)) :
    w.alerts[i]? = some a ∧ a.dedupeKey = key ∧ a.status ≠ .resolved := by
  have hmem := List.mem_filter.mp (List.argmax_mem (Option.mem_def.mpr h))
  exact ⟨List.mem_zipIdx_iff_getElem?.mp hmem.1, of_decide_eq_true hmem.2⟩

theorem getOpen_none (h : getOpenAlertByDedupeKey w key = none) (hrow : w.alerts[i]? = some a)
    (hkey : a.dedupeKey = key) : a.status = .resolved := by
  have hempty := List.filter_eq_nil_iff.mp (List.argmax_eq_none.mp h) (a, i)
    (List.mem_zipIdx_iff_getElem?.mpr hrow)
  by_contra hactive
  exact hempty (decide_eq_true ⟨hkey, hactive⟩)

end Lookup

theorem RowKept.refl (a : Alert) : RowKept a a := ⟨id, fun _ _ => le_rfl⟩

theorem RowKept.resolve {a a' : Alert} (h : a'.status = .resolved) : RowKept a a' :=
  ⟨fun _ => h, fun _ hactive => absurd h hactive⟩

theorem recur_row (now : ℕ) {existing : Alert} (hactive : existing.status ≠ .resolved)
    (proposal : AlertProposal) :
    (recur now existing proposal).status ≠ .resolved ∧
      (recur now existing proposal).dedupeKey = existing.dedupeKey ∧
      (recur now existing proposal).bornAt = existing.bornAt ∧
      (recur now existing proposal).occurrenceCount = existing.occurrenceCount + 1 := by
  unfold recur
  dsimp only
  by_cases hsuppressed : stillSuppressed now existing = true
  · rw [if_pos hsuppressed]
    exact ⟨hactive, rfl, rfl, rfl⟩
  rw [if_neg hsuppressed]
  by_cases hmany : existing.occurrenceCount + 1 ≥ 3
  · rw [if_pos hmany]
    exact ⟨nofun, rfl, rfl, rfl⟩
  · rw [if_neg hmany]
    exact ⟨nofun, rfl, rfl, rfl⟩

theorem recur_severity (now : ℕ) (existing : Alert) (proposal : AlertProposal)
    (h : stillSuppressed now existing = true ∨ existing.occurrenceCount < 2 →
      severityRank existing.severity ≤ severityRank proposal.severity) :
    severityRank existing.severity ≤ severityRank (recur now existing proposal).severity := by
  unfold recur
  dsimp only
  by_cases hsuppressed : stillSuppressed now existing = true
  · rw [if_pos hsuppressed]
    exact h (Or.inl hsuppressed)
  rw [if_neg hsuppressed]
  by_cases hmany : existing.occurrenceCount + 1 ≥ 3
  · rw [if_pos hmany]
    dsimp only
    exact escalate_rank existing.severity
  · rw [if_neg hmany]
    exact h (Or.inr (by omega))

structure Sound (w : World) : Prop where
  one : OneActive w
  counted : Counted w
  born : ∀ (i : ℕ) (a : Alert), w.alerts[i]? = some a → a.bornAt ≤ w.proposed.length

/-- A row may take the place of another when it is not active without the other being so. -/
theorem set_one {w : World} (hw : OneActive w) {id : ℕ} {a b : Alert} (ha : w.alerts[id]? = some a)
    (hkey : b.dedupeKey = a.dedupeKey) (hactive : b.status ≠ .resolved → a.status ≠ .resolved)
    (proposed : List String) : OneActive ⟨w.alerts.set id b, proposed⟩ := by
  intro i j c d hc hd hci hdi hsame
  rcases getElem?_set_cases hc with ⟨hi, hcb⟩ | ⟨-, hold⟩ <;>
    rcases getElem?_set_cases hd with ⟨hj, hdb⟩ | ⟨-, hold'⟩
  · exact hi.trans hj.symm
  · rw [hcb] at hci hsame
    exact hi.trans (hw _ _ _ _ ha hold' (hactive hci) hdi (hkey.symm.trans hsame))
  · rw [hdb] at hdi hsame
    exact (hw _ _ _ _ hold ha hci (hactive hdi) (hsame.trans hkey)).trans hj.symm
  · exact hw _ _ _ _ hold hold' hci hdi hsame

theorem set_row {alerts : List Alert} {id : ℕ} {a b : Alert} (ha : alerts[id]? = some a)
    (hkept : RowKept a b) (i : ℕ) (c : Alert) (hc : alerts[i]? = some c) :
    ∃ c', (alerts.set id b)[i]? = some c' ∧ RowKept c c' := by
  by_cases hid : i = id
  · subst hid
    obtain rfl := Option.some.inj (ha.symm.trans hc)
    exact ⟨b, List.getElem?_set_self (List.getElem?_eq_some_iff.mp ha).1, hkept⟩
  · exact ⟨c, (List.getElem?_set_ne (Ne.symm hid)).trans hc, RowKept.refl c⟩

/-- A further proposal counts for its own key. -/
theorem count_proposed {proposed : List String} {bornAt : ℕ} (hborn : bornAt ≤ proposed.length)
    (key key' : String) : ((proposed ++ [key]).drop bornAt).count key' =
      (proposed.drop bornAt).count key' + if key = key' then 1 else 0 := by
  rw [List.drop_append_of_le_length hborn, List.count_append, List.count_singleton]
  simp only [beq_iff_eq]

theorem ingestProposal_sound (now : ℕ) {w : World} (hw : Sound w) (p : AlertProposal)
    (hp : ∀ row ∈ getOpenAlertByDedupeKey w p.dedupeKey,
      stillSuppressed now row.1 = true ∨ row.1.occurrenceCount < 2 →
        severityRank row.1.severity ≤ severityRank p.severity) :
    Sound (ingestProposal now w p) ∧ ∀ (i : ℕ) (a : Alert), w.alerts[i]? = some a →
      ∃ a', (ingestProposal now w p).alerts[i]? = some a' ∧ RowKept a a' := by
  unfold ingestProposal
  cases hopen : getOpenAlertByDedupeKey w p.dedupeKey with
  | none =>
    -- no open alert has this key, so the new one is the only one
    have hfree : ∀ (i : ℕ) (a : Alert), w.alerts[i]? = some a → a.status ≠ .resolved →
        p.dedupeKey ≠ a.dedupeKey := fun i a ha hai hkey => hai (getOpen_none hopen ha hkey.symm)
    have hlength : (w.proposed ++ [p.dedupeKey]).length = w.proposed.length + 1 :=
      List.length_append
    refine ⟨⟨fun i j a b ha hb hai hbi hkey => ?_, fun i a ha hai => ?_, fun i a ha => ?_⟩,
      fun i a ha => ⟨a, ?_, RowKept.refl a⟩⟩
    · rcases getElem?_concat_cases ha with hold | ⟨hi, hnew⟩ <;>
        rcases getElem?_concat_cases hb with hold' | ⟨hj, hnew'⟩
      · exact hw.one i j a b hold hold' hai hbi hkey
      · rw [hnew'] at hkey
        exact absurd hkey.symm (hfree i a hold hai)
      · rw [hnew] at hkey
        exact absurd hkey (hfree j b hold' hbi)
      · exact hi.trans hj.symm
    · rcases getElem?_concat_cases ha with hold | ⟨-, hnew⟩
      · dsimp only
        rw [count_proposed (hw.born i a hold), if_neg (hfree i a hold hai), hw.counted i a hold hai,
          Nat.add_zero]
      · rw [hnew]
        dsimp only [newAlert]
        rw [count_proposed le_rfl, if_pos rfl, List.drop_length, List.count_nil]
    · rcases getElem?_concat_cases ha with hold | ⟨-, hnew⟩
      · rw [hlength]
        exact Nat.le_succ_of_le (hw.born i a hold)
      · rw [hnew, hlength]
        exact Nat.le_succ _
    · rw [List.getElem?_append_left (List.getElem?_eq_some_iff.mp ha).1]
      exact ha
  | some row =>
    obtain ⟨existing, id⟩ := row
    obtain ⟨hrow, hkey, hactive⟩ := getOpen_some hopen
    obtain ⟨hactive', hkey', hborn', hcount'⟩ := recur_row now hactive p
    dsimp only
    refine ⟨⟨set_one hw.one hrow hkey' (fun _ => hactive) _, fun i a ha hai => ?_,
      fun i a ha => ?_⟩, ?_⟩
    · rcases getElem?_set_cases ha with ⟨rfl, rfl⟩ | ⟨hi, ha⟩
      · dsimp only
        rw [hkey', hborn', hcount', count_proposed (hw.born _ _ hrow), if_pos hkey.symm,
          hw.counted _ _ hrow hactive]
      -- another open alert with the same key would be this one
      · have hother : p.dedupeKey ≠ a.dedupeKey := fun hsame =>
          hi (hw.one i id a existing ha hrow hai hactive (hsame.symm.trans hkey.symm))
        dsimp only
        rw [count_proposed (hw.born _ _ ha), if_neg hother, hw.counted _ _ ha hai, Nat.add_zero]
    · have hlength : (w.proposed ++ [p.dedupeKey]).length = w.proposed.length + 1 :=
        List.length_append
      rcases getElem?_set_cases ha with ⟨rfl, rfl⟩ | ⟨-, ha⟩
      · rw [hborn', hlength]
        exact Nat.le_succ_of_le (hw.born _ _ hrow)
      · rw [hlength]
        exact Nat.le_succ_of_le (hw.born _ _ ha)
    · exact set_row hrow ⟨fun h => absurd h hactive,
        fun _ _ => recur_severity now existing p (hp _ hopen)⟩

theorem operatorUpdate_sound {w : World} (hw : Sound w) (id : ℕ) (actor : Role) (f : Alert → Alert)
    (hf : ∀ a, (f a).dedupeKey = a.dedupeKey ∧ (f a).bornAt = a.bornAt ∧
      (f a).occurrenceCount = a.occurrenceCount)
    (hkept : roleRank .operator ≤ roleRank actor → ∀ a ∈ w.alerts[id]?,
      RowKept a (f a) ∧ ((f a).status ≠ .resolved → a.status ≠ .resolved)) :
    Sound (operatorUpdate id actor f w) ∧ ∀ (i : ℕ) (a : Alert), w.alerts[i]? = some a →
      ∃ a', (operatorUpdate id actor f w).alerts[i]? = some a' ∧ RowKept a a' := by
  have hsame : ∀ (i : ℕ) (a : Alert), w.alerts[i]? = some a →
      ∃ a', w.alerts[i]? = some a' ∧ RowKept a a' := fun i a ha => ⟨a, ha, RowKept.refl a⟩
  unfold operatorUpdate
  by_cases hrole : roleRank actor < roleRank .operator
  · rw [if_pos hrole]
    exact ⟨hw, hsame⟩
  rw [if_neg hrole]
  cases hrow : w.alerts[id]? with
  | none => exact ⟨hw, hsame⟩
  | some current =>
    obtain ⟨hrowKept, hactive⟩ := hkept (not_lt.mp hrole) current hrow
    obtain ⟨hkey, hborn, hcount⟩ := hf current
    refine ⟨⟨set_one hw.one hrow hkey hactive _, fun i a ha hai => ?_, fun i a ha => ?_⟩,
      set_row hrow hrowKept⟩
    · rcases getElem?_set_cases ha with ⟨-, hnew⟩ | ⟨-, hold⟩
      · rw [hnew] at hai ⊢
        rw [hkey, hborn, hcount]
        exact hw.counted id current hrow (hactive hai)
      · exact hw.counted i a hold hai
    · rcases getElem?_set_cases ha with ⟨-, hnew⟩ | ⟨-, hold⟩
      · rw [hnew, hborn]
        exact hw.born id current hrow
      · exact hw.born i a hold

/-- Each event proposes at most one alert. -/
theorem evaluate_length (event : EventEnvelope) : (evaluate event).length ≤ 1 := by
  unfold evaluate
  by_cases hoffline : event.eventType = "device_offline"
  · rw [if_pos hoffline]
    exact le_rfl
  rw [if_neg hoffline]
  by_cases hgap : event.eventType = "sensor_upload_gap"
  · rw [if_pos hgap]
    exact le_rfl
  rw [if_neg hgap]
  by_cases hota : event.eventType = "ota_failure_spike"
  · rw [if_pos hota]
    exact le_rfl
  · rw [if_neg hota]
    exact Nat.zero_le 1

theorem step_sound (w : World) (e : Event) (hw : Sound w) (he : Orderly w e) :
    Sound (step w e).1 ∧ Lawful w e := by
  have hlawful : Sound (step w e).1 ∧ (∀ (i : ℕ) (a : Alert), w.alerts[i]? = some a →
      ∃ a', (step w e).1.alerts[i]? = some a' ∧ RowKept a a') := by
    cases e with
    | ingest now event_type severity device_id =>
      dsimp only [step, ingestRealtimeEvent]
      have hone := evaluate_length (envelope event_type severity device_id)
      have horder : ∀ p ∈ evaluate (envelope event_type severity device_id), _ := he
      revert hone horder
      generalize evaluate (envelope event_type severity device_id) = proposals
      intro hone horder
      cases proposals with
      | nil => exact ⟨hw, fun i a ha => ⟨a, ha, RowKept.refl a⟩⟩
      | cons p rest =>
        obtain rfl := List.eq_nil_of_length_eq_zero (Nat.le_zero.mp (Nat.le_of_succ_le_succ hone))
        exact ingestProposal_sound now hw p (horder p (List.mem_singleton_self p))
    | suppress now id actor minutes =>
      exact operatorUpdate_sound hw id actor _ (fun _ => ⟨rfl, rfl, rfl⟩) fun hrole a ha =>
        ⟨⟨fun h => absurd h (he hrole a ha), fun _ _ => le_rfl⟩, fun _ => he hrole a ha⟩
    | acknowledge now id actor =>
      exact operatorUpdate_sound hw id actor _ (fun _ => ⟨rfl, rfl, rfl⟩) fun hrole a ha =>
        ⟨⟨fun h => absurd h (he hrole a ha), fun _ _ => le_rfl⟩, fun _ => he hrole a ha⟩
    | resolve now id actor =>
      exact operatorUpdate_sound hw id actor _ (fun _ => ⟨rfl, rfl, rfl⟩) fun _ a _ =>
        ⟨RowKept.resolve rfl, fun h => absurd rfl h⟩
  exact ⟨hlawful.1, hlawful.1.one, hlawful.1.counted, hlawful.2⟩

theorem start_sound : Sound start := ⟨nofun, nofun, nofun⟩

/-- In an orderly run the table is as one would expect. -/
theorem orderly_lawful (es : List Event) (h : Always step Orderly start es) :
    Always step Lawful start es :=
  Always.of_invariant (I := Sound) step_sound start_sound h

/-- Three events of one device under an acknowledged alert, which is resolved; then a new one. -/
def sensorGap : List Event :=
  [.ingest 0 "sensor_upload_gap" "warning" (some 3), .acknowledge 1 0 .operator,
    .ingest 2 "sensor_upload_gap" "high" (some 3), .ingest 3 "sensor_upload_gap" "info" (some 3),
    .resolve 4 0 .operator, .ingest 5 "sensor_upload_gap" "info" (some 3)]

theorem sensorGap_lawful :
    (run step start sensorGap).alerts.map (fun a => (a.severity, a.status, a.occurrenceCount)) =
      [("critical", .resolved, 3), ("medium", .opened, 1)] ∧
    Always step Lawful start sensorGap :=
  ⟨by decide +kernel, orderly_lawful sensorGap (by decide +kernel)⟩

/-- The resolved alert is acknowledged when there is a new one for its key. -/
def ackResolved : List Event :=
  [.ingest 0 "sensor_upload_gap" "warning" (some 3), .resolve 1 0 .operator,
    .ingest 2 "sensor_upload_gap" "warning" (some 3), .acknowledge 3 0 .operator]

/-- The second event is less severe than the first one. -/
def milderSecond : List Event :=
  [.ingest 0 "sensor_upload_gap" "critical" (some 3), .ingest 1 "sensor_upload_gap" "info" (some 3)]

theorem ackResolved_unlawful :
    ¬ Always step Lawful start ackResolved ∧ ¬ Always step Lawful start milderSecond := by
  constructor
  · intro h
    have hone : OneActive (run step start ackResolved) := h.2.2.2.1.1
    have hold : (run step start ackResolved).alerts[0]? =
        some ⟨"warning", .acknowledged, "sensor_upload_gap:device:3", 1, none, 0, 3, 0⟩ := by
      decide +kernel
    have hnew : (run step start ackResolved).alerts[1]? =
        some ⟨"warning", .opened, "sensor_upload_gap:device:3", 1, none, 0, 2, 1⟩ := by
      decide +kernel
    exact absurd (hone 0 1 _ _ hold hnew nofun nofun rfl) Nat.zero_ne_one
  · intro h
    have hfirst : (run step start [.ingest 0 "sensor_upload_gap" "critical" (some 3)]).alerts[0]? =
        some ⟨"critical", .opened, "sensor_upload_gap:device:3", 1, none, 0, 0, 0⟩ := by
      decide +kernel
    have hsecond : (run step start milderSecond).alerts[0]? =
        some ⟨"medium", .opened, "sensor_upload_gap:device:3", 2, none, 0, 1, 0⟩ := by
      decide +kernel
    obtain ⟨a', ha', hkept⟩ := h.2.1.2.2 0 _ hfirst
    obtain rfl := Option.some.inj (hsecond.symm.trans ha')
    exact absurd (hkept.2 nofun nofun) (by decide +kernel)

end EdgeLink.Alerts
