import EdgeLink.DeviceRegistry

namespace EdgeLink.Registry
open Gateway Ingress

/-! What is observed: which devices go online or offline, and when the gateway has to do with them. -/

inductive Cause
  | report | presence | silence | lost
  deriving DecidableEq

structure Flip where
  told : Told
  cause : Cause
  deriving DecidableEq

def Event.cause : Event → Cause
  | .gateway (.mqttSeen _) _ => .presence
  | .gateway (.mqttOffline _) _ => .lost
  | .gateway (.wifiDisconnect _) _ => .lost
  | .gateway _ _ => .report
  | _ => .silence

def Event.order : Event → Equiv.Perm UInt8
  | .tick order _ => order
  | _ => 1

def flips (order : Equiv.Perm UInt8) (before after : Devices) (cause : Cause) : List Flip :=
  (Devices.ids order).filterMap fun id =>
    if before.online id = after.online id then none
    else some ⟨⟨id, after.name id, after.online id⟩, cause⟩

/-- A refused item and a lost link count if they have a time. -/
def timed (device : UInt8) (ts_ms : UInt64) : Option (UInt8 × UInt64) :=
  if ts_ms > 0 then some (device, ts_ms) else none

/-- The device that a step has to do with, and the time that the message or the gateway gives. -/
def World.contact (w : World) : Event → Option (UInt8 × UInt64)
  | .gateway .upload _ =>
    if w.toTell.isSome then none
    else match w.gateway.uploading with
    | .popped item =>
      if (w.gateway.config.resolve item.2).isSome then none
      else timed item.2.deviceId item.2.timestampUnixMs
    | .bound data => some (data.deviceId, data.timestampUnixMs)
    | _ => none
  | .gateway (.receive .wifi data _) _ =>
    if (w.gateway.hand .wifi).isSome ∨ (w.gateway.config.deviceMap data.deviceId).isSome then none
    else timed data.deviceId data.timestampUnixMs
  | .gateway (.mqttSeen device_id) note => some (device_id, note.nowMs)
  | .gateway (.mqttOffline device_id) note => timed device_id note.nowMs
  | .gateway (.wifiDisconnect _) note => note.closed.bind fun c => timed c.1 note.nowMs
  | _ => none

structure Seen where
  flips : List Flip
  contacts : List (UInt8 × UInt64)
  told : List Told

def observe (w : World) (g : Seen) (e : Event) (o : Option Told) : Seen :=
  ⟨g.flips ++ flips e.order w.devices (w.step e).1.devices e.cause, g.contacts ++ (w.contact e).toList,
    g.told ++ o.toList⟩

def watch (config : Config) (timeout_ms : UInt64) (es : List Event) : World × Seen :=
  Machine.run (Machine.watched World.step observe) (start config timeout_ms, ⟨[], [], []⟩) es

theorem mem_ids (order : Equiv.Perm UInt8) (d : UInt8) : d ∈ Devices.ids order := by
  refine List.mem_map.mpr ⟨(order.symm d).toNat, List.mem_range.mpr (order.symm d).toNat_lt, ?_⟩
  rw [UInt8.ofNat_toNat, Equiv.apply_symm_apply]

theorem ids_nodup (order : Equiv.Perm UInt8) : (Devices.ids order).Nodup := by
  refine List.Nodup.map_on (fun a ha b hb h => ?_) List.nodup_range
  replace h := order.injective h
  have ha := List.mem_range.mp ha
  have hb := List.mem_range.mp hb
  have h := congrArg UInt8.toNat h
  rw [UInt8.toNat_ofNat', UInt8.toNat_ofNat'] at h
  omega

/-- Where at most one member counts. -/
theorem filterMap_single {α β : Type*} {l : List α} {a : α} {f : α → Option β} (hl : l.Nodup)
    (ha : a ∈ l) (hf : ∀ b, b ≠ a → f b = none) : l.filterMap f = (f a).toList := by
  obtain ⟨s, t, rfl⟩ := List.append_of_mem ha
  have hs : ∀ b ∈ s, f b = none := fun b hb => hf b fun h => by
    subst h
    exact (List.disjoint_of_nodup_append hl) hb List.mem_cons_self
  have ht : ∀ b ∈ t, f b = none := fun b hb => hf b fun h => by
    subst h
    exact (List.nodup_cons.mp hl.of_append_right).1 hb
  rw [List.filterMap_append, List.filterMap_eq_nil_iff.mpr hs, List.nil_append]
  cases hfa : f a with
  | none => rw [List.filterMap_cons_none hfa, List.filterMap_eq_nil_iff.mpr ht, Option.toList_none]
  | some b =>
    rw [List.filterMap_cons_some hfa, List.filterMap_eq_nil_iff.mpr ht, Option.toList_some]

section Flips
variable {order : Equiv.Perm UInt8} {before after : Devices} {cause : Cause} {d : UInt8}

theorem flips_same : flips order before before cause = [] :=
  List.filterMap_eq_nil_iff.mpr fun _ _ => if_pos rfl

/-- One device at a time, the flips are the change of its state. -/
theorem flips_device : ((flips order before after cause).filter fun f => f.told.device = d).map
      (fun f => f.told.online) =
    if before.online d = after.online d then [] else [after.online d] := by
  rw [flips, List.filter_filterMap, List.map_filterMap,
    filterMap_single (ids_nodup order) (mem_ids order d) fun id hid => ?_]
  · by_cases h : before.online d = after.online d
    · simp [h]
    · simp [h]
  · by_cases h : before.online id = after.online id
    · simp [h]
    · simp [h, hid]

theorem online_change (devices : Devices) (f : DeviceRuntimeState → DeviceRuntimeState) (id : UInt8) :
    (devices.change d f).online id =
      if id = d then (f ((devices d).getD {})).online else devices.online id := by
  by_cases h : id = d
  · subst h
    simp [Devices.online, Devices.change]
  · simp [Devices.online, Devices.change, h]

theorem flips_change (devices : Devices) (f : DeviceRuntimeState → DeviceRuntimeState) :
    flips order devices (devices.change d f) cause =
      if devices.online d = (devices.change d f).online d then []
      else [⟨⟨d, (devices.change d f).name d, (devices.change d f).online d⟩, cause⟩] := by
  rw [flips, filterMap_single (ids_nodup order) (mem_ids order d) fun id hid => ?_]
  · split <;> rfl
  · rw [online_change, if_neg hid, if_pos rfl]

end Flips

/-- What `f` leaves in the record of a device: whether it is online then, and the time. -/
structure Marks (d : UInt8) (f : DeviceRuntimeState → DeviceRuntimeState) (online : Option Bool)
    (stamp : Option UInt64) : Prop where
  id : ∀ s, s.deviceId = d ∨ s.configured = false → (f s).deviceId = d
  online : ∀ s, (f s).online = online.getD s.online
  stamp : ∀ s, (f s).lastReportUnixMs = stamp.getD s.lastReportUnixMs

section Marks
variable {d : UInt8} {ts_ms : UInt64} {reason : String}

def stampOf (ts_ms : UInt64) : Option UInt64 := if ts_ms > 0 then some ts_ms else none

theorem timed_eq : timed d ts_ms = (stampOf ts_ms).map (d, ·) := by
  unfold timed stampOf
  split <;> rfl

theorem stampOf_getD (last : UInt64) :
    (stampOf ts_ms).getD last = if ts_ms > 0 then ts_ms else last := by
  unfold stampOf
  split <;> rfl

theorem marks_event (data : SensorData) :
    Marks data.deviceId (·.onEvent data) (some true) (some data.timestampUnixMs) := by
  refine ⟨fun s hs => ?_, fun s => rfl, fun s => rfl⟩
  unfold DeviceRuntimeState.onEvent
  by_cases hc : s.configured = true
  · simpa [hc] using hs
  · simp [hc]

theorem marks_error : Marks d (·.onError d reason ts_ms) none (stampOf ts_ms) :=
  ⟨fun _ _ => rfl, fun _ => rfl, fun _ => (stampOf_getD _).symm⟩

theorem marks_online (link_type device_name summary : String) :
    Marks d (·.onTransportOnline d link_type ts_ms device_name summary) (some true) (some ts_ms) :=
  ⟨fun _ _ => rfl, fun _ => rfl, fun _ => rfl⟩

theorem marks_disconnected (link_type : String) :
    Marks d (·.onTransportDisconnected d link_type ts_ms reason) (some false) (stampOf ts_ms) := by
  have hboth : ∀ s : DeviceRuntimeState,
      (s.onTransportDisconnected d link_type ts_ms reason).deviceId = d ∧
      (s.onTransportDisconnected d link_type ts_ms reason).online = false ∧
      (s.onTransportDisconnected d link_type ts_ms reason).lastReportUnixMs =
        (stampOf ts_ms).getD s.lastReportUnixMs := by
    intro s
    unfold DeviceRuntimeState.onTransportDisconnected
    dsimp only
    generalize (if link_type = "" then (s.named d).linkType else link_type) = link
    rw [stampOf_getD]
    by_cases hw : link = "wifi"
    · rw [if_pos hw]
      exact ⟨rfl, rfl, rfl⟩
    · rw [if_neg hw]
      exact ⟨rfl, rfl, rfl⟩
  exact ⟨fun s _ => (hboth s).1, fun s => (hboth s).2.1, fun s => (hboth s).2.2⟩

/-- A session that is replaced is marked twice. -/
theorem Marks.twice {f g : DeviceRuntimeState → DeviceRuntimeState} {online : Option Bool}
    {stamp : Option UInt64} (hf : Marks d f online stamp) (hg : Marks d g online stamp) :
    Marks d (fun s => g (f s)) online stamp := by
  refine ⟨fun s hs => hg.id _ (Or.inl (hf.id s hs)), fun s => ?_, fun s => ?_⟩
  · rw [hg.online, hf.online]
    cases online <;> rfl
  · rw [hg.stamp, hf.stamp]
    cases stamp <;> rfl

theorem change_change (devices : Devices) (f g : DeviceRuntimeState → DeviceRuntimeState) :
    (devices.change d f).change d g = devices.change d fun s => g (f s) := by
  unfold Devices.change
  rw [Function.update_self, Option.getD_some, Function.update_idem]

end Marks

/-- The gateway leaves the registry alone, or marks one device. -/
def World.Notes (w : World) (e : Ingress.Event) (note : Note) : Prop :=
  w.noted e note = (w.devices, none) ∧ w.contact (.gateway e note) = none ∨
  ∃ d f online stamp, Marks d f online stamp ∧ (w.noted e note).1 = w.devices.change d f ∧
    w.contact (.gateway e note) = stamp.map (d, ·) ∧
    (online = some true ∧ (Event.gateway e note).cause = .presence ∧ (w.noted e note).2 = none ∨
      online = some true ∧ (Event.gateway e note).cause = .report ∧
        (w.noted e note).2 = (if w.devices.online d then none
          else some (d, (w.devices.change d f).name d)) ∨
      online = some false ∧ (Event.gateway e note).cause = .lost ∧ (w.noted e note).2 = none ∨
      online = none ∧ (w.noted e note).2 = none)

section Notes
variable (w : World) (note : Note)

theorem notes_upload (hw : w.toTell.isSome = false) : w.Notes .upload note := by
  unfold World.Notes World.noted World.contact World.uploadItem
  dsimp only
  simp only [hw, Bool.false_eq_true, if_false]
  cases w.gateway.uploading with
  | idle => exact Or.inl ⟨rfl, rfl⟩
  | accepted data => exact Or.inl ⟨rfl, rfl⟩
  | popped item =>
    dsimp only
    split
    · exact Or.inl ⟨rfl, rfl⟩
    · exact Or.inr ⟨_, _, none, _, marks_error, rfl, timed_eq, Or.inr (Or.inr (Or.inr ⟨rfl, rfl⟩))⟩
  | bound data =>
    exact Or.inr ⟨_, _, some true, _, marks_event data, rfl, rfl, Or.inr (Or.inl ⟨rfl, rfl, rfl⟩)⟩

theorem notes_receive (p : Ingress.Producer) (data : Gateway.SensorData)
    (last_device : Option UInt8) :
    w.Notes (.receive p data last_device) note := by
  cases p with
  | wifi =>
    unfold World.Notes World.noted World.contact
    dsimp only
    split
    · exact Or.inl ⟨rfl, rfl⟩
    · exact Or.inr ⟨_, _, none, _, marks_error, rfl, timed_eq, Or.inr (Or.inr (Or.inr ⟨rfl, rfl⟩))⟩
  | serial => exact Or.inl ⟨rfl, rfl⟩
  | tcp => exact Or.inl ⟨rfl, rfl⟩
  | mqtt => exact Or.inl ⟨rfl, rfl⟩

theorem notes_wifiDisconnect (lost : UInt8 → Bool) : w.Notes (.wifiDisconnect lost) note := by
  unfold World.Notes World.noted World.contact
  dsimp only
  cases note.closed with
  | none => exact Or.inl ⟨rfl, rfl⟩
  | some c =>
    obtain ⟨device_id, reason, mark_replace⟩ := c
    cases mark_replace with
    | false =>
      exact Or.inr ⟨_, _, some false, _, marks_disconnected _, rfl, timed_eq,
        Or.inr (Or.inr (Or.inl ⟨rfl, rfl, rfl⟩))⟩
    | true =>
      refine Or.inr ⟨device_id, fun s => (s.onTransportDisconnected device_id "wifi" note.nowMs
          reason).onTransportDisconnected device_id "wifi" note.nowMs "tcp_replaced", some false, _,
        (marks_disconnected _).twice (marks_disconnected _), ?_, timed_eq,
        Or.inr (Or.inr (Or.inl ⟨rfl, rfl, rfl⟩))⟩
      exact change_change w.devices (·.onTransportDisconnected device_id "wifi" note.nowMs reason)
        (·.onTransportDisconnected device_id "wifi" note.nowMs "tcp_replaced")

theorem noted_cases (e : Ingress.Event) (hw : w.waits e = false) : w.Notes e note := by
  cases e with
  | upload => exact notes_upload w note hw
  | receive p data last_device => exact notes_receive w note p data last_device
  | mqttSeen device_id =>
    exact Or.inr ⟨_, _, some true, _, marks_online _ _ _, rfl, rfl, Or.inl ⟨rfl, rfl, rfl⟩⟩
  | mqttOffline device_id =>
    exact Or.inr ⟨_, _, some false, _, marks_disconnected _, rfl, timed_eq,
      Or.inr (Or.inr (Or.inl ⟨rfl, rfl, rfl⟩))⟩
  | wifiDisconnect lost => exact notes_wifiDisconnect w note lost
  | push p => exact Or.inl ⟨rfl, rfl⟩
  | tcpTimeout last_device lost => exact Or.inl ⟨rfl, rfl⟩
  | tcpDisconnect last_device lost => exact Or.inl ⟨rfl, rfl⟩
  | brokerDisconnect => exact Or.inl ⟨rfl, rfl⟩
  | otaLock d transport => exact Or.inl ⟨rfl, rfl⟩
  | otaUnlock d => exact Or.inl ⟨rfl, rfl⟩
  | otaMute d => exact Or.inl ⟨rfl, rfl⟩
  | otaUnmute d => exact Or.inl ⟨rfl, rfl⟩

end Notes

def Seen.by (g : Seen) (cause : Cause) : List Told :=
  (g.flips.filter (·.cause = cause)).map (·.told)

/-- The states that a device has gone to. -/
def Seen.course (g : Seen) (d : UInt8) : List Bool :=
  (g.flips.filter fun f => f.told.device = d).map fun f => f.told.online

def Seen.lastContact (g : Seen) (d : UInt8) : Option (UInt8 × UInt64) :=
  (g.contacts.filter fun c => c.1 = d).getLast?

/-- What is told and what is still to be told. -/
structure Telling (w : World) (g : Seen) : Prop where
  online : g.told.filter (·.online) ++ w.toTell.toList.map (fun t => ⟨t.1, t.2, true⟩) = g.by .report
  offline : g.told.filter (¬·.online) ++ w.transitions.map (fun t => ⟨t.1, t.2, false⟩) =
    g.by .silence
  causes : ∀ f ∈ g.flips, f.told.online = true ↔ f.cause = .report ∨ f.cause = .presence

structure Inv (w : World) (g : Seen) : Prop where
  keyed : ∀ d s, w.devices d = some s → s.deviceId = d
  telling : Telling w g
  alternate : ∀ d, (false :: g.course d).IsChain (· ≠ ·) ∧
    (g.course d).getLastD false = w.devices.online d
  stamped : ∀ d, ((w.devices d).getD {}).lastReportUnixMs =
    ((g.lastContact d).map (·.2)).getD 0

section Step
variable {w : World} {g : Seen}

theorem step_waits {e : Ingress.Event} (note : Note) (hw : w.waits e = true) :
    w.step (.gateway e note) = (w, none) := if_pos hw

theorem step_gateway {e : Ingress.Event} (note : Note) (hw : w.waits e = false) :
    w.step (.gateway e note) =
      ({ w with gateway := (w.gateway.step e).1, devices := (w.noted e note).1,
                toTell := if (w.noted e note).2.isSome then (w.noted e note).2 else w.toTell }, none) :=
  if_neg (ne_true_of_eq_false hw)

theorem alternate_step {before after : Devices} {l : List Bool} {d : UInt8}
    (h : (false :: l).IsChain (· ≠ ·) ∧ l.getLastD false = before.online d) :
    (false :: (l ++ if before.online d = after.online d then [] else [after.online d])).IsChain
        (· ≠ ·) ∧
      (l ++ if before.online d = after.online d then [] else [after.online d]).getLastD false =
        after.online d := by
  by_cases hd : before.online d = after.online d
  · rw [if_pos hd, List.append_nil, ← hd]
    exact h
  · rw [if_neg hd]
    refine ⟨?_, by rw [List.getLastD_concat]⟩
    rw [← List.cons_append]
    refine h.1.append (List.isChain_singleton _) fun x hx y hy => ?_
    have hlast : (false :: l).getLast? = some (l.getLastD false) := by
      rw [List.getLast?_cons, List.getLastD_eq_getLast?]
    rw [hlast, h.2] at hx
    cases hx
    cases hy
    exact hd

theorem Inv.alternate_step (h : Inv w g) (e : Event) (d : UInt8) :
    (false :: (observe w g e (w.step e).2).course d).IsChain (· ≠ ·) ∧
      ((observe w g e (w.step e).2).course d).getLastD false = (w.step e).1.devices.online d := by
  have hcourse : (observe w g e (w.step e).2).course d = g.course d ++
      if w.devices.online d = (w.step e).1.devices.online d then []
      else [(w.step e).1.devices.online d] := by
    have hflips : ((flips e.order w.devices (w.step e).1.devices e.cause).filter
          fun f => f.told.device = d).map (fun f => f.told.online) =
        if w.devices.online d = (w.step e).1.devices.online d then []
        else [(w.step e).1.devices.online d] := flips_device
    rw [← hflips, observe, Seen.course, List.filter_append, List.map_append]
    rfl
  rw [hcourse]
  exact Registry.alternate_step (h.alternate d)

/-- A step of the gateway: its flips, and what it has to tell. -/
theorem gateway_flips (w : World) (e : Ingress.Event) (note : Note) (hw : w.waits e = false) :
    let f := flips (Event.gateway e note).order w.devices (w.noted e note).1 (Event.gateway e note).cause
    f.filter (·.cause = .silence) = [] ∧
    (f.filter (·.cause = .report)).map (·.told) =
      (w.noted e note).2.toList.map (fun t => ⟨t.1, t.2, true⟩) ∧
    ∀ x ∈ f, x.told.online = true ↔ x.cause = .report ∨ x.cause = .presence := by
  intro f
  obtain ⟨hsame, -⟩ | ⟨d, mark, online, stamp, hmark, hdev, -, hcase⟩ := noted_cases w note e hw
  · have hf : f = [] := by
      show flips (Event.gateway e note).order w.devices (w.noted e note).1 _ = []
      rw [hsame]
      exact flips_same
    rw [hf, hsame]
    exact ⟨rfl, rfl, fun x hx => by cases hx⟩
  · have hnow : (w.devices.change d mark).online d =
        online.getD (w.devices.online d) := by
      rw [online_change, if_pos rfl, hmark.online]
      cases online with
      | some b => rfl
      | none =>
        unfold Devices.online
        cases w.devices d <;> rfl
    have hf : f = if w.devices.online d = online.getD (w.devices.online d) then []
        else [⟨⟨d, (w.devices.change d mark).name d, online.getD (w.devices.online d)⟩,
          (Event.gateway e note).cause⟩] := by
      show flips (Event.gateway e note).order w.devices (w.noted e note).1 _ = _
      rw [hdev, flips_change, hnow]
    rw [hf]
    -- by a report, by a presence, by a lost link, or not at all
    obtain ⟨rfl, hc, h2⟩ | ⟨rfl, hc, h2⟩ | ⟨rfl, hc, h2⟩ | ⟨rfl, h2⟩ := hcase
    · rw [hc, h2]
      cases w.devices.online d <;> simp
    · rw [hc, h2]
      cases w.devices.online d <;> simp
    · rw [hc, h2]
      cases w.devices.online d <;> simp
    · rw [h2]
      simp

/-- The devices that a tick takes offline, in their order. -/
theorem tick_flips (hkeyed : ∀ d s, w.devices d = some s → s.deviceId = d)
    (order : Equiv.Perm UInt8) (now_ms : UInt64) :
    flips order w.devices (w.devices.markOfflineByTimeout order now_ms w.timeoutMs).1 .silence =
      (w.devices.markOfflineByTimeout order now_ms w.timeoutMs).2.map
        fun t => ⟨⟨t.1, t.2, false⟩, .silence⟩ := by
  unfold flips Devices.markOfflineByTimeout
  rw [List.map_filterMap]
  refine List.filterMap_congr fun id _ => ?_
  unfold Devices.online Devices.name
  cases hs : w.devices id with
  | none => simp [hs]
  | some s =>
    have hid := hkeyed id s hs
    by_cases hsilent : s.silent now_ms w.timeoutMs = true
    · have honline : s.online = true := by
        unfold DeviceRuntimeState.silent at hsilent
        simp only [Bool.and_eq_true] at hsilent
        exact hsilent.1.1.1
      simp [hs, hsilent, honline, hid]
    · simp [hs, hsilent]

theorem Marks.keyed {d : UInt8} {f : DeviceRuntimeState → DeviceRuntimeState} {online : Option Bool}
    {stamp : Option UInt64} (hf : Marks d f online stamp) {devices : Devices}
    (h : ∀ d s, devices d = some s → s.deviceId = d) :
    ∀ d' s, devices.change d f d' = some s → s.deviceId = d' := by
  intro d' s hs
  by_cases hd : d' = d
  · subst hd
    rw [Devices.change, Function.update_self] at hs
    cases hs
    refine hf.id _ ?_
    cases hold : devices d' with
    | none => exact Or.inr rfl
    | some s => exact Or.inl (h d' s hold)
  · rw [Devices.change, Function.update_of_ne hd] at hs
    exact h d' s hs

theorem lastContact_append (g : Seen) (c : Option (UInt8 × UInt64)) (d : UInt8) :
    (((g.contacts ++ c.toList).filter fun x => x.1 = d).getLast?).map (·.2) =
      ((c.filter fun x => x.1 = d).map (·.2)).or ((g.lastContact d).map (·.2)) := by
  unfold Seen.lastContact
  rw [List.filter_append, List.getLast?_append]
  cases c with
  | none => simp
  | some x =>
    by_cases hx : x.1 = d
    · simp [Option.filter_some, hx]
    · simp [Option.filter_some, hx]

theorem Marks.stamped {d : UInt8} {f : DeviceRuntimeState → DeviceRuntimeState} {online : Option Bool}
    {stamp : Option UInt64} (hf : Marks d f online stamp) {devices : Devices} {d' : UInt8}
    {last : Option UInt64} (h : ((devices d').getD {}).lastReportUnixMs = last.getD 0) :
    ((devices.change d f d').getD {}).lastReportUnixMs =
      ((((stamp.map (d, ·)).filter fun x => x.1 = d').map (·.2)).or last).getD 0 := by
  by_cases hd : d' = d
  · subst hd
    rw [Devices.change, Function.update_self, Option.getD_some, hf.stamp, h]
    cases stamp <;> simp [Option.filter_some]
  · rw [Devices.change, Function.update_of_ne hd, h]
    cases stamp <;> simp [Option.filter_some, Ne.symm hd]

theorem offline_last (devices : Devices) (order : Equiv.Perm UInt8) (now_ms timeout_ms : UInt64) (d : UInt8) :
    (((devices.markOfflineByTimeout order now_ms timeout_ms).1 d).getD {}).lastReportUnixMs =
      ((devices d).getD {}).lastReportUnixMs := by
  unfold Devices.markOfflineByTimeout
  dsimp only
  cases devices d with
  | none => rfl
  | some s =>
    rw [Option.map_some, Option.getD_some, Option.getD_some]
    split <;> rfl

/-- What a step leaves of the registry. -/
theorem Inv.records (h : Inv w g) (e : Event) :
    (∀ d s, (w.step e).1.devices d = some s → s.deviceId = d) ∧
    ∀ d, (((w.step e).1.devices d).getD {}).lastReportUnixMs =
      (((observe w g e (w.step e).2).lastContact d).map (·.2)).getD 0 := by
  have hlast : ∀ d, (((observe w g e (w.step e).2).lastContact d).map (·.2)) =
      (((w.contact e).filter fun x => x.1 = d).map (·.2)).or ((g.lastContact d).map (·.2)) :=
    lastContact_append g (w.contact e)
  simp only [hlast]
  cases e with
  | gateway e note =>
    by_cases hw : w.waits e = true
    · have hstep : (w.step (.gateway e note)).1 = w := congrArg Prod.fst (step_waits note hw)
      have hcontact : w.contact (.gateway e note) = none := by
        cases e with
        | upload => exact if_pos hw
        | _ => cases hw
      rw [hstep, hcontact]
      exact ⟨h.keyed, h.stamped⟩
    · have hw := eq_false_of_ne_true hw
      rw [step_gateway note hw]
      -- a step of the gateway changes no entry, or it changes the one whose contact it is
      obtain ⟨hsame, hcontact⟩ | ⟨d, f, online, stamp, hf, hdev, hcontact, -⟩ :=
        noted_cases w note e hw
      · rw [hsame, hcontact]
        exact ⟨h.keyed, h.stamped⟩
      · rw [hdev, hcontact]
        exact ⟨hf.keyed h.keyed, fun d' => hf.stamped (h.stamped d')⟩
  | tellOnline =>
    have hstep : (w.step .tellOnline).1.devices = w.devices := by
      unfold World.step
      cases w.toTell <;> rfl
    rw [hstep]
    exact ⟨h.keyed, h.stamped⟩
  | tick order now_ms =>
    unfold World.step
    cases w.transitions with
    | cons t rest => exact ⟨h.keyed, h.stamped⟩
    | nil =>
      refine ⟨fun d s hs => ?_, fun d => ?_⟩
      · obtain ⟨s', hs', rfl⟩ := Option.map_eq_some_iff.mp hs
        rw [← h.keyed d s' hs']
        split <;> rfl
      · exact (offline_last w.devices order now_ms w.timeoutMs d).trans (h.stamped d)
  | tellOffline =>
    have hstep : (w.step .tellOffline).1.devices = w.devices := by
      unfold World.step
      cases w.transitions <;> rfl
    rw [hstep]
    exact ⟨h.keyed, h.stamped⟩

theorem by_append (g : Seen) (f : List Flip) (contacts : List (UInt8 × UInt64)) (told : List Told)
    (cause : Cause) : (Seen.mk (g.flips ++ f) contacts told).by cause =
      g.by cause ++ (f.filter (·.cause = cause)).map (·.told) := by
  rw [Seen.by, List.filter_append, List.map_append]
  rfl

/-- `uploaderLoop` has nothing to tell when it finds something. -/
theorem noted_waits {e : Ingress.Event} {note : Note} (hw : w.waits e = false)
    (h : (w.noted e note).2.isSome = true) : w.toTell = none := by
  cases e with
  | upload => exact Option.isNone_iff_eq_none.mp (Option.isSome_eq_false_iff.mp hw)
  | receive p data last_device =>
    cases p with
    | wifi =>
      unfold World.noted at h
      dsimp only at h
      split at h <;> cases h
    | _ => cases h
  | wifiDisconnect lost =>
    unfold World.noted at h
    dsimp only at h
    split at h <;> cases h
  | _ => cases h

theorem Telling.gateway (h : Telling w g) {e : Ingress.Event} {note : Note}
    (hw : w.waits e = false) : Telling (w.step (.gateway e note)).1
      (observe w g (.gateway e note) (w.step (.gateway e note)).2) := by
  obtain ⟨hsilence, hreport, hcauses⟩ := gateway_flips w e note hw
  rw [step_gateway note hw, observe, step_gateway note hw]
  dsimp only [Option.toList_none]
  rw [List.append_nil]
  have htell : (if (w.noted e note).2.isSome then (w.noted e note).2 else w.toTell).toList =
      w.toTell.toList ++ (w.noted e note).2.toList := by
    cases hr : (w.noted e note).2 with
    | none => simp
    | some t => simp [noted_waits hw (by rw [hr]; rfl)]
  refine ⟨?_, ?_, fun f hf => ?_⟩
  · rw [by_append, hreport, htell, List.map_append, ← List.append_assoc, h.online]
  · rw [by_append, hsilence, List.map_nil, List.append_nil]
    exact h.offline
  · rcases List.mem_append.mp hf with hf | hf
    · exact h.causes f hf
    · exact hcauses f hf

theorem Telling.quiet (h : Telling w g) {e : Event} (hs : (w.step e).1.devices = w.devices)
    (hon : (w.step e).2.toList.filter (·.online) ++
        (w.step e).1.toTell.toList.map (fun t => ⟨t.1, t.2, true⟩) =
      w.toTell.toList.map fun t => ⟨t.1, t.2, true⟩)
    (hoff : (w.step e).2.toList.filter (¬·.online) ++
        (w.step e).1.transitions.map (fun t => ⟨t.1, t.2, false⟩) =
      w.transitions.map fun t => ⟨t.1, t.2, false⟩) :
    Telling (w.step e).1 (observe w g e (w.step e).2) := by
  have hf : flips e.order w.devices (w.step e).1.devices e.cause = [] := by
    rw [hs]
    exact flips_same
  rw [observe, hf, List.append_nil]
  refine ⟨?_, ?_, h.causes⟩
  · dsimp only
    rw [List.filter_append, List.append_assoc, hon]
    exact h.online
  · dsimp only
    rw [List.filter_append, List.append_assoc, hoff]
    exact h.offline

theorem Telling.tick (h : Telling w g) (hkeyed : ∀ d s, w.devices d = some s → s.deviceId = d)
    (order : Equiv.Perm UInt8) (now_ms : UInt64) (hnone : w.transitions = []) :
    Telling (w.step (.tick order now_ms)).1
      (observe w g (.tick order now_ms) (w.step (.tick order now_ms)).2) := by
  have hstep : w.step (.tick order now_ms) =
      ({ w with devices := (w.devices.markOfflineByTimeout order now_ms w.timeoutMs).1,
                transitions := (w.devices.markOfflineByTimeout order now_ms w.timeoutMs).2 }, none) := by
    unfold World.step
    rw [hnone]
  have hflips := tick_flips hkeyed order now_ms
  have hoff := h.offline
  rw [hnone, List.map_nil, List.append_nil] at hoff
  rw [observe, hstep]
  dsimp only [Event.cause, Event.order, Option.toList_none]
  rw [hflips, List.append_nil]
  refine ⟨?_, ?_, fun f hf => ?_⟩
  · rw [by_append, List.filter_map]
    simpa [Function.comp_def] using h.online
  · rw [by_append, List.filter_map, hoff]
    simp [Function.comp_def]
  · rcases List.mem_append.mp hf with hf | hf
    · exact h.causes f hf
    · obtain ⟨t, -, rfl⟩ := List.mem_map.mp hf
      simp

theorem Telling.step (h : Telling w g) (hkeyed : ∀ d s, w.devices d = some s → s.deviceId = d)
    (e : Event) : Telling (w.step e).1 (observe w g e (w.step e).2) := by
  cases e with
  | gateway e note =>
    by_cases hw : w.waits e = true
    · refine h.quiet ?_ ?_ ?_ <;> rw [step_waits note hw] <;> rfl
    · exact h.gateway (eq_false_of_ne_true hw)
  | tellOnline =>
    cases ht : w.toTell with
    | none => refine h.quiet ?_ ?_ ?_ <;> simp [World.step, ht]
    | some t => refine h.quiet ?_ ?_ ?_ <;> simp [World.step, ht]
  | tick order now_ms =>
    cases ht : w.transitions with
    | nil => exact h.tick hkeyed order now_ms ht
    | cons t rest => refine h.quiet ?_ ?_ ?_ <;> simp [World.step, ht]
  | tellOffline =>
    cases ht : w.transitions with
    | nil => refine h.quiet ?_ ?_ ?_ <;> simp [World.step, ht]
    | cons t rest => refine h.quiet ?_ ?_ ?_ <;> simp [World.step, ht]

theorem Inv.step (h : Inv w g) (e : Event) :
    Inv (w.step e).1 (observe w g e (w.step e).2) :=
  ⟨(h.records e).1, h.telling.step h.keyed e, h.alternate_step e, (h.records e).2⟩

end Step

theorem Inv.start (config : Config) (timeout_ms : UInt64) :
    Inv (start config timeout_ms) ⟨[], [], []⟩ := by
  have hload : ∀ d, (loadConfiguredDevices config.deviceMap).online d = false ∧
      (((loadConfiguredDevices config.deviceMap) d).getD {}).lastReportUnixMs = 0 := by
    intro d
    unfold Devices.online loadConfiguredDevices
    cases config.deviceMap d <;> exact ⟨rfl, rfl⟩
  refine ⟨fun d s hs => ?_, ⟨rfl, rfl, fun f hf => by cases hf⟩, fun d => ⟨?_, (hload d).1.symm⟩,
    fun d => (hload d).2⟩
  · obtain ⟨dev, -, rfl⟩ := Option.map_eq_some_iff.mp hs
    rfl
  · exact List.isChain_singleton _

theorem Inv.watch (config : Config) (timeout_ms : UInt64) (es : List Event) :
    Inv (watch config timeout_ms es).1 (watch config timeout_ms es).2 :=
  Machine.run_keeps (I := fun v : World × Seen => Inv v.1 v.2) (fun _ e h => h.step e)
    (Inv.start config timeout_ms) es

theorem timeoutMs_watch (config : Config) (timeout_ms : UInt64) (es : List Event) :
    (watch config timeout_ms es).1.timeoutMs = timeout_ms := by
  refine Machine.run_keeps (I := fun v : World × Seen => v.1.timeoutMs = timeout_ms)
    (fun v e h => ?_) rfl es
  refine Eq.trans ?_ h
  show (v.1.step e).1.timeoutMs = v.1.timeoutMs
  unfold World.step
  cases e with
  | gateway e note =>
    dsimp only
    split <;> rfl
  | tellOnline =>
    dsimp only
    split <;> rfl
  | tick order now_ms =>
    dsimp only
    split <;> rfl
  | tellOffline =>
    dsimp only
    split <;> rfl

/-- However the threads that take data in, the uploader and the watch over silent devices interleave:
the `device_online` events are the times a report brought a device online, and the `device_offline`
events the times its silence took it offline, in order; presence messages and lost links change the
state untold; and the changes of each device alternate up to the state that it is in. -/
theorem devices_told (config : Config) (timeout_ms : UInt64) (es : List Event) :
    let w := (watch config timeout_ms es).1
    let g := (watch config timeout_ms es).2
    g.told.filter (·.online) ++ w.toTell.toList.map (fun t => ⟨t.1, t.2, true⟩) = g.by .report ∧
    g.told.filter (¬·.online) ++ w.transitions.map (fun t => ⟨t.1, t.2, false⟩) = g.by .silence ∧
    (∀ f ∈ g.flips, f.told.online = true ↔ f.cause = .report ∨ f.cause = .presence) ∧
    ∀ d, (false :: g.course d).IsChain (· ≠ ·) ∧ (g.course d).getLastD false = w.devices.online d :=
  have h := Inv.watch config timeout_ms es
  ⟨h.telling.online, h.telling.offline, h.telling.causes, h.alternate⟩

theorem offline_online (devices : Devices) (order : Equiv.Perm UInt8) (now_ms timeout_ms : UInt64) (d : UInt8) :
    (devices.markOfflineByTimeout order now_ms timeout_ms).1.online d =
      (devices.online d && !((devices d).getD {}).silent now_ms timeout_ms) := by
  unfold Devices.online Devices.markOfflineByTimeout
  dsimp only
  cases devices d with
  | none => rfl
  | some s =>
    rw [Option.map_some, Option.map_some, Option.getD_some, Option.map_some, Option.getD_some,
      Option.getD_some]
    by_cases hs : s.silent now_ms timeout_ms = true
    · rw [if_pos hs, hs, Bool.not_true, Bool.and_false]
    · rw [if_neg hs, eq_false_of_ne_true hs, Bool.not_false, Bool.and_true]

theorem silent_iff {devices : Devices} {d : UInt8} (h : devices.online d = true)
    (now_ms timeout_ms : UInt64) : ((devices d).getD {}).silent now_ms timeout_ms = true ↔
      ((devices d).getD {}).lastReportUnixMs ≠ 0 ∧ ((devices d).getD {}).lastReportUnixMs ≤ now_ms ∧
        timeout_ms ≤ now_ms - ((devices d).getD {}).lastReportUnixMs := by
  have honline : ((devices d).getD {}).online = true := by
    unfold Devices.online at h
    cases hs : devices d with
    | none =>
      rw [hs] at h
      cases h
    | some s =>
      rw [hs] at h
      exact h
  simp [DeviceRuntimeState.silent, honline, and_assoc]

/-- A look for silent devices takes those offline that are online and whose last contact, by the time
that it brought along, is long enough ago, and no others: a time that lies ahead keeps a device
online, and so does an item that is refused. -/
theorem silence_exact (config : Config) (timeout_ms : UInt64) (es : List Event)
    (order : Equiv.Perm UInt8) (now_ms : UInt64) (d : UInt8) :
    let w := (watch config timeout_ms es).1
    let g := (watch config timeout_ms es).2
    let after := (watch config timeout_ms (es ++ [.tick order now_ms])).1
    after.devices.online d = true ↔ w.devices.online d = true ∧
      ¬(w.transitions = [] ∧ ∃ ts, g.lastContact d = some (d, ts) ∧ ts ≠ 0 ∧ ts ≤ now_ms ∧
        timeout_ms ≤ now_ms - ts) := by
  intro w g after
  have h : Inv w g := Inv.watch config timeout_ms es
  have hafter : after = (w.step (.tick order now_ms)).1 := by
    show (watch config timeout_ms (es ++ [.tick order now_ms])).1 = _
    rw [watch, Machine.run_append]
    rfl
  have htimeout : w.timeoutMs = timeout_ms := timeoutMs_watch config timeout_ms es
  have hcontact : ∀ c, g.lastContact d = some c → c.1 = d := fun c hc =>
    of_decide_eq_true (List.mem_filter.mp (List.mem_of_getLast? hc)).2
  rw [hafter]
  unfold World.step
  cases ht : w.transitions with
  | cons t rest => simp
  | nil =>
    dsimp only
    rw [htimeout, offline_online, Bool.and_eq_true, Bool.not_eq_true']
    refine and_congr_right fun honline => ?_
    rw [← Bool.not_eq_true, silent_iff honline, h.stamped]
    refine not_congr ?_
    cases hc : g.lastContact d with
    | none => simp
    | some c =>
      obtain ⟨d', ts⟩ := c
      have hd : d' = d := hcontact _ hc
      subst hd
      simp

end EdgeLink.Registry
