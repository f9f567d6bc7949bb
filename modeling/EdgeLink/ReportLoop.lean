import EdgeLink.ReportTask

namespace EdgeLink.Report
open Binary32 LittleEndian Storage Gateway

/-- The gateway's answer to a report that its parser has given out. -/
def reportAnswer (item : SensorData) : Option Bytes :=
  if item.frameType = .sensorData ∧ 0 < item.seq then
    some (buildReportAckFrame item.deviceId item.seq.toUInt32)
  else none

/-- The value is `x` tenths, or nearer to them than a quarter of one, as a `float` is. -/
def Tenths (value : ℚ) (x : ℤ) : Prop := |value * 10 - x| ≤ 1 / 4

theorem gwFloatToX10_tenths {value : ℚ} {x : Int16} (h : Tenths value x.toInt) :
    gwFloatToX10 value = x := by
  have hlo : (-32768 : ℚ) ≤ x.toInt := by exact_mod_cast x.le_toInt
  have hhi : (x.toInt : ℚ) ≤ 32767 := by exact_mod_cast x.toInt_le
  obtain ⟨hbelow, habove⟩ := abs_le.mp h
  have hbound : |value * 10| ≤ 32769 := abs_le.mpr ⟨by linarith, by linarith⟩
  unfold gwFloatToX10
  rw [round32_top, round32_bottom]
  -- beyond a limit the number of tenths is the limit itself
  split_ifs with hhigh hlow hpos
  · have hlarge : (32766 : ℚ) < x.toInt := by linarith
    have hint : 32766 < x.toInt := by exact_mod_cast hlarge
    have hle : x.toInt ≤ 32767 := x.toInt_le
    exact (Int16.toInt_inj.mp (by rw [show (32767 : Int16).toInt = 32767 from rfl]; omega)).symm
  · have hsmall : (x.toInt : ℚ) < -32767 := by linarith
    have hint : x.toInt < -32767 := by exact_mod_cast hsmall
    have hge : -32768 ≤ x.toInt := x.le_toInt
    exact (Int16.toInt_inj.mp (by rw [show (-32768 : Int16).toInt = -32768 from rfl]; omega)).symm
  · have hnear := abs_le.mp (round32_add_near (d := 1 / 2) hbound (by norm_num) (by norm_num))
    have hfloor : ⌊round32 (round32 (value * 10) + 1 / 2)⌋ = x.toInt := by
      rw [Int.floor_eq_iff]
      norm_num at hnear ⊢
      constructor <;> linarith
    rw [hfloor, Int16.ofInt_toInt]
  · have hnear := abs_le.mp (round32_add_near (d := -1 / 2) hbound (by norm_num) (by norm_num))
    have hceil : ⌈round32 (round32 (value * 10) + -1 / 2)⌉ = x.toInt := by
      rw [Int.ceil_eq_iff]
      norm_num at hnear ⊢
      constructor <;> linarith
    rw [hceil, Int16.ofInt_toInt]

theorem gwFloatToU16X10_tenths {value : ℚ} {x : UInt16} (h : Tenths value x.toNat) :
    gwFloatToU16X10 value = x := by
  have hlt := x.toNat_lt
  have hhi : (x.toNat : ℚ) ≤ 65535 := by exact_mod_cast Nat.le_of_lt_succ hlt
  have hnat : (0 : ℚ) ≤ x.toNat := Nat.cast_nonneg _
  unfold Tenths at h
  push_cast at h
  obtain ⟨hbelow, habove⟩ := abs_le.mp h
  have hbound : |value * 10| ≤ 65536 := abs_le.mpr ⟨by linarith, by linarith⟩
  have hnear := abs_le.mp (round32_add_near (d := 1 / 2) hbound (by norm_num) (by norm_num))
  have hfloor : ⌊round32 (round32 (value * 10) + 1 / 2)⌋ = x.toNat := by
    rw [Int.floor_eq_iff]
    norm_num at hnear ⊢
    constructor <;> linarith
  unfold gwFloatToU16X10
  dsimp only
  rw [hfloor]
  split_ifs with h0 h1
  · have hz : (x.toNat : ℚ) < 1 := by linarith
    have hz' : x.toNat < 1 := by exact_mod_cast hz
    exact (UInt16.toNat.inj (Nat.lt_one_iff.mp hz')).symm
  · omega
  · apply UInt16.toNat.inj
    rw [UInt16.ofInt, UInt16.toNat_ofNat']
    omega

/-- Every number of tenths that fits a field has a `float` that stands for it. -/
theorem tenths_float {x : ℤ} (h : |x| ≤ 65535) : Tenths (round32 (x / 10)) x := by
  have hx : |(x : ℚ)| ≤ 65535 := by exact_mod_cast h
  have hten : |(x : ℚ) / 10| = |(x : ℚ)| / 10 := by rw [abs_div, abs_of_pos (by norm_num : (0 : ℚ) < 10)]
  have hnear := round32_near ((x : ℚ) / 10)
  rw [hten] at hnear
  have hsplit : round32 ((x : ℚ) / 10) * 10 - x = (round32 ((x : ℚ) / 10) - x / 10) * 10 := by ring
  unfold Tenths
  rw [hsplit, abs_mul, abs_of_pos (by norm_num : (0 : ℚ) < 10)]
  norm_num at hnear ⊢
  linarith

/-- What the gateway reads in a report is what the device has put into it. -/
structure Carries (data : SensorData) (state : SmartHomeState) (seq : UInt32) : Prop where
  frameType : data.frameType = .sensorData
  deviceId : data.deviceId = GW_DEVICE_ID
  temperature : ∃ x, Tenths state.temperature x ∧ data.temperature = x * 100
  humidity : ∃ x, Tenths state.humidity x ∧ data.humidity = x * 100
  light : data.light = state.light.toNat * 1000
  ledOn : data.ledOn = if state.ledOn then 1 else 0
  alarmOn : data.alarmOn = if state.alarmOn then 1 else 0
  sensorValid : data.sensorValid = if state.sensorValid then 1 else 0
  autoMode : data.autoMode = if state.mode = .auto then 1 else 0
  seq : data.seq = seq.toUInt64

theorem sensorPayload_length (state : SmartHomeState) (seq : UInt32) :
    (sensorPayload state seq).length = 14 := rfl

theorem sensorFrame_length (state : SmartHomeState) (seq : UInt32) :
    (sensorFrame state seq).length = 20 := by
  rw [sensorFrame, wireFrame_length, sensorPayload_length]

theorem flag_statusBits (state : SmartHomeState) :
    flag (statusBits state) 0x01 = (if state.ledOn then 1 else 0) ∧
    flag (statusBits state) 0x02 = (if state.alarmOn then 1 else 0) ∧
    flag (statusBits state) 0x04 = (if state.sensorValid then 1 else 0) ∧
    flag (statusBits state) 0x08 = (if state.mode = .auto then 1 else 0) := by
  have hbits : ∀ led alarm valid auto : Bool,
      let bits : UInt8 := (if led then 0x01 else 0) ||| (if alarm then 0x02 else 0) |||
        (if valid then 0x04 else 0) ||| (if auto then 0x08 else 0)
      flag bits 0x01 = (if led then 1 else 0) ∧ flag bits 0x02 = (if alarm then 1 else 0) ∧
        flag bits 0x04 = (if valid then 1 else 0) ∧ flag bits 0x08 = (if auto then 1 else 0) := by
    decide
  have h := hbits state.ledOn state.alarmOn state.sensorValid (decide (state.mode = .auto))
  simp only [decide_eq_true_eq] at h
  exact h

theorem parse_sensorPayload {state : SmartHomeState} {tx : Int16} {hx : UInt16} (seq : UInt32)
    (ht : Tenths state.temperature tx.toInt) (hh : Tenths state.humidity hx.toNat) :
    ∃ data, parsePayload .sensorData (sensorPayload state seq) = some data ∧
      Carries data state seq := by
  have htemp : read16 (sensorPayload state seq) 1 = (gwFloatToX10 state.temperature).toUInt16 :=
    read16_head _ []
  have hhumi : read16 (sensorPayload state seq) 3 = gwFloatToU16X10 state.humidity :=
    read16_head _ []
  have hlight : read16 (sensorPayload state seq) 7 = state.light := read16_head _ []
  have hseq : read32 (sensorPayload state seq) 10 = seq := read32_head seq []
  have hlen := sensorPayload_length state seq
  have hstatus : (sensorPayload state seq).getD 9 0 = statusBits state := rfl
  obtain ⟨hled, halarm, hvalid, hmode⟩ := flag_statusBits state
  unfold parsePayload
  dsimp only
  rw [if_neg (by omega), if_pos (by omega), if_pos (by omega), if_pos (by omega), htemp, hhumi,
    hlight, hstatus, hseq, gwFloatToX10_tenths ht, gwFloatToU16X10_tenths hh]
  exact ⟨_, rfl, rfl, rfl, ⟨tx.toInt, ht, rfl⟩, ⟨hx.toNat, hh, rfl⟩, rfl, hled, halarm, hvalid, hmode,
    rfl⟩

/-- The slot is free, or the next report frees it. -/
def vacant (now_ms : UInt32) (slot : Option PendingReport) : Bool :=
  slot.all fun r => GW_REPORT_ACK_TIMEOUT_MS < now_ms - r.sentMs

section Table
variable {t : GwTask} {now_ms : UInt32} {p : PendingReports} {i : Fin GW_PENDING_QUEUE_SIZE}

@[simp] theorem gwPendingClear_pending (t : GwTask) (i : Fin GW_PENDING_QUEUE_SIZE) :
    (gwPendingClear t i).pending = Function.update t.pending i none := rfl

@[simp] theorem storageWriteCache_pending (t : GwTask) (payload : Bytes) :
    (storageWriteCache t payload).pending = t.pending := by
  unfold storageWriteCache
  split_ifs <;> rfl

@[simp] theorem gwTryCache_pending (t : GwTask) (frame : Bytes) :
    (gwTryCacheAbnormalSnapshot t frame).pending = t.pending := by
  unfold gwTryCacheAbnormalSnapshot
  split_ifs
  · rfl
  · exact storageWriteCache_pending _ _
  · rfl

theorem handleTimeout_pending (t : GwTask) (i : Fin GW_PENDING_QUEUE_SIZE) (slot : PendingReport) :
    (gwPendingHandleTimeout t i slot).pending = Function.update t.pending i none := by
  unfold gwPendingHandleTimeout
  split_ifs
  · rfl
  · rw [gwPendingClear_pending, gwTryCache_pending]

theorem scanSlot_pending (t : GwTask) (i j : Fin GW_PENDING_QUEUE_SIZE) :
    (gwPendingScanSlot now_ms t i).pending j =
      if j = i ∧ vacant now_ms (t.pending i) then none else t.pending j := by
  unfold gwPendingScanSlot vacant
  cases hslot : t.pending i with
  | none =>
    dsimp only
    split_ifs with hj
    · rw [hj.1, hslot]
    · rfl
  | some slot =>
    dsimp only
    by_cases hlate : GW_REPORT_ACK_TIMEOUT_MS < now_ms - slot.sentMs
    · rw [if_pos hlate, handleTimeout_pending, Function.update_apply]
      simp [hlate]
    · rw [if_neg hlate]
      simp [hlate]

theorem scanSlots_pending (is : List (Fin GW_PENDING_QUEUE_SIZE)) (t : GwTask)
    (j : Fin GW_PENDING_QUEUE_SIZE) :
    (is.foldl (gwPendingScanSlot now_ms) t).pending j =
      if j ∈ is ∧ vacant now_ms (t.pending j) then none else t.pending j := by
  induction is generalizing t with
  | nil => simp
  | cons i is ih =>
    rw [List.foldl_cons, ih, scanSlot_pending]
    by_cases hji : j = i
    · subst hji
      by_cases hv : vacant now_ms (t.pending j) = true
      · simp [hv]
      · simp [hv]
    · simp [hji]

/-- Scanning for timeouts frees the vacant slots and no other. -/
theorem scanTimeout_pending (t : GwTask) (now_ms : UInt32) (j : Fin GW_PENDING_QUEUE_SIZE) :
    (gwPendingScanTimeout t now_ms).pending j =
      if vacant now_ms (t.pending j) then none else t.pending j := by
  rw [gwPendingScanTimeout, scanSlots_pending]
  simp only [List.mem_finRange, true_and]

theorem vacant_none (now_ms : UInt32) : vacant now_ms none = true := rfl

theorem scanTimeout_free :
    (gwPendingScanTimeout t now_ms).pending i = none ↔ vacant now_ms (t.pending i) = true := by
  rw [scanTimeout_pending]
  by_cases hv : vacant now_ms (t.pending i) = true
  · simp [hv]
  · rw [if_neg hv]
    refine iff_of_false (fun hnone => hv ?_) hv
    rw [hnone, vacant_none]

theorem alloc_eq_some : gwPendingAllocSlot p = some i ↔ p i = none ∧ ∀ j < i, p j ≠ none := by
  rw [gwPendingAllocSlot, Fin.find?_eq_some_iff, Option.isNone_iff_eq_none]
  apply and_congr_right
  intro _
  apply forall₂_congr
  intro j _
  rw [Option.isNone_eq_false_iff, ← Option.isSome_iff_ne_none]

theorem findBySeq_eq_some {seq : UInt32} : gwPendingFindBySeq p seq = some i ↔
    (∃ slot, p i = some slot ∧ slot.reportSeq = seq) ∧
      ∀ j < i, ∀ slot, p j = some slot → slot.reportSeq ≠ seq := by
  rw [gwPendingFindBySeq, Fin.find?_eq_some_iff]
  apply and_congr
  · simp [Option.any_eq_true]
  · apply forall₂_congr
    intro j _
    simp [Option.any_eq_false]

theorem processReportAck_found {payload : Bytes} {slot : PendingReport} (hlen : 5 ≤ payload.length)
    (h : gwPendingFindBySeq t.pending (read32 payload 1) = some i) (hslot : t.pending i = some slot) :
    gwProcessReportAck t payload = gwPendingClear
      (if slot.fromReplay then
        { t with storage := (storageMarkCacheAck t.storage slot.cacheSeq).1 } else t) i := by
  unfold gwProcessReportAck
  rw [if_neg (not_lt.mpr hlen), h]
  dsimp only
  rw [hslot]

/-- An acknowledgement leaves the task as it is, or it clears the slot that it finds. -/
theorem processReportAck_cases (t : GwTask) (payload : Bytes) :
    gwProcessReportAck t payload = t ∨ ∃ i slot, 5 ≤ payload.length ∧
      gwPendingFindBySeq t.pending (read32 payload 1) = some i ∧ t.pending i = some slot ∧
      slot.reportSeq = read32 payload 1 ∧
      gwProcessReportAck t payload = gwPendingClear
        (if slot.fromReplay then
          { t with storage := (storageMarkCacheAck t.storage slot.cacheSeq).1 } else t) i := by
  by_cases hlen : 5 ≤ payload.length
  · cases hfind : gwPendingFindBySeq t.pending (read32 payload 1) with
    | none =>
      refine Or.inl ?_
      unfold gwProcessReportAck
      rw [if_neg (not_lt.mpr hlen), hfind]
    | some i =>
      obtain ⟨⟨slot, hslot, hseq⟩, -⟩ := findBySeq_eq_some.mp hfind
      exact Or.inr ⟨i, slot, hlen, rfl, hslot, hseq, processReportAck_found hlen hfind hslot⟩
  · refine Or.inl ?_
    unfold gwProcessReportAck
    rw [if_pos (not_le.mp hlen)]

theorem processReportAck_pending {payload : Bytes} (hlen : 5 ≤ payload.length)
    (h : gwPendingFindBySeq t.pending (read32 payload 1) = some i) :
    (gwProcessReportAck t payload).pending = Function.update t.pending i none := by
  obtain ⟨⟨slot, hslot, -⟩, -⟩ := findBySeq_eq_some.mp h
  rw [processReportAck_found hlen h hslot, gwPendingClear_pending]
  split_ifs <;> rfl

end Table

/-- On a link without errors: the gateway reads the report, answers it, and the answer clears the
slot that the report was entered in, whatever else the table holds. -/
def LoopCloses (t : GwTask) (state : SmartHomeState) (now_ms : UInt32) : Prop :=
  let before := gwPendingScanTimeout { t with reportSeq := t.reportSeq + 1 } now_ms
  let sent := gwSendSensorData t state now_ms true
  ∃ frame data ack payload i, sent.2 = some frame ∧
    (∀ now counters, ((⟨frame⟩ : FrameParser).extract now counters).2.1.map untimed = [data]) ∧
    Carries data state (t.reportSeq + 1) ∧ reportAnswer data = some ack ∧
    (ack.foldl gwProcessRxByte ⟨[], []⟩).processed = [(FrameType.reportAck.wire, payload)] ∧
    before.pending i = none ∧
    sent.1.pending = Function.update before.pending i
      (some ⟨false, 0, t.reportSeq + 1, frame, now_ms⟩) ∧
    (gwProcessReportAck sent.1 payload).pending = Function.update sent.1.pending i none

section Loop
variable {t : GwTask} {state : SmartHomeState} {now_ms : UInt32}

theorem reportAck_read (device_id : UInt8) (report_seq : UInt32) :
    ((buildReportAckFrame device_id report_seq).foldl gwProcessRxByte ⟨[], []⟩).processed =
        [(FrameType.reportAck.wire, device_id :: bytes32 report_seq)] ∧
      read32 (device_id :: bytes32 report_seq) 1 = report_seq := by
  constructor
  · rw [buildReportAckFrame, gw_wireFrame _ _ (by decide : (5 : ℕ) < _), List.nil_append]
  · exact read32_head report_seq []

/-- With a free slot a report is entered into the first one. -/
theorem sendSensorData_entered {i : Fin GW_PENDING_QUEUE_SIZE}
    (halloc : gwPendingAllocSlot
      (gwPendingScanTimeout { t with reportSeq := t.reportSeq + 1 } now_ms).pending = some i) :
    (gwSendSensorData t state now_ms true).1.pending =
        Function.update (gwPendingScanTimeout { t with reportSeq := t.reportSeq + 1 } now_ms).pending i
          (some ⟨false, 0, t.reportSeq + 1, sensorFrame state (t.reportSeq + 1), now_ms⟩) := by
  have hlen := sensorFrame_length state (t.reportSeq + 1)
  have hfits : ¬ (sensorFrame state (t.reportSeq + 1) = [] ∨
      GW_TX_FRAME_MAX_SIZE < (sensorFrame state (t.reportSeq + 1)).length) := by
    rw [← List.length_eq_zero_iff, hlen]
    decide
  unfold gwSendSensorData gwPendingEnqueue
  dsimp only
  rw [if_neg (by simp), halloc]
  dsimp only
  rw [if_neg hfits]

theorem sendSensorData_frame (t : GwTask) (state : SmartHomeState) (now_ms : UInt32) :
    (gwSendSensorData t state now_ms true).2 = some (sensorFrame state (t.reportSeq + 1)) := by
  unfold gwSendSensorData
  dsimp only
  rw [if_neg (by simp)]
  split <;> rfl

/-- The acknowledgement clears the slot of its own report if it finds none before it. -/
theorem own_slot_cleared_iff {p : PendingReports} {i : Fin GW_PENDING_QUEUE_SIZE} {r : PendingReport}
    {payload : Bytes} (hp : t.pending = Function.update p i (some r)) (hlen : 5 ≤ payload.length)
    (hseq : read32 payload 1 = r.reportSeq) :
    (gwProcessReportAck t payload).pending = Function.update t.pending i none ↔
      ∀ j < i, ∀ slot, p j = some slot → slot.reportSeq ≠ r.reportSeq := by
  have hown : t.pending i = some r := by rw [hp, Function.update_self]
  have hother : ∀ j < i, t.pending j = p j := fun j hj => by
    rw [hp, Function.update_of_ne (ne_of_lt hj)]
  constructor
  · intro hclear j hj slot hslot hsame
    -- the slot that is found stands at j or before, and is cleared in place of the own one
    have hsome : (gwPendingFindBySeq t.pending (read32 payload 1)).isSome := by
      refine Fin.isSome_find?_of_eq_true (i := j) ?_
      rw [hother j hj, hslot, hseq]
      simp [hsame]
    obtain ⟨k, hk⟩ := Option.isSome_iff_exists.mp hsome
    obtain ⟨⟨found, hfound, -⟩, hfirst⟩ := findBySeq_eq_some.mp hk
    have hki : k < i := by
      refine lt_of_le_of_lt (not_lt.mp fun hjk => ?_) hj
      exact hfirst j hjk slot (by rw [hother j hj, hslot]) (hsame.trans hseq.symm)
    rw [processReportAck_pending hlen hk] at hclear
    have hat := congrFun hclear k
    rw [Function.update_self, Function.update_of_ne (ne_of_lt hki), hfound] at hat
    cases hat
  · intro hfirst
    apply processReportAck_pending hlen
    rw [findBySeq_eq_some, hseq]
    refine ⟨⟨r, hown, rfl⟩, fun j hj slot hslot => ?_⟩
    rw [hother j hj] at hslot
    exact hfirst j hj slot hslot

/-- The number zero is not answered. -/
theorem LoopCloses.answered (h : LoopCloses t state now_ms) : t.reportSeq + 1 ≠ 0 := by
  obtain ⟨_, data, _, _, _, -, -, hcarries, hanswer, -⟩ := h
  intro hzero
  unfold reportAnswer at hanswer
  split_ifs at hanswer with hseq
  rw [hcarries.seq, hzero] at hseq
  exact absurd hseq.2 (by decide)

/-- The loop closes exactly for a number that the gateway answers, when a slot is free, or about to
be, and none before it that stays in use waits for the same number. -/
theorem loop_closes_iff {tx : Int16} {hx : UInt16} (t : GwTask) (now_ms : UInt32)
    (ht : Tenths state.temperature tx.toInt) (hh : Tenths state.humidity hx.toNat) :
    LoopCloses t state now_ms ↔ t.reportSeq + 1 ≠ 0 ∧
      ∃ i, vacant now_ms (t.pending i) = true ∧
        ∀ j < i, ∀ slot, t.pending j = some slot → slot.reportSeq = t.reportSeq + 1 →
          vacant now_ms (t.pending j) = true := by
  unfold LoopCloses
  dsimp only
  set before := gwPendingScanTimeout { t with reportSeq := t.reportSeq + 1 } now_ms with hbefore
  have hscan : ∀ j, before.pending j = if vacant now_ms (t.pending j) then none else t.pending j :=
    fun j => scanTimeout_pending _ now_ms j
  have hfree : ∀ j, before.pending j = none ↔ vacant now_ms (t.pending j) = true :=
    fun j => scanTimeout_free
  constructor
  · intro h
    refine ⟨LoopCloses.answered h, ?_⟩
    obtain ⟨frame, data, ack, payload, i, -, -, hcarries, hanswer, hread, hi, hsent, hclear⟩ := h
    have hcast : data.seq.toUInt32 = t.reportSeq + 1 := by
      rw [hcarries.seq, UInt32.toUInt32_toUInt64]
    unfold reportAnswer at hanswer
    split_ifs at hanswer with hseq
    obtain rfl := Option.some.inj hanswer
    obtain ⟨hread', hnum⟩ := reportAck_read data.deviceId data.seq.toUInt32
    obtain rfl : payload = data.deviceId :: bytes32 data.seq.toUInt32 :=
      congrArg Prod.snd (List.singleton_injective (hread.symm.trans hread'))
    -- the answer clears the first slot with its number, which has to be the report's own
    rw [own_slot_cleared_iff hsent (by simp) (hnum.trans hcast)] at hclear
    refine ⟨i, (hfree i).mp hi, fun j hj slot hslot hsame => ?_⟩
    by_contra hv
    exact hclear j hj slot (by rw [hscan, if_neg hv, hslot]) hsame
  · rintro ⟨hzero, i₀, hvac, hfirst⟩
    obtain ⟨i, halloc⟩ := Option.isSome_iff_exists.mp
      (Fin.isSome_find?_of_eq_true (p := fun i => (before.pending i).isNone) (i := i₀)
        (by rw [(hfree i₀).mpr hvac]; rfl))
    obtain ⟨hi, hmin⟩ := alloc_eq_some.mp halloc
    -- the report goes to the first free slot, and no slot before it has its number
    have hle : i ≤ i₀ := not_lt.mp fun hlt => hmin i₀ hlt ((hfree i₀).mpr hvac)
    obtain ⟨data, hparse, hcarries⟩ := parse_sensorPayload (t.reportSeq + 1) ht hh
    have hcast : data.seq.toUInt32 = t.reportSeq + 1 := by
      rw [hcarries.seq, UInt32.toUInt32_toUInt64]
    have hpos : 0 < data.seq := by
      rw [hcarries.seq]
      refine UInt64.pos_iff_ne_zero.mpr fun h0 => hzero ?_
      rw [← hcast, hcarries.seq, h0]
      rfl
    obtain ⟨hread, hnum⟩ := reportAck_read data.deviceId data.seq.toUInt32
    have hsent := @sendSensorData_entered t state now_ms i halloc
    refine ⟨_, data, _, _, i, sendSensorData_frame t state now_ms, fun now counters => ?_, hcarries,
      if_pos ⟨hcarries.frameType, hpos⟩, hread, hi, hsent, ?_⟩
    · have hx := extract_wireFrame FrameType.sensorData.wire now counters
        (show (sensorPayload state (t.reportSeq + 1)).length < 255 from by
          rw [sensorPayload_length]; decide)
      rw [frameTypeFromWire_wire, hparse] at hx
      exact hx
    · rw [own_slot_cleared_iff hsent (by simp) (hnum.trans hcast)]
      intro j hj slot hslot hsame
      rw [hscan] at hslot
      split_ifs at hslot with hv
      exact hv (hfirst j (lt_of_lt_of_le hj hle) slot hslot hsame)

end Loop

def mildState : SmartHomeState := ⟨43 / 2, 40, 300, false, false, false, false, false, .auto, true⟩

def quietTask (report_seq : UInt32) : GwTask :=
  ⟨fun _ => none, report_seq, 0, ⟨fun _ => 0xFF, 0, 0, 0, 0, 0, 0⟩, [], 0⟩

theorem mildState_tenths : Tenths mildState.temperature (215 : Int16).toInt ∧
    Tenths mildState.humidity (400 : UInt16).toNat := by
  unfold Tenths
  decide +kernel

theorem loop_closes_mild : LoopCloses (quietTask 0) mildState 0 :=
  (loop_closes_iff (quietTask 0) 0 mildState_tenths.1 mildState_tenths.2).mpr
    ⟨by decide, 0, rfl, fun j hj => absurd hj (Fin.not_lt_zero j)⟩

/-- After 2^32 - 1 reports the next one is not answered. -/
theorem loop_open_at_wrap : ¬ ∀ (t : GwTask) (state : SmartHomeState) (now_ms : UInt32) (tx : Int16)
    (hx : UInt16), Tenths state.temperature tx.toInt → Tenths state.humidity hx.toNat →
    LoopCloses t state now_ms := by
  intro h
  have hmild := h (quietTask 0xFFFFFFFF) mildState 0 _ _ mildState_tenths.1 mildState_tenths.2
  exact hmild.answered (by decide)

end EdgeLink.Report
