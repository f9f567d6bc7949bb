import EdgeLink.RolloutSteps

namespace EdgeLink.Rollout

/-! The plan of a staged rollout, and the request that is made of it. -/

/-- Python's `s or fallback`. -/
def orDefault (s fallback : String) : String := if s = "" then fallback else s

/-- What the gateway knows of a device; a text is empty where nothing is known. -/
structure DeviceStatus where
  ok : Bool
  activeTransport : String
  linkType : String
  eventLinkType : String
  deriving DecidableEq

structure GatewayStatus where
  ok : Bool
  serialAvailable : Option Bool
  deriving DecidableEq

structure Guard where
  ok : Bool
  message : String
  deriving DecidableEq

/-- What the risk assessment of one device comes to. -/
structure UpgradePlan where
  riskLevel : String
  readyToCreate : Bool
  blockingItems : List String
  approvalRequired : Bool
  deriving DecidableEq

/-- The answers about one device when it is its turn. -/
structure Inquiry where
  plan : UpgradePlan
  status : DeviceStatus
  gateway : GatewayStatus
  deriving DecidableEq

def normalizedTransport (transport : String) : String :=
  orDefault (strip (orDefault transport "serial")) "serial"

def normalizedTarget (target : String) : String :=
  orDefault (strip (orDefault target "127.0.0.1:19090")) "127.0.0.1:19090"

def activeTransportOf (status : DeviceStatus) : String :=
  if status.ok then
    orDefault (strip (orDefault status.activeTransport (orDefault status.linkType
      (orDefault status.eventLinkType "serial")))) "serial"
  else "serial"

def resolveOtaTransportTarget (status : DeviceStatus) (transport target : String) : String × String :=
  let normalized_transport := normalizedTransport transport
  let normalized_target := normalizedTarget target
  -- only what was asked for by default is resolved
  if normalized_transport ≠ "serial" ∨ normalized_target ≠ "127.0.0.1:19090" then
    (normalized_transport, normalized_target)
  else
    let resolved_transport := activeTransportOf status
    (if resolved_transport ∈ ["serial", "tcp_binary", "mqtt"] then resolved_transport else "serial",
      normalized_target)

def checkOtaTransportAvailable (gateway_status : GatewayStatus) (transport : String) : Guard :=
  if normalizedTransport transport ≠ "serial" then
    ⟨true, "Non-serial transport does not depend on gateway serial availability."⟩
  else if gateway_status.ok ∧ gateway_status.serialAvailable = some false then
    ⟨false, "Gateway serial transport is unavailable. Start the serial link or switch this OTA to " ++
      "tcp_binary/mqtt."⟩
  else if gateway_status.ok then ⟨true, "Gateway serial transport is available."⟩
  else
    ⟨true, "Gateway serial transport status is unknown. Continuing with degraded guard because " ++
      "runtime probe failed."⟩

structure DevicePlan where
  deviceId : ℤ
  riskLevel : String
  readyToCreate : Bool
  blockingItems : List String
  approvalRequired : Bool
  transport : String
  target : String
  deriving DecidableEq

def devicePlan (transport target : String) (inquiry : Inquiry) (device_id : ℤ) : DevicePlan :=
  let resolved := resolveOtaTransportTarget inquiry.status transport target
  let transport_guard := checkOtaTransportAvailable inquiry.gateway resolved.1
  { deviceId := device_id
    riskLevel := inquiry.plan.riskLevel
    readyToCreate := inquiry.plan.readyToCreate && transport_guard.ok
    blockingItems := inquiry.plan.blockingItems ++
      if transport_guard.ok then [] else [transport_guard.message]
    approvalRequired := inquiry.plan.approvalRequired
    transport := resolved.1
    target := resolved.2 }

/-- A key keeps its place in a dictionary when its value is set again. -/
def dictSet {α β : Type} [DecidableEq α] (d : List (α × β)) (key : α) (value : β) : List (α × β) :=
  if key ∈ d.map Prod.fst then d.map fun e => if e.1 = key then (key, value) else e
  else d ++ [(key, value)]

def countRisk (risk_levels : List (String × ℕ)) (risk_level : String) : List (String × ℕ) :=
  dictSet risk_levels risk_level ((risk_levels.lookup risk_level).getD 0 + 1)

def positiveIds (device_ids : List ℤ) : List ℤ := device_ids.filter (0 < ·)

def normalizedBatchSize (batch_size : ℤ) (count : ℕ) : ℤ := max 1 (min batch_size (max 1 count))

/-- The slices that begin at the multiples of the batch size. -/
def slices {α : Type} (size : ℕ) (l : List α) : List (List α) :=
  (List.range' 0 ((l.length + size - 1) / size) size).map fun index => (l.drop index).take size

structure BatchPlan where
  deviceIds : List ℤ
  firmwareId : String
  transport : String
  target : String
  batchSize : ℤ
  batchCount : ℕ
  rolloutBatches : List (List ℤ)
  readyDeviceIds : List ℤ
  blockedDeviceIds : List ℤ
  riskLevels : List (String × ℕ)
  devicePlans : List DevicePlan
  deviceTransportOverrides : List (ℤ × String × String)
  deriving DecidableEq

/-- A device is assessed once for each time that it is listed: `inquiry i` answers for the `i`-th. -/
def devicePlansOf (transport target : String) (inquiry : ℕ → Inquiry) (normalized_ids : List ℤ) :
    List DevicePlan :=
  normalized_ids.zipIdx.map fun x => devicePlan transport target (inquiry x.2) x.1

def workflowOtaBatchPlan (device_ids : List ℤ) (firmware_id transport target : String)
    (batch_size : ℤ) (inquiry : ℕ → Inquiry) : BatchPlan :=
  let normalized_ids := positiveIds device_ids
  let normalized_batch_size := normalizedBatchSize batch_size normalized_ids.length
  let device_plans := devicePlansOf transport target inquiry normalized_ids
  let rollout_batches := slices normalized_batch_size.toNat normalized_ids
  { deviceIds := normalized_ids
    firmwareId := firmware_id
    transport := transport
    target := target
    batchSize := normalized_batch_size
    batchCount := rollout_batches.length
    rolloutBatches := rollout_batches
    readyDeviceIds := (device_plans.filter (·.readyToCreate)).map DevicePlan.deviceId
    blockedDeviceIds := (device_plans.filter (!·.readyToCreate)).map DevicePlan.deviceId
    riskLevels := device_plans.foldl (fun levels p => countRisk levels p.riskLevel)
      [("low", 0), ("medium", 0), ("high", 0), ("unknown", 0)]
    devicePlans := device_plans
    deviceTransportOverrides := device_plans.foldl
      (fun overrides p => dictSet overrides p.deviceId (p.transport, p.target)) [] }

/-- The payload of the approval that is asked for. -/
def workflowOtaBatchRequestCreate (batch_plan : BatchPlan) : BatchRequest where
  firmwareId := batch_plan.firmwareId
  transport := batch_plan.transport
  target := batch_plan.target
  rolloutBatches := batch_plan.rolloutBatches
  readyDeviceIds := batch_plan.readyDeviceIds
  blockedDeviceIds := batch_plan.blockedDeviceIds
  deviceTransportOverrides := batch_plan.deviceTransportOverrides

theorem slices_from {α : Type} (size count start : ℕ) (l : List α) :
    ((List.range' start count size).map fun index => (l.drop index).take size).flatten =
      (l.drop start).take (count * size) := by
  induction count generalizing start with
  | zero => rw [Nat.zero_mul, List.take_zero]; rfl
  | succ count ih =>
    rw [List.range'_succ, List.map_cons, List.flatten_cons, ih, Nat.succ_mul,
      Nat.add_comm (count * size) size, List.take_add, List.drop_drop]

theorem slices_flatten {α : Type} {size : ℕ} (h : 0 < size) (l : List α) :
    (slices size l).flatten = l := by
  -- the number of slices is the length over the size, rounded up
  have hcount : l.length ≤ (l.length + size - 1) / size * size := by
    have hdiv := Nat.div_add_mod (l.length + size - 1) size
    have hmod := Nat.mod_lt (l.length + size - 1) h
    rw [Nat.mul_comm] at hdiv
    omega
  unfold slices
  rw [slices_from, List.drop_zero, List.take_of_length_le hcount]

theorem slices_length {α : Type} {size : ℕ} {l slice : List α} (h : slice ∈ slices size l) :
    slice.length ≤ size := by
  obtain ⟨index, -, rfl⟩ := List.mem_map.mp h
  exact List.length_take_le _ _

section
variable (device_ids : List ℤ) (firmware_id transport target : String) (batch_size : ℤ)
  (inquiry : ℕ → Inquiry)

theorem batchSize_pos :
    0 < (normalizedBatchSize batch_size (positiveIds device_ids).length).toNat := by
  unfold normalizedBatchSize
  omega

theorem plan_flatten :
    (workflowOtaBatchPlan device_ids firmware_id transport target batch_size
      inquiry).rolloutBatches.flatten = positiveIds device_ids :=
  slices_flatten (batchSize_pos device_ids batch_size) (positiveIds device_ids)

theorem plan_small :
    ∀ batch ∈ (workflowOtaBatchPlan device_ids firmware_id transport target batch_size
      inquiry).rolloutBatches, (batch.length : ℤ) ≤ max 1 batch_size := by
  intro batch hbatch
  have hlength := slices_length hbatch
  unfold normalizedBatchSize at hlength
  omega

theorem plan_listed :
    ∀ d ∈ device_ids, 0 < d → ∃ batch ∈ (workflowOtaBatchPlan device_ids firmware_id transport
      target batch_size inquiry).rolloutBatches, d ∈ batch := by
  intro d hd hpos
  have hmem : d ∈ positiveIds device_ids := List.mem_filter.mpr ⟨hd, decide_eq_true hpos⟩
  rw [← plan_flatten device_ids firmware_id transport target batch_size inquiry] at hmem
  exact List.mem_flatten.mp hmem

theorem devicePlans_ids (normalized_ids : List ℤ) :
    (devicePlansOf transport target inquiry normalized_ids).map DevicePlan.deviceId =
      normalized_ids := by
  unfold devicePlansOf
  rw [List.map_map]
  exact List.zipIdx_map_fst 0 normalized_ids

/-- Each time that a device is listed it is either ready or blocked. -/
theorem plan_split (d : ℤ) :
    let plan := workflowOtaBatchPlan device_ids firmware_id transport target batch_size inquiry
    plan.readyDeviceIds.count d + plan.blockedDeviceIds.count d = (positiveIds device_ids).count d := by
  dsimp only [workflowOtaBatchPlan]
  have hids := devicePlans_ids transport target inquiry (positiveIds device_ids)
  generalize devicePlansOf transport target inquiry (positiveIds device_ids) = plans at hids ⊢
  have hsplit := (List.filter_append_perm (·.readyToCreate) plans).map DevicePlan.deviceId
  have hcount := hsplit.count_eq d
  rw [List.map_append, List.count_append, hids] at hcount
  exact hcount

end

end EdgeLink.Rollout
