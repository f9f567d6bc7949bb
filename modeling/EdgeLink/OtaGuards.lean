import EdgeLink.OtaExecutor

namespace EdgeLink.Ota
open Machine OtaTaskState

/-- How much of its guards a worker can still hold. -/
inductive Window
  | out | all | unlocked | unmuted
  deriving DecidableEq

def Pc.window : Pc → Window
  | .start | .rejectRelease | .rejectLoad | .reject | .rejectClear | .load | .resetCancel
  | .enterDevice | .release | .done => .out
  | .unmute => .unlocked
  | .leave => .unmuted
  | _ => .all

/-- The task is past PREPARE_DEVICE and has not come to its end. -/
def Pc.pastPrepare : Pc → Bool
  | .update .verifying | .update .committing | .update .rebooting | .update .versionCheck
  | .update .healthConfirm | .poll .transferring | .poll .verifying | .poll .committing
  | .poll .rebooting | .poll .versionCheck | .poll .healthConfirm | .dispatch | .mute | .lock | .image
  | .enterMode | .hello | .runPoll | .exchange | .progress | .esp32Send | .esp32Wait
  | .esp32Report _ _ | .runDone _ _ | .succeed => true
  | _ => false

theorem Pc.window_of_pastPrepare {pc : Pc} (h : pc.pastPrepare = true) : pc.window = .all := by
  cases pc <;> first
    | rfl
    | cases h

theorem Stage.go_window (s : Stage) : s.go.window = .all := by
  cases s <;> rfl

theorem verdict_window (device_type : String) (ok : Bool) (err : String) :
    (verdict device_type ok err).window = .all := by
  unfold verdict
  split_ifs <;> rfl

/-- A worker holds its guards inside the window. -/
structure Executor.Placed (x : Executor) : Prop where
  entered : x.entered = true ↔ x.pc.window ≠ .out
  muted : x.muted = true → x.pc.window = .all ∨ x.pc.window = .unlocked
  locked : x.locked = true → x.pc.window = .all

/-- What the gateway notes about one device. -/
def Shared.guards (sh : Shared) (device_id : UInt8) : Bool × Bool × Option String :=
  (sh.otaModeDevices device_id, sh.businessMutedDevices device_id,
    sh.transportLockedDevices device_id)

/-- The guards that the worker has taken are there. -/
structure Executor.Kept (x : Executor) (sh : Shared) : Prop where
  inMode : x.entered = true → sh.otaModeDevices x.deviceId = true
  muted : x.muted = true → sh.businessMutedDevices x.deviceId = true
  locked : x.locked = true → sh.transportLockedDevices x.deviceId = some x.transportMode

theorem Executor.Kept.congr {x : Executor} {sh sh' : Shared} (h : x.Kept sh)
    (hg : sh'.guards x.deviceId = sh.guards x.deviceId) : x.Kept sh' := by
  simp only [Shared.guards, Prod.mk.injEq] at hg
  obtain ⟨hmode, hmute, hlock⟩ := hg
  refine ⟨fun he => ?_, fun he => ?_, fun he => ?_⟩
  · rw [hmode]
    exact h.inMode he
  · rw [hmute]
    exact h.muted he
  · rw [hlock]
    exact h.locked he

section Step
variable (x : Executor) (sh : Shared) (v : Input)

/-- A worker goes on as the same worker. -/
theorem Executor.step_same : (x.step sh v).2.taskUuid = x.taskUuid ∧
    (x.step sh v).2.deviceId = x.deviceId ∧ (x.step sh v).2.transport = x.transport ∧
    (x.step sh v).2.deviceType = x.deviceType := by
  obtain ⟨task_uuid, device_type, transport, device_id, pc, tasks, entered, muted, locked⟩ := x
  cases pc <;> exact ⟨rfl, rfl, rfl, rfl⟩

/-- It leaves other devices alone. -/
theorem Executor.step_guards_of_ne {d : UInt8} (h : d ≠ x.deviceId) :
    (x.step sh v).1.guards d = sh.guards d := by
  obtain ⟨task_uuid, device_type, transport, device_id, pc, tasks, entered, muted, locked⟩ := x
  have hd : d ≠ device_id := h
  cases pc <;> first
    | rfl
    | simp only [Executor.step, Shared.guards, Shared.otaDeviceEnter, Shared.otaDeviceLeave,
        Shared.otaMuteBusiness, Shared.otaUnmuteBusiness, Shared.otaLockTransport,
        Shared.otaUnlockTransport, Function.update_of_ne hd]

/-- Outside its window it leaves every device alone. -/
theorem Executor.step_guards_outside (h : x.pc.window = .out) (he : x.pc ≠ .enterDevice)
    (d : UInt8) : (x.step sh v).1.guards d = sh.guards d := by
  obtain ⟨task_uuid, device_type, transport, device_id, pc, tasks, entered, muted, locked⟩ := x
  cases pc <;> first
    | rfl
    | exact absurd rfl he
    | cases h

/-- The window opens at one place and closes in three. -/
theorem Executor.step_window : (x.step sh v).2.pc.window =
    match x.pc with
    | .enterDevice => .all
    | .unlock => .unlocked
    | .unmute => .unmuted
    | .leave => .out
    | pc => pc.window := by
  obtain ⟨task_uuid, device_type, transport, device_id, pc, tasks, entered, muted, locked⟩ := x
  cases pc with
  | poll passed =>
    simp only [Executor.step, Executor.unlessCanceled, Executor.goto]
    split_ifs
    · rfl
    · exact passed.go_window
  | exchange =>
    simp only [Executor.step, Executor.goto]
    cases v.link <;> rfl
  | runDone ok err =>
    simp only [Executor.step, Executor.unlessCanceled, Executor.goto]
    split_ifs
    · rfl
    · exact verdict_window device_type ok err
  | _ => first
    | rfl
    | (simp only [Executor.step, Executor.unlessCanceled, Executor.manage, Executor.goto]
       split_ifs <;> rfl)

theorem Executor.step_entered : (x.step sh v).2.entered =
    match x.pc with
    | .enterDevice => true
    | .leave => false
    | _ => x.entered := by
  obtain ⟨task_uuid, device_type, transport, device_id, pc, tasks, entered, muted, locked⟩ := x
  cases pc <;> rfl

theorem Executor.step_muted : (x.step sh v).2.muted =
    match x.pc with
    | .mute => true
    | .unmute => false
    | _ => x.muted := by
  obtain ⟨task_uuid, device_type, transport, device_id, pc, tasks, entered, muted, locked⟩ := x
  cases pc <;> rfl

theorem Executor.step_locked : (x.step sh v).2.locked =
    match x.pc with
    | .lock => true
    | .unlock => false
    | _ => x.locked := by
  obtain ⟨task_uuid, device_type, transport, device_id, pc, tasks, entered, muted, locked⟩ := x
  cases pc <;> rfl

variable {x} in
theorem Executor.Placed.step (h : x.Placed) : (x.step sh v).2.Placed := by
  obtain ⟨task_uuid, device_type, transport, device_id, pc, tasks, entered, muted, locked⟩ := x
  constructor
  · rw [Executor.step_entered, Executor.step_window]
    cases pc with
    | enterDevice | leave => simp
    | unlock | unmute => exact h.entered.trans (by simp [Pc.window])
    | _ => exact h.entered
  · rw [Executor.step_muted, Executor.step_window]
    cases pc with
    | mute | enterDevice => exact fun _ => Or.inl rfl
    | unlock => exact fun _ => Or.inr rfl
    | unmute => simp
    | leave => exact fun hm => (h.muted hm).elim (fun hw => by cases hw) fun hw => by cases hw
    | _ => exact h.muted
  · rw [Executor.step_locked, Executor.step_window]
    cases pc with
    | lock | enterDevice => exact fun _ => rfl
    | unlock => simp
    | unmute | leave => exact fun hl => by cases h.locked hl
    | _ => exact h.locked

variable {x sh} in
theorem Executor.Kept.step (h : x.Kept sh) (hp : x.Placed) :
    (x.step sh v).2.Kept (x.step sh v).1 := by
  obtain ⟨task_uuid, device_type, transport, device_id, pc, tasks, entered, muted, locked⟩ := x
  cases pc with
  | enterDevice => exact ⟨fun _ => Function.update_self .., h.muted, h.locked⟩
  | mute => exact ⟨h.inMode, fun _ => Function.update_self .., h.locked⟩
  | lock => exact ⟨h.inMode, h.muted, fun _ => Function.update_self ..⟩
  | unlock => exact ⟨h.inMode, h.muted, fun hl => (by cases hl)⟩
  | unmute => exact ⟨h.inMode, fun hm => (by cases hm), h.locked⟩
  | leave =>
    -- nothing is muted or locked any more
    refine ⟨fun he => (by cases he), fun hm => ?_, fun hl => (by cases hp.locked hl)⟩
    rcases hp.muted hm with hw | hw <;> cases hw
  | _ => exact ⟨h.inMode, h.muted, h.locked⟩

end Step

section Frame
variable (g : Gateway)

theorem Gateway.handleCreate_frame (src : Source) (req : CreateRequest) (active_t : String) (v : Env) :
    (g.handleCreate src req active_t v).1.executors = g.executors ∧
      ∀ d, (g.handleCreate src req active_t v).1.shared.guards d = g.shared.guards d := by
  unfold handleCreate
  split
  · dsimp only
    split_ifs
    · exact ⟨rfl, fun d => rfl⟩
    · split <;> exact ⟨rfl, fun d => rfl⟩
    · split <;> exact ⟨rfl, fun d => rfl⟩
  · exact ⟨rfl, fun d => rfl⟩

theorem Gateway.handleWrite_frame (tasks : String → Option OtaTask) (c : Call) (v : Env)
    (next : Option Request) (reply : Option Reply) :
    (g.handleWrite tasks c v next reply).1.executors = g.executors ∧
      ∀ d, (g.handleWrite tasks c v next reply).1.shared.guards d = g.shared.guards d := by
  unfold handleWrite
  dsimp only
  split <;> exact ⟨rfl, fun d => rfl⟩

/-- A worker steps, or a request launches one, or the workers and their guards stay. -/
theorem Gateway.step_cases (e : Event) :
    (∃ i x v, e = .exec i v ∧ g.executors[i]? = some x ∧ (g.step e).1 =
      { g with shared := (x.step g.shared v).1, executors := g.executors.set i (x.step g.shared v).2 }) ∨
    (∃ src t transport active_t, e = .launch src active_t ∧
      g.requests src = some (.creating t transport) ∧
      validTransport (runTransport transport active_t) ∧ (g.step e).1 =
        (g.setRequest src none).launchOtaTask t (runTransport transport active_t)) ∨
    ((g.step e).1.executors = g.executors ∧
      ∀ d, (g.step e).1.shared.guards d = g.shared.guards d) := by
  cases e with
  | launch src active_t =>
    simp only [Gateway.step]
    split
    · rename_i t transport hr
      unfold handleLaunch
      dsimp only
      by_cases hv : validTransport (runTransport transport active_t)
      · rw [if_neg (not_not.mpr hv)]
        exact Or.inr (Or.inl ⟨src, t, transport, active_t, rfl, hr, hv, rfl⟩)
      · rw [if_pos hv]
        exact Or.inr (Or.inr ⟨rfl, fun d => rfl⟩)
    · exact Or.inr (Or.inr ⟨rfl, fun d => rfl⟩)
  | exec i v =>
    simp only [Gateway.step]
    cases hx : g.executors[i]? with
    | none => exact Or.inr (Or.inr ⟨rfl, fun d => rfl⟩)
    | some x => exact Or.inl ⟨i, x, v, rfl, hx, rfl⟩
  | create src req active_t v =>
    refine Or.inr (Or.inr ?_)
    simp only [Gateway.step]
    split
    · exact g.handleCreate_frame src req active_t v
    · exact ⟨rfl, fun d => rfl⟩
  | write v =>
    refine Or.inr (Or.inr ?_)
    simp only [Gateway.step]
    split
    · exact g.handleWrite_frame ..
    · exact g.handleWrite_frame ..
    · exact ⟨rfl, fun d => rfl⟩
  | cancel task_uuid opened | retry task_uuid opened | flag =>
    refine Or.inr (Or.inr ?_)
    simp only [Gateway.step]
    split <;> exact ⟨rfl, fun d => rfl⟩

end Frame

structure Exclusive (g : Gateway) : Prop where
  one : ∀ (i j : ℕ) (x y : Executor), g.executors[i]? = some x → g.executors[j]? = some y →
    x.deviceId = y.deviceId → x.pc.pastPrepare = true → y.pc.pastPrepare = true → i = j
  kept : ∀ x ∈ g.executors, x.Kept g.shared

/-- A worker enters its device only when no other worker is inside it. -/
def Apart (g : Gateway) : Event → Prop
  | .exec i _ => ∀ x ∈ g.executors[i]?, x.pc = .enterDevice →
      ∀ y ∈ g.executors, y.deviceId = x.deviceId → y.entered = false
  | _ => True

instance (g : Gateway) (e : Event) : Decidable (Apart g e) :=
  match e with
  | .exec i _ => inferInstanceAs (Decidable (∀ x ∈ g.executors[i]?, x.pc = .enterDevice →
      ∀ y ∈ g.executors, y.deviceId = x.deviceId → y.entered = false))
  | .create .. | .launch .. | .cancel .. | .retry .. | .write _ | .flag => isTrue trivial

structure Alone (g : Gateway) : Prop where
  placed : ∀ x ∈ g.executors, x.Placed
  kept : ∀ x ∈ g.executors, x.Kept g.shared
  one : ∀ (i j : ℕ) (x y : Executor), g.executors[i]? = some x → g.executors[j]? = some y →
    x.deviceId = y.deviceId → x.entered = true → y.entered = true → i = j

theorem Alone.exclusive {g : Gateway} (h : Alone g) : Exclusive g := by
  have hin : ∀ (i : ℕ) (x : Executor), g.executors[i]? = some x → x.pc.pastPrepare = true →
      x.entered = true := by
    intro i x hx hp
    rw [(h.placed x (List.mem_of_getElem? hx)).entered, Pc.window_of_pastPrepare hp]
    decide
  exact ⟨fun i j x y hx hy hd hp hq => h.one i j x y hx hy hd (hin i x hx hp) (hin j y hy hq), h.kept⟩

/-- A step of worker `x`, the `i`-th. -/
theorem Alone.exec {g : Gateway} (h : Alone g) {i : ℕ} {x : Executor} (v : Input)
    (hx : g.executors[i]? = some x)
    (hap : x.pc = .enterDevice → ∀ y ∈ g.executors, y.deviceId = x.deviceId → y.entered = false) :
    Alone { g with shared := (x.step g.shared v).1,
                   executors := g.executors.set i (x.step g.shared v).2 } := by
  have hxm := List.mem_of_getElem? hx
  have hplaced := h.placed x hxm
  obtain ⟨-, hdev, -, -⟩ := x.step_same g.shared v
  -- a worker that was not inside its device is there now only when it has just entered
  have hin : (x.step g.shared v).2.entered = true → x.entered = true ∨ x.pc = .enterDevice := by
    rw [x.step_entered]
    split
    · exact fun _ => Or.inr ‹_›
    · exact fun he => by cases he
    · exact Or.inl
  -- it meets nobody there
  have hmeet : ∀ (j : ℕ) (y : Executor), j ≠ i → g.executors[j]? = some y →
      y.deviceId = x.deviceId → y.entered = true → (x.step g.shared v).2.entered = true → False := by
    intro j y hj hy hd hey hex
    rcases hin hex with he | hpc
    · exact hj (h.one j i y x hy hx hd hey he)
    · rw [hap hpc y (List.mem_of_getElem? hy) hd] at hey
      cases hey
  refine ⟨fun y hy => ?_, fun y hy => ?_, fun j k y z hy hz hd hey hez => ?_⟩
  · obtain ⟨j, hj⟩ := List.mem_iff_getElem?.mp hy
    rcases getElem?_set_cases hj with ⟨rfl, rfl⟩ | ⟨-, hj⟩
    · exact hplaced.step g.shared v
    · exact h.placed y (List.mem_of_getElem? hj)
  · obtain ⟨j, hj⟩ := List.mem_iff_getElem?.mp hy
    rcases getElem?_set_cases hj with ⟨rfl, rfl⟩ | ⟨hne, hj⟩
    · exact (h.kept x hxm).step v hplaced
    · have hky := h.kept y (List.mem_of_getElem? hj)
      by_cases hd : y.deviceId = x.deviceId
      · by_cases hey : y.entered = true
        · -- `y` is inside, so `x` is outside and stays there
          have hout : x.pc.window = .out := by
            by_contra hw
            exact hne (h.one j i y x hj hx hd hey (hplaced.entered.mpr hw))
          have hpc : x.pc ≠ .enterDevice := by
            intro hpc
            rw [hap hpc y (List.mem_of_getElem? hj) hd] at hey
            cases hey
          exact hky.congr (x.step_guards_outside g.shared v hout hpc _)
        · -- `y` is outside and holds nothing
          have hw := mt (h.placed y (List.mem_of_getElem? hj)).entered.mpr hey
          have hw := not_not.mp hw
          refine ⟨fun he => absurd he hey, fun hm => ?_, fun hl => ?_⟩
          · rcases (h.placed y (List.mem_of_getElem? hj)).muted hm with hc | hc <;>
              rw [hc] at hw <;> cases hw
          · rw [(h.placed y (List.mem_of_getElem? hj)).locked hl] at hw
            cases hw
      · exact hky.congr (x.step_guards_of_ne g.shared v hd)
  · rcases getElem?_set_cases hy with ⟨rfl, rfl⟩ | ⟨hj, hy'⟩ <;>
      rcases getElem?_set_cases hz with ⟨rfl, rfl⟩ | ⟨hk, hz'⟩
    · rfl
    · exact (hmeet k z hk hz' (by rw [← hd, hdev]) hez hey).elim
    · exact (hmeet j y hj hy' (by rw [hd, hdev]) hey hez).elim
    · exact h.one j k y z hy' hz' hd hey hez

theorem Alone.launch {g g' : Gateway} (h : Alone g) (t : OtaTask) (transport : String)
    (hx : g'.executors = g.executors ++ [newExecutor t transport])
    (hg : ∀ d, g'.shared.guards d = g.shared.guards d) : Alone g' := by
  have hmem : ∀ y ∈ g'.executors, y ∈ g.executors ∨ y = newExecutor t transport := by
    intro y hy
    rw [hx] at hy
    rcases List.mem_append.mp hy with hy | hy
    · exact Or.inl hy
    · exact Or.inr (List.mem_singleton.mp hy)
  refine ⟨fun y hy => ?_, fun y hy => ?_, fun i j y z hy hz hd hey hez => ?_⟩
  · rcases hmem y hy with hy | rfl
    · exact h.placed y hy
    · exact ⟨by simp [newExecutor, Pc.window], fun hm => (by cases hm), fun hl => (by cases hl)⟩
  · rcases hmem y hy with hy | rfl
    · exact (h.kept y hy).congr (hg _)
    · exact ⟨fun he => (by cases he), fun hm => (by cases hm), fun hl => (by cases hl)⟩
  · rw [hx] at hy hz
    rcases getElem?_concat_cases hy with hy | ⟨-, rfl⟩
    · rcases getElem?_concat_cases hz with hz | ⟨-, rfl⟩
      · exact h.one i j y z hy hz hd hey hez
      · cases hez
    · cases hey

theorem Alone.step {g : Gateway} {e : Event} (h : Alone g) (hap : Apart g e) :
    Alone (g.step e).1 := by
  rcases g.step_cases e with ⟨i, x, v, rfl, hx, hs⟩ | ⟨src, t, transport, active_t, rfl, -, -, hs⟩ |
    ⟨hx, hg⟩
  · rw [hs]
    exact h.exec v hx (hap x hx)
  · rw [hs]
    exact h.launch t (runTransport transport active_t) rfl fun d => rfl
  · refine ⟨?_, ?_, ?_⟩ <;> rw [hx]
    · exact h.placed
    · exact fun y hy => (h.kept y hy).congr (hg _)
    · exact h.one

theorem bootGateway_alone (store : PersistentStore) : Alone (bootGateway store) :=
  ⟨fun x hx => (by cases hx), fun x hx => (by cases hx), fun i j x y hx => by simp [bootGateway] at hx⟩

/-- While no worker enters a device that another worker is in, each transfer is the only one of its
device, and muted, locked and marked until the worker itself leaves. -/
theorem guards_hold (store : PersistentStore) (es : List Event)
    (h : Always Gateway.step Apart (bootGateway store) es) :
    Always Gateway.step (fun g e => Exclusive (g.step e).1) (bootGateway store) es :=
  Always.of_invariant
    (fun _ _ ha hap => ⟨ha.step hap, (ha.step hap).exclusive⟩) (bootGateway_alone store) h

/-- The store works, the firmware is there, nothing comes back from the device. -/
def calm : Input :=
  ⟨⟨0, 0, none, none⟩, true, true, false, "", true, "", false, .goes, false, false, ⟨"", 0, 0⟩, 0⟩

def emptyStore : PersistentStore := ⟨fun _ => none, []⟩

/-- A task for device 1, created in millisecond `ms` and launched. -/
def stm32Task (ms : ℕ) : List Event :=
  [.create .monitor ⟨some 1, some "stm32", some "fw", some "serial"⟩ "" ⟨ms, 0, none, none⟩,
    .launch .monitor ""]

/-- The second task ends for lack of its firmware before the first one starts. -/
theorem guards_hold_in_turn : Always Gateway.step (fun g e => Exclusive (g.step e).1)
    (bootGateway emptyStore)
    (stm32Task 1 ++ stm32Task 2 ++ List.replicate 16 (.exec 1 { calm with found := false }) ++
      List.replicate 19 (.exec 0 calm)) :=
  guards_hold emptyStore _ (by decide +kernel)

/-- It ends while the first one transfers, and takes the guards with it. -/
theorem guards_dropped : ¬ ∀ store es,
    Always Gateway.step (fun g e => Exclusive (g.step e).1) (bootGateway store) es := by
  intro h
  have hrun := h emptyStore ((stm32Task 1 ++ stm32Task 2 ++ List.replicate 19 (.exec 0 calm) ++
    List.replicate 13 (.exec 1 { calm with found := false })) ++ [.exec 1 calm])
  have hlast := ((always_append Gateway.step _ _ _ _).mp hrun).2.1
  have hmuted := fun x hx => (hlast.kept x hx).muted
  revert hmuted
  decide +kernel

end EdgeLink.Ota
