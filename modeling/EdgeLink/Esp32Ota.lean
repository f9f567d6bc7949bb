import EdgeLink.Machine
import EdgeLink.MemberSearch

namespace EdgeLink.Esp32Ota

open Json Pattern
open Lookup (stoll)

/-! The outcomes of the ESP32 updates, kept by device and command until their tasks look. -/

structure Esp32OtaStatus where
  device_id : UInt8 := 0
  command_id : UInt32 := 0
  ota_state : Text := []
  progress : Int32 := 0
  version_from : Text := []
  version_to : Text := []
  error_code : Int32 := 0
  deriving DecidableEq

def jsonGetInt (s key : Text) : Option ℤ :=
  (search (member key signedValue) s).bind fun (digits, _) => (stoll digits).map Prod.fst

def jsonGetString (s key : Text) : Option Text :=
  (search (member key (textValue 0)) s).map Prod.fst

/-- The command that a line names, as an integer. -/
def commandOf (line : Text) : Option ℤ :=
  match jsonGetInt line (ascii "command_id") with
  | some cmd => some cmd
  | none => jsonGetInt line (ascii "cmd_id")

def parseOtaStatusJson (line : Text) : Option Esp32OtaStatus :=
  if jsonGetString line (ascii "event_type") ≠ some (ascii "ota_status") then none
  else
    let state :=
      match jsonGetString line (ascii "ota_state") with
      | some state => some state
      | none => jsonGetString line (ascii "state")
    match jsonGetInt line (ascii "device_id"), commandOf line, state with
    | some dev, some cmd, some state => some
        { device_id := .ofInt dev
          command_id := .ofInt cmd
          ota_state := state
          progress := ((jsonGetInt line (ascii "progress")).map Int32.ofInt).getD 0
          version_from := (jsonGetString line (ascii "version_from")).getD []
          version_to := (jsonGetString line (ascii "version_to")).getD []
          error_code := ((jsonGetInt line (ascii "error_code")).map Int32.ofInt).getD 0 }
    | _, _, _ => none

def hasTerminal (st : Esp32OtaStatus) : Bool :=
  st.ota_state == ascii "success" || st.ota_state == ascii "failed"

structure Esp32OtaStatusSlot where
  last_status : Esp32OtaStatus := {}
  has_status : Bool := false

/-- The statuses, by key. -/
abbrev StatusMap := UInt64 → Option Esp32OtaStatusSlot

def makeEsp32OtaStatusKey (device_id : UInt8) (command_id : UInt32) : UInt64 :=
  (device_id.toUInt64 <<< 32) ||| command_id.toUInt64

def Esp32OtaStatus.key (st : Esp32OtaStatus) : UInt64 :=
  makeEsp32OtaStatusKey st.device_id st.command_id

def StatusMap.erase (slots : StatusMap) (key : UInt64) : StatusMap := Function.update slots key none

def publishEsp32OtaStatus (slots : StatusMap) (st : Esp32OtaStatus) : StatusMap :=
  Function.update slots st.key (some ⟨st, true⟩)

/-- Where a task stands: `waitEsp32OtaStatus` goes round until it returns. -/
inductive Phase
  | cleared
  | sent
  | waiting (deadline : ℤ) (out : Esp32OtaStatus)
  | returned (ok : Bool) (out : Esp32OtaStatus)
  | stopped

structure Task where
  device_id : UInt8
  command_id : UInt32
  canceled : Bool := false
  phase : Phase := .cleared

def Task.key (t : Task) : UInt64 := makeEsp32OtaStatusKey t.device_id t.command_id

/-- One round of `waitEsp32OtaStatus`, under the lock. -/
def waitRound (now : ℤ) (slots : StatusMap) (t : Task) (deadline : ℤ) (out : Esp32OtaStatus) :
    StatusMap × Phase :=
  if now < deadline then
    if t.canceled then (slots.erase t.key, .returned false out)
    else
      match slots t.key with
      | some slot =>
        if slot.has_status then
          if hasTerminal slot.last_status then
            (slots.erase t.key, .returned true slot.last_status)
          else (slots, .waiting deadline slot.last_status)
        else (slots, .waiting deadline out)
      | none => (slots, .waiting deadline out)
  else (slots.erase t.key, .returned false out)

structure State where
  now : ℤ := 0
  slots : StatusMap := fun _ => none
  tasks : List Task := []

/-- What can happen: a task clears its slot, sends, begins to wait and goes round; it is canceled;
a line arrives; time passes. -/
inductive Event
  | clear (device_id : UInt8) (command_id : UInt32)
  | send (i : ℕ) (ok : Bool)
  | wait (i : ℕ) (timeout_ms : ℤ)
  | look (i : ℕ)
  | cancel (i : ℕ)
  | line (line : Text)
  | pass (ms : ℕ)

def State.setTask (s : State) (i : ℕ) (t : Task) : State := { s with tasks := s.tasks.set i t }

def next (s : State) : Event → State
  | .clear device_id command_id =>
    { s with
      slots := s.slots.erase (makeEsp32OtaStatusKey device_id command_id)
      tasks := s.tasks ++ [{ device_id := device_id, command_id := command_id }] }
  | .send i ok =>
    match s.tasks[i]? with
    | some t =>
      match t.phase with
      | .cleared => s.setTask i { t with phase := if ok then .sent else .stopped }
      | _ => s
    | none => s
  | .wait i timeout_ms =>
    match s.tasks[i]? with
    | some t =>
      match t.phase with
      | .sent => s.setTask i { t with phase := .waiting (s.now + timeout_ms) {} }
      | _ => s
    | none => s
  | .look i =>
    match s.tasks[i]? with
    | some t =>
      match t.phase with
      | .waiting deadline out =>
        let r := waitRound s.now s.slots t deadline out
        { s with slots := r.1, tasks := s.tasks.set i { t with phase := r.2 } }
      | _ => s
    | none => s
  | .cancel i =>
    match s.tasks[i]? with
    | some t => s.setTask i { t with canceled := true }
    | none => s
  | .line line =>
    match parseOtaStatusJson line with
    | some st => { s with slots := publishEsp32OtaStatus s.slots st }
    | none => s
  | .pass ms => { s with now := s.now + ms }

def step (s : State) (e : Event) : State × Unit := (next s e, ())

/-- The line's integers are the task's ids, and it reports the status. -/
def Reports (line : Text) (t : Task) (st : Esp32OtaStatus) : Prop :=
  jsonGetInt line (ascii "device_id") = some (t.device_id.toNat : ℤ) ∧
    commandOf line = some (t.command_id.toNat : ℤ) ∧ parseOtaStatusJson line = some st

instance (line : Text) (t : Task) (st : Esp32OtaStatus) : Decidable (Reports line t st) :=
  inferInstanceAs (Decidable (_ ∧ _ ∧ _))

/-- What is noted of a task: the lines since its clear, and the first outcome that was reported to
it while it waited and its deadline was ahead. -/
structure Note where
  heard : List Text := []
  awaited : Option Esp32OtaStatus := none

def awaitedAfter (s : State) (i : ℕ) (line : Text) : Option Esp32OtaStatus :=
  match s.tasks[i]?, parseOtaStatusJson line with
  | some t, some st =>
    match t.phase with
    | .waiting deadline _ =>
      if s.now < deadline ∧ hasTerminal st = true ∧ Reports line t st then some st else none
    | _ => none
  | _, _ => none

def observe (s : State) (notes : ℕ → Note) (e : Event) (_ : Unit) : ℕ → Note :=
  match e with
  | .clear _ _ => Function.update notes s.tasks.length {}
  | .line line => fun i =>
    { heard := line :: (notes i).heard
      awaited := (notes i).awaited <|> awaitedAfter s i line }
  | _ => notes

abbrev Watched := State × (ℕ → Note)

/-- Where the tasks begin: none is there. -/
def start : Watched := ({}, fun _ => {})

/-- An outcome that a task returns was reported to it since its clear. An outcome that was reported
while it waited is what it returns: it has done so, or will at its next look before the deadline. -/
structure Delivered (w : Watched) : Prop where
  own : ∀ i t st, w.1.tasks[i]? = some t → t.phase = .returned true st →
    hasTerminal st = true ∧ ∃ line ∈ (w.2 i).heard, Reports line t st
  kept : ∀ i t st, w.1.tasks[i]? = some t → (w.2 i).awaited = some st → t.canceled = false →
    t.phase = .returned true st ∨
    ∃ deadline out, t.phase = .waiting deadline out ∧ (w.1.now < deadline →
      (next w.1 (.look i)).tasks[i]? = some { t with phase := .returned true st })

def Phase.live : Phase → Prop
  | .cleared | .sent | .waiting _ _ => True
  | _ => False

/-- The task waits, was not canceled, and the status was reported to it. -/
def Promised (w : Watched) (i : ℕ) (t : Task) (deadline : ℤ) (st : Esp32OtaStatus) : Prop :=
  w.1.tasks[i]? = some t ∧ t.canceled = false ∧ (∃ out, t.phase = .waiting deadline out) ∧
    (w.2 i).awaited = some st

/-- No outcome is for another task with the same key, and what a waiting task was told stays: no
other status is stored over it, no other task clears or takes it, and the task looks in time. -/
def Careful (w : Watched) : Event → Prop
  | .line line => ∀ r, parseOtaStatusJson line = some r →
    (∀ (i : ℕ) (t : Task), w.1.tasks[i]? = some t → t.phase.live → t.key = r.key →
      hasTerminal r = true → Reports line t r) ∧
    ∀ i t deadline st, Promised w i t deadline st → t.key = r.key → r = st
  | .clear device_id command_id => ∀ i t deadline st, Promised w i t deadline st →
    t.key ≠ makeEsp32OtaStatusKey device_id command_id
  | .look j => ∀ (u : Task) (deadline' : ℤ) (out' : Esp32OtaStatus),
    w.1.tasks[j]? = some u → u.phase = .waiting deadline' out' →
      ∀ i t deadline st, Promised w i t deadline st → t.key = u.key → i = j ∧ w.1.now < deadline
  | _ => True

/-- Integers that are a task's ids are narrowed to them. -/
theorem reports_key {line : Text} {t : Task} {st : Esp32OtaStatus} (h : Reports line t st) :
    st.key = t.key := by
  obtain ⟨hdev, hcmd, hparse⟩ := h
  unfold parseOtaStatusJson at hparse
  rw [hdev, hcmd] at hparse
  split_ifs at hparse with htype
  dsimp only at hparse
  split at hparse
  · rename_i dev cmd state hd hc hs
    obtain rfl := Option.some.inj hparse
    obtain rfl := Option.some.inj hd
    obtain rfl := Option.some.inj hc
    have hdevice : (t.device_id.toNat : ℤ) < 2 ^ 8 := by exact_mod_cast t.device_id.toNat_lt
    have hcommand : (t.command_id.toNat : ℤ) < 2 ^ 32 := by exact_mod_cast t.command_id.toNat_lt
    unfold Esp32OtaStatus.key Task.key
    dsimp only
    rw [UInt8.ofInt, UInt32.ofInt, Int.emod_eq_of_lt (by omega) hdevice,
      Int.emod_eq_of_lt (by omega) hcommand, Int.toNat_natCast, Int.toNat_natCast, UInt8.ofNat_toNat,
      UInt32.ofNat_toNat]
  · cases hparse

/-- The invariant: a terminal status in the slot of a task that has not returned was reported to
it, and what it was told while it waited is still in the slot. -/
structure Kept (w : Watched) : Prop where
  stored : ∀ i t st f, w.1.tasks[i]? = some t → t.phase.live → w.1.slots t.key = some ⟨st, f⟩ →
    hasTerminal st = true → ∃ line ∈ (w.2 i).heard, Reports line t st
  own : ∀ i t st, w.1.tasks[i]? = some t → t.phase = .returned true st →
    hasTerminal st = true ∧ ∃ line ∈ (w.2 i).heard, Reports line t st
  held : ∀ i t st, w.1.tasks[i]? = some t → (w.2 i).awaited = some st → t.canceled = false →
    t.phase = .returned true st ∨ ∃ deadline out, t.phase = .waiting deadline out ∧
      w.1.slots t.key = some ⟨st, true⟩ ∧ hasTerminal st = true

section Round

variable (now : ℤ) (slots : StatusMap) (t : Task) (deadline : ℤ) (out : Esp32OtaStatus)

/-- A round that goes on takes nothing, one that gives up is late or canceled, and one that
succeeds takes the status from the slot. -/
theorem waitRound_cases :
    (∃ out', waitRound now slots t deadline out = (slots, .waiting deadline out')) ∨
    (waitRound now slots t deadline out = (slots.erase t.key, .returned false out) ∧
      (now < deadline → t.canceled = true)) ∨
    ∃ st f, slots t.key = some ⟨st, f⟩ ∧ hasTerminal st = true ∧
      waitRound now slots t deadline out = (slots.erase t.key, .returned true st) := by
  unfold waitRound
  split_ifs with hnow hcanceled
  · exact Or.inr (Or.inl ⟨rfl, fun _ => hcanceled⟩)
  · cases hslot : slots t.key with
    | none => exact Or.inl ⟨out, rfl⟩
    | some slot =>
      dsimp only
      split_ifs with hhas hterminal
      · exact Or.inr (Or.inr ⟨slot.last_status, slot.has_status, rfl, hterminal, rfl⟩)
      · exact Or.inl ⟨slot.last_status, rfl⟩
      · exact Or.inl ⟨out, rfl⟩
  · exact Or.inr (Or.inl ⟨rfl, fun h => absurd h hnow⟩)

variable {now slots t deadline}

theorem waitRound_success {st : Esp32OtaStatus} (hslot : slots t.key = some ⟨st, true⟩)
    (hst : hasTerminal st = true) (hcanceled : t.canceled = false) (hnow : now < deadline) :
    waitRound now slots t deadline out = (slots.erase t.key, .returned true st) := by
  unfold waitRound
  rw [if_pos hnow, hcanceled, if_neg Bool.false_ne_true, hslot]
  dsimp only
  rw [if_pos rfl, if_pos hst]

end Round

theorem look_eq {s : State} {i : ℕ} {t : Task} {deadline : ℤ} {out : Esp32OtaStatus}
    (ht : s.tasks[i]? = some t) (hphase : t.phase = .waiting deadline out) :
    next s (.look i) = { s with
      slots := (waitRound s.now s.slots t deadline out).1
      tasks := s.tasks.set i { t with phase := (waitRound s.now s.slots t deadline out).2 } } := by
  simp only [next, ht, hphase]

section Replace

variable {s : State} {notes : ℕ → Note} {i : ℕ} {t t' : Task} (slots : StatusMap)

/-- A task changes, and the slots lose at most statuses that nobody was told. -/
theorem kept_replace (hw : Kept (s, notes)) (ht : s.tasks[i]? = some t)
    (hids : t'.device_id = t.device_id ∧ t'.command_id = t.command_id)
    (hlive : t'.phase.live → t.phase.live)
    (hslots : ∀ key, slots key = s.slots key ∨ slots key = none)
    (hothers : ∀ j u deadline st, j ≠ i → Promised (s, notes) j u deadline st →
      slots u.key = s.slots u.key)
    (hown : ∀ st, t'.phase = .returned true st →
      hasTerminal st = true ∧ ∃ line ∈ (notes i).heard, Reports line t st)
    (hheld : ∀ st, (notes i).awaited = some st → t'.canceled = false →
      t'.phase = .returned true st ∨ ∃ deadline out, t'.phase = .waiting deadline out ∧
        slots t.key = some ⟨st, true⟩ ∧ hasTerminal st = true) :
    Kept ({ s with slots := slots, tasks := s.tasks.set i t' }, notes) := by
  have hkey : t'.key = t.key := by
    unfold Task.key
    rw [hids.1, hids.2]
  have hreports {line : Text} {st : Esp32OtaStatus} (h : Reports line t st) : Reports line t' st := by
    unfold Reports at h ⊢
    rwa [hids.1, hids.2]
  constructor
  · intro j u st f hu hulive hslot hst
    have hslot' : s.slots u.key = some ⟨st, f⟩ := by
      rcases hslots u.key with heq | hnone
      · exact heq ▸ hslot
      · exact absurd (hnone.symm.trans hslot) nofun
    rcases Machine.getElem?_set_cases hu with ⟨rfl, rfl⟩ | ⟨-, hu⟩
    · obtain ⟨line, hline, hr⟩ := hw.stored j t st f ht (hlive hulive) (hkey ▸ hslot') hst
      exact ⟨line, hline, hreports hr⟩
    · exact hw.stored j u st f hu hulive hslot' hst
  · intro j u st hu hphase
    rcases Machine.getElem?_set_cases hu with ⟨rfl, rfl⟩ | ⟨-, hu⟩
    · obtain ⟨hst, line, hline, hr⟩ := hown st hphase
      exact ⟨hst, line, hline, hreports hr⟩
    · exact hw.own j u st hu hphase
  · intro j u st hu hawaited hcanceled
    rcases Machine.getElem?_set_cases hu with ⟨rfl, rfl⟩ | ⟨hne, hu⟩
    · have h := hheld st hawaited hcanceled
      rwa [← hkey] at h
    · rcases hw.held j u st hu hawaited hcanceled with hphase | ⟨deadline, out, hphase, hslot, hst⟩
      · exact Or.inl hphase
      · have hsame := hothers j u deadline st hne ⟨hu, hcanceled, ⟨out, hphase⟩, hawaited⟩
        exact Or.inr ⟨deadline, out, hphase, hsame.trans hslot, hst⟩

end Replace

theorem erase_cases (slots : StatusMap) (key key' : UInt64) :
    slots.erase key key' = slots key' ∨ slots.erase key key' = none := by
  unfold StatusMap.erase
  by_cases h : key' = key
  · exact Or.inr (by rw [h, Function.update_self])
  · exact Or.inl (Function.update_of_ne h _ _)

section Steps

variable {s : State} {notes : ℕ → Note}

/-- A new task finds its slot empty, and has been told nothing. -/
theorem kept_clear (new : Task) (hw : Kept (s, notes)) (hnew : new.phase = .cleared)
    (hc : ∀ i t deadline st, Promised (s, notes) i t deadline st → t.key ≠ new.key) :
    Kept ({ s with slots := s.slots.erase new.key, tasks := s.tasks ++ [new] },
      Function.update notes s.tasks.length {}) := by
  have hold {i : ℕ} {t : Task} (ht : s.tasks[i]? = some t) :
      (Function.update notes s.tasks.length {} : ℕ → Note) i = notes i :=
    Function.update_of_ne (List.getElem?_eq_some_iff.mp ht).1.ne _ _
  constructor
  · intro i t st f ht hlive hslot hst
    dsimp only at ht hslot
    by_cases hkey : t.key = new.key
    · rw [hkey, StatusMap.erase, Function.update_self] at hslot
      cases hslot
    · rw [StatusMap.erase, Function.update_of_ne hkey] at hslot
      rcases Machine.getElem?_concat_cases ht with ht | ⟨-, rfl⟩
      · dsimp only
        rw [hold ht]
        exact hw.stored i t st f ht hlive hslot hst
      · exact absurd rfl hkey
  · intro i t st ht hphase
    dsimp only at ht ⊢
    rcases Machine.getElem?_concat_cases ht with ht | ⟨-, rfl⟩
    · rw [hold ht]
      exact hw.own i t st ht hphase
    · exact absurd (hnew.symm.trans hphase) nofun
  · intro i t st ht hawaited hcanceled
    dsimp only at ht hawaited ⊢
    rcases Machine.getElem?_concat_cases ht with ht | ⟨rfl, rfl⟩
    · rw [hold ht] at hawaited
      rcases hw.held i t st ht hawaited hcanceled with hphase | ⟨deadline, out, hphase, hslot, hst⟩
      · exact Or.inl hphase
      · have hne := hc i t deadline st ⟨ht, hcanceled, ⟨out, hphase⟩, hawaited⟩
        refine Or.inr ⟨deadline, out, hphase, ?_, hst⟩
        rw [StatusMap.erase, Function.update_of_ne hne]
        exact hslot
    · rw [Function.update_self] at hawaited
      cases hawaited

/-- What a task was told while it waits needs it waiting, so another phase has been told nothing. -/
theorem untold (hw : Kept (s, notes)) {i : ℕ} {t : Task} (ht : s.tasks[i]? = some t)
    (hphase : t.phase = .cleared ∨ t.phase = .sent) {st : Esp32OtaStatus}
    (hawaited : (notes i).awaited = some st) : t.canceled ≠ false := by
  intro hcanceled
  rcases hw.held i t st ht hawaited hcanceled with h | ⟨deadline, out, h, -⟩ <;>
    rcases hphase with h' | h' <;> exact absurd (h.symm.trans h') nofun

theorem kept_send (hw : Kept (s, notes)) (i : ℕ) (ok : Bool) : Kept (next s (.send i ok), notes) := by
  unfold next
  dsimp only
  split
  · rename_i t ht
    split
    · rename_i hphase
      have hnone := @untold _ _ hw _ _ ht (Or.inl hphase)
      refine kept_replace s.slots hw ht ⟨rfl, rfl⟩ (fun _ => by rw [hphase]; trivial)
        (fun _ => Or.inl rfl) (fun _ _ _ _ _ _ => rfl) (fun st h => ?_)
        (fun st hawaited hcanceled => absurd hcanceled (hnone hawaited))
      cases ok <;> cases h
    · exact hw
  · exact hw

theorem kept_wait (hw : Kept (s, notes)) (i : ℕ) (timeout_ms : ℤ) :
    Kept (next s (.wait i timeout_ms), notes) := by
  unfold next
  dsimp only
  split
  · rename_i t ht
    split
    · rename_i hphase
      have hnone := @untold _ _ hw _ _ ht (Or.inr hphase)
      exact kept_replace s.slots hw ht ⟨rfl, rfl⟩ (fun _ => by rw [hphase]; trivial)
        (fun _ => Or.inl rfl) (fun _ _ _ _ _ _ => rfl) nofun
        (fun st hawaited hcanceled => absurd hcanceled (hnone hawaited))
    · exact hw
  · exact hw

theorem kept_cancel (hw : Kept (s, notes)) (i : ℕ) : Kept (next s (.cancel i), notes) := by
  unfold next
  dsimp only
  split
  · rename_i t ht
    exact kept_replace s.slots hw ht ⟨rfl, rfl⟩ id (fun _ => Or.inl rfl)
      (fun _ _ _ _ _ _ => rfl) (fun st h => hw.own i t st ht h) (fun _ _ => nofun)
  · exact hw

theorem kept_look (hw : Kept (s, notes)) {i : ℕ} (hc : Careful (s, notes) (.look i)) :
    Kept (next s (.look i), notes) := by
  cases ht : s.tasks[i]? with
  | none =>
    simp only [next, ht]
    exact hw
  | some t =>
    cases hphase : t.phase with
    | waiting deadline out =>
      rw [look_eq ht hphase]
      have hlive : t.phase.live := by rw [hphase]; trivial
      have hothers (j : ℕ) (u : Task) (d : ℤ) (st : Esp32OtaStatus) (hne : j ≠ i)
          (hp : Promised (s, notes) j u d st) : s.slots.erase t.key u.key = s.slots u.key :=
        Function.update_of_ne (fun heq => hne (hc t deadline out ht hphase j u d st hp heq).1) _ _
      rcases waitRound_cases s.now s.slots t deadline out with ⟨out', hr⟩ | ⟨hr, hearly⟩ | ⟨st, f, hslot, hst, hr⟩
      · rw [hr]
        refine kept_replace _ hw ht ⟨rfl, rfl⟩ (fun _ => hlive) (fun _ => Or.inl rfl)
          (fun _ _ _ _ _ _ => rfl) nofun (fun st hawaited hcanceled => ?_)
        rcases hw.held i t st ht hawaited hcanceled with h | ⟨_, _, -, hslot, hst⟩
        · exact absurd (hphase.symm.trans h) nofun
        · exact Or.inr ⟨deadline, out', rfl, hslot, hst⟩
      · rw [hr]
        refine kept_replace _ hw ht ⟨rfl, rfl⟩ (fun _ => hlive) (erase_cases s.slots t.key) hothers
          nofun (fun st hawaited hcanceled => ?_)
        -- a task that was told looks in time, and has not been canceled
        have hintime := (hc t deadline out ht hphase i t deadline st
          ⟨ht, hcanceled, ⟨out, hphase⟩, hawaited⟩ rfl).2
        exact absurd (hcanceled.symm.trans (hearly hintime)) nofun
      · rw [hr]
        refine kept_replace _ hw ht ⟨rfl, rfl⟩ (fun _ => hlive) (erase_cases s.slots t.key) hothers
          (fun st' h => ?_) (fun st' hawaited hcanceled => ?_)
        · obtain rfl : st = st' := by
            injection h
          exact ⟨hst, hw.stored i t st f ht hlive hslot hst⟩
        · rcases hw.held i t st' ht hawaited hcanceled with h | ⟨_, _, -, hslot', -⟩
          · exact absurd (hphase.symm.trans h) nofun
          · obtain rfl : st = st' := by
              have heq := Option.some.inj (hslot.symm.trans hslot')
              injection heq
            exact Or.inl rfl
    | _ =>
      simp only [next, ht, hphase]
      exact hw

theorem awaitedAfter_some {i : ℕ} {line : Text} {st : Esp32OtaStatus}
    (h : awaitedAfter s i line = some st) : ∃ t deadline out, s.tasks[i]? = some t ∧
      t.phase = .waiting deadline out ∧ hasTerminal st = true ∧ Reports line t st := by
  unfold awaitedAfter at h
  split at h
  · rename_i t r ht hr
    split at h
    · rename_i deadline out hphase
      split_ifs at h with hcond
      obtain rfl := Option.some.inj h
      exact ⟨t, deadline, out, ht, hphase, hcond.2⟩
    · cases h
  · cases h

theorem kept_line (hw : Kept (s, notes)) {line : Text} (hc : Careful (s, notes) (.line line)) :
    Kept (next s (.line line), observe s notes (.line line) ()) := by
  cases hparse : parseOtaStatusJson line with
  | none =>
    -- a line that is no report changes no slot and ends no wait
    have hnone (i : ℕ) : awaitedAfter s i line = none := by
      cases h : awaitedAfter s i line with
      | none => rfl
      | some st =>
        obtain ⟨t, -, -, -, -, -, -, -, hr⟩ := awaitedAfter_some h
        exact absurd (hparse.symm.trans hr) nofun
    simp only [next, hparse]
    refine ⟨fun i t st f ht hlive hslot hst => ?_, fun i t st ht hphase => ?_,
      fun i t st ht hawaited hcanceled => ?_⟩
    · obtain ⟨l, hl, hr⟩ := hw.stored i t st f ht hlive hslot hst
      exact ⟨l, List.mem_cons_of_mem line hl, hr⟩
    · obtain ⟨hst, l, hl, hr⟩ := hw.own i t st ht hphase
      exact ⟨hst, l, List.mem_cons_of_mem line hl, hr⟩
    · dsimp only [observe] at hawaited
      rw [hnone, Option.orElse_eq_orElse, Option.orElse_eq_or, Option.or_none] at hawaited
      exact hw.held i t st ht hawaited hcanceled
  | some r =>
    obtain ⟨hids, hover⟩ := hc r hparse
    simp only [next, hparse]
    have hhit {key : UInt64} (h : key = r.key) :
        publishEsp32OtaStatus s.slots r key = some ⟨r, true⟩ := by
      rw [h, publishEsp32OtaStatus, Function.update_self]
    have hmiss {key : UInt64} (h : key ≠ r.key) : publishEsp32OtaStatus s.slots r key = s.slots key :=
      Function.update_of_ne h _ _
    refine ⟨fun i t st f ht hlive hslot hst => ?_, fun i t st ht hphase => ?_,
      fun i t st ht hawaited hcanceled => ?_⟩
    · dsimp only at ht hslot ⊢
      by_cases hkey : t.key = r.key
      -- the slot of this key was just filled, from this very line
      · rw [hhit hkey] at hslot
        obtain ⟨rfl, rfl⟩ : r = st ∧ true = f := by
          have heq := Option.some.inj hslot
          injection heq with hr hf
          exact ⟨hr, hf⟩
        exact ⟨line, List.mem_cons_self, hids i t ht hlive hkey hst⟩
      · rw [hmiss hkey] at hslot
        obtain ⟨l, hl, hr⟩ := hw.stored i t st f ht hlive hslot hst
        exact ⟨l, List.mem_cons_of_mem line hl, hr⟩
    · obtain ⟨hst, l, hl, hr⟩ := hw.own i t st ht hphase
      exact ⟨hst, l, List.mem_cons_of_mem line hl, hr⟩
    · dsimp only [observe] at ht hawaited ⊢
      cases hold : (notes i).awaited with
      | some st' =>
        rw [hold] at hawaited
        obtain rfl : st' = st := Option.some.inj hawaited
        -- the answer has come before; a report with its key may only repeat it
        rcases hw.held i t st' ht hold hcanceled with hphase | ⟨deadline, out, hphase, hslot, hst⟩
        · exact Or.inl hphase
        · refine Or.inr ⟨deadline, out, hphase, ?_, hst⟩
          by_cases hkey : t.key = r.key
          · rw [hhit hkey, hover i t deadline st' ⟨ht, hcanceled, ⟨out, hphase⟩, hold⟩ hkey]
          · rw [hmiss hkey, hslot]
      | none =>
        rw [hold] at hawaited
        obtain ⟨u, deadline, out, hu, hphase, hst, hr⟩ := awaitedAfter_some hawaited
        obtain rfl : u = t := Option.some.inj (hu.symm.trans ht)
        obtain rfl : r = st := Option.some.inj (hparse.symm.trans hr.2.2)
        exact Or.inr ⟨deadline, out, hphase, hhit (reports_key hr).symm, hst⟩

theorem kept_step (w : Watched) (e : Event) (hw : Kept w) (hc : Careful w e) :
    Kept (Machine.watched step observe w e).1 := by
  obtain ⟨s, notes⟩ := w
  cases e with
  | clear device_id command_id =>
    have hnew (key : UInt64) (hkey : Task.key ⟨device_id, command_id, false, .cleared⟩ = key)
        (hc : ∀ i t deadline st, Promised (s, notes) i t deadline st → t.key ≠ key) :=
      kept_clear ⟨device_id, command_id, false, .cleared⟩ hw rfl (hkey ▸ hc)
    exact hnew _ rfl hc
  | send i ok => exact kept_send hw i ok
  | wait i timeout_ms => exact kept_wait hw i timeout_ms
  | look i => exact kept_look hw hc
  | cancel i => exact kept_cancel hw i
  | line line => exact kept_line hw hc
  | pass ms => exact ⟨hw.stored, hw.own, hw.held⟩

theorem Kept.delivered {w : Watched} (hw : Kept w) : Delivered w := by
  refine ⟨hw.own, fun i t st ht hawaited hcanceled => ?_⟩
  rcases hw.held i t st ht hawaited hcanceled with hphase | ⟨deadline, out, hphase, hslot, hst⟩
  · exact Or.inl hphase
  · refine Or.inr ⟨deadline, out, hphase, fun hnow => ?_⟩
    rw [look_eq ht hphase, waitRound_success out hslot hst hcanceled hnow]
    exact List.getElem?_set_self (List.getElem?_eq_some_iff.mp ht).1

end Steps

/-- In a run whose steps are careful, the outcomes belong to their tasks and reach them. -/
theorem outcomes_delivered (es : List Event)
    (hc : Machine.Always (Machine.watched step observe) Careful start es) :
    Delivered (Machine.run (Machine.watched step observe) start es) := by
  have hstart : Kept start := ⟨nofun, nofun, nofun⟩
  exact (Machine.run_invariant kept_step hstart hc).delivered

section Runs

def ownLine : Text := ascii
  "\x7b\"device_id\":1,\"event_type\":\"ota_status\",\"command_id\":5,\"ota_state\":\"success\"\x7d"

/-- Its device is 257, which is 1 in eight bits. -/
def foreignLine : Text := ascii
  "\x7b\"device_id\":257,\"event_type\":\"ota_status\",\"command_id\":5,\"ota_state\":\"success\"\x7d"

def laterLine : Text := ascii
  "\x7b\"device_id\":1,\"event_type\":\"ota_status\",\"command_id\":5,\"ota_state\":\"reboot\"\x7d"

def success : Esp32OtaStatus := { device_id := 1, command_id := 5, ota_state := ascii "success" }

theorem ownLine_reports : Reports ownLine ⟨1, 5, false, .cleared⟩ success := by decide +kernel

theorem foreignLine_parse : parseOtaStatusJson foreignLine = some success ∧
    jsonGetInt foreignLine (ascii "device_id") = some 257 := by decide +kernel

def reboot : Esp32OtaStatus := { device_id := 1, command_id := 5, ota_state := ascii "reboot" }

theorem laterLine_parse : parseOtaStatusJson laterLine = some reboot := by decide +kernel

def begun : List Event := [.clear 1 5, .send 0 true, .wait 0 120000]

def waitingTask : Task := ⟨1, 5, false, .waiting 120000 {}⟩

theorem begun_run : ∃ slots, Machine.run (Machine.watched step observe) start begun =
    (⟨0, slots, [waitingTask]⟩, fun _ => {}) := by
  refine ⟨_, Prod.ext rfl (funext fun i => ?_)⟩
  change (Function.update (fun _ => {}) 0 {} : ℕ → Note) i = {}
  rw [Function.update_apply, ite_self]

/-- A line for the waiting task's key is in the slot at the next look. -/
theorem look_run (slots : StatusMap) {st : Esp32OtaStatus} {line : Text}
    (hparse : parseOtaStatusJson line = some st) (hkey : st.key = waitingTask.key) :
    (next (next ⟨0, slots, [waitingTask]⟩ (.line line)) (.look 0)).tasks =
      [{ waitingTask with
        phase := (if hasTerminal st then .returned true st else .waiting 120000 st) }] := by
  have hline : next ⟨0, slots, [waitingTask]⟩ (.line line) =
      ⟨0, publishEsp32OtaStatus slots st, [waitingTask]⟩ := by
    simp only [next, hparse]
  have hslot : publishEsp32OtaStatus slots st waitingTask.key = some ⟨st, true⟩ := by
    rw [← hkey, publishEsp32OtaStatus, Function.update_self]
  have hround : waitRound 0 (publishEsp32OtaStatus slots st) waitingTask 120000 {} =
      if hasTerminal st then ((publishEsp32OtaStatus slots st).erase waitingTask.key, .returned true st)
      else (publishEsp32OtaStatus slots st, .waiting 120000 st) := by
    unfold waitRound
    rw [if_pos (by decide), if_neg (by decide), hslot]
    rfl
  rw [hline, look_eq (t := waitingTask) rfl rfl, hround]
  split_ifs <;> rfl

theorem own_awaited (slots : StatusMap) :
    awaitedAfter ⟨0, slots, [waitingTask]⟩ 0 ownLine = some success := by
  have hparse := ownLine_reports.2.2
  have hcond : (0 : ℤ) < 120000 ∧ hasTerminal success = true ∧ Reports ownLine waitingTask success :=
    ⟨by decide, by decide, ownLine_reports⟩
  unfold awaitedAfter
  rw [hparse]
  exact if_pos hcond

/-- The outcome of another device is taken for the task's, and a later status hides its own. -/
theorem outcomes_confused :
    ¬Delivered (Machine.run (Machine.watched step observe) start
      (begun ++ [.line foreignLine, .look 0])) ∧
    ¬Delivered (Machine.run (Machine.watched step observe) start
      (begun ++ [.line ownLine, .line laterLine])) := by
  obtain ⟨slots, hbegun⟩ := begun_run
  rw [Machine.run_append, Machine.run_append, hbegun]
  constructor
  · intro h
    have htask := look_run slots foreignLine_parse.1 rfl
    obtain ⟨-, line, hline, hreports⟩ := h.own 0 { waitingTask with phase := .returned true success }
      success (congrArg (·[0]?) htask) rfl
    obtain rfl := List.mem_singleton.mp hline
    exact absurd (foreignLine_parse.2.symm.trans hreports.1) (by decide)
  · intro h
    have hown : next ⟨0, slots, [waitingTask]⟩ (.line ownLine) =
        ⟨0, publishEsp32OtaStatus slots success, [waitingTask]⟩ := by
      simp only [next, ownLine_reports.2.2]
    have htask := congrArg (·[0]?)
      (look_run (publishEsp32OtaStatus slots success) laterLine_parse rfl)
    have hlater : next ⟨0, publishEsp32OtaStatus slots success, [waitingTask]⟩ (.line laterLine) =
        ⟨0, publishEsp32OtaStatus (publishEsp32OtaStatus slots success) reboot, [waitingTask]⟩ := by
      simp only [next, laterLine_parse]
    rw [hlater] at htask
    simp only [Machine.run_cons, Machine.run_nil, Machine.watched, step, hown, hlater] at h
    have hawaited := own_awaited slots
    rcases h.kept 0 waitingTask success rfl (by simp only [observe, hawaited]; rfl) rfl with
      hphase | ⟨deadline, out, hphase, hnext⟩
    · cases hphase
    · injection hphase with hdeadline
      have hlook := htask.symm.trans (hnext (hdeadline ▸ (by decide : (0 : ℤ) < 120000)))
      exact absurd (congrArg (Option.map Task.phase) hlook) nofun

theorem single_task {i : ℕ} {t u : Task} (h : [u][i]? = some t) : i = 0 ∧ t = u := by
  cases i with
  | zero => exact ⟨rfl, (Option.some.inj h).symm⟩
  | succ i => cases h

/-- A line of the task's own outcome, while nothing else was told to it. -/
theorem own_careful (slots : StatusMap) {notes : ℕ → Note}
    (htold : ∀ st, (notes 0).awaited = some st → st = success) :
    Careful (⟨0, slots, [waitingTask]⟩, notes) (.line ownLine) ∧
      ∃ slots' notes', (Machine.watched step observe (⟨0, slots, [waitingTask]⟩, notes)
        (.line ownLine)).1 = (⟨0, slots', [waitingTask]⟩, notes') ∧
          ∀ st, (notes' 0).awaited = some st → st = success := by
  have hown : next ⟨0, slots, [waitingTask]⟩ (.line ownLine) =
      ⟨0, publishEsp32OtaStatus slots success, [waitingTask]⟩ := by
    simp only [next, ownLine_reports.2.2]
  constructor
  · intro r hr
    obtain rfl : success = r := Option.some.inj (ownLine_reports.2.2.symm.trans hr)
    refine ⟨fun i t ht _ _ _ => ?_, fun i t deadline st hp _ => ?_⟩
    · obtain ⟨-, rfl⟩ := single_task ht
      exact ownLine_reports
    · obtain ⟨rfl, -⟩ := single_task hp.1
      exact (htold st hp.2.2.2).symm
  · refine ⟨publishEsp32OtaStatus slots success, observe ⟨0, slots, [waitingTask]⟩ notes
      (.line ownLine) (), ?_, fun st hst => ?_⟩
    · rw [Machine.watched_fst]
      exact congrArg (·, _) hown
    · have hnext : (notes 0).awaited.or (some success) = some st := by
        rw [← own_awaited slots, ← Option.orElse_eq_or (f := fun _ => _)]
        exact hst
      cases hold : (notes 0).awaited with
      | none =>
        rw [hold] at hnext
        exact (Option.some.inj hnext).symm
      | some st' =>
        rw [hold] at hnext
        obtain rfl := Option.some.inj hnext
        exact htold st' hold

/-- The node sends its outcome twice, and the task looks. -/
theorem outcomes_delivered_twice : Delivered (Machine.run (Machine.watched step observe) start
    (begun ++ [.line ownLine, .line ownLine, .look 0])) := by
  apply outcomes_delivered
  rw [Machine.always_append]
  refine ⟨⟨nofun, trivial, trivial, trivial⟩, ?_⟩
  obtain ⟨slots, hbegun⟩ := begun_run
  rw [hbegun]
  obtain ⟨hfirst, slots₁, notes₁, h₁, htold₁⟩ := @own_careful slots (fun _ => {}) nofun
  refine ⟨hfirst, ?_⟩
  rw [h₁]
  obtain ⟨hsecond, slots₂, notes₂, h₂, -⟩ := own_careful slots₁ htold₁
  refine ⟨hsecond, ?_⟩
  rw [h₂]
  refine ⟨fun u _ _ hu _ i t deadline st hp _ => ?_, trivial⟩
  obtain ⟨rfl, rfl⟩ := single_task hp.1
  obtain ⟨out, hphase⟩ := hp.2.2.1
  injection hphase with hdeadline
  exact ⟨rfl, hdeadline ▸ (by decide : (0 : ℤ) < 120000)⟩

end Runs

end EdgeLink.Esp32Ota
