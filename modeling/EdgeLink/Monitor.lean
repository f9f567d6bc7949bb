import EdgeLink.Machine

namespace EdgeLink.Monitor

structure Waiters (T : Type*) where
  asleep : List T
  /-- woken, and not run again yet -/
  called : List T

namespace Waiters
variable {T : Type*} (w : Waiters T)

def nobody : Waiters T := ⟨[], []⟩

def sleep (t : T) : Waiters T := { w with asleep := w.asleep ++ [t] }

/-- One sleeper is woken, if there is one; which one is left open. -/
def wake (i : ℕ) : Waiters T :=
  match w.asleep[i % w.asleep.length]? with
  | none => w
  | some t => ⟨w.asleep.eraseIdx (i % w.asleep.length), w.called ++ [t]⟩

def wakeAll : Waiters T := ⟨[], w.called ++ w.asleep⟩

def dismiss (i : ℕ) : Waiters T := { w with called := w.called.eraseIdx i }

def blocked : List T := w.asleep ++ w.called

@[simp] theorem sleep_asleep (t : T) : (w.sleep t).asleep = w.asleep ++ [t] := rfl

@[simp] theorem sleep_called (t : T) : (w.sleep t).called = w.called := rfl

@[simp] theorem wakeAll_asleep : w.wakeAll.asleep = [] := rfl

@[simp] theorem wakeAll_called : w.wakeAll.called = w.called ++ w.asleep := rfl

@[simp] theorem dismiss_asleep (i : ℕ) : (w.dismiss i).asleep = w.asleep := rfl

@[simp] theorem dismiss_called (i : ℕ) : (w.dismiss i).called = w.called.eraseIdx i := rfl

variable {w}

theorem wake_of_nil (h : w.asleep = []) (i : ℕ) : w.wake i = w := by
  simp [wake, h]

/-- A sleeper that is woken changes sides. -/
theorem wake_of_ne_nil (h : w.asleep ≠ []) (i : ℕ) :
    ∃ t l r, w.asleep = l ++ t :: r ∧ w.wake i = ⟨l ++ r, w.called ++ [t]⟩ := by
  have hi : i % w.asleep.length < w.asleep.length := Nat.mod_lt _ (List.length_pos_of_ne_nil h)
  refine ⟨w.asleep[i % w.asleep.length], w.asleep.take (i % w.asleep.length),
    w.asleep.drop (i % w.asleep.length + 1), ?_, ?_⟩
  · rw [← List.drop_eq_getElem_cons hi, List.take_append_drop]
  · simp only [wake, List.getElem?_eq_getElem hi, List.eraseIdx_eq_take_drop_succ]

theorem wake_called (h : w.asleep ≠ []) (i : ℕ) :
    (w.wake i).called.length = w.called.length + 1 := by
  obtain ⟨t, l, r, -, hw⟩ := wake_of_ne_nil h i
  simp [hw]

theorem wake_asleep_nil (h : w.asleep = []) (i : ℕ) : (w.wake i).asleep = [] := by
  rw [wake_of_nil h, h]

theorem dismiss_length {i : ℕ} (hi : i < w.called.length) :
    (w.dismiss i).called.length + 1 = w.called.length := by
  rw [dismiss_called, List.length_eraseIdx_of_lt hi]
  omega

theorem blocked_sleep (t : T) : (w.sleep t).blocked.Perm (t :: w.blocked) := by
  simp only [blocked, sleep_asleep, sleep_called, List.append_assoc, List.singleton_append]
  exact List.perm_middle

theorem blocked_wake (i : ℕ) : (w.wake i).blocked.Perm w.blocked := by
  by_cases h : w.asleep = []
  · rw [wake_of_nil h]
  · obtain ⟨t, l, r, hl, hw⟩ := wake_of_ne_nil h i
    simp only [blocked, hw, hl, List.append_assoc, List.cons_append]
    refine List.Perm.append_left l ?_
    rw [← List.append_assoc]
    exact List.perm_append_singleton t (r ++ w.called)

theorem blocked_wakeAll : w.wakeAll.blocked.Perm w.blocked := by
  simp only [blocked, wakeAll_asleep, wakeAll_called, List.nil_append]
  exact List.perm_append_comm

theorem blocked_dismiss {i : ℕ} {t : T} (h : w.called[i]? = some t) :
    w.blocked.Perm (t :: (w.dismiss i).blocked) := by
  obtain ⟨hi, rfl⟩ := List.getElem?_eq_some_iff.mp h
  have hc : w.called.Perm (w.called[i] :: w.called.eraseIdx i) :=
    (List.getElem_cons_eraseIdx_perm hi).symm
  exact (List.Perm.append_left w.asleep hc).trans List.perm_middle

/-- While anyone sleeps, every unit available has a woken thread coming for it. -/
def Covered (w : Waiters T) (units : ℕ) : Prop := w.asleep ≠ [] → units ≤ w.called.length

theorem Covered.nobody (units : ℕ) : Covered (nobody : Waiters T) units := fun h => absurd rfl h

theorem Covered.mono {a b : ℕ} (h : w.Covered b) (hab : a ≤ b) : w.Covered a :=
  fun hne => hab.trans (h hne)

theorem Covered.zero : w.Covered 0 := fun _ => Nat.zero_le _

theorem Covered.wake {units : ℕ} (h : w.Covered units) (i : ℕ) : (w.wake i).Covered units := by
  intro hne
  by_cases hw : w.asleep = []
  · exact absurd (wake_asleep_nil hw i) hne
  · have := h hw
    rw [wake_called hw]
    omega

/-- A new unit, and a thread woken for it. -/
theorem Covered.notify {units : ℕ} (h : w.Covered units) (i : ℕ) :
    (w.wake i).Covered (units + 1) := by
  intro hne
  by_cases hw : w.asleep = []
  · exact absurd (wake_asleep_nil hw i) hne
  · have := h hw
    rw [wake_called hw]
    omega

/-- A woken thread takes the unit it came for. -/
theorem Covered.dismiss {units i : ℕ} (h : w.Covered (units + 1)) (hi : i < w.called.length) :
    (w.dismiss i).Covered units := by
  intro hne
  have := h hne
  have := dismiss_length hi
  omega

end Waiters

end EdgeLink.Monitor
