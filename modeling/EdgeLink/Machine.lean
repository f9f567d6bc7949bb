import Mathlib

namespace EdgeLink.Machine

variable {S E O : Type*} (step : S → E → S × O)

def run (s : S) (es : List E) : S := es.foldl (fun s e => (step s e).1) s

/-- `P` holds of every state and event met along the run. -/
def Always (P : S → E → Prop) : S → List E → Prop
  | _, [] => True
  | s, e :: es => P s e ∧ Always P (step s e).1 es

instance decidableAlways (P : S → E → Prop) [∀ s e, Decidable (P s e)] :
    (s : S) → (es : List E) → Decidable (Always step P s es)
  | _, [] => isTrue trivial
  | s, e :: es =>
    have := decidableAlways P (step s e).1 es
    inferInstanceAs (Decidable (P s e ∧ Always step P (step s e).1 es))

@[simp] theorem run_nil (s : S) : run step s [] = s := rfl

@[simp] theorem run_cons (s : S) (e : E) (es : List E) :
    run step s (e :: es) = run step (step s e).1 es := rfl

theorem run_append (s : S) (es fs : List E) :
    run step s (es ++ fs) = run step (run step s es) fs := List.foldl_append

theorem run_replicate (s : S) (n : ℕ) (e : E) :
    run step s (List.replicate n e) = (fun s => (step s e).1)^[n] s := by
  induction n generalizing s with
  | zero => rfl
  | succ n ih => rw [List.replicate_succ, run_cons, ih, Function.iterate_succ_apply]

theorem always_append (P : S → E → Prop) (s : S) (es fs : List E) :
    Always step P s (es ++ fs) ↔ Always step P s es ∧ Always step P (run step s es) fs := by
  induction es generalizing s with
  | nil => simp [Always]
  | cons e es ih => simp only [List.cons_append, Always, ih, run_cons, and_assoc]

theorem Always.of_forall {P : S → E → Prop} {es : List E} (h : ∀ e ∈ es, ∀ s, P s e) (s : S) :
    Always step P s es := by
  induction es generalizing s with
  | nil => trivial
  | cons e es ih =>
    exact ⟨h e List.mem_cons_self s, ih (fun e he => h e (List.mem_cons_of_mem _ he)) _⟩

variable {step} {I : S → Prop} {C Q : S → E → Prop}

theorem Always.and {s : S} {es : List E} (hc : Always step C s es) (hq : Always step Q s es) :
    Always step (fun s e => C s e ∧ Q s e) s es := by
  induction es generalizing s with
  | nil => trivial
  | cons e es ih => exact ⟨⟨hc.1, hq.1⟩, ih hc.2 hq.2⟩

/-- What one guarded step keeps, a guarded run keeps. -/
theorem run_invariant (hstep : ∀ s e, I s → C s e → I (step s e).1) {s : S} {es : List E}
    (hs : I s) (hc : Always step C s es) : I (run step s es) := by
  induction es generalizing s with
  | nil => exact hs
  | cons e es ih => exact ih (hstep s e hs hc.1) hc.2

/-- What every step keeps, every run keeps. -/
theorem run_keeps (hstep : ∀ s e, I s → I (step s e).1) {s : S} (hs : I s) (es : List E) :
    I (run step s es) := by
  induction es generalizing s with
  | nil => exact hs
  | cons e es ih => exact ih (hstep s e hs)

theorem Always.of_invariant (hstep : ∀ s e, I s → C s e → I (step s e).1 ∧ Q s e)
    {s : S} {es : List E} (hs : I s) (hc : Always step C s es) : Always step Q s es := by
  induction es generalizing s with
  | nil => trivial
  | cons e es ih => exact ⟨(hstep s e hs hc.1).2, ih (hstep s e hs hc.1).1 hc.2⟩

/-- A guard that is exact at each step, given the invariant, is exact for whole runs. -/
theorem always_iff_of_invariant (hstep : ∀ s e, I s → C s e → I (step s e).1)
    (hiff : ∀ s e, I s → (C s e ↔ Q s e)) {s : S} {es : List E} (hs : I s) :
    Always step C s es ↔ Always step Q s es := by
  induction es generalizing s with
  | nil => exact Iff.rfl
  | cons e es ih =>
    simp only [Always]
    constructor
    · rintro ⟨hc, hcs⟩
      exact ⟨(hiff s e hs).mp hc, (ih (hstep s e hs hc)).mp hcs⟩
    · rintro ⟨hq, hqs⟩
      have hc := (hiff s e hs).mpr hq
      exact ⟨hc, (ih (hstep s e hs hc)).mpr hqs⟩

/-- The machine beside an observer that takes notes. -/
def watched {G : Type*} (step : S → E → S × O) (observe : S → G → E → O → G) (w : S × G) (e : E) :
    (S × G) × O :=
  let r := step w.1 e
  ((r.1, observe w.1 w.2 e r.2), r.2)

theorem watched_fst {G : Type*} (step : S → E → S × O) (observe : S → G → E → O → G) (s : S) (g : G)
    (e : E) : (watched step observe (s, g) e).1 = ((step s e).1, observe s g e (step s e).2) := rfl

/-- The observer does not disturb the machine. -/
theorem watched_run {G : Type*} (step : S → E → S × O) (observe : S → G → E → O → G) (w : S × G)
    (es : List E) : (run (watched step observe) w es).1 = run step w.1 es := by
  induction es generalizing w with
  | nil => rfl
  | cons e es ih => exact ih (watched step observe w e).1

def trace (step : S → E → S × O) (s : S) (es : ℕ → E) : ℕ → S
  | 0 => s
  | n + 1 => (step (trace step s es n) (es n)).1

/-- What can happen again and again does happen again and again. -/
def StrongFair (enabled occurs : ℕ → Prop) : Prop :=
  (∀ n, ∃ m, n ≤ m ∧ enabled m) → ∀ n, ∃ m, n ≤ m ∧ occurs m

theorem trace_invariant {I : S → Prop} (hstep : ∀ s e, I s → I (step s e).1) {s : S} (hs : I s)
    (es : ℕ → E) (n : ℕ) : I (trace step s es n) := by
  induction n with
  | zero => exact hs
  | succ n ih => exact hstep _ _ ih

/-- What stays until `P` is still there at the first `P`. -/
theorem trace_until {s : S} {es : ℕ → E} {I : S → Prop} {P : ℕ → Prop} {n : ℕ}
    (hstay : ∀ k, I (trace step s es k) → ¬ P k → I (trace step s es (k + 1)))
    (hP : (∀ m, n ≤ m → I (trace step s es m)) → ∃ m, n ≤ m ∧ P m)
    (h : I (trace step s es n)) : ∃ m, n ≤ m ∧ P m ∧ I (trace step s es m) := by
  by_contra hno
  have hforever : ∀ m, n ≤ m → I (trace step s es m) := by
    intro m hm
    induction m, hm using Nat.le_induction with
    | base => exact h
    | succ k hk ih => exact hstay k ih fun hp => hno ⟨k, hk, hp, ih⟩
  obtain ⟨m, hm, hp⟩ := hP hforever
  exact hno ⟨m, hm, hp, hforever m hm⟩

theorem getElem?_set_cases {α : Type*} {l : List α} {i j : ℕ} {a b : α}
    (h : (l.set i a)[j]? = some b) : j = i ∧ b = a ∨ j ≠ i ∧ l[j]? = some b := by
  by_cases hj : j = i
  · subst hj
    rw [List.getElem?_set_self (by simpa using (List.getElem?_eq_some_iff.mp h).1)] at h
    exact Or.inl ⟨rfl, (Option.some.inj h).symm⟩
  · rw [List.getElem?_set_ne (Ne.symm hj)] at h
    exact Or.inr ⟨hj, h⟩

theorem getElem?_concat_cases {α : Type*} {l : List α} {i : ℕ} {a b : α}
    (h : (l ++ [a])[i]? = some b) : l[i]? = some b ∨ i = l.length ∧ b = a := by
  rcases lt_trichotomy i l.length with hlt | rfl | hgt
  · rw [List.getElem?_append_left hlt] at h
    exact Or.inl h
  · rw [List.getElem?_concat_length] at h
    exact Or.inr ⟨rfl, (Option.some.inj h).symm⟩
  · rw [List.getElem?_eq_none (by rw [List.length_append, List.length_singleton]; omega)] at h
    cases h

end EdgeLink.Machine
