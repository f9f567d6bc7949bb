import Mathlib

namespace EdgeLink.Holders

/-! Processes in a list, each of which may hold a resource. -/

variable {P R : Type*} {holds : P → Option R} {calls calls' : List P} {t : ℕ} {p p' : P} {r : R}

/-- No two processes hold the same resource. -/
def Single (holds : P → Option R) (calls : List P) : Prop :=
  ∀ (i j : ℕ) (p q : P) (r : R), calls[i]? = some p → calls[j]? = some q →
    holds p = some r → holds q = some r → i = j

def Free (holds : P → Option R) (calls : List P) (r : R) : Prop := ∀ p ∈ calls, holds p ≠ some r

instance [DecidableEq R] : Decidable (Free holds calls r) :=
  inferInstanceAs (Decidable (∀ p ∈ calls, holds p ≠ some r))

/-- Process `t` is replaced by `p'`, or `p'` joins as process `t`. -/
structure Moves (calls calls' : List P) (t : ℕ) (p' : P) : Prop where
  new : calls'[t]? = some p'
  others : ∀ j, j ≠ t → calls'[j]? = calls[j]?

theorem Moves.set (h : calls[t]? = some p) (p' : P) : Moves calls (calls.set t p') t p' :=
  ⟨List.getElem?_set_self (List.getElem?_eq_some_iff.mp h).1,
    fun _ hj => List.getElem?_set_ne (Ne.symm hj)⟩

theorem Moves.concat (calls : List P) (p' : P) : Moves calls (calls ++ [p']) calls.length p' := by
  refine ⟨List.getElem?_concat_length, fun j hj => ?_⟩
  rcases lt_or_gt_of_ne hj with hlt | hgt
  · exact List.getElem?_append_left hlt
  · rw [List.getElem?_eq_none hgt.le, List.getElem?_eq_none]
    rw [List.length_append, List.length_singleton]
    exact hgt

/-- What the moving process held before. -/
def heldAt (holds : P → Option R) (calls : List P) (t : ℕ) : Option R := calls[t]?.bind holds

theorem heldAt_some (h : calls[t]? = some p) : heldAt holds calls t = holds p := by
  unfold heldAt
  rw [h]
  rfl

theorem heldAt_length (holds : P → Option R) (calls : List P) :
    heldAt holds calls calls.length = none := by
  unfold heldAt
  rw [List.getElem?_eq_none le_rfl]
  rfl

/-- The others do not hold what the moving process has held. -/
theorem Single.others (hs : Single holds calls) {j : ℕ} {q : P} (hj : j ≠ t)
    (hq : calls[j]? = some q) (hheld : heldAt holds calls t = some r) : holds q ≠ some r := by
  intro hqr
  obtain ⟨p, hp, hpr⟩ := Option.bind_eq_some_iff.mp hheld
  exact hj (hs j t q p r hq hp hqr hpr)

/-- A process may go on with what it holds, or take what is free. -/
theorem Single.moves (hs : Single holds calls) (hm : Moves calls calls' t p')
    (hp : ∀ r, holds p' = some r → heldAt holds calls t = some r ∨ Free holds calls r) :
    Single holds calls' := by
  have hother : ∀ (j : ℕ) (q : P) (r : R), j ≠ t → calls'[j]? = some q → holds p' = some r →
      holds q ≠ some r := by
    intro j q r hj hq hr
    rw [hm.others j hj] at hq
    rcases hp r hr with hheld | hfree
    · exact hs.others hj hq hheld
    · exact hfree q (List.mem_of_getElem? hq)
  intro i j p q r hi hj hpr hqr
  by_cases hit : i = t <;> by_cases hjt : j = t
  · exact hit.trans hjt.symm
  · rw [hit, hm.new] at hi
    obtain rfl := Option.some.inj hi
    exact absurd hqr (hother j q r hjt hj hpr)
  · rw [hjt, hm.new] at hj
    obtain rfl := Option.some.inj hj
    exact absurd hpr (hother i p r hit hi hqr)
  · rw [hm.others i hit] at hi
    rw [hm.others j hjt] at hj
    exact hs i j p q r hi hj hpr hqr

/-- A property of each process in its place. -/
theorem Moves.all {A B : P → Prop} (hm : Moves calls calls' t p') (hA : ∀ p ∈ calls, A p)
    (hnew : B p') (hkeep : ∀ j q, j ≠ t → calls[j]? = some q → A q → B q) : ∀ p ∈ calls', B p := by
  intro p hp
  obtain ⟨j, hj⟩ := List.mem_iff_getElem?.mp hp
  by_cases hjt : j = t
  · rw [hjt, hm.new] at hj
    exact Option.some.inj hj ▸ hnew
  · rw [hm.others j hjt] at hj
    exact hkeep j p hjt hj (hA p (List.mem_of_getElem? hj))

/-- A process that has not moved is still there. -/
theorem Moves.still (hm : Moves calls calls' t p') {q : P} (hq : q ∈ calls)
    (hne : calls[t]? ≠ some q) : q ∈ calls' := by
  obtain ⟨j, hj⟩ := List.mem_iff_getElem?.mp hq
  have hjt : j ≠ t := by
    rintro rfl
    exact hne hj
  exact List.mem_of_getElem? ((hm.others j hjt).trans hj)

end EdgeLink.Holders
