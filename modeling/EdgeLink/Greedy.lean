import Mathlib

namespace EdgeLink.Greedy

/-! Choosing by value, where the value may depend on what has been chosen. -/

section Choose
variable {α V : Type*} [LinearOrder V]

/-- The place of the first item of the largest value, from `index` on. -/
def bestLoop (value : α → V) (best_index : ℕ) (best_value : V) (index : ℕ) : List α → ℕ
  | [] => best_index
  | a :: l =>
    if best_value < value a then bestLoop value index (value a) (index + 1) l
    else bestLoop value best_index best_value (index + 1) l

def bestIndex (value : α → V) : List α → ℕ
  | [] => 0
  | a :: l => bestLoop value 0 (value a) 1 l

/-- `k` more choices. -/
def choose (value : List α → α → V) : ℕ → List α → List α → List α
  | 0, selected, _ => selected
  | k + 1, selected, candidates =>
    match candidates[bestIndex (value selected) candidates]? with
    | none => selected
    | some a =>
      choose value k (selected ++ [a]) (candidates.eraseIdx (bestIndex (value selected) candidates))

/-- Each was worth at least as much as any other that was left when it was chosen. -/
def Chosen (value : List α → α → V) (candidates out : List α) : Prop :=
  ∀ i a, out[i]? = some a → ∀ b ∈ candidates, b ∉ out.take i → value (out.take i) b ≤ value (out.take i) a

theorem bestLoop_spec (value : α → V) (l : List α) {seen : List α} {best_index : ℕ} {a : α}
    (hat : seen[best_index]? = some a) (hbest : ∀ b ∈ seen, value b ≤ value a) :
    ∃ c, (seen ++ l)[bestLoop value best_index (value a) seen.length l]? = some c ∧
      ∀ b ∈ seen ++ l, value b ≤ value c := by
  induction l generalizing seen best_index a with
  | nil =>
    rw [List.append_nil]
    exact ⟨a, hat, hbest⟩
  | cons d l ih =>
    have hsplit : seen ++ d :: l = (seen ++ [d]) ++ l := by simp
    have hlen : (seen ++ [d]).length = seen.length + 1 := List.length_append
    rw [bestLoop, hsplit, ← hlen]
    by_cases hlt : value a < value d
    · rw [if_pos hlt]
      refine ih List.getElem?_concat_length fun b hb => ?_
      rcases List.mem_append.mp hb with hb | hb
      · exact (hbest b hb).trans hlt.le
      · exact (congrArg value (List.mem_singleton.mp hb)).le
    · rw [if_neg hlt]
      refine ih ?_ fun b hb => ?_
      · rw [List.getElem?_append_left (List.getElem?_eq_some_iff.mp hat).1]
        exact hat
      · rcases List.mem_append.mp hb with hb | hb
        · exact hbest b hb
        · rw [List.mem_singleton.mp hb]
          exact not_lt.mp hlt

theorem bestIndex_spec (value : α → V) {l : List α} (h : l ≠ []) :
    ∃ a, l[bestIndex value l]? = some a ∧ ∀ b ∈ l, value b ≤ value a := by
  cases l with
  | nil => exact absurd rfl h
  | cons a l =>
    refine @bestLoop_spec α V _ value l [a] 0 a rfl fun b hb => ?_
    exact (congrArg value (List.mem_singleton.mp hb)).le

section
variable {value : List α → α → V} {k : ℕ} {selected candidates : List α}

theorem choose_perm (value : List α → α → V) (k : ℕ) (selected candidates : List α) :
    ∃ rest, (choose value k selected candidates ++ rest).Perm (selected ++ candidates) ∧
      rest.length = candidates.length - k := by
  induction k generalizing selected candidates with
  | zero => exact ⟨candidates, List.Perm.refl _, rfl⟩
  | succ k ih =>
    rw [choose]
    cases hat : candidates[bestIndex (value selected) candidates]? with
    | none =>
      refine ⟨candidates, List.Perm.refl _, ?_⟩
      by_cases hnil : candidates = []
      · rw [hnil, List.length_nil, Nat.zero_sub]
      · obtain ⟨a, ha, -⟩ := bestIndex_spec (value selected) hnil
        rw [hat] at ha
        cases ha
    | some a =>
      obtain ⟨hlt, hget⟩ := List.getElem?_eq_some_iff.mp hat
      obtain ⟨rest, hperm, hlen⟩ := ih (selected ++ [a])
        (candidates.eraseIdx (bestIndex (value selected) candidates))
      refine ⟨rest, hperm.trans ?_, ?_⟩
      · rw [List.append_assoc, ← hget]
        exact (List.getElem_cons_eraseIdx_perm hlt).append_left selected
      · rw [hlen, List.length_eraseIdx_of_lt hlt]
        omega

theorem choose_chosen {all : List α} (hall : ∀ a ∈ all, a ∈ selected ∨ a ∈ candidates)
    (h : Chosen value all selected) : Chosen value all (choose value k selected candidates) := by
  induction k generalizing selected candidates with
  | zero => exact h
  | succ k ih =>
    rw [choose]
    cases hat : candidates[bestIndex (value selected) candidates]? with
    | none => exact h
    | some a =>
      obtain ⟨hlt, hget⟩ := List.getElem?_eq_some_iff.mp hat
      have hne : candidates ≠ [] := List.ne_nil_of_length_pos (Nat.zero_lt_of_lt hlt)
      obtain ⟨c, hc, hbest⟩ := bestIndex_spec (value selected) hne
      obtain rfl := Option.some.inj (hat.symm.trans hc)
      refine ih (fun b hb => ?_) fun i b hb d hd hnot => ?_
      · rcases hall b hb with hsel | hcand
        · exact Or.inl (List.mem_append_left _ hsel)
        · have hperm := List.getElem_cons_eraseIdx_perm hlt
          rw [hget] at hperm
          rcases List.mem_cons.mp (hperm.mem_iff.mpr hcand) with rfl | hrest
          · exact Or.inl (List.mem_append_right _ List.mem_cons_self)
          · exact Or.inr hrest
      · by_cases hi : i < selected.length
        · rw [List.getElem?_append_left hi] at hb
          rw [List.take_append_of_le_length hi.le] at hnot ⊢
          exact h i b hb d hd hnot
        · have hlast : i = selected.length := by
            have hlen := (List.getElem?_eq_some_iff.mp hb).1
            rw [List.length_append, List.length_singleton] at hlen
            omega
          subst hlast
          rw [List.getElem?_concat_length] at hb
          obtain rfl := Option.some.inj hb
          rw [List.take_left] at hnot ⊢
          exact hbest d ((hall d hd).resolve_left hnot)

end

end Choose

section Cap
variable {α K : Type*} [DecidableEq K]

/-- The items that are kept and those that are put off; `counts` are kept already. -/
def capLoop (key : α → K) (cap : ℕ) (counts : K → ℕ) : List α → List α × List α
  | [] => ([], [])
  | a :: l =>
    if counts (key a) < cap then
      let r := capLoop key cap (Function.update counts (key a) (counts (key a) + 1)) l
      (a :: r.1, r.2)
    else
      let r := capLoop key cap counts l
      (r.1, a :: r.2)

variable (key : α → K) (cap : ℕ) (counts : K → ℕ) (l : List α)

theorem capLoop_perm : ((capLoop key cap counts l).1 ++ (capLoop key cap counts l).2).Perm l := by
  induction l generalizing counts with
  | nil => exact List.Perm.refl _
  | cons a l ih =>
    rw [capLoop]
    split_ifs with hroom
    · exact (ih _).cons a
    · exact List.perm_middle.trans ((ih _).cons a)

/-- Of each key the first ones are kept and the others are put off, both in their order. -/
theorem capLoop_key (k : K) :
    (capLoop key cap counts l).1.filter (key · = k) =
        (l.filter (key · = k)).take (cap - counts k) ∧
      (capLoop key cap counts l).2.filter (key · = k) =
        (l.filter (key · = k)).drop (cap - counts k) := by
  induction l generalizing counts with
  | nil => exact ⟨List.take_nil.symm, List.drop_nil.symm⟩
  | cons a l ih =>
    rw [capLoop]
    by_cases hkey : key a = k
    · have hcons (m : List α) : (a :: m).filter (key · = k) = a :: m.filter (key · = k) :=
        List.filter_cons_of_pos (decide_eq_true hkey)
      split_ifs with hroom
      · obtain ⟨hkept, hoff⟩ := ih (Function.update counts (key a) (counts (key a) + 1))
        obtain ⟨n, hn⟩ : ∃ n, cap - counts k = n + 1 := ⟨cap - counts k - 1, by rw [← hkey]; omega⟩
        have hn' : cap - (counts k + 1) = n := by omega
        rw [hkey, Function.update_self, hn'] at hkept hoff
        dsimp only
        rw [hcons, hcons, hn, hkey, hkept, hoff]
        exact ⟨rfl, rfl⟩
      · obtain ⟨hkept, hoff⟩ := ih counts
        have hfull : cap - counts k = 0 := by
          rw [← hkey]
          omega
        rw [hfull, List.take_zero] at hkept
        rw [hfull, List.drop_zero] at hoff
        dsimp only
        rw [hcons, hcons, hfull, hkept, hoff]
        exact ⟨rfl, rfl⟩
    · have hcons (m : List α) : (a :: m).filter (key · = k) = m.filter (key · = k) :=
        List.filter_cons_of_neg (ne_true_of_eq_false (decide_eq_false hkey))
      split_ifs with hroom
      · obtain ⟨hkept, hoff⟩ := ih (Function.update counts (key a) (counts (key a) + 1))
        rw [Function.update_of_ne (Ne.symm hkey)] at hkept hoff
        dsimp only
        rw [hcons, hcons]
        exact ⟨hkept, hoff⟩
      · obtain ⟨hkept, hoff⟩ := ih counts
        dsimp only
        rw [hcons, hcons]
        exact ⟨hkept, hoff⟩

theorem capLoop_sublist : (capLoop key cap counts l).1.Sublist l ∧
    (capLoop key cap counts l).2.Sublist l := by
  induction l generalizing counts with
  | nil => exact ⟨List.Sublist.refl _, List.Sublist.refl _⟩
  | cons a l ih =>
    rw [capLoop]
    split_ifs with hroom
    · exact ⟨(ih _).1.cons_cons a, (ih _).2.cons a⟩
    · exact ⟨(ih _).1.cons a, (ih _).2.cons_cons a⟩

end Cap

end EdgeLink.Greedy
