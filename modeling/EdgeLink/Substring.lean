import EdgeLink.JsonLookup

/-! Looking for a list in a list, and taking off what stands around it. -/

namespace EdgeLink.Substring

variable {α : Type*}

section Find
variable [DecidableEq α] {pat s : List α} {i : ℕ}

/-- Where `pat` first begins in `s`. -/
def find (pat : List α) : List α → Option ℕ
  | [] => if pat = [] then some 0 else none
  | a :: s => if pat <+: a :: s then some 0 else (find pat s).map (· + 1)

theorem find_eq_some_iff :
    find pat s = some i ↔ i ≤ s.length ∧ pat <+: s.drop i ∧ ∀ j < i, ¬ pat <+: s.drop j := by
  induction s generalizing i with
  | nil =>
    unfold find
    split_ifs with hpat
    · rw [hpat, Option.some.injEq]
      constructor
      · rintro rfl
        exact ⟨le_rfl, List.nil_prefix, fun j hj => absurd hj (Nat.not_lt_zero j)⟩
      · exact fun ⟨hi, _⟩ => (Nat.le_zero.mp hi).symm
    · refine iff_of_false nofun fun ⟨_, h, _⟩ => hpat ?_
      rw [List.drop_nil] at h
      exact List.prefix_nil.mp h
  | cons a s ih =>
    unfold find
    split_ifs with hpat
    · rw [Option.some.injEq]
      constructor
      · rintro rfl
        exact ⟨Nat.zero_le _, hpat, fun j hj => absurd hj (Nat.not_lt_zero j)⟩
      · rintro ⟨-, -, hfirst⟩
        by_contra hi
        exact hfirst 0 (Nat.pos_of_ne_zero (Ne.symm hi)) hpat
    · cases i with
      | zero =>
        refine iff_of_false (by simp) fun ⟨_, h, _⟩ => hpat h
      | succ i =>
        rw [show (find pat s).map (· + 1) = some (i + 1) ↔ find pat s = some i by simp, ih,
          List.drop_succ_cons, List.length_cons, Nat.succ_le_succ_iff]
        refine and_congr_right fun _ => and_congr_right fun _ => ⟨fun h j hj => ?_, fun h j hj => ?_⟩
        · cases j with
          | zero => exact hpat
          | succ j => exact h j (Nat.lt_of_succ_lt_succ hj)
        · exact h (j + 1) (Nat.succ_lt_succ hj)

theorem find_fits (h : find pat s = some i) : i + pat.length ≤ s.length := by
  obtain ⟨hi, hpat, -⟩ := find_eq_some_iff.mp h
  have hlen := hpat.length_le
  rw [List.length_drop] at hlen
  omega

theorem find_isSome (h : pat <+: s.drop i) (hi : i ≤ s.length) : ∃ j ≤ i, find pat s = some j := by
  have hex : ∃ j, j ≤ s.length ∧ pat <+: s.drop j := ⟨i, hi, h⟩
  classical
  refine ⟨Nat.find hex, Nat.find_min' hex ⟨hi, h⟩, find_eq_some_iff.mpr
    ⟨(Nat.find_spec hex).1, (Nat.find_spec hex).2, fun j hj hpat => Nat.find_min hex hj ⟨?_, hpat⟩⟩⟩
  exact hj.le.trans (Nat.find_spec hex).1

omit [DecidableEq α] in
theorem prefix_drop_append {t : List α} (hi : i + pat.length ≤ s.length) :
    pat <+: (s ++ t).drop i ↔ pat <+: s.drop i := by
  rw [List.drop_append_of_le_length (by omega)]
  refine ⟨fun h => ?_, fun h => h.trans (List.prefix_append _ _)⟩
  refine List.prefix_of_prefix_length_le h (List.prefix_append _ _) ?_
  rw [List.length_drop]
  omega

/-- What comes behind does not matter. -/
theorem find_append (h : find pat s = some i) (t : List α) : find pat (s ++ t) = some i := by
  have hfits := find_fits h
  obtain ⟨hi, hpat, hfirst⟩ := find_eq_some_iff.mp h
  refine find_eq_some_iff.mpr ⟨?_, (prefix_drop_append hfits).mpr hpat, fun j hj hearlier => ?_⟩
  · rw [List.length_append]
    exact hi.trans (Nat.le_add_right _ _)
  · exact hfirst j hj ((prefix_drop_append (by omega)).mp hearlier)

/-- An occurrence that was not there yet ends in what is new. -/
theorem find_beyond {t : List α} (hnone : find pat s = none) (h : find pat (s ++ t) = some i) :
    s.length < i + pat.length := by
  by_contra hle
  obtain ⟨-, hpat, -⟩ := find_eq_some_iff.mp h
  obtain ⟨j, -, hfound⟩ := find_isSome ((prefix_drop_append (Nat.not_lt.mp hle)).mp hpat) (by omega)
  rw [hnone] at hfound
  cases hfound

/-- An occurrence behind items that it cannot begin with. -/
theorem find_behind {a : α} {u : List α} (hu : a ∉ u) (pat t : List α) :
    find (a :: pat) (u ++ (a :: pat ++ t)) = some u.length := by
  refine find_eq_some_iff.mpr ⟨by simp, ?_, fun j hj hpre => hu ?_⟩
  · rw [List.drop_left]
    exact List.prefix_append _ _
  · rw [List.drop_append_of_le_length hj.le, List.drop_eq_getElem_cons hj, List.cons_append,
      List.cons_prefix_cons] at hpre
    rw [hpre.1]
    exact List.getElem_mem hj

end Find

section Trim
variable {p : α → Bool} {s t u : List α}

/-- Without what `p` takes at both ends. -/
def trim (p : α → Bool) (s : List α) : List α := (s.dropWhile p).rdropWhile p

theorem dropWhile_around (hu : ∀ a ∈ u, p a = true) (hhead : ∀ a ∈ s.head?, p a = false) :
    (u ++ s).dropWhile p = s := by
  rw [List.dropWhile_append_of_pos hu]
  cases s with
  | nil => rfl
  | cons a s => rw [List.dropWhile_cons_of_neg (by simp [hhead a rfl])]

theorem trim_around (hu : ∀ a ∈ u, p a = true) (ht : ∀ a ∈ t, p a = true)
    (hhead : ∀ a ∈ s.head?, p a = false) (hlast : ∀ a ∈ s.getLast?, p a = false) :
    trim p (u ++ (s ++ t)) = s := by
  cases s with
  | nil =>
    have hall : ∀ a ∈ u ++ ([] ++ t), p a = true := List.forall_mem_append.mpr ⟨hu, ht⟩
    unfold trim
    rw [List.dropWhile_eq_nil_iff.mpr hall, List.rdropWhile_nil]
  | cons a s =>
    have hback : ∀ a ∈ t.reverse, p a = true := fun a ha => ht a (List.mem_reverse.mp ha)
    have hfirst : ∀ b ∈ (a :: s).reverse.head?, p b = false := by
      rw [List.head?_reverse]
      exact hlast
    unfold trim
    rw [dropWhile_around hu (by rw [List.cons_append, List.head?_cons]; exact hhead)]
    unfold List.rdropWhile
    rw [List.reverse_append, dropWhile_around hback hfirst, List.reverse_reverse]

theorem trim_self (hhead : ∀ a ∈ s.head?, p a = false) (hlast : ∀ a ∈ s.getLast?, p a = false) :
    trim p s = s := by
  have h := @trim_around _ p s [] [] nofun nofun hhead hlast
  rwa [List.nil_append, List.append_nil] at h

theorem rdropWhile_behind (hlast : ∀ a ∈ s.getLast?, p a = false) (t : List α) :
    (s ++ t).rdropWhile p = s ++ t.rdropWhile p := by
  induction t using List.reverseRecOn with
  | nil =>
    rw [List.rdropWhile_nil, List.append_nil, List.rdropWhile_eq_self_iff]
    intro hne
    simpa using hlast _ (List.getLast?_eq_some_getLast hne)
  | append_singleton t a ih =>
    rw [← List.append_assoc, List.rdropWhile_concat, List.rdropWhile_concat, ih]
    split_ifs
    · rfl
    · rw [List.append_assoc]

/-- What is left begins and ends with something else. -/
theorem trim_ends (p : α → Bool) (s : List α) : (∀ a ∈ (trim p s).head?, p a = false) ∧
    ∀ a ∈ (trim p s).getLast?, p a = false := by
  constructor
  · intro a ha
    have hhead : a ∈ (s.dropWhile p).head? := by
      obtain ⟨u, hu⟩ := List.rdropWhile_prefix p (l := s.dropWhile p)
      have htrim : trim p s ≠ [] := by
        rintro hnil
        rw [hnil] at ha
        cases ha
      rw [← hu]
      exact (List.head?_append_of_ne_nil _ htrim).symm ▸ ha
    have hnot := List.head?_dropWhile_not p s
    rw [Option.mem_def.mp hhead] at hnot
    simpa using hnot
  · intro a ha
    have hne : trim p s ≠ [] := by
      rintro hnil
      rw [hnil] at ha
      cases ha
    rw [List.getLast?_eq_some_getLast hne] at ha
    rw [← Option.some.inj ha]
    exact Bool.eq_false_of_not_eq_true (List.rdropWhile_last_not p (s.dropWhile p) hne)

end Trim

end EdgeLink.Substring
