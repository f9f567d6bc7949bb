import Mathlib

/-! A table of a database whose key counts up and is never used twice. -/

namespace EdgeLink.IdTable

structure Table (R : Type*) where
  /-- by increasing key -/
  rows : List (ℕ × R)
  /-- the last key given out -/
  sequence : ℕ
  ordered : rows.Pairwise fun a b => a.1 < b.1
  bounded : ∀ r ∈ rows, 0 < r.1 ∧ r.1 ≤ sequence

namespace Table
variable {R : Type*} (t : Table R)

theorem empty_bounded : ∀ r ∈ ([] : List (ℕ × R)), 0 < r.1 ∧ r.1 ≤ 0 := by simp

def empty : Table R := ⟨[], 0, List.Pairwise.nil, empty_bounded⟩

theorem insert_ordered (row : R) :
    (t.rows ++ [(t.sequence + 1, row)]).Pairwise fun a b => a.1 < b.1 := by
  refine List.pairwise_append.mpr ⟨t.ordered, List.pairwise_singleton _ _, ?_⟩
  intro a ha b hb
  rw [List.mem_singleton.mp hb]
  exact Nat.lt_succ_of_le (t.bounded a ha).2

theorem insert_bounded (row : R) :
    ∀ r ∈ t.rows ++ [(t.sequence + 1, row)], 0 < r.1 ∧ r.1 ≤ t.sequence + 1 := by
  intro r hr
  rcases List.mem_append.mp hr with hr | hr
  · exact ⟨(t.bounded r hr).1, (t.bounded r hr).2.trans (Nat.le_succ _)⟩
  · rw [List.mem_singleton.mp hr]
    exact ⟨Nat.succ_pos _, le_rfl⟩

def insert (row : R) : Table R :=
  ⟨t.rows ++ [(t.sequence + 1, row)], t.sequence + 1, t.insert_ordered row, t.insert_bounded row⟩

theorem delete_bounded (id : ℕ) :
    ∀ r ∈ t.rows.filter (fun r => id < r.1), 0 < r.1 ∧ r.1 ≤ t.sequence :=
  fun r hr => t.bounded r (List.mem_filter.mp hr).1

/-- `DELETE … WHERE id <= id` -/
def deleteUpTo (id : ℕ) : Table R :=
  ⟨t.rows.filter (fun r => id < r.1), t.sequence, t.ordered.filter _, t.delete_bounded id⟩

/-- `SELECT id … ORDER BY id DESC LIMIT 1 OFFSET offset`, or 0 -/
def idAtOffset (offset : ℕ) : ℕ := (t.rows.reverse[offset]?.map Prod.fst).getD 0

def keepNewest (max : ℕ) : Table R := t.deleteUpTo (t.idAtOffset max)

/-- `SELECT … WHERE p ORDER BY id DESC LIMIT limit OFFSET offset` -/
def select (p : R → Bool) (limit offset : ℤ) : List (ℕ × R) :=
  let found := (t.rows.reverse.filter fun r => p r.2).drop offset.toNat
  if limit < 0 then found else found.take limit.toNat

@[simp] theorem insert_rows (row : R) : (t.insert row).rows = t.rows ++ [(t.sequence + 1, row)] := rfl

@[simp] theorem insert_sequence (row : R) : (t.insert row).sequence = t.sequence + 1 := rfl

@[simp] theorem keepNewest_sequence (max : ℕ) : (t.keepNewest max).sequence = t.sequence := rfl

variable {t}

theorem filter_above {l : List (ℕ × R)} (h : l.Pairwise fun a b => a.1 < b.1) {k : ℕ}
    (hk : k < l.length) : (l.filter fun r => l[k].1 < r.1) = l.drop (k + 1) := by
  induction l generalizing k with
  | nil => simp at hk
  | cons a l ih =>
    obtain ⟨hhead, htail⟩ := List.pairwise_cons.mp h
    cases k with
    | zero =>
      rw [List.getElem_cons_zero, List.filter_cons_of_neg (by simp), List.drop_succ_cons, List.drop_zero]
      exact List.filter_eq_self.mpr fun r hr => decide_eq_true (hhead r hr)
    | succ k =>
      have hk' : k < l.length := Nat.lt_of_succ_lt_succ hk
      have hlt := hhead _ (List.getElem_mem hk')
      rw [List.getElem_cons_succ, List.filter_cons_of_neg (by simp only [decide_eq_true_eq]; omega),
        ih htail hk', List.drop_succ_cons]

/-- Which keys go is decided by their order alone. -/
theorem keepNewest_rows (max : ℕ) :
    (t.keepNewest max).rows = t.rows.drop (t.rows.length - max) := by
  show t.rows.filter (fun r => t.idAtOffset max < r.1) = _
  by_cases hm : max < t.rows.length
  · have hk : t.rows.length - 1 - max < t.rows.length := by omega
    have hid : t.idAtOffset max = (t.rows[t.rows.length - 1 - max]).1 := by
      rw [idAtOffset, List.getElem?_reverse hm, List.getElem?_eq_getElem hk]
      rfl
    rw [hid, filter_above t.ordered hk]
    congr 1
    omega
  · have hid : t.idAtOffset max = 0 := by
      rw [idAtOffset, List.getElem?_eq_none (by rw [List.length_reverse]; omega)]
      rfl
    rw [hid, Nat.sub_eq_zero_of_le (Nat.le_of_not_lt hm), List.drop_zero]
    exact List.filter_eq_self.mpr fun r hr => decide_eq_true (t.bounded r hr).1

/-- Key and row, the first row having the key 1. -/
def numbered (rows : List R) : List (ℕ × R) := (rows.zipIdx 1).map Prod.swap

theorem numbered_length (rows : List R) : (numbered rows).length = rows.length := by
  simp [numbered]

theorem numbered_concat (rows : List R) (row : R) :
    numbered (rows ++ [row]) = numbered rows ++ [(rows.length + 1, row)] := by
  simp [numbered, List.zipIdx_append, Nat.add_comm]

/-- The table is what is left of the rows that were inserted: the last ones, and no fewer than
`max` if there were as many. -/
structure Retains (t : Table R) (inserted : List R) (max : ℕ) : Prop where
  sequence : t.sequence = inserted.length
  suffix : t.rows <:+ numbered inserted
  enough : min inserted.length max ≤ t.rows.length

variable {inserted : List R} {max : ℕ}

theorem Retains.empty (max : ℕ) : Retains (empty : Table R) [] max :=
  ⟨rfl, List.nil_suffix, by simp⟩

theorem Retains.insert (h : Retains t inserted max) (row : R) :
    Retains (t.insert row) (inserted ++ [row]) max where
  sequence := by simp [h.sequence]
  suffix := by
    obtain ⟨front, hfront⟩ := h.suffix
    rw [numbered_concat, ← hfront, insert_rows, h.sequence]
    exact ⟨front, (List.append_assoc _ _ _).symm⟩
  enough := by
    have := h.enough
    simp only [insert_rows, List.length_append, List.length_singleton]
    omega

theorem Retains.keepNewest (h : Retains t inserted max) : Retains (t.keepNewest max) inserted max where
  sequence := h.sequence
  suffix := by
    rw [keepNewest_rows]
    exact (List.drop_suffix _ _).trans h.suffix
  enough := by
    have := h.enough
    rw [keepNewest_rows, List.length_drop]
    omega

/-- A window that ends within the newest `max` rows is served as if none had ever been deleted. -/
theorem Retains.select (h : Retains t inserted max) {limit offset : ℕ} (hle : offset + limit ≤ max) :
    t.select (fun _ => true) limit offset = ((numbered inserted).reverse.drop offset).take limit := by
  obtain ⟨front, hfront⟩ := h.suffix
  have hlen := numbered_length inserted
  rw [← hfront, List.length_append] at hlen
  have henough := h.enough
  have hall : t.rows.reverse.filter (fun _ => true) = t.rows.reverse :=
    List.filter_eq_self.mpr fun _ _ => rfl
  simp only [Table.select, hall, Int.toNat_natCast, if_neg (Int.not_lt.mpr (Int.natCast_nonneg limit))]
  rw [← hfront, List.reverse_append]
  by_cases hin : inserted.length ≤ max
  · -- nothing has been deleted yet
    have hnil : front = [] := List.length_eq_zero_iff.mp (by omega)
    rw [hnil, List.reverse_nil, List.append_nil]
  · have hoff : offset ≤ t.rows.reverse.length := by
      rw [List.length_reverse]
      omega
    rw [List.drop_append_of_le_length hoff, List.take_append_of_le_length]
    rw [List.length_drop, List.length_reverse]
    omega

end Table

end EdgeLink.IdTable
