import Mathlib

namespace EdgeLink

/-- A ring of `n` places, of which one stays free. -/
structure Ring (α : Type*) where
  slots : ℕ → α
  head : ℕ
  tail : ℕ

namespace Ring
variable {α : Type*} {n : ℕ} {r r' : Ring α} {x : α}

structure Within (n : ℕ) (r : Ring α) : Prop where
  head : r.head < n
  tail : r.tail < n

def count (n : ℕ) (r : Ring α) : ℕ :=
  if r.tail ≤ r.head then r.head - r.tail else r.head + n - r.tail

/-- What is in the ring, the oldest first. -/
def contents (n : ℕ) (r : Ring α) : List α :=
  (List.range (r.count n)).map fun i => r.slots ((r.tail + i) % n)

def put (n : ℕ) (r : Ring α) (x : α) : Option (Ring α) :=
  let next := (r.head + 1) % n
  if next = r.tail then none
  else some { r with slots := Function.update r.slots r.head x, head := next }

def take (n : ℕ) (r : Ring α) : Option (α × Ring α) :=
  if r.tail = r.head then none
  else some (r.slots r.tail, { r with tail := (r.tail + 1) % n })

theorem mod_wrap {a n : ℕ} (h : a < 2 * n) : a % n = if a < n then a else a - n := by
  by_cases hlt : a < n
  · rw [if_pos hlt, Nat.mod_eq_of_lt hlt]
  · rw [if_neg hlt, Nat.mod_eq_sub_mod (not_lt.mp hlt), Nat.mod_eq_of_lt (by omega)]

theorem put_spec (h : r.Within n) (hput : r.put n x = some r') :
    r'.Within n ∧ r'.contents n = r.contents n ++ [x] := by
  have hhead := h.head
  have htail := h.tail
  have hnext := mod_wrap (show r.head + 1 < 2 * n by omega)
  unfold put at hput
  dsimp only at hput
  by_cases hfull : (r.head + 1) % n = r.tail
  · rw [if_pos hfull] at hput
    cases hput
  rw [if_neg hfull] at hput
  obtain rfl := Option.some.inj hput
  refine ⟨⟨Nat.mod_lt _ (by omega), htail⟩, ?_⟩
  have hcount : count n { r with
      slots := Function.update r.slots r.head x, head := (r.head + 1) % n } = r.count n + 1 := by
    unfold count
    dsimp only
    rw [hnext] at hfull ⊢
    split_ifs at hfull ⊢ <;> omega
  have hlt : r.count n < n := by
    unfold count
    split_ifs <;> omega
  unfold contents
  rw [hcount, List.range_succ, List.map_append, List.map_singleton]
  congr 1
  · apply List.map_congr_left
    intro i hi
    have hi := List.mem_range.mp hi
    refine Function.update_of_ne ?_ _ _
    rw [mod_wrap (show r.tail + i < 2 * n by omega)]
    unfold count at hi
    split_ifs at hi ⊢ <;> omega
  · have hlast : (r.tail + r.count n) % n = r.head := by
      rw [mod_wrap (show r.tail + r.count n < 2 * n by omega)]
      unfold count
      split_ifs <;> omega
    dsimp only
    rw [hlast, Function.update_self]

theorem take_spec (h : r.Within n) (htake : r.take n = some (x, r')) :
    r'.Within n ∧ r.contents n = x :: r'.contents n := by
  have hhead := h.head
  have htail := h.tail
  have hnext := mod_wrap (show r.tail + 1 < 2 * n by omega)
  unfold take at htake
  by_cases hempty : r.tail = r.head
  · rw [if_pos hempty] at htake
    cases htake
  rw [if_neg hempty] at htake
  obtain ⟨rfl, rfl⟩ := Prod.mk.inj (Option.some.inj htake)
  refine ⟨⟨hhead, Nat.mod_lt _ (by omega)⟩, ?_⟩
  have hcount : r.count n = count n { r with tail := (r.tail + 1) % n } + 1 := by
    have hrest : count n { r with tail := (r.tail + 1) % n } =
        if (r.tail + 1) % n ≤ r.head then r.head - (r.tail + 1) % n
        else r.head + n - (r.tail + 1) % n := rfl
    rw [hrest, hnext]
    unfold count
    split_ifs <;> omega
  unfold contents
  rw [hcount, List.range_succ_eq_map, List.map_cons, List.map_map, Nat.add_zero,
    Nat.mod_eq_of_lt htail]
  congr 1
  apply List.map_congr_left
  intro i _
  have hplace : r.tail + Nat.succ i = r.tail + 1 + i := by omega
  rw [Function.comp_apply, Nat.mod_add_mod, hplace]

end Ring

end EdgeLink
