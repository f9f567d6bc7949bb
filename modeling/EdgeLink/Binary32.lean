import Mathlib

namespace EdgeLink.Binary32

/-- The nearest integer, and of two the even one. -/
def nearestEven (q : ℚ) : ℤ :=
  if q - ⌊q⌋ < 1 / 2 ∨ (q - ⌊q⌋ = 1 / 2 ∧ ⌊q⌋ % 2 = 0) then ⌊q⌋ else ⌊q⌋ + 1

/-- The exponent of the last of 24 binary digits. -/
def lastPlace (q : ℚ) : ℤ := max (Int.log 2 |q| - 23) (-149)

/-- The `float` nearest to a number of less than 2^128. -/
def round32 (q : ℚ) : ℚ := nearestEven (q / 2 ^ lastPlace q) * 2 ^ lastPlace q

theorem nearestEven_near (q : ℚ) : |(nearestEven q : ℚ) - q| ≤ 1 / 2 := by
  have hle := Int.floor_le q
  have hlt := Int.lt_floor_add_one q
  unfold nearestEven
  rw [abs_le]
  split_ifs with hlow
  · rcases hlow with hlow | ⟨hhalf, -⟩ <;> constructor <;> linarith
  · have hhigh : 1 / 2 ≤ q - ⌊q⌋ := not_lt.mp fun h => hlow (Or.inl h)
    push_cast
    constructor <;> linarith

theorem half_place {q : ℚ} (hne : q ≠ 0) : (2 : ℚ) ^ lastPlace q / 2 ≤ |q| / 2 ^ 24 + 1 / 2 ^ 150 := by
  rcases le_total (Int.log 2 |q| - 23) (-149) with hsmall | hlarge
  · have hplace : lastPlace q = -149 := max_eq_right hsmall
    have hpos : 0 ≤ |q| / 2 ^ 24 := by positivity
    rw [hplace]
    norm_num at hpos ⊢
    linarith
  · have hplace : lastPlace q = Int.log 2 |q| - 23 := max_eq_left hlarge
    have hlog : (2 : ℚ) ^ Int.log 2 |q| ≤ |q| := by
      exact_mod_cast Int.zpow_log_le_self one_lt_two (abs_pos.mpr hne)
    rw [hplace, zpow_sub₀ two_ne_zero]
    norm_num
    linarith

/-- Half of the last place is the most that rounding changes. -/
theorem round32_near (q : ℚ) : |round32 q - q| ≤ |q| / 2 ^ 24 + 1 / 2 ^ 150 := by
  by_cases hzero : q = 0
  · have hround : nearestEven 0 = 0 := by decide +kernel
    rw [hzero, round32, zero_div, hround, Int.cast_zero, zero_mul, sub_zero, abs_zero]
    positivity
  have hpos : (0 : ℚ) < 2 ^ lastPlace q := zpow_pos two_pos _
  have hround := nearestEven_near (q / 2 ^ lastPlace q)
  have hscaled : round32 q - q =
      ((nearestEven (q / 2 ^ lastPlace q) : ℚ) - q / 2 ^ lastPlace q) * 2 ^ lastPlace q := by
    rw [sub_mul, div_mul_cancel₀ _ hpos.ne']
    rfl
  calc |round32 q - q| = |(nearestEven (q / 2 ^ lastPlace q) : ℚ) - q / 2 ^ lastPlace q| *
        2 ^ lastPlace q := by rw [hscaled, abs_mul, abs_of_pos hpos]
    _ ≤ 1 / 2 * 2 ^ lastPlace q := mul_le_mul_of_nonneg_right hround hpos.le
    _ = 2 ^ lastPlace q / 2 := by ring
    _ ≤ |q| / 2 ^ 24 + 1 / 2 ^ 150 := half_place hzero

theorem nearestEven_nonneg {q : ℚ} (h : 0 ≤ q) : 0 ≤ nearestEven q := by
  have hfloor : 0 ≤ ⌊q⌋ := Int.floor_nonneg.mpr h
  unfold nearestEven
  split_ifs <;> omega

theorem nearestEven_nonpos {q : ℚ} (h : q ≤ 0) : nearestEven q ≤ 0 := by
  have hnear := (abs_le.mp (nearestEven_near q)).2
  have hlt : (nearestEven q : ℚ) < 1 := by linarith
  have hint : nearestEven q < 1 := by exact_mod_cast hlt
  omega

theorem round32_nonneg {q : ℚ} (h : 0 ≤ q) : 0 ≤ round32 q := by
  have hpos : (0 : ℚ) < 2 ^ lastPlace q := zpow_pos two_pos _
  have hint : (0 : ℚ) ≤ nearestEven (q / 2 ^ lastPlace q) := by
    exact_mod_cast nearestEven_nonneg (div_nonneg h hpos.le)
  exact mul_nonneg hint hpos.le

theorem round32_nonpos {q : ℚ} (h : q ≤ 0) : round32 q ≤ 0 := by
  have hpos : (0 : ℚ) < 2 ^ lastPlace q := zpow_pos two_pos _
  have hint : (nearestEven (q / 2 ^ lastPlace q) : ℚ) ≤ 0 := by
    exact_mod_cast nearestEven_nonpos (div_nonpos_of_nonpos_of_nonneg h hpos.le)
  exact mul_nonpos_of_nonpos_of_nonneg hint hpos.le

/-- An addition behind a multiplication rounds twice. -/
theorem round32_add_near {q d bound : ℚ} (hq : |q| ≤ bound) (hbound : bound ≤ 2 ^ 20)
    (hd : |d| ≤ 1 / 2) :
    |round32 (round32 q + d) - (q + d)| ≤ (2 * bound + 2) / 2 ^ 24 := by
  have hfirst := round32_near q
  have hsecond := round32_near (round32 q + d)
  have hsum : |round32 q + d| ≤ |round32 q - q| + |q| + |d| := by
    have htwo := abs_add_le (round32 q - q + q) d
    rw [sub_add_cancel] at htwo
    have hone := abs_add_le (round32 q - q) q
    rw [sub_add_cancel] at hone
    linarith
  have hsplit : |round32 (round32 q + d) - (q + d)| ≤
      |round32 (round32 q + d) - (round32 q + d)| + |round32 q - q| := by
    have htri := abs_add_le (round32 (round32 q + d) - (round32 q + d)) (round32 q - q)
    have heq : round32 (round32 q + d) - (round32 q + d) + (round32 q - q) =
        round32 (round32 q + d) - (q + d) := by ring
    rwa [heq] at htri
  norm_num at hfirst hsecond hbound hd ⊢
  linarith

/-- No rounding takes a large number below a smaller one by much. -/
theorem le_round32 {q bound : ℚ} (hbound : 0 ≤ bound) (h : bound ≤ q) :
    bound - bound / 2 ^ 24 - 1 / 2 ^ 150 ≤ round32 q := by
  have hnear := (abs_le.mp (round32_near q)).1
  rw [abs_of_nonneg (hbound.trans h)] at hnear
  norm_num at hnear ⊢
  linarith

end EdgeLink.Binary32
