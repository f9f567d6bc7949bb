import Mathlib

namespace EdgeLink.LittleEndian

abbrev Bytes := List UInt8

def bytes16 (v : UInt16) : Bytes := [(v &&& 0xFF).toUInt8, ((v >>> 8) &&& 0xFF).toUInt8]

def bytes32 (v : UInt32) : Bytes :=
  [(v &&& 0xFF).toUInt8, ((v >>> 8) &&& 0xFF).toUInt8,
    ((v >>> 16) &&& 0xFF).toUInt8, ((v >>> 24) &&& 0xFF).toUInt8]

def word16 (b₀ b₁ : UInt8) : UInt16 := b₀.toUInt16 ||| (b₁.toUInt16 <<< 8)

def word32 (b₀ b₁ b₂ b₃ : UInt8) : UInt32 :=
  b₀.toUInt32 ||| (b₁.toUInt32 <<< 8) ||| (b₂.toUInt32 <<< 16) ||| (b₃.toUInt32 <<< 24)

@[simp] theorem bytes16_length (v : UInt16) : (bytes16 v).length = 2 := rfl

@[simp] theorem bytes32_length (v : UInt32) : (bytes32 v).length = 4 := rfl

/-- A byte shifted above `n` lower bits is a sum, not only an `or`. -/
theorem or_shift {low high n : ℕ} (h : low < 2 ^ n) : low ||| high <<< n = low + high * 2 ^ n := by
  rw [Nat.or_comm, ← Nat.shiftLeft_add_eq_or_of_lt h, Nat.shiftLeft_eq, Nat.add_comm]

theorem word16_toNat (b₀ b₁ : UInt8) :
    (word16 b₀ b₁).toNat = b₀.toNat + b₁.toNat * 2 ^ 8 := by
  have h₀ := b₀.toNat_lt
  have h₁ := b₁.toNat_lt
  have hs : b₁.toNat <<< 8 % 2 ^ 16 = b₁.toNat <<< 8 := by
    rw [Nat.shiftLeft_eq]
    omega
  simp only [word16, UInt16.toNat_or, UInt16.toNat_shiftLeft, UInt8.toNat_toUInt16]
  change b₀.toNat ||| b₁.toNat <<< 8 % 2 ^ 16 = _
  rw [hs, or_shift h₀]

theorem word32_toNat (b₀ b₁ b₂ b₃ : UInt8) :
    (word32 b₀ b₁ b₂ b₃).toNat =
      b₀.toNat + b₁.toNat * 2 ^ 8 + b₂.toNat * 2 ^ 16 + b₃.toNat * 2 ^ 24 := by
  have h₀ := b₀.toNat_lt
  have h₁ := b₁.toNat_lt
  have h₂ := b₂.toNat_lt
  have h₃ := b₃.toNat_lt
  have hs : ∀ b k : ℕ, b < 2 ^ 8 → k ≤ 24 → b <<< k % 2 ^ 32 = b <<< k := by
    intro b k hb hk
    rw [Nat.shiftLeft_eq]
    apply Nat.mod_eq_of_lt
    calc b * 2 ^ k < 2 ^ 8 * 2 ^ k := Nat.mul_lt_mul_of_pos_right hb (by positivity)
      _ ≤ 2 ^ 8 * 2 ^ 24 := Nat.mul_le_mul_left _ (Nat.pow_le_pow_right (by norm_num) hk)
      _ = 2 ^ 32 := by norm_num
  simp only [word32, UInt32.toNat_or, UInt32.toNat_shiftLeft, UInt8.toNat_toUInt32]
  change b₀.toNat ||| b₁.toNat <<< 8 % 2 ^ 32 ||| b₂.toNat <<< 16 % 2 ^ 32 |||
    b₃.toNat <<< 24 % 2 ^ 32 = _
  rw [hs _ _ h₁ (by norm_num), hs _ _ h₂ (by norm_num), hs _ _ h₃ (by norm_num),
    or_shift (n := 8) h₀, or_shift (n := 16) (by omega), or_shift (n := 24) (by omega)]

theorem bytes16_eq (v : UInt16) :
    bytes16 v = [v.toUInt8, UInt8.ofNat (v.toNat / 256)] := by
  have hm : ∀ n : ℕ, n &&& 255 = n % 256 := fun n => Nat.and_two_pow_sub_one_eq_mod n 8
  simp only [bytes16, List.cons.injEq, and_true]
  refine ⟨?_, ?_⟩ <;> apply UInt8.toNat.inj <;>
    simp [hm, Nat.shiftRight_eq_div_pow]

theorem bytes32_eq (v : UInt32) :
    bytes32 v = [v.toUInt8, UInt8.ofNat (v.toNat / 256),
      UInt8.ofNat (v.toNat / 65536), UInt8.ofNat (v.toNat / 16777216)] := by
  have hm : ∀ n : ℕ, n &&& 255 = n % 256 := fun n => Nat.and_two_pow_sub_one_eq_mod n 8
  simp only [bytes32, List.cons.injEq, and_true]
  refine ⟨?_, ?_, ?_, ?_⟩ <;> apply UInt8.toNat.inj <;>
    simp [hm, Nat.shiftRight_eq_div_pow]

theorem word16_bytes16 (v : UInt16) :
    word16 v.toUInt8 (UInt8.ofNat (v.toNat / 256)) = v := by
  apply UInt16.toNat.inj
  have := v.toNat_lt
  rw [word16_toNat]
  simp only [UInt8.toNat_ofNat', UInt16.toNat_toUInt8]
  omega

theorem word32_bytes32 (v : UInt32) :
    word32 v.toUInt8 (UInt8.ofNat (v.toNat / 256))
      (UInt8.ofNat (v.toNat / 65536)) (UInt8.ofNat (v.toNat / 16777216)) = v := by
  apply UInt32.toNat.inj
  have := v.toNat_lt
  rw [word32_toNat]
  simp only [UInt8.toNat_ofNat', UInt32.toNat_toUInt8]
  omega

theorem bytes32_word32 (b₀ b₁ b₂ b₃ : UInt8) :
    bytes32 (word32 b₀ b₁ b₂ b₃) = [b₀, b₁, b₂, b₃] := by
  have h₀ := b₀.toNat_lt
  have h₁ := b₁.toNat_lt
  have h₂ := b₂.toNat_lt
  have h₃ := b₃.toNat_lt
  rw [bytes32_eq, word32_toNat]
  simp only [List.cons.injEq, and_true]
  refine ⟨?_, ?_, ?_, ?_⟩ <;> apply UInt8.toNat.inj <;>
    simp only [UInt8.toNat_ofNat', UInt32.toNat_toUInt8, word32_toNat] <;> omega

/-- The half word stored at offset `i` of a byte string; absent bytes count as zero. -/
def read16 (p : Bytes) (i : ℕ) : UInt16 := word16 (p.getD i 0) (p.getD (i + 1) 0)

def read32 (p : Bytes) (i : ℕ) : UInt32 :=
  word32 (p.getD i 0) (p.getD (i + 1) 0) (p.getD (i + 2) 0) (p.getD (i + 3) 0)

@[simp] theorem read16_head (v : UInt16) (post : Bytes) : read16 (bytes16 v ++ post) 0 = v := by
  simp [read16, bytes16_eq, word16_bytes16]

@[simp] theorem read32_head (v : UInt32) (post : Bytes) : read32 (bytes32 v ++ post) 0 = v := by
  simp [read32, bytes32_eq, word32_bytes32]

@[simp] theorem read16_skip16 (v : UInt16) (post : Bytes) (i : ℕ) :
    read16 (bytes16 v ++ post) (i + 2) = read16 post i := rfl

@[simp] theorem read16_skip32 (v : UInt32) (post : Bytes) (i : ℕ) :
    read16 (bytes32 v ++ post) (i + 4) = read16 post i := rfl

@[simp] theorem read32_skip16 (v : UInt16) (post : Bytes) (i : ℕ) :
    read32 (bytes16 v ++ post) (i + 2) = read32 post i := rfl

@[simp] theorem read32_skip32 (v : UInt32) (post : Bytes) (i : ℕ) :
    read32 (bytes32 v ++ post) (i + 4) = read32 post i := rfl

@[simp] theorem read32_cons (b : UInt8) (post : Bytes) (i : ℕ) :
    read32 (b :: post) (i + 1) = read32 post i := rfl

@[simp] theorem getD_skip16 (v : UInt16) (post : Bytes) (i : ℕ) :
    (bytes16 v ++ post).getD (i + 2) 0 = post.getD i 0 := rfl

@[simp] theorem getD_skip32 (v : UInt32) (post : Bytes) (i : ℕ) :
    (bytes32 v ++ post).getD (i + 4) 0 = post.getD i 0 := rfl

end EdgeLink.LittleEndian
