import EdgeLink.JsonLaws

namespace EdgeLink.Doubles

open Json Lookup

/-! How a stream prints a `double` with the default format: six significant digits, rounded to
nearest and to even, without trailing zeros. -/

/-- A `double`; the magnitudes that one can have are among these. -/
inductive Double
  | finite (minus : Bool) (magnitude : ℚ≥0)
  | infinite (minus : Bool)
  | nan (minus : Bool)
  deriving DecidableEq

def Double.isFinite : Double → Bool
  | finite _ _ => true
  | _ => false

def roundHalfEven (q : ℚ≥0) : ℕ :=
  let n := ⌊q⌋₊
  if q - n < 1 / 2 ∨ (q - n = 1 / 2 ∧ n % 2 = 0) then n else n + 1

/-- The six digits as a number, and the exponent of the first. -/
def significant (q : ℚ≥0) : ℕ × ℤ :=
  let e := Int.log 10 q
  let m := roundHalfEven (q * 10 ^ (5 - e))
  if m = 10 ^ 6 then (10 ^ 5, e + 1) else (m, e)

local instance ten_neZero : NeZero 10 := ⟨by decide⟩

def fraction (ds : List (Fin 10)) : Option (Fin 10 × List (Fin 10)) :=
  match ds.rdropWhile (· = 0) with
  | [] => none
  | d :: ds => some (d, ds)

/-- An exponent has its sign and at least two digits. -/
def exponentPart (e : ℤ) : ExpPart :=
  let ds := (if e.natAbs < 10 then [0] else []) ++ natDigits e.natAbs
  ⟨false, some (if e < 0 then .minus else .plus), ds.headD 0, ds.tail⟩

def printed (minus : Bool) (q : ℚ≥0) : Number :=
  if q = 0 then ⟨minus, .zero, none, none⟩
  else
    let (m, e) := significant q
    let digits := natDigits m
    if e < -4 ∨ 6 ≤ e then
      ⟨minus, .ofNat (m / 10 ^ 5), fraction (digits.drop 1), some (exponentPart e)⟩
    else if 0 ≤ e then
      ⟨minus, .ofNat (m / 10 ^ (5 - e).toNat), fraction (digits.drop (e + 1).toNat), none⟩
    else ⟨minus, .zero, fraction (List.replicate (-e - 1).toNat 0 ++ digits), none⟩

def Double.text : Double → Text
  | finite minus q => (printed minus q).text
  | infinite minus => (if minus then [0x2D] else []) ++ ascii "inf"
  | nan minus => (if minus then [0x2D] else []) ++ ascii "nan"

theorem digitByte_ne (d : Fin 10) : digitByte d ≠ 0x69 ∧ digitByte d ≠ 0x6E ∧ digitByte d ≠ 0x2D := by
  revert d
  decide

/-- A number is a digit and more, behind its sign. -/
theorem number_digit (n : Number) :
    ∃ d t, n.text = (if n.minus then [0x2D] else []) ++ digitByte d :: t := by
  obtain ⟨d, ds, hd⟩ : ∃ d ds, n.int.digitList = d :: ds := by
    cases n.int <;> exact ⟨_, _, rfl⟩
  refine ⟨d, digitsText ds ++ (n.fracText ++ n.expText), ?_⟩
  rw [Number.text, hd]
  rfl

/-- What is not finite is printed as a word, and the word begins no value. -/
theorem no_value {d : Double} (h : d.isFinite = false) (v : Value) (s u : Text) :
    v.text ++ s ≠ d.text ++ u := by
  obtain ⟨minus, b, t, hb, htext⟩ : ∃ (minus : Bool) (b : UInt8) (t : Text),
      (b = 0x69 ∨ (b = 0x6E ∧ t.head? = some 0x61)) ∧
        d.text = (if minus then [0x2D] else []) ++ b :: t := by
    cases d with
    | finite minus q => cases h
    | infinite minus => exact ⟨minus, 0x69, _, Or.inl rfl, rfl⟩
    | nan minus => exact ⟨minus, 0x6E, _, Or.inr ⟨rfl, rfl⟩, rfl⟩
  rw [htext, List.append_assoc, List.cons_append]
  intro heq
  cases v with
  | word w =>
    -- only `null` shares its first letter
    cases minus <;> cases w <;> rcases hb with rfl | ⟨rfl, ht⟩ <;> simp [Value.text, Word.text] at heq
    cases t <;> simp_all
  | number n =>
    obtain ⟨digit, rest, hn⟩ := number_digit n
    obtain ⟨hi, hnan, hminus⟩ := digitByte_ne digit
    rw [Value.text, hn, List.append_assoc, List.cons_append] at heq
    have hne : digitByte digit ≠ b := by
      rcases hb with rfl | ⟨rfl, -⟩
      · exact hi
      · exact hnan
    have hsign : b ≠ 0x2D := by
      rcases hb with rfl | ⟨rfl, -⟩ <;> decide
    split_ifs at heq
    · exact hne (List.cons.inj (List.cons.inj heq).2).1
    · exact hsign (List.cons.inj heq).1.symm
    · exact hminus (List.cons.inj heq).1
    · exact hne (List.cons.inj heq).1
  | string s => cases minus <;> rcases hb with rfl | ⟨rfl, ht⟩ <;> simp [Value.text, Str.text] at heq
  | _ => cases minus <;> rcases hb with rfl | ⟨rfl, ht⟩ <;> simp [Value.text] at heq

theorem Double.text_finite {d : Double} (h : d.isFinite = true) : ∃ n : Number, d.text = n.text := by
  cases d with
  | finite minus q => exact ⟨_, rfl⟩
  | infinite minus => cases h
  | nan minus => cases h

end EdgeLink.Doubles
