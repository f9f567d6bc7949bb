import EdgeLink.CommandRequest
import EdgeLink.JsonLaws
import EdgeLink.NodeCommand

namespace EdgeLink.CommandJson

open Json Lookup Node

/-- A name that a line can be searched for. -/
structure IsKey (key : Text) : Prop where
  ne : key ≠ []
  plain : ∀ b ∈ key, b ≠ 0x22 ∧ b ≠ 0x5C ∧ b ≠ 0x7D ∧ b ≠ 0x3A ∧ b ≠ 0x2C

/-- The bytes that end a name or mean something behind one. -/
def marks : Text := [0x22, 0x5C, 0x7D, 0x3A, 0x2C]

theorem isKey_iff (key : Text) : IsKey key ↔ (!key.isEmpty && key.all (!marks.contains ·)) = true := by
  simp only [Bool.and_eq_true, Bool.not_eq_true', List.isEmpty_eq_false_iff, List.all_eq_true,
    marks, List.contains_eq_mem, decide_eq_false_iff_not, List.mem_cons, List.not_mem_nil, or_false,
    not_or]
  exact ⟨fun h => ⟨h.ne, h.plain⟩, fun h => ⟨h.1, h.2⟩⟩

instance (key : Text) : Decidable (IsKey key) := decidable_of_iff _ (isKey_iff key).symm

section Search

variable {key : Text} (hkey : IsKey key)

theorem behind_skip {b : UInt8} (hb : b ≠ 0x22) (s : Text) :
    behind (quoted key) (b :: s) = behind (quoted key) s := by
  rw [behind, if_neg]
  rintro ⟨t, ht⟩
  exact hb (List.cons.inj ht).1.symm

theorem behind_chunk {t : Text} (ht : ∀ b ∈ t, b ≠ 0x22) (s : Text) :
    behind (quoted key) (t ++ s) = behind (quoted key) s := by
  induction t with
  | nil => rfl
  | cons b t ih =>
    rw [List.forall_mem_cons] at ht
    rw [List.cons_append, behind_skip ht.1, ih ht.2]

theorem behind_found (s : Text) : behind (quoted key) (quoted key ++ s) = some s := by
  have h : quoted key ++ s = 0x22 :: (key ++ [0x22] ++ s) := rfl
  rw [h, behind, ← h, if_pos (List.prefix_append _ _), List.drop_left]

include hkey in
/-- Behind a quote that is not followed by the key's first byte nothing begins. -/
theorem behind_quote {b : UInt8} (hb : b ∉ key) (s : Text) :
    behind (quoted key) (0x22 :: b :: s) = behind (quoted key) (b :: s) := by
  rw [behind, if_neg]
  rintro ⟨t, ht⟩
  obtain ⟨c, k, rfl⟩ := List.exists_cons_of_ne_nil hkey.ne
  have hc : c = b := (List.cons.inj (List.cons.inj ht).2).1
  exact hb (hc ▸ List.mem_cons_self)

/-- A quoted name is the key or is passed over. -/
theorem quoted_begins {name s : Text} (hname : ∀ b ∈ name, b ≠ 0x22) (hk : ∀ b ∈ key, b ≠ 0x22)
    (h : quoted key <+: quoted name ++ s) : key = name := by
  obtain ⟨t, ht⟩ := h
  simp only [quoted, List.cons_append, List.append_assoc, List.nil_append, List.cons.injEq,
    true_and] at ht
  have htake (l r : Text) (hl : ∀ b ∈ l, b ≠ 0x22) :
      (l ++ 0x22 :: r).takeWhile (· ≠ 0x22) = l := by
    rw [List.takeWhile_append_of_pos (by simpa using hl), List.takeWhile_cons_of_neg (by decide),
      List.append_nil]
  rw [← htake key t hk, ht, htake name s hname]

include hkey in
theorem behind_name {name : Text} (hname : ∀ b ∈ name, b ≠ 0x22) (hne : key ≠ name) {b : UInt8}
    (hb : b ∉ key) (s : Text) :
    behind (quoted key) (quoted name ++ b :: s) = behind (quoted key) (b :: s) := by
  have hfirst : ¬quoted key <+: quoted name ++ b :: s :=
    fun h => hne (quoted_begins hname (fun c hc => (hkey.plain c hc).1) h)
  have hcons : quoted name ++ b :: s = 0x22 :: (name ++ 0x22 :: b :: s) := by simp [quoted]
  rw [hcons] at hfirst ⊢
  rw [behind, if_neg hfirst, behind_chunk hname, behind_quote hkey hb]

theorem escapeByte_plain {b : UInt8} (hb : b ≠ 0x22) : ∀ c ∈ escapeByte b, c ≠ 0x22 := by
  intro c hc
  unfold escapeByte at hc
  rw [if_neg hb] at hc
  split_ifs at hc
  all_goals
    simp only [List.mem_cons, List.not_mem_nil, or_false] at hc
    rcases hc with rfl | rfl <;> first | decide | exact hb

theorem jsonEscape_cons (b : UInt8) (v : Text) :
    jsonEscape (b :: v) = escapeByte b ++ jsonEscape v := List.flatMap_cons

theorem escape_backslash (v t : Text) (h : 0x22 ∈ jsonEscape v) :
    0x5C ∈ (jsonEscape v ++ t).takeWhile (· ≠ 0x22) := by
  induction v with
  | nil => exact absurd h List.not_mem_nil
  | cons b v ih =>
    by_cases hb : b = 0x22
    · subst hb
      exact List.mem_cons_self
    · rw [jsonEscape_cons, List.append_assoc,
        List.takeWhile_append_of_pos (by simpa using escapeByte_plain hb)]
      rw [jsonEscape_cons, List.mem_append] at h
      exact List.mem_append_right _ (ih (h.resolve_left fun hq => escapeByte_plain hb _ hq rfl))

include hkey in
theorem escape_begins {v s : Text} (h : quoted key <+: 0x22 :: (jsonEscape v ++ 0x22 :: s)) :
    jsonEscape v = key := by
  have hplain : ∀ b ∈ key, b ≠ 0x22 := fun b hb => (hkey.plain b hb).1
  by_cases hq : 0x22 ∈ jsonEscape v
  · obtain ⟨t, ht⟩ := h
    simp only [quoted, List.cons_append, List.append_assoc, List.nil_append, List.cons.injEq,
      true_and] at ht
    have hslash := escape_backslash v (0x22 :: s) hq
    rw [← ht, List.takeWhile_append_of_pos (by simpa using hplain),
      List.takeWhile_cons_of_neg (by decide), List.append_nil] at hslash
    exact absurd rfl (hkey.plain _ hslash).2.1
  · refine (quoted_begins (s := s) (fun b hb hb' => hq (hb' ▸ hb)) hplain ?_).symm
    simpa [quoted] using h

section Escaped

variable {b : UInt8} (hb : b ∉ key) (s : Text)

include hkey in
/-- In the escaped text of a value a key is found at the very end or not at all. -/
theorem behind_escape_quote {v : Text}
    (ih : behind (quoted key) (jsonEscape v ++ 0x22 :: b :: s) = some (b :: s) ∨
      behind (quoted key) (jsonEscape v ++ 0x22 :: b :: s) = behind (quoted key) (b :: s)) :
    behind (quoted key) (0x22 :: (jsonEscape v ++ 0x22 :: b :: s)) = some (b :: s) ∨
      behind (quoted key) (0x22 :: (jsonEscape v ++ 0x22 :: b :: s)) =
        behind (quoted key) (b :: s) := by
  by_cases h : quoted key <+: 0x22 :: (jsonEscape v ++ 0x22 :: b :: s)
  · have hv := escape_begins hkey h
    refine Or.inl ?_
    have hcons : (0x22 : UInt8) :: (key ++ 0x22 :: b :: s) = quoted key ++ b :: s := by
      simp [quoted]
    rw [hv, hcons, behind_found]
  · rw [behind, if_neg h]
    exact ih

include hkey hb in
theorem behind_escape (v : Text) :
    behind (quoted key) (jsonEscape v ++ 0x22 :: b :: s) = some (b :: s) ∨
      behind (quoted key) (jsonEscape v ++ 0x22 :: b :: s) = behind (quoted key) (b :: s) := by
  induction v with
  | nil => exact Or.inr (behind_quote hkey hb s)
  | cons c v ih =>
    rw [jsonEscape_cons]
    by_cases hc : c = 0x22
    · subst hc
      have hesc : escapeByte 0x22 = [0x5C, 0x22] := rfl
      simp only [hesc, List.cons_append, List.nil_append]
      rw [behind_skip (by decide)]
      exact behind_escape_quote hkey s ih
    · rw [List.append_assoc, behind_chunk (escapeByte_plain hc)]
      exact ih

include hkey hb in
theorem behind_escaped (v : Text) :
    behind (quoted key) (quoted (jsonEscape v) ++ b :: s) = some (b :: s) ∨
      behind (quoted key) (quoted (jsonEscape v) ++ b :: s) = behind (quoted key) (b :: s) := by
  have hcons : quoted (jsonEscape v) ++ b :: s = 0x22 :: (jsonEscape v ++ 0x22 :: b :: s) := by
    simp [quoted]
  rw [hcons]
  exact behind_escape_quote hkey s (behind_escape hkey hb s v)

end Escaped

end Search

def field (name value s : Text) : Text := quoted name ++ 0x3A :: (value ++ s)

section Field

variable {key line : Text}

theorem behind_field (value s : Text) :
    behind (quoted key) (field key value s) = some (0x3A :: (value ++ s)) := behind_found _

theorem behind_other (hkey : IsKey key) {name : Text} (hname : IsKey name) (hne : key ≠ name)
    (value s : Text) :
    behind (quoted key) (field name value s) = behind (quoted key) (value ++ s) := by
  have hcolon : 0x3A ∉ key := fun h => (hkey.plain _ h).2.2.2.1 rfl
  rw [field, behind_name hkey (fun b hb => (hname.plain b hb).1) hne hcolon,
    behind_skip (by decide)]

theorem findValueStart_eq {b : UInt8} {s : Text} (hb : isSpace b = false)
    (h : behind (quoted key) line = some (0x3A :: b :: s)) :
    findValueStart line key = some (b :: s) := by
  have hcolon : (0x3A :: b :: s).dropWhile isSpace = 0x3A :: b :: s := rfl
  rw [findValueStart, h]
  simp only [hcolon]
  rw [List.dropWhile_cons_of_neg (by simp [hb])]

theorem findStringField_eq {v : Text} (hv : ∀ b ∈ v, b ≠ 0x22)
    (h : ∃ s, behind (quoted key) line = some (0x3A :: (quoted v ++ s))) :
    findStringField line key = v := by
  obtain ⟨s, h⟩ := h
  have hcons : quoted v ++ s = 0x22 :: (v ++ 0x22 :: s) := by simp [quoted]
  rw [hcons] at h
  have hstart := findValueStart_eq (by decide) h
  rw [findStringField, hstart]
  simp only
  rw [if_pos (by simp), List.takeWhile_append_of_pos (by simpa using hv),
    List.takeWhile_cons_of_neg (by decide), List.append_nil]

theorem findStringField_nil
    (h : behind (quoted key) line = none ∨ ∃ s, behind (quoted key) line = some (0x7D :: s)) :
    findStringField line key = [] := by
  have hstart : findValueStart line key = none := by
    rcases h with h | ⟨s, h⟩
    · rw [findValueStart, h]
    · rw [findValueStart, h]
      simp [isSpace]
  rw [findStringField, hstart]

theorem natDigits_list (n : ℕ) : ∃ d ds, natDigits n = d :: ds := by
  by_cases h : n = 0
  · subst h
    exact ⟨0, [], by decide +kernel⟩
  · obtain ⟨d, ds, hd, -⟩ := natDigits_cons h
    exact ⟨d, ds, hd⟩

theorem toInt_natText {n : ℕ} (hn : n < 2 ^ 31) : toInt (natText n) = n := by
  obtain ⟨d, ds, hd⟩ := natDigits_list n
  have htext : natText n = digitByte d :: digitsText ds := by rw [natText, hd]; rfl
  have hws : (natText n).dropWhile isSpace = natText n := by
    rw [htext]
    exact skipJsonWhitespace_cons (isSpace_scalar (digitByte_scalar d)) _
  have hsign : (natText n).head?.filter (fun b => b == 0x2D || b == 0x2B) = none := by
    have hnone : ∀ d : Fin 10, (some (digitByte d)).filter
        (fun b => b == 0x2D || b == 0x2B) = none := by decide
    rw [htext, List.head?_cons, hnone]
  have hdigits : (natText n).takeWhile isDigit = natText n := by
    have h := @takeWhile_digits (natDigits n) [] (by simp)
    rwa [List.append_nil] at h
  have hvalue : (natText n).foldl (fun (n : ℤ) b => n * 10 + (b.toNat - 0x30)) 0 = n :=
    (digitsText_value (natDigits n) 0).trans (congrArg _ (natDigits_value n))
  rw [toInt, hws, hsign]
  simp only [Option.isSome_none, Bool.false_eq_true, if_false, hdigits, hvalue,
    (by simp : ¬(none : Option UInt8) = some 0x2D)]
  omega

theorem natText_digit {n : ℕ} : ∀ b ∈ natText n, isDigit b = true ∧ b ≠ 0x22 := by
  intro b hb
  obtain ⟨d, -, rfl⟩ := List.mem_map.mp hb
  exact ⟨digitByte_isDigit d, (digitByte_scalar d).2.1⟩

theorem findIntField_eq {n : ℕ} (hn : n < 2 ^ 31) {b : UInt8}
    (hb : isDigit b = false ∧ b ≠ 0x2D) (defaultValue : ℤ)
    (h : ∃ s, behind (quoted key) line = some (0x3A :: (natText n ++ b :: s))) :
    findIntField line key defaultValue = n := by
  obtain ⟨s, h⟩ := h
  obtain ⟨d, ds, hd⟩ := natDigits_list n
  have htext : natText n = digitByte d :: digitsText ds := by rw [natText, hd]; rfl
  have hstart : findValueStart line key = some (natText n ++ b :: s) := by
    rw [htext] at h ⊢
    exact findValueStart_eq (isSpace_scalar (digitByte_scalar d)) h
  have hrun : (natText n ++ b :: s).takeWhile (fun b => isDigit b || b == 0x2D) = natText n := by
    rw [List.takeWhile_append_of_pos fun c hc => by rw [(natText_digit c hc).1, Bool.true_or],
      List.takeWhile_cons_of_neg (by simp [hb]), List.append_nil]
  rw [findIntField, hstart]
  simp only [hrun]
  rw [if_neg (by rw [htext]; exact List.cons_ne_nil _ _), toInt_natText hn]

end Field

theorem intText_plain (z : ℤ) : ∀ b ∈ intText z, b ≠ 0x22 := by
  intro b hb
  rcases List.mem_append.mp hb with h | h
  · split_ifs at h
    · rw [List.mem_singleton.mp h]
      decide
    · exact absurd h List.not_mem_nil
  · exact (natText_digit b h).2

theorem intText_nonneg {z : ℤ} (hz : 0 ≤ z) : intText z = natText z.natAbs := by
  rw [intText, if_neg (by omega), List.nil_append]

section Skip

variable {key name : Text} (hkey : IsKey key) (hname : IsKey name) (hne : key ≠ name)

include hkey hname hne

theorem behind_numberField {t : Text} (ht : ∀ b ∈ t, b ≠ 0x22) (s : Text) :
    behind (quoted key) (field name t s) = behind (quoted key) s := by
  rw [behind_other hkey hname hne, behind_chunk ht]

theorem behind_textField {v : Text} (hv : ∀ b ∈ v, b ≠ 0x22) (hkv : key ≠ v) {b : UInt8}
    (hb : b ∉ key) (s : Text) :
    behind (quoted key) (field name (quoted v) (b :: s)) = behind (quoted key) (b :: s) := by
  rw [behind_other hkey hname hne, behind_name hkey hv hkv hb]

end Skip

theorem IsKey.comma {key : Text} (hkey : IsKey key) : 0x2C ∉ key :=
  fun h => (hkey.plain _ h).2.2.2.2 rfl

theorem IsKey.brace {key : Text} (hkey : IsKey key) : 0x7D ∉ key :=
  fun h => (hkey.plain _ h).2.2.1 rfl

end EdgeLink.CommandJson
