import Mathlib

namespace EdgeLink.Utf8

def Encoded (t : List UInt8) : Prop := ∃ cs : List Char, t = cs.flatMap String.utf8EncodeChar

theorem marked {mark : UInt8} (h : 0x80 ≤ mark) (a : UInt8) : 0x80 ≤ a ||| mark := by
  rw [UInt8.le_iff_toNat_le] at h ⊢
  rw [UInt8.toNat_or]
  exact h.trans Nat.right_le_or

/-- A character is one byte below 0x80, or bytes that are all beyond. -/
theorem encode_cases (c : Char) : (∃ b < 0x80, String.utf8EncodeChar c = [b]) ∨
    (String.utf8EncodeChar c ≠ [] ∧ ∀ b ∈ String.utf8EncodeChar c, 0x80 ≤ b) := by
  rw [String.utf8EncodeChar_eq_utf8EncodeCharFast]
  unfold String.utf8EncodeCharFast
  dsimp only
  split_ifs with h
  · refine Or.inl ⟨_, ?_, rfl⟩
    rw [UInt32.le_iff_toNat_le] at h
    rw [UInt8.lt_iff_toNat_lt, UInt32.toNat_toUInt8]
    change c.val.toNat ≤ 0x7f at h
    change c.val.toNat % 2 ^ 8 < 0x80
    omega
  all_goals
    refine Or.inr ⟨List.cons_ne_nil _ _, ?_⟩
    simp only [List.forall_mem_cons]
  · exact ⟨marked (by decide) _, marked (by decide) _, nofun⟩
  · exact ⟨marked (by decide) _, marked (by decide) _, marked (by decide) _, nofun⟩
  · exact ⟨marked (by decide) _, marked (by decide) _, marked (by decide) _, marked (by decide) _,
      nofun⟩

theorem Encoded.nil : Encoded [] := ⟨[], rfl⟩

theorem Encoded.append {s t : List UInt8} (hs : Encoded s) (ht : Encoded t) : Encoded (s ++ t) := by
  obtain ⟨cs, rfl⟩ := hs
  obtain ⟨ds, rfl⟩ := ht
  exact ⟨cs ++ ds, List.flatMap_append.symm⟩

theorem Encoded.of_ascii {t : List UInt8} (h : ∀ b ∈ t, b < 0x80) : Encoded t := by
  refine ⟨t.map fun b => Char.ofNat b.toNat, ?_⟩
  induction t with
  | nil => rfl
  | cons b t ih =>
    obtain ⟨hb, ht⟩ := List.forall_mem_cons.mp h
    rw [UInt8.lt_iff_toNat_lt] at hb
    have hlt : b.toNat < 0x80 := hb
    have hone : String.utf8EncodeChar (Char.ofNat b.toNat) = [b] := by
      have hvalid : b.toNat.isValidChar := Or.inl (by omega)
      have hval : (Char.ofNat b.toNat).val.toNat = b.toNat := by
        change (Char.ofNat b.toNat).toNat = b.toNat
        rw [Char.toNat_ofNat, if_pos hvalid]
      have hsize : (Char.ofNat b.toNat).utf8Size = 1 := by
        rw [Char.utf8Size_eq_one_iff, UInt32.le_iff_toNat_le, hval]
        change b.toNat ≤ 0x7f
        omega
      rw [String.utf8EncodeChar_eq_singleton hsize]
      congr 1
      rw [← UInt8.toNat_inj, UInt32.toNat_toUInt8, hval]
      omega
    rw [List.map_cons, List.flatMap_cons, hone, ← ih ht]
    rfl

/-- A byte below 0x80 stands for itself, so what stands before it and behind it is encoded. -/
theorem Encoded.split {x y : List UInt8} {c : UInt8} (hc : c < 0x80) (h : Encoded (x ++ c :: y)) :
    Encoded x ∧ Encoded y := by
  obtain ⟨cs, hcs⟩ := h
  induction cs generalizing x with
  | nil => exact absurd hcs (List.append_ne_nil_of_right_ne_nil _ (List.cons_ne_nil _ _))
  | cons d cs ih =>
    rw [List.flatMap_cons] at hcs
    rcases encode_cases d with ⟨b, hb, hone⟩ | ⟨hne, hhigh⟩
    · rw [hone, List.singleton_append] at hcs
      cases x with
      | nil => exact ⟨Encoded.nil, cs, (List.cons.inj hcs).2⟩
      | cons a x =>
        obtain ⟨rfl, hrest⟩ := List.cons.inj hcs
        obtain ⟨hx, hy⟩ := ih hrest
        exact ⟨Encoded.append (s := [a]) ⟨[d], by rw [List.flatMap_singleton, hone]⟩ hx, hy⟩
    · -- the byte is none of the character's, so the whole character stands before it
      rcases List.append_eq_append_iff.mp hcs with ⟨r, hd, hr⟩ | ⟨r, hx, hr⟩
      · cases r with
        | nil =>
          rw [List.append_nil] at hd
          rw [List.nil_append] at hr
          obtain ⟨-, hy⟩ := @ih [] hr
          exact ⟨⟨[d], by rw [List.flatMap_singleton, hd]⟩, hy⟩
        | cons a r =>
          obtain ⟨rfl, -⟩ := List.cons.inj hr
          have hin := hhigh c (by rw [hd]; exact List.mem_append_right _ List.mem_cons_self)
          exact absurd hc (UInt8.not_lt.mpr hin)
      · obtain ⟨hr', hy⟩ := ih hr.symm
        rw [hx]
        exact ⟨Encoded.append ⟨[d], by rw [List.flatMap_singleton]⟩ hr', hy⟩

end EdgeLink.Utf8
