import EdgeLink.Pattern

/-! Patterns that look for a quoted name, a colon and a value anywhere in a text. -/

namespace EdgeLink.Pattern

open Json Lookup

/-- `\s*` -/
def spaces : Piece UInt8 := ⟨isSpace, 0, none, true, false⟩

def quoted (name : Text) : Text := 0x22 :: (name ++ [0x22])

/-- `"key"\s*:\s*` and then `value`. -/
def member (key : Text) (value : List (Piece UInt8)) : List (Piece UInt8) :=
  literal (quoted key) ++ spaces :: one 0x3A :: spaces :: value

/-- `"([^"]*)"`, or `"([^"]+)"` from one byte on. -/
def textValue (least : ℕ) : List (Piece UInt8) :=
  [one 0x22, ⟨(· != 0x22), least, none, true, true⟩, one 0x22]

/-- `([0-9]+)` -/
def digitsValue : List (Piece UInt8) := [⟨isDigit, 1, none, true, true⟩]

/-- `(-?[0-9]+)` -/
def signedValue : List (Piece UInt8) :=
  [⟨(· == 0x2D), 0, some 1, true, true⟩, ⟨isDigit, 1, none, true, true⟩]

/-- A name that no separator can be taken for. -/
def IsName (key : Text) : Prop := key ≠ [] ∧ ∀ b ∈ key, b ≠ 0x22 ∧ b ≠ 0x3A ∧ b ≠ 0x2C

instance (key : Text) : Decidable (IsName key) := inferInstanceAs (Decidable (_ ∧ _))

theorem run_spaces {ps : List (Piece UInt8)}
    (h : ∀ b u, isSpace b = true → run ps (b :: u) = none) (s : Text) :
    run (spaces :: ps) s = run ps (s.dropWhile isSpace) := by
  have hleast : spaces.least ≤ (s.takeWhile spaces.cls).length := Nat.zero_le _
  rw [run_many spaces ps rfl rfl h, if_pos hleast]
  simp [spaces, Piece.kept]

theorem run_one_space {b : UInt8} (hb : isSpace b = false) (ps : List (Piece UInt8)) :
    ∀ c u, isSpace c = true → run (one b :: ps) (c :: u) = none := by
  intro c u hc
  apply run_one_none ps b
  rintro h
  obtain rfl := Option.some.inj h
  exact absurd hc (by simp [hb])

section search

variable {key : Text} {value : List (Piece UInt8)}

theorem run_member_colon (hvalue : ∀ b u, isSpace b = true → run value (b :: u) = none) (s : Text) :
    run (member key value) (quoted key ++ 0x3A :: s) = run value (s.dropWhile isSpace) := by
  have hcolon : (0x3A :: s).dropWhile isSpace = 0x3A :: s := List.dropWhile_cons_of_neg (by decide)
  rw [member, run_literal, run_spaces (run_one_space (by decide) _), hcolon, run_one,
    run_spaces hvalue]

/-- The value of a member is behind `: `. -/
theorem run_member (hvalue : ∀ b u, isSpace b = true → run value (b :: u) = none) {b : UInt8}
    (hb : isSpace b = false) (s : Text) :
    run (member key value) (quoted key ++ 0x3A :: 0x20 :: b :: s) = run value (b :: s) := by
  rw [run_member_colon hvalue, List.dropWhile_cons_of_pos (by decide),
    List.dropWhile_cons_of_neg (by simp [hb])]

/-- Without a colon the quoted name is no member. -/
theorem run_member_end {b : UInt8} (hb : isSpace b = false) (hcolon : b ≠ 0x3A) (s : Text) :
    run (member key value) (quoted key ++ b :: s) = none := by
  rw [member, run_literal, run_spaces (run_one_space (by decide) _),
    List.dropWhile_cons_of_neg (by simp [hb])]
  exact run_one_none _ _ fun h => hcolon (Option.some.inj h)

theorem run_member_none {s : Text} (h : ¬quoted key <+: s) : run (member key value) s = none :=
  run_literal_none _ h

/-- A text between quotes is `key` if the name is found at the opening one. -/
theorem quoted_opens {t s : Text} (hkey : IsName key) (ht : 0x22 ∉ t)
    (h : quoted key <+: 0x22 :: (t ++ 0x22 :: s)) : t = key := by
  have hkey' : 0x22 ∉ key := fun hin => (hkey.2 _ hin).1 rfl
  obtain ⟨u, hu⟩ := h
  have heq : key ++ 0x22 :: u = t ++ 0x22 :: s := by
    simpa only [quoted, List.cons_append, List.append_assoc, List.nil_append, List.cons.injEq,
      true_and] using hu
  exact (cut_unique hkey' ht heq).1.symm

theorem search_plain {t : Text} (ht : 0x22 ∉ t) (s : Text) :
    search (member key value) (t ++ s) = search (member key value) s := by
  apply search_chunk
  intro a ha u
  apply run_member_none
  rintro hpre
  obtain ⟨rfl, -⟩ := List.cons_prefix_cons.mp hpre
  exact ht ha

/-- A closing quote does not open the name. -/
theorem search_closing (hkey : key ≠ []) {b : UInt8} (hb : b ∉ key) (s : Text) :
    search (member key value) (0x22 :: b :: s) = search (member key value) (b :: s) := by
  apply search_skip
  apply run_member_none
  intro hpre
  obtain ⟨c, rest, rfl⟩ := List.exists_cons_of_ne_nil hkey
  have hc : c = b := (List.cons_prefix_cons.mp (List.cons_prefix_cons.mp hpre).2).1
  exact hb (hc ▸ List.mem_cons_self)

/-- A string value is passed over, even one that is the name itself. -/
theorem search_value (hkey : IsName key) {t : Text} (ht : 0x22 ∉ t) {b : UInt8}
    (hb : isSpace b = false ∧ b ≠ 0x3A ∧ b ≠ 0x22) (hin : b ∉ key) (s : Text) :
    search (member key value) (quoted t ++ b :: s) = search (member key value) s := by
  have hsplit : quoted t ++ b :: s = 0x22 :: (t ++ 0x22 :: b :: s) := by simp [quoted]
  have hrun : run (member key value) (0x22 :: (t ++ 0x22 :: b :: s)) = none := by
    by_cases hpre : quoted key <+: 0x22 :: (t ++ 0x22 :: b :: s)
    · rw [← hsplit, quoted_opens hkey ht hpre]
      exact run_member_end hb.1 hb.2.1 s
    · exact run_member_none hpre
  rw [hsplit, search_skip hrun, search_plain ht, search_closing hkey.1 hin]
  exact search_plain (t := [b]) (fun h => hb.2.2 (List.mem_singleton.mp h).symm) s

/-- The name of another member is passed over. -/
theorem search_name (hkey : IsName key) {name : Text} (hname : IsName name) (hne : name ≠ key)
    (s : Text) :
    search (member key value) (quoted name ++ 0x3A :: s) = search (member key value) s := by
  have hsplit : quoted name ++ 0x3A :: s = 0x22 :: (name ++ 0x22 :: 0x3A :: s) := by simp [quoted]
  have hquote : 0x22 ∉ name := fun hin => (hname.2 _ hin).1 rfl
  have hcolon : 0x3A ∉ key := fun hin => (hkey.2 _ hin).2.1 rfl
  have hrun : run (member key value) (0x22 :: (name ++ 0x22 :: 0x3A :: s)) = none :=
    run_member_none fun hpre => hne (quoted_opens hkey hquote hpre)
  rw [hsplit, search_skip hrun, search_plain hquote, search_closing hkey.1 hcolon]
  exact search_plain (t := [0x3A]) (by decide) s

end search

theorem run_text {least : ℕ} {t : Text} (ht : 0x22 ∉ t) (hleast : least ≤ t.length) (s : Text) :
    run (textValue least) (quoted t ++ s) = some (t, s) := by
  have hsplit : quoted t ++ s = 0x22 :: (t ++ 0x22 :: s) := by simp [quoted]
  have hpos : ∀ b ∈ t, (b != 0x22) = true := fun b hb => bne_iff_ne.mpr fun hq => ht (hq ▸ hb)
  have htake : (t ++ 0x22 :: s).takeWhile (· != 0x22) = t := by
    rw [List.takeWhile_append_of_pos hpos, List.takeWhile_cons_of_neg (by decide), List.append_nil]
  have hdrop : (t ++ 0x22 :: s).dropWhile (· != 0x22) = 0x22 :: s := by
    rw [List.dropWhile_append_of_pos hpos, List.dropWhile_cons_of_neg (by decide)]
  rw [hsplit, textValue, run_one, run_many _ _ rfl rfl]
  · have hend : run [one 0x22] (0x22 :: s) = some ([], s) := run_one [] 0x22 s
    simp only [htake, hdrop, hend, hleast, if_true, Piece.kept, Option.map_some,
      List.append_nil]
  · intro b u hb
    apply run_one_none
    rintro h
    exact bne_iff_ne.mp hb (Option.some.inj h)

theorem member_captured {key : Text} {value : List (Piece UInt8)} {p : Piece UInt8}
    (hp : p ∈ member key value) (hc : p.captured = true) : p ∈ value := by
  rcases List.mem_append.mp hp with hkey | htail
  · obtain ⟨b, -, rfl⟩ := List.mem_map.mp hkey
    exact absurd hc (by simp [one])
  · simp only [List.mem_cons] at htail
    rcases htail with rfl | rfl | rfl | hvalue
    · exact absurd hc (by simp [spaces])
    · exact absurd hc (by simp [one])
    · exact absurd hc (by simp [spaces])
    · exact hvalue

theorem run_member_some {key s : Text} {value : List (Piece UInt8)} {m : Text × Text}
    (h : run (member key value) s = some m) : ∃ u, run value u = some m := by
  have hsplit : member key value =
      (literal (quoted key) ++ [spaces, one 0x3A, spaces]) ++ value := by simp [member]
  rw [hsplit] at h
  refine run_uncaptured _ s (fun p hp => ?_) h
  rcases List.mem_append.mp hp with hkey | htail
  · obtain ⟨b, -, rfl⟩ := List.mem_map.mp hkey
    rfl
  · simp only [List.mem_cons, List.not_mem_nil, or_false] at htail
    rcases htail with rfl | rfl | rfl <;> rfl

theorem textValue_captured {least : ℕ} {p : Piece UInt8} (hp : p ∈ textValue least)
    (hc : p.captured = true) : p.cls 0x22 = false := by
  simp only [textValue, List.mem_cons, List.not_mem_nil, or_false] at hp
  rcases hp with rfl | rfl | rfl
  · exact absurd hc (by simp [one])
  · rfl
  · exact absurd hc (by simp [one])

theorem run_digits {t s : Text} (ht : ∀ b ∈ t, isDigit b = true) (hne : t ≠ [])
    (hs : ∀ b ∈ s.head?, isDigit b = false) : run digitsValue (t ++ s) = some (t, s) :=
  run_last _ rfl rfl ht hs (List.length_pos_iff.mpr hne)

theorem digits_space : ∀ b u, isSpace b = true → run digitsValue (b :: u) = none := by
  intro b u hb
  have hdigit : isDigit b = false := by
    simp only [isSpace, isDigit, Bool.or_eq_true, Bool.and_eq_true, beq_iff_eq, decide_eq_true_eq,
      Bool.and_eq_false_iff, decide_eq_false_iff_not, UInt8.le_iff_toNat_le] at hb ⊢
    rcases hb with rfl | hb
    · decide
    · change ¬48 ≤ b.toNat ∨ ¬b.toNat ≤ 57
      have : b.toNat ≤ 13 := hb.2
      omega
  apply (run_cons_none _ _ _).mpr
  intro k hleast hk
  have hle := hk.trans (Piece.reach_le _ _)
  have hleast' : 1 ≤ k := hleast
  simp [hdigit] at hle
  omega

end EdgeLink.Pattern
