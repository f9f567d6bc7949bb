import EdgeLink.JsonLookup

namespace EdgeLink.Lookup

open Json

theorem isSpace_byte (c : Space) : isSpace c.byte = true := by
  cases c <;> decide

theorem skipJsonWhitespace_ws (w : Ws) (s : Text) :
    skipJsonWhitespace (w.text ++ s) = skipJsonWhitespace s := by
  unfold skipJsonWhitespace
  refine List.dropWhile_append_of_pos fun b hb => ?_
  obtain ⟨c, -, rfl⟩ := List.mem_map.mp hb
  exact isSpace_byte c

theorem skipJsonWhitespace_cons {b : UInt8} (hb : isSpace b = false) (s : Text) :
    skipJsonWhitespace (b :: s) = b :: s := by
  rw [skipJsonWhitespace, List.dropWhile_cons_of_neg (by simp [hb])]

theorem between_append (a s : Text) : between (a ++ s) s = a := by
  simp [between]

/-- The bytes that the scanner treats alike inside a string. -/
def Ordinary (b : UInt8) : Prop := b ≠ 0x22 ∧ b ≠ 0x5C

theorem skipStringRest_ordinary {b : UInt8} (hb : Ordinary b) (s : Text) :
    skipStringRest (b :: s) = skipStringRest s := by
  rw [skipStringRest]
  · exact fun h _ => hb.2 h
  · exact fun _ _ h => absurd h hb.2
  · exact fun h => absurd h hb.1

theorem HexDigit.ordinary (d : HexDigit) : Ordinary d.byte := by
  obtain ⟨v, u⟩ := d
  revert v u
  unfold Ordinary
  decide

theorem skipStringRest_escape (b : UInt8) (s : Text) :
    skipStringRest (0x5C :: b :: s) = skipStringRest s := by
  rw [skipStringRest]

theorem skipStringRest_char (c : StrChar) (s : Text) :
    skipStringRest (c.text ++ s) = skipStringRest s := by
  cases c with
  | plain b => exact skipStringRest_ordinary b.2.2 s
  | escape e => exact skipStringRest_escape _ s
  | unicode a b c d =>
    simp only [StrChar.text, List.cons_append, List.nil_append]
    rw [skipStringRest_escape, skipStringRest_ordinary (HexDigit.ordinary a),
      skipStringRest_ordinary (HexDigit.ordinary b), skipStringRest_ordinary (HexDigit.ordinary c),
      skipStringRest_ordinary (HexDigit.ordinary d)]

theorem skipStringRest_body (l : Str) (s : Text) :
    skipStringRest (l.body ++ 0x22 :: s) = some s := by
  induction l with
  | nil => rw [Str.body, List.flatMap_nil, List.nil_append, skipStringRest]
  | cons c l ih =>
    rw [Str.body, List.flatMap_cons, List.append_assoc, skipStringRest_char]
    exact ih

theorem skipJsonStringToken_text (l : Str) (s : Text) :
    skipJsonStringToken (l.text ++ s) = some s := by
  simp only [Str.text, List.cons_append, List.append_assoc, List.nil_append, skipJsonStringToken]
  exact skipStringRest_body l s

theorem unescape_letter (e : Escape) : unescape e.letter = some e.value := by
  cases e <;> rfl

theorem decodeStringBody_plain {b : UInt8} (hb : b ≠ 0x5C) (s : Text) :
    decodeStringBody (b :: s) = (decodeStringBody s).map (b :: ·) := by
  rw [decodeStringBody]
  · exact fun h _ => hb h
  · exact fun _ _ h => absurd h hb

/-- The loop has a case for every escape but `\u`. -/
theorem decodeStringBody_text (l : Str) :
    decodeStringBody l.body = if l.Simple then some l.decode else none := by
  induction l with
  | nil => rfl
  | cons c l ih =>
    change List StrChar at l
    have hbody : Str.body (c :: l) = c.text ++ Str.body l := List.flatMap_cons
    rw [hbody]
    cases c with
    | plain b =>
      simp only [StrChar.text, List.cons_append, List.nil_append, decodeStringBody_plain b.2.2.2,
        Str.decode, Str.simple_cons, StrChar.isUnicode, true_and, ih]
      split_ifs <;> rfl
    | escape e =>
      simp only [StrChar.text, List.cons_append, List.nil_append, decodeStringBody,
        unescape_letter, Str.decode, Str.simple_cons, StrChar.isUnicode, true_and, ih]
      split_ifs <;> rfl
    | unicode a b c d =>
      simp only [StrChar.text, List.cons_append, decodeStringBody, Str.simple_cons,
        StrChar.isUnicode]
      rfl

theorem decodeJsonStringToken_text (l : Str) :
    decodeJsonStringToken l.text = if l.Simple then some l.decode else none := by
  rw [← decodeStringBody_text, decodeJsonStringToken, Str.text, ← List.cons_append, if_neg]
  · rw [List.cons_append, List.tail_cons, List.dropLast_concat]
  · rw [not_or]
    exact ⟨fun h => h rfl, fun h => h List.getLast?_concat⟩

inductive Bracket
  | brace | square

def Bracket.opening : Bracket → UInt8
  | brace => 0x7B
  | square => 0x5B

def Bracket.closing : Bracket → UInt8
  | brace => 0x7D
  | square => 0x5D

/-- The bytes of numbers, words, whitespace and separators. -/
def Inert (b : UInt8) : Prop := b ≠ 0x22 ∧ b ≠ 0x7B ∧ b ≠ 0x7D ∧ b ≠ 0x5B ∧ b ≠ 0x5D

section Inert

variable (k : Bracket) (depth : ℤ)

theorem Inert.skip {b : UInt8} (hb : Inert b) (s : Text) :
    skipBrackets k.opening k.closing depth (b :: s) =
      skipBrackets k.opening k.closing depth s := by
  obtain ⟨h₁, h₂, h₃, h₄, h₅⟩ := hb
  rw [skipBrackets, if_neg h₁]
  cases k with
  | brace =>
    rw [if_neg (show b ≠ Bracket.brace.opening from h₂),
      if_neg (show b ≠ Bracket.brace.closing from h₃)]
  | square =>
    rw [if_neg (show b ≠ Bracket.square.opening from h₄),
      if_neg (show b ≠ Bracket.square.closing from h₅)]

theorem skipBrackets_inert {t : Text} (ht : ∀ b ∈ t, Inert b) (s : Text) :
    skipBrackets k.opening k.closing depth (t ++ s) =
      skipBrackets k.opening k.closing depth s := by
  induction t with
  | nil => rfl
  | cons b t ih =>
    rw [List.forall_mem_cons] at ht
    rw [List.cons_append, ht.1.skip, ih ht.2]

end Inert

theorem Ws.inert (w : Ws) : ∀ b ∈ w.text, Inert b := by
  intro b hb
  obtain ⟨c, -, rfl⟩ := List.mem_map.mp hb
  unfold Inert
  cases c <;> decide

/-- The bytes of numbers and words. -/
def Scalar (b : UInt8) : Prop := endsScalar b = false ∧ b ≠ 0x22 ∧ b ≠ 0x7B ∧ b ≠ 0x5B

instance : DecidablePred Scalar := fun _ => inferInstanceAs (Decidable (_ ∧ _))

theorem Scalar.inert {b : UInt8} (hb : Scalar b) : Inert b := by
  obtain ⟨hend, h₁, h₂, h₃⟩ := hb
  refine ⟨h₁, h₂, ?_, h₃, ?_⟩
  all_goals
    rintro rfl
    exact absurd hend (by decide)

theorem Word.scalar (w : Word) : ∀ b ∈ w.text, Scalar b := by
  cases w <;> decide +kernel

theorem digitByte_scalar (d : Fin 10) : Scalar (digitByte d) := by
  revert d
  decide

theorem digitsText_scalar (ds : List (Fin 10)) : ∀ b ∈ digitsText ds, Scalar b := by
  intro b hb
  obtain ⟨d, -, rfl⟩ := List.mem_map.mp hb
  exact digitByte_scalar d

theorem ExpPart.scalar (e : ExpPart) : ∀ b ∈ e.text, Scalar b := by
  intro b hb
  simp only [ExpPart.text, List.mem_cons, List.mem_append, Option.mem_toList] at hb
  rcases hb with rfl | hs | hd
  · split_ifs <;> decide
  · rw [Option.map_eq_some_iff] at hs
    obtain ⟨c, -, rfl⟩ := hs
    cases c <;> decide
  · exact digitsText_scalar _ _ hd

theorem Number.scalar (n : Number) : ∀ b ∈ n.text, Scalar b := by
  intro b hb
  simp only [Number.text, List.mem_append] at hb
  rcases hb with hm | hi | hf | he
  · have : b = 0x2D := by
      split_ifs at hm
      · exact List.mem_singleton.mp hm
      · exact absurd hm List.not_mem_nil
    subst this
    decide
  · exact digitsText_scalar _ _ hi
  · unfold Number.fracText at hf
    split at hf
    · exact absurd hf List.not_mem_nil
    · rcases List.mem_cons.mp hf with rfl | hd
      · decide
      · exact digitsText_scalar _ _ hd
  · unfold Number.expText at he
    split at he
    · exact absurd he List.not_mem_nil
    · exact ExpPart.scalar _ b he

theorem skipBrackets_string (k : Bracket) (depth : ℤ) (l : Str) (s : Text) :
    skipBrackets k.opening k.closing depth (l.text ++ s) =
      skipBrackets k.opening k.closing depth s := by
  simp only [Str.text, List.cons_append, List.append_assoc, List.nil_append]
  rw [skipBrackets_quote, skipStringRest_body, Option.bind_some]

theorem comma_inert : Inert 0x2C := by unfold Inert; decide

theorem colon_inert : Inert 0x3A := by unfold Inert; decide

theorem skipBrackets_label (k : Bracket) (depth : ℤ) (l : Label) (s : Text) :
    skipBrackets k.opening k.closing depth (l.text ++ s) =
      skipBrackets k.opening k.closing depth s := by
  simp only [Label.text, List.append_assoc, List.cons_append]
  rw [skipBrackets_inert k depth (Ws.inert _), skipBrackets_string,
    skipBrackets_inert k depth (Ws.inert _), colon_inert.skip,
    skipBrackets_inert k depth (Ws.inert _)]

/-- Brackets of the own kind count up and down again, brackets of the other kind do not count. -/
theorem skipBrackets_nested (k k' : Bracket) {depth : ℤ} (hd : 1 ≤ depth) {t : Text}
    (ht : ∀ depth' : ℤ, 1 ≤ depth' → ∀ s, skipBrackets k.opening k.closing depth' (t ++ s) =
      skipBrackets k.opening k.closing depth' s) (s : Text) :
    skipBrackets k.opening k.closing depth (k'.opening :: (t ++ [k'.closing]) ++ s) =
      skipBrackets k.opening k.closing depth s := by
  have hne : depth + 1 - 1 ≠ 0 := by omega
  have hback : depth + 1 - 1 = depth := by omega
  have hq : ∀ j : Bracket, j.opening ≠ 0x22 ∧ j.closing ≠ 0x22 ∧ j.closing ≠ j.opening := by
    intro j
    cases j <;> decide
  simp only [List.cons_append, List.append_assoc, List.nil_append]
  rw [skipBrackets, if_neg (hq k').1]
  by_cases hk : k' = k
  · subst hk
    rw [if_pos rfl, ht _ (by omega), skipBrackets, if_neg (hq k').2.1, if_neg (hq k').2.2,
      if_pos rfl, if_neg hne, hback]
  · have hopen : k'.opening ≠ k.opening ∧ k'.opening ≠ k.closing := by
      cases k <;> cases k' <;> first | exact absurd rfl hk | decide
    have hclose : k'.closing ≠ k.opening ∧ k'.closing ≠ k.closing := by
      cases k <;> cases k' <;> first | exact absurd rfl hk | decide
    rw [if_neg hopen.1, if_neg hopen.2, ht _ hd, skipBrackets, if_neg (hq k').2.1,
      if_neg hclose.1, if_neg hclose.2]

mutual

theorem skipBrackets_value (k : Bracket) (v : Value) {depth : ℤ} (hd : 1 ≤ depth) (s : Text) :
    skipBrackets k.opening k.closing depth (v.text ++ s) =
      skipBrackets k.opening k.closing depth s := by
  cases v with
  | word w => exact skipBrackets_inert k depth (fun _ hb => (Word.scalar w _ hb).inert) s
  | number n => exact skipBrackets_inert k depth (fun _ hb => (Number.scalar n _ hb).inert) s
  | string l => exact skipBrackets_string k depth l s
  | emptyArray w =>
    exact skipBrackets_nested k .square hd (fun _ _ s => skipBrackets_inert k _ (Ws.inert w) s) s
  | array es => exact skipBrackets_nested k .square hd (fun _ h s => skipBrackets_elements k es h s) s
  | emptyObject w =>
    exact skipBrackets_nested k .brace hd (fun _ _ s => skipBrackets_inert k _ (Ws.inert w) s) s
  | object ms => exact skipBrackets_nested k .brace hd (fun _ h s => skipBrackets_members k ms h s) s

theorem skipBrackets_elements (k : Bracket) (es : Elements) {depth : ℤ} (hd : 1 ≤ depth)
    (s : Text) :
    skipBrackets k.opening k.closing depth (es.text ++ s) =
      skipBrackets k.opening k.closing depth s := by
  cases es with
  | one before v after =>
    simp only [Elements.text, List.append_assoc]
    rw [skipBrackets_inert k depth (Ws.inert _), skipBrackets_value k v hd,
      skipBrackets_inert k depth (Ws.inert _)]
  | more before v after es =>
    simp only [Elements.text, List.append_assoc, List.cons_append]
    rw [skipBrackets_inert k depth (Ws.inert _), skipBrackets_value k v hd,
      skipBrackets_inert k depth (Ws.inert _), comma_inert.skip, skipBrackets_elements k es hd]

theorem skipBrackets_members (k : Bracket) (ms : Members) {depth : ℤ} (hd : 1 ≤ depth)
    (s : Text) :
    skipBrackets k.opening k.closing depth (ms.text ++ s) =
      skipBrackets k.opening k.closing depth s := by
  cases ms with
  | one l v after =>
    simp only [Members.text, List.append_assoc]
    rw [skipBrackets_label, skipBrackets_value k v hd, skipBrackets_inert k depth (Ws.inert _)]
  | more l v after ms =>
    simp only [Members.text, List.append_assoc, List.cons_append]
    rw [skipBrackets_label, skipBrackets_value k v hd, skipBrackets_inert k depth (Ws.inert _),
      comma_inert.skip, skipBrackets_members k ms hd]

end

/-- What follows a value begins with a separator, a closing bracket or whitespace. -/
def Delimited (s : Text) : Prop := ∀ b ∈ s.head?, endsScalar b = true

theorem delimited_ws (w : Ws) {s : Text} (hs : Delimited s) : Delimited (w.text ++ s) := by
  cases w with
  | nil => exact hs
  | cons c w =>
    intro b hb
    have hb : c.byte = b := Option.some.inj hb
    rw [← hb, endsScalar, isSpace_byte, Bool.or_true]

theorem isSpace_scalar {b : UInt8} (hb : Scalar b) : isSpace b = false := by
  have h := hb.1
  simp only [endsScalar, Bool.or_eq_false_iff] at h
  exact h.2

theorem skipJsonValue_scalar {b : UInt8} {t s : Text} (ht : ∀ c ∈ b :: t, Scalar c)
    (hs : Delimited s) : skipJsonValue (b :: t ++ s) = some s := by
  have hb := ht b List.mem_cons_self
  have hstop : s.dropWhile (fun c => !endsScalar c) = s := by
    cases s with
    | nil => rfl
    | cons c s => exact List.dropWhile_cons_of_neg (by simp [hs c rfl])
  rw [skipJsonValue, List.cons_append, skipJsonWhitespace_cons (isSpace_scalar hb)]
  dsimp only
  rw [if_neg hb.2.1, if_neg hb.2.2.1, if_neg hb.2.2.2, ← List.cons_append,
    List.dropWhile_append_of_pos (fun c hc => by simp [(ht c hc).1]), hstop]

theorem skipJsonValue_bracket (k : Bracket) {t : Text}
    (ht : ∀ depth : ℤ, 1 ≤ depth → ∀ s, skipBrackets k.opening k.closing depth (t ++ s) =
      skipBrackets k.opening k.closing depth s) (s : Text) :
    skipJsonValue (k.opening :: (t ++ [k.closing]) ++ s) = some s := by
  have hq : k.opening ≠ 0x22 ∧ k.closing ≠ 0x22 ∧ k.closing ≠ k.opening := by
    cases k <;> decide
  have hskip : skipBrackets k.opening k.closing 0 (k.opening :: (t ++ [k.closing]) ++ s) =
      some s := by
    simp only [List.cons_append, List.append_assoc, List.nil_append]
    rw [skipBrackets, if_neg hq.1, if_pos rfl, ht _ (by omega), skipBrackets, if_neg hq.2.1,
      if_neg hq.2.2, if_pos rfl, if_pos (by omega)]
  rw [skipJsonValue, List.cons_append, skipJsonWhitespace_cons (by cases k <;> decide)]
  dsimp only
  rw [if_neg hq.1, ← List.cons_append]
  cases k with
  | brace => exact (if_pos rfl).trans hskip
  | square => exact (if_neg (by decide)).trans ((if_pos rfl).trans hskip)

theorem Number.text_cons (n : Number) :
    ∃ b t, n.text = b :: t ∧ (b = 0x2D ∨ ∃ d, b = digitByte d) := by
  obtain ⟨d, ds, hd⟩ : ∃ d ds, n.int.digitList = d :: ds := by
    cases n.int <;> exact ⟨_, _, rfl⟩
  cases hm : n.minus with
  | true =>
    exact ⟨0x2D, digitsText n.int.digitList ++ (n.fracText ++ n.expText),
      by rw [Number.text, hm]; rfl, Or.inl rfl⟩
  | false =>
    exact ⟨digitByte d, digitsText ds ++ (n.fracText ++ n.expText),
      by rw [Number.text, hm, hd]; rfl, Or.inr ⟨d, rfl⟩⟩

theorem skipJsonValue_text (v : Value) {s : Text} (hs : Delimited s) :
    skipJsonValue (v.text ++ s) = some s := by
  cases v with
  | word w =>
    have ht := Word.scalar w
    cases w <;> exact skipJsonValue_scalar ht hs
  | number n =>
    obtain ⟨b, t, ht, -⟩ := Number.text_cons n
    have hn := Number.scalar n
    rw [Value.text]
    rw [ht] at hn ⊢
    exact skipJsonValue_scalar hn hs
  | string l =>
    have htoken := skipJsonStringToken_text l s
    rw [Value.text, skipJsonValue]
    simp only [Str.text, List.cons_append] at htoken ⊢
    rw [skipJsonWhitespace_cons (by decide)]
    exact (if_pos rfl).trans htoken
  | emptyArray w =>
    exact skipJsonValue_bracket .square (fun _ _ s => skipBrackets_inert .square _ (Ws.inert w) s) s
  | array es =>
    exact skipJsonValue_bracket .square (fun _ h s => skipBrackets_elements .square es h s) s
  | emptyObject w =>
    exact skipJsonValue_bracket .brace (fun _ _ s => skipBrackets_inert .brace _ (Ws.inert w) s) s
  | object ms =>
    exact skipJsonValue_bracket .brace (fun _ h s => skipBrackets_members .brace ms h s) s

theorem Value.text_cons (v : Value) : ∃ b t, v.text = b :: t ∧ isSpace b = false := by
  cases v with
  | word w => cases w <;> exact ⟨_, _, rfl, rfl⟩
  | number n =>
    obtain ⟨b, t, ht, -⟩ := Number.text_cons n
    have hb := Number.scalar n b (by rw [ht]; exact List.mem_cons_self)
    exact ⟨b, t, ht, isSpace_scalar hb⟩
  | _ => exact ⟨_, _, rfl, rfl⟩

theorem memberAt_text (l : Label) (v : Value) {s : Text} (hs : Delimited s) :
    memberAt (l.text ++ (v.text ++ s)) =
      if l.name.Simple then some ⟨l.name.decode, v.text ++ s, s⟩ else none := by
  have hkey (t : Text) : skipJsonWhitespace (l.name.text ++ t) = l.name.text ++ t := by
    rw [Str.text, List.cons_append, skipJsonWhitespace_cons (by decide)]
  have hvalue : skipJsonWhitespace (v.text ++ s) = v.text ++ s := by
    obtain ⟨b, t, ht, hb⟩ := Value.text_cons v
    rw [ht, List.cons_append, skipJsonWhitespace_cons hb]
  simp only [memberAt, Label.text, List.append_assoc, List.cons_append, skipJsonWhitespace_ws, hkey,
    skipJsonStringToken_text, between_append, decodeJsonStringToken_text]
  by_cases hsimple : l.name.Simple
  · simp only [if_pos hsimple, skipJsonWhitespace_cons (by decide : isSpace 0x3A = false),
      skipJsonWhitespace_ws, hvalue, skipJsonValue_text v hs, Option.map_some]
  · simp only [if_neg hsimple]

section findMember

variable {key s : Text} {m : Member}

theorem findMember_none (h : memberAt s = none) : findMember key s = none := by
  rw [findMember]
  split
  · rfl
  · next h' => rw [h] at h'; cases h'

theorem findMember_found (h : memberAt s = some m) (hkey : m.key = key) :
    findMember key s = some (m.valueBegin, m.valueEnd) := by
  rw [findMember]
  split
  · next h' => rw [h] at h'; cases h'
  · next m' h' =>
    rw [h, Option.some.injEq] at h'
    subst h'
    rw [if_pos hkey]

theorem findMember_next (h : memberAt s = some m) (hkey : m.key ≠ key) {t : Text}
    (ht : skipJsonWhitespace m.valueEnd = 0x2C :: t) : findMember key s = findMember key t := by
  rw [findMember]
  split
  · next h' => rw [h] at h'; cases h'
  · next m' h' =>
    rw [h, Option.some.injEq] at h'
    subst h'
    rw [if_neg hkey]
    split
    · next t' ht' =>
      rw [ht, List.cons.injEq] at ht'
      rw [ht'.2]
    · next ht' => rw [ht] at ht'; cases ht'
    · next h₁ h₂ => exact absurd ht (h₁ t)

theorem findMember_last (h : memberAt s = some m) (hkey : m.key ≠ key) {t : Text}
    (ht : skipJsonWhitespace m.valueEnd = 0x7D :: t) : findMember key s = none := by
  rw [findMember]
  split
  · rfl
  · next m' h' =>
    rw [h, Option.some.injEq] at h'
    subst h'
    rw [if_neg hkey]
    split
    · next ht' => rw [ht] at ht'; cases ht'
    · rfl
    · next h₁ h₂ => exact absurd ht (h₂ t)

end findMember

/-- The code can decode every name up to the first member that has the name. -/
def Readable (names : List Str) : Prop := ∀ name ∈ names, name.Simple

instance (names : List Str) : Decidable (Readable names) := inferInstanceAs (Decidable (∀ _ ∈ _, _))

theorem readable_cons (name : Str) (names : List Str) :
    Readable (name :: names) ↔ name.Simple ∧ Readable names := List.forall_mem_cons

theorem readable_singleton (name : Str) : Readable [name] ↔ name.Simple :=
  List.forall_mem_singleton

theorem delimited_cons {b : UInt8} (hb : endsScalar b = true) (s : Text) : Delimited (b :: s) :=
  fun _ h => Option.some.inj h ▸ hb

/-- The loop goes from member to member and stops with nothing at a name it cannot decode. -/
theorem findMember_text (key : Text) (ms : Members) (s : Text) :
    ∃ rest, findMember key (ms.text ++ 0x7D :: s) =
      if Readable (ms.namesTo key) then (ms.first? key).map fun v => (v.text ++ rest, rest)
      else none := by
  match ms with
  | .one l v after =>
    have hend := delimited_ws after (delimited_cons (by decide : endsScalar 0x7D = true) s)
    have hat := memberAt_text l v hend
    have hws : skipJsonWhitespace (after.text ++ 0x7D :: s) = 0x7D :: s := by
      rw [skipJsonWhitespace_ws, skipJsonWhitespace_cons (by decide)]
    refine ⟨after.text ++ 0x7D :: s, ?_⟩
    simp only [Members.text, List.append_assoc, Members.namesTo, Members.first?,
      readable_singleton]
    by_cases hsimple : l.name.Simple
    · rw [if_pos hsimple] at hat ⊢
      by_cases hkey : l.name.decode = key
      · rw [findMember_found hat hkey, if_pos hkey, Option.map_some]
      · rw [findMember_last hat hkey hws, if_neg hkey, Option.map_none]
    · rw [if_neg hsimple] at hat ⊢
      exact findMember_none hat
  | .more l v after ms =>
    obtain ⟨rest, ih⟩ := findMember_text key ms s
    have hend := delimited_ws after
      (delimited_cons (by decide : endsScalar 0x2C = true) (ms.text ++ 0x7D :: s))
    have hat := memberAt_text l v hend
    have hws : skipJsonWhitespace (after.text ++ 0x2C :: (ms.text ++ 0x7D :: s)) =
        0x2C :: (ms.text ++ 0x7D :: s) := by
      rw [skipJsonWhitespace_ws, skipJsonWhitespace_cons (by decide)]
    simp only [Members.text, List.append_assoc, List.cons_append, Members.namesTo, Members.first?]
    by_cases hkey : l.name.decode = key
    · refine ⟨after.text ++ 0x2C :: (ms.text ++ 0x7D :: s), ?_⟩
      simp only [if_pos hkey, readable_singleton, Option.map_some]
      by_cases hsimple : l.name.Simple
      · rw [if_pos hsimple] at hat ⊢
        exact findMember_found hat hkey
      · rw [if_neg hsimple] at hat ⊢
        exact findMember_none hat
    · refine ⟨rest, ?_⟩
      simp only [if_neg hkey, readable_cons]
      by_cases hsimple : l.name.Simple
      · rw [if_pos hsimple] at hat
        rw [findMember_next hat hkey hws, ih]
        simp only [hsimple, true_and]
      · rw [if_neg hsimple] at hat
        rw [findMember_none hat, if_neg fun h => hsimple h.1]

/-- What stands behind the members does not matter to a name that is among them. -/
theorem findMember_front (key : Text) (ms : Members) {v : Value} (hr : Readable (ms.namesTo key))
    (hv : ms.first? key = some v) (s : Text) :
    ∃ rest, findMember key (ms.text ++ 0x2C :: s) = some (v.text ++ rest, rest) := by
  match ms with
  | .one l w after =>
    have hend := delimited_ws after (delimited_cons (by decide : endsScalar 0x2C = true) s)
    have hat := memberAt_text l w hend
    simp only [Members.namesTo, readable_singleton] at hr
    simp only [Members.first?] at hv
    split_ifs at hv with hkey
    obtain rfl := Option.some.inj hv
    refine ⟨after.text ++ 0x2C :: s, ?_⟩
    rw [if_pos hr] at hat
    simp only [Members.text, List.append_assoc]
    exact findMember_found hat hkey
  | .more l w after ms =>
    have hend := delimited_ws after
      (delimited_cons (by decide : endsScalar 0x2C = true) (ms.text ++ 0x2C :: s))
    have hat := memberAt_text l w hend
    have hws : skipJsonWhitespace (after.text ++ 0x2C :: (ms.text ++ 0x2C :: s)) =
        0x2C :: (ms.text ++ 0x2C :: s) := by
      rw [skipJsonWhitespace_ws, skipJsonWhitespace_cons (by decide)]
    simp only [Members.text, List.append_assoc, List.cons_append]
    simp only [Members.namesTo] at hr
    simp only [Members.first?] at hv
    by_cases hkey : l.name.decode = key
    · rw [if_pos hkey] at hr hv
      obtain rfl := Option.some.inj hv
      rw [if_pos ((readable_singleton _).mp hr)] at hat
      exact ⟨_, findMember_found hat hkey⟩
    · rw [if_neg hkey] at hr hv
      obtain ⟨hsimple, hrest⟩ := (readable_cons _ _).mp hr
      rw [if_pos hsimple] at hat
      obtain ⟨rest, ih⟩ := findMember_front key ms hrest hv s
      exact ⟨rest, (findMember_next hat hkey hws).trans ih⟩

theorem findJsonValueSpan_front (key : Text) (ms : Members) {v : Value}
    (hr : Readable (ms.namesTo key)) (hv : ms.first? key = some v) (s : Text) :
    ∃ rest, findJsonValueSpan (0x7B :: (ms.text ++ 0x2C :: s)) key = some (v.text ++ rest, rest) := by
  obtain ⟨rest, h⟩ := findMember_front key ms hr hv s
  refine ⟨rest, ?_⟩
  rw [findJsonValueSpan, skipJsonWhitespace_cons (by decide)]
  exact h

theorem findJsonValueSpan_text (key : Text) (o : ObjectText) :
    ∃ rest, findJsonValueSpan o.text key =
      if Readable (o.namesTo key) then (o.first? key).map fun v => (v.text ++ rest, rest)
      else none := by
  have hbrace : isSpace 0x7B = false := by decide
  cases o with
  | empty lead inner trail =>
    have hat : memberAt (inner.text ++ 0x7D :: trail.text) = none := by
      simp only [memberAt, skipJsonWhitespace_ws,
        skipJsonWhitespace_cons (by decide : isSpace 0x7D = false)]
      rfl
    refine ⟨[], ?_⟩
    simp only [ObjectText.text, findJsonValueSpan, skipJsonWhitespace_ws,
      skipJsonWhitespace_cons hbrace, findMember_none hat, ObjectText.first?, Option.map_none,
      ite_self]
  | members lead ms trail =>
    obtain ⟨rest, h⟩ := findMember_text key ms trail.text
    refine ⟨rest, ?_⟩
    simp only [ObjectText.text, findJsonValueSpan, skipJsonWhitespace_ws,
      skipJsonWhitespace_cons hbrace]
    exact h

theorem digitByte_isDigit (d : Fin 10) : isDigit (digitByte d) = true := by
  revert d
  decide

theorem digitByte_value (d : Fin 10) : ((digitByte d).toNat : ℤ) - 0x30 = d.val := by
  revert d
  decide

theorem digitsText_value (ds : List (Fin 10)) (n : ℕ) :
    (digitsText ds).foldl (fun (n : ℤ) b => n * 10 + (b.toNat - 0x30)) n =
      (ds.foldl (fun n d => n * 10 + d.val) n : ℕ) := by
  induction ds generalizing n with
  | nil => rfl
  | cons d ds ih =>
    rw [digitsText, List.map_cons, List.foldl_cons, List.foldl_cons, digitByte_value, ← ih]
    push_cast
    rfl

theorem digitsText_foldl (ds : List (Fin 10)) (k : ℕ) :
    (digitsText ds).foldl (fun n b => n * 10 + (b.toNat - 0x30)) k =
      ds.foldl (fun n d => n * 10 + d.val) k := by
  induction ds generalizing k with
  | nil => rfl
  | cons d ds ih =>
    have hd : (digitByte d).toNat - 0x30 = d.val := by
      revert d
      decide
    rw [digitsText, List.map_cons, List.foldl_cons, List.foldl_cons, hd]
    exact ih _

def Number.tail (n : Number) : Text := n.fracText ++ n.expText

theorem Number.tail_nil (n : Number) : Number.tail n = [] ↔ n.frac = none ∧ n.exp = none := by
  unfold Number.tail Number.fracText Number.expText
  cases n.frac <;> cases n.exp <;> simp [ExpPart.text]

theorem Number.tail_digit (n : Number) (b : UInt8) (hb : b ∈ (Number.tail n).head?) :
    isDigit b = false := by
  unfold Number.tail Number.fracText Number.expText at hb
  cases hf : n.frac with
  | some f =>
    rw [hf] at hb
    rw [← Option.some.inj hb]
    decide
  | none =>
    cases he : n.exp with
    | some e =>
      rw [hf, he] at hb
      rw [← Option.some.inj hb]
      cases e.upper <;> decide
    | none =>
      rw [hf, he] at hb
      exact absurd hb (by simp)

theorem takeWhile_digits (ds : List (Fin 10)) {t : Text} (ht : ∀ b ∈ t.head?, isDigit b = false) :
    (digitsText ds ++ t).takeWhile isDigit = digitsText ds := by
  have hds : ∀ b ∈ digitsText ds, isDigit b = true := by
    intro b hb
    obtain ⟨d, -, rfl⟩ := List.mem_map.mp hb
    exact digitByte_isDigit d
  rw [List.takeWhile_append_of_pos hds]
  cases t with
  | nil => rw [List.takeWhile_nil, List.append_nil]
  | cons b t => rw [List.takeWhile_cons_of_neg (by simp [ht b rfl]), List.append_nil]

theorem IntPart.digits_ne (i : IntPart) : digitsText i.digitList ≠ [] := by
  cases i <;> simp [IntPart.digitList, digitsText]

/-- `stoll` reads the sign and the digits of a number and stops at its fraction or exponent. -/
theorem stoll_number (n : Number) :
    stoll n.text =
      let value : ℤ := if n.minus then -(digitsValue n.int.digitList : ℤ)
        else digitsValue n.int.digitList
      if -2 ^ 63 ≤ value ∧ value < 2 ^ 63 then
        some (value, n.text.length - (Number.tail n).length)
      else none := by
  have hdigits := takeWhile_digits n.int.digitList (Number.tail_digit n)
  have hvalue : (digitsText n.int.digitList).foldl (fun (n : ℤ) b => n * 10 + (b.toNat - 0x30)) 0 =
      digitsValue n.int.digitList := digitsText_value n.int.digitList 0
  have hlen : (digitsText n.int.digitList ++ Number.tail n).length -
      (digitsText n.int.digitList).length = (Number.tail n).length := by
    rw [List.length_append, Nat.add_sub_cancel_left]
  have hne : ¬digitsText n.int.digitList = [] := IntPart.digits_ne _
  cases hm : n.minus with
  | true =>
    have htext : n.text = 0x2D :: (digitsText n.int.digitList ++ Number.tail n) := by
      simp [Number.text, Number.tail, hm]
    have hsign : (some (0x2D : UInt8)).filter (fun b => b == 0x2D || b == 0x2B) = some 0x2D := rfl
    rw [htext, stoll, skipJsonWhitespace_cons (by decide)]
    simp only [List.head?_cons, hsign, Option.isSome_some, List.tail_cons, if_true, hdigits, hvalue,
      hlen, if_neg hne]
  | false =>
    have htext : n.text = digitsText n.int.digitList ++ Number.tail n := by
      simp [Number.text, Number.tail, hm]
    obtain ⟨d, ds, hd⟩ : ∃ d ds, n.int.digitList = d :: ds := by
      cases n.int <;> exact ⟨_, _, rfl⟩
    have hcons : digitsText n.int.digitList ++ Number.tail n =
        digitByte d :: (digitsText ds ++ Number.tail n) := by
      rw [hd, digitsText, List.map_cons, List.cons_append, digitsText]
    have hws : skipJsonWhitespace (digitsText n.int.digitList ++ Number.tail n) =
        digitsText n.int.digitList ++ Number.tail n := by
      rw [hcons, skipJsonWhitespace_cons (isSpace_scalar (digitByte_scalar d))]
    have hsign : (digitsText n.int.digitList ++ Number.tail n).head?.filter
        (fun b => b == 0x2D || b == 0x2B) = none := by
      have hnone : ∀ d : Fin 10, (some (digitByte d)).filter
          (fun b => b == 0x2D || b == 0x2B) = none := by decide
      rw [hcons, List.head?_cons, hnone]
    rw [htext, stoll, hws]
    simp only [hsign, Option.isSome_none, Bool.false_eq_true, if_false, hdigits, hvalue, hlen,
      if_neg hne]
    rfl

/-- No other value begins with a sign or a digit. -/
theorem stoll_word {b : UInt8} {t : Text} (hs : isSpace b = false)
    (hb : b ≠ 0x2D ∧ b ≠ 0x2B ∧ isDigit b = false) : stoll (b :: t) = none := by
  obtain ⟨hminus, hplus, hd⟩ := hb
  have hsign : (some b).filter (fun b => b == 0x2D || b == 0x2B) = none := by
    simp [hminus, hplus]
  rw [stoll, skipJsonWhitespace_cons hs]
  simp only [List.head?_cons, hsign, Option.isSome_none, Bool.false_eq_true, if_false,
    List.takeWhile_cons_of_neg (show ¬isDigit b = true by simp [hd]), if_true]

/-- `jsonGetInt` on the text of the value. -/
def intOf (text : Text) : Option ℤ :=
  match stoll text with
  | none => none
  | some (value, pos) => if pos = text.length then some value else none

theorem intOf_text (v : Value) : intOf v.text = v.int64? := by
  cases v with
  | number n =>
    have hpos : n.text.length - (Number.tail n).length = n.text.length ↔
        n.frac = none ∧ n.exp = none := by
      have htext : n.text = (if n.minus then [0x2D] else []) ++
          (digitsText n.int.digitList ++ Number.tail n) := rfl
      have hdigits := List.length_pos_iff.mpr (IntPart.digits_ne n.int)
      rw [← Number.tail_nil, ← List.length_eq_zero_iff, htext]
      simp only [List.length_append]
      omega
    rw [Value.text, intOf, stoll_number, Value.int64?, Number.int?]
    dsimp only
    generalize (if n.minus then -(digitsValue n.int.digitList : ℤ)
      else digitsValue n.int.digitList) = value
    by_cases hint : n.frac = none ∧ n.exp = none
    · rw [if_pos hint, Option.filter_some]
      by_cases hrange : -2 ^ 63 ≤ value ∧ value < 2 ^ 63
      · rw [if_pos hrange, if_pos (decide_eq_true hrange)]
        exact if_pos (hpos.mpr hint)
      · rw [if_neg hrange, if_neg (by simpa using hrange)]
    · rw [if_neg hint, Option.filter_none]
      split
      · rfl
      · next h =>
        split_ifs at h
        rw [Option.some.injEq, Prod.mk.injEq] at h
        rw [← h.2, if_neg fun hp => hint (hpos.mp hp)]
  | word w =>
    have h : stoll w.text = none := by
      cases w <;> exact stoll_word (by decide) (by decide)
    rw [Value.text, intOf, h]
    rfl
  | _ =>
    rw [Value.text, intOf]
    first
      | rw [Str.text, stoll_word (by decide) (by decide)]; rfl
      | rw [stoll_word (by decide) (by decide)]; rfl

/-- `jsonGetBool` takes the numbers written `1` and `0` as well. -/
def boolValue : Value → Option Bool
  | .word .true => some true
  | .word .false => some false
  | .number n =>
    if n.text = ascii "1" then some true
    else if n.text = ascii "0" then some false
    else none
  | _ => none

/-- Every lookup gives what the first member with the name says in the kind asked for. -/
structure Agrees (o : ObjectText) (key : Text) : Prop where
  string : jsonGetString o.text key = (o.first? key).bind Value.string?
  int : jsonGetInt o.text key = (o.first? key).bind Value.int64?
  bool : jsonGetBool o.text key = (o.first? key).bind boolValue
  object : jsonGetObject o.text key = (o.first? key).bind Value.object?

section Lookup

variable (o : ObjectText) (key : Text)

/-- A lookup reads the text of the first member's value, when it can read the names before it. -/
theorem lookup_text {α : Type} (read : Text → Option α) {f : Value → Option α}
    (hread : ∀ v : Value, read v.text = f v) :
    (match findJsonValueSpan o.text key with
      | none => none
      | some (valueBegin, valueEnd) => read (between valueBegin valueEnd)) =
      if Readable (o.namesTo key) then (o.first? key).bind f else none := by
  obtain ⟨rest, h⟩ := findJsonValueSpan_text key o
  rw [h]
  by_cases hr : Readable (o.namesTo key)
  · rw [if_pos hr, if_pos hr]
    cases o.first? key with
    | none => rfl
    | some v => exact (congrArg read (between_append v.text rest)).trans (hread v)
  · rw [if_neg hr, if_neg hr]

theorem jsonGetInt_text : jsonGetInt o.text key =
    if Readable (o.namesTo key) then (o.first? key).bind Value.int64? else none :=
  lookup_text o key intOf intOf_text

/-- The string of a value that spells it without `\u`. -/
def simpleString : Value → Option Text
  | .string l => if l.Simple then some l.decode else none
  | _ => none

def stringOf (text : Text) : Option Text :=
  if text.head? = some 0x22 then decodeJsonStringToken text else none

theorem stringOf_text (v : Value) : stringOf v.text = simpleString v := by
  cases v with
  | word w => cases w <;> rfl
  | number n =>
    obtain ⟨b, t, ht, -⟩ := Number.text_cons n
    have hb := Number.scalar n b (by rw [ht]; exact List.mem_cons_self)
    rw [Value.text, ht]
    exact if_neg fun h => hb.2.1 (Option.some.inj h)
  | string l => exact (if_pos rfl).trans (decodeJsonStringToken_text l)
  | _ => exact if_neg (by simp [Value.text])

theorem jsonGetString_text : jsonGetString o.text key =
    if Readable (o.namesTo key) then (o.first? key).bind simpleString else none :=
  lookup_text o key stringOf stringOf_text

def objectOf (text : Text) : Option Text := if text.head? = some 0x7B then some text else none

theorem objectOf_text (v : Value) : objectOf v.text = v.object? := by
  cases v with
  | word w => cases w <;> rfl
  | number n =>
    obtain ⟨b, t, ht, -⟩ := Number.text_cons n
    have hb := Number.scalar n b (by rw [ht]; exact List.mem_cons_self)
    rw [Value.text, ht]
    exact if_neg fun h => hb.2.2.1 (Option.some.inj h)
  | emptyObject w => exact if_pos rfl
  | object ms => exact if_pos rfl
  | _ => exact if_neg (by simp [Value.text, Str.text])

theorem jsonGetObject_text : jsonGetObject o.text key =
    if Readable (o.namesTo key) then (o.first? key).bind Value.object? else none :=
  lookup_text o key objectOf objectOf_text

section Span

variable {o key} {line rest : Text} {v : Value}
  (h : findJsonValueSpan line key = some (v.text ++ rest, rest))

include h

theorem jsonGetInt_span : jsonGetInt line key = v.int64? := by
  unfold jsonGetInt
  rw [h, ← intOf_text v]
  exact congrArg intOf (between_append v.text rest)

theorem jsonGetString_span : jsonGetString line key = simpleString v := by
  unfold jsonGetString
  rw [h, ← stringOf_text v]
  exact congrArg stringOf (between_append v.text rest)

theorem jsonGetObject_span : jsonGetObject line key = v.object? := by
  unfold jsonGetObject
  rw [h, ← objectOf_text v]
  exact congrArg objectOf (between_append v.text rest)

end Span

theorem jsonGetBool_text : jsonGetBool o.text key =
    if Readable (o.namesTo key) then (o.first? key).bind boolValue else none := by
  refine lookup_text o key (fun value =>
    if value = ascii "true" ∨ value = ascii "1" then some true
    else if value = ascii "false" ∨ value = ascii "0" then some false
    else none) fun v => ?_
  have htrue : ascii "true" = [0x74, 0x72, 0x75, 0x65] := by decide
  have hfalse : ascii "false" = [0x66, 0x61, 0x6C, 0x73, 0x65] := by decide
  have hone : ascii "1" = [0x31] := by decide
  have hzero : ascii "0" = [0x30] := by decide
  cases v with
  | word w => cases w <;> decide
  | number n =>
    obtain ⟨b, t, ht, hb⟩ := Number.text_cons n
    have hhead : b ≠ 0x74 ∧ b ≠ 0x66 := by
      rcases hb with rfl | ⟨d, rfl⟩
      · decide
      · have hdigit : ∀ d, digitByte d ≠ 0x74 ∧ digitByte d ≠ 0x66 := by decide
        exact hdigit d
    have hword : n.text ≠ ascii "true" ∧ n.text ≠ ascii "false" := by
      rw [ht, htrue, hfalse]
      exact ⟨fun h => hhead.1 (List.cons.inj h).1, fun h => hhead.2 (List.cons.inj h).1⟩
    simp only [Value.text, hword, false_or, boolValue]
  | _ =>
    rw [htrue, hfalse, hone, hzero]
    exact (if_neg (by simp [Value.text, Str.text])).trans
      (if_neg (by simp [Value.text, Str.text]))

/-- The value is a string, a 64-bit integer, a Boolean or an object. -/
def Requested (v : Value) : Prop :=
  v.string?.isSome ∨ v.int64?.isSome ∨ (boolValue v).isSome ∨ v.object?.isSome

theorem simpleString_iff (v : Value) :
    simpleString v = v.string? ↔ ∀ l, v = .string l → l.Simple := by
  cases v with
  | string l =>
    simp only [simpleString, Value.string?, Value.string.injEq, forall_eq']
    constructor
    · intro h
      by_contra hs
      rw [if_neg hs] at h
      cases h
    · exact fun h => if_pos h
  | _ => exact ⟨fun _ l h => (by cases h), fun _ => rfl⟩

theorem not_requested_iff (v : Value) : ¬Requested v ↔
    none = v.string? ∧ none = v.int64? ∧ none = boolValue v ∧ none = v.object? := by
  simp only [Requested, not_or, Bool.not_eq_true, Option.isSome_eq_false_iff, Option.isNone_iff_eq_none,
    eq_comm (a := none)]

theorem requested_string {v : Value} {l : Str} (h : v = .string l) : Requested v := by
  subst h
  exact Or.inl rfl

/-- The lookups agree with JSON on exactly the texts in which no `\u` stands in a name up to the
member's own, nor in the member's value where that is a string. -/
theorem agrees_iff : Agrees o key ↔ ∀ v, o.first? key = some v → Requested v →
    Readable (o.namesTo key) ∧ ∀ l, v = .string l → l.Simple := by
  have hagrees : Agrees o key ↔ _ ∧ _ ∧ _ ∧ _ :=
    ⟨fun h => ⟨h.string, h.int, h.bool, h.object⟩, fun ⟨h₁, h₂, h₃, h₄⟩ => ⟨h₁, h₂, h₃, h₄⟩⟩
  rw [hagrees, jsonGetString_text, jsonGetInt_text, jsonGetBool_text, jsonGetObject_text]
  cases o.first? key with
  | none => simp
  | some v =>
    simp only [Option.bind_some, Option.some.injEq, forall_eq']
    by_cases hr : Readable (o.namesTo key)
    · rw [if_pos hr, if_pos hr, if_pos hr, if_pos hr]
      simp only [and_true, hr, true_and, simpleString_iff]
      exact ⟨fun h _ => h, fun h l hl => h (requested_string hl) l hl⟩
    · rw [if_neg hr, if_neg hr, if_neg hr, if_neg hr, ← not_requested_iff]
      simp only [hr, false_and, imp_false]

end Lookup

local instance sixteen_neZero : NeZero 16 := ⟨by decide⟩

theorem letter_plain : 0x20 ≤ (0x6B : UInt8) ∧ (0x6B : UInt8) ≠ 0x22 ∧ (0x6B : UInt8) ≠ 0x5C := by
  decide

def unreadableName : ObjectText :=
  .members [] (.more ⟨[], [.unicode ⟨0, true⟩ ⟨0, true⟩ ⟨14, false⟩ ⟨9, true⟩], [], []⟩
    (.word .null) [] (.one ⟨[], [.plain ⟨0x6B, letter_plain⟩], [], []⟩ (.word .true) [])) []

/-- In `{"\u00e9":null,"k":true}` the first name hides the second member. -/
theorem name_hidden : ¬∀ (o : ObjectText) (key : Text), Agrees o key := by
  intro h
  have hbool := (h unreadableName (ascii "k")).bool
  revert hbool
  decide +kernel

end EdgeLink.Lookup
