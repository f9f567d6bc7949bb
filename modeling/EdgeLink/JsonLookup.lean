import EdgeLink.JsonText

namespace EdgeLink.Lookup

open Json

/-! The scanner of `app_controller.cpp`. A position in the text is the text from there on. -/

/-- `std::isspace` in the C locale. -/
def isSpace (b : UInt8) : Bool := b == 0x20 || (0x09 ≤ b && b ≤ 0x0D)

/-- `std::tolower` in the C locale. -/
def lowerByte (b : UInt8) : UInt8 := if 0x41 ≤ b ∧ b ≤ 0x5A then b + 0x20 else b

/-- `skipJsonStringToken` behind the opening quote. -/
def skipStringRest : Text → Option Text
  | [] => none
  | 0x5C :: [] => none
  | 0x5C :: _ :: s => skipStringRest s
  | 0x22 :: s => some s
  | _ :: s => skipStringRest s

def skipJsonStringToken : Text → Option Text
  | 0x22 :: s => skipStringRest s
  | _ => none

def unescape (b : UInt8) : Option UInt8 :=
  if b = 0x22 then some 0x22
  else if b = 0x5C then some 0x5C
  else if b = 0x2F then some 0x2F
  else if b = 0x62 then some 0x08
  else if b = 0x66 then some 0x0C
  else if b = 0x6E then some 0x0A
  else if b = 0x72 then some 0x0D
  else if b = 0x74 then some 0x09
  else none

/-- What `decodeJsonStringToken` does between the quotes. -/
def decodeStringBody : Text → Option Text
  | [] => some []
  | 0x5C :: [] => none
  | 0x5C :: c :: s =>
    match unescape c with
    | none => none
    | some b => (decodeStringBody s).map (b :: ·)
  | c :: s => (decodeStringBody s).map (c :: ·)

def decodeJsonStringToken (token : Text) : Option Text :=
  if token.head? ≠ some 0x22 ∨ token.getLast? ≠ some 0x22 then none
  else decodeStringBody token.tail.dropLast

def skipJsonWhitespace (s : Text) : Text := s.dropWhile isSpace

theorem skipStringRest_length {s r : Text} (h : skipStringRest s = some r) :
    r.length < s.length := by
  induction s using skipStringRest.induct with
  | case1 => simp [skipStringRest] at h
  | case2 => simp [skipStringRest] at h
  | case3 c s ih =>
    have := ih (by simpa only [skipStringRest] using h)
    simp only [List.length_cons]
    omega
  | case4 s =>
    rw [skipStringRest, Option.some.injEq] at h
    simp [h]
  | case5 c s h₁ h₂ h₃ ih =>
    rw [skipStringRest] at h
    · have := ih h
      simp only [List.length_cons]
      omega
    all_goals assumption

/-- The loop of `skipJsonValue` over the brackets of one kind. -/
def skipBrackets (opening closing : UInt8) (depth : ℤ) : Text → Option Text
  | [] => none
  | c :: s =>
    if c = 0x22 then
      match h : skipStringRest s with
      | none => none
      | some r =>
        have := skipStringRest_length h
        skipBrackets opening closing depth r
    else if c = opening then skipBrackets opening closing (depth + 1) s
    else if c = closing then
      if depth - 1 = 0 then some s else skipBrackets opening closing (depth - 1) s
    else skipBrackets opening closing depth s
  termination_by s => s.length
  decreasing_by all_goals (simp only [List.length_cons]; omega)

/-- A byte at which a number or a word ends. -/
def endsScalar (b : UInt8) : Bool := b == 0x2C || b == 0x7D || b == 0x5D || isSpace b

def skipJsonValue (s : Text) : Option Text :=
  match skipJsonWhitespace s with
  | [] => none
  | c :: t =>
    if c = 0x22 then skipJsonStringToken (c :: t)
    else if c = 0x7B then skipBrackets 0x7B 0x7D 0 (c :: t)
    else if c = 0x5B then skipBrackets 0x5B 0x5D 0 (c :: t)
    else some ((c :: t).dropWhile fun b => !endsScalar b)

/-- The bytes between two positions. -/
def between (start rest : Text) : Text := start.take (start.length - rest.length)

structure Member where
  key : Text
  valueBegin : Text
  valueEnd : Text

/-- One member, in the loop of `findJsonValueSpan`. -/
def memberAt (s : Text) : Option Member :=
  let keyBegin := skipJsonWhitespace s
  match skipJsonStringToken keyBegin with
  | none => none
  | some keyEnd =>
    match decodeJsonStringToken (between keyBegin keyEnd) with
    | none => none
    | some key =>
      match skipJsonWhitespace keyEnd with
      | 0x3A :: t =>
        let valueBegin := skipJsonWhitespace t
        (skipJsonValue valueBegin).map fun valueEnd => ⟨key, valueBegin, valueEnd⟩
      | _ => none

theorem skipJsonStringToken_length {s r : Text} (h : skipJsonStringToken s = some r) :
    r.length < s.length := by
  unfold skipJsonStringToken at h
  split at h
  · next t =>
    have := skipStringRest_length h
    simp only [List.length_cons]
    omega
  · cases h

theorem skipJsonWhitespace_length (s : Text) : (skipJsonWhitespace s).length ≤ s.length :=
  (List.dropWhile_sublist _).length_le

theorem skipBrackets_quote (opening closing : UInt8) (depth : ℤ) (s : Text) :
    skipBrackets opening closing depth (0x22 :: s) =
      (skipStringRest s).bind (skipBrackets opening closing depth) := by
  rw [skipBrackets, if_pos rfl]
  split
  · next h => rw [h, Option.bind_none]
  · next r h => simp only [h, Option.bind_some]

theorem skipBrackets_length {opening closing : UInt8} {depth : ℤ} {s r : Text}
    (h : skipBrackets opening closing depth s = some r) : r.length < s.length := by
  induction hlen : s.length using Nat.strong_induction_on generalizing depth s with
  | _ n ih =>
    subst hlen
    have step {d : ℤ} {t : Text} (ht : t.length < s.length)
        (hr : skipBrackets opening closing d t = some r) : r.length < s.length :=
      (ih _ ht hr rfl).trans ht
    cases s with
    | nil => simp [skipBrackets] at h
    | cons c s =>
      have hs : s.length < (c :: s).length := Nat.lt_succ_self _
      by_cases hq : c = 0x22
      · subst hq
        rw [skipBrackets_quote, Option.bind_eq_some_iff] at h
        obtain ⟨t, ht, hr⟩ := h
        exact step ((skipStringRest_length ht).trans hs) hr
      · rw [skipBrackets, if_neg hq] at h
        split_ifs at h
        · exact step hs h
        · rw [Option.some.injEq] at h
          rw [← h]
          exact hs
        · exact step hs h
        · exact step hs h

theorem skipJsonValue_length {s r : Text} (h : skipJsonValue s = some r) :
    r.length ≤ s.length := by
  have hw := skipJsonWhitespace_length s
  unfold skipJsonValue at h
  split at h
  · cases h
  · next c t hs =>
    rw [hs] at hw
    split_ifs at h
    · exact (skipJsonStringToken_length h).le.trans hw
    · exact (skipBrackets_length h).le.trans hw
    · exact (skipBrackets_length h).le.trans hw
    · rw [Option.some.injEq] at h
      rw [← h]
      exact (List.dropWhile_sublist _).length_le.trans hw

theorem memberAt_length {s : Text} {m : Member} (h : memberAt s = some m) :
    m.valueEnd.length < s.length := by
  have hw := skipJsonWhitespace_length s
  simp only [memberAt] at h
  split at h
  · cases h
  · next keyEnd hk =>
    have hlen := skipJsonStringToken_length hk
    have hw' := skipJsonWhitespace_length keyEnd
    split at h
    · cases h
    · split at h
      · next t ht =>
        rw [ht, List.length_cons] at hw'
        rw [Option.map_eq_some_iff] at h
        obtain ⟨r, hr, rfl⟩ := h
        have hv := skipJsonValue_length hr
        have := skipJsonWhitespace_length t
        dsimp only
        omega
      · cases h

/-- The loop of `findJsonValueSpan`. -/
def findMember (key : Text) (s : Text) : Option (Text × Text) :=
  match h : memberAt s with
  | none => none
  | some m =>
    have := memberAt_length h
    if m.key = key then some (m.valueBegin, m.valueEnd)
    else
      match _hs : skipJsonWhitespace m.valueEnd with
      | 0x2C :: t => findMember key t
      | 0x7D :: _ => none
      | t => findMember key t
  termination_by s.length
  decreasing_by all_goals
    have := skipJsonWhitespace_length m.valueEnd
    rw [_hs] at this
    try rw [List.length_cons] at this
    omega

/-- Where the value of the first member named `key` begins and ends. -/
def findJsonValueSpan (s key : Text) : Option (Text × Text) :=
  match skipJsonWhitespace s with
  | 0x7B :: t => findMember key t
  | _ => none

def jsonGetString (s key : Text) : Option Text :=
  match findJsonValueSpan s key with
  | none => none
  | some (valueBegin, valueEnd) =>
    let value := between valueBegin valueEnd
    if value.head? = some 0x22 then decodeJsonStringToken value else none

def isDigit (b : UInt8) : Bool := 0x30 ≤ b && b ≤ 0x39

/-- `std::stoll` to the base 10: the number and how many bytes it read. -/
def stoll (s : Text) : Option (ℤ × ℕ) :=
  let t := skipJsonWhitespace s
  let sign := t.head?.filter fun b => b == 0x2D || b == 0x2B
  let unsigned := if sign.isSome then t.tail else t
  let digits := unsigned.takeWhile isDigit
  let magnitude : ℤ := digits.foldl (fun n b => n * 10 + (b.toNat - 0x30)) 0
  let value := if sign = some 0x2D then -magnitude else magnitude
  if digits = [] then none
  else if -2 ^ 63 ≤ value ∧ value < 2 ^ 63 then
    some (value, s.length - (unsigned.length - digits.length))
  else none

def jsonGetInt (s key : Text) : Option ℤ :=
  match findJsonValueSpan s key with
  | none => none
  | some (valueBegin, valueEnd) =>
    let text := between valueBegin valueEnd
    match stoll text with
    | none => none
    | some (value, pos) => if pos = text.length then some value else none

def jsonGetBool (s key : Text) : Option Bool :=
  match findJsonValueSpan s key with
  | none => none
  | some (valueBegin, valueEnd) =>
    let value := between valueBegin valueEnd
    if value = ascii "true" ∨ value = ascii "1" then some true
    else if value = ascii "false" ∨ value = ascii "0" then some false
    else none

def jsonGetObject (s key : Text) : Option Text :=
  match findJsonValueSpan s key with
  | none => none
  | some (valueBegin, valueEnd) =>
    let value := between valueBegin valueEnd
    if value.head? = some 0x7B then some value else none

end EdgeLink.Lookup
