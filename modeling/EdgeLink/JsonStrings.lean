import Mathlib

namespace EdgeLink.JsonStrings

/-! JSON arrays of strings over characters: how they are written with characters beyond ASCII left as
they are, and how they are read. -/

def quote : Char := '\x22'

def backslash : Char := '\x5c'

/-- The letters of the short escapes, with what they stand for. -/
def shortEscapes : List (Char × Char) :=
  [('\x22', '\x22'), ('\x5c', '\x5c'), ('b', '\x08'), ('f', '\x0c'), ('n', '\n'), ('r', '\r'),
    ('t', '\t')]

/-- How a character is written that has a short escape. -/
def shortLetter (c : Char) : Option Char := (shortEscapes.find? fun e => e.2 = c).map Prod.fst

def escapeChar (c : Char) : List Char :=
  match shortLetter c with
  | some letter => [backslash, letter]
  | none =>
    if c.toNat < 0x20 then
      [backslash, 'u', '0', '0', Nat.digitChar (c.toNat / 16), Nat.digitChar (c.toNat % 16)]
    else [c]

def dumpString (s : List Char) : List Char := quote :: (s.flatMap escapeChar ++ [quote])

/-- What follows the first string. -/
def dumpRest (ss : List (List Char)) : List Char := ss.flatMap fun s => ',' :: ' ' :: dumpString s

def dumps : List (List Char) → List Char
  | [] => ['[', ']']
  | s :: ss => '[' :: (dumpString s ++ dumpRest ss ++ [']'])

def isSpace (c : Char) : Bool := c = ' ' || c = '\t' || c = '\n' || c = '\r'

def skipSpaces (s : List Char) : List Char := s.dropWhile isSpace

def hexDigit (c : Char) : Option ℕ :=
  if '0' ≤ c ∧ c ≤ '9' then some (c.toNat - 0x30)
  else if 'a' ≤ c ∧ c ≤ 'f' then some (c.toNat - 0x57)
  else if 'A' ≤ c ∧ c ≤ 'F' then some (c.toNat - 0x37)
  else none

/-- A code of four digits; half of a surrogate pair is no character. -/
def codePoint (a b c d : Char) : Option Char := do
  let n := (((← hexDigit a) * 16 + (← hexDigit b)) * 16 + (← hexDigit c)) * 16 + (← hexDigit d)
  if n.isValidChar then some (Char.ofNat n) else none

def unescape (letter : Char) : Option Char :=
  if letter = '/' then some '/' else shortEscapes.lookup letter

/-- What is left of a string after its opening quote, and what comes behind it. -/
def stringRest : List Char → Option (List Char × List Char)
  | [] => none
  | '\x22' :: s => some ([], s)
  | '\x5c' :: 'u' :: a :: b :: c :: d :: s => do
    let char ← codePoint a b c d
    let (t, rest) ← stringRest s
    some (char :: t, rest)
  | '\x5c' :: letter :: s => do
    let char ← unescape letter
    let (t, rest) ← stringRest s
    some (char :: t, rest)
  | char :: s => do
    if char.toNat < 0x20 then none
    let (t, rest) ← stringRest s
    some (char :: t, rest)

def string : List Char → Option (List Char × List Char)
  | '\x22' :: s => stringRest s
  | _ => none

/-- Each string takes at least two characters, so the text's length is enough fuel. -/
def elements : ℕ → List Char → Option (List (List Char))
  | 0, _ => none
  | fuel + 1, s => do
    let (element, s) ← string (skipSpaces s)
    match skipSpaces s with
    | ']' :: s => if skipSpaces s = [] then some [element] else none
    | ',' :: s => do
      let more ← elements fuel s
      some (element :: more)
    | _ => none

def loads (text : List Char) : Option (List (List Char)) :=
  match skipSpaces text with
  | '[' :: s =>
    match skipSpaces s with
    | ']' :: s => if skipSpaces s = [] then some [] else none
    | s => elements s.length s
  | _ => none

theorem hexDigit_digitChar : ∀ n < 16, hexDigit (Nat.digitChar n) = some n := by
  decide

theorem shortEscapes_read : ∀ e ∈ shortEscapes, unescape e.1 = some e.2 ∧ e.1 ≠ 'u' := by
  decide

/-- A character is put before what the rest of a string reads. -/
def readBefore (c : Char) (r : Option (List Char × List Char)) : Option (List Char × List Char) :=
  r.map fun x => (c :: x.1, x.2)

theorem stringRest_short {letter c : Char} (hu : letter ≠ 'u') (hc : unescape letter = some c)
    (s : List Char) :
    stringRest (backslash :: letter :: s) = readBefore c (stringRest s) := by
  unfold backslash
  rw [stringRest]
  · rw [hc]
    cases stringRest s <;> rfl
  · intro a b c d s' hletter
    exact absurd hletter hu

theorem stringRest_code {a b c d char : Char} (h : codePoint a b c d = some char) (s : List Char) :
    stringRest (backslash :: 'u' :: a :: b :: c :: d :: s) = readBefore char (stringRest s) := by
  unfold backslash
  rw [stringRest, h]
  cases stringRest s <;> rfl

theorem stringRest_plain {c : Char} (hquote : c ≠ quote) (hback : c ≠ backslash)
    (hcontrol : ¬c.toNat < 0x20) (s : List Char) :
    stringRest (c :: s) = readBefore c (stringRest s) := by
  rw [stringRest]
  · rw [if_neg hcontrol]
    cases stringRest s <;> rfl
  · exact hquote
  · intro a b c d s' h
    exact absurd h hback
  · intro letter s' h
    exact absurd h hback

theorem shortLetter_some {c letter : Char} (h : shortLetter c = some letter) :
    letter ≠ 'u' ∧ unescape letter = some c := by
  obtain ⟨e, he, rfl⟩ := Option.map_eq_some_iff.mp h
  obtain ⟨hread, hu⟩ := shortEscapes_read e (List.mem_of_find?_eq_some he)
  have hfound : decide (e.2 = c) = true := List.find?_some (p := fun e : Char × Char => e.2 = c) he
  rw [of_decide_eq_true hfound] at hread
  exact ⟨hu, hread⟩

theorem shortLetter_none {c : Char} (h : shortLetter c = none) : c ≠ quote ∧ c ≠ backslash := by
  constructor
  · rintro rfl
    exact absurd h (by decide)
  · rintro rfl
    exact absurd h (by decide)

theorem codePoint_control {c : Char} (h : c.toNat < 0x20) :
    codePoint '0' '0' (Nat.digitChar (c.toNat / 16)) (Nat.digitChar (c.toNat % 16)) = some c := by
  have hzero : hexDigit '0' = some 0 := by decide
  have hvalue : ((0 * 16 + 0) * 16 + c.toNat / 16) * 16 + c.toNat % 16 = c.toNat := by omega
  unfold codePoint
  rw [hzero, hexDigit_digitChar _ (by omega), hexDigit_digitChar _ (by omega)]
  change (if (((0 * 16 + 0) * 16 + c.toNat / 16) * 16 + c.toNat % 16).isValidChar then _ else _) = _
  rw [hvalue, if_pos (show c.toNat.isValidChar from c.valid), Char.ofNat_toNat]

theorem stringRest_escapeChar (c : Char) (s : List Char) :
    stringRest (escapeChar c ++ s) = readBefore c (stringRest s) := by
  unfold escapeChar
  cases hshort : shortLetter c with
  | some letter =>
    obtain ⟨hu, hc⟩ := shortLetter_some hshort
    exact stringRest_short hu hc s
  | none =>
    dsimp only
    obtain ⟨hquote, hback⟩ := shortLetter_none hshort
    by_cases hcontrol : c.toNat < 0x20
    · rw [if_pos hcontrol]
      exact stringRest_code (codePoint_control hcontrol) s
    · rw [if_neg hcontrol]
      exact stringRest_plain hquote hback hcontrol s

theorem string_dumpString (t s : List Char) : string (dumpString t ++ s) = some (t, s) := by
  have hrest : stringRest (t.flatMap escapeChar ++ (quote :: s)) = some (t, s) := by
    induction t with
    | nil => rfl
    | cons c t ih =>
      rw [List.flatMap_cons, List.append_assoc, stringRest_escapeChar, ih]
      rfl
  unfold dumpString
  rw [List.cons_append, List.append_assoc]
  exact hrest

theorem skipSpaces_cons {c : Char} (h : isSpace c = false) (s : List Char) :
    skipSpaces (c :: s) = c :: s :=
  List.dropWhile_cons_of_neg (by rw [h]; exact Bool.false_ne_true)

theorem skipSpaces_dumpString (t s : List Char) :
    skipSpaces (dumpString t ++ s) = dumpString t ++ s :=
  skipSpaces_cons (by decide) _

theorem elements_string (fuel : ℕ) {t s rest : List Char}
    (hs : skipSpaces s = dumpString t ++ rest) :
    elements (fuel + 1) s =
      match skipSpaces rest with
      | ']' :: s => if skipSpaces s = [] then some [t] else none
      | ',' :: s => do
        let more ← elements fuel s
        some (t :: more)
      | _ => none := by
  rw [elements, hs, string_dumpString]
  rfl

/-- The spaces between two elements are skipped before the next is read. -/
theorem elements_dumpRest {fuel : ℕ} {t : List Char} {ss : List (List Char)} (h : ss.length < fuel)
    {s : List Char} (hs : skipSpaces s = dumpString t ++ (dumpRest ss ++ [']'])) :
    elements fuel s = some (t :: ss) := by
  induction ss generalizing fuel t s with
  | nil =>
    obtain ⟨fuel, rfl⟩ : ∃ n, fuel = n + 1 := ⟨fuel - 1, by omega⟩
    rw [elements_string fuel hs]
    rfl
  | cons next ss ih =>
    obtain ⟨fuel, rfl⟩ : ∃ n, fuel = n + 1 := ⟨fuel - 1, by omega⟩
    have hnext : skipSpaces (' ' :: dumpString next ++ (dumpRest ss ++ [']'])) =
        dumpString next ++ (dumpRest ss ++ [']']) := skipSpaces_dumpString next _
    have hmore : elements fuel (' ' :: dumpString next ++ (dumpRest ss ++ [']'])) =
        some (next :: ss) := ih (by rw [List.length_cons] at h; omega) hnext
    have hcomma : skipSpaces (dumpRest (next :: ss) ++ [']']) =
        ',' :: (' ' :: dumpString next ++ (dumpRest ss ++ [']'])) := by
      unfold dumpRest
      rw [List.flatMap_cons, List.append_assoc]
      exact skipSpaces_cons (by decide) _
    rw [elements_string fuel hs, hcomma]
    exact congrArg (Option.bind · fun more => some (t :: more)) hmore

theorem length_dumpRest (ss : List (List Char)) : ss.length ≤ (dumpRest ss).length := by
  induction ss with
  | nil => exact le_rfl
  | cons s ss ih =>
    unfold dumpRest at ih ⊢
    rw [List.flatMap_cons, List.length_append, List.length_cons, List.length_cons]
    omega

/-- Reading gives back what was written. -/
theorem loads_dumps (ss : List (List Char)) : loads (dumps ss) = some ss := by
  cases ss with
  | nil => rfl
  | cons t ss =>
    have hs := skipSpaces_dumpString t (dumpRest ss ++ [']'])
    have hlength : ss.length < (dumpString t ++ (dumpRest ss ++ [']'])).length := by
      have hrest := length_dumpRest ss
      rw [List.length_append, List.length_append, List.length_singleton]
      omega
    unfold loads dumps
    rw [skipSpaces_cons (by decide), List.append_assoc]
    exact elements_dumpRest hlength hs

end EdgeLink.JsonStrings
