import Mathlib

/-! JSON texts as the grammar of RFC 8259 derives them. A value is kept with every choice its text
makes, so that `text` gives back the bytes. -/

namespace EdgeLink.Json

abbrev Text := List UInt8

/-- The bytes of a literal. -/
def ascii (s : String) : Text := s.toByteArray.data.toList

inductive Space
  | space | tab | lineFeed | carriageReturn
  deriving DecidableEq

def Space.byte : Space → UInt8
  | space => 0x20
  | tab => 0x09
  | lineFeed => 0x0A
  | carriageReturn => 0x0D

abbrev Ws := List Space

def Ws.text (w : Ws) : Text := w.map Space.byte

inductive Escape
  | quote | backslash | slash | backspace | formFeed | lineFeed | carriageReturn | tab
  deriving DecidableEq

def Escape.letter : Escape → UInt8
  | quote => 0x22
  | backslash => 0x5C
  | slash => 0x2F
  | backspace => 0x62
  | formFeed => 0x66
  | lineFeed => 0x6E
  | carriageReturn => 0x72
  | tab => 0x74

def Escape.value : Escape → UInt8
  | quote => 0x22
  | backslash => 0x5C
  | slash => 0x2F
  | backspace => 0x08
  | formFeed => 0x0C
  | lineFeed => 0x0A
  | carriageReturn => 0x0D
  | tab => 0x09

structure HexDigit where
  value : Fin 16
  upper : Bool
  deriving DecidableEq

def HexDigit.byte (d : HexDigit) : UInt8 :=
  if d.value < 10 then 0x30 + d.value.val.toUInt8
  else if d.upper then 0x37 + d.value.val.toUInt8
  else 0x57 + d.value.val.toUInt8

/-- A byte of an unescaped character; a character beyond ASCII is its UTF-8 bytes, one by one. -/
abbrev PlainByte := {b : UInt8 // 0x20 ≤ b ∧ b ≠ 0x22 ∧ b ≠ 0x5C}

inductive StrChar
  | plain (b : PlainByte)
  | escape (e : Escape)
  | unicode (a b c d : HexDigit)
  deriving DecidableEq

def StrChar.text : StrChar → Text
  | plain b => [b.val]
  | escape e => [0x5C, e.letter]
  | unicode a b c d => [0x5C, 0x75, a.byte, b.byte, c.byte, d.byte]

abbrev Str := List StrChar

def Str.body (s : Str) : Text := s.flatMap StrChar.text

def Str.text (s : Str) : Text := 0x22 :: (s.body ++ [0x22])

/-- The UTF-16 code unit of `\uXXXX`. -/
def codeUnit (a b c d : HexDigit) : ℕ :=
  ((a.value * 16 + b.value) * 16 + c.value) * 16 + d.value

/-- A surrogate that is not half of a pair stands for the replacement character. -/
def encodeUtf8 (n : ℕ) : Text :=
  String.utf8EncodeChar (if n.isValidChar then Char.ofNat n else Char.ofNat 0xFFFD)

/-- What a string says, in UTF-8. -/
def Str.decode : Str → Text
  | [] => []
  | .plain b :: s => b.val :: Str.decode s
  | .escape e :: s => e.value :: Str.decode s
  | .unicode a b c d :: .unicode a' b' c' d' :: s =>
    if 0xD800 ≤ codeUnit a b c d ∧ codeUnit a b c d < 0xDC00 ∧
        0xDC00 ≤ codeUnit a' b' c' d' ∧ codeUnit a' b' c' d' < 0xE000 then
      encodeUtf8 (0x10000 + (codeUnit a b c d - 0xD800) * 0x400 + (codeUnit a' b' c' d' - 0xDC00))
        ++ Str.decode s
    else encodeUtf8 (codeUnit a b c d) ++ Str.decode (.unicode a' b' c' d' :: s)
  | .unicode a b c d :: s => encodeUtf8 (codeUnit a b c d) ++ Str.decode s

def StrChar.isUnicode : StrChar → Bool
  | unicode .. => true
  | _ => false

/-- No `\uXXXX` in the string. -/
def Str.Simple (s : Str) : Prop := ∀ c ∈ s, c.isUnicode = false

instance (s : Str) : Decidable s.Simple := inferInstanceAs (Decidable (∀ c ∈ s, _))

@[simp] theorem Str.simple_nil : Str.Simple [] := fun _ h => absurd h List.not_mem_nil

@[simp] theorem Str.simple_cons (c : StrChar) (s : Str) :
    Str.Simple (c :: s) ↔ c.isUnicode = false ∧ Str.Simple s := List.forall_mem_cons

def digitByte (d : Fin 10) : UInt8 := 0x30 + d.val.toUInt8

def digitsText (ds : List (Fin 10)) : Text := ds.map digitByte

def digitsValue (ds : List (Fin 10)) : ℕ := ds.foldl (fun n d => n * 10 + d.val) 0

/-- `zero / ( digit1-9 *DIGIT )`; `first` counts from 1. -/
inductive IntPart
  | zero
  | digits (first : Fin 9) (rest : List (Fin 10))
  deriving DecidableEq

def IntPart.digitList : IntPart → List (Fin 10)
  | zero => [0]
  | digits first rest => first.succ :: rest

inductive Sign
  | minus | plus
  deriving DecidableEq

def Sign.byte : Sign → UInt8
  | minus => 0x2D
  | plus => 0x2B

structure ExpPart where
  upper : Bool
  sign : Option Sign
  first : Fin 10
  rest : List (Fin 10)
  deriving DecidableEq

def ExpPart.text (e : ExpPart) : Text :=
  (if e.upper then 0x45 else 0x65) ::
    ((e.sign.map Sign.byte).toList ++ digitsText (e.first :: e.rest))

structure Number where
  minus : Bool
  int : IntPart
  frac : Option (Fin 10 × List (Fin 10))
  exp : Option ExpPart
  deriving DecidableEq

def Number.fracText (n : Number) : Text :=
  match n.frac with
  | none => []
  | some (d, ds) => 0x2E :: digitsText (d :: ds)

def Number.expText (n : Number) : Text :=
  match n.exp with
  | none => []
  | some e => e.text

def Number.text (n : Number) : Text :=
  (if n.minus then [0x2D] else []) ++ (digitsText n.int.digitList ++ (n.fracText ++ n.expText))

/-- The integer that a number without fraction and exponent writes. -/
def Number.int? (n : Number) : Option ℤ :=
  if n.frac = none ∧ n.exp = none then
    some (if n.minus then -(digitsValue n.int.digitList : ℤ) else digitsValue n.int.digitList)
  else none

inductive Word
  | null | true | false
  deriving DecidableEq

def Word.text : Word → Text
  | null => [0x6E, 0x75, 0x6C, 0x6C]
  | true => [0x74, 0x72, 0x75, 0x65]
  | false => [0x66, 0x61, 0x6C, 0x73, 0x65]

/-- A member's name, up to the value. -/
structure Label where
  before : Ws
  name : Str
  beforeColon : Ws
  afterColon : Ws
  deriving DecidableEq

def Label.text (l : Label) : Text :=
  l.before.text ++ (l.name.text ++ (l.beforeColon.text ++ (0x3A :: l.afterColon.text)))

mutual

inductive Value
  | word (w : Word)
  | number (n : Number)
  | string (s : Str)
  | emptyArray (w : Ws)
  | array (es : Elements)
  | emptyObject (w : Ws)
  | object (ms : Members)

inductive Elements
  | one (before : Ws) (v : Value) (after : Ws)
  | more (before : Ws) (v : Value) (after : Ws) (es : Elements)

inductive Members
  | one (l : Label) (v : Value) (after : Ws)
  | more (l : Label) (v : Value) (after : Ws) (ms : Members)

end

mutual

def Value.text : Value → Text
  | .word w => w.text
  | .number n => n.text
  | .string s => s.text
  | .emptyArray w => 0x5B :: (w.text ++ [0x5D])
  | .array es => 0x5B :: (es.text ++ [0x5D])
  | .emptyObject w => 0x7B :: (w.text ++ [0x7D])
  | .object ms => 0x7B :: (ms.text ++ [0x7D])

def Elements.text : Elements → Text
  | .one before v after => before.text ++ (v.text ++ after.text)
  | .more before v after es => before.text ++ (v.text ++ (after.text ++ (0x2C :: es.text)))

def Members.text : Members → Text
  | .one l v after => l.text ++ (v.text ++ after.text)
  | .more l v after ms => l.text ++ (v.text ++ (after.text ++ (0x2C :: ms.text)))

end

/-- The first member that has the name. -/
def Members.first? (key : Text) : Members → Option Value
  | .one l v _ => if l.name.decode = key then some v else none
  | .more l v _ ms => if l.name.decode = key then some v else ms.first? key

/-- The names up to the first member that has the name, that one included. -/
def Members.namesTo (key : Text) : Members → List Str
  | .one l _ _ => [l.name]
  | .more l _ _ ms => if l.name.decode = key then [l.name] else l.name :: ms.namesTo key

/-- A text whose value is an object. -/
inductive ObjectText
  | empty (lead inner trail : Ws)
  | members (lead : Ws) (ms : Members) (trail : Ws)

def ObjectText.text : ObjectText → Text
  | empty lead inner trail => lead.text ++ (0x7B :: (inner.text ++ (0x7D :: trail.text)))
  | members lead ms trail => lead.text ++ (0x7B :: (ms.text ++ (0x7D :: trail.text)))

def ObjectText.first? (key : Text) : ObjectText → Option Value
  | empty .. => none
  | members _ ms _ => ms.first? key

def ObjectText.namesTo (key : Text) : ObjectText → List Str
  | empty .. => []
  | members _ ms _ => ms.namesTo key

def Value.string? : Value → Option Text
  | .string s => some s.decode
  | _ => none

/-- The value of an integer that a 64-bit word holds. -/
def Value.int64? : Value → Option ℤ
  | .number n => n.int?.filter fun i => -2 ^ 63 ≤ i ∧ i < 2 ^ 63
  | _ => none

def Value.object? : Value → Option Text
  | .emptyObject w => some (Value.emptyObject w).text
  | .object ms => some (Value.object ms).text
  | _ => none

def natDigits (n : ℕ) : List (Fin 10) :=
  if n < 10 then [Fin.ofNat 10 n] else natDigits (n / 10) ++ [Fin.ofNat 10 n]

def natText (n : ℕ) : Text := digitsText (natDigits n)

def intText (z : ℤ) : Text := (if z < 0 then [0x2D] else []) ++ natText z.natAbs

theorem natDigits_value (n : ℕ) : digitsValue (natDigits n) = n := by
  induction n using Nat.strong_induction_on with
  | _ n ih =>
    rw [natDigits]
    split_ifs with h
    · simp [digitsValue, Nat.mod_eq_of_lt h]
    · have hdiv := ih (n / 10) (by omega)
      rw [digitsValue] at hdiv ⊢
      rw [List.foldl_append, hdiv]
      simp only [List.foldl_cons, List.foldl_nil, Fin.val_ofNat]
      omega

theorem natDigits_cons {n : ℕ} (h : n ≠ 0) : ∃ d ds, natDigits n = d :: ds ∧ d ≠ 0 := by
  induction n using Nat.strong_induction_on with
  | _ n ih =>
    rw [natDigits]
    split_ifs with hlt
    · refine ⟨_, _, rfl, fun h0 => h ?_⟩
      have := congrArg Fin.val h0
      rwa [Fin.val_ofNat, Nat.mod_eq_of_lt hlt] at this
    · obtain ⟨d, ds, hd, hne⟩ := ih (n / 10) (by omega) (by omega)
      exact ⟨d, ds ++ [Fin.ofNat 10 n], by rw [hd, List.cons_append], hne⟩

def IntPart.ofNat (n : ℕ) : IntPart :=
  match natDigits n with
  | [] => zero
  | d :: ds => if h : d = 0 then zero else digits (d.pred h) ds

theorem IntPart.digitList_ofNat (n : ℕ) : (IntPart.ofNat n).digitList = natDigits n := by
  by_cases h : n = 0
  · subst h
    decide +kernel
  · obtain ⟨d, ds, hd, hne⟩ := natDigits_cons h
    rw [IntPart.ofNat, hd]
    simp only [hne, dite_false, IntPart.digitList, Fin.succ_pred]

def Number.ofInt (z : ℤ) : Number := ⟨decide (z < 0), .ofNat z.natAbs, none, none⟩

theorem Number.text_ofInt (z : ℤ) : (Number.ofInt z).text = intText z := by
  simp [Number.text, Number.ofInt, Number.fracText, Number.expText, intText, natText,
    IntPart.digitList_ofNat]

theorem Number.int?_ofInt (z : ℤ) : (Number.ofInt z).int? = some z := by
  simp only [Number.int?, Number.ofInt, and_self, if_true, decide_eq_true_eq,
    IntPart.digitList_ofNat, natDigits_value, Option.some.injEq]
  split_ifs <;> omega

/-- Bytes that a string holds as they are. -/
def PlainText (t : Text) : Prop := ∀ b ∈ t, 0x20 ≤ b ∧ b ≠ 0x22 ∧ b ≠ 0x5C

theorem plainText_iff (t : Text) :
    PlainText t ↔ t.all (fun b => 0x20 ≤ b && b != 0x22 && b != 0x5C) = true := by
  simp only [PlainText, List.all_eq_true, Bool.and_eq_true, decide_eq_true_eq, bne_iff_ne, and_assoc]

instance (t : Text) : Decidable (PlainText t) := decidable_of_iff _ (plainText_iff t).symm

def Str.ofPlain : (t : Text) → PlainText t → Str
  | [], _ => []
  | b :: t, h => .plain ⟨b, h b List.mem_cons_self⟩ ::
      Str.ofPlain t fun c hc => h c (List.mem_cons_of_mem b hc)

section ofPlain

variable {t : Text} (h : PlainText t)

theorem Str.text_ofPlain : (Str.ofPlain t h).text = 0x22 :: (t ++ [0x22]) := by
  have hbody : (Str.ofPlain t h).body = t := by
    induction t with
    | nil => rfl
    | cons b t ih => exact congrArg (b :: ·) (ih _)
  rw [Str.text, hbody]

theorem Str.simple_ofPlain : (Str.ofPlain t h).Simple := by
  induction t with
  | nil => exact Str.simple_nil
  | cons b t ih => exact (Str.simple_cons _ _).mpr ⟨rfl, ih _⟩

theorem Str.decode_ofPlain : (Str.ofPlain t h).decode = t := by
  induction t with
  | nil => rfl
  | cons b t ih => exact congrArg (b :: ·) (ih _)

end ofPlain

abbrev PlainName := {t : Text // PlainText t}

def PlainName.label (name : PlainName) : Label := ⟨[], Str.ofPlain name.1 name.2, [], []⟩

/-- Members without whitespace around them. -/
def Members.ofFields : PlainName × Value → List (PlainName × Value) → Members
  | (name, v), [] => .one name.label v []
  | (name, v), f :: fs => .more name.label v [] (Members.ofFields f fs)

section ofFields

variable (name : PlainName) (v : Value) (f : PlainName × Value) (fs : List (PlainName × Value))

theorem PlainName.label_text : name.label.text = 0x22 :: (name.1 ++ [0x22, 0x3A]) := by
  simp [Label.text, PlainName.label, Str.text_ofPlain, Ws.text]

theorem Members.text_ofFields_nil :
    (Members.ofFields (name, v) []).text = name.label.text ++ v.text := by
  simp [Members.ofFields, Members.text, Ws.text]

theorem Members.text_ofFields_cons : (Members.ofFields (name, v) (f :: fs)).text =
    name.label.text ++ (v.text ++ 0x2C :: (Members.ofFields f fs).text) := by
  simp [Members.ofFields, Members.text, Ws.text]

theorem Members.first?_ofFields (key : Text) :
    (Members.ofFields f fs).first? key = ((f :: fs).find? (·.1.1 = key)).map Prod.snd := by
  induction fs generalizing f with
  | nil =>
    obtain ⟨name, v⟩ := f
    simp only [Members.ofFields, Members.first?, PlainName.label, Str.decode_ofPlain]
    by_cases h : name.1 = key <;> simp [h]
  | cons g gs ih =>
    obtain ⟨name, v⟩ := f
    simp only [Members.ofFields, Members.first?, PlainName.label, Str.decode_ofPlain, ih]
    by_cases h : name.1 = key <;> simp [h]

theorem Members.simple_ofFields (key : Text) :
    ∀ s ∈ (Members.ofFields f fs).namesTo key, s.Simple := by
  induction fs generalizing f with
  | nil => exact List.forall_mem_singleton.mpr (Str.simple_ofPlain f.1.2)
  | cons g gs ih =>
    simp only [Members.ofFields, Members.namesTo]
    split_ifs
    · exact List.forall_mem_singleton.mpr (Str.simple_ofPlain f.1.2)
    · exact List.forall_mem_cons.mpr ⟨Str.simple_ofPlain f.1.2, ih g⟩

end ofFields

end EdgeLink.Json
