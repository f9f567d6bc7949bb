import EdgeLink.CommandRequest
import EdgeLink.JsonEvents

namespace EdgeLink.CommandJson

open Json Lookup

/-! Flat objects, as programs print them member by member, and how the scanner reads them. -/

inductive Field
  | int (z : ℤ)
  | text (t : Text)
  /-- a number with one digit behind the point -/
  | tenths (z : ℤ)

def tenthsText (z : ℤ) : Text :=
  (if z < 0 then [0x2D] else []) ++ natText (z.natAbs / 10) ++ 0x2E :: natText (z.natAbs % 10)

def Field.print : Field → Text
  | int z => intText z
  | text t => ascii "\"" ++ t ++ ascii "\""
  | tenths z => tenthsText z

def printObject (fields : List (String × Field)) : Text :=
  ascii "\x7b" ++ (ascii ",").intercalate (fields.map fun f =>
    ascii "\"" ++ ascii f.1 ++ ascii "\":" ++ f.2.print) ++ ascii "\x7d"

def Field.Plain : Field → Prop
  | text t => PlainText t
  | _ => True

/-- The names and texts need no escape. -/
def PlainField (f : String × Field) : Prop := PlainText (ascii f.1) ∧ f.2.Plain

def Field.int? : Field → Option ℤ
  | int z => if -2 ^ 63 ≤ z ∧ z < 2 ^ 63 then some z else none
  | _ => none

def Field.string? : Field → Option Text
  | text t => some t
  | _ => none

theorem plainText_nil : PlainText [] := fun _ hb => absurd hb List.not_mem_nil

def plainName (t : Text) : PlainName := if h : PlainText t then ⟨t, h⟩ else ⟨[], plainText_nil⟩

theorem lastDigit_lt (n : ℕ) : n % 10 < 10 := Nat.mod_lt n (Nat.succ_pos 9)

def lastDigit (n : ℕ) : Fin 10 := ⟨n % 10, lastDigit_lt n⟩

def Number.ofTenths (z : ℤ) : Number :=
  ⟨decide (z < 0), .ofNat (z.natAbs / 10), some (lastDigit z.natAbs, []), none⟩

def Field.value : Field → Value
  | int z => number z
  | text t => .string (Str.ofPlain (plainName t).1 (plainName t).2)
  | tenths z => .number (Number.ofTenths z)

def entry (f : String × Field) : PlainName × Value := (plainName (ascii f.1), f.2.value)

section Object
variable {f : String × Field} {fs : List (String × Field)}

end Object

end EdgeLink.CommandJson
