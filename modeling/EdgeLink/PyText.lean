import EdgeLink.Substring

namespace EdgeLink.PyText

open EdgeLink.Substring (trim trim_self trim_ends)

abbrev Str := List Char

/-- The characters that `str.isspace` knows. -/
def isSpace (c : Char) : Bool :=
  let n := c.toNat
  (9 ≤ n && n ≤ 13) || (28 ≤ n && n ≤ 32) || n = 0x85 || n = 0xA0 || n = 0x1680 ||
    (0x2000 ≤ n && n ≤ 0x200A) || n = 0x2028 || n = 0x2029 || n = 0x202F || n = 0x205F || n = 0x3000

def strip (s : Str) : Str := trim isSpace s

theorem strip_strip (s : Str) : strip (strip s) = strip s :=
  trim_self (trim_ends isSpace s).1 (trim_ends isSpace s).2

/-- As far as ASCII goes: two characters outside it become letters of ASCII. -/
def lowerChar (c : Char) : Str :=
  if c.toNat = 0x212A then ['k']
  else if c.toNat = 0x0130 then ['i', Char.ofNat 0x0307]
  else [c.toLower]

/-- `str.lower`, but other letters outside ASCII stay as they are. -/
def lower (text : Str) : Str := text.flatMap lowerChar

end EdgeLink.PyText
