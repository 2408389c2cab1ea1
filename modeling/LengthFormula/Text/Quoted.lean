import LengthFormula.Text.Combining

/-!
# Quoted names

Messages show a name between double quotes.  A quote or a backslash inside it takes a backslash in
front, control characters and marks that would join the character before them are written by code
point, and everything else stands for itself.
-/

namespace LengthFormula

/-- The code point of `c` between braces, in lower-case hexadecimal digits. -/
def codePointEscape (c : Char) : List Char :=
  ['\\', 'u', '\x7b'] ++ Nat.toDigits 16 c.toNat ++ ['\x7d']

/-- A character as it stands in a quoted name. -/
def quotedChar (c : Char) : List Char :=
  if c = '\x22' || c = '\\' then ['\\', c]
  else if c = '\n' then ['\\', 'n']
  else if c = '\t' then ['\\', 't']
  else if c = '\r' then ['\\', 'r']
  else if c = '\x00' then ['\\', '0']
  else if isCombining c || c.toNat < 0x20 then codePointEscape c
  else [c]

/-- A name between double quotes. -/
def quoted (s : String) : String :=
  String.ofList (['\x22'] ++ s.toList.flatMap quotedChar ++ ['\x22'])

end LengthFormula
