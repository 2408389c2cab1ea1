import LengthFormula.Decimal.Layout

/-!
# JSON values

JSON values and their compact text.  A number keeps the text that writes it, so that no digit is
lost between reading a text and deciding what kind of number is asked for.
-/

namespace LengthFormula

/-- A JSON value; the members of an object keep their order and may repeat a key. -/
inductive Json where
  | null
  /-- A string with half a surrogate pair, or an object with such a key.  It is well formed but
  holds no text, so it can only be passed over. -/
  | unpaired
  | bool (value : Bool)
  /-- A number, by the text that writes it. -/
  | number (text : List Char)
  | string (value : String)
  | array (items : List Json)
  | object (members : List (String × Json))

namespace Json

/-- A hexadecimal digit in lower case. -/
def hexDigit (n : Nat) : Char := Nat.digitChar n

/-- A character inside a JSON string: quotes, backslashes and control characters are escaped. -/
def escapedChar (c : Char) : List Char :=
  if c = '\x22' then ['\\', '\x22']
  else if c = '\\' then ['\\', '\\']
  else if c = '\x08' then ['\\', 'b']
  else if c = '\x0c' then ['\\', 'f']
  else if c = '\n' then ['\\', 'n']
  else if c = '\r' then ['\\', 'r']
  else if c = '\t' then ['\\', 't']
  else if c.toNat < 0x20 then
    ['\\', 'u', '0', '0', hexDigit (c.toNat / 16), hexDigit (c.toNat % 16)]
  else [c]

/-- A text between quotes. -/
def stringChars (s : String) : List Char :=
  '\x22' :: s.toList.flatMap escapedChar ++ ['\x22']

mutual

/-- The compact text of a value. -/
def chars : Json → List Char
  | null => ['n', 'u', 'l', 'l']
  | unpaired => ['\x22', '\\', 'u', 'd', '8', '0', '0', '\x22']
  | bool true => ['t', 'r', 'u', 'e']
  | bool false => ['f', 'a', 'l', 's', 'e']
  | number text => text
  | string value => stringChars value
  | array [] => ['[', ']']
  | array (item :: items) => '[' :: chars item ++ itemsChars items
  | object [] => ['\x7b', '\x7d']
  | object ((key, value) :: members) =>
    '\x7b' :: stringChars key ++ ':' :: chars value ++ membersChars members

/-- The items of an array behind the first one, and the bracket. -/
def itemsChars : List Json → List Char
  | [] => [']']
  | item :: items => ',' :: chars item ++ itemsChars items

/-- The members of an object behind the first one, and the brace. -/
def membersChars : List (String × Json) → List Char
  | [] => ['\x7d']
  | (key, value) :: members =>
    ',' :: stringChars key ++ ':' :: chars value ++ membersChars members

end

/-- The compact text of a value. -/
def render (j : Json) : String := String.ofList j.chars

/-- A double: its shortest digits, or `null` where it is not finite. -/
def ofDouble (x : Float) : Json :=
  if Double.isFinite x then number (Layout.json.chars x) else null

/-- An integer. -/
def ofInt (n : Int) : Json :=
  number ((if n < 0 then ['-'] else []) ++ Nat.toDigits 10 n.natAbs)

/-- A text, or `null` where there is none. -/
def ofText? : Option String → Json
  | some s => string s
  | none => null

end Json

end LengthFormula
