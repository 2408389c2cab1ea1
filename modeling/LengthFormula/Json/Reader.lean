import LengthFormula.Json
import LengthFormula.Text.CharClass

/-!
# Reading JSON text

`Json.read?` reads one JSON value with white space around it.  It checks the form of the text alone:
how large numbers may be and how deep values may nest is for those to say who use the value.
-/

namespace LengthFormula.Json

/-- The white space of JSON. -/
def isJsonBlank (c : Char) : Bool := c == ' ' || c == '\n' || c == '\r' || c == '\t'

/-- The text behind its leading white space. -/
def skipBlanks (cs : List Char) : List Char := cs.dropWhile isJsonBlank

/-- The value of a hexadecimal digit in either case. -/
def hexValue? (c : Char) : Option Nat :=
  if c.isDigit then some (c.toNat - '0'.toNat)
  else if 'a' ≤ c && c ≤ 'f' then some (c.toNat - 'a'.toNat + 10)
  else if 'A' ≤ c && c ≤ 'F' then some (c.toNat - 'A'.toNat + 10)
  else none

/-- The unit that four hexadecimal digits write. -/
def hexUnit? (a b c d : Char) : Option Nat :=
  match hexValue? a, hexValue? b, hexValue? c, hexValue? d with
  | some w, some x, some y, some z => some (((w * 16 + x) * 16 + y) * 16 + z)
  | _, _, _, _ => none

/-- The first half of a surrogate pair. -/
def isHighSurrogate (u : Nat) : Bool := 0xD800 ≤ u && u < 0xDC00

/-- The second half of a surrogate pair. -/
def isLowSurrogate (u : Nat) : Bool := 0xDC00 ≤ u && u < 0xE000

/-- The character of a surrogate pair. -/
def pairChar (high low : Nat) : Char :=
  Char.ofNat (0x10000 + (high - 0xD800) * 0x400 + (low - 0xDC00))

/-- The character that a letter after a backslash writes. -/
def simpleEscape? : Char → Option Char
  | '\x22' => some '\x22'
  | '\\' => some '\\'
  | '/' => some '/'
  | 'b' => some '\x08'
  | 'f' => some '\x0c'
  | 'n' => some '\n'
  | 'r' => some '\r'
  | 't' => some '\t'
  | _ => none

/-- The characters of a string behind its opening quote, in reverse behind those in `done`, and the
text behind the closing quote.  Half a surrogate pair writes no character. -/
def stringBody? (done : List Char) : List Char → Option (List Char × List Char)
  | [] => none
  | '\x22' :: rest => some (done.reverse, rest)
  | '\\' :: 'u' :: a :: b :: c :: d :: rest =>
    match hexUnit? a b c d with
    | none => none
    | some u =>
      if isHighSurrogate u then
        match rest with
        | '\\' :: 'u' :: e :: f :: g :: h :: rest =>
          match hexUnit? e f g h with
          | none => none
          | some v => if isLowSurrogate v then stringBody? (pairChar u v :: done) rest else none
        | _ => none
      else if isLowSurrogate u then none
      else stringBody? (Char.ofNat u :: done) rest
  | '\\' :: c :: rest =>
    match simpleEscape? c with
    | some e => stringBody? (e :: done) rest
    | none => none
  | c :: rest => if c.toNat < 0x20 || c == '\\' then none else stringBody? (c :: done) rest

/-- The text behind the closing quote of a string, whatever units its escapes write. -/
def skipString? : List Char → Option (List Char)
  | [] => none
  | '\x22' :: rest => some rest
  | '\\' :: 'u' :: a :: b :: c :: d :: rest =>
    if (hexUnit? a b c d).isSome then skipString? rest else none
  | '\\' :: c :: rest => if (simpleEscape? c).isSome then skipString? rest else none
  | c :: rest => if c.toNat < 0x20 || c == '\\' then none else skipString? rest

/-- A string behind its opening quote, `none` within where it holds half a surrogate pair, and the
text behind it. -/
def quotedText? (cs : List Char) : Option (Option String × List Char) :=
  match stringBody? [] cs with
  | some (s, rest) => some (some (String.ofList s), rest)
  | none => (skipString? cs).map (none, ·)

/-- The string of a text. -/
def ofQuoted : Option String → Json
  | some s => string s
  | none => unpaired

/-- The object of a list of members. -/
def ofMembers (members : List (Option String × Json)) : Json :=
  match members.mapM fun m => m.1.map (·, m.2) with
  | some members => object members
  | none => unpaired

/-- One or more digits at the front of a text. -/
def someDigits? (cs : List Char) : Option (List Char × List Char) :=
  if startsWithDigit cs then some (cs.takeWhile isDigit, cs.dropWhile isDigit) else none
where
  /-- The text starts with a digit. -/
  startsWithDigit (cs : List Char) : Bool := cs.head?.any isDigit

/-- The whole digits of a number: a zero, or digits that do not start with one. -/
def wholeDigits? : List Char → Option (List Char × List Char)
  | '0' :: rest => some (['0'], rest)
  | cs => someDigits? cs

/-- The point of a number with the digits behind it, if it has one. -/
def pointDigits? : List Char → Option (List Char × List Char)
  | '.' :: rest => (someDigits? rest).map fun (ds, rest) => ('.' :: ds, rest)
  | cs => some ([], cs)

/-- The power of ten of a number, if it has one. -/
def powerDigits? : List Char → Option (List Char × List Char)
  | [] => some ([], [])
  | mark :: cs =>
    if isExponentMark mark then
      match cs with
      | [] => none
      | sign :: rest =>
        if isSign sign then (someDigits? rest).map fun (ds, rest) => (mark :: sign :: ds, rest)
        else (someDigits? (sign :: rest)).map fun (ds, rest) => (mark :: ds, rest)
    else some ([], mark :: cs)

/-- A number without a sign at the front of a text. -/
def magnitudeText? (cs : List Char) : Option (List Char × List Char) :=
  match wholeDigits? cs with
  | none => none
  | some (whole, rest) => match pointDigits? rest with
    | none => none
    | some (part, rest) => match powerDigits? rest with
      | none => none
      | some (power, rest) => some (whole ++ part ++ power, rest)

/-- The text of a number at the front of a text. -/
def numberText? : List Char → Option (List Char × List Char)
  | '-' :: cs => (magnitudeText? cs).map fun (text, rest) => ('-' :: text, rest)
  | cs => magnitudeText? cs

mutual

/-- The value at the front of a text; `bound` is at least the number of nested steps. -/
def value? : (bound : Nat) → List Char → Option (Json × List Char)
  | 0, _ => none
  | bound + 1, cs => match skipBlanks cs with
    | 'n' :: 'u' :: 'l' :: 'l' :: rest => some (null, rest)
    | 't' :: 'r' :: 'u' :: 'e' :: rest => some (bool true, rest)
    | 'f' :: 'a' :: 'l' :: 's' :: 'e' :: rest => some (bool false, rest)
    | '\x22' :: rest => (quotedText? rest).map fun (s, rest) => (ofQuoted s, rest)
    | '[' :: rest => match skipBlanks rest with
      | ']' :: rest => some (array [], rest)
      | _ => (items? bound rest).map fun (items, rest) => (array items, rest)
    | '\x7b' :: rest => match skipBlanks rest with
      | '\x7d' :: rest => some (object [], rest)
      | _ => (members? bound rest).map fun (members, rest) => (ofMembers members, rest)
    | cs => (numberText? cs).map fun (text, rest) => (number text, rest)

/-- One or more items and the bracket behind them. -/
def items? : (bound : Nat) → List Char → Option (List Json × List Char)
  | 0, _ => none
  | bound + 1, cs => match value? bound cs with
    | none => none
    | some (item, rest) => match skipBlanks rest with
      | ',' :: rest => (items? bound rest).map fun (items, rest) => (item :: items, rest)
      | ']' :: rest => some ([item], rest)
      | _ => none

/-- One or more members and the brace behind them. -/
def members? : (bound : Nat) → List Char → Option (List (Option String × Json) × List Char)
  | 0, _ => none
  | bound + 1, cs => match skipBlanks cs with
    | '\x22' :: rest => match quotedText? rest with
      | none => none
      | some (key, rest) => match skipBlanks rest with
        | ':' :: rest => match value? bound rest with
          | none => none
          | some (value, rest) => match skipBlanks rest with
            | ',' :: rest => (members? bound rest).map fun (members, rest) =>
                ((key, value) :: members, rest)
            | '\x7d' :: rest => some ([(key, value)], rest)
            | _ => none
        | _ => none
    | _ => none

end

/-- Reads a text that holds one value, with white space around it. -/
def readChars? (cs : List Char) : Option Json :=
  match value? (2 * cs.length + 2) cs with
  | some (j, rest) => if (skipBlanks rest).isEmpty then some j else none
  | none => none

/-- Reads a text that holds one value, with white space around it. -/
def read? (s : String) : Option Json := readChars? s.toList

end LengthFormula.Json
