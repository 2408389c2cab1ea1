import LengthFormula.Proofs.Length.LetterCase
import LengthFormula.Token.Lexer

/-!
# Tokens in either letter case

Texts that differ at most in the case of letters of ASCII are cut into the same tokens at the same
bytes, or refused for one cause at the same byte; a quoted literal keeps its case (`tokenize_map`).
-/

namespace LengthFormula

/-! ## Faults -/

/-- What is no error stays when errors change. -/
theorem mapError_ok {ε δ α : Type} (f : ε → δ) (a : α) :
    (Except.ok a : Except ε α).mapError f = .ok a := rfl

/-- The cause with what it quotes of the text in small letters. -/
def ParseFault.toLower : ParseFault → ParseFault
  | invalidNumber text => invalidNumber text.toLower
  | fault => fault

/-- The error with what it quotes of the text in small letters. -/
def ParseError.toLower (e : ParseError) : ParseError := ⟨e.fault.toLower, e.position⟩

theorem ParseFault.toLower_toLower (fault : ParseFault) :
    fault.toLower.toLower = fault.toLower := by
  cases fault with
  | invalidNumber text => exact congrArg invalidNumber (LengthFormula.toLower_toLower text)
  | _ => rfl

theorem ParseError.toLower_toLower (e : ParseError) : e.toLower.toLower = e.toLower := by
  rw [toLower, toLower, ParseFault.toLower_toLower]

theorem utf8Length_map (cs : List Char) : utf8Length (cs.map Char.toLower) = utf8Length cs := by
  induction cs with
  | nil => rfl
  | cons c cs ih => rw [List.map_cons, utf8Length_cons, utf8Length_cons, letterBlind_utf8Size c, ih]

/-! ## Scanners -/

theorem opensNumber_map (cs : List Char) : opensNumber (cs.map Char.toLower) = opensNumber cs := by
  rw [opensNumber, opensNumber, letterBlind_isDigit.startsWith_map,
    letterBlind_isDot.digitAfter_map]

theorem atNumber_map (previous : Option TokenKind) (cs : List Char) :
    atNumber previous (cs.map Char.toLower) = atNumber previous cs := by
  simp only [atNumber, letterBlind_isNumberLead.startsWith_map, letterBlind_isSign.startsWith_map,
    ← List.map_tail, letterBlind_isBlank.dropWhile_map, opensNumber_map]

theorem signPart_map (cs : List Char) :
    signPart (cs.map Char.toLower) = (signPart cs).map Char.toLower := by
  simp only [signPart, letterBlind_isSign.startsWith_map, ← List.map_tail, ← List.map_take,
    letterBlind_isBlank.takeWhile_map]
  split
  · rw [List.map_append]
  · rfl

/-- What scanning a token answers, with what it takes of the text in small letters. -/
def lowerScanned : Except ParseFault (TokenKind × List Char) →
    Except ParseFault (TokenKind × List Char)
  | .ok (kind, taken) => .ok (kind, taken.map Char.toLower)
  | .error fault => .error fault.toLower

section Converter

variable {convert : Converter} (h : convert.IgnoresCase)

include h

theorem scanNumber_map (cs : List Char) :
    scanNumber convert (cs.map Char.toLower) = lowerScanned (scanNumber convert cs) := by
  unfold scanNumber
  simp only [signPart_map, List.length_map, ← List.map_drop, Literal.scan_map,
    Literal.read_toLower h, letterBlind_isMinus.startsWith_map, ← List.map_append,
    ofList_map_toLower]
  cases ((Literal.scan (cs.drop (signPart cs).length)).read convert).2 <;> rfl

theorem scanToken_map (previous : Option TokenKind) (c : Char) (cs : List Char) :
    scanToken convert previous c.toLower (cs.map Char.toLower)
      = lowerScanned (scanToken convert previous c cs) := by
  have hnumber := atNumber_map previous (c :: cs)
  have hscan := scanNumber_map h (c :: cs)
  rw [List.map_cons] at hnumber hscan
  simp only [scanToken, hnumber, hscan, letterBlind_isWord c, letterBlind_isWord.takeWhile_map]
  split
  · rfl
  · split
    · rw [← List.map_cons, ofList_map_toLower, lowerCase_toLower]
      rfl
    · next hword =>
      have hsame := toLower_of_isWord_eq_false (Bool.eq_false_iff.2 hword)
      rw [hsame]
      cases punctuation? previous c with
      | none => rfl
      | some kind => simp only [lowerScanned, List.map_cons, List.map_nil, hsame]

theorem tokenizeFrom_map (previous : Option TokenKind) (position skip : Nat) (found : List Token)
    (cs : List Char) :
    tokenizeFrom convert previous position skip found (cs.map Char.toLower)
      = (tokenizeFrom convert previous position skip found cs).mapError ParseError.toLower := by
  induction cs generalizing previous position skip found with
  | nil => rfl
  | cons c cs ih =>
    cases skip with
    | succ k =>
      rw [List.map_cons, tokenizeFrom, tokenizeFrom, letterBlind_utf8Size c]
      exact ih previous _ k found
    | zero =>
      simp only [List.map_cons, tokenizeFrom, letterBlind_isBlank c, letterBlind_utf8Size c,
        scanToken_map h]
      split
      · exact ih previous _ 0 found
      · cases scanToken convert previous c cs with
        | error fault => rfl
        | ok scanned =>
          simp only [lowerScanned, List.length_map, utf8Length_map]
          exact ih _ _ _ _

/-- Texts have the same tokens in capital and in small letters, or the same error. -/
theorem tokenize_map (cs : List Char) :
    tokenize convert (cs.map Char.toLower)
      = (tokenize convert cs).mapError ParseError.toLower :=
  tokenizeFrom_map h none 0 0 [] cs

end Converter

end LengthFormula
