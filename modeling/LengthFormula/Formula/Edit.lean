import LengthFormula.Token

/-!
# Edits of a text

An edit replaces the bytes of a span.  `applyEdits` makes a list of edits, in ascending order and
apart from each other, in one pass over the text.
-/

namespace LengthFormula

/-- The replacement of a span of a text. -/
structure Edit where
  span : Span
  replacement : String
  deriving DecidableEq, Repr

/-- How many characters at the front of a text start within its first `bytes` bytes, counted on from
`count`. -/
def charsWithin (count : Nat) : Nat → List Char → Nat
  | 0, _ => count
  | _, [] => count
  | bytes + 1, c :: cs => charsWithin (count + 1) (bytes + 1 - c.utf8Size) cs

/-- The first `bytes` bytes of a text. -/
def takeBytes (bytes : Nat) (cs : List Char) : List Char := cs.take (charsWithin 0 bytes cs)

/-- The text behind its first `bytes` bytes. -/
def dropBytes (bytes : Nat) (cs : List Char) : List Char := cs.drop (charsWithin 0 bytes cs)

/-- Makes the edits on the rest of a text that starts at the byte `position`. -/
def applyEdits (position : Nat) (cs : List Char) : List Edit → List Char
  | [] => cs
  | edit :: edits =>
    takeBytes (edit.span.start - position) cs ++ edit.replacement.toList
      ++ applyEdits edit.span.stop (dropBytes (edit.span.stop - position) cs) edits

@[simp]
theorem applyEdits_nil (position : Nat) (cs : List Char) : applyEdits position cs [] = cs := rfl

/-- Taking and dropping the same bytes gives the text back. -/
theorem takeBytes_append_dropBytes (bytes : Nat) (cs : List Char) :
    takeBytes bytes cs ++ dropBytes bytes cs = cs :=
  List.take_append_drop _ _

end LengthFormula
