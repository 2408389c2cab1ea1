import LengthFormula.Text.Blank
import LengthFormula.Text.Alphanumeric
import LengthFormula.Text.Combining
import LengthFormula.Text.LowerCase
import LengthFormula.Text.CharClass
import LengthFormula.Text.Quoted
import LengthFormula.Double.Integral
import LengthFormula.Decimal.Layout
import LengthFormula.Decimal.Reading
import LengthFormula.Length.Literal
import LengthFormula.Token.Lexer
import LengthFormula.Term.Variables
import LengthFormula.Term.Evaluation
import LengthFormula.Formula
import LengthFormula.Term.Json
import LengthFormula.Scope.Json
import LengthFormula.Session.Reply
import LengthFormula.Proofs.Token.Standing
import LengthFormula.Proofs.Formula.Acceptance
import LengthFormula.Proofs.Formula.Folding
import LengthFormula.Proofs.Formula.Translation
import LengthFormula.Proofs.Text.LowerCase
import LengthFormula.Proofs.Formula.BareNames
import LengthFormula.Proofs.Formula.PutIn
import LengthFormula.Proofs.Formula.Renaming
import LengthFormula.Proofs.Double.Bits
import LengthFormula.Proofs.Decimal.Magnitude
import LengthFormula.Proofs.Decimal.PlainText
import LengthFormula.Proofs.Length.PlainLength
import LengthFormula.Proofs.Formula.JoinedRow
import LengthFormula.Proofs.Formula.FoldedText
import LengthFormula.Proofs.Double.Negation
import LengthFormula.Proofs.Formula.WellFormed
import LengthFormula.Proofs.Formula.Nesting
import LengthFormula.Proofs.Formula.Compounds
import LengthFormula.Proofs.Length.Cutting
import LengthFormula.Proofs.Length.Scanning
import LengthFormula.Proofs.Token.OneNumber
import LengthFormula.Proofs.Formula.Stored
import LengthFormula.Proofs.Session.Consistency
import LengthFormula.Proofs.Session.Refusal
import LengthFormula.Proofs.Token.Spacing
import LengthFormula.Proofs.Formula.DepthGuard
import LengthFormula.Proofs.Formula.ScopeDependence
import LengthFormula.Proofs.Session.LetterCase
import LengthFormula.Proofs.Token.Numerals
import LengthFormula.Proofs.Formula.Pieces
import LengthFormula.Proofs.Session.Replies
import LengthFormula.Proofs.Length.Recognition
import LengthFormula.Proofs.Session.DrawsInOrder
import LengthFormula.Proofs.Term.StrictLookups
import LengthFormula.Proofs.Scope.History
import LengthFormula.Proofs.Term.FirstOccurrences
import LengthFormula.Proofs.Scope.Storage
import LengthFormula.Proofs.Term.Remainder
import LengthFormula.Proofs.Term.DivisionLaw
import LengthFormula.Proofs.Formula.WrittenValue
import LengthFormula.Proofs.Session.FixedMarks
import LengthFormula.Proofs.Formula.ErrorPositions
