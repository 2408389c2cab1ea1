import LengthFormula.Proofs.Formula.Counter
import LengthFormula.Proofs.Formula.Parsing

/-!
# The parser with its counter parses

Over the tokens of a text the cursor parser does what `parseTokens` does: it gives the same tree
with the same height and makes the same edits, or fails with the same error, and it never lacks fuel
(`Run.parsed_whole`).  The levels that are left in the one are what the counter of the other lacks
to the limit, and the list in the one is what lies at and behind the cursor of the other.
-/

namespace LengthFormula

/-- The last token is the end of the text. -/
def EndsWithFinish (tokens : List Token) : Prop :=
  ∃ init span, tokens = init ++ [⟨.finish, span⟩]

theorem EndsWithFinish.length_pos {tokens : List Token} (h : EndsWithFinish tokens) :
    0 < tokens.length := by
  obtain ⟨init, span, rfl⟩ := h
  simp

/-- The cursor has gone on within the tokens, with the counter as it was, and has made these
edits. -/
structure Cursor.Follows (tokens : List Token) (c c' : Cursor) (edits : List Edit) : Prop where
  index_le : c.place.index ≤ c'.place.index
  index_lt : c'.place.index < tokens.length
  depth_eq : c'.place.depth = c.place.depth
  edits_eq : c'.edits = c.edits ++ edits

/-- From the cursor on, a parser and a run come to the same end. -/
inductive Matches (tokens : List Token) (c : Cursor) : Parsed → Ending Node → Prop
  | done {phrase : Phrase} {rest : List Token} {c' : Cursor} :
      c.Follows tokens c' phrase.edits → tokens.drop c'.place.index = rest →
      Matches tokens c (.ok (phrase, rest)) (.done ⟨phrase.term, phrase.height⟩ c')
  | failed {error : ParseError} {c' : Cursor} : Matches tokens c (.error error) (.failed error c')

/-- With so many levels left a parser and a run agree wherever the cursor stands. -/
def Agrees (tokens : List Token) (levels : Nat) (parser : Parser) (run : Run Node) : Prop :=
  ∀ c : Cursor, c.place.index < tokens.length → c.place.depth + levels = maxDepth →
    Matches tokens c (parser (tokens.drop c.place.index)) (run c)

namespace Cursor

variable {tokens : List Token} {a b c : Cursor} {edits edits' : List Edit}

theorem Follows.trans (h : a.Follows tokens b edits) (h' : b.Follows tokens c edits') :
    a.Follows tokens c (edits ++ edits') :=
  ⟨Nat.le_trans h.index_le h'.index_le, h'.index_lt, h'.depth_eq.trans h.depth_eq, by
    rw [h'.edits_eq, h.edits_eq, List.append_assoc]⟩

/-- The tokens at and behind the cursor. -/
theorem drop_eq_cons (h : c.place.index < tokens.length) :
    tokens.drop c.place.index = c.current tokens :: tokens.drop (c.place.index + 1) := by
  have hmin : min c.place.index (tokens.length - 1) = c.place.index := by omega
  rw [List.drop_eq_getElem_cons h, current, hmin, List.getD_eq_getElem?_getD,
    List.getElem?_eq_getElem h, Option.getD_some]

theorem positionOf_drop (h : c.place.index < tokens.length) :
    positionOf (tokens.drop c.place.index) = (c.current tokens).span.start := by
  rw [drop_eq_cons h]
  rfl

/-- Only the last token is the end of the text, so behind any other there is one more. -/
theorem succ_lt_of_ne_finish (hlast : EndsWithFinish tokens) (h : c.place.index < tokens.length)
    (hkind : (c.current tokens).kind ≠ .finish) : c.place.index + 1 < tokens.length := by
  obtain ⟨init, span, rfl⟩ := hlast
  have hdrop := drop_eq_cons h
  rw [List.length_append, List.length_singleton] at h ⊢
  rcases Nat.lt_or_ge c.place.index init.length with hlt | hge
  · omega
  · have hindex : c.place.index = init.length := by omega
    rw [hindex, List.drop_left] at hdrop
    rw [← (List.cons.inj hdrop).1] at hkind
    exact absurd rfl hkind

end Cursor

/-! ## Steps -/

section Steps

variable {tokens : List Token} {b c c' : Cursor}

/-- Where both come to the same end, they can go on from there. -/
theorem Matches.andThen {p : Parsed} {ending : Ending Node} {next : Phrase → List Token → Parsed}
    {next' : Node → Run Node} (h : Matches tokens b p ending)
    (hnext : ∀ phrase c', b.Follows tokens c' phrase.edits →
      Matches tokens c (next phrase (tokens.drop c'.place.index))
        (next' ⟨phrase.term, phrase.height⟩ c')) :
    Matches tokens c (p.andThen next) (ending.andThen next') := by
  cases h with
  | done hfollows hrest => exact hrest ▸ hnext _ _ hfollows
  | failed => exact .failed

theorem matches_fail (fault : ParseFault) (h : c'.place.index < tokens.length) :
    Matches tokens c (.error (faultAt fault (tokens.drop c'.place.index)))
      (Run.fail tokens fault c') := by
  rw [faultAt, Cursor.positionOf_drop h]
  exact .failed

/-- A cursor that stands before the end of the text moves on. -/
theorem advance_apply (hlast : EndsWithFinish tokens) (h : c.place.index < tokens.length)
    (hkind : (c.current tokens).kind ≠ .finish) :
    ∃ c', Run.advance tokens c = .done () c' ∧ c.Follows tokens c' [] ∧
      c'.place.index = c.place.index + 1 := by
  have hlt := Cursor.succ_lt_of_ne_finish hlast h hkind
  refine ⟨c.goTo ⟨c.place.index + 1, c.place.depth⟩, ?_, ⟨Nat.le_succ _, hlt, rfl, ?_⟩, rfl⟩
  · simp [Run.advance, hkind]
  · simp [Cursor.goTo]

/-- Behind a required token both go on, or both fail. -/
theorem Matches.expectThen (hlast : EndsWithFinish tokens) {kind : TokenKind}
    (hkind : kind ≠ .finish) {next : List Token → Parsed} {next' : Unit → Run Node}
    (h : c'.place.index < tokens.length)
    (hnext : ∀ c'', c'.Follows tokens c'' [] →
      Matches tokens c (next (tokens.drop c''.place.index)) (next' () c'')) :
    Matches tokens c (LengthFormula.expectThen kind (tokens.drop c'.place.index) next)
      ((Run.expect tokens kind c').andThen next') := by
  by_cases hfound : (c'.current tokens).kind = kind
  · obtain ⟨c'', hadvance, hfollows, hindex⟩ := advance_apply hlast h (hfound ▸ hkind)
    have hrun : Run.expect tokens kind c' = .done () c'' := by
      simp [Run.expect, hfound, hadvance]
    have hparse : LengthFormula.expectThen kind (tokens.drop c'.place.index) next
        = next (tokens.drop c''.place.index) := by
      rw [Cursor.drop_eq_cons h, LengthFormula.expectThen, LengthFormula.expect, if_pos hfound,
        hindex]
    rw [hrun, hparse]
    exact hnext c'' hfollows
  · have hrun : Run.expect tokens kind c'
        = Run.fail tokens (.wrongToken kind (c'.current tokens).kind) c' := by
      simp [Run.expect, hfound]
    have hparse : LengthFormula.expectThen kind (tokens.drop c'.place.index) next
        = .error (faultAt (.wrongToken kind (c'.current tokens).kind)
            (tokens.drop c'.place.index)) := by
      rw [Cursor.drop_eq_cons h, LengthFormula.expectThen, LengthFormula.expect, if_neg hfound]
    rw [hrun, hparse]
    exact matches_fail _ h

/-- A tree that is not too high is let through with the cursor where it is. -/
theorem Matches.withinHeight (phrase : Phrase) {next : Phrase → List Token → Parsed}
    {next' : Node → Run Node} (h : c'.place.index < tokens.length)
    (hnext : Matches tokens c (next phrase (tokens.drop c'.place.index))
      (next' ⟨phrase.term, phrase.height⟩ c')) :
    Matches tokens c
      ((LengthFormula.withinHeight phrase (tokens.drop c'.place.index)).andThen next)
      ((Run.node tokens phrase.term phrase.height c').andThen next') := by
  by_cases hheight : maxDepth < phrase.height
  · rw [LengthFormula.withinHeight, if_pos hheight, Run.node, if_pos hheight]
    rw [faultAt, Cursor.positionOf_drop h]
    exact .failed
  · rw [LengthFormula.withinHeight, if_neg hheight, Run.node, if_neg hheight]
    exact hnext

theorem matches_node (phrase : Phrase) (h : c.Follows tokens c' phrase.edits) :
    Matches tokens c (LengthFormula.withinHeight phrase (tokens.drop c'.place.index))
      (Run.node tokens phrase.term phrase.height c') := by
  by_cases hheight : maxDepth < phrase.height
  · rw [LengthFormula.withinHeight, if_pos hheight, Run.node, if_pos hheight]
    exact matches_fail _ h.index_lt
  · rw [LengthFormula.withinHeight, if_neg hheight, Run.node, if_neg hheight]
    exact .done h rfl

end Steps

/-! ## Phrases -/

/-- One level down there is a parser that agrees with the run, or no level is left. -/
def InnerAgrees (tokens : List Token) (levels : Nat) (inner : Option Parser) (run : Run Node) :
    Prop :=
  match inner with
  | none => levels = 0
  | some parser => ∃ below, levels = below + 1 ∧ Agrees tokens below parser run

section Phrases

variable {scope : Scope} {tokens : List Token} {levels : Nat} {operand parser : Parser}
  {run body : Run Node} {inner : Option Parser}

theorem Agrees.nested {next : Parser → Parser} (h : InnerAgrees tokens levels inner run)
    (hnext : ∀ below parser, Agrees tokens below parser run →
      Agrees tokens below (next parser) body) :
    Agrees tokens levels (descend inner next) (Run.nested tokens body) := by
  intro c hindex hdepth
  cases inner with
  | none =>
    have hlimit : (maxDepth : Int) ≤ c.place.depth := by
      rw [show levels = 0 from h] at hdepth
      omega
    rw [Run.nested_of_le hlimit]
    exact matches_fail _ hindex
  | some parser =>
    obtain ⟨below, rfl, hagrees⟩ := h
    have hlimit : c.place.depth < maxDepth := by omega
    have hbody : Matches tokens (c.goTo ⟨c.place.index, c.place.depth + 1⟩)
        (next parser (tokens.drop c.place.index))
        (body (c.goTo ⟨c.place.index, c.place.depth + 1⟩)) :=
      hnext below parser hagrees _ hindex (by simp only [Cursor.goTo]; omega)
    rw [Run.nested_of_lt hlimit, descend]
    generalize next parser (tokens.drop c.place.index) = parsed at hbody ⊢
    generalize body (c.goTo ⟨c.place.index, c.place.depth + 1⟩) = ending at hbody ⊢
    cases hbody with
    | failed => exact .failed
    | @done phrase rest c' hfollows hrest =>
      have hup : c.Follows tokens (c'.goTo ⟨c'.place.index, c'.place.depth - 1⟩) phrase.edits := by
        refine ⟨hfollows.index_le, hfollows.index_lt, ?_, hfollows.edits_eq⟩
        have := hfollows.depth_eq
        simp only [Cursor.goTo] at this ⊢
        omega
      exact .done hup hrest

/-- Both go on with the sum one level down. -/
theorem Agrees.descended (h : InnerAgrees tokens levels inner run) :
    Agrees tokens levels (descend inner id) (Run.nested tokens run) :=
  .nested h fun _ _ hparser => hparser

theorem Agrees.chainFrom (hlast : EndsWithFinish tokens) {operator? : TokenKind → Option BinaryOp}
    (hfinish : operator? .finish = none) (h : Agrees tokens levels operand run) {c c' : Cursor}
    (hdepth : c.place.depth + levels = maxDepth) {bound fuel : Nat} {left : Phrase}
    (hbound : tokens.length ≤ c'.place.index + bound)
    (hfuel : tokens.length ≤ c'.place.index + fuel) (hleft : c.Follows tokens c' left.edits) :
    Matches tokens c
      (LengthFormula.chainFrom operator? operand bound left (tokens.drop c'.place.index))
      (Run.chainFrom tokens operator? run fuel ⟨left.term, left.height⟩ c') := by
  induction fuel generalizing bound left c' with
  | zero => exact absurd hleft.index_lt (by omega)
  | succ fuel ih =>
    obtain ⟨bound, rfl⟩ : ∃ n, bound = n + 1 := by
      have := hleft.index_lt
      exact ⟨bound - 1, by omega⟩
    have hdrop := Cursor.drop_eq_cons hleft.index_lt
    cases hop : operator? (c'.current tokens).kind with
    | none =>
      rw [hdrop]
      simp only [LengthFormula.chainFrom, Run.chainFrom, Run.bind_apply, Run.current_apply,
        Ending.andThen_done, hop, Run.pure_apply]
      exact .done hleft hdrop
    | some op =>
      have hkind : (c'.current tokens).kind ≠ .finish := by
        intro hkind
        rw [hkind, hfinish] at hop
        cases hop
      obtain ⟨c'', hadvance, hfollows, hindex⟩ := advance_apply hlast hleft.index_lt hkind
      have hoperand := h c'' hfollows.index_lt (by
        rw [hfollows.depth_eq, hleft.depth_eq]
        exact hdepth)
      rw [hdrop, ← hindex]
      simp only [LengthFormula.chainFrom, Run.chainFrom, Run.bind_apply, Run.current_apply,
        Ending.andThen_done, hop, hadvance]
      refine hoperand.andThen fun right d hright => ?_
      have hjoined := (hleft.trans hfollows).trans hright
      rw [List.append_nil] at hjoined
      have hbehind := hright.index_le
      exact .withinHeight (left.join op right) hjoined.index_lt
        (ih (by omega) (by omega) hjoined)

theorem Agrees.chain (hlast : EndsWithFinish tokens) {operator? : TokenKind → Option BinaryOp}
    (hfinish : operator? .finish = none) (h : Agrees tokens levels operand run) {fuel : Nat}
    (hfuel : tokens.length ≤ fuel) :
    Agrees tokens levels (LengthFormula.chain operator? operand)
      (Run.chain tokens operator? run fuel) := by
  intro c hindex hdepth
  refine (h c hindex hdepth).andThen fun first c' hfirst => ?_
  refine h.chainFrom hlast hfinish hdepth ?_ (Nat.le_add_left_of_le hfuel) hfirst
  rw [List.length_drop]
  omega

/-- The arguments of a call are parsed alike. -/
theorem Agrees.callOf (hlast : EndsWithFinish tokens) (h : Agrees tokens levels parser run)
    (name : String) :
    Agrees tokens levels (LengthFormula.callOf name parser) (Run.call tokens name run) := by
  intro c hindex hdepth
  unfold LengthFormula.callOf Run.call
  by_cases hrandom : name = Builtin.randomName
  · rw [if_pos hrandom, if_pos hrandom]
    exact .expectThen hlast (by decide) hindex fun c' hclosed => .done hclosed rfl
  · rw [if_neg hrandom, if_neg hrandom]
    by_cases hunary : (Builtin.unary? name).isSome = true
    · rw [if_pos hunary, if_pos hunary]
      refine (h c hindex hdepth).andThen fun argument c' hargument => ?_
      refine .expectThen hlast (by decide) hargument.index_lt fun c'' hclosed => ?_
      have hcall := hargument.trans hclosed
      rw [List.append_nil] at hcall
      exact matches_node (argument.called name) hcall
    · rw [if_neg hunary, if_neg hunary]
      by_cases hbinary : (Builtin.binary? name).isSome = true
      · rw [if_pos hbinary, if_pos hbinary]
        refine (h c hindex hdepth).andThen fun first c₁ hfirst => ?_
        refine .expectThen hlast (by decide) hfirst.index_lt fun c₂ hcomma => ?_
        refine (h c₂ hcomma.index_lt ?_).andThen fun second c₃ hsecond => ?_
        · rw [hcomma.depth_eq, hfirst.depth_eq]
          exact hdepth
        refine .expectThen hlast (by decide) hsecond.index_lt fun c₄ hclosed => ?_
        have hcall := ((hfirst.trans hcomma).trans hsecond).trans hclosed
        rw [List.append_nil, List.append_nil] at hcall
        exact matches_node (first.called2 name second) hcall
      · rw [if_neg hbinary, if_neg hbinary]
        exact matches_fail _ hindex

theorem matches_reference {c c' : Cursor} (scope : Scope) (name : String) (span : Span)
    (h : c.Follows tokens c' []) :
    Matches tokens c (.ok (reference scope name span, tokens.drop c'.place.index))
      (Run.reference scope name span c') :=
  .done ⟨h.index_le, h.index_lt, h.depth_eq, by
    simp only [h.edits_eq, List.append_nil]⟩ rfl

/-- What agrees further on agrees from here, if no edit is made on the way. -/
theorem Matches.of_follows {c c' : Cursor} {p : Parsed} {ending : Ending Node}
    (h : Matches tokens c' p ending) (hc' : c.Follows tokens c' []) :
    Matches tokens c p ending := by
  cases h with
  | done hfollows hrest => exact .done (hc'.trans hfollows) hrest
  | failed => exact .failed

/-- Behind a name, a parenthesis makes a call. -/
theorem matches_name (hlast : EndsWithFinish tokens) (h : InnerAgrees tokens levels inner run)
    {c c' : Cursor} {name : String} {span : Span} (hdepth : c.place.depth + levels = maxDepth)
    (hc' : c.Follows tokens c' []) :
    Matches tokens c
      (match tokens.drop c'.place.index with
        | ⟨.leftParen, _⟩ :: arguments => descend inner (callOf name) arguments
        | _ => .ok (reference scope name span, tokens.drop c'.place.index))
      ((do
        if (← Run.current tokens).kind = .leftParen then
          Run.advance tokens
          Run.nested tokens (Run.call tokens name run)
        else Run.reference scope name span : Run Node) c') := by
  have hdrop := Cursor.drop_eq_cons hc'.index_lt
  by_cases hparen : (c'.current tokens).kind = .leftParen
  · obtain ⟨c'', hadvance, hc'', hnext⟩ := advance_apply hlast hc'.index_lt (by simp [hparen])
    have hcalled : Agrees tokens levels (descend inner (callOf name))
        (Run.nested tokens (Run.call tokens name run)) :=
      .nested h fun _ _ hparser => hparser.callOf hlast name
    have hmatches := (hcalled c'' hc''.index_lt (by rw [hc''.depth_eq, hc'.depth_eq, hdepth]))
      |>.of_follows hc'' |>.of_follows hc'
    obtain ⟨⟨kind, place⟩, htoken⟩ : ∃ token, c'.current tokens = token := ⟨_, rfl⟩
    rw [htoken] at hparen hdrop
    simp only at hparen
    subst hparen
    rw [hdrop, ← hnext]
    simpa [htoken, hadvance] using hmatches
  · have hmatches := matches_reference scope name span hc'
    have hrest : (match tokens.drop c'.place.index with
        | ⟨.leftParen, _⟩ :: arguments => descend inner (callOf name) arguments
        | _ => .ok (reference scope name span, tokens.drop c'.place.index))
        = .ok (reference scope name span, tokens.drop c'.place.index) := by
      rw [hdrop]
      split
      · next heq =>
        rw [(List.cons.inj heq).1] at hparen
        exact absurd rfl hparen
      · rfl
    rw [hrest]
    simpa [hparen] using hmatches

/-- What follows a phrase one level down can be done one level down. -/
theorem descend_andThen (inner : Option Parser) (next : Phrase → List Token → Parsed)
    (rest : List Token) : (descend inner id rest).andThen next
      = descend inner (fun parser tokens => (parser tokens).andThen next) rest := by
  cases inner <;> rfl

/-- A sum in parentheses, with the closing one. -/
theorem agrees_closed (hlast : EndsWithFinish tokens) (h : Agrees tokens levels parser run) :
    Agrees tokens levels
      (fun tokens => (parser tokens).andThen fun phrase behind =>
        LengthFormula.expectThen .rightParen behind fun behind => .ok (phrase, behind))
      (do
        let result ← run
        Run.expect tokens .rightParen
        return result) := by
  intro c hindex hdepth
  refine (h c hindex hdepth).andThen fun phrase c' hphrase => ?_
  refine .expectThen hlast (by decide) hphrase.index_lt fun c'' hclosed => ?_
  have hall := hphrase.trans hclosed
  rw [List.append_nil] at hall
  exact .done hall rfl

theorem Agrees.atom (hlast : EndsWithFinish tokens) (h : InnerAgrees tokens levels inner run) :
    Agrees tokens levels (atomWith scope inner) (Run.atom scope tokens run) := by
  intro c hindex hdepth
  have hfail := fun fault => matches_fail (c := c) fault hindex
  rw [Cursor.drop_eq_cons hindex] at hfail ⊢
  by_cases hfinish : (c.current tokens).kind = .finish
  · simpa [atomWith, Run.atom, hfinish] using hfail .missingOperand
  obtain ⟨c', hadvance, hc', hnext⟩ := advance_apply hlast hindex hfinish
  have hdepth' : c'.place.depth + levels = maxDepth := by rw [hc'.depth_eq, hdepth]
  rw [← hnext] at hfail ⊢
  simp only [atomWith, Run.atom, Run.bind_apply, Run.current_apply, Ending.andThen_done]
  cases hkind : (c.current tokens).kind with
  | finish => exact absurd hkind hfinish
  | percent | star | slash | caret | comma | rightParen | doubledSign => exact hfail _
  | number value =>
    simp only [Run.bind_apply, hadvance, Ending.andThen_done]
    have hleaf : c.Follows tokens c' (Phrase.leaf (.number value)).edits := hc'
    exact .done hleaf rfl
  | name name =>
    simp only [Run.bind_apply, hadvance, Ending.andThen_done]
    exact matches_name hlast h hdepth hc'
  | minus =>
    simp only [Run.bind_apply, hadvance, Ending.andThen_done]
    have hoperand := (Agrees.descended h) c' hc'.index_lt hdepth'
    exact hoperand.andThen fun operand c'' hoperand =>
      matches_node operand.negated (hc'.trans hoperand)
  | plus =>
    simp only [Run.bind_apply, hadvance, Ending.andThen_done]
    have hoperand := (Agrees.descended h) c' hc'.index_lt hdepth'
    exact hoperand.of_follows hc'
  | leftParen =>
    simp only [Run.bind_apply, hadvance, Ending.andThen_done, descend_andThen]
    have hclosed := Agrees.nested h (fun _ _ hparser => agrees_closed hlast hparser) c' hc'.index_lt
      hdepth'
    exact hclosed.of_follows hc'

/-- With fuel for all levels and tokens, a sum is parsed alike. -/
theorem agrees_sum (hlast : EndsWithFinish tokens) {fuel : Nat}
    (hfuel : levels + tokens.length < fuel) :
    Agrees tokens levels (sumAt scope levels) (Run.sum scope tokens fuel) := by
  have hsum : ∀ {levels fuel : Nat} (inner : Option Parser),
      InnerAgrees tokens levels inner (Run.sum scope tokens fuel) → tokens.length ≤ fuel →
      Agrees tokens levels (sumOf (atomWith scope inner)) (Run.sum scope tokens (fuel + 1)) :=
    fun _ hinner hfuel =>
      (((Agrees.atom hlast hinner).chain hlast rfl hfuel).chain hlast rfl hfuel).chain hlast rfl
        hfuel
  induction levels generalizing fuel with
  | zero =>
    obtain ⟨fuel, rfl⟩ : ∃ n, fuel = n + 1 := ⟨fuel - 1, by omega⟩
    exact hsum none rfl (by omega)
  | succ below ih =>
    obtain ⟨fuel, rfl⟩ : ∃ n, fuel = n + 1 := ⟨fuel - 1, by omega⟩
    exact hsum (some (sumAt scope below)) ⟨below, rfl, ih (by omega)⟩ (by omega)

/-- A whole run gives what `parseTokens` gives. -/
theorem Run.parsed_whole (scope : Scope) (hlast : EndsWithFinish tokens) {fuel : Nat}
    (hfuel : maxDepth + tokens.length < fuel) :
    ∃ places, (Run.whole scope tokens fuel .start).parsed
      = some (parseTokens scope tokens, places) := by
  have hagrees : Matches tokens .start (sumAt scope maxDepth tokens)
      (Run.sum scope tokens fuel .start) :=
    agrees_sum hlast hfuel Cursor.start hlast.length_pos (by simp [Cursor.start])
  rw [parseTokens, Run.whole, Run.bind_apply]
  generalize sumAt scope maxDepth tokens = parsed at hagrees ⊢
  generalize Run.sum scope tokens fuel .start = ending at hagrees ⊢
  cases hagrees with
  | failed => exact ⟨_, rfl⟩
  | @done phrase rest c hfollows hrest =>
    rw [← hrest, Cursor.drop_eq_cons hfollows.index_lt]
    by_cases hfinish : (c.current tokens).kind = .finish
    · refine ⟨c.passed, ?_⟩
      simp [Ending.parsed, hfinish, hfollows.edits_eq, Cursor.start]
    · refine ⟨c.passed, ?_⟩
      simp [Ending.parsed, Run.fail, faultAt, positionOf, hfinish]

end Phrases

end LengthFormula
