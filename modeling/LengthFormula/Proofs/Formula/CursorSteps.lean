import LengthFormula.Proofs.Formula.CursorParsing
import LengthFormula.Proofs.Formula.Fuel
import Mathlib.Logic.Relation

/-!
# The cursor keeps within the tokens

The parser moves its cursor by steps (`Cursor.Step`), and no step leads past the end of the text or
back.  So wherever the cursor comes through it stands within the tokens, and it has moved past each
token in front of it once (`Cursor.OnTrack.steps`).

What each part of the parser does is said by `Run.Proceeds`: with fuel for the tokens that are left
it comes to an end, by steps, and if it is done it has moved past so many tokens at least.  Phrases
move past one (`Run.proceeds_phrase`).  A chain and the recursion go on behind a token that was
moved past, where one less is left (`Run.Proceeds.past`), so the tokens bound both
(`Run.parsed_of_length_lt`).
-/

namespace LengthFormula

/-- The tokens that were moved past between these places, in order; the last place comes first. -/
def movedPast : List Place → List Nat
  | later :: earlier :: places =>
    movedPast (earlier :: places) ++ List.range' earlier.index (later.index - earlier.index)
  | _ => []

namespace Cursor

/-- A step of the parser: past a token that is not the end of the text, to another level, or on the
spot with edits made. -/
inductive Step (tokens : List Token) (c : Cursor) : Cursor → Prop
  | past : (c.current tokens).kind ≠ .finish →
      Step tokens c (c.goTo ⟨c.place.index + 1, c.place.depth⟩)
  | level (depth : Int) : Step tokens c (c.goTo ⟨c.place.index, depth⟩)
  | edit (edits : List Edit) : Step tokens c { c with edits := c.edits ++ edits }

/-- Any number of steps. -/
def Steps (tokens : List Token) : Cursor → Cursor → Prop := Relation.ReflTransGen (Step tokens)

/-- The cursor stands within the tokens, now and at all places that it has come through, and it has
moved past each token in front of it once, in order. -/
structure OnTrack (tokens : List Token) (c : Cursor) : Prop where
  head?_passed : c.passed.head? = some c.place
  index_lt : ∀ place ∈ c.passed, place.index < tokens.length
  movedPast_eq : movedPast c.passed = List.range c.place.index

variable {tokens : List Token} {c c' : Cursor}

theorem onTrack_start (hlast : EndsWithFinish tokens) : start.OnTrack tokens where
  head?_passed := rfl
  index_lt := by simpa [start] using hlast.length_pos
  movedPast_eq := rfl

/-- Going on from the last place to one behind it adds the tokens in between. -/
theorem OnTrack.goTo (h : c.OnTrack tokens) {place : Place} (hle : c.place.index ≤ place.index)
    (hlt : place.index < tokens.length) : (c.goTo place).OnTrack tokens := by
  obtain ⟨hhead, hindex, hpast⟩ := h
  obtain ⟨places, hpassed⟩ := List.head?_eq_some_iff.1 hhead
  refine ⟨rfl, List.forall_mem_cons.2 ⟨hlt, hindex⟩, ?_⟩
  rw [hpassed] at hpast
  have hjoin := @List.range'_append_1 0 c.place.index (place.index - c.place.index)
  rw [Nat.zero_add, Nat.add_sub_cancel' hle] at hjoin
  simp only [Cursor.goTo, hpassed, movedPast, hpast, List.range_eq_range', hjoin]

theorem Step.index_le (h : c.Step tokens c') : c.place.index ≤ c'.place.index := by
  cases h with
  | past => exact Nat.le_succ _
  | level | edit => exact Nat.le_refl _

/-- No step leads past the end of the text. -/
theorem Step.index_lt (hlast : EndsWithFinish tokens) (h : c.Step tokens c')
    (hindex : c.place.index < tokens.length) : c'.place.index < tokens.length := by
  cases h with
  | past hkind => exact succ_lt_of_ne_finish hlast hindex hkind
  | level | edit => exact hindex

/-- A step keeps the cursor on track. -/
theorem OnTrack.step (hlast : EndsWithFinish tokens) (h : c.OnTrack tokens)
    (hstep : c.Step tokens c') : c'.OnTrack tokens := by
  have hindex := h.index_lt c.place (List.mem_of_head? h.head?_passed)
  have hle := hstep.index_le
  have hlt := hstep.index_lt hlast hindex
  cases hstep with
  | past | level => exact h.goTo hle hlt
  | edit => exact ⟨h.head?_passed, h.index_lt, h.movedPast_eq⟩

/-- So do any number of steps. -/
theorem OnTrack.steps (hlast : EndsWithFinish tokens) (h : c.OnTrack tokens)
    (hsteps : c.Steps tokens c') : c'.OnTrack tokens := by
  induction hsteps with
  | refl => exact h
  | tail _ hstep ih => exact ih.step hlast hstep

theorem Steps.index_lt (hlast : EndsWithFinish tokens) (h : c.Steps tokens c')
    (hindex : c.place.index < tokens.length) : c'.place.index < tokens.length := by
  induction h with
  | refl => exact hindex
  | tail _ hstep ih => exact hstep.index_lt hlast ih

/-- The current token is one of the tokens. -/
theorem current_mem (h : c.place.index < tokens.length) : c.current tokens ∈ tokens := by
  have hmem : c.current tokens ∈ tokens.drop c.place.index := by
    rw [drop_eq_cons h]
    exact List.mem_cons_self
  exact List.mem_of_mem_drop hmem

end Cursor

/-- The run from the cursor `c` came to an end by steps.  If it is done it moved past `least` tokens
at least, and if it failed, it did so at the current token and not because the tokens ran out. -/
def Ending.Proceeds {α : Type} (tokens : List Token) (least : Nat) (c : Cursor) : Ending α → Prop
  | .done _ c' => c.Steps tokens c' ∧ c.place.index + least ≤ c'.place.index
  | .failed error c' =>
    c.Steps tokens c' ∧ error.fault ≠ .pastFinish ∧
      error.position = (c'.current tokens).span.start
  | .exhausted => False

/-- The part of the parser proceeds wherever it starts within the tokens, if at most `bound` of them
are left. -/
def Run.Proceeds {α : Type} (tokens : List Token) (bound least : Nat) (run : Run α) : Prop :=
  ∀ c : Cursor, c.place.index < tokens.length → tokens.length ≤ c.place.index + bound →
    (run c).Proceeds tokens least c

namespace Ending.Proceeds

variable {α β : Type} {tokens : List Token} {least least' : Nat} {c c' : Cursor}
  {ending : Ending α} {next : α → Run β}

/-- What proceeds from further on proceeds from here. -/
theorem of_steps (h : ending.Proceeds tokens least' c') (hsteps : c.Steps tokens c')
    (hle : c.place.index + least ≤ c'.place.index + least') : ending.Proceeds tokens least c := by
  cases ending with
  | done result c'' => exact ⟨hsteps.trans h.1, Nat.le_trans hle h.2⟩
  | failed error c'' => exact ⟨hsteps.trans h.1, h.2⟩
  | exhausted => exact h

/-- What follows a part that proceeds may move past more tokens. -/
theorem andThen (h : ending.Proceeds tokens least c)
    (hnext : ∀ result c', c.Steps tokens c' → c.place.index + least ≤ c'.place.index →
      (next result c').Proceeds tokens 0 c') : (ending.andThen next).Proceeds tokens least c := by
  cases ending with
  | done result c' => exact (hnext result c' h.1 h.2).of_steps h.1 h.2
  | failed error c' => exact h
  | exhausted => exact h

end Ending.Proceeds

namespace Run

/-! ## Steps -/

section Steps

variable {α β : Type} {tokens : List Token} {bound bound' least least' : Nat} {run : Run α}
  {next : α → Run β}

theorem Proceeds.mono (h : run.Proceeds tokens bound least) (hbound : bound' ≤ bound)
    (hleast : least' ≤ least) : run.Proceeds tokens bound' least' := by
  intro c hindex hleft
  have hle : c.place.index + least' ≤ c.place.index + least := Nat.add_le_add_left hleast _
  exact (h c hindex (by omega)).of_steps .refl hle

/-- What moves past so many tokens at least, moves past none at least. -/
theorem Proceeds.any (h : run.Proceeds tokens bound least) : run.Proceeds tokens bound 0 :=
  h.mono (Nat.le_refl _) (Nat.zero_le _)

/-- Wherever the cursor stands within the tokens, at least one of them is left. -/
theorem proceeds_zero (run : Run α) : run.Proceeds tokens 0 least :=
  fun _ hindex hbound => absurd hindex (Nat.not_lt.2 hbound)

theorem proceeds_pure (result : α) : (pure result : Run α).Proceeds tokens bound 0 :=
  fun _ _ _ => ⟨.refl, Nat.le_refl _⟩

theorem proceeds_fail {fault : ParseFault} (h : fault ≠ .pastFinish) :
    (fail tokens fault : Run α).Proceeds tokens bound least :=
  fun _ _ _ => ⟨.refl, h, rfl⟩

/-- Parts proceed one after the other; fewer tokens are left for the second one. -/
theorem Proceeds.bind (hlast : EndsWithFinish tokens) (h : run.Proceeds tokens bound least)
    (hnext : ∀ result, (next result).Proceeds tokens bound 0) :
    (run >>= next).Proceeds tokens bound least := by
  intro c hindex hbound
  refine (h c hindex hbound).andThen fun result c' hsteps hle => ?_
  exact hnext result c' (hsteps.index_lt hlast hindex) (by omega)

theorem Proceeds.ite {condition : Prop} [Decidable condition] {yes no : Run α}
    (hyes : yes.Proceeds tokens bound least) (hno : no.Proceeds tokens bound least) :
    (if condition then yes else no).Proceeds tokens bound least := by
  by_cases h : condition
  · rwa [if_pos h]
  · rwa [if_neg h]

theorem proceeds_advance {c : Cursor} (h : (c.current tokens).kind ≠ .finish) :
    (advance tokens c).Proceeds tokens 1 c := by
  have hrun : advance tokens c = .done () (c.goTo ⟨c.place.index + 1, c.place.depth⟩) := by
    simp [advance, h]
  rw [hrun]
  exact ⟨.single (.past h), Nat.le_refl _⟩

/-- Behind a token that was moved past one token less is left. -/
theorem Proceeds.past (hlast : EndsWithFinish tokens) {next : Unit → Run α}
    (h : (next ()).Proceeds tokens bound 0) {c : Cursor} (hindex : c.place.index < tokens.length)
    (hbound : tokens.length ≤ c.place.index + (bound + 1))
    (hkind : (c.current tokens).kind ≠ .finish) (hleast : least ≤ 1) :
    ((advance tokens >>= next) c).Proceeds tokens least c := by
  have hproceeds : ((advance tokens >>= next) c).Proceeds tokens 1 c :=
    (proceeds_advance hkind).andThen fun _ c' hsteps hle =>
      h c' (hsteps.index_lt hlast hindex) (by omega)
  exact hproceeds.of_steps .refl (Nat.add_le_add_left hleast _)

theorem proceeds_expect {kind : TokenKind} (h : kind ≠ .finish) :
    (expect tokens kind).Proceeds tokens bound 1 := by
  intro c hindex hbound
  by_cases hfound : (c.current tokens).kind = kind
  · have hrun : expect tokens kind c = advance tokens c := by simp [expect, hfound]
    rw [hrun]
    exact proceeds_advance (hfound ▸ h)
  · have hrun : expect tokens kind c
        = fail tokens (.wrongToken kind (c.current tokens).kind) c := by simp [expect, hfound]
    rw [hrun]
    exact proceeds_fail (by simp) c hindex hbound

theorem proceeds_node (term : Term) (height : Nat) :
    (node tokens term height).Proceeds tokens bound 0 :=
  .ite (proceeds_fail (by simp)) (proceeds_pure _)

/-- One level down a part proceeds as on its own. -/
theorem Proceeds.nested {body : Run Node} (h : body.Proceeds tokens bound least) :
    (Run.nested tokens body).Proceeds tokens bound least := by
  intro c hindex hbound
  by_cases hlimit : (maxDepth : Int) ≤ c.place.depth
  · rw [nested_of_le hlimit]
    exact proceeds_fail (by simp) c hindex hbound
  · rw [nested_of_lt (Int.not_le.1 hlimit)]
    have hdown : c.Steps tokens (c.goTo ⟨c.place.index, c.place.depth + 1⟩) := .single (.level _)
    have hup : ∀ (result : Node) (c' : Cursor),
        ((do ascend; return result : Run Node) c').Proceeds tokens 0 c' :=
      fun _ _ => ⟨.single (.level _), Nat.le_refl _⟩
    have hbody := h (c.goTo ⟨c.place.index, c.place.depth + 1⟩) hindex hbound
    exact (hbody.andThen fun result c' _ _ => hup result c').of_steps hdown (Nat.le_refl _)

end Steps

/-! ## Phrases -/

section Phrases

variable {scope : Scope} {tokens : List Token} {operator? : TokenKind → Option BinaryOp}
  {operand inner : Run Node} {bound fuel : Nat}

theorem proceeds_reference (name : String) (span : Span) :
    (reference scope name span).Proceeds tokens bound 0 :=
  fun _ _ _ => ⟨.single (.edit _), Nat.le_refl _⟩

/-- A chain ends, because every operator in it is a token that is moved past. -/
theorem Proceeds.chainFrom (hlast : EndsWithFinish tokens) (hfinish : operator? .finish = none)
    (h : operand.Proceeds tokens fuel 1) (left : Node) :
    (Run.chainFrom tokens operator? operand fuel left).Proceeds tokens fuel 0 := by
  induction fuel generalizing left with
  | zero => exact proceeds_zero _
  | succ fuel ih =>
    intro c hindex hbound
    have hoperand := h.mono (Nat.le_succ fuel) (Nat.le_refl 1)
    rw [Run.chainFrom, bind_apply, current_apply, Ending.andThen_done]
    cases hop : operator? (c.current tokens).kind with
    | none => exact proceeds_pure left c hindex hbound
    | some op =>
      have hkind : (c.current tokens).kind ≠ .finish := by
        intro hkind
        rw [hkind, hfinish] at hop
        cases hop
      refine Proceeds.past hlast ?_ hindex hbound hkind (Nat.zero_le 1)
      exact (hoperand.bind hlast fun right => (proceeds_node _ _).bind hlast (ih hoperand)).any

theorem Proceeds.chain (hlast : EndsWithFinish tokens) (hfinish : operator? .finish = none)
    (h : operand.Proceeds tokens fuel 1) :
    (Run.chain tokens operator? operand fuel).Proceeds tokens fuel 1 :=
  h.bind hlast fun first => h.chainFrom hlast hfinish first

/-- The arguments of a call proceed. -/
theorem Proceeds.call (hlast : EndsWithFinish tokens) (h : inner.Proceeds tokens bound 1)
    (name : String) : (Run.call tokens name inner).Proceeds tokens bound 1 := by
  have hexpect : ∀ {kind : TokenKind}, kind ≠ .finish → ∀ {rest : Unit → Run Node},
      (rest ()).Proceeds tokens bound 0 → (expect tokens kind >>= rest).Proceeds tokens bound 1 :=
    fun hkind _ hrest => (proceeds_expect hkind).bind hlast fun _ => hrest
  refine .ite ?_ (.ite ?_ (.ite ?_ (proceeds_fail (by simp))))
  · exact hexpect (by decide) (proceeds_pure _)
  · exact h.bind hlast fun argument => (hexpect (by decide) (proceeds_node _ _)).any
  · exact h.bind hlast fun first => (hexpect (by decide) (h.bind hlast fun second =>
      (hexpect (by decide) (proceeds_node _ _)).any).any).any

/-- A sum in parentheses proceeds, with the closing one. -/
theorem Proceeds.closed (hlast : EndsWithFinish tokens) (h : inner.Proceeds tokens bound 1) :
    Proceeds tokens bound 1 (do
      let result ← inner
      expect tokens .rightParen
      return result) :=
  h.bind hlast fun _ =>
    ((proceeds_expect (by decide)).bind hlast fun _ => proceeds_pure _).any

/-- What is behind a name proceeds, whether it is the arguments of a call or not. -/
theorem Proceeds.name (hlast : EndsWithFinish tokens) (h : inner.Proceeds tokens bound 1)
    (name : String) (span : Span) :
    Proceeds tokens bound 0 (do
      if (← current tokens).kind = .leftParen then
        advance tokens
        Run.nested tokens (Run.call tokens name inner)
      else reference scope name span) := by
  intro c hindex hbound
  rw [bind_apply, current_apply, Ending.andThen_done]
  by_cases hparen : (c.current tokens).kind = .leftParen
  · rw [if_pos hparen]
    have hcall := ((h.call hlast name).nested).any
    exact hcall.past hlast hindex (Nat.le_succ_of_le hbound) (by simp [hparen]) (Nat.zero_le 1)
  · rw [if_neg hparen]
    exact proceeds_reference name span c hindex hbound

/-- An atom moves past its first token, and what is one level down goes on behind that. -/
theorem Proceeds.atom (hlast : EndsWithFinish tokens) (h : inner.Proceeds tokens bound 1) :
    (Run.atom scope tokens inner).Proceeds tokens (bound + 1) 1 := by
  intro c hindex hbound
  rw [Run.atom, bind_apply, current_apply, Ending.andThen_done]
  by_cases hfinish : (c.current tokens).kind = .finish
  · rw [hfinish]
    exact proceeds_fail (by simp) c hindex hbound
  have hpast : ∀ {next : Unit → Run Node}, (next ()).Proceeds tokens bound 0 →
      ((advance tokens >>= next) c).Proceeds tokens 1 c :=
    fun hnext => hnext.past hlast hindex hbound hfinish (Nat.le_refl 1)
  cases hkind : (c.current tokens).kind with
  | finish => exact absurd hkind hfinish
  | percent | star | slash | caret | comma | rightParen | doubledSign =>
    exact proceeds_fail (by simp) c hindex hbound
  | number value => exact hpast (proceeds_pure _)
  | name name => exact hpast (h.name hlast name _)
  | minus => exact hpast (h.nested.bind hlast fun _ => proceeds_node _ _).any
  | plus => exact hpast h.nested.any
  | leftParen => exact hpast (h.closed hlast).nested.any

/-- The phrases of every rank proceed. -/
theorem proceeds_phrase (hlast : EndsWithFinish tokens) (fuel : Nat) (r : Rank) :
    (phrase scope tokens (sum scope tokens fuel) fuel r).Proceeds tokens fuel 1 := by
  induction fuel generalizing r with
  | zero => exact proceeds_zero _
  | succ fuel ih =>
    -- one level down the fuel is one less, and so are the tokens that are left there
    have hatom :
        (Run.atom scope tokens (sum scope tokens (fuel + 1))).Proceeds tokens (fuel + 1) 1 :=
      (ih (.chain .sum)).atom hlast
    match r with
    | .atom => exact hatom
    | .chain .power => exact hatom.chain hlast rfl
    | .chain .product => exact (hatom.chain hlast rfl).chain hlast rfl
    | .chain .sum => exact ((hatom.chain hlast rfl).chain hlast rfl).chain hlast rfl

/-- With more fuel than tokens a whole run proceeds. -/
theorem proceeds_whole (scope : Scope) (hlast : EndsWithFinish tokens)
    (hfuel : tokens.length < fuel) : (whole scope tokens fuel .start).Proceeds tokens 1 .start := by
  obtain ⟨fuel, rfl⟩ : ∃ n, fuel = n + 1 := ⟨fuel - 1, by omega⟩
  have hsum : (sum scope tokens (fuel + 1) .start).Proceeds tokens 1 .start :=
    proceeds_phrase hlast fuel (.chain .sum) .start hlast.length_pos (by omega)
  refine hsum.andThen fun result c _ _ => ?_
  rw [bind_apply, current_apply, Ending.andThen_done]
  by_cases hfinish : (c.current tokens).kind = .finish
  · rw [if_pos hfinish]
    exact ⟨.refl, Nat.le_refl _⟩
  · rw [if_neg hfinish]
    exact ⟨.refl, by simp, rfl⟩

/-- With more fuel than tokens a whole run parses. -/
theorem parsed_of_length_lt (scope : Scope) (hlast : EndsWithFinish tokens)
    (hfuel : tokens.length < fuel) :
    ∃ places,
      (whole scope tokens fuel .start).parsed = some (parseTokens scope tokens, places) := by
  have hends : whole scope tokens fuel .start ≠ .exhausted := by
    intro hexhausted
    have hproceeds := proceeds_whole scope hlast hfuel
    rw [hexhausted] at hproceeds
    exact hproceeds
  obtain ⟨places, hparsed⟩ := parsed_whole scope hlast (Nat.lt_add_left fuel (Nat.lt_succ_self _))
  rw [whole_eq_of_le hends (Nat.le_add_right _ _)] at hparsed
  exact ⟨places, hparsed⟩

/-- Wherever the cursor comes through in a whole run, it is on track. -/
theorem onTrack_of_parsed (hlast : EndsWithFinish tokens) (hfuel : tokens.length < fuel)
    {result : Except ParseError Phrase} {places : List Place}
    (h : (whole scope tokens fuel .start).parsed = some (result, places)) :
    ∃ c : Cursor, c.passed = places ∧ c.OnTrack tokens := by
  have hproceeds := proceeds_whole scope hlast hfuel
  cases hrun : whole scope tokens fuel .start with
  | done node c | failed error c =>
    rw [hrun] at h hproceeds
    cases h
    exact ⟨c, rfl, (Cursor.onTrack_start hlast).steps hlast hproceeds.1⟩
  | exhausted =>
    rw [hrun] at h
    cases h

/-- Where the tokens are refused, the fault lies at one of them, and it is not that they ran out. -/
theorem fault_at_token {e : ParseError} (hlast : EndsWithFinish tokens)
    (h : parseTokens scope tokens = .error e) :
    e.fault ≠ .pastFinish ∧ ∃ token ∈ tokens, e.position = token.span.start := by
  have hfuel := Nat.lt_succ_self tokens.length
  obtain ⟨places, hparsed⟩ := parsed_of_length_lt scope hlast hfuel
  have hproceeds := proceeds_whole scope hlast hfuel
  rw [h] at hparsed
  cases hrun : whole scope tokens (tokens.length + 1) .start with
  | failed error c =>
    rw [hrun] at hparsed hproceeds
    cases hparsed
    obtain ⟨hsteps, hfault, hposition⟩ := hproceeds
    exact ⟨hfault, _, Cursor.current_mem (hsteps.index_lt hlast hlast.length_pos), hposition⟩
  | done node c | exhausted =>
    rw [hrun] at hparsed
    cases hparsed

/-- The cursor keeps within the tokens.  Over tokens that end with the end of the text a whole run
with more fuel than tokens parses.  At every place that it comes through it stands within the
tokens, and what it has moved past at last are the tokens in front of it, each once and in order.
It never fails because the tokens ran out.  And a phrase of any rank, wherever it is parsed, comes
to an end with fuel for the tokens that are left, and has moved past one of them if it is parsed. -/
theorem keeps_within_tokens (scope : Scope) {tokens : List Token} (h : EndsWithFinish tokens) :
    (∀ fuel, tokens.length < fuel → ∃ places last,
        (whole scope tokens fuel .start).parsed = some (parseTokens scope tokens, places) ∧
          (∀ place ∈ places, place.index < tokens.length) ∧
          places.head? = some last ∧ movedPast places = List.range last.index) ∧
      (∀ e, parseTokens scope tokens = .error e → e.fault ≠ .pastFinish) ∧
      ∀ fuel r, (phrase scope tokens (sum scope tokens fuel) fuel r).Proceeds tokens fuel 1 := by
  refine ⟨fun fuel hfuel => ?_, fun e he => (fault_at_token h he).1,
    fun fuel r => proceeds_phrase h fuel r⟩
  obtain ⟨places, hparsed⟩ := parsed_of_length_lt scope h hfuel
  obtain ⟨c, rfl, hhead, hindex, hpast⟩ := onTrack_of_parsed h hfuel hparsed
  exact ⟨c.passed, c.place, hparsed, hindex, hhead, hpast⟩

/-- The tokens of `max(1,` end where an operand is required.  Fuel for six tokens suffices, and the
cursor has moved past the four in front of the end. -/
theorem keeps_within_tokens_call :
    ∃ places last, (whole .empty [⟨.name "max", ⟨0, 3⟩⟩, ⟨.leftParen, ⟨3, 4⟩⟩, ⟨.number 1, ⟨4, 5⟩⟩,
        ⟨.comma, ⟨5, 6⟩⟩, ⟨.finish, ⟨6, 6⟩⟩] 6 .start).parsed
          = some (.error ⟨.missingOperand, 6⟩, places) ∧
      (∀ place ∈ places, place.index < 5) ∧ places.head? = some last ∧
        movedPast places = List.range last.index := by
  have hlast : EndsWithFinish [⟨.name "max", ⟨0, 3⟩⟩, ⟨.leftParen, ⟨3, 4⟩⟩, ⟨.number 1, ⟨4, 5⟩⟩,
      ⟨.comma, ⟨5, 6⟩⟩, ⟨.finish, ⟨6, 6⟩⟩] :=
    ⟨[⟨.name "max", ⟨0, 3⟩⟩, ⟨.leftParen, ⟨3, 4⟩⟩, ⟨.number 1, ⟨4, 5⟩⟩, ⟨.comma, ⟨5, 6⟩⟩], _, rfl⟩
  exact (keeps_within_tokens .empty hlast).1 6 (by decide)

end Phrases

end Run

end LengthFormula
