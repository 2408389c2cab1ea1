import LengthFormula.Proofs.Double.Comparisons
import LengthFormula.Proofs.Formula.Acceptance
import LengthFormula.Proofs.Session.Replies

/-!
# Reported results

A result is reported as an integer exactly where it is one that fits 64 bits
(`Number.ofDouble_eq_integer_iff`).  The JSON value that is written for it tells the result: a
number that is read back with the value of the result, or a word for an infinity and for what is no
number (`Number.tells_resultJson`).  So the reply to an evaluation says what the value is and is
shared just by results that are the same number (`Session.reply_evaluate`).
-/

namespace LengthFormula

namespace Double

variable {x y : Float} {n : Int}

/-- The double is finite and has the value of the integer. -/
structure IsWorth (x : Float) (n : Int) : Prop where
  finite : isFinite x = true
  value : signedUnits x = n * (unitsPerOne : Int)

/-- The doubles are the same number, as the two zeros are, or both are no number. -/
inductive SameNumber (x y : Float) : Prop
  | finite : isFinite x = true → isFinite y = true → signedUnits x = signedUnits y → SameNumber x y
  | infinite : isInfinite x = true → isInfinite y = true → isNegative x = isNegative y →
      SameNumber x y
  | nan : isNaN x = true → isNaN y = true → SameNumber x y

theorem isWorth_iff : IsWorth x n ↔ isIntegral x = true ∧ toInt x = n := by
  have hone : (unitsPerOne : Int) ≠ 0 := Int.natCast_ne_zero.2 unitsPerOne_pos.ne'
  constructor
  · rintro ⟨hfinite, hvalue⟩
    have hunits : units x = n.natAbs * unitsPerOne := by
      rw [← natAbs_signedUnits, hvalue, Int.natAbs_mul, Int.natAbs_natCast]
    have hintegral := isIntegral_of_units hfinite hunits
    rw [signedUnits_of_isIntegral hintegral] at hvalue
    exact ⟨hintegral, Int.eq_of_mul_eq_mul_right hone hvalue⟩
  · rintro ⟨hintegral, rfl⟩
    exact ⟨isFinite_of_isIntegral hintegral, signedUnits_of_isIntegral hintegral⟩

/-- The double nearest to an integer has its value where any double has. -/
theorem IsWorth.ofInt (h : IsWorth x n) : IsWorth (ofInt n) n := by
  obtain ⟨hintegral, rfl⟩ := isWorth_iff.1 h
  exact isWorth_iff.2 (ofInt_exact (magnitude_lt h.finite) (units_of_isIntegral hintegral))

end Double

/-! ## Integers and doubles -/

namespace Number

open Double

variable {x y : Float} {n : Int}

/-- The test on doubles asks for a whole number that fits 64 bits. -/
theorem ofDouble_eq (x : Float) : ofDouble x
    = if isIntegral x = true ∧ FitsInt64 (toInt x) then integer (toInt x) else real x := by
  have htest : (fract x == 0.0 && inInt64Range x) = true
      ↔ isIntegral x = true ∧ FitsInt64 (toInt x) := by
    rw [Bool.and_eq_true, fract_beq_zero_iff]
    exact and_congr_right inInt64Range_iff
  rw [ofDouble]
  by_cases h : isIntegral x = true ∧ FitsInt64 (toInt x)
  · rw [if_pos (htest.2 h), if_pos h,
      toInt64_of_isFinite (isFinite_of_isIntegral h.1) h.2.1 h.2.2]
  · rw [if_neg (fun htrue => h (htest.1 htrue)), if_neg h]

/-- A result is an integer where its value is one that fits 64 bits. -/
theorem ofDouble_eq_integer_iff : ofDouble x = integer n ↔ IsWorth x n ∧ FitsInt64 n := by
  rw [ofDouble_eq, isWorth_iff]
  split
  · next h =>
    constructor
    · intro heq
      cases heq
      exact ⟨⟨h.1, rfl⟩, h.2⟩
    · rintro ⟨⟨-, rfl⟩, -⟩
      rfl
  · next h =>
    simp only [reduceCtorEq, false_iff]
    rintro ⟨⟨hintegral, rfl⟩, hfits⟩
    exact h ⟨hintegral, hfits⟩

theorem ofDouble_eq_real (h : ∀ n, ofDouble x ≠ integer n) : ofDouble x = real x := by
  unfold ofDouble at h ⊢
  split
  · next hwhole => exact absurd (if_pos hwhole) (h _)
  · rfl

theorem ofDouble_of_isFinite_eq_false (h : isFinite x = false) : ofDouble x = real x := by
  refine ofDouble_eq_real fun n hn => ?_
  rw [(ofDouble_eq_integer_iff.1 hn).1.finite] at h
  cases h

/-- No bound of the 64-bit integers is put in the place of a result. -/
theorem toInt64_of_ofDouble (h : ofDouble x = integer n) : toInt64 x = n := by
  obtain ⟨hworth, hlower, hupper⟩ := ofDouble_eq_integer_iff.1 h
  obtain ⟨-, rfl⟩ := isWorth_iff.1 hworth
  exact toInt64_of_isFinite hworth.finite hlower hupper

/-- The same number is reported in the same way. -/
theorem resultJson_congr (h : SameNumber x y) :
    (ofDouble x).resultJson = (ofDouble y).resultJson := by
  cases h with
  | finite hx hy hvalue =>
    by_cases hzero : signedUnits x = 0
    · have hworth : ∀ z, isFinite z = true → signedUnits z = 0 → ofDouble z = integer 0 := by
        intro z hz hunits
        exact ofDouble_eq_integer_iff.2 ⟨⟨hz, by rw [hunits, Int.zero_mul]⟩, by decide⟩
      rw [hworth x hx hzero, hworth y hy (hvalue ▸ hzero)]
    · rw [eq_of_signedUnits_eq hx hy hzero hvalue]
  | infinite hx hy hsign =>
    rw [ofDouble_of_isFinite_eq_false (isFinite_eq_false_of_isInfinite hx),
      ofDouble_of_isFinite_eq_false (isFinite_eq_false_of_isInfinite hy), resultJson, resultJson,
      isNaN_eq_false_of_isInfinite hx, isNaN_eq_false_of_isInfinite hy, hx, hy, hsign]
    rfl
  | nan hx hy =>
    rw [ofDouble_of_isFinite_eq_false (isFinite_eq_false_of_isNaN hx),
      ofDouble_of_isFinite_eq_false (isFinite_eq_false_of_isNaN hy), resultJson, resultJson, hx, hy]
    rfl

end Number

/-! ## Reading results back -/

namespace Json

open Double

variable {j : Json} {x y : Float}

/-- The JSON value tells the number: a finite one by a JSON number that is read as a double of the
same value, and the others by their words. -/
structure Tells (j : Json) (x : Float) : Prop where
  finite : isFinite x = true → ∃ text y, j = number text ∧ j.asDouble? = some y ∧
    isFinite y = true ∧ signedUnits y = signedUnits x
  infinite : isInfinite x = true →
    j = string (if isNegative x then "-Infinity" else "Infinity")
  nan : isNaN x = true → j = string "NaN"

theorem Tells.ne_null (h : j.Tells x) : j ≠ null := by
  rintro rfl
  rcases isFinite_or_isInfinite_or_isNaN x with hx | hx | hx
  · obtain ⟨_, _, hnumber, -⟩ := h.finite hx
    cases hnumber
  · cases h.infinite hx
  · cases h.nan hx

/-- What tells an infinity or that there is no number is no JSON number. -/
theorem Tells.exists_string (h : j.Tells x) (hx : isFinite x = false) :
    ∃ word, j = string word := by
  rcases isFinite_or_isInfinite_or_isNaN x with hfinite | hinfinite | hnan
  · rw [hx] at hfinite
    cases hfinite
  · exact ⟨_, h.infinite hinfinite⟩
  · exact ⟨_, h.nan hnan⟩

theorem Tells.isFinite_of_isFinite (hj : j.Tells x) (hj' : j.Tells y) (hx : isFinite x = true) :
    isFinite y = true := by
  by_contra hy
  obtain ⟨text, _, hnumber, -⟩ := hj.finite hx
  obtain ⟨word, hstring⟩ := hj'.exists_string (Bool.not_eq_true _ ▸ hy)
  rw [hnumber] at hstring
  cases hstring

/-- A JSON value tells one number only. -/
theorem Tells.sameNumber (hj : j.Tells x) (hj' : j.Tells y) : SameNumber x y := by
  have hinfinity : ∀ negative : Bool,
      (if negative then "-Infinity" else "Infinity") ≠ "NaN" := by decide
  rcases isFinite_or_isInfinite_or_isNaN x with hx | hx | hx
  · have hy := hj.isFinite_of_isFinite hj' hx
    obtain ⟨_, z, -, hread, -, hvalue⟩ := hj.finite hx
    obtain ⟨_, z', -, hread', -, hvalue'⟩ := hj'.finite hy
    rw [hread, Option.some.injEq] at hread'
    exact .finite hx hy (hvalue.symm.trans (hread' ▸ hvalue'))
  · rcases isFinite_or_isInfinite_or_isNaN y with hy | hy | hy
    · have hfinite := hj'.isFinite_of_isFinite hj hy
      rw [isFinite_eq_false_of_isInfinite hx] at hfinite
      cases hfinite
    · have hword := Json.string.inj ((hj.infinite hx).symm.trans (hj'.infinite hy))
      refine .infinite hx hy ?_
      revert hword
      generalize isNegative x = a
      generalize isNegative y = b
      revert a b
      decide
    · exact absurd (Json.string.inj ((hj.infinite hx).symm.trans (hj'.nan hy))) (hinfinity _)
  · rcases isFinite_or_isInfinite_or_isNaN y with hy | hy | hy
    · have hfinite := hj'.isFinite_of_isFinite hj hy
      rw [isFinite_eq_false_of_isNaN hx] at hfinite
      cases hfinite
    · exact absurd (Json.string.inj ((hj'.infinite hy).symm.trans (hj.nan hx))) (hinfinity _)
    · exact .nan hx hy

/-- The text of an integer is read as the double nearest to it. -/
theorem asDouble?_ofInt (n : Int) :
    (ofInt n).asDouble? = (some (Double.ofInt n)).filter Double.isFinite := by
  have hdigits := Significant.isDigits_toDigits n.natAbs
  have hread := (PlainDecimal.whole hdigits).read?_eq
  rw [Nat.ofDigitChars_ten_toDigits] at hread
  obtain ⟨c, cs, hcons, hc⟩ := (PlainDecimal.whole hdigits).exists_cons
  rw [hcons] at hread
  have hmagnitude : Decimal.magnitude ⟨n.natAbs, 0⟩ = nearestMagnitude n.natAbs 1 := by
    rw [Decimal.magnitude_eq]
    simp
  have hdouble : ∀ negative, readMagnitude? negative (c :: cs)
      = some (ofMagnitude negative (nearestMagnitude n.natAbs 1)) := by
    intro negative
    rw [readMagnitude?_of_isDigit hc, hread, Option.map_some, Decimal.toDouble, hmagnitude]
  rw [ofInt, asDouble?, hcons, Double.ofInt, nearest]
  congr 1
  by_cases hn : n < 0
  · rw [if_pos hn, List.singleton_append, readDouble?, hdouble, decide_eq_true hn]
  · rw [if_neg hn, List.nil_append, readDouble?_of_isDigit hc, hdouble, decide_eq_false hn]

end Json

/-- The JSON value of a result tells the result. -/
theorem Number.tells_resultJson (x : Float) : (ofDouble x).resultJson.Tells x where
  finite := by
    intro hx
    cases hnumber : ofDouble x with
    | integer n =>
      obtain ⟨hworth, -⟩ := ofDouble_eq_integer_iff.1 hnumber
      have hread := Json.asDouble?_ofInt n
      rw [Option.filter_some, if_pos hworth.ofInt.finite] at hread
      exact ⟨_, _, rfl, hread, hworth.ofInt.finite, hworth.ofInt.value.trans hworth.value.symm⟩
    | real y =>
      have hy : y = x := by
        unfold ofDouble at hnumber
        split at hnumber
        · cases hnumber
        · exact (Number.real.inj hnumber).symm
      have hjson : (real y).resultJson = .ofDouble x := by
        rw [resultJson, hy, Double.isNaN_eq_false_of_isFinite hx,
          Double.isInfinite_eq_false_of_isFinite hx]
        rfl
      have hread := Json.asDouble?_ofDouble x
      rw [if_pos hx] at hread
      rw [hjson]
      refine ⟨Layout.json.chars x, x, ?_, hread, hx, rfl⟩
      rw [Json.ofDouble, if_pos hx]
  infinite := by
    intro hx
    rw [ofDouble_of_isFinite_eq_false (Double.isFinite_eq_false_of_isInfinite hx), resultJson,
      Double.isNaN_eq_false_of_isInfinite hx, hx]
    rfl
  nan := by
    intro hx
    rw [ofDouble_of_isFinite_eq_false (Double.isFinite_eq_false_of_isNaN hx), resultJson, hx]
    rfl

/-- The reply that tells the value of a formula, or why it has none. -/
def Reply.ofEvaluation : Except EvalError Float → Reply
  | .ok x => .result (Number.ofDouble x)
  | .error e => .failure .evaluationFailed e.message

namespace Session

open Double

theorem reply_of_evaluate {s : Session} {draws : Draws} {frame : String}
    (hframe : Command.ofFrame frame = .ok .evaluate) :
    (s.handle draws frame).reply = .ofEvaluation (s.evaluate draws).1 := by
  rw [handle_of_ok hframe, perform]
  obtain ⟨result, left⟩ := s.evaluate draws
  cases result <;> rfl

/-- The reply to an evaluation that gives `x`. -/
theorem reply_of_evaluate_ok {s : Session} {draws : Draws} {frame : String} {x : Float}
    (hframe : Command.ofFrame frame = .ok .evaluate) (hx : (s.evaluate draws).1 = .ok x) :
    (s.handle draws frame).reply = .result (Number.ofDouble x) := by
  rw [reply_of_evaluate hframe, hx]
  rfl

/-- A result is an integer exactly where it is finite, whole and in the range from `-2 ^ 63` up to
but not including `2 ^ 63`; then it is that very integer, and otherwise the double stays.  The reply
to an evaluation carries a JSON value that tells the result and is never `null`, and two evaluations
have the same reply exactly when their results are the same number. -/
theorem reply_evaluate (x : Float) :
    (∀ n, Number.ofDouble x = .integer n ↔ IsWorth x n ∧ -2 ^ 63 ≤ n ∧ n < 2 ^ 63) ∧
      (∀ n, Number.ofDouble x = .integer n → toInt64 x = n) ∧
      ((∀ n, Number.ofDouble x ≠ .integer n) → Number.ofDouble x = .real x) ∧
      ∀ (s : Session) draws frame, Command.ofFrame frame = .ok .evaluate →
        (s.evaluate draws).1 = .ok x →
        (∃ body j, (s.handle draws frame).reply.render = "RESULT_UPDATE:" ++ body ∧
          Json.read? body = some (.object [("value", j)]) ∧ j.Tells x ∧ j ≠ .null) ∧
        ∀ (s' : Session) draws' frame' y, Command.ofFrame frame' = .ok .evaluate →
          (s'.evaluate draws').1 = .ok y →
          ((s'.handle draws' frame').reply.render = (s.handle draws frame).reply.render ↔
            SameNumber x y) := by
  refine ⟨fun n => ?_, fun n => Number.toInt64_of_ofDouble, Number.ofDouble_eq_real, ?_⟩
  · rw [Number.ofDouble_eq_integer_iff, FitsInt64, minInt64, maxInt64, Int.le_sub_one_iff]
  intro s draws frame hframe hx
  have htells := Number.tells_resultJson x
  have hread : ∀ y, Json.read? (Reply.result (Number.ofDouble y)).body.render
      = some (.object [("value", (Number.ofDouble y).resultJson)]) :=
    fun y => Json.read?_render (Reply.wellFormed_body _)
  refine ⟨⟨_, _, congrArg Reply.render (reply_of_evaluate_ok hframe hx), hread x, htells,
    htells.ne_null⟩, ?_⟩
  intro s' draws' frame' y hframe' hy
  rw [reply_of_evaluate_ok hframe hx, reply_of_evaluate_ok hframe' hy]
  constructor
  · intro hrender
    have hbody : (Reply.result (Number.ofDouble y)).body.render
        = (Reply.result (Number.ofDouble x)).body.render := (String.append_right_inj _).1 hrender
    have hjson := hread x
    rw [← hbody, hread y] at hjson
    simp only [Option.some.injEq, Json.object.injEq, List.cons.injEq, Prod.mk.injEq, true_and,
      and_true] at hjson
    exact htells.sameNumber (hjson ▸ Number.tells_resultJson y)
  · intro hsame
    rw [Reply.render, Reply.render, Reply.body, Reply.body, Number.resultJson_congr hsame]
    rfl

/-- The two zeros are reported as the integer zero. -/
theorem reply_evaluate_zeros :
    Number.ofDouble (-0.0) = .integer 0 ∧
      ((initial.setText readLength? "0").1.handle (.cycle []) "EVALUATE").reply.render
        = ((initial.setText readLength? "-0").1.handle (.cycle []) "EVALUATE").reply.render := by
  have hframe : Command.ofFrame "EVALUATE" = .ok .evaluate := eq_ok_of_toOption (by decide +kernel)
  have hnegative : ((initial.setText readLength? "-0").1.evaluate (.cycle [])).1 = .ok (-0.0) :=
    eq_ok_of_toOption (by decide +kernel)
  have hpositive : ((initial.setText readLength? "0").1.evaluate (.cycle [])).1 = .ok 0.0 :=
    eq_ok_of_toOption (by decide +kernel)
  obtain ⟨hinteger, -, -, hreply⟩ := reply_evaluate (-0.0)
  refine ⟨(hinteger 0).2 ⟨⟨by decide +kernel, by decide +kernel⟩, by decide⟩, ?_⟩
  obtain ⟨-, hsame⟩ := hreply _ (.cycle []) "EVALUATE" hframe hnegative
  exact (hsame _ (.cycle []) "EVALUATE" 0.0 hframe hpositive).2
    (.finite (by decide +kernel) (by decide +kernel) (by decide +kernel))

end Session

end LengthFormula
