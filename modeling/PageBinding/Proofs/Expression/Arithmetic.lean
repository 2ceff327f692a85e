import Mathlib.Tactic.Linarith
import PageBinding.Expression.Evaluate
import PageBinding.Proofs.Expression.Resolved

/-!
This module contains the arithmetic of integers: what an expression of whole numbers denotes, step
by step and without any rounding, and that evaluation comes to exactly that. It ends at the first
division by zero. Only a division that leaves a remainder goes on with floating point numbers.
-/

namespace PageBinding

/--
The remainder of the division that truncates: smaller than the divisor, and with the sign of the
dividend.
-/
structure IsRemainder (i j r : Int) : Prop where
  eq : ∃ q, i = q * j + r
  lt : r.natAbs < j.natAbs
  nonneg : 0 ≤ i → 0 ≤ r
  nonpos : i ≤ 0 → r ≤ 0

namespace IsRemainder

variable {i j r : Int}

theorem ne_zero (h : IsRemainder i j r) : j ≠ 0 := by
  have hlt := h.lt
  omega

theorem tmod (hj : j ≠ 0) (i : Int) : IsRemainder i j (i.tmod j) := by
  constructor
  . exact ⟨i.tdiv j, (Int.tdiv_mul_add_tmod i j).symm⟩
  . rw [Int.natAbs_tmod]
    exact Nat.mod_lt _ (Int.natAbs_pos.mpr hj)
  . exact Int.tmod_nonneg j
  . intro hi
    have hneg := Int.tmod_nonneg j (show 0 ≤ -i by omega)
    rw [Int.neg_tmod] at hneg
    omega

theorem eq_tmod (h : IsRemainder i j r) : r = i.tmod j := by
  have htmod := tmod h.ne_zero i
  obtain ⟨q, hq⟩ := h.eq
  obtain ⟨q', hq'⟩ := htmod.eq
  have hdvd : j ∣ r - i.tmod j := ⟨q' - q, by linarith⟩
  have hlt : (r - i.tmod j).natAbs < j.natAbs := by
    have hr := h.lt
    have htmodLt := htmod.lt
    rcases Int.le_total 0 i with hi | hi
    . have hnonneg := h.nonneg hi
      have htmodNonneg := htmod.nonneg hi
      omega
    . have hnonpos := h.nonpos hi
      have htmodNonpos := htmod.nonpos hi
      omega
  have hzero := Int.eq_zero_of_dvd_of_natAbs_lt_natAbs hdvd hlt
  omega

end IsRemainder

namespace Number

theorem div_int {j : Int} (hj : j ≠ 0) (k : Int) :
    Number.div (.int (k * j)) (.int j) = .ok (.int k) := by
  have hzero : (Number.int j).isZero = false := decide_eq_false hj
  have hmod : k * j % j = 0 := Int.mul_emod_left k j
  simp only [Number.div, hzero, Bool.false_eq_true, if_false, hmod, if_true,
    Int.mul_ediv_cancel k hj]

theorem mod_int {i j r : Int} (h : IsRemainder i j r) :
    Number.mod (.int i) (.int j) = .ok (.int r) := by
  have hzero : (Number.int j).isZero = false := decide_eq_false h.ne_zero
  simp only [Number.mod, hzero, Bool.false_eq_true, if_false, h.eq_tmod]

end Number

namespace Expression

inductive UnaryOp.Gives : UnaryOp → Int → Int → Prop where
  | plus (i : Int) : Gives .plus i i
  | minus (i : Int) : Gives .minus i (-i)

/--
What an operator makes of two integers, where that is an integer. There is none for a division by
zero and for a quotient that is not whole.
-/
inductive BinaryOp.Gives : BinaryOp → Int → Int → Int → Prop where
  | add (i j : Int) : Gives .add i j (i + j)
  | sub (i j : Int) : Gives .sub i j (i - j)
  | mul (i j : Int) : Gives .mul i j (i * j)
  | div {i j k : Int} : j ≠ 0 → i = k * j → Gives .div i j k
  | mod {i j r : Int} : IsRemainder i j r → Gives .mod i j r

def BinaryOp.DividesByZero (op : BinaryOp) (_ j : Int) : Prop :=
  op ∈ [.div, .mod] ∧ j = 0

def BinaryOp.DividesUnevenly (op : BinaryOp) (i j : Int) : Prop :=
  op = .div ∧ j ≠ 0 ∧ ¬ j ∣ i

/--
A numeral of decimal digits only, and of no more than are converted to an integer.
-/
structure Token.IsInteger (token : Token) : Prop where
  digits : token.text.all CodePoint.isDecimal = true
  length : token.text.length ≤ Number.maxDigits

namespace Phrase

inductive IsArithmetic : Phrase → Prop where
  | number {token : Token} : token.IsInteger → IsArithmetic (.number token)
  | unary {op : UnaryOp} {p : Phrase} : op ∈ [.plus, .minus] → IsArithmetic p →
      IsArithmetic (.unary op p)
  | binary {op : BinaryOp} {p q : Phrase} : op ∈ [.add, .sub, .mul, .div, .mod] →
      IsArithmetic p → IsArithmetic q → IsArithmetic (.binary op p q)

inductive Exact : Phrase → Int → Prop where
  | number {token : Token} : token.IsInteger →
      Exact (.number token) (Text.decimalValue token.text)
  | unary {op : UnaryOp} {p : Phrase} {i k : Int} : Exact p i → op.Gives i k →
      Exact (.unary op p) k
  | binary {op : BinaryOp} {p q : Phrase} {i j k : Int} : Exact p i → Exact q j →
      op.Gives i j k → Exact (.binary op p q) k

/--
There is a step of the given kind, and every step before it is exact. The left operand of an
operator comes before the right one, and both of them before the operator.
-/
inductive ComesTo (step : BinaryOp → Int → Int → Prop) : Phrase → Prop where
  | here {op : BinaryOp} {p q : Phrase} {i j : Int} : Exact p i → Exact q j → step op i j →
      ComesTo step (.binary op p q)
  | operand {op : UnaryOp} {p : Phrase} : ComesTo step p → ComesTo step (.unary op p)
  | left {op : BinaryOp} {p q : Phrase} : ComesTo step p → ComesTo step (.binary op p q)
  | right {op : BinaryOp} {p q : Phrase} {i : Int} : Exact p i → ComesTo step q →
      ComesTo step (.binary op p q)

end Phrase

section Steps

variable {i j k : Int}

theorem UnaryOp.exists_gives {op : UnaryOp} (h : op ∈ [UnaryOp.plus, .minus]) (i : Int) :
    ∃ k, op.Gives i k := by
  simp only [List.mem_cons, List.not_mem_nil, or_false] at h
  rcases h with rfl | rfl
  . exact ⟨i, .plus i⟩
  . exact ⟨-i, .minus i⟩

theorem BinaryOp.gives_cases {op : BinaryOp} (h : op ∈ [BinaryOp.add, .sub, .mul, .div, .mod])
    (i j : Int) : (∃ k, op.Gives i j k) ∨ op.DividesByZero i j ∨ op.DividesUnevenly i j := by
  simp only [List.mem_cons, List.not_mem_nil, or_false] at h
  rcases h with rfl | rfl | rfl | rfl | rfl
  . exact .inl ⟨i + j, .add i j⟩
  . exact .inl ⟨i - j, .sub i j⟩
  . exact .inl ⟨i * j, .mul i j⟩
  . by_cases hj : j = 0
    . exact .inr (.inl ⟨by decide, hj⟩)
    by_cases hdvd : j ∣ i
    . obtain ⟨k, hk⟩ := hdvd
      exact .inl ⟨k, .div hj (by rw [hk, Int.mul_comm])⟩
    . exact .inr (.inr ⟨rfl, hj, hdvd⟩)
  . by_cases hj : j = 0
    . exact .inr (.inl ⟨by decide, hj⟩)
    . exact .inl ⟨i.tmod j, .mod (.tmod hj i)⟩

theorem BinaryOp.Gives.mem {op : BinaryOp} (h : op.Gives i j k) :
    op ∈ [BinaryOp.add, .sub, .mul, .div, .mod] := by
  cases h <;> decide

theorem applyUnary_of_gives {op : UnaryOp} (h : op.Gives i k) :
    applyUnary op (.number (.int i)) = .ok (.number (.int k)) := by
  cases h with
  | plus => rfl
  | minus => rfl

theorem applyBinary_of_gives {op : BinaryOp} (h : op.Gives i j k) :
    applyBinary op (.number (.int i)) (.number (.int j)) = .ok (.number (.int k)) := by
  cases h with
  | add => rfl
  | sub => rfl
  | mul => rfl
  | div hj heq =>
    subst heq
    simp only [applyBinary, applyArithmetic, Number.div_int hj]
    rfl
  | mod hremainder =>
    simp only [applyBinary, applyArithmetic, Number.mod_int hremainder]
    rfl

theorem applyBinary_of_dividesByZero {op : BinaryOp} (h : op.DividesByZero i j) :
    applyBinary op (.number (.int i)) (.number (.int j)) =
      .error (.evaluation .divisionByZero) := by
  obtain ⟨hop, rfl⟩ := h
  simp only [List.mem_cons, List.not_mem_nil, or_false] at hop
  rcases hop with rfl | rfl
  . rfl
  . rfl

end Steps

theorem Literal.number_of_isInteger {token : Token} (h : token.IsInteger) :
    Literal.number token.text = .int (Text.decimalValue token.text) := by
  simp only [Literal.number, h.digits, h.length, if_true]

theorem evaluate_binary_of_arithmetic {op : BinaryOp}
    (h : op ∈ [BinaryOp.add, .sub, .mul, .div, .mod]) {a : Expr} {v : Value}
    (ha : a.evaluate = .ok v) (b : Expr) :
    (Expr.binary op a b).evaluate = b.evaluate >>= applyBinary op v := by
  have hshort : shortCircuits op v = .ok false := by
    simp only [List.mem_cons, List.not_mem_nil, or_false] at h
    rcases h with rfl | rfl | rfl | rfl | rfl
    all_goals rfl
  rw [Expr.evaluate, ha]
  show (shortCircuits op v >>= _) = _
  rw [hshort]
  rfl

namespace Phrase

variable {p : Phrase} {e : Expr} {i : Int} {room : Nat}

theorem Exact.evaluate (h : p.Exact i) (hresolve : p.resolve room = .ok e) :
    e.evaluate = .ok (.number (.int i)) := by
  induction h generalizing room e with
  | number hinteger =>
    cases becomes_of_resolve hresolve
    rw [Literal.number_of_isInteger hinteger]
    rfl
  | unary _ hgives ih =>
    cases becomes_of_resolve hresolve with
    | unary ha =>
      rw [Expr.evaluate, ih ha]
      exact applyUnary_of_gives hgives
  | binary _ _ hgives ihleft ihright =>
    cases becomes_of_resolve hresolve with
    | binary ha hb =>
      rw [evaluate_binary_of_arithmetic hgives.mem (ihleft ha), ihright hb]
      exact applyBinary_of_gives hgives

theorem ComesTo.evaluate (h : p.ComesTo BinaryOp.DividesByZero) (harithmetic : p.IsArithmetic)
    (hresolve : p.resolve room = .ok e) :
    e.evaluate = .error (.evaluation .divisionByZero) := by
  induction h generalizing room e with
  | here hp hq hzero =>
    cases harithmetic with
    | binary hop _ _ =>
      cases becomes_of_resolve hresolve with
      | binary ha hb =>
        rw [evaluate_binary_of_arithmetic hop (hp.evaluate ha), hq.evaluate hb]
        exact applyBinary_of_dividesByZero hzero
  | operand _ ih =>
    cases harithmetic with
    | unary _ hp =>
      cases becomes_of_resolve hresolve with
      | unary ha =>
        rw [Expr.evaluate, ih hp ha]
        rfl
  | left _ ih =>
    cases harithmetic with
    | binary _ hp _ =>
      cases becomes_of_resolve hresolve with
      | binary ha _ =>
        rw [Expr.evaluate, ih hp ha]
        rfl
  | right hp _ ih =>
    cases harithmetic with
    | binary hop _ hq =>
      cases becomes_of_resolve hresolve with
      | binary ha hb =>
        rw [evaluate_binary_of_arithmetic hop (hp.evaluate ha), ih hq hb]
        rfl

theorem IsArithmetic.exact_or_comesTo (h : p.IsArithmetic) :
    (∃ i, p.Exact i) ∨ p.ComesTo BinaryOp.DividesByZero ∨ p.ComesTo BinaryOp.DividesUnevenly := by
  induction h with
  | number hinteger => exact .inl ⟨_, .number hinteger⟩
  | unary hop _ ih =>
    rcases ih with ⟨i, hp⟩ | hzero | huneven
    . obtain ⟨k, hgives⟩ := UnaryOp.exists_gives hop i
      exact .inl ⟨k, .unary hp hgives⟩
    . exact .inr (.inl (.operand hzero))
    . exact .inr (.inr (.operand huneven))
  | binary hop _ _ ihleft ihright =>
    rcases ihleft with ⟨i, hp⟩ | hzero | huneven
    . rcases ihright with ⟨j, hq⟩ | hzero | huneven
      . rcases BinaryOp.gives_cases hop i j with ⟨k, hgives⟩ | hzero | huneven
        . exact .inl ⟨k, .binary hp hq hgives⟩
        . exact .inr (.inl (.here hp hq hzero))
        . exact .inr (.inr (.here hp hq huneven))
      . exact .inr (.inl (.right hp hzero))
      . exact .inr (.inr (.right hp huneven))
    . exact .inr (.inl (.left hzero))
    . exact .inr (.inr (.left huneven))

end Phrase

/--
Arithmetic of integers is exact. An expression of which every step is exact evaluates to the integer
that it denotes, of whatever size, and one that comes to a division by zero fails there. No other
expression is left, but for those that come to a quotient that is not whole.
-/
theorem evaluate_arithmetic [Limits] {t : Text} {p : Phrase} {e : Expr}
    (hread : Phrase.read t = .ok p)
    (hparse : parse t = .ok e) (h : p.IsArithmetic) :
    (∀ i, p.Exact i → e.evaluate = .ok (.number (.int i))) ∧
      (p.ComesTo BinaryOp.DividesByZero → e.evaluate = .error (.evaluation .divisionByZero)) ∧
      (¬ p.ComesTo BinaryOp.DividesByZero → ¬ p.ComesTo BinaryOp.DividesUnevenly →
        ∃ i, p.Exact i) := by
  have hresolve : p.resolve Limits.maxDepth = .ok e := by
    rw [parse, hread] at hparse
    exact hparse
  refine ⟨fun i hexact => hexact.evaluate hresolve, fun hzero => hzero.evaluate h hresolve, ?_⟩
  intro hnonzero heven
  rcases h.exact_or_comesTo with hexact | hzero | huneven
  . exact hexact
  . exact absurd hzero hnonzero
  . exact absurd huneven heven

/--
Signs before a remainder and behind a division, with a quotient that no floating point number is;
and a division by zero behind a step that is exact.
-/
theorem evaluate_arithmetic_large :
    (∃ p e, Phrase.read "(-7 % 3 + 27021597764222980) / -3" = .ok p ∧
      parse "(-7 % 3 + 27021597764222980) / -3" = .ok e ∧ p.IsArithmetic ∧
      p.Exact (-9007199254740993) ∧ e.evaluate = .ok (.number (.int (-9007199254740993)))) ∧
    ∃ p e, Phrase.read "1 % (2 - 2)" = .ok p ∧ parse "1 % (2 - 2)" = .ok e ∧ p.IsArithmetic ∧
      p.ComesTo BinaryOp.DividesByZero ∧ e.evaluate = .error (.evaluation .divisionByZero) := by
  let numeral (digits : Text) (start : Position) : Phrase := .number ⟨.number, digits, start⟩
  let literal (n : Int) : Expr := .literal (.number (.int n))
  constructor
  . let p : Phrase := .binary .div
      (.binary .add
        (.binary .mod (.unary .minus (numeral "7" ⟨2, 1, 3⟩)) (numeral "3" ⟨6, 1, 7⟩))
        (numeral "27021597764222980" ⟨10, 1, 11⟩))
      (.unary .minus (numeral "3" ⟨32, 1, 33⟩))
    let e : Expr := .binary .div
      (.binary .add (.binary .mod (.unary .minus (literal 7)) (literal 3))
        (literal 27021597764222980))
      (.unary .minus (literal 3))
    have hread : Phrase.read "(-7 % 3 + 27021597764222980) / -3" = .ok p := by
      with_unfolding_all rfl
    have hparse : parse "(-7 % 3 + 27021597764222980) / -3" = .ok e := by
      with_unfolding_all rfl
    have harithmetic : p.IsArithmetic := by
      apply Phrase.IsArithmetic.binary (by decide)
      . apply Phrase.IsArithmetic.binary (by decide)
        . apply Phrase.IsArithmetic.binary (by decide)
          . exact .unary (by decide) (.number ⟨by decide, by decide⟩)
          . exact .number ⟨by decide, by decide⟩
        . exact .number ⟨by decide, by decide⟩
      . exact .unary (by decide) (.number ⟨by decide, by decide⟩)
    have hremainder : IsRemainder (-7) 3 (-1) :=
      ⟨⟨-2, by decide⟩, by decide, by decide, by decide⟩
    have hexact : p.Exact (-9007199254740993) := by
      apply Phrase.Exact.binary
      . apply Phrase.Exact.binary
        . apply Phrase.Exact.binary
          . exact .unary (.number ⟨by decide, by decide⟩) (.minus 7)
          . exact .number ⟨by decide, by decide⟩
          . exact .mod hremainder
        . exact .number ⟨by decide, by decide⟩
        . exact .add _ _
      . exact .unary (.number ⟨by decide, by decide⟩) (.minus 3)
      . exact .div (by decide) (by decide)
    exact ⟨p, e, hread, hparse, harithmetic, hexact,
      (evaluate_arithmetic hread hparse harithmetic).1 _ hexact⟩
  . let p : Phrase := .binary .mod (numeral "1" ⟨0, 1, 1⟩)
      (.binary .sub (numeral "2" ⟨5, 1, 6⟩) (numeral "2" ⟨9, 1, 10⟩))
    let e : Expr := .binary .mod (literal 1) (.binary .sub (literal 2) (literal 2))
    have hread : Phrase.read "1 % (2 - 2)" = .ok p := by
      with_unfolding_all rfl
    have hparse : parse "1 % (2 - 2)" = .ok e := by
      with_unfolding_all rfl
    have harithmetic : p.IsArithmetic := by
      apply Phrase.IsArithmetic.binary (by decide) (.number ⟨by decide, by decide⟩)
      exact .binary (by decide) (.number ⟨by decide, by decide⟩) (.number ⟨by decide, by decide⟩)
    have hzero : p.ComesTo BinaryOp.DividesByZero := by
      apply Phrase.ComesTo.here (.number ⟨by decide, by decide⟩)
      . exact .binary (.number ⟨by decide, by decide⟩) (.number ⟨by decide, by decide⟩) (.sub _ _)
      . exact ⟨by decide, by decide⟩
    exact ⟨p, e, hread, hparse, harithmetic, hzero,
      (evaluate_arithmetic hread hparse harithmetic).2.1 hzero⟩

end Expression

end PageBinding
