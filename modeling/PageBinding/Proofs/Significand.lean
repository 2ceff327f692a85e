import PageBinding.Proofs.Expression.Enclosed
import PageBinding.Proofs.Printed

/-!
This module contains that the text of a number in string concatenation denotes that number: which
number a numeral denotes does not depend on the layout that it has been written in, and a number has
one run of digits and one exponent only.
-/

namespace PageBinding

namespace Text

/--
A run of digits that neither starts nor ends in a zero.
-/
structure IsSignificand (t : Text) : Prop where
  nonempty : t ≠ []
  digits : ∀ c ∈ t, c.isAsciiDigit = true
  head : t.head? ≠ some (CodePoint.ofChar '0')
  last : t.getLast? ≠ some (CodePoint.ofChar '0')

theorem exists_digit_of_isAsciiDigit {c : CodePoint} (h : c.isAsciiDigit = true) :
    ∃ n < 10, c = Reference.digit n := by
  simp only [CodePoint.isAsciiDigit, CodePoint.isBetween, Char.reduceToNat, Bool.and_eq_true,
    decide_eq_true_eq] at h
  have hdigits : ∀ n < 10, (Reference.digit n).val = 48 + n := by decide
  refine ⟨c.val - 48, by omega, ?_⟩
  apply Fin.ext
  rw [hdigits _ (by omega)]
  omega

theorem digit_eq_zero_iff : ∀ n < 10, Reference.digit n = CodePoint.ofChar '0' ↔ n = 0 := by
  decide

/--
A run of digits is what the number that it denotes is written as, unless it starts with a zero.
-/
theorem ofNat_decimalValue {t : Text} (hne : t ≠ []) (hdigits : ∀ c ∈ t, c.isAsciiDigit = true)
    (hhead : t.head? ≠ some (CodePoint.ofChar '0')) : ofNat (decimalValue t) = t := by
  induction t using List.reverseRecOn with
  | nil => exact absurd rfl hne
  | append_singleton t c ih =>
    rw [List.forall_mem_append, List.forall_mem_singleton] at hdigits
    obtain ⟨n, hn, rfl⟩ := exists_digit_of_isAsciiDigit hdigits.2
    rw [decimalValue_append_singleton, digitValue?_digit n hn, Option.getD_some, ofNat_eq_if]
    by_cases hnil : t = []
    . subst hnil
      have hzero : decimalValue [] = 0 := rfl
      rw [hzero, Nat.zero_mul, Nat.zero_add, if_pos hn]
      rfl
    . have hhead' : t.head? ≠ some (CodePoint.ofChar '0') := by
        rw [List.head?_append_of_ne_nil _ hnil] at hhead
        exact hhead
      have ht := ih hnil hdigits.1 hhead'
      have hpos : decimalValue t ≠ 0 := by
        intro hzero
        rw [hzero] at ht
        rw [← ht] at hhead'
        exact hhead' rfl
      have hdiv : (decimalValue t * 10 + n) / 10 = decimalValue t := by omega
      have hmod : (decimalValue t * 10 + n) % 10 = n := by omega
      rw [if_neg (by omega), hdiv, hmod, ht]

namespace IsSignificand

variable {t t' : Text}

theorem ofNat_eq (h : IsSignificand t) : ofNat (decimalValue t) = t :=
  ofNat_decimalValue h.nonempty h.digits h.head

theorem decimalValue_mod (h : IsSignificand t) : decimalValue t % 10 ≠ 0 := by
  obtain ⟨hne, hdigits, -, hlast⟩ := h
  rcases List.eq_nil_or_concat' t with rfl | ⟨u, c, rfl⟩
  . exact absurd rfl hne
  rw [List.forall_mem_append, List.forall_mem_singleton] at hdigits
  obtain ⟨n, hn, rfl⟩ := exists_digit_of_isAsciiDigit hdigits.2
  rw [List.getLast?_concat, ne_eq, Option.some.injEq, digit_eq_zero_iff n hn] at hlast
  rw [decimalValue_append_singleton, digitValue?_digit n hn, Option.getD_some]
  omega

theorem eq_of_decimalValue_eq (h : IsSignificand t) (h' : IsSignificand t')
    (heq : decimalValue t = decimalValue t') : t = t' := by
  rw [← h.ofNat_eq, heq, h'.ofNat_eq]

end IsSignificand

theorem isAsciiDigit_of_mem_ofNat {n : Nat} {c : CodePoint} (h : c ∈ ofNat n) :
    c.isAsciiDigit = true := by
  have hdigits : ∀ d < 10, (Reference.digit d).isAsciiDigit = true := by decide
  induction n using Nat.strongRecOn with
  | ind n ih =>
    rw [ofNat_eq_if] at h
    split at h
    . next hlt =>
      rw [List.mem_singleton.mp h]
      exact hdigits n hlt
    . rcases List.mem_append.mp h with hmem | hmem
      . exact ih (n / 10) (by omega) hmem
      . rw [List.mem_singleton.mp hmem]
        exact hdigits _ (Nat.mod_lt n (by decide))

theorem head?_ofNat {n : Nat} (hne : n ≠ 0) : (ofNat n).head? ≠ some (CodePoint.ofChar '0') := by
  induction n using Nat.strongRecOn with
  | ind n ih =>
    rw [ofNat_eq_if]
    split
    . next hlt =>
      rw [List.head?_cons, ne_eq, Option.some.injEq, digit_eq_zero_iff n hlt]
      exact hne
    . rw [List.head?_append_of_ne_nil _ (ofNat_ne_nil _)]
      exact ih (n / 10) (by omega) (by omega)

theorem isSignificand_ofNat {n : Nat} (hmod : n % 10 ≠ 0) : IsSignificand (ofNat n) where
  nonempty := ofNat_ne_nil n
  digits := fun _ => isAsciiDigit_of_mem_ofNat
  head := head?_ofNat (by omega)
  last := by
    have hlast : (ofNat n).getLast? = some (Reference.digit (n % 10)) := by
      rw [ofNat_eq_if]
      split
      . next hlt =>
        rw [Nat.mod_eq_of_lt hlt]
        rfl
      . exact List.getLast?_concat
    rw [hlast, ne_eq, Option.some.injEq, digit_eq_zero_iff _ (Nat.mod_lt n (by decide))]
    exact hmod

end Text

namespace Decimal

def ofText (digits : Text) (exponent : Int) : Decimal :=
  ⟨digits.decimalValue, exponent⟩

variable {d d' : Decimal}

theorem digits_mod_of_value_eq (h : d.value = d'.value) (hlt : d.exponent < d'.exponent) :
    d.digits % 10 = 0 := by
  obtain ⟨count, hcount⟩ := Int.lt.dest hlt
  have hdigits : (d.digits : ℚ) = (d'.digits * 10 ^ count * 10 : Nat) := by
    have hpow := (ten_zpow_pos d.exponent).ne'
    apply mul_right_cancel₀ hpow
    calc (d.digits : ℚ) * 10 ^ d.exponent
      _ = d'.digits * 10 ^ d'.exponent := h
      _ = d'.digits * 10 ^ (d.exponent + (count + 1 : Nat)) := by rw [← hcount]
      _ = _ := by
        rw [zpow_add₀ (by norm_num), zpow_natCast, pow_succ]
        push_cast
        ring
  rw [Nat.cast_inj] at hdigits
  rw [hdigits, Nat.mul_mod_left]

theorem eq_of_value_eq (h : d.value = d'.value) (hmod : d.digits % 10 ≠ 0)
    (hmod' : d'.digits % 10 ≠ 0) : d = d' := by
  rcases lt_trichotomy d.exponent d'.exponent with hlt | heq | hlt
  . exact absurd (digits_mod_of_value_eq h hlt) hmod
  . have hdigits : (d.digits : ℚ) = d'.digits := by
      apply mul_right_cancel₀ (ten_zpow_pos d.exponent).ne'
      rw [value, value, ← heq] at h
      exact h
    cases d
    cases d'
    rw [Decimal.mk.injEq]
    exact ⟨Nat.cast_inj.mp hdigits, heq⟩
  . exact absurd (digits_mod_of_value_eq h.symm hlt) hmod'

theorem dropZeros_mod {fuel n : Nat} (hne : n ≠ 0) (hlt : n < 2 ^ (fuel + 1)) :
    (dropZeros fuel n).1 % 10 ≠ 0 := by
  induction fuel generalizing n with
  | zero =>
    have hone : n = 1 := by omega
    rw [hone]
    decide
  | succ fuel ih =>
    rw [dropZeros]
    split
    . rw [Nat.pow_succ] at hlt
      exact ih (by omega) (by omega)
    . next hmod => exact hmod

theorem digits_ofDigits_mod {n : Nat} (hne : n ≠ 0) (exponent : Int) :
    (ofDigits n exponent).digits % 10 ≠ 0 :=
  dropZeros_mod hne Nat.lt_log2_self

theorem exists_search_eq (rank units : Nat) (power : Int) (count fuel : Nat) :
    ∃ digits exponent, Binary64.shortest.search rank units power count fuel =
      ofDigits digits exponent := by
  induction fuel generalizing count with
  | zero => exact ⟨_, _, rfl⟩
  | succ fuel ih =>
    rw [Binary64.shortest.search]
    obtain ⟨low, half⟩ := Binary64.gridPoint units (power - count)
    dsimp only
    generalize (if half = .lt || (half = .eq && low % 2 = 0) then low else low + 1) = nearest
    split
    . exact ⟨_, _, rfl⟩
    split
    . exact ⟨_, _, rfl⟩
    split
    . exact ⟨_, _, rfl⟩
    exact ih (count + 1)

theorem digits_shortest_mod {rank : Nat} (hpos : 0 < rank) (hlast : rank < 2047 * Binary64.binade) :
    (Binary64.shortest rank).digits % 10 ≠ 0 := by
  obtain ⟨hvalue, -⟩ := Binary64.denotes_shortest hpos hlast
  obtain ⟨digits, exponent, heq⟩ := exists_search_eq rank (Binary64.unitsAt rank)
    (Binary64.tenPower (Binary64.unitsAt rank)) 1 16
  rw [Binary64.shortest, heq] at hvalue ⊢
  rw [value_ofDigits] at hvalue
  apply digits_ofDigits_mod
  rintro rfl
  simp at hvalue

end Decimal

namespace Numeral

def value (numeral : Text) : ℚ :=
  (reading numeral).1 * 10 ^ (reading numeral).2

/--
The number that a text denotes: a numeral, or one with a minus sign in front of it.
-/
def number : Text → ℚ
  | c :: rest => if c.is '-' then -value rest else value (c :: rest)
  | [] => 0

theorem Gives.value_eq {t : Text} {digits : Nat} {exponent : Int} (h : Gives t digits exponent) :
    value t = digits * 10 ^ exponent := by
  rw [value, h.reading]

theorem is_minus_eq_false {c : CodePoint} {rest : Text} (h : Expression.IsNumeral (c :: rest)) :
    c.is '-' = false := by
  have hpos : 0 < length (c :: rest) := by
    rw [h.2]
    exact Nat.succ_pos _
  rw [← Bool.not_eq_true]
  intro hminus
  obtain rfl := CodePoint.eq_ofChar_of_is hminus
  rcases exists_of_length_pos hpos with hdecimal | hdot
  . exact absurd hdecimal (by decide)
  . exact absurd hdot (by decide)

theorem number_signed {t : Text} (h : Expression.IsNumeral t) (negative : Bool) :
    number (Number.signed negative t) = (if negative then -1 else 1) * value t := by
  cases negative with
  | true =>
    have hnumber : number (Number.signed true t) = -value (t ++ []) := rfl
    rw [hnumber, List.append_nil, if_pos rfl, neg_one_mul]
  | false =>
    have hnumber : number (Number.signed false t) = value t := by
      cases t with
      | nil => exact absurd rfl h.1
      | cons c rest => exact if_neg (ne_true_of_eq_false (is_minus_eq_false h))
    rw [hnumber, if_neg Bool.false_ne_true, one_mul]

end Numeral

namespace Decimal

open Numeral

variable {d d' : Decimal}

theorem isNumeral_text (layout : Layout) (d : Decimal) : Expression.IsNumeral (d.text layout) := by
  obtain ⟨digits, exponent, hgives, -⟩ := exists_gives layout d
  exact ⟨hgives.nonempty, hgives.length⟩

theorem value_text (layout : Layout) (d : Decimal) : Numeral.value (d.text layout) = d.value := by
  obtain ⟨digits, exponent, hgives, heq⟩ := exists_gives layout d
  rw [hgives.value_eq, heq]

theorem exponentMark_not_mem_text_iff {layout : Layout} :
    exponentMark ∉ d.text layout ↔ d.IsPositional layout :=
  ⟨fun h => of_not_not fun hraised => h (mem_text_of_not_isPositional hraised),
    not_mem_text_of_isPositional⟩

theorem eq_of_text_eq {layout : Layout} (h : d.text layout = d'.text layout)
    (hmod : d.digits % 10 ≠ 0) (hmod' : d'.digits % 10 ≠ 0) : d = d' := by
  apply eq_of_value_eq _ hmod hmod'
  rw [← value_text layout, h, value_text]

end Decimal

namespace Number

open Decimal Numeral

/--
In string concatenation a number is written as a numeral that denotes it, with its sign in front.
The numeral has an exponent exactly if the point of the number is too far from its first digit, and
no other number of the same sign is written in the same way.
-/
theorem number_signed_text {digits : Text} (h : digits.IsSignificand) (exponent : Int)
    (negative : Bool) :
    number (signed negative ((ofText digits exponent).text plain)) =
        (if negative then -1 else 1) * (digits.decimalValue * 10 ^ exponent) ∧
      Expression.IsNumeral ((ofText digits exponent).text plain) ∧
      (exponentMark ∉ (ofText digits exponent).text plain ↔
        -6 < exponent + digits.length ∧ exponent + digits.length ≤ 21) ∧
      ∀ {digits' : Text} {exponent' : Int}, digits'.IsSignificand →
        signed negative ((ofText digits' exponent').text plain) =
          signed negative ((ofText digits exponent).text plain) →
        digits' = digits ∧ exponent' = exponent := by
  have hnumeral := isNumeral_text plain (ofText digits exponent)
  refine ⟨?_, hnumeral, ?_, ?_⟩
  . rw [number_signed hnumeral, value_text]
    rfl
  . have hmagnitude : (ofText digits exponent).magnitude = exponent + digits.length := by
      rw [magnitude, ofText, h.ofNat_eq]
    have hplain : (ofText digits exponent).IsPositional plain ↔
        -5 ≤ (ofText digits exponent).magnitude ∧ (ofText digits exponent).magnitude ≤ 21 := Iff.rfl
    rw [exponentMark_not_mem_text_iff, hplain, hmagnitude]
    omega
  . intro digits' exponent' h' heq
    rw [signed_inj] at heq
    have hsame := eq_of_text_eq heq h'.decimalValue_mod h.decimalValue_mod
    rw [ofText, ofText, Decimal.mk.injEq] at hsame
    exact ⟨h'.eq_of_decimalValue_eq h hsame.1, hsame.2⟩

theorem number_signed_text_small :
    signed true ((ofText "15" (-8)).text plain) = "-1.5e-7" ∧
      number (signed true ((ofText "15" (-8)).text plain)) = -1 * (15 * 10 ^ (-8 : Int)) := by
  have hdigits : Text.IsSignificand "15" := ⟨by decide,
    List.all_eq_true.mp (by decide), by decide, by decide⟩
  exact ⟨by decide, (number_signed_text hdigits (-8) true).1⟩

/--
A finite floating point number other than zero is written with the digits and the exponent of its
shortest decimal, and read again as the same number.
-/
theorem exists_plainText_finite (negative : Bool) {rank : Rank} (hne : rank.val ≠ 0) :
    ∃ (digits : Text) (exponent : Int), digits.IsSignificand ∧
      (float (.finite negative rank)).plainText =
        .ok (signed negative ((ofText digits exponent).text plain)) ∧
      binary64 ((ofText digits exponent).text plain) = .finite false rank := by
  have hpos : 0 < rank.val := Nat.pos_of_ne_zero hne
  have hmod := digits_shortest_mod hpos rank.isLt
  have hshortest : ofText (Text.ofNat (Binary64.shortest rank.val).digits)
      (Binary64.shortest rank.val).exponent = Binary64.shortest rank.val := by
    rw [ofText, Text.decimalValue_ofNat]
  refine ⟨_, (Binary64.shortest rank.val).exponent, Text.isSignificand_ofNat hmod, ?_, ?_⟩
  . rw [hshortest]
    exact if_neg hne
  . rw [hshortest]
    exact binary64_text_shortest plain hne

end Number

end PageBinding
