import PageBinding.Proofs.Binary64
import PageBinding.Proofs.Expression.Literal

/-!
This module contains for which numbers the two formats write the same text: the format of string
concatenation and computed keys, and that of data and literal keys.
-/

namespace PageBinding

theorem Text.not_mem_ofNat {c : CodePoint} (h : c.isDecimal = false) (n : Nat) : c ∉ ofNat n := by
  intro hmem
  rw [isDecimal_of_mem_ofNat hmem] at h
  cases h

namespace Decimal

def exponentMark : CodePoint :=
  CodePoint.ofChar 'e'

theorem not_mem_zeros {c : CodePoint} (h : c ≠ CodePoint.ofChar '0') (count : Int) :
    c ∉ zeros count := by
  intro hmem
  exact h (List.eq_of_mem_replicate hmem)

theorem length_zeros (count : Int) : (zeros count).length = count.toNat :=
  List.length_replicate

def IsPositional (layout : Layout) (d : Decimal) : Prop :=
  layout.low ≤ d.magnitude ∧ d.magnitude ≤ layout.high

instance (layout : Layout) (d : Decimal) : Decidable (d.IsPositional layout) :=
  inferInstanceAs (Decidable (_ ∧ _))

section Text

variable {layout : Layout} {d : Decimal}

theorem text_of_isPositional (h : d.IsPositional layout) : d.text layout =
    if ((Text.ofNat d.digits).length : Int) ≤ d.magnitude then
      Text.concat [Text.ofNat d.digits, zeros (d.magnitude - (Text.ofNat d.digits).length),
        if layout.point then ".0" else ""]
    else if 0 < d.magnitude then
      Text.concat [(Text.ofNat d.digits).take d.magnitude.toNat, ".",
        (Text.ofNat d.digits).drop d.magnitude.toNat]
    else Text.concat ["0.", zeros (-d.magnitude), Text.ofNat d.digits] := by
  have hrange : (decide (layout.low ≤ d.magnitude) && decide (d.magnitude ≤ layout.high)) =
      true := by
    rw [Bool.and_eq_true, decide_eq_true_eq, decide_eq_true_eq]
    exact h
  rw [text]
  simp only [hrange, if_true]

/--
What a decimal is written as in front of its exponent: one digit, and the others behind a point.
-/
def mantissaText (d : Decimal) : Text :=
  (Text.ofNat d.digits).take 1 ++
    if (Text.ofNat d.digits).length = 1 then []
    else CodePoint.ofChar '.' :: (Text.ofNat d.digits).drop 1

theorem text_of_not_isPositional (h : ¬ d.IsPositional layout) : d.text layout =
    d.mantissaText ++ exponentPart layout.width (d.magnitude - 1) := by
  have hrange : (decide (layout.low ≤ d.magnitude) && decide (d.magnitude ≤ layout.high)) =
      false := by
    rw [← Bool.not_eq_true, Bool.and_eq_true, decide_eq_true_eq, decide_eq_true_eq]
    exact h
  rw [text]
  simp only [hrange, Bool.false_eq_true, if_false, mantissaText, Text.concat,
    List.flatten_cons, List.flatten_nil, List.append_nil, List.append_assoc]
  by_cases hone : (Text.ofNat d.digits).length = 1
  . have hone' : ((Text.ofNat d.digits).length : Int) = 1 := by omega
    rw [if_pos hone, if_pos hone']
    rfl
  . have hone' : ¬ ((Text.ofNat d.digits).length : Int) = 1 := by omega
    rw [if_neg hone, if_neg hone']
    rfl

theorem mem_text_of_not_isPositional (h : ¬ d.IsPositional layout) :
    exponentMark ∈ d.text layout := by
  rw [text_of_not_isPositional h]
  apply List.mem_append_right
  rw [exponentPart, Text.concat, List.flatten_cons]
  apply List.mem_append_left
  split
  . decide
  . decide

theorem not_mem_text_of_isPositional (h : d.IsPositional layout) :
    exponentMark ∉ d.text layout := by
  have hdigits : exponentMark ∉ Text.ofNat d.digits := Text.not_mem_ofNat (by decide) _
  have hzeros (count : Int) : exponentMark ∉ zeros count := not_mem_zeros (by decide) count
  have hpoint : exponentMark ∉ (".0" : Text) ∧ exponentMark ∉ ("." : Text) ∧
      exponentMark ∉ ("0." : Text) ∧ exponentMark ∉ ("" : Text) := by decide
  rw [text_of_isPositional h]
  simp only [Text.concat, List.flatten_cons, List.flatten_nil, List.append_nil]
  split
  . simp only [List.mem_append, not_or]
    refine ⟨hdigits, hzeros _, ?_⟩
    split
    . exact hpoint.1
    . exact hpoint.2.2.2
  . split
    . simp only [List.mem_append, not_or]
      exact ⟨fun hmem => hdigits (List.mem_of_mem_take hmem), hpoint.2.1,
        fun hmem => hdigits (List.mem_of_mem_drop hmem)⟩
    . simp only [List.mem_append, not_or]
      exact ⟨hpoint.2.2.1, hzeros _, hdigits⟩

theorem isPositional_iff_of_text_eq {layout' : Layout} (h : d.text layout = d.text layout') :
    d.IsPositional layout ↔ d.IsPositional layout' := by
  constructor
  . intro hpositional
    by_contra hexponent
    exact not_mem_text_of_isPositional hpositional (h ▸ mem_text_of_not_isPositional hexponent)
  . intro hpositional
    by_contra hexponent
    exact not_mem_text_of_isPositional hpositional (h ▸ mem_text_of_not_isPositional hexponent)

theorem exponentPart_eq_iff (width width' : Nat) (exponent : Int) :
    exponentPart width exponent = exponentPart width' exponent ↔
      width - (Text.ofNat exponent.natAbs).length =
        width' - (Text.ofNat exponent.natAbs).length := by
  constructor
  . intro h
    have hlength := congrArg List.length h
    simp only [exponentPart, Text.concat, List.flatten_cons, List.flatten_nil, List.append_nil,
      List.length_append, length_zeros] at hlength
    omega
  . intro h
    have hcount : ((width : Int) - (Text.ofNat exponent.natAbs).length).toNat =
        ((width' : Int) - (Text.ofNat exponent.natAbs).length).toNat := by omega
    rw [exponentPart, exponentPart, zeros, zeros, hcount]

end Text

/--
A decimal is written in the same way as data and in string concatenation: with a point in it in both
formats, or with an exponent of two digits or more in both.
-/
def PrintsAlike (d : Decimal) : Prop :=
  -3 ≤ d.magnitude ∧ d.magnitude ≤ 16 ∧ d.magnitude < (Text.ofNat d.digits).length ∨
    21 < d.magnitude ∨ d.magnitude < -8

instance (d : Decimal) : Decidable d.PrintsAlike :=
  inferInstanceAs (Decidable (_ ∨ _))

theorem text_data_eq_text_plain_iff (d : Decimal) :
    d.text Number.data = d.text Number.plain ↔ d.PrintsAlike := by
  have hdata : d.IsPositional Number.data ↔ -3 ≤ d.magnitude ∧ d.magnitude ≤ 16 := Iff.rfl
  have hplain : d.IsPositional Number.plain ↔ -5 ≤ d.magnitude ∧ d.magnitude ≤ 21 := Iff.rfl
  unfold PrintsAlike
  by_cases hpositional : d.IsPositional Number.data
  . have hpositional' : d.IsPositional Number.plain := by
      rw [hdata] at hpositional
      rw [hplain]
      omega
    rw [text_of_isPositional hpositional, text_of_isPositional hpositional']
    rw [hdata] at hpositional
    split
    . next hwhole =>
      -- Only data has a point behind a whole number.
      refine ⟨fun h => ?_, by omega⟩
      have hlength := congrArg List.length h
      simp [Text.concat, Number.data, Number.plain, Text.ofString, Text.ofChars] at hlength
    . next hfraction => exact iff_of_true rfl (.inl ⟨hpositional.1, hpositional.2, by omega⟩)
  by_cases hpositional' : d.IsPositional Number.plain
  . refine iff_of_false (fun h => ?_) ?_
    . exact hpositional ((isPositional_iff_of_text_eq h).mpr hpositional')
    . rw [hdata] at hpositional
      rw [hplain] at hpositional'
      omega
  rw [text_of_not_isPositional hpositional, text_of_not_isPositional hpositional',
    List.append_right_inj, exponentPart_eq_iff]
  rw [hdata] at hpositional
  rw [hplain] at hpositional'
  have hone := Text.length_ofNat_le_iff (n := (d.magnitude - 1).natAbs) Nat.one_pos
  have hpos := List.length_pos_iff.mpr (Text.ofNat_ne_nil (d.magnitude - 1).natAbs)
  have hten : Nat.pow 10 1 = 10 := rfl
  show 2 - _ = 1 - _ ↔ _
  omega

end Decimal

namespace Number

open Binary64

/--
A number is written in the same way as data and in string concatenation.
-/
def PrintsAlike : Number → Prop
  | .int i => i.natAbs < 10 ^ 21
  | .float (.finite _ rank) => rank.val ≠ 0 ∧ (shortest rank.val).PrintsAlike
  | .float _ => False

instance (n : Number) : Decidable n.PrintsAlike :=
  match n with
  | .int i => inferInstanceAs (Decidable (i.natAbs < 10 ^ 21))
  | .float (.finite _ rank) =>
    inferInstanceAs (Decidable (rank.val ≠ 0 ∧ (shortest rank.val).PrintsAlike))
  | .float .nan | .float (.infinite _) => inferInstanceAs (Decidable False)

theorem signed_inj {negative : Bool} {t t' : Text} :
    signed negative t = signed negative t' ↔ t = t' := by
  cases negative with
  | false => rfl
  | true =>
    simp only [signed, if_true, Text.concat, List.flatten_cons, List.flatten_nil, List.append_nil]
    exact List.append_right_inj _

theorem length_le_signed (negative : Bool) (t : Text) : t.length ≤ (signed negative t).length := by
  cases negative with
  | false => exact Nat.le_refl _
  | true => simp [signed, Text.concat]

theorem fitsText_of_lt {n : Nat} (h : n < 10 ^ 21) : fitsText n = true := by
  have hdigits : 21 ≤ maxDigits := by decide
  rw [fitsText, decide_eq_true_eq]
  generalize maxDigits = digits at hdigits
  exact Nat.lt_of_lt_of_le h (Nat.pow_le_pow_right (by decide) hdigits)

theorem ofInt_eq_signed (i : Int) : Text.ofInt i = signed (i < 0) (Text.ofNat i.natAbs) := by
  unfold Text.ofInt signed
  by_cases hneg : i < 0
  . simp [hneg]
  . simp [hneg]

theorem text_plain_ne_ofNat {n : Nat} (h : 10 ^ 21 ≤ n) (d : Decimal) :
    d.text plain ≠ Text.ofNat n := by
  intro heq
  have hlength : ¬ (Text.ofNat n).length ≤ 21 := by
    rw [Text.length_ofNat_le_iff (by decide)]
    exact Nat.not_lt.mpr h
  have hpoint : CodePoint.ofChar '.' ∉ Text.ofNat n := Text.not_mem_ofNat (by decide) n
  by_cases hpositional : d.IsPositional plain
  . rw [Decimal.text_of_isPositional hpositional] at heq
    obtain ⟨-, hhigh⟩ : -5 ≤ d.magnitude ∧ d.magnitude ≤ 21 := hpositional
    split at heq
    . rw [← heq] at hlength
      simp [Text.concat, Decimal.length_zeros, plain, Text.ofString, Text.ofChars] at hlength
      omega
    . split at heq
      . apply hpoint
        rw [← heq]
        simp [Text.concat, Text.ofString, Text.ofChars]
      . apply hpoint
        rw [← heq]
        simp [Text.concat, Text.ofString, Text.ofChars]
  . have hmark := Decimal.mem_text_of_not_isPositional hpositional
    rw [heq] at hmark
    exact Text.not_mem_ofNat (by decide) n hmark

theorem plainText_ne_ofInt {i : Int} (hlarge : ¬ i.natAbs < 10 ^ 21) {t : Text}
    (h : (int i).plainText = .ok t) : t ≠ Text.ofInt i := by
  rintro rfl
  have hpow : Nat.pow 10 21 = 10 ^ 21 := rfl
  rw [plainText, hpow, if_neg hlarge] at h
  have hlength : ¬ (Text.ofNat i.natAbs).length ≤ 21 := by
    rw [Text.length_ofNat_le_iff (by decide)]
    exact hlarge
  rcases ofUnits_cases (decide (i < 0)) (i.natAbs * one) 1 with ⟨rank, hfinite⟩ | hinfinite
  . rw [Binary64.ofInt, hfinite, ofInt_eq_signed] at h
    simp only [plainText.ofBinary64] at h
    split at h
    . have hzero : (signed (i < 0) (Text.ofNat i.natAbs)).length = 1 :=
        congrArg List.length (Except.ok.inj h).symm
      have hle := length_le_signed (i < 0) (Text.ofNat i.natAbs)
      omega
    . rw [Except.ok.injEq, signed_inj] at h
      exact text_plain_ne_ofNat (Nat.not_lt.mp hlarge) _ h
  . rw [Binary64.ofInt, hinfinite] at h
    cases h

theorem dataText?_finite_iff {negative : Bool} {rank : Rank} {t : Text}
    (h : (float (.finite negative rank)).plainText = .ok t) :
    (float (.finite negative rank)).dataText? = some t ↔
      (float (.finite negative rank)).PrintsAlike := by
  rw [dataText?, Option.some.injEq, dataTextOfBinary64, PrintsAlike]
  simp only [plainText, plainText.ofBinary64] at h
  by_cases hzero : rank.val = 0
  . rw [if_pos hzero] at h ⊢
    cases h
    refine iff_of_false (fun heq => ?_) fun hne => hne.1 hzero
    have hlength := congrArg List.length heq
    cases negative with
    | true => exact absurd hlength (by decide)
    | false => exact absurd hlength (by decide)
  . rw [if_neg hzero] at h ⊢
    cases h
    rw [signed_inj, Decimal.text_data_eq_text_plain_iff]
    exact (and_iff_right hzero).symm

theorem dataText?_eq_some_iff {n : Number} {t : Text} (h : n.plainText = .ok t) :
    n.dataText? = some t ↔ n.PrintsAlike := by
  cases n with
  | int i =>
    by_cases hsmall : i.natAbs < 10 ^ 21
    . have hpow : Nat.pow 10 21 = 10 ^ 21 := rfl
      rw [plainText, hpow, if_pos hsmall] at h
      cases h
      refine iff_of_true ?_ hsmall
      rw [dataText?, if_pos (fitsText_of_lt hsmall)]
    . refine iff_of_false (fun hdata => ?_) hsmall
      rw [dataText?] at hdata
      split at hdata
      . exact plainText_ne_ofInt hsmall h (Option.some.inj hdata).symm
      . cases hdata
  | float x =>
    cases x with
    | nan | infinite _ => cases h
    | finite negative rank => exact dataText?_finite_iff h

end Number

end PageBinding
