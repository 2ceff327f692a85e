import PageBinding.Proofs.Decimal
import PageBinding.Proofs.Numeral
import PageBinding.Proofs.Shortest

/-!
This module contains that the text of a floating point number in data is a numeral, and that this
numeral denotes the number again.
-/

namespace PageBinding

namespace Text

theorem decimalValue_append (t u : Text) :
    decimalValue (t ++ u) = decimalValue t * 10 ^ u.length + decimalValue u := by
  induction u using List.reverseRecOn with
  | nil =>
    rw [List.append_nil, List.length_nil, Nat.pow_zero, Nat.mul_one]
    rfl
  | append_singleton u c ih =>
    rw [← List.append_assoc, decimalValue_append_singleton, decimalValue_append_singleton, ih,
      List.length_append, List.length_singleton, Nat.pow_succ]
    ring

end Text

namespace Decimal

theorem decimalValue_zeros (count : Int) : Text.decimalValue (zeros count) = 0 := by
  unfold zeros
  induction count.toNat with
  | zero => rfl
  | succ n ih =>
    rw [List.replicate_succ', Text.decimalValue_append_singleton, ih]
    rfl

theorem all_isDecimal_zeros (count : Int) : (zeros count).all CodePoint.isDecimal = true := by
  apply List.all_eq_true.mpr
  intro c hc
  rw [List.eq_of_mem_replicate hc]
  rfl

theorem decimalValue_zeros_append (count : Int) (n : Nat) :
    Text.decimalValue (zeros count ++ Text.ofNat n) = n := by
  rw [Text.decimalValue_append, decimalValue_zeros, Text.decimalValue_ofNat, Nat.zero_mul,
    Nat.zero_add]

theorem all_isDecimal_zeros_append (count : Int) (n : Nat) :
    (zeros count ++ Text.ofNat n).all CodePoint.isDecimal = true := by
  rw [List.all_append, all_isDecimal_zeros, Text.all_isDecimal_ofNat]
  rfl

end Decimal

namespace Numeral

inductive Pointed : Text → Text → Prop where
  | whole : Pointed [] []
  | fraction {digits : Text} : digits.all CodePoint.isDecimal = true →
      Pointed (CodePoint.ofChar '.' :: digits) digits

/--
The exponent at the end of a numeral, which is zero if nothing is written.
-/
inductive Raised : Text → Int → Prop where
  | none : Raised [] 0
  | positive {digits : Text} : digits ≠ [] → digits.all CodePoint.isDecimal = true →
      Raised (("e+" : Text) ++ digits) (Text.decimalValue digits)
  | negative {digits : Text} : digits ≠ [] → digits.all CodePoint.isDecimal = true →
      Raised (("e-" : Text) ++ digits) (-Text.decimalValue digits)

/--
The digits of a numeral as a natural number, and the power of ten that it is to be multiplied by.
-/
def reading (numeral : Text) : Nat × Int :=
  let whole := numeral.takeWhile CodePoint.isDecimal
  let afterWhole := numeral.drop whole.length
  let fraction :=
    if Text.startsWith afterWhole "." then (afterWhole.drop 1).takeWhile CodePoint.isDecimal else []
  let afterPoint := afterWhole.dropWhile fun c => c.is '.' || c.isDecimal
  (Text.decimalValue (whole ++ fraction), signedValue (afterPoint.drop 1) - fraction.length)

theorem binary64_eq_ofDecimal (numeral : Text) :
    binary64 numeral = Binary64.ofDecimal false (reading numeral).1 (reading numeral).2 :=
  rfl

section Parts

variable {whole point fraction mark : Text} {exponent : Int}

theorem digitsLength_of_all (h : whole.all CodePoint.isDecimal = true) :
    digitsLength whole = whole.length := by
  have hnil := digitsLength_append whole []
  rw [List.append_nil, if_pos h] at hnil
  exact hnil

theorem digitsLength_append_of_all (h : whole.all CodePoint.isDecimal = true)
    (hmark : digitsLength mark = 0) : digitsLength (whole ++ mark) = whole.length := by
  rw [digitsLength_append, if_pos h, hmark, Nat.add_zero]

theorem Raised.digitsLength_eq_zero (h : Raised mark exponent) : digitsLength mark = 0 := by
  cases h with
  | none => rfl
  | positive | negative => exact digitsLength_cons_eq_zero (by decide) _

theorem exponentLength_of_sign {sign : CodePoint} {digits : Text}
    (hsign : (sign.is '+' || sign.is '-') = true) (hne : digits ≠ [])
    (hall : digits.all CodePoint.isDecimal = true) :
    exponentLength (CodePoint.ofChar 'e' :: sign :: digits) = digits.length + 2 := by
  have hpos := List.length_pos_iff.mpr hne
  have hletter : ((CodePoint.ofChar 'e').is 'e' || (CodePoint.ofChar 'e').is 'E') = true := rfl
  rw [exponentLength_cons_cons, if_pos hletter, hsign]
  simp only [if_true, digitsLength_of_all hall]
  rw [if_neg (by omega)]
  omega

theorem Raised.exponentLength_eq (h : Raised mark exponent) :
    exponentLength mark = mark.length := by
  cases h with
  | none => rfl
  | positive hne hall => exact exponentLength_of_sign (by decide) hne hall
  | negative hne hall => exact exponentLength_of_sign (by decide) hne hall

theorem Raised.signedValue_eq (h : Raised mark exponent) :
    signedValue (mark.drop 1) = exponent := by
  cases h with
  | none | positive _ _ | negative _ _ => rfl

theorem mantissaLength_of_parts (hne : whole ≠ []) (hall : whole.all CodePoint.isDecimal = true)
    (hpoint : Pointed point fraction) (hmark : Raised mark exponent) :
    mantissaLength (whole ++ (point ++ mark)) = whole.length + point.length := by
  have hpos := List.length_pos_iff.mpr hne
  cases hpoint with
  | whole =>
    have hlength := digitsLength_append_of_all hall hmark.digitsLength_eq_zero
    rw [List.nil_append]
    simp only [mantissaLength, hlength, List.drop_left]
    cases hmark with
    | none => rfl
    | positive | negative => rfl
  | fraction hfraction =>
    have hlength := digitsLength_append_of_all hall
      (digitsLength_cons_eq_zero (show (CodePoint.ofChar '.').isDecimal = false by decide)
        (fraction ++ mark))
    have hdot : (CodePoint.ofChar '.').is '.' = true := rfl
    have hdrop : (whole ++ CodePoint.ofChar '.' :: (fraction ++ mark)).drop whole.length =
        CodePoint.ofChar '.' :: (fraction ++ mark) := List.drop_left
    rw [← hlength] at hdrop
    rw [List.cons_append, mantissaLength_of_drop hdrop, hlength,
      digitsLength_append_of_all hfraction hmark.digitsLength_eq_zero]
    simp [hdot, hpos]
    omega

theorem length_of_parts (hne : whole ≠ []) (hall : whole.all CodePoint.isDecimal = true)
    (hpoint : Pointed point fraction) (hmark : Raised mark exponent) :
    length (whole ++ (point ++ mark)) = (whole ++ (point ++ mark)).length := by
  have hpos := List.length_pos_iff.mpr hne
  have hdrop : (whole ++ (point ++ mark)).drop (whole.length + point.length) = mark := by
    rw [← List.append_assoc, ← List.length_append, List.drop_left]
  simp only [length, mantissaLength_of_parts hne hall hpoint hmark, hdrop, hmark.exponentLength_eq]
  rw [if_neg (by omega), List.length_append, List.length_append, Nat.add_assoc]

theorem takeWhile_append_of_all {p : CodePoint → Bool} (hall : whole.all p = true)
    (hmark : ∀ c ∈ mark.head?, p c = false) : (whole ++ mark).takeWhile p = whole := by
  rw [List.takeWhile_append_of_pos (List.all_eq_true.mp hall)]
  cases mark with
  | nil => simp
  | cons c rest => simp [hmark c rfl]

theorem dropWhile_append_of_all {p : CodePoint → Bool} (hall : whole.all p = true)
    (hmark : ∀ c ∈ mark.head?, p c = false) : (whole ++ mark).dropWhile p = mark := by
  rw [List.dropWhile_append_of_pos (List.all_eq_true.mp hall)]
  cases mark with
  | nil => rfl
  | cons c rest => simp [hmark c rfl]

theorem Raised.head_eq (h : Raised mark exponent) :
    ∀ c ∈ mark.head?, c = CodePoint.ofChar 'e' := by
  cases h with
  | none => exact nofun
  | positive | negative =>
    rintro _ ⟨⟩
    rfl

theorem reading_of_parts (hall : whole.all CodePoint.isDecimal = true)
    (hpoint : Pointed point fraction) (hmark : Raised mark exponent) :
    reading (whole ++ (point ++ mark)) =
      (Text.decimalValue (whole ++ fraction), exponent - fraction.length) := by
  have hletter : ∀ c ∈ mark.head?, c.isDecimal = false := by
    intro c hc
    rw [hmark.head_eq c hc]
    decide
  have hletter' : ∀ c ∈ mark.head?, (c.is '.' || c.isDecimal) = false := by
    intro c hc
    rw [hmark.head_eq c hc]
    decide
  have hhead : ∀ c ∈ (point ++ mark).head?, c.isDecimal = false := by
    cases hpoint with
    | whole => exact hletter
    | fraction =>
      rintro _ ⟨⟩
      decide
  unfold reading
  simp only [takeWhile_append_of_all hall hhead, List.drop_left]
  cases hpoint with
  | whole =>
    have hdot : Text.startsWith mark "." = false := by
      cases hmark with
      | none | positive _ _ | negative _ _ => rfl
    have hdrop : mark.dropWhile (fun c => c.is '.' || c.isDecimal) = mark :=
      dropWhile_append_of_all List.all_nil hletter'
    rw [List.nil_append, hdot, hdrop, hmark.signedValue_eq]
    rfl
  | fraction hfraction =>
    have hdot : Text.startsWith (CodePoint.ofChar '.' :: fraction ++ mark) "." = true := rfl
    have hdigits : (CodePoint.ofChar '.' :: fraction : Text).all
        (fun c => c.is '.' || c.isDecimal) = true := by
      rw [List.all_eq_true] at hfraction ⊢
      rintro c (_ | ⟨_, hc⟩)
      . rfl
      . rw [hfraction c hc, Bool.or_true]
    have hdrop := dropWhile_append_of_all hdigits hletter'
    have htake : ((CodePoint.ofChar '.' :: fraction ++ mark).drop 1).takeWhile
        CodePoint.isDecimal = fraction := takeWhile_append_of_all hfraction hletter
    rw [hdot, if_pos rfl, htake, hdrop, hmark.signedValue_eq]

end Parts

structure Gives (t : Text) (digits : Nat) (exponent : Int) : Prop where
  nonempty : t ≠ []
  length : Numeral.length t = t.length
  reading : Numeral.reading t = (digits, exponent)

theorem gives_of_parts {whole point fraction mark : Text} {exponent : Int} (hne : whole ≠ [])
    (hall : whole.all CodePoint.isDecimal = true) (hpoint : Pointed point fraction)
    (hmark : Raised mark exponent) :
    Gives (whole ++ (point ++ mark)) (Text.decimalValue (whole ++ fraction))
      (exponent - fraction.length) :=
  ⟨List.append_ne_nil_of_left_ne_nil hne _, length_of_parts hne hall hpoint hmark,
    reading_of_parts hall hpoint hmark⟩

theorem Gives.binary64 {t : Text} {digits : Nat} {exponent : Int} (h : Gives t digits exponent) :
    Numeral.binary64 t = Binary64.ofDecimal false digits exponent := by
  rw [binary64_eq_ofDecimal, h.reading]

end Numeral

namespace Decimal

open Numeral

variable {d : Decimal}

theorem raised_exponentPart (width : Nat) (exponent : Int) :
    Raised (exponentPart width exponent) exponent := by
  simp only [exponentPart, Text.concat, List.flatten_cons, List.flatten_nil, List.append_nil]
  generalize (width : Int) - (Text.ofNat exponent.natAbs).length = count
  have hne : zeros count ++ Text.ofNat exponent.natAbs ≠ [] :=
    List.append_ne_nil_of_right_ne_nil _ (Text.ofNat_ne_nil _)
  have hall := all_isDecimal_zeros_append count exponent.natAbs
  split
  . next hneg =>
    have hraised := Raised.negative hne hall
    rw [decimalValue_zeros_append] at hraised
    convert hraised using 1
    omega
  . next hneg =>
    have hraised := Raised.positive hne hall
    rw [decimalValue_zeros_append] at hraised
    convert hraised using 1
    omega

theorem all_isDecimal_take_drop (n count : Nat) :
    ((Text.ofNat n).take count).all CodePoint.isDecimal = true ∧
      ((Text.ofNat n).drop count).all CodePoint.isDecimal = true := by
  have hall := Text.all_isDecimal_ofNat n
  rw [← List.take_append_drop count (Text.ofNat n), List.all_append, Bool.and_eq_true] at hall
  exact hall

theorem all_isDecimal_padded (n : Nat) (count : Int) :
    (Text.ofNat n ++ zeros count).all CodePoint.isDecimal = true := by
  rw [List.all_append, all_isDecimal_zeros, Text.all_isDecimal_ofNat]
  rfl

theorem decimalValue_padded (n : Nat) (count : Int) :
    Text.decimalValue (Text.ofNat n ++ zeros count) = n * 10 ^ count.toNat := by
  rw [Text.decimalValue_append, decimalValue_zeros, Text.decimalValue_ofNat, length_zeros,
    Nat.add_zero]

theorem gives_padded (n : Nat) (count : Int) :
    Gives (Text.concat [Text.ofNat n, zeros count, ""]) (n * 10 ^ count.toNat) 0 := by
  have hgives := gives_of_parts (List.append_ne_nil_of_left_ne_nil (Text.ofNat_ne_nil n) _)
    (all_isDecimal_padded n count) .whole .none
  have hvalue : Text.decimalValue (Text.ofNat n ++ zeros count ++ []) = n * 10 ^ count.toNat := by
    rw [List.append_nil, decimalValue_padded]
  rw [hvalue] at hgives
  simp only [Text.concat, List.flatten_cons, List.flatten_nil]
  rw [← List.append_assoc]
  exact hgives

theorem gives_pointed (n : Nat) (count : Int) :
    Gives (Text.concat [Text.ofNat n, zeros count, ".0"]) (n * 10 ^ count.toNat * 10) (-1) := by
  have hgives := gives_of_parts (List.append_ne_nil_of_left_ne_nil (Text.ofNat_ne_nil n) _)
    (all_isDecimal_padded n count)
    (.fraction (show ("0" : Text).all CodePoint.isDecimal = true by decide)) .none
  have hvalue : Text.decimalValue (Text.ofNat n ++ zeros count ++ ("0" : Text)) =
      n * 10 ^ count.toNat * 10 := by
    rw [Text.decimalValue_append, decimalValue_padded]
    rfl
  rw [hvalue] at hgives
  simp only [Text.concat, List.flatten_cons, List.flatten_nil]
  rw [← List.append_assoc]
  exact hgives

theorem gives_split (hpos : 0 < d.magnitude)
    (hlt : ¬ (Text.ofNat d.digits).length ≤ d.magnitude) :
    Gives (Text.concat [(Text.ofNat d.digits).take d.magnitude.toNat, ".",
      (Text.ofNat d.digits).drop d.magnitude.toNat]) d.digits d.exponent := by
  obtain ⟨htake, hdrop⟩ := all_isDecimal_take_drop d.digits d.magnitude.toNat
  have hne : (Text.ofNat d.digits).take d.magnitude.toNat ≠ [] := by
    rw [← List.length_pos_iff, List.length_take]
    omega
  have hgives := gives_of_parts hne htake (.fraction hdrop) .none
  have hexponent : 0 - (((Text.ofNat d.digits).drop d.magnitude.toNat).length : Int) =
      d.exponent := by
    rw [List.length_drop]
    unfold magnitude at hpos hlt ⊢
    omega
  rw [List.take_append_drop, Text.decimalValue_ofNat, hexponent] at hgives
  simp only [Text.concat, List.flatten_cons, List.flatten_nil, List.append_nil] at hgives ⊢
  exact hgives

theorem gives_small (h : ¬ 0 < d.magnitude) :
    Gives (Text.concat ["0.", zeros (-d.magnitude), Text.ofNat d.digits]) d.digits d.exponent := by
  have hall := all_isDecimal_zeros_append (-d.magnitude) d.digits
  have hgives := gives_of_parts (List.cons_ne_nil (CodePoint.ofChar '0') []) (by decide)
    (.fraction hall) .none
  have hexponent : 0 - ((zeros (-d.magnitude) ++ Text.ofNat d.digits).length : Int) =
      d.exponent := by
    rw [List.length_append, length_zeros]
    unfold magnitude at h ⊢
    omega
  have hvalue : Text.decimalValue ([CodePoint.ofChar '0'] ++
      (zeros (-d.magnitude) ++ Text.ofNat d.digits)) = d.digits := by
    have hzero : Text.decimalValue [CodePoint.ofChar '0'] = 0 := rfl
    rw [Text.decimalValue_append, decimalValue_zeros_append, hzero, Nat.zero_mul, Nat.zero_add]
  rw [hvalue, hexponent] at hgives
  simp only [Text.concat, List.flatten_cons, List.flatten_nil, List.append_nil] at hgives ⊢
  exact hgives

theorem gives_raised (width : Nat) :
    Gives (d.mantissaText ++ exponentPart width (d.magnitude - 1)) d.digits d.exponent := by
  obtain ⟨htake, hdrop⟩ := all_isDecimal_take_drop d.digits 1
  have hpos := List.length_pos_iff.mpr (Text.ofNat_ne_nil d.digits)
  have hne : (Text.ofNat d.digits).take 1 ≠ [] := by
    rw [← List.length_pos_iff, List.length_take]
    omega
  have hraised := raised_exponentPart width (d.magnitude - 1)
  rw [mantissaText, List.append_assoc]
  split
  . next hone =>
    have hgives := gives_of_parts hne htake .whole hraised
    have hall : (Text.ofNat d.digits).take 1 = Text.ofNat d.digits := by
      rw [List.take_of_length_le (Nat.le_of_eq hone)]
    rw [hall] at hgives ⊢
    rw [List.append_nil, Text.decimalValue_ofNat] at hgives
    convert hgives using 1
    rw [magnitude, hone]
    simp
  . have hgives := gives_of_parts hne htake (.fraction hdrop) hraised
    rw [List.take_append_drop, Text.decimalValue_ofNat] at hgives
    convert hgives using 1
    rw [List.length_drop, magnitude]
    omega

theorem exists_gives (layout : Layout) (d : Decimal) : ∃ (digits : Nat) (exponent : Int),
    Gives (d.text layout) digits exponent ∧ (digits * 10 ^ exponent : ℚ) = d.value := by
  by_cases hpositional : d.IsPositional layout
  . rw [text_of_isPositional hpositional]
    split
    . next hwhole =>
      have hnonneg : 0 ≤ d.exponent := by
        unfold magnitude at hwhole
        omega
      have hzeros : d.magnitude - (Text.ofNat d.digits).length = d.exponent := by
        rw [magnitude, add_sub_cancel_right]
      rw [hzeros, value, ten_zpow_of_nonneg hnonneg]
      cases layout.point with
      | true =>
        refine ⟨_, _, gives_pointed d.digits d.exponent, ?_⟩
        rw [zpow_neg_one]
        push_cast
        field_simp
      | false =>
        refine ⟨_, _, gives_padded d.digits d.exponent, ?_⟩
        rw [zpow_zero, mul_one]
        push_cast
        rfl
    . next hwhole =>
      split
      . next hpos => exact ⟨_, _, gives_split hpos hwhole, rfl⟩
      . next hpos => exact ⟨_, _, gives_small hpos, rfl⟩
  . rw [text_of_not_isPositional hpositional]
    exact ⟨_, _, gives_raised _, rfl⟩

theorem all_isDecimal_text_data (d : Decimal) :
    (d.text Number.data).all CodePoint.isDecimal = false := by
  have hpoint (t u : Text) : (t ++ CodePoint.ofChar '.' :: u).all CodePoint.isDecimal = false := by
    rw [List.all_append, List.all_cons]
    exact Bool.and_false _
  by_cases hpositional : d.IsPositional Number.data
  . rw [text_of_isPositional hpositional]
    simp only [Text.concat, List.flatten_cons, List.flatten_nil]
    split
    . rw [← List.append_assoc]
      exact hpoint _ _
    . split
      . exact hpoint _ _
      . exact hpoint ("0" : Text) _
  . rw [List.all_eq_false]
    exact ⟨exponentMark, mem_text_of_not_isPositional hpositional, by decide⟩

end Decimal

namespace Number

open Binary64

/--
What a finite floating point number is written as in data, without its sign.
-/
def magnitudeText (rank : Rank) : Text :=
  if rank.val = 0 then "0.0" else (shortest rank.val).text data

theorem dataText?_finite (negative : Bool) (rank : Rank) :
    (Number.float (.finite negative rank)).dataText? =
      some (signed negative (magnitudeText rank)) :=
  rfl

theorem binary64_text_shortest (layout : Decimal.Layout) {rank : Rank} (hne : rank.val ≠ 0) :
    Numeral.binary64 ((shortest rank.val).text layout) = .finite false rank := by
  have hpos : 0 < rank.val := Nat.pos_of_ne_zero hne
  obtain ⟨hvalue, hrounds⟩ := denotes_shortest hpos rank.isLt
  obtain ⟨digits, exponent, hgives, heq⟩ := (shortest rank.val).exists_gives layout
  rw [← heq] at hvalue hrounds
  have hdigits : 0 < digits := by
    rw [Nat.pos_iff_ne_zero]
    rintro rfl
    simp at hvalue
  rw [hgives.binary64]
  exact ofDecimal_eq_of_rounds hpos rank.isLt hdigits hrounds false

theorem reads_magnitudeText (rank : Rank) :
    Numeral.length (magnitudeText rank) = (magnitudeText rank).length ∧
      (magnitudeText rank).all CodePoint.isDecimal = false ∧
        Numeral.binary64 (magnitudeText rank) = .finite false rank := by
  unfold magnitudeText
  split
  . next hzero =>
    have hrank : rank = ⟨0, by decide⟩ := Fin.ext hzero
    rw [hrank]
    decide
  . next hne =>
    obtain ⟨digits, exponent, hgives, -⟩ := (shortest rank.val).exists_gives data
    exact ⟨hgives.length, (shortest rank.val).all_isDecimal_text_data,
      binary64_text_shortest data hne⟩

end Number

end PageBinding
