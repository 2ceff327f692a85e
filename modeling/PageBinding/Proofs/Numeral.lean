import PageBinding.Numeral

/-!
This module contains how far numerals reach: past their last digit only the next code point matters,
as long as it does not start an exponent.
-/

namespace PageBinding

theorem CodePoint.isDecimal_eq_false_of_gap {c : CodePoint}
    (h : c.val < 48 ∨ 57 < c.val ∧ c.val < 0x660) : c.isDecimal = false := by
  have hzeros : ∀ start ∈ CodePoint.zeros, start = 48 ∨ 0x660 ≤ start := by
    decide
  simp only [isDecimal, digitValue?, Option.isSome_map, ← Bool.not_eq_true, List.find?_isSome,
    Bool.and_eq_true, decide_eq_true_eq, not_exists]
  rintro start ⟨hmem, hle⟩
  have := hzeros start hmem
  omega

namespace Numeral

variable {w u u' : Text} {c : CodePoint} {r : Text}

theorem digitsLength_append (w u : Text) :
    digitsLength (w ++ u) =
      if w.all CodePoint.isDecimal then w.length + digitsLength u else digitsLength w := by
  induction w with
  | nil => simp [digitsLength]
  | cons d w ih =>
    cases hd : d.isDecimal with
    | false => simp [digitsLength, hd]
    | true =>
      simp only [digitsLength, List.cons_append, List.takeWhile_cons, hd, if_true,
        List.length_cons, List.all_cons, Bool.true_and] at ih ⊢
      rw [ih]
      split <;> omega

theorem digitsLength_cons_eq_zero (h : c.isDecimal = false) (r : Text) :
    digitsLength (c :: r) = 0 := by
  simp [digitsLength, h]

theorem digitsLength_le (t : Text) : digitsLength t ≤ t.length := by
  unfold digitsLength
  exact (List.takeWhile_prefix _).length_le

theorem digitsLength_eq_zero (h : ∀ c ∈ u.head?, c.isDecimal = false) : digitsLength u = 0 := by
  cases u with
  | nil => rfl
  | cons c r => exact digitsLength_cons_eq_zero (h c rfl) r

theorem digitsLength_congr (h : digitsLength (w ++ u) ≤ w.length)
    (hhead : ∀ c ∈ u'.head?, c ∈ u.head?) : digitsLength (w ++ u') = digitsLength (w ++ u) := by
  rw [digitsLength_append] at h
  rw [digitsLength_append, digitsLength_append]
  split
  . next hall =>
    rw [if_pos hall] at h
    have hstop : ∀ c ∈ u.head?, c.isDecimal = false := by
      intro c hc
      obtain ⟨r, rfl⟩ := List.head?_eq_some_iff.mp hc
      rw [Bool.eq_false_iff]
      intro hdecimal
      have hpos : 0 < digitsLength (c :: r) := by simp [digitsLength, hdecimal]
      omega
    rw [digitsLength_eq_zero hstop, digitsLength_eq_zero fun c hc => hstop c (hhead c hc)]
  . rfl

theorem mantissaLength_of_drop {t rest : Text} {d : CodePoint}
    (h : t.drop (digitsLength t) = d :: rest) :
    mantissaLength t =
      if d.is '.' && (0 < digitsLength t || 0 < digitsLength rest) then
        digitsLength t + 1 + digitsLength rest
      else digitsLength t := by
  simp only [mantissaLength, h]

theorem digitsLength_le_mantissaLength (t : Text) : digitsLength t ≤ mantissaLength t := by
  simp only [mantissaLength]
  split
  . split <;> omega
  . omega

theorem mantissaLength_eq_digitsLength {t : Text}
    (h : ∀ c ∈ (t.drop (digitsLength t)).head?, c.is '.' = false) :
    mantissaLength t = digitsLength t := by
  cases hdrop : t.drop (digitsLength t) with
  | nil => simp only [mantissaLength, hdrop]
  | cons d rest =>
    have hdot : d.is '.' = false := h d (by rw [hdrop]; rfl)
    rw [mantissaLength_of_drop hdrop, hdot]
    rfl

theorem mantissaLength_congr (hw : w ≠ []) (h : mantissaLength (w ++ u) ≤ w.length)
    (hhead : ∀ c ∈ u'.head?, c ∈ u.head?) :
    mantissaLength (w ++ u') = mantissaLength (w ++ u) := by
  have hle := Nat.le_trans (digitsLength_le_mantissaLength (w ++ u)) h
  have hwhole := digitsLength_congr hle hhead
  have hpos := List.length_pos_iff.mpr hw
  rcases Nat.eq_or_lt_of_le hle with heq | hlt
  . -- All of the word are whole digits, so a point would be part of the mantissa.
    have hpoint : ∀ c ∈ u.head?, c.is '.' = false := by
      intro c hc
      obtain ⟨r, rfl⟩ := List.head?_eq_some_iff.mp hc
      have hdrop : (w ++ c :: r).drop (digitsLength (w ++ c :: r)) = c :: r := by
        rw [heq, List.drop_left]
      rw [mantissaLength_of_drop hdrop, heq] at h
      rw [Bool.eq_false_iff]
      intro hdot
      simp only [hdot, hpos, decide_true, Bool.true_or, Bool.and_true, if_true] at h
      omega
    rw [mantissaLength_eq_digitsLength, mantissaLength_eq_digitsLength, hwhole]
    . rwa [heq, List.drop_left]
    . rw [hwhole, heq, List.drop_left]
      exact fun c hc => hpoint c (hhead c hc)
  . have hdrop (v : Text) : (w ++ v).drop (digitsLength (w ++ u)) =
        w.drop (digitsLength (w ++ u)) ++ v :=
      List.drop_append_of_le_length hle
    have hlength := List.length_drop (l := w) (i := digitsLength (w ++ u))
    cases hrest : w.drop (digitsLength (w ++ u)) with
    | nil =>
      rw [hrest, List.length_nil] at hlength
      omega
    | cons d v =>
      rw [hrest, List.length_cons] at hlength
      have hu : (w ++ u).drop (digitsLength (w ++ u)) = d :: (v ++ u) := by
        rw [hdrop, hrest, List.cons_append]
      have hu' : (w ++ u').drop (digitsLength (w ++ u')) = d :: (v ++ u') := by
        rw [hwhole, hdrop, hrest, List.cons_append]
      rw [mantissaLength_of_drop hu] at h ⊢
      rw [mantissaLength_of_drop hu', hwhole]
      have hfraction : d.is '.' = true → digitsLength (v ++ u) ≤ v.length := by
        intro hd
        rw [hd, Bool.true_and] at h
        split at h
        . omega
        . next hnone =>
          simp only [Bool.or_eq_true, decide_eq_true_eq, not_or] at hnone
          omega
      cases hd : d.is '.' with
      | false => rfl
      | true => rw [digitsLength_congr (hfraction hd) hhead]

theorem exponentLength_cons_cons (y s : CodePoint) (v : Text) :
    exponentLength (y :: s :: v) =
      if y.is 'e' || y.is 'E' then
        let signed := s.is '+' || s.is '-'
        let digits := if signed then digitsLength v else digitsLength (s :: v)
        if digits = 0 then 0 else (if signed then 2 else 1) + digits
      else 0 := by
  unfold exponentLength
  cases hexponent : y.is 'e' || y.is 'E' with
  | false => simp only [hexponent, Bool.false_eq_true, if_false]
  | true =>
    cases hsigned : s.is '+' || s.is '-' with
    | false =>
      simp only [hexponent, hsigned, Bool.false_eq_true, if_false, if_true, List.drop_zero,
        Nat.add_zero]
    | true => simp only [hexponent, hsigned, if_true, List.drop_succ_cons, List.drop_zero]

theorem exponentLength_ne_one (t : Text) : exponentLength t ≠ 1 := by
  match t with
  | [] => decide
  | [y] => simp [exponentLength, digitsLength]
  | y :: s :: v =>
    rw [exponentLength_cons_cons]
    grind

theorem exponentLength_congr (hw : w ≠ []) (h : exponentLength (w ++ u) = w.length)
    (hhead : ∀ c ∈ u'.head?, c ∈ u.head?) : exponentLength (w ++ u') = w.length := by
  match w with
  | [] => exact absurd rfl hw
  | [y] => exact absurd h (exponentLength_ne_one _)
  | y :: s :: v =>
    simp only [List.cons_append, exponentLength_cons_cons, List.length_cons] at h ⊢
    split at h
    . next hexponent =>
      rw [if_pos hexponent]
      cases hsigned : s.is '+' || s.is '-' with
      | true =>
        simp only [hsigned, if_true] at h ⊢
        have hdigits : digitsLength (v ++ u) ≤ v.length := by
          split at h <;> omega
        rw [digitsLength_congr hdigits hhead]
        exact h
      | false =>
        simp only [hsigned, Bool.false_eq_true, if_false] at h ⊢
        have hdigits : digitsLength (s :: v ++ u) ≤ (s :: v).length := by
          rw [List.length_cons, List.cons_append]
          split at h <;> omega
        have hcongr := digitsLength_congr hdigits hhead
        rw [List.cons_append, List.cons_append] at hcongr
        rw [hcongr]
        exact h
    . omega

theorem exponentLength_eq_zero (h : ∀ c ∈ u.head?, c.is 'e' = false ∧ c.is 'E' = false) :
    exponentLength u = 0 := by
  cases u with
  | nil => rfl
  | cons c r => simp [exponentLength, h c rfl]

/--
A numeral can be followed by anything that starts with the same code point, unless that starts an
exponent, and by nothing.
-/
theorem length_congr (hw : w ≠ []) (h : length (w ++ u) = w.length)
    (hhead : ∀ c ∈ u'.head?, c ∈ u.head? ∧ c.is 'e' = false ∧ c.is 'E' = false) :
    length (w ++ u') = w.length := by
  have hstart : ∀ c ∈ u'.head?, c ∈ u.head? := fun c hc => (hhead c hc).1
  have hpos := List.length_pos_iff.mpr hw
  unfold length at h ⊢
  dsimp only at h ⊢
  have hmantissa : mantissaLength (w ++ u) ≤ w.length := by
    split at h <;> omega
  rw [mantissaLength_congr hw hmantissa hstart]
  split at h
  . omega
  . next hne =>
    rw [if_neg hne]
    have hlength := List.length_drop (l := w) (i := mantissaLength (w ++ u))
    rw [List.drop_append_of_le_length hmantissa] at h ⊢
    by_cases hrest : w.drop (mantissaLength (w ++ u)) = []
    . rw [hrest, List.length_nil] at hlength
      rw [hrest, List.nil_append, exponentLength_eq_zero fun c hc => (hhead c hc).2]
      omega
    . have hread : exponentLength (w.drop (mantissaLength (w ++ u)) ++ u) =
          (w.drop (mantissaLength (w ++ u))).length := by omega
      rw [exponentLength_congr hrest hread hstart]
      omega

theorem mantissaLength_le (t : Text) : mantissaLength t ≤ t.length := by
  have hwhole := digitsLength_le t
  unfold mantissaLength
  dsimp only
  split
  . next d rest hdrop =>
    have hlength := congrArg List.length hdrop
    rw [List.length_drop, List.length_cons] at hlength
    have hrest := digitsLength_le rest
    split <;> omega
  . exact hwhole

theorem exponentLength_le (t : Text) : exponentLength t ≤ t.length := by
  match t with
  | [] => exact Nat.le_refl 0
  | [y] => simp [exponentLength, digitsLength]
  | y :: s :: v =>
    have hv := digitsLength_le v
    have hsv := digitsLength_le (s :: v)
    rw [exponentLength_cons_cons]
    simp only [List.length_cons] at hsv ⊢
    split
    . cases s.is '+' || s.is '-' with
      | true =>
        simp only [if_true]
        split <;> omega
      | false =>
        simp only [Bool.false_eq_true, if_false]
        split <;> omega
    . omega

theorem length_le (t : Text) : length t ≤ t.length := by
  have hmantissa := mantissaLength_le t
  have hexponent := exponentLength_le (t.drop (mantissaLength t))
  rw [List.length_drop] at hexponent
  unfold length
  dsimp only
  split <;> omega

theorem length_of_all_isDecimal (hw : w ≠ []) (hall : w.all CodePoint.isDecimal = true)
    {rest : Text} (hrest : ∀ c ∈ rest.head?,
      c.isDecimal = false ∧ c.is '.' = false ∧ c.is 'e' = false ∧ c.is 'E' = false) :
    length (w ++ rest) = w.length := by
  have hpos := List.length_pos_iff.mpr hw
  have hdigits : digitsLength rest = 0 := digitsLength_eq_zero fun c hc => (hrest c hc).1
  have hwhole : digitsLength (w ++ rest) = w.length := by
    rw [digitsLength_append, if_pos hall, hdigits, Nat.add_zero]
  have hmantissa : mantissaLength (w ++ rest) = w.length := by
    simp only [mantissaLength, hwhole, List.drop_left]
    cases rest with
    | nil => rfl
    | cons c r => simp [(hrest c rfl).2.1]
  have hexponent : exponentLength rest = 0 :=
    exponentLength_eq_zero fun c hc => (hrest c hc).2.2
  simp only [length, hmantissa, List.drop_left, hexponent, Nat.add_zero]
  rw [if_neg (by omega)]

section Append

variable {w rest : Text}

def Stops (c : CodePoint) : Prop :=
  c.isDecimal = false ∧ c.is '.' = false ∧ c.is 'e' = false ∧ c.is 'E' = false ∧
    c.is '+' = false ∧ c.is '-' = false

instance (c : CodePoint) : Decidable (Stops c) :=
  inferInstanceAs (Decidable (_ ∧ _))

theorem digitsLength_append_of_stops (hrest : ∀ c ∈ rest.head?, Stops c) (w : Text) :
    digitsLength (w ++ rest) = digitsLength w := by
  have hzero : digitsLength rest = 0 := digitsLength_eq_zero fun c hc => (hrest c hc).1
  have hnil := digitsLength_append w []
  rw [List.append_nil] at hnil
  rw [hnil, digitsLength_append, hzero]
  rfl

theorem mantissaLength_append_of_stops (hrest : ∀ c ∈ rest.head?, Stops c) (w : Text) :
    mantissaLength (w ++ rest) = mantissaLength w := by
  unfold mantissaLength
  dsimp only
  rw [digitsLength_append_of_stops hrest, List.drop_append_of_le_length (digitsLength_le w)]
  cases w.drop (digitsLength w) with
  | nil =>
    cases rest with
    | nil => rfl
    | cons c r => simp [(hrest c rfl).2.1]
  | cons c v =>
    dsimp only [List.cons_append]
    rw [digitsLength_append_of_stops hrest]

theorem exponentLength_append_of_stops (hrest : ∀ c ∈ rest.head?, Stops c) (w : Text) :
    exponentLength (w ++ rest) = exponentLength w := by
  match w with
  | [] =>
    cases rest with
    | nil => rfl
    | cons c r =>
      obtain ⟨-, -, he, hE, -⟩ := hrest c rfl
      simp [exponentLength, he, hE]
  | [y] =>
    cases rest with
    | nil => rfl
    | cons c r =>
      obtain ⟨hdecimal, -, -, -, hplus, hminus⟩ := hrest c rfl
      rw [List.singleton_append, exponentLength_cons_cons]
      simp [exponentLength, digitsLength, hdecimal, hplus, hminus]
  | y :: s :: v =>
    have hdigits := digitsLength_append_of_stops hrest (s :: v)
    rw [List.cons_append] at hdigits
    rw [List.cons_append, List.cons_append, exponentLength_cons_cons, exponentLength_cons_cons,
      hdigits, digitsLength_append_of_stops hrest]

theorem length_append_of_stops (hrest : ∀ c ∈ rest.head?, Stops c) (w : Text) :
    length (w ++ rest) = length w := by
  unfold length
  dsimp only
  rw [mantissaLength_append_of_stops hrest,
    List.drop_append_of_le_length (mantissaLength_le w), exponentLength_append_of_stops hrest]

end Append

theorem exists_of_length_pos (h : 0 < length (c :: r)) :
    c.isDecimal = true ∨ c.is '.' = true := by
  cases hdecimal : c.isDecimal with
  | true => exact .inl rfl
  | false =>
    right
    have hmantissa : mantissaLength (c :: r) ≠ 0 := by
      intro hzero
      rw [length, hzero] at h
      simp at h
    have hwhole : digitsLength (c :: r) = 0 := digitsLength_cons_eq_zero hdecimal r
    simp only [mantissaLength, hwhole, List.drop_zero] at hmantissa
    cases hdot : c.is '.' with
    | true => rfl
    | false => simp [hdot] at hmantissa

end Numeral

end PageBinding
