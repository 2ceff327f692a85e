import Mathlib
import PageBinding.Binary64

/-!
This module contains which numbers are too large for a floating point number: those from half a unit
of the last binade below `2 ^ 1024` on, which are rounded to a power of two that does not exist.
-/

namespace PageBinding

namespace Binary64

def overflow : Nat :=
  (2 ^ 54 - 1) * 2 ^ 970

theorem scale_scale (n a b : Nat) : n * 2 ^ a * 2 ^ b = n * 2 ^ (a + b) := by
  rw [Nat.mul_assoc, Nat.pow_add]

theorem roundQuotient_cases (num den : Nat) :
    roundQuotient num den = num / den ∧
        (2 * (num % den) < den ∨ 2 * (num % den) = den ∧ num / den % 2 = 0) ∨
      roundQuotient num den = num / den + 1 ∧ den ≤ 2 * (num % den) := by
  unfold roundQuotient
  simp only [Bool.or_eq_true, decide_eq_true_eq, Bool.and_eq_true, beq_iff_eq]
  split
  . next h => exact .inl ⟨rfl, h⟩
  . next h => exact .inr ⟨rfl, by omega⟩

theorem bounds_of_shift (num : Nat) {den : Nat} (hden : 0 < den) :
    num < den * 2 ^ ((num / den).log2 - 52 + 53) ∧
      ((num / den).log2 - 52 = 0 ∨ den * 2 ^ ((num / den).log2 - 52 + 52) ≤ num) := by
  constructor
  . have hlt : num / den < 2 ^ ((num / den).log2 - 52 + 53) :=
      Nat.lt_of_lt_of_le Nat.lt_log2_self (Nat.pow_le_pow_right (by decide) (by omega))
    rw [Nat.mul_comm]
    exact (Nat.div_lt_iff_lt_mul hden).mp hlt
  . rcases Nat.eq_zero_or_pos ((num / den).log2 - 52) with hzero | hpos
    . exact .inl hzero
    . right
      have hne : num / den ≠ 0 := by
        intro hzero
        rw [hzero] at hpos
        simp at hpos
      have hle : 2 ^ ((num / den).log2 - 52 + 52) ≤ num / den := by
        rw [Nat.sub_add_cancel (by omega)]
        exact Nat.log2_self_le hne
      rw [Nat.mul_comm]
      exact (Nat.le_div_iff_mul_le hden).mp hle

theorem le_roundQuotient_iff (num half : Nat) (hupper : num < 2 * half * 2 ^ 53) :
    2 ^ 53 ≤ roundQuotient num (2 * half) ↔ (2 ^ 54 - 1) * half ≤ num := by
  have hlt : num / (2 * half) < 2 ^ 53 := Nat.div_lt_of_lt_mul hupper
  have hsplit := Nat.div_add_mod num (2 * half)
  have hcases := roundQuotient_cases num (2 * half)
  have hle (k : Nat) (h : num / (2 * half) ≤ k) :=
    Nat.mul_le_mul_left (2 * half) h
  have hrest : num % (2 * half) < 2 * half := Nat.mod_lt num (by omega)
  generalize roundQuotient num (2 * half) = rounded at hcases ⊢
  generalize num % (2 * half) = rest at hsplit hcases hrest
  generalize num / (2 * half) = quotient at hlt hsplit hcases hle
  by_cases hlast : quotient = 2 ^ 53 - 1
  . subst hlast
    omega
  . have hbelow := hle (2 ^ 53 - 2) (by omega)
    omega

theorem le_nearestRank_iff {num den : Nat} (hden : 0 < den) :
    2047 * binade ≤ nearestRank num den ↔ (2 ^ 54 - 1) * (den * 2 ^ 2044) ≤ num := by
  obtain ⟨hupper, hlower⟩ := bounds_of_shift num hden
  have hbinade : binade = 2 ^ 52 := rfl
  have hpow (n : Nat) : Nat.pow 2 n = 2 ^ n := rfl
  unfold nearestRank
  dsimp only
  generalize (num / den).log2 - 52 = shift at hupper hlower ⊢
  rw [hpow, hbinade]
  have hcases := roundQuotient_cases num (den * 2 ^ shift)
  have hquotient : num / (den * 2 ^ shift) < 2 ^ 53 := by
    apply Nat.div_lt_of_lt_mul
    rw [scale_scale]
    exact hupper
  -- Only with a shift of 2045 does the rounding decide whether the rank is beyond the last one.
  rcases Nat.lt_trichotomy shift 2045 with hbelow | rfl | habove
  . have hsmall : den * 2 ^ (shift + 53) ≤ den * 2 ^ 2044 * 2 ^ 53 := by
      calc den * 2 ^ (shift + 53)
        _ ≤ den * 2 ^ (2044 + 53) :=
          Nat.mul_le_mul_left den (Nat.pow_le_pow_right (by decide) (by omega))
        _ = den * 2 ^ 2044 * 2 ^ 53 := (scale_scale den 2044 53).symm
    have hrank : shift * 2 ^ 52 ≤ 2044 * 2 ^ 52 := Nat.mul_le_mul_right _ (by omega)
    generalize den * 2 ^ 2044 = unit at hsmall ⊢
    omega
  . have hdouble : den * 2 ^ 2045 = 2 * (den * 2 ^ 2044) := by
      rw [Nat.pow_succ 2 2044]
      omega
    have hrounded := le_roundQuotient_iff num (den * 2 ^ 2044) (by
      rw [← hdouble, scale_scale]
      exact hupper)
    rw [hdouble, ← hrounded]
    omega
  . have hlarge : den * 2 ^ 2044 * 2 ^ 54 ≤ den * 2 ^ (shift + 52) := by
      calc den * 2 ^ 2044 * 2 ^ 54
        _ = den * 2 ^ (2044 + 54) := scale_scale den 2044 54
        _ ≤ den * 2 ^ (shift + 52) :=
          Nat.mul_le_mul_left den (Nat.pow_le_pow_right (by decide) (by omega))
    have hfull : 2 ^ 52 ≤ num / (den * 2 ^ shift) := by
      rw [Nat.le_div_iff_mul_le (Nat.mul_pos hden (Nat.two_pow_pos shift)), Nat.mul_comm,
        scale_scale]
      exact hlower.resolve_left (by omega)
    have hrank : 2046 * 2 ^ 52 ≤ shift * 2 ^ 52 := Nat.mul_le_mul_right _ (by omega)
    have hnum := hlower.resolve_left (by omega)
    generalize den * 2 ^ 2044 = unit at hlarge ⊢
    omega

theorem ofUnits_eq_infinite_iff (negative : Bool) {num den : Nat} (hden : 0 < den) :
    ofUnits negative num den = .infinite negative ↔ (2 ^ 54 - 1) * (den * 2 ^ 2044) ≤ num := by
  rw [← le_nearestRank_iff hden]
  unfold ofUnits
  dsimp only
  split
  . next h => simpa using Nat.not_le.mpr h
  . next h => simpa using Nat.not_lt.mp h

theorem ofUnits_cases (negative : Bool) (num den : Nat) :
    (∃ rank, ofUnits negative num den = .finite negative rank) ∨
      ofUnits negative num den = .infinite negative := by
  unfold ofUnits
  dsimp only
  split
  . exact .inl ⟨_, rfl⟩
  . exact .inr rfl

theorem one_pos : 0 < one :=
  Nat.two_pow_pos 1074

theorem scale_one (n : Nat) : n * 2 ^ 970 * one = n * 2 ^ 2044 :=
  scale_scale n 970 1074

theorem ofRatio_eq_infinite_iff (negative : Bool) {num den : Nat} (hden : 0 < den) :
    ofRatio negative num den = .infinite negative ↔ overflow * den ≤ num := by
  rw [ofRatio, ofUnits_eq_infinite_iff negative hden, ← scale_one, ← Nat.mul_assoc,
    Nat.mul_le_mul_right_iff one_pos, overflow, Nat.mul_assoc, Nat.mul_comm (2 ^ 970) den]

end Binary64

end PageBinding
