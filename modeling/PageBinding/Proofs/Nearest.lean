import Mathlib
import PageBinding.Proofs.Binary64

/-!
This module contains which numbers are rounded to a given floating point number: those no further
away than halfway to the next one on either side, and just half of them only if its rank is even.
-/

namespace PageBinding

namespace Binary64

theorem binade_eq : binade = 2 ^ 52 :=
  rfl

theorem unitsAt_step {shift steps : Nat} (hsteps : steps ≤ 2 * binade)
    (h : shift = 0 ∨ binade ≤ steps) : unitsAt (shift * binade + steps) = steps * 2 ^ shift := by
  have hpos : 0 < binade := Nat.two_pow_pos 52
  unfold unitsAt
  rw [Nat.pow_eq]
  generalize binade = b at *
  rcases Nat.lt_or_eq_of_le hsteps with hlt | rfl
  . rcases Nat.eq_zero_or_pos shift with rfl | hshift
    . simp [hlt]
    . have hle := h.resolve_left (by omega)
      obtain ⟨rest, rfl⟩ := Nat.exists_eq_add_of_le hle
      have hrank : shift * b + (b + rest) = rest + b * (shift + 1) := by ring
      have hlarge : ¬ rest + b * (shift + 1) < 2 * b := by
        have := Nat.mul_le_mul_left b (show 2 ≤ shift + 1 by omega)
        omega
      have hrest : rest < b := by omega
      rw [hrank, if_neg hlarge, Nat.add_mul_mod_self_left, Nat.mod_eq_of_lt hrest,
        Nat.add_mul_div_left _ _ hpos, Nat.div_eq_of_lt hrest]
      simp
  . have hrank : shift * b + 2 * b = b * (shift + 2) := by ring
    have hlarge : ¬ b * (shift + 2) < 2 * b := by
      have := Nat.mul_le_mul_left b (show 2 ≤ shift + 2 by omega)
      omega
    rw [hrank, if_neg hlarge, Nat.mul_mod_right, Nat.mul_div_cancel_left _ hpos]
    have hexponent : shift + 2 - 1 = shift + 1 := by omega
    rw [hexponent, Nat.pow_succ]
    ring

theorem exists_steps (rank : Nat) : ∃ shift steps, rank = shift * binade + steps ∧
    steps < 2 * binade ∧ (shift = 0 ∨ binade ≤ steps) := by
  have hpos : 0 < binade := Nat.two_pow_pos 52
  generalize binade = b at *
  by_cases hsmall : rank < 2 * b
  . exact ⟨0, rank, by omega, hsmall, .inl rfl⟩
  . have hsplit := Nat.div_add_mod rank b
    have hrest := Nat.mod_lt rank hpos
    have hquotient : 2 ≤ rank / b := (Nat.le_div_iff_mul_le hpos).mpr (by omega)
    obtain ⟨shift, hshift⟩ := Nat.exists_eq_add_of_le' (show 1 ≤ rank / b by omega)
    rw [hshift] at hsplit
    have hexpand : b * (shift + 1) = shift * b + b := by ring
    exact ⟨shift, b + rank % b, by omega, by omega, .inr (by omega)⟩

theorem unitsAt_succ {shift steps : Nat} (hsteps : steps < 2 * binade)
    (h : shift = 0 ∨ binade ≤ steps) : unitsAt (shift * binade + steps + 1) =
      unitsAt (shift * binade + steps) + 2 ^ shift := by
  rw [Nat.add_assoc, unitsAt_step hsteps (h.imp_right Nat.le_succ_of_le),
    unitsAt_step (Nat.le_of_lt hsteps) h, Nat.succ_mul]

theorem strictMono_unitsAt : StrictMono unitsAt := by
  apply strictMono_nat_of_lt_succ
  intro rank
  obtain ⟨shift, steps, rfl, hsteps, h⟩ := exists_steps rank
  rw [unitsAt_succ hsteps h]
  exact Nat.lt_add_of_pos_right (Nat.two_pow_pos shift)

structure Rounds (rank : Nat) (units : ℚ) : Prop where
  low : (unitsAt (rank - 1) + unitsAt rank : ℚ) ≤ 2 * units
  high : 2 * units ≤ unitsAt rank + unitsAt (rank + 1)
  odd : rank % 2 = 1 →
    (unitsAt (rank - 1) + unitsAt rank : ℚ) < 2 * units ∧
      2 * units < unitsAt rank + unitsAt (rank + 1)

theorem Rounds.le_of_rounds {rank other : Nat} {units : ℚ} (h : Rounds rank units)
    (hother : Rounds other units) : other ≤ rank := by
  by_contra hlt
  have hlow := hother.low
  have hhigh := h.high
  have hself : unitsAt rank ≤ unitsAt (other - 1) := strictMono_unitsAt.monotone (by omega)
  have hnext : unitsAt (rank + 1) ≤ unitsAt other := strictMono_unitsAt.monotone (by omega)
  have hself' : (unitsAt rank : ℚ) ≤ unitsAt (other - 1) := by exact_mod_cast hself
  have hnext' : (unitsAt (rank + 1) : ℚ) ≤ unitsAt other := by exact_mod_cast hnext
  -- Two neighbors meet halfway, and one of them is odd.
  have hsucc : other = rank + 1 := by
    by_contra hne
    have hfar : unitsAt (rank + 1) < unitsAt other := strictMono_unitsAt (by omega)
    have hfar' : (unitsAt (rank + 1) : ℚ) < unitsAt other := by exact_mod_cast hfar
    linarith
  rcases Nat.mod_two_eq_zero_or_one rank with heven | hodd
  . have := (hother.odd (by omega)).1
    linarith
  . have := (h.odd hodd).2
    linarith

theorem Rounds.eq_of_rounds {rank other : Nat} {units : ℚ} (h : Rounds rank units)
    (hother : Rounds other units) : other = rank :=
  Nat.le_antisymm (h.le_of_rounds hother) (hother.le_of_rounds h)

theorem roundQuotient_bounds (num : Nat) {den : Nat} (hden : 0 < den) :
    2 * (roundQuotient num den * den) ≤ 2 * num + den ∧
      2 * num ≤ 2 * (roundQuotient num den * den) + den ∧
        (roundQuotient num den % 2 = 1 →
          2 * (roundQuotient num den * den) < 2 * num + den ∧
            2 * num < 2 * (roundQuotient num den * den) + den) := by
  have hsplit := Nat.div_add_mod' num den
  have hrest := Nat.mod_lt num hden
  by_cases htie : 2 * (num % den) = den ∧ num / den % 2 = 0
  . have hround : roundQuotient num den = num / den := by
      simp [roundQuotient, htie.1, htie.2]
    rw [hround]
    omega
  . rcases roundQuotient_cases num den with ⟨heq, hdown⟩ | ⟨heq, hup⟩
    . rw [heq]
      omega
    . rw [heq, Nat.add_mul, Nat.one_mul]
      omega

theorem roundQuotient_near (num : Nat) {den : Nat} (hden : 0 < den) :
    2 * (roundQuotient num den : ℚ) ≤ 2 * (num / den) + 1 ∧
      2 * (num / den : ℚ) ≤ 2 * roundQuotient num den + 1 ∧
        (roundQuotient num den % 2 = 1 →
          2 * (roundQuotient num den : ℚ) < 2 * (num / den) + 1 ∧
            2 * (num / den : ℚ) < 2 * roundQuotient num den + 1) := by
  have hpos : (0 : ℚ) < den := by exact_mod_cast hden
  obtain ⟨hlow, hhigh, hodd⟩ := roundQuotient_bounds num hden
  generalize roundQuotient num den = rounded at *
  have hquotient : (num : ℚ) = num / den * den := (div_mul_cancel₀ _ hpos.ne').symm
  generalize (num / den : ℚ) = quotient at hquotient ⊢
  refine ⟨?_, ?_, fun h => ⟨?_, ?_⟩⟩
  . have : (2 * (rounded * den) : ℚ) ≤ 2 * num + den := by exact_mod_cast hlow
    nlinarith
  . have : (2 * num : ℚ) ≤ 2 * (rounded * den) + den := by exact_mod_cast hhigh
    nlinarith
  . have : (2 * (rounded * den) : ℚ) < 2 * num + den := by exact_mod_cast (hodd h).1
    nlinarith
  . have : (2 * num : ℚ) < 2 * (rounded * den) + den := by exact_mod_cast (hodd h).2
    nlinarith

theorem nearestRank_eq (num : Nat) {den : Nat} (hden : 0 < den) :
    ∃ shift, nearestRank num den = shift * binade + roundQuotient num (den * 2 ^ shift) ∧
      roundQuotient num (den * 2 ^ shift) ≤ 2 * binade ∧
        (shift = 0 ∨ binade ≤ roundQuotient num (den * 2 ^ shift) ∧
          (binade : ℚ) ≤ num / ((den * 2 ^ shift : Nat) : ℚ)) := by
  obtain ⟨hupper, hlower⟩ := bounds_of_shift num hden
  refine ⟨(num / den).log2 - 52, rfl, ?_, ?_⟩
  all_goals
    generalize (num / den).log2 - 52 = shift at hupper hlower ⊢
    have hscaled : 0 < den * 2 ^ shift := Nat.mul_pos hden (Nat.two_pow_pos shift)
    have hcases := roundQuotient_cases num (den * 2 ^ shift)
    rw [binade_eq]
  . have hquotient : num / (den * 2 ^ shift) < 2 ^ 53 := by
      apply Nat.div_lt_of_lt_mul
      rw [scale_scale]
      exact hupper
    omega
  . refine hlower.imp_right fun hlower => ?_
    rw [← scale_scale, Nat.mul_comm] at hlower
    have hquotient : 2 ^ 52 ≤ num / (den * 2 ^ shift) := (Nat.le_div_iff_mul_le hscaled).mpr hlower
    refine ⟨by omega, ?_⟩
    rw [le_div_iff₀ (by exact_mod_cast hscaled)]
    exact_mod_cast hlower

theorem unitsAt_add_le {shift steps : Nat} (hsteps : steps ≤ 2 * binade)
    (h : shift = 0 ∨ binade ≤ steps) : unitsAt (shift * binade + steps) + 2 ^ shift ≤
      unitsAt (shift * binade + steps + 1) := by
  rcases Nat.lt_or_eq_of_le hsteps with hlt | rfl
  . exact Nat.le_of_eq (unitsAt_succ hlt h).symm
  . have hrank : shift * binade + 2 * binade = (shift + 1) * binade + binade := by ring
    have hbelow : binade < 2 * binade := by decide
    rw [hrank, unitsAt_succ hbelow (.inr (Nat.le_refl _))]
    exact Nat.add_le_add_left (Nat.pow_le_pow_right (by decide) (Nat.le_succ shift)) _

theorem unitsAt_before {shift steps : Nat} (hsteps : steps ≤ 2 * binade)
    (h : shift = 0 ∨ binade ≤ steps) :
    unitsAt (shift * binade + steps - 1) + 2 ^ shift = unitsAt (shift * binade + steps) ∨
      shift = 0 ∧ steps = 0 ∨ shift ≠ 0 ∧ steps = binade := by
  have hpos : 0 < binade := Nat.two_pow_pos 52
  rcases Nat.eq_zero_or_pos steps with hzero | hsome
  . exact .inr (.inl ⟨h.resolve_right (by omega), hzero⟩)
  . obtain ⟨before, rfl⟩ := Nat.exists_eq_add_of_le' hsome
    by_cases hsame : shift = 0 ∨ binade ≤ before
    . left
      rw [← Nat.add_assoc, Nat.add_sub_cancel, unitsAt_succ (by omega) hsame]
    . right
      right
      omega

theorem rounds_of_steps {shift steps : Nat} {quotient : ℚ} (hsteps : steps ≤ 2 * binade)
    (h : shift = 0 ∨ binade ≤ steps ∧ (binade : ℚ) ≤ quotient) (hnonneg : 0 ≤ quotient)
    (hlow : 2 * (steps : ℚ) ≤ 2 * quotient + 1) (hhigh : 2 * quotient ≤ 2 * steps + 1)
    (hodd : steps % 2 = 1 → 2 * (steps : ℚ) < 2 * quotient + 1 ∧ 2 * quotient < 2 * steps + 1) :
    Rounds (shift * binade + steps) (quotient * 2 ^ shift) := by
  have hstep : (0 : ℚ) < 2 ^ shift := by positivity
  have hbinade : shift = 0 ∨ binade ≤ steps := h.imp_right And.left
  have hparity : (shift * binade + steps) % 2 = steps % 2 := by
    rw [binade_eq]
    omega
  have hself : (unitsAt (shift * binade + steps) : ℚ) = steps * 2 ^ shift := by
    exact_mod_cast unitsAt_step hsteps hbinade
  have hnext : (unitsAt (shift * binade + steps) + 2 ^ shift : ℚ) ≤
      unitsAt (shift * binade + steps + 1) := by
    exact_mod_cast unitsAt_add_le hsteps hbinade
  have hbelow : (unitsAt (shift * binade + steps - 1) + unitsAt (shift * binade + steps) : ℚ) ≤
        2 * (quotient * 2 ^ shift) ∧
      (steps % 2 = 1 →
        (unitsAt (shift * binade + steps - 1) + unitsAt (shift * binade + steps) : ℚ) <
          2 * (quotient * 2 ^ shift)) := by
    rcases unitsAt_before hsteps hbinade with hbefore | ⟨rfl, rfl⟩ | ⟨hshift, heq⟩
    . have hbefore' : (unitsAt (shift * binade + steps - 1) : ℚ) + 2 ^ shift =
          unitsAt (shift * binade + steps) := by exact_mod_cast hbefore
      refine ⟨by nlinarith, fun hone => ?_⟩
      have := (hodd hone).1
      nlinarith
    . have hzero : unitsAt 0 = 0 := rfl
      simp only [Nat.zero_mul, Nat.add_zero, Nat.zero_sub, hzero]
      exact ⟨by simpa using hnonneg, fun hone => by cases hone⟩
    . have hquotient : (steps : ℚ) ≤ quotient := heq ▸ (h.resolve_left hshift).2
      have hpos : 0 < binade := Nat.two_pow_pos 52
      have hlt : unitsAt (shift * binade + steps - 1) < unitsAt (shift * binade + steps) :=
        strictMono_unitsAt (by omega)
      have hlt' : (unitsAt (shift * binade + steps - 1) : ℚ) <
          unitsAt (shift * binade + steps) := by exact_mod_cast hlt
      exact ⟨by nlinarith, fun _ => by nlinarith⟩
  refine ⟨hbelow.1, by nlinarith, fun hone => ?_⟩
  rw [hparity] at hone
  have := (hodd hone).2
  exact ⟨hbelow.2 hone, by nlinarith⟩

theorem rounds_nearestRank (num : Nat) {den : Nat} (hden : 0 < den) :
    Rounds (nearestRank num den) (num / den) := by
  obtain ⟨shift, hrank, hle, hge⟩ := nearestRank_eq num hden
  have hscaled : 0 < den * 2 ^ shift := Nat.mul_pos hden (Nat.two_pow_pos shift)
  obtain ⟨hlow, hhigh, hodd⟩ := roundQuotient_near num hscaled
  have hunits : (num / den : ℚ) = num / ((den * 2 ^ shift : Nat) : ℚ) * 2 ^ shift := by
    have hpos : (den : ℚ) ≠ 0 := by exact_mod_cast hden.ne'
    push_cast
    field_simp
  rw [hrank, hunits]
  exact rounds_of_steps hle hge (by positivity) hlow hhigh hodd

theorem nearestRank_eq_of_rounds {rank num den : Nat} (hden : 0 < den)
    (h : Rounds rank (num / den)) : nearestRank num den = rank :=
  h.eq_of_rounds (rounds_nearestRank num hden)

end Binary64

end PageBinding
