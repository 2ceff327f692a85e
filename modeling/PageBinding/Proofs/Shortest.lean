import PageBinding.Proofs.Expression.Literal
import PageBinding.Proofs.Nearest

/-!
This module contains that the shortest decimal of a floating point number is rounded to that number:
the search accepts no other decimal, and with seventeen digits every decimal that is nearest is one.
-/

namespace PageBinding

def Decimal.value (d : Decimal) : ℚ :=
  d.digits * 10 ^ d.exponent

theorem ten_zpow_pos (exponent : Int) : (0 : ℚ) < 10 ^ exponent :=
  zpow_pos (by norm_num) exponent

theorem ten_zpow_of_nonneg {exponent : Int} (h : 0 ≤ exponent) :
    (10 : ℚ) ^ exponent = 10 ^ exponent.toNat := by
  obtain ⟨n, rfl⟩ := Int.eq_ofNat_of_zero_le h
  rw [zpow_natCast, Int.toNat_natCast]

theorem ten_zpow_of_neg {exponent : Int} (h : ¬ 0 ≤ exponent) :
    (10 : ℚ) ^ exponent = 1 / 10 ^ (-exponent).toNat := by
  obtain ⟨n, hn⟩ := Int.eq_ofNat_of_zero_le (show 0 ≤ -exponent by omega)
  rw [hn, Int.toNat_natCast, ← neg_neg exponent, hn, zpow_neg, zpow_natCast, one_div]

namespace Decimal

theorem dropZeros_value (fuel n : Nat) :
    (dropZeros fuel n).1 * 10 ^ (dropZeros fuel n).2 = n := by
  induction fuel generalizing n with
  | zero => simp [dropZeros]
  | succ fuel ih =>
    rw [dropZeros]
    split
    . next h =>
      have hten : n / 10 * 10 = n := Nat.div_mul_cancel (Nat.dvd_of_mod_eq_zero h)
      rw [Nat.pow_succ, ← Nat.mul_assoc, ih, hten]
    . exact Nat.mul_one n

theorem value_ofDigits (n : Nat) (exponent : Int) :
    (ofDigits n exponent).value = n * 10 ^ exponent := by
  have hdrop := dropZeros_value n.log2 n
  have hdrop' : ((dropZeros n.log2 n).1 * 10 ^ (dropZeros n.log2 n).2 : ℚ) = n := by
    exact_mod_cast hdrop
  rw [value, ofDigits]
  dsimp only
  rw [← hdrop', zpow_add₀ (by norm_num), zpow_natCast]
  ring

end Decimal

namespace Binary64

theorem cast_one_pos : (0 : ℚ) < one := by
  exact_mod_cast one_pos

theorem unitsAt_le_spacing (rank : Nat) :
    unitsAt (rank + 1) + 2 ^ 53 * unitsAt rank ≤ 2 ^ 53 * unitsAt (rank + 1) := by
  obtain ⟨shift, steps, rfl, hsteps, h⟩ := exists_steps rank
  have hself := unitsAt_step (Nat.le_of_lt hsteps) h
  rw [unitsAt_succ hsteps h, hself, Nat.mul_add]
  have hle : (steps + 1) * 2 ^ shift ≤ 2 ^ 53 * 2 ^ shift := by
    apply Nat.mul_le_mul_right
    rw [binade_eq] at hsteps
    omega
  rw [Nat.succ_mul] at hle
  omega

theorem rounds_of_near {rank : Nat} (hrank : 0 < rank) {units : ℚ}
    (hlow : 2 ^ 54 * (unitsAt rank - units) < unitsAt rank)
    (hhigh : 2 ^ 54 * (units - unitsAt rank) < unitsAt rank) : Rounds rank units := by
  obtain ⟨before, rfl⟩ := Nat.exists_eq_add_of_le' hrank
  have hbelow : (unitsAt (before + 1) + 2 ^ 53 * unitsAt before : ℚ) ≤
      2 ^ 53 * unitsAt (before + 1) := by exact_mod_cast unitsAt_le_spacing before
  have habove : (unitsAt (before + 1 + 1) + 2 ^ 53 * unitsAt (before + 1) : ℚ) ≤
      2 ^ 53 * unitsAt (before + 1 + 1) := by exact_mod_cast unitsAt_le_spacing (before + 1)
  have hlt : (unitsAt (before + 1) : ℚ) < unitsAt (before + 1 + 1) := by
    exact_mod_cast strictMono_unitsAt (Nat.lt_succ_self _)
  refine ⟨?_, by linarith, fun _ => ⟨?_, by linarith⟩⟩
  . rw [Nat.add_sub_cancel]
    linarith
  . rw [Nat.add_sub_cancel]
    linarith

section TenPower

theorem below_iff (units unit : Nat) (power : Int) :
    (if 0 ≤ power then decide (units < unit * Nat.pow 10 power.toNat)
      else decide (units * Nat.pow 10 (-power).toNat < unit)) = true ↔
        (units : ℚ) < unit * 10 ^ power := by
  simp only [Nat.pow_eq]
  split
  . next hnonneg =>
    rw [decide_eq_true_eq, ten_zpow_of_nonneg hnonneg]
    exact_mod_cast Iff.rfl
  . next hneg =>
    rw [decide_eq_true_eq, ten_zpow_of_neg hneg, mul_one_div, lt_div_iff₀ (by positivity)]
    exact_mod_cast Iff.rfl

theorem search_le {units : Nat} (fuel : Nat) {power : Int}
    (h : (one * 10 ^ (power - 1) : ℚ) ≤ units) :
    (one * 10 ^ (tenPower.search units fuel power - 1) : ℚ) ≤ units := by
  induction fuel generalizing power with
  | zero => exact h
  | succ fuel ih =>
    rw [tenPower.search]
    simp only [below_iff]
    split
    . exact h
    . next hbelow =>
      apply ih
      rw [add_sub_cancel_right]
      exact not_lt.mp hbelow

theorem ten_zpow_le_two_zpow {log estimate : Int} (hlow : -1074 ≤ log) (hhigh : log ≤ 1024)
    (h : 100000 * estimate ≤ 30103 * log) : (10 : ℚ) ^ (estimate - 2) ≤ 2 ^ log := by
  have hten (n : Int) : (0 : ℚ) ≤ 10 ^ n := (ten_zpow_pos n).le
  have htwo : (0 : ℚ) ≤ 2 ^ log := zpow_nonneg (by norm_num) _
  rcases le_or_gt 0 log with hnonneg | hneg
  . rw [← pow_le_pow_iff_left₀ (hten _) htwo (show 10 ≠ 0 by decide)]
    calc ((10 : ℚ) ^ (estimate - 2)) ^ 10
      _ = 10 ^ ((estimate - 2) * 10) := by rw [zpow_mul]; norm_cast
      _ ≤ 10 ^ (3 * log) := zpow_le_zpow_right₀ (by norm_num) (by omega)
      _ = (10 ^ (3 : Int)) ^ log := zpow_mul _ _ _
      _ ≤ (2 ^ (10 : Int)) ^ log := zpow_le_zpow_left₀ hnonneg (by norm_num) (by norm_num)
      _ = (2 ^ log) ^ 10 := by rw [← zpow_mul, mul_comm, zpow_mul]; norm_cast
  . rw [← pow_le_pow_iff_left₀ (hten _) htwo (show 43 ≠ 0 by decide)]
    have hinverse : ((10 : ℚ) ^ (13 : Int)) ^ log ≤ (2 ^ (43 : Int)) ^ log := by
      obtain ⟨n, hn⟩ := Int.eq_ofNat_of_zero_le (show 0 ≤ -log by omega)
      rw [← neg_neg log, hn, zpow_neg, zpow_neg, zpow_natCast, zpow_natCast]
      exact inv_anti₀ (by positivity) (pow_le_pow_left₀ (by positivity) (by norm_num) n)
    calc ((10 : ℚ) ^ (estimate - 2)) ^ 43
      _ = 10 ^ ((estimate - 2) * 43) := by rw [zpow_mul]; norm_cast
      _ ≤ 10 ^ (13 * log) := zpow_le_zpow_right₀ (by norm_num) (by omega)
      _ = (10 ^ (13 : Int)) ^ log := zpow_mul _ _ _
      _ ≤ (2 ^ (43 : Int)) ^ log := hinverse
      _ = (2 ^ log) ^ 43 := by rw [← zpow_mul, mul_comm, zpow_mul]; norm_cast

theorem log2_unitsAt_le {rank : Nat} (h : rank ≤ 2047 * binade) :
    (unitsAt rank).log2 ≤ 2098 := by
  obtain ⟨shift, steps, rfl, hsteps, hshift⟩ := exists_steps rank
  rw [unitsAt_step (Nat.le_of_lt hsteps) hshift]
  rw [binade_eq] at h hsteps hshift
  have hlast : shift ≤ 2046 := by omega
  rcases Nat.eq_zero_or_pos (steps * 2 ^ shift) with hzero | hpos
  . rw [hzero]
    decide
  . have hlt : steps * 2 ^ shift < 2 ^ (53 + shift) := by
      rw [Nat.pow_add]
      exact Nat.mul_lt_mul_of_pos_right (by omega) (Nat.two_pow_pos shift)
    have := (Nat.log2_lt hpos.ne').mpr hlt
    omega

theorem tenPower_le {rank : Nat} (hpos : 0 < rank) (hlast : rank < 2047 * binade) :
    (one * 10 ^ (tenPower (unitsAt rank) - 1) : ℚ) ≤ unitsAt rank := by
  apply search_le
  have hlog := log2_unitsAt_le (Nat.le_of_lt hlast)
  have hunits : 0 < unitsAt rank := strictMono_unitsAt hpos
  have hself := Nat.log2_self_le hunits.ne'
  generalize (unitsAt rank).log2 = log at hlog hself ⊢
  have hpower : (10 : ℚ) ^ (((log : Int) - 1074) * 30103 / 100000 - 2) ≤ 2 ^ ((log : Int) - 1074) :=
    ten_zpow_le_two_zpow (by omega) (by omega) (by omega)
  have hone : (one : ℚ) = 2 ^ (1074 : Int) := by
    have hpow : one = 2 ^ 1074 := rfl
    rw [hpow, Nat.cast_pow, Nat.cast_ofNat]
    rfl
  have hsub (n : Int) : n - 1 - 1 = n - 2 := by omega
  rw [hsub]
  calc (one * 10 ^ (((log : Int) - 1074) * 30103 / 100000 - 2) : ℚ)
    _ ≤ 2 ^ (1074 : Int) * 2 ^ ((log : Int) - 1074) := by
      rw [hone]
      exact mul_le_mul_of_nonneg_left hpower (by positivity)
    _ = 2 ^ (log : Int) := by rw [← zpow_add₀ (by norm_num), add_sub_cancel]
    _ ≤ unitsAt rank := by exact_mod_cast hself

end TenPower

section Search

variable {rank : Nat} {digits : Nat} {exponent : Int}

/--
Twice a decimal as the quotient of natural numbers that is compared with the magnitudes.
-/
theorem exists_fraction (digits : Nat) (exponent : Int) : ∃ num den : Nat, 0 < den ∧
    (if 0 ≤ exponent then (2 * one * digits * Nat.pow 10 exponent.toNat, 1)
      else (2 * one * digits, Nat.pow 10 (-exponent).toNat)) = (num, den) ∧
      (2 * (one * (digits * 10 ^ exponent)) : ℚ) = num / den := by
  simp only [Nat.pow_eq]
  by_cases hnonneg : 0 ≤ exponent
  . refine ⟨_, _, Nat.one_pos, if_pos hnonneg, ?_⟩
    rw [ten_zpow_of_nonneg hnonneg]
    push_cast
    ring
  . refine ⟨_, _, by positivity, if_neg hnonneg, ?_⟩
    rw [ten_zpow_of_neg hnonneg]
    push_cast
    ring

theorem rounds_of_readsBack (h : readsBack rank digits exponent = true) :
    Rounds rank (one * (digits * 10 ^ exponent)) := by
  obtain ⟨num, den, hden, hfraction, hquotient⟩ := exists_fraction digits exponent
  have hpos : (0 : ℚ) < den := by exact_mod_cast hden
  unfold readsBack at h
  rw [hfraction] at h
  dsimp only at h
  split at h
  . next heven =>
    simp only [Bool.and_eq_true, decide_eq_true_eq] at h
    refine ⟨?_, ?_, fun hodd => by omega⟩
    . rw [hquotient, le_div_iff₀ hpos]
      exact_mod_cast h.1
    . rw [hquotient, div_le_iff₀ hpos]
      exact_mod_cast h.2
  . simp only [Bool.and_eq_true, decide_eq_true_eq] at h
    have hlow : (unitsAt (rank - 1) + unitsAt rank : ℚ) < num / den := by
      rw [lt_div_iff₀ hpos]
      exact_mod_cast h.1
    have hhigh : (num / den : ℚ) < unitsAt rank + unitsAt (rank + 1) := by
      rw [div_lt_iff₀ hpos]
      exact_mod_cast h.2
    rw [← hquotient] at hlow hhigh
    exact ⟨hlow.le, hhigh.le, fun _ => ⟨hlow, hhigh⟩⟩

theorem gridPoint_eq (units : Nat) (exponent : Int) : ∃ num den : Nat, 0 < den ∧
    (num / den : ℚ) * (one * 10 ^ exponent) = units ∧
      gridPoint units exponent = (num / den, compare (2 * (num % den)) den) := by
  have hone : 0 < one := one_pos
  have hone' : (one : ℚ) ≠ 0 := cast_one_pos.ne'
  unfold gridPoint
  rw [Nat.pow_eq, Nat.pow_eq]
  by_cases hnonneg : 0 ≤ exponent
  . rw [if_pos hnonneg, ten_zpow_of_nonneg hnonneg]
    refine ⟨_, _, by positivity, ?_, rfl⟩
    push_cast
    field_simp
  . rw [if_neg hnonneg, ten_zpow_of_neg hnonneg]
    refine ⟨_, _, hone, ?_, rfl⟩
    push_cast
    field_simp

theorem nearest_eq_roundQuotient (num den : Nat) :
    (if compare (2 * (num % den)) den = .lt ||
        (compare (2 * (num % den)) den = .eq && num / den % 2 = 0) then num / den
      else num / den + 1) = roundQuotient num den := by
  simp only [roundQuotient, Nat.compare_eq_lt, Nat.compare_eq_eq, beq_eq_decide]

theorem rounds_nearest {num den : Nat} (hrank : 0 < rank) (hden : 0 < den)
    (hunits : (num / den : ℚ) * (one * 10 ^ exponent) = unitsAt rank)
    (hfine : (10 ^ 16 * (one * 10 ^ exponent) : ℚ) ≤ unitsAt rank) :
    Rounds rank (one * (roundQuotient num den * 10 ^ exponent)) := by
  obtain ⟨hlow, hhigh, -⟩ := roundQuotient_near num hden
  have hstep : (0 : ℚ) < one * 10 ^ exponent := mul_pos cast_one_pos (ten_zpow_pos exponent)
  have hpoint : (one * (roundQuotient num den * 10 ^ exponent) : ℚ) =
      roundQuotient num den * (one * 10 ^ exponent) := by ring
  rw [hpoint]
  generalize (one * 10 ^ exponent : ℚ) = step at *
  generalize (num / den : ℚ) = quotient at *
  generalize (roundQuotient num den : ℚ) = point at *
  apply rounds_of_near hrank
  . nlinarith
  . nlinarith

def Denotes (rank : Nat) (d : Decimal) : Prop :=
  0 < d.value ∧ Rounds rank (one * d.value)

theorem denotes_ofDigits (hdigits : 0 < digits)
    (h : Rounds rank (one * (digits * 10 ^ exponent))) :
    Denotes rank (.ofDigits digits exponent) := by
  rw [Denotes, Decimal.value_ofDigits]
  exact ⟨mul_pos (by exact_mod_cast hdigits) (ten_zpow_pos exponent), h⟩

theorem exists_grid {units : Nat} (h : (one * 10 ^ exponent : ℚ) ≤ units) : ∃ num den : Nat,
    0 < den ∧ (num / den : ℚ) * (one * 10 ^ exponent) = units ∧
      gridPoint units exponent = (num / den, compare (2 * (num % den)) den) ∧ 0 < num / den ∧
        0 < roundQuotient num den := by
  obtain ⟨num, den, hden, hunits, hgrid⟩ := gridPoint_eq units exponent
  have hstep : (0 : ℚ) < one * 10 ^ exponent := mul_pos cast_one_pos (ten_zpow_pos exponent)
  have hlow : 0 < num / den := by
    rw [← hunits, le_mul_iff_one_le_left hstep, one_le_div₀ (by exact_mod_cast hden)] at h
    exact Nat.div_pos (by exact_mod_cast h) hden
  refine ⟨num, den, hden, hunits, hgrid, hlow, ?_⟩
  rcases roundQuotient_cases num den with ⟨heq, -⟩ | ⟨heq, -⟩
  . omega
  . omega

theorem denotes_search {power : Int} (hrank : 0 < rank)
    (hpower : (one * 10 ^ (power - 1) : ℚ) ≤ unitsAt rank) {count fuel : Nat} (hcount : 1 ≤ count)
    (hsum : count + fuel = 17) :
    Denotes rank (shortest.search rank (unitsAt rank) power count fuel) := by
  have hcoarse (count : Nat) (hcount : 1 ≤ count) :
      (one * 10 ^ (power - count) : ℚ) ≤ unitsAt rank := by
    apply le_trans _ hpower
    apply mul_le_mul_of_nonneg_left _ (Nat.cast_nonneg one)
    exact zpow_le_zpow_right₀ (by norm_num) (by omega)
  induction fuel generalizing count with
  | zero =>
    obtain ⟨num, den, hden, hunits, hgrid, -, hnearest⟩ := exists_grid (hcoarse count hcount)
    rw [shortest.search]
    simp only [hgrid, nearest_eq_roundQuotient]
    apply denotes_ofDigits hnearest
    apply rounds_nearest hrank hden hunits
    have hsplit : power - 1 = ((16 : Nat) : Int) + (power - count) := by omega
    rw [hsplit, zpow_add₀ (by norm_num), zpow_natCast, mul_left_comm] at hpower
    exact hpower
  | succ fuel ih =>
    obtain ⟨num, den, hden, hunits, hgrid, hlow, hnearest⟩ := exists_grid (hcoarse count hcount)
    rw [shortest.search]
    simp only [hgrid, nearest_eq_roundQuotient]
    split
    . next h => exact denotes_ofDigits hnearest (rounds_of_readsBack h)
    split
    . next h => exact denotes_ofDigits hlow (rounds_of_readsBack h)
    split
    . next h => exact denotes_ofDigits (Nat.succ_pos _) (rounds_of_readsBack h)
    . exact ih (by omega) (by omega)

theorem denotes_shortest (hrank : 0 < rank) (hlast : rank < 2047 * binade) :
    Denotes rank (shortest rank) :=
  denotes_search hrank (tenPower_le hrank hlast) (Nat.le_refl 1) rfl

end Search

theorem ofUnits_eq_of_rounds {rank num den : Nat} (hlast : rank < 2047 * binade) (hden : 0 < den)
    (h : Rounds rank (num / den)) (negative : Bool) :
    ofUnits negative num den = .finite negative ⟨rank, hlast⟩ := by
  have hnearest := nearestRank_eq_of_rounds hden h
  subst hnearest
  exact dif_pos hlast

theorem ofNat_bounds {n : Nat} (hn : 0 < n) :
    (10 ^ ((Text.ofNat n).length - 1) : ℚ) ≤ n ∧ (n : ℚ) < 10 ^ (Text.ofNat n).length := by
  have hpos := List.length_pos_iff.mpr (Text.ofNat_ne_nil n)
  have hupper := (Text.length_ofNat_le_iff hpos).mp (Nat.le_refl _)
  have hlower : 10 ^ ((Text.ofNat n).length - 1) ≤ n := by
    rcases Nat.eq_zero_or_pos ((Text.ofNat n).length - 1) with hzero | hmore
    . rw [hzero]
      exact hn
    . by_contra hlt
      have := (Text.length_ofNat_le_iff hmore).mpr (Nat.not_le.mp hlt)
      omega
  exact ⟨by exact_mod_cast hlower, by exact_mod_cast hupper⟩

theorem unitsAt_lt {rank : Nat} (hlast : rank ≤ 2047 * binade) : unitsAt rank < one * 10 ^ 400 := by
  rcases Nat.eq_zero_or_pos (unitsAt rank) with hzero | hpos
  . rw [hzero]
    exact Nat.mul_pos one_pos (Nat.pow_pos (by decide))
  . have hlog := log2_unitsAt_le hlast
    calc unitsAt rank
      _ < 2 ^ 2099 := (Nat.log2_lt hpos.ne').mp (Nat.lt_succ_of_le hlog)
      _ < one * 10 ^ 400 := by decide +kernel

section Bounds

variable {rank digits : Nat} {exponent : Int}

theorem magnitude_gt (hrank : 0 < rank) (hdigits : 0 < digits)
    (h : Rounds rank (one * (digits * 10 ^ exponent))) :
    -400 < exponent + (Text.ofNat digits).length := by
  have hupper := (ofNat_bounds hdigits).2
  generalize (Text.ofNat digits).length = count at *
  have hunits : (1 : ℚ) ≤ unitsAt rank := by exact_mod_cast strictMono_unitsAt hrank
  have hbefore : (0 : ℚ) ≤ unitsAt (rank - 1) := Nat.cast_nonneg _
  have hbound : (2 * one : ℚ) ≤ 10 ^ (400 : Int) := by
    have hnat : 2 * one ≤ 10 ^ 400 := by decide +kernel
    exact_mod_cast hnat
  have hlarge : (1 : ℚ) < 10 ^ (400 + (exponent + count)) := by
    calc (1 : ℚ)
      _ ≤ 2 * (one * (digits * 10 ^ exponent)) := by linarith [h.low]
      _ = 2 * one * (digits * 10 ^ exponent) := by ring
      _ < 2 * one * (10 ^ count * 10 ^ exponent) :=
        mul_lt_mul_of_pos_left (mul_lt_mul_of_pos_right hupper (ten_zpow_pos exponent))
          (mul_pos two_pos cast_one_pos)
      _ ≤ 10 ^ (400 : Int) * (10 ^ count * 10 ^ exponent) :=
        mul_le_mul_of_nonneg_right hbound (by positivity)
      _ = 10 ^ (400 + (exponent + count)) := by
        rw [zpow_add₀ (by norm_num), zpow_add₀ (by norm_num), zpow_natCast]
        ring
  rw [one_lt_zpow_iff_right₀ (by norm_num)] at hlarge
  omega

theorem magnitude_le (hlast : rank < 2047 * binade) (hdigits : 0 < digits)
    (h : Rounds rank (one * (digits * 10 ^ exponent))) :
    exponent + (Text.ofNat digits).length ≤ 400 := by
  have hpos := List.length_pos_iff.mpr (Text.ofNat_ne_nil digits)
  have hlower := (ofNat_bounds hdigits).1
  generalize (Text.ofNat digits).length = count at *
  have hself : (unitsAt rank : ℚ) < one * 10 ^ 400 := by
    exact_mod_cast unitsAt_lt (Nat.le_of_lt hlast)
  have hnext : (unitsAt (rank + 1) : ℚ) < one * 10 ^ 400 := by
    exact_mod_cast unitsAt_lt (Nat.succ_le_of_lt hlast)
  have hsmall : (one * 10 ^ (exponent + count - 1) : ℚ) < one * 10 ^ (400 : Int) := by
    calc (one * 10 ^ (exponent + count - 1) : ℚ)
      _ = one * (10 ^ (count - 1) * 10 ^ exponent) := by
        have hsplit : exponent + count - 1 = ((count - 1 : Nat) : Int) + exponent := by omega
        rw [hsplit, zpow_add₀ (by norm_num), zpow_natCast]
      _ ≤ one * (digits * 10 ^ exponent) :=
        mul_le_mul_of_nonneg_left (mul_le_mul_of_nonneg_right hlower (ten_zpow_pos exponent).le)
          cast_one_pos.le
      _ < one * 10 ^ 400 := by linarith [h.high]
  rw [mul_lt_mul_iff_right₀ cast_one_pos, zpow_lt_zpow_iff_right₀ (by norm_num)] at hsmall
  omega

theorem ofDecimal_eq_of_rounds (hrank : 0 < rank) (hlast : rank < 2047 * binade)
    (hdigits : 0 < digits) (h : Rounds rank (one * (digits * 10 ^ exponent))) (negative : Bool) :
    ofDecimal negative digits exponent = .finite negative ⟨rank, hlast⟩ := by
  -- The magnitude is far from the bounds at which decimals are not computed.
  have hlow := magnitude_gt hrank hdigits h
  have hhigh := magnitude_le hlast hdigits h
  unfold ofDecimal
  simp only [Nat.pow_eq]
  rw [if_neg hdigits.ne', if_neg (by omega), if_neg (by omega)]
  split
  . next hnonneg =>
    rw [ten_zpow_of_nonneg hnonneg] at h
    apply ofUnits_eq_of_rounds hlast Nat.one_pos
    convert h using 1
    push_cast
    ring
  . next hneg =>
    rw [ten_zpow_of_neg hneg] at h
    apply ofUnits_eq_of_rounds hlast (by positivity)
    convert h using 1
    push_cast
    ring

end Bounds

end Binary64

end PageBinding
