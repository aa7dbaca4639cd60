/-
  Lending.Proofs.Decimal.Normal — which numbers money operations give, and when.

  An operation gives a number exactly if the result is below `10 ^ 1000000` (`exists_round`,
  `Result.size`; `exists_add_of_sum`, `exists_mul`, `exists_div`); for a sum it is enough that
  both terms are below half of that (`exists_add`).
  The number is in normal form, in which a value has one sign and one way to be written
  (`Normal.ext`). So an operation that does not change the value does not change the number
  either (`Result.mul_one_eq`), and nothing added changes no value (`Result.exists_add_zero`).
  Numbers of the same value have results of the same value
  (`exists_add_congr`, `exists_mul_congr`, `exists_div_congr` and those after them).
-/
import Lending.Proofs.Decimal.Overflow
import Lending.Proofs.Decimal.RunningSum

namespace Lending

open Truncation

namespace Decimal

/-! ## Normal form -/

def Normal (x : Decimal) : Prop := if x.coeff = 0 then x.exp = 0 else ¬ 10 ∣ x.coeff

/-- Halves of `2 ^ k` zeros are enough if there are fewer. -/
theorem stripZeros_not_dvd (k : Nat) {c : Nat} (few : ¬ 10 ^ 2 ^ k ∣ c) (e : ℤ) :
    ¬ 10 ∣ (stripZeros k c e).1 := by
  induction k generalizing c e with
  | zero => simpa [stripZeros] using few
  | succ k ih =>
    have half : tens (twos k) = 10 ^ 2 ^ k := by
      unfold tens twos
      rw [Int.toNat_natCast, Int.toNat_natCast]
      rfl
    simp only [stripZeros, half]
    split
    · rename_i divides
      refine ih (fun again => few ?_) _
      rw [pow_succ, mul_two, pow_add]
      exact Nat.mul_dvd_of_dvd_div (Nat.dvd_of_mod_eq_zero divides) again
    · rename_i kept
      exact ih (mt Nat.mod_eq_zero_of_dvd kept) e

theorem normal_normal (neg : Bool) (coeff : Nat) (exp : ℤ) : (normal neg coeff exp).Normal := by
  unfold normal
  split
  · simp [Normal]
  · rename_i nonzero
    have short : coeff < 10 ^ 2 ^ ((digitCount coeff).log2 + 1) := by
      calc coeff < 10 ^ (Nat.log 10 coeff + 1) := Nat.lt_pow_succ_log_self (by norm_num) coeff
        _ ≤ 10 ^ 2 ^ ((digitCount coeff).log2 + 1) := by
          rw [← digitCount_eq nonzero]
          exact Nat.pow_le_pow_right (by norm_num) Nat.lt_log2_self.le
    have left := stripZeros_not_dvd _ (Nat.not_dvd_of_pos_of_lt (Nat.pos_of_ne_zero nonzero) short)
      exp
    have kept : (stripZeros ((digitCount coeff).log2 + 1) coeff exp).1 ≠ 0 := by
      intro zero
      rw [zero] at left
      exact left (Nat.dvd_zero 10)
    unfold Normal
    rw [if_neg kept]
    exact left

/-- Two ways to write a value whose coefficients end in no zero are the same. -/
theorem coeff_exp_unique {c d : Nat} {e f : ℤ} (hc : ¬ 10 ∣ c) (hd : ¬ 10 ∣ d)
    (same : (c : ℚ) * 10 ^ e = d * 10 ^ f) : c = d ∧ e = f := by
  -- the exponent of one cannot be above that of the other
  have below {c d : Nat} {e f : ℤ} (hc : ¬ 10 ∣ c) (same : (c : ℚ) * 10 ^ e = d * 10 ^ f) :
      f ≤ e := by
    by_contra above
    obtain ⟨n, split⟩ := Int.exists_add_of_le (Int.add_one_le_iff.mpr (not_le.mp above))
    have scaled : (c : ℚ) = d * 10 ^ (n + 1) := by
      have ten : (10 : ℚ) ^ e ≠ 0 := by positivity
      refine mul_right_cancel₀ ten (same.trans ?_)
      rw [split, mul_assoc, ← zpow_natCast, ← zpow_add₀ (by norm_num)]
      congr 2
      push_cast
      ring
    refine hc ⟨d * 10 ^ n, ?_⟩
    have : c = d * 10 ^ (n + 1) := by exact_mod_cast scaled
    rw [this]
    ring
  obtain rfl : e = f := le_antisymm (below hd same.symm) (below hc same)
  refine ⟨?_, rfl⟩
  exact_mod_cast mul_right_cancel₀ (by positivity) same

/-- A value has one normal form for each sign. -/
theorem Normal.ext {x y : Decimal} (hx : x.Normal) (hy : y.Normal) (sign : x.neg = y.neg)
    (value : x.toRat = y.toRat) : x = y := by
  obtain ⟨neg, c, e⟩ := x
  obtain ⟨_, d, f⟩ := y
  cases sign
  have size := congrArg abs value
  rw [abs_toRat, abs_toRat] at size
  unfold Normal at hx hy
  by_cases zero : c = 0
  · subst zero
    have other : d = 0 := (toRat_eq_zero_iff ⟨neg, d, f⟩).mp (value ▸ toRat_of_isZero neg e)
    subst other
    simp only [if_true] at hx hy
    rw [hx, hy]
  · have other : d ≠ 0 := by
      rintro rfl
      exact zero ((toRat_eq_zero_iff ⟨neg, c, e⟩).mp (value.trans (toRat_of_isZero neg f)))
    rw [if_neg zero] at hx
    rw [if_neg other] at hy
    obtain ⟨rfl, rfl⟩ := coeff_exp_unique hx hy size
    rfl

theorem neg_normal (neg : Bool) (coeff : Nat) (exp : ℤ) : (normal neg coeff exp).neg = neg := by
  unfold normal
  split <;> rfl

/-- A whole number is written in one way only, which may be given. -/
theorem ofInt_eq {n : ℤ} {x : Decimal} (hx : x.Normal) (sign : x.neg = decide (n < 0))
    (value : x.toRat = n) : ofInt n = x :=
  Normal.ext (normal_normal _ _ _) hx ((neg_normal _ _ _).trans sign.symm)
    ((toRat_ofInt n).trans value.symm)

end Decimal

/-! ## Results -/

namespace Decimal

/-- What is this large or larger is an overflow. -/
def limit : ℚ := 10 ^ (money.maxExponent + 1 : ℤ)

theorem limit_pos : 0 < limit := by
  unfold limit
  positivity

/-- Exponents of a few digits are far from the limit. -/
theorem zpow_le_half_limit {e : ℤ} (small : e ≤ money.maxExponent) : (10 : ℚ) ^ e ≤ limit / 2 := by
  have below : (10 : ℚ) ^ e ≤ 10 ^ (money.maxExponent : ℤ) :=
    zpow_le_zpow_right₀ (by norm_num) small
  have positive : (0 : ℚ) < 10 ^ (money.maxExponent : ℤ) := by positivity
  have split : limit = 10 ^ (money.maxExponent : ℤ) * 10 := zpow_add_one₀ (by norm_num) _
  linarith

theorem representable_limit : Representable limit := representable_zpow (by decide)

/-- What is cut to a number below the limit is below it. -/
theorem lt_limit_of_truncate_lt {v : ℚ} (small : truncate v < limit) : v < limit :=
  not_le.mp fun le => small.not_ge (representable_limit.le_truncate le)

theorem abs_lt_limit_of_truncate {v : ℚ} (small : |truncate v| < limit) : |v| < limit :=
  not_le.mp fun le => small.not_ge (le_abs_truncate (by decide) le)

/-- One more than a figure below the limit is below it: there, figures are far apart. -/
theorem add_one_lt_limit {v : ℚ} (exact : Representable v) (small : v < limit) : v + 1 < limit := by
  obtain ⟨e, place⟩ : ∃ e : ℤ, (money.maxExponent + 1 : ℤ) = 40 + e := ⟨_, (add_sub_cancel _ _).symm⟩
  have far : 0 < e := by
    have top : (money.maxExponent : ℤ) = 999999 := rfl
    omega
  have next : limit = ((10 ^ 40 - 1 : ℤ) + 1) * 10 ^ e := by
    rw [limit, place, zpow_add₀ (by norm_num)]
    norm_num
  have below := exact.le_of_lt_next (by norm_num) (small.trans_eq next)
  have step : (1 : ℚ) < 10 ^ e := one_lt_zpow₀ (by norm_num) far
  rw [next]
  linarith

structure Result (x : Decimal) : Prop where
  normal : x.Normal
  exact : Representable x.toRat
  size : |x.toRat| < limit

theorem result_zero : (0 : Decimal).Result := by
  refine ⟨normal_normal _ _ _, ?_, ?_⟩
  · rw [toRat_zero]
    exact representable_zero
  · rw [toRat_zero, abs_zero]
    exact limit_pos

theorem lt_limit_of_adjusted {x : Decimal} (small : x.adjusted ≤ money.maxExponent) :
    |x.toRat| < limit :=
  (lt_adjusted x).trans_le (zpow_le_zpow_right₀ (by norm_num) (Int.add_le_add_right small 1))

/-- The leading digit of a number below a power of ten stands below it. -/
theorem Normal.adjusted_le_of_lt {x : Decimal} (normal : x.Normal) {m : ℕ}
    (small : |x.toRat| < 10 ^ (m + 1 : ℤ)) : x.adjusted ≤ m := by
  by_cases zero : x.coeff = 0
  · unfold Normal at normal
    rw [if_pos zero] at normal
    rw [adjusted, normal, zero, show digitCount 0 = 0 by decide]
    omega
  · have low := (Decimal.adjusted_le zero).trans_lt small
    exact Int.lt_add_one_iff.mp ((zpow_lt_zpow_iff_right₀ (by norm_num : (1 : ℚ) < 10)).mp low)

theorem Normal.adjusted_le {x : Decimal} (normal : x.Normal) (small : |x.toRat| < limit) :
    x.adjusted ≤ money.maxExponent := normal.adjusted_le_of_lt small

end Decimal

theorem round_spec {neg : Bool} {num den : Nat} {exp : ℤ} {x : Decimal} (hd : den ≠ 0)
    (h : money.round neg num den exp = .ok x) : x.neg = neg ∧ x.Result := by
  have exact_value : Representable x.toRat := by
    rw [round_value hd h]
    exact representable_truncate _
  have zero : (⟨neg, 0, 0⟩ : Decimal).Normal ∧ |(⟨neg, 0, 0⟩ : Decimal).toRat| < Decimal.limit := by
    rw [Decimal.toRat_of_isZero, abs_zero]
    exact ⟨by simp [Decimal.Normal], Decimal.limit_pos⟩
  unfold Context.round at h
  simp only at h
  split at h
  · cases h
    exact ⟨rfl, zero.1, exact_value, zero.2⟩
  split at h
  · cases h
  split at h
  · cases h
    exact ⟨rfl, zero.1, exact_value, zero.2⟩
  split at h
  · cases h
  · rename_i small
    cases h
    refine ⟨?_, Decimal.normal_normal _ _ _, exact_value,
      Decimal.lt_limit_of_adjusted (not_lt.mp small)⟩
    unfold Decimal.normal
    split <;> rfl

/-- What is below the limit is no overflow. -/
theorem exists_round (neg : Bool) {num den : Nat} {exp : ℤ} (hd : den ≠ 0)
    (small : (num : ℚ) / den * 10 ^ exp < Decimal.limit) :
    ∃ x, money.round neg num den exp = .ok x := by
  unfold Context.round
  split
  · exact ⟨_, rfl⟩
  rename_i nonzero
  have size : (0 : ℚ) < num / den * 10 ^ exp := by positivity
  have place : money.gridExponent (Int.log 10 ((num : ℚ) / den * 10 ^ exp)) =
      grid (num / den * 10 ^ exp) := by
    rw [grid, abs_of_pos size]
  simp only [top_eq nonzero hd, place]
  rw [if_neg]
  · split
    · exact ⟨_, rfl⟩
    rw [if_neg]
    · exact ⟨_, rfl⟩
    rw [not_lt]
    refine (Decimal.normal_normal _ _ _).adjusted_le ?_
    rw [toRat_cut, ← truncate_unit_mul neg size.le]
    refine (abs_truncate_le _).trans_lt ?_
    rwa [abs_mul, Decimal.abs_unit, one_mul, abs_of_pos size]
  · rw [not_lt]
    have low := (Int.zpow_log_le_self (b := 10) (by decide) size).trans_lt small
    exact Int.lt_add_one_iff.mp ((zpow_lt_zpow_iff_right₀ (by norm_num : (1 : ℚ) < 10)).mp low)

/-! ## Operations -/

theorem mul_result {x y z : Decimal} (h : (x * y : Outcome Decimal) = .ok z) :
    z.neg = (x.neg != y.neg) ∧ z.Result := round_spec one_ne_zero h

theorem div_result {x y z : Decimal} (h : (x / y : Outcome Decimal) = .ok z) : z.Result := by
  change money.div x y = .ok z at h
  unfold Context.div at h
  split at h
  · cases h
  · rename_i nonzero
    exact (round_spec (by simpa [Decimal.isZero] using nonzero) h).2

theorem add_result {x y z : Decimal} (h : (x + y : Outcome Decimal) = .ok z) : z.Result := by
  change money.add x y = .ok z at h
  unfold Context.add at h
  split at h
  · cases h
    refine ⟨by simp [Decimal.Normal], ?_, ?_⟩
    · rw [Decimal.toRat_of_isZero]
      exact representable_zero
    · rw [Decimal.toRat_of_isZero, abs_zero]
      exact Decimal.limit_pos
  repeat' split at h
  all_goals exact (round_spec one_ne_zero h).2

theorem sub_result {x y z : Decimal} (h : (x - y : Outcome Decimal) = .ok z) : z.Result :=
  add_result (y := y.flip) h

theorem exists_addDigits {x y : Decimal} (small : |x.toRat + y.toRat| < Decimal.limit) :
    ∃ z, money.addDigits x y = .ok z := by
  refine exists_round _ one_ne_zero ?_
  rw [Decimal.toRat_inUnits x (min_le_left _ _), Decimal.toRat_inUnits y (min_le_right _ _),
    ← add_mul, abs_mul, abs_of_pos (a := (10 : ℚ) ^ min x.exp y.exp) (by positivity)] at small
  rw [Nat.cast_one, div_one, Nat.cast_natAbs]
  exact_mod_cast small

/-- A trace does not lift a number over a power of ten: both are below the next multiple of the
    last place. -/
theorem abs_add_abs_trace_lt {x : Decimal} (y : Decimal) (nonzero : x.coeff ≠ 0)
    (size : |x.toRat| < Decimal.limit) :
    |x.toRat| + |(money.trace x y).toRat| < Decimal.limit := by
  have place : money.lastPlace x ≤ x.exp := min_le_left _ _
  have digits : money.lastPlace x ≤ x.adjusted - 40 := min_le_right _ _
  have trace : |(money.trace x y).toRat| = 10 ^ (money.lastPlace x - 2) := by
    rw [Decimal.abs_toRat, Context.trace, Nat.cast_one, one_mul]
  have small : (10 : ℚ) ^ (money.lastPlace x - 2) < 10 ^ money.lastPlace x :=
    zpow_lt_zpow_right₀ (by norm_num) (by omega)
  have units := Decimal.toRat_inUnits x place
  have below := Decimal.lt_adjusted x
  have top : x.adjusted + 1 ≤ money.maxExponent + 1 := by
    have low := (Decimal.adjusted_le nonzero).trans_lt size
    exact (zpow_lt_zpow_iff_right₀ (by norm_num : (1 : ℚ) < 10)).mp low
  have next : (10 : ℚ) ^ (x.adjusted + 1) ≤ Decimal.limit :=
    zpow_le_zpow_right₀ (by norm_num) top
  -- counted in last places, the number is a whole one below a whole power of ten
  have ten : (0 : ℚ) < 10 ^ money.lastPlace x := by positivity
  have whole := intCast_mul_zpow (n := 1) (by omega : money.lastPlace x ≤ x.adjusted + 1)
  rw [Int.cast_one, one_mul, one_mul] at whole
  rw [units, abs_mul, abs_of_pos ten, ← Int.cast_abs] at below ⊢
  rw [whole] at below next
  have step : |x.inUnits (money.lastPlace x)| + 1 ≤
      10 ^ (x.adjusted + 1 - money.lastPlace x).toNat := by
    exact_mod_cast lt_of_mul_lt_mul_right below ten.le
  have scaled : ((|x.inUnits (money.lastPlace x)| + 1 : ℤ) : ℚ) * 10 ^ money.lastPlace x ≤
      Decimal.limit :=
    (mul_le_mul_of_nonneg_right (by exact_mod_cast step) ten.le).trans next
  rw [trace]
  push_cast at scaled ⊢
  linarith

/-- Two numbers below the limit have a sum if that is below the limit too. -/
theorem exists_add_of_sum {x y : Decimal} (hx : |x.toRat| < Decimal.limit)
    (hy : |y.toRat| < Decimal.limit) (sum : |x.toRat + y.toRat| < Decimal.limit) :
    ∃ z, (x + y : Outcome Decimal) = .ok z := by
  have single {u : Decimal} (hu : |u.toRat| < Decimal.limit) :
      ∃ z, money.roundDecimal u = .ok z := by
    refine exists_round _ one_ne_zero ?_
    rwa [Nat.cast_one, div_one, ← Decimal.abs_toRat]
  have nonzero {u : Decimal} (hu : ¬ u.isZero) : u.coeff ≠ 0 := by
    rwa [Decimal.isZero_iff, Decimal.toRat_eq_zero_iff] at hu
  show ∃ z, money.add x y = .ok z
  unfold Context.add
  split
  · exact ⟨_, rfl⟩
  split
  · exact single hy
  split
  · exact single hx
  rename_i hx0 hy0
  split
  · exact exists_addDigits ((abs_add_le _ _).trans_lt (abs_add_abs_trace_lt y (nonzero hx0) hx))
  split
  · rw [add_comm] at sum
    refine exists_addDigits ?_
    rw [add_comm]
    exact (abs_add_le _ _).trans_lt (abs_add_abs_trace_lt x (nonzero hy0) hy)
  · exact exists_addDigits sum

/-- Two terms that are each below half the limit have a sum. -/
theorem exists_add {x y : Decimal} (hx : |x.toRat| < Decimal.limit / 2)
    (hy : |y.toRat| < Decimal.limit / 2) : ∃ z, (x + y : Outcome Decimal) = .ok z := by
  have half := half_lt_self Decimal.limit_pos
  exact exists_add_of_sum (hx.trans half) (hy.trans half)
    ((abs_add_le _ _).trans_lt (by linarith))

theorem exists_sub {x y : Decimal} (hx : |x.toRat| < Decimal.limit / 2)
    (hy : |y.toRat| < Decimal.limit / 2) : ∃ z, (x - y : Outcome Decimal) = .ok z :=
  exists_add (y := y.flip) hx (by rwa [Decimal.toRat_flip, abs_neg])

/-- Numbers that are not negative have a difference: it is no larger than they are. -/
theorem exists_sub_of_nonneg {x y : Decimal} (hx : 0 ≤ x.toRat) (hy : 0 ≤ y.toRat)
    (x_lt : x.toRat < Decimal.limit) (y_lt : y.toRat < Decimal.limit) :
    ∃ z, (x - y : Outcome Decimal) = .ok z := by
  refine exists_add_of_sum (y := y.flip) ?_ ?_ ?_
  · rwa [abs_of_nonneg hx]
  · rwa [Decimal.toRat_flip, abs_neg, abs_of_nonneg hy]
  · rw [Decimal.toRat_flip, abs_lt]
    constructor <;> linarith

/-- A product that is below the limit is given. -/
theorem exists_mul {x y : Decimal} (small : |x.toRat * y.toRat| < Decimal.limit) :
    ∃ z, (x * y : Outcome Decimal) = .ok z := by
  refine exists_round (x.neg != y.neg) one_ne_zero ?_
  rw [abs_mul, Decimal.abs_toRat, Decimal.abs_toRat, mul_mul_mul_comm,
    ← zpow_add₀ (by norm_num)] at small
  rw [Nat.cast_one, div_one, Nat.cast_mul]
  exact small

/-- A quotient that is below the limit is given. -/
theorem exists_div {x y : Decimal} (hy : y.toRat ≠ 0)
    (small : |x.toRat / y.toRat| < Decimal.limit) : ∃ z, (x / y : Outcome Decimal) = .ok z := by
  show ∃ z, money.div x y = .ok z
  have nonzero : y.coeff ≠ 0 := mt (Decimal.toRat_eq_zero_iff y).mpr hy
  unfold Context.div
  rw [if_neg (by simpa [Decimal.isZero] using nonzero)]
  refine exists_round _ nonzero ?_
  rw [abs_div, Decimal.abs_toRat, Decimal.abs_toRat, mul_div_mul_comm,
    ← zpow_sub₀ (by norm_num)] at small
  exact small

/-- Over something that is one at least, nothing grows. -/
theorem exists_div_of_one_le {x y : Decimal} (hx : |x.toRat| < Decimal.limit)
    (one_le : 1 ≤ y.toRat) : ∃ z, (x / y : Outcome Decimal) = .ok z := by
  have positive : 0 < y.toRat := zero_lt_one.trans_le one_le
  refine exists_div positive.ne' ?_
  rw [abs_div, abs_of_pos positive]
  exact (div_le_self (abs_nonneg _) one_le).trans_lt hx

/-- Powers of ten in range are given, and are not cut. -/
theorem Decimal.exists_powerOfTen {n : ℤ} (least : money.leastExponent ≤ n)
    (high : n ≤ money.maxExponent) : ∃ x, powerOfTen n = .ok x ∧ x.toRat = 10 ^ n := by
  have value : ((1 : Nat) : ℚ) / (1 : Nat) * 10 ^ n = 10 ^ n := by norm_num
  obtain ⟨x, hx⟩ : ∃ x, powerOfTen n = .ok x := by
    refine exists_round _ one_ne_zero ?_
    rw [value]
    exact (zpow_le_half_limit high).trans_lt (half_lt_self limit_pos)
  refine ⟨x, hx, ?_⟩
  unfold powerOfTen at hx
  rw [round_value one_ne_zero hx, unit_false, one_mul, value,
    (representable_zpow least).truncate_eq]

/-- Once, a number that an operation gave is that number. -/
theorem Decimal.Result.mul_one_eq {x : Decimal} (h : x.Result) :
    (x * 1 : Outcome Decimal) = .ok x := by
  obtain ⟨z, product⟩ : ∃ z, (x * 1 : Outcome Decimal) = .ok z :=
    exists_mul (by rw [Decimal.toRat_one, mul_one]; exact h.size)
  obtain ⟨sign, result⟩ := mul_result product
  have value : z.toRat = x.toRat := by
    rw [mul_value product, Decimal.toRat_one, mul_one, h.exact.truncate_eq]
  rw [product, result.normal.ext h.normal (sign.trans (Bool.bne_false x.neg)) value]

/-- At least one over anything that is no overflow is too large to be cut to zero. -/
theorem div_ne_zero_of_one_le {x y z : Decimal} (h : (x / y : Outcome Decimal) = .ok z)
    (one_le : 1 ≤ |x.toRat|) (size : |y.toRat| < Decimal.limit) : z.toRat ≠ 0 := by
  obtain ⟨hy, value⟩ := div_value h
  have positive : 0 < |y.toRat| := abs_pos.mpr hy
  have low : (10 : ℚ) ^ (-(money.maxExponent + 1 : ℤ)) ≤ |x.toRat / y.toRat| := by
    rw [abs_div, zpow_neg, le_div_iff₀ positive, ← div_eq_inv_mul]
    show |y.toRat| / Decimal.limit ≤ |x.toRat|
    rw [div_le_iff₀ Decimal.limit_pos]
    exact size.le.trans (le_mul_of_one_le_left Decimal.limit_pos.le one_le)
  rw [value]
  exact abs_pos.mp (lt_of_lt_of_le (by positivity) (le_abs_truncate (by decide) low))

/-- Nothing times anything is nothing, and is no overflow. -/
theorem exists_zero_mul {x : Decimal} (zero : x.toRat = 0) (y : Decimal) :
    ∃ z, (x * y : Outcome Decimal) = .ok z ∧ z.toRat = 0 := by
  obtain ⟨z, product⟩ : ∃ z, (x * y : Outcome Decimal) = .ok z := by
    refine exists_mul ?_
    rw [zero, zero_mul, abs_zero]
    exact Decimal.limit_pos
  refine ⟨z, product, ?_⟩
  rw [mul_value product, zero, zero_mul, truncate_zero]

/-- With nothing added, a number that an operation gave keeps its value. -/
theorem Decimal.Result.exists_add_zero {x y : Decimal} (h : x.Result) (zero : y.toRat = 0) :
    ∃ z, (x + y : Outcome Decimal) = .ok z ∧ z.toRat = x.toRat := by
  obtain ⟨z, sum⟩ : ∃ z, (x + y : Outcome Decimal) = .ok z := by
    refine exists_add_of_sum h.size ?_ ?_
    · rw [zero, abs_zero]
      exact limit_pos
    · rw [zero, add_zero]
      exact h.size
  refine ⟨z, sum, ?_⟩
  rw [add_value sum, zero, add_zero, h.exact.truncate_eq]

theorem Decimal.Result.exists_zero_add {x y : Decimal} (h : y.Result) (zero : x.toRat = 0) :
    ∃ z, (x + y : Outcome Decimal) = .ok z ∧ z.toRat = y.toRat := by
  obtain ⟨z, sum⟩ : ∃ z, (x + y : Outcome Decimal) = .ok z := by
    refine exists_add_of_sum ?_ h.size ?_
    · rw [zero, abs_zero]
      exact limit_pos
    · rw [zero, zero_add]
      exact h.size
  refine ⟨z, sum, ?_⟩
  rw [add_value sum, zero, zero_add, h.exact.truncate_eq]

theorem Decimal.Result.exists_sub_zero {x y : Decimal} (h : x.Result) (zero : y.toRat = 0) :
    ∃ z, (x - y : Outcome Decimal) = .ok z ∧ z.toRat = x.toRat :=
  h.exists_add_zero (y := y.flip) (by rw [toRat_flip, zero, neg_zero])

theorem Decimal.Result.exists_sub_self {x : Decimal} (h : x.Result) :
    ∃ z, (x - x : Outcome Decimal) = .ok z ∧ z.toRat = 0 := by
  have none : x.toRat + x.flip.toRat = 0 := by rw [toRat_flip, add_neg_cancel]
  obtain ⟨z, left⟩ : ∃ z, (x - x : Outcome Decimal) = .ok z := by
    refine exists_add_of_sum (y := x.flip) h.size ?_ ?_
    · rw [toRat_flip, abs_neg]
      exact h.size
    · rw [none, abs_zero]
      exact limit_pos
  refine ⟨z, left, ?_⟩
  rw [sub_value left, sub_self, truncate_zero]

/-! ## Numbers of the same value -/

theorem Decimal.isZero_congr {x y : Decimal} (same : x.toRat = y.toRat) : x.isZero = y.isZero := by
  rw [Bool.eq_iff_iff, isZero_iff, isZero_iff, same]

section
variable {x x' y y' z : Decimal} (same_left : x.toRat = x'.toRat) (same_right : y.toRat = y'.toRat)
include same_left same_right

/-- The sum of numbers below the limit goes by their values. -/
theorem exists_add_congr (left : |x.toRat| < Decimal.limit) (right : |y.toRat| < Decimal.limit)
    (h : (x + y : Outcome Decimal) = .ok z) :
    ∃ z', (x' + y' : Outcome Decimal) = .ok z' ∧ z.toRat = z'.toRat := by
  have value := add_value h
  have small : |x.toRat + y.toRat| < Decimal.limit :=
    Decimal.abs_lt_limit_of_truncate (value ▸ (add_result h).size)
  rw [same_left, same_right] at value small
  obtain ⟨z', given⟩ := exists_add_of_sum (same_left ▸ left) (same_right ▸ right) small
  exact ⟨z', given, value.trans (add_value given).symm⟩

theorem exists_sub_congr (left : |x.toRat| < Decimal.limit) (right : |y.toRat| < Decimal.limit)
    (h : (x - y : Outcome Decimal) = .ok z) :
    ∃ z', (x' - y' : Outcome Decimal) = .ok z' ∧ z.toRat = z'.toRat := by
  have flipped : y.flip.toRat = y'.flip.toRat := by
    rw [Decimal.toRat_flip, Decimal.toRat_flip, same_right]
  refine exists_add_congr same_left flipped left ?_ h
  rwa [Decimal.toRat_flip, abs_neg]

theorem exists_mul_congr (h : (x * y : Outcome Decimal) = .ok z) :
    ∃ z', (x' * y' : Outcome Decimal) = .ok z' ∧ z.toRat = z'.toRat := by
  have value := mul_value h
  have small : |x.toRat * y.toRat| < Decimal.limit :=
    Decimal.abs_lt_limit_of_truncate (value ▸ (mul_result h).2.size)
  rw [same_left, same_right] at value small
  obtain ⟨z', given⟩ := exists_mul small
  exact ⟨z', given, value.trans (mul_value given).symm⟩

theorem exists_div_congr (h : (x / y : Outcome Decimal) = .ok z) :
    ∃ z', (x' / y' : Outcome Decimal) = .ok z' ∧ z.toRat = z'.toRat := by
  obtain ⟨divides, value⟩ := div_value h
  have small : |x.toRat / y.toRat| < Decimal.limit :=
    Decimal.abs_lt_limit_of_truncate (value ▸ (div_result h).size)
  rw [same_left, same_right] at value small
  obtain ⟨z', given⟩ := exists_div (same_right ▸ divides) small
  exact ⟨z', given, value.trans (div_value given).2.symm⟩

theorem exists_ratioOrZero_congr (h : Decimal.ratioOrZero x y = .ok z) :
    ∃ z', Decimal.ratioOrZero x' y' = .ok z' ∧ z.toRat = z'.toRat := by
  unfold Decimal.ratioOrZero at h ⊢
  rw [← Decimal.isZero_congr same_right]
  split at h
  · rename_i none
    rw [if_pos none]
    exact ⟨z, h, rfl⟩
  · rename_i some
    rw [if_neg some]
    exact exists_div_congr same_left same_right h

end

end Lending
