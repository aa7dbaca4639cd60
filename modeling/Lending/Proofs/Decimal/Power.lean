/-
  Lending.Proofs.Decimal.Power — powers by repeated squaring stay in range.

  A context rounds a value to one that is larger by its `slack` at most, whichever way it rounds
  (`Context.exists_round_le`). So if the base with its slack is at most `bound`, then after any
  number of steps the number with its slack is at most the power of `bound` that the steps stand
  for: squaring doubles the exponent, a multiplication adds one (`Context.exists_powerStep`).
  The steps that the binary digits of `n` ask for stand for the exponent `n`
  (`readBits_lowerBits`), and so the power of the base is given if the power of `bound` is in
  range (`Context.exists_powerBySquaring`, `exists_power`).
-/
import Lending.Proofs.Decimal.Normal

namespace Lending

open Truncation

theorem Rounding.quotient_le (r : Rounding) (num : Nat) {den : Nat} (positive : 0 < den) :
    (r.quotient num den : ℚ) ≤ num / den + 1 := by
  have whole : (0 : ℚ) < den := by exact_mod_cast positive
  cases r with
  | towardZero =>
    have below : ((num / den : Nat) : ℚ) ≤ num / den := Nat.cast_div_le
    exact below.trans (le_add_of_nonneg_right zero_le_one)
  | halfEven =>
    have near : 2 * (halfEven.quotient num den * den) ≤ 2 * num + den :=
      (halfEven_quotient_near num positive).2
    have near' : (2 : ℚ) * (halfEven.quotient num den * den) ≤ 2 * num + den := by
      exact_mod_cast near
    rw [div_add_one whole.ne', le_div_iff₀ whole]
    linarith

namespace Context

/-- By how much a context may raise a number, relative to it: a unit of the last digit. -/
def slack (c : Context) : ℚ := 1 + 10 ^ (1 - c.precision : ℤ)

theorem one_le_slack (c : Context) : 1 ≤ c.slack := by
  unfold slack
  linarith [(by positivity : (0 : ℚ) < 10 ^ (1 - c.precision : ℤ))]

/-- A value that leaves room below the limit of the context is no overflow. Values below 1 may be
    raised by more than their own last digit, but not by more than that of 1. -/
theorem exists_round_le {c : Context} (neg : Bool) {num den : Nat} {exp : ℤ} (hd : den ≠ 0)
    (small : max 1 ((num : ℚ) / den * 10 ^ exp) * c.slack < 10 ^ (c.maxExponent + 1 : ℤ)) :
    ∃ x, c.round neg num den exp = .ok x ∧
      |x.toRat| ≤ max 1 ((num : ℚ) / den * 10 ^ exp) * c.slack := by
  have bound_nonneg : 0 ≤ max 1 ((num : ℚ) / den * 10 ^ exp) * c.slack :=
    mul_nonneg (zero_le_one.trans (le_max_left _ _)) (zero_le_one.trans c.one_le_slack)
  have zero : |(⟨neg, 0, 0⟩ : Decimal).toRat| ≤ max 1 ((num : ℚ) / den * 10 ^ exp) * c.slack := by
    rwa [Decimal.toRat_of_isZero, abs_zero]
  unfold Context.round
  split
  · exact ⟨_, rfl, zero⟩
  rename_i nonzero
  have size : (0 : ℚ) < num / den * 10 ^ exp := by positivity
  simp only [top_eq nonzero hd]
  generalize hv : (num : ℚ) / den * 10 ^ exp = v at size small zero ⊢
  have low := Int.zpow_log_le_self (b := 10) (by decide) size
  rw [Nat.cast_ofNat] at low
  have le_bound : v ≤ max 1 v * c.slack :=
    (le_max_right 1 v).trans
      (le_mul_of_one_le_right (zero_le_one.trans (le_max_left _ _)) c.one_le_slack)
  rw [if_neg]
  · split
    · exact ⟨_, rfl, zero⟩
    generalize hg : c.gridExponent (Int.log 10 v) = g
    -- a step of the grid is at most the slack of the value, or of 1
    have step : (10 : ℚ) ^ g ≤ max 1 v * 10 ^ (1 - c.precision : ℤ) := by
      have ten : (0 : ℚ) < 10 ^ (1 - c.precision : ℤ) := by positivity
      rw [← hg]
      unfold gridExponent leastExponent
      rcases max_cases (Int.log 10 v - (c.precision - 1 : ℤ))
        (-(c.maxExponent : ℤ) - (c.precision - 1)) with ⟨top, -⟩ | ⟨least, -⟩
      · rw [top, show Int.log 10 v - (c.precision - 1 : ℤ) = Int.log 10 v + (1 - c.precision) by ring,
          zpow_add₀ (by norm_num)]
        exact mul_le_mul_of_nonneg_right (low.trans (le_max_right 1 v)) ten.le
      · rw [least]
        refine le_trans ?_ (le_mul_of_one_le_left ten.le (le_max_left 1 v))
        exact zpow_le_zpow_right₀ (by norm_num) (by omega)
    have units : 0 < den * tens (-(exp - g)) :=
      Nat.mul_pos (Nat.pos_of_ne_zero hd) (Nat.pos_of_ne_zero (by simp [tens]))
    have value : |(Decimal.normal neg (c.rounding.quotient (num * tens (exp - g))
        (den * tens (-(exp - g)))) g).toRat| ≤ max 1 v * c.slack := by
      have ten : (0 : ℚ) < 10 ^ g := by positivity
      have up := c.rounding.quotient_le (num * tens (exp - g)) units
      rw [← units_eq_div, hv] at up
      rw [Decimal.toRat_normal, mul_assoc, abs_mul, Decimal.abs_unit, one_mul,
        abs_of_nonneg (by positivity)]
      calc _ ≤ (v / 10 ^ g + 1) * 10 ^ g := mul_le_mul_of_nonneg_right up ten.le
        _ = v + 10 ^ g := by rw [add_mul, div_mul_cancel₀ v ten.ne', one_mul]
        _ ≤ max 1 v + max 1 v * 10 ^ (1 - c.precision : ℤ) := add_le_add (le_max_right 1 v) step
        _ = max 1 v * c.slack := by rw [slack]; ring
    rw [if_neg]
    · exact ⟨_, rfl, value⟩
    · rw [not_lt]
      exact (Decimal.normal_normal _ _ _).adjusted_le_of_lt (value.trans_lt small)
  · rw [not_lt]
    have below := low.trans_lt (le_bound.trans_lt small)
    exact Int.lt_add_one_iff.mp ((zpow_lt_zpow_iff_right₀ (by norm_num : (1 : ℚ) < 10)).mp below)

/-! ## Steps -/

/-- The exponent that the steps of a power stand for, from one on. -/
def readBits (m : Nat) (bits : List Bool) : Nat := bits.foldl (fun m bit => 2 * m + bit.toNat) m

theorem le_readBits (m : Nat) (bits : List Bool) : m ≤ readBits m bits := by
  induction bits generalizing m with
  | nil => exact le_rfl
  | cons bit rest ih => exact le_trans (by omega) (ih (2 * m + bit.toNat))

/-- From what is left of a number without its lowest digits, these digits give it back. -/
theorem readBits_div (n k : Nat) :
    readBits (n / 2 ^ k) ((List.range k).reverse.map n.testBit) = n := by
  induction k with
  | zero => simp [readBits]
  | succ k ih =>
    have halves : 2 * (n / 2 ^ (k + 1)) + (n.testBit k).toNat = n / 2 ^ k := by
      rw [Nat.toNat_testBit, pow_succ, ← Nat.div_div_eq_div_mul]
      omega
    rw [List.range_succ, List.reverse_append, List.reverse_singleton, List.singleton_append,
      List.map_cons]
    show readBits (2 * (n / 2 ^ (k + 1)) + (n.testBit k).toNat) _ = n
    rw [halves, ih]

theorem readBits_lowerBits {n : Nat} (positive : n ≠ 0) : readBits 1 (lowerBits n) = n := by
  have leading : n / 2 ^ n.log2 = 1 := by
    rw [Nat.div_eq_iff (by positivity)]
    have low := Nat.log2_self_le positive
    have high : n < 2 ^ (n.log2 + 1) := Nat.lt_log2_self
    rw [pow_succ] at high
    omega
  have read := readBits_div n n.log2
  rwa [leading] at read

/-- What a product is rounded from. -/
theorem product_eq (x y : Decimal) :
    ((x.coeff * y.coeff : Nat) : ℚ) / (1 : Nat) * 10 ^ (x.exp + y.exp) =
      |x.toRat| * |y.toRat| := by
  rw [Nat.cast_one, div_one, Nat.cast_mul, Decimal.abs_toRat, Decimal.abs_toRat,
    mul_mul_mul_comm, ← zpow_add₀ (by norm_num)]

section
variable {c : Context} {bound : ℚ} (slack_le : c.slack ≤ bound)
include slack_le

/-- A product of numbers that are below powers of the bound, each with its slack. -/
theorem exists_mul_le {x y : Decimal} {i j : ℕ} (hi : 1 ≤ i) (hj : 1 ≤ j)
    (hx : |x.toRat| * c.slack ≤ bound ^ i) (hy : |y.toRat| * c.slack ≤ bound ^ j)
    (small : bound ^ (i + j) < 10 ^ (c.maxExponent + 1 : ℤ)) :
    ∃ z, c.mul x y = .ok z ∧ |z.toRat| * c.slack ≤ bound ^ (i + j) := by
  have one_le := c.one_le_slack
  have bound_one := one_le.trans slack_le
  have slack_nonneg := zero_le_one.trans one_le
  have raised : max 1 (|x.toRat| * |y.toRat|) * c.slack * c.slack ≤ bound ^ (i + j) := by
    rw [mul_assoc, max_mul_of_nonneg _ _ (mul_nonneg slack_nonneg slack_nonneg)]
    refine max_le ?_ ?_
    · calc 1 * (c.slack * c.slack) ≤ bound * bound := by
            rw [one_mul]
            exact mul_le_mul slack_le slack_le slack_nonneg (zero_le_one.trans bound_one)
        _ = bound ^ 2 := (pow_two bound).symm
        _ ≤ bound ^ (i + j) := pow_le_pow_right₀ bound_one (by omega)
    · rw [mul_mul_mul_comm, pow_add]
      exact mul_le_mul hx hy (mul_nonneg (abs_nonneg _) slack_nonneg)
        (pow_nonneg (zero_le_one.trans bound_one) i)
  have fits : max 1 (|x.toRat| * |y.toRat|) * c.slack < 10 ^ (c.maxExponent + 1 : ℤ) := by
    refine lt_of_le_of_lt ?_ (raised.trans_lt small)
    refine le_mul_of_one_le_right (mul_nonneg ?_ slack_nonneg) one_le
    exact zero_le_one.trans (le_max_left _ _)
  rw [← product_eq] at fits raised
  obtain ⟨z, given, size⟩ := exists_round_le (x.neg != y.neg) one_ne_zero fits
  exact ⟨z, given, (mul_le_mul_of_nonneg_right size slack_nonneg).trans raised⟩

variable {base : Decimal} (base_le : |base.toRat| * c.slack ≤ bound)
include base_le

/-- One step doubles the exponent, and adds one if the digit is a one. -/
theorem exists_powerStep {r : Decimal} {m : ℕ} (hm : 1 ≤ m) (hr : |r.toRat| * c.slack ≤ bound ^ m)
    (bit : Bool) (small : bound ^ (2 * m + bit.toNat) < 10 ^ (c.maxExponent + 1 : ℤ)) :
    ∃ z, c.powerStep base r bit = .ok z ∧ |z.toRat| * c.slack ≤ bound ^ (2 * m + bit.toNat) := by
  have bound_one := c.one_le_slack.trans slack_le
  have twice : bound ^ (m + m) < 10 ^ (c.maxExponent + 1 : ℤ) :=
    (pow_le_pow_right₀ bound_one (by omega)).trans_lt small
  obtain ⟨square, squared, square_le⟩ := exists_mul_le slack_le hm hm hr hr twice
  unfold powerStep
  rw [squared]
  cases bit with
  | false =>
    rw [two_mul]
    exact ⟨square, rfl, square_le⟩
  | true =>
    rw [two_mul] at small ⊢
    exact exists_mul_le slack_le (by omega) le_rfl square_le
      ((pow_one bound).symm ▸ base_le) small

/-- A whole run: what one step keeps, all do. -/
theorem exists_powerSteps (bits : List Bool) {r : Decimal} {m : ℕ} (hm : 1 ≤ m)
    (hr : |r.toRat| * c.slack ≤ bound ^ m)
    (small : bound ^ readBits m bits < 10 ^ (c.maxExponent + 1 : ℤ)) :
    ∃ z, bits.foldlM (c.powerStep base) r = .ok z ∧
      |z.toRat| * c.slack ≤ bound ^ readBits m bits := by
  induction bits generalizing r m with
  | nil => exact ⟨r, rfl, hr⟩
  | cons bit rest ih =>
    have bound_one := c.one_le_slack.trans slack_le
    have now : bound ^ (2 * m + bit.toNat) < 10 ^ (c.maxExponent + 1 : ℤ) :=
      (pow_le_pow_right₀ bound_one (le_readBits _ rest)).trans_lt small
    obtain ⟨next, step, next_le⟩ := exists_powerStep slack_le base_le hm hr bit now
    rw [List.foldlM_cons, step]
    exact ih (m := 2 * m + bit.toNat) (by omega) next_le small

theorem exists_powerBySquaring {n : Nat} (positive : n ≠ 0)
    (small : bound ^ n < 10 ^ (c.maxExponent + 1 : ℤ)) :
    ∃ z, c.powerBySquaring base n = .ok z ∧ |z.toRat| * c.slack ≤ bound ^ n := by
  have read := readBits_lowerBits positive
  unfold powerBySquaring
  rw [if_neg positive]
  have run := exists_powerSteps slack_le base_le (lowerBits n) (r := base) (m := 1) le_rfl
    ((pow_one bound).symm ▸ base_le)
  rw [read] at run
  exact run small

end

end Context

/-- A power of money is given if that of a slightly larger base is below the limit. -/
theorem exists_power {base : Decimal} {n : Nat} {bound : ℚ} (positive : n ≠ 0)
    (slack_le : (money.forPower n).slack ≤ bound)
    (base_le : |base.toRat| * (money.forPower n).slack ≤ bound)
    (small : bound ^ n < Decimal.limit) :
    ∃ z, money.power base n = .ok z ∧ |z.toRat| ≤ bound ^ n := by
  obtain ⟨r, run, r_le⟩ := Context.exists_powerBySquaring slack_le base_le positive small
  have size : |r.toRat| ≤ bound ^ n :=
    (le_mul_of_one_le_right (abs_nonneg _) (Context.one_le_slack _)).trans r_le
  obtain ⟨z, rounded⟩ : ∃ z, money.roundDecimal r = .ok z := by
    refine exists_round _ one_ne_zero ?_
    rw [Nat.cast_one, div_one, ← Decimal.abs_toRat]
    exact size.trans_lt small
  refine ⟨z, ?_, ?_⟩
  · unfold Context.power
    rw [run]
    exact rounded
  · rw [roundDecimal_value rounded]
    exact (abs_truncate_le _).trans size

end Lending
