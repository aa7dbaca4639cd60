/-
  Lending.Proofs.Decimal.Arithmetic — every money operation is the exact one, cut once.

  `round_value` reads the rounding kernel: a result is the truncation of the exact value. So
  `add_value`, `sub_value`, `mul_value` and `div_value` hold for terms of any size, also where
  a sum is worked out with a trace in place of a term far below its last digit
  (`truncate_add_congr`).
-/
import Lending.Proofs.Decimal.Truncation

namespace Lending

open Truncation

/-! ## Rounding -/

namespace Decimal

theorem quotientAdjusted_eq {num den : Nat} (hn : num ≠ 0) (hd : den ≠ 0) :
    quotientAdjusted num den = Int.log 10 ((num : ℚ) / den) := by
  have num_pos : (0 : ℚ) < num := by positivity
  have den_pos : (0 : ℚ) < den := by positivity
  have num_low : (10 : ℚ) ^ Nat.log 10 num ≤ num := by exact_mod_cast Nat.pow_log_le_self 10 hn
  have num_high : (num : ℚ) < 10 ^ (Nat.log 10 num + 1) := by
    exact_mod_cast Nat.lt_pow_succ_log_self (by decide) num
  have den_low : (10 : ℚ) ^ Nat.log 10 den ≤ den := by exact_mod_cast Nat.pow_log_le_self 10 hd
  have den_high : (den : ℚ) < 10 ^ (Nat.log 10 den + 1) := by
    exact_mod_cast Nat.lt_pow_succ_log_self (by decide) den
  have ratio : (0 : ℚ) < num / den := by positivity
  -- The digit counts fix the leading place up to one; the comparison decides.
  have low : (Nat.log 10 num : ℤ) - Nat.log 10 den - 1 ≤ Int.log 10 ((num : ℚ) / den) := by
    refine (Int.zpow_le_iff_le_log (by decide) ratio).mp ?_
    rw [Nat.cast_ofNat, le_div_iff₀ den_pos]
    refine le_trans (mul_le_mul_of_nonneg_left den_high.le (by positivity)) ?_
    rw [← zpow_natCast, ← zpow_add₀ (by norm_num)]
    refine le_trans (le_of_eq ?_) num_low
    rw [← zpow_natCast]
    congr 1
    push_cast
    ring
  have high : Int.log 10 ((num : ℚ) / den) < (Nat.log 10 num : ℤ) - Nat.log 10 den + 1 := by
    refine (Int.lt_zpow_iff_log_lt (by decide) ratio).mp ?_
    rw [Nat.cast_ofNat, div_lt_iff₀ den_pos]
    refine lt_of_lt_of_le num_high ?_
    refine le_trans (le_of_eq ?_) (mul_le_mul_of_nonneg_left den_low (by positivity))
    rw [← zpow_natCast, ← zpow_natCast, ← zpow_add₀ (by norm_num)]
    congr 1
    push_cast
    ring
  have decides : den * tens ((Nat.log 10 num : ℤ) - Nat.log 10 den)
      ≤ num * tens (-((Nat.log 10 num : ℤ) - Nat.log 10 den)) ↔
      (Nat.log 10 num : ℤ) - Nat.log 10 den ≤ Int.log 10 ((num : ℚ) / den) := by
    rw [← Int.zpow_le_iff_le_log (by decide) ratio, Nat.cast_ofNat, le_div_iff₀ den_pos]
    generalize (Nat.log 10 num : ℤ) - Nat.log 10 den = k
    rw [← Nat.cast_le (α := ℚ), Nat.cast_mul, Nat.cast_mul]
    rcases le_total 0 k with h | h
    · rw [tens_cast h, show tens (-k) = 1 by simp [tens, h]]
      simp [mul_comm]
    · rw [tens_cast (e := -k) (by omega), show tens k = 1 by simp [tens, Int.toNat_of_nonpos h],
        zpow_neg, ← div_eq_mul_inv, le_div_iff₀ (by positivity)]
      simp [mul_comm]
  unfold quotientAdjusted
  rw [digitCount_eq hn, digitCount_eq hd]
  have same : ((Nat.log 10 num + 1 : Nat) : ℤ) - ((Nat.log 10 den + 1 : Nat) : ℤ) =
      (Nat.log 10 num : ℤ) - Nat.log 10 den := by push_cast; ring
  simp only [same]
  split <;> rename_i h <;> rw [decides] at h <;> omega

end Decimal

theorem log_mul_zpow {v : ℚ} (positive : 0 < v) (e : ℤ) :
    Int.log 10 (v * 10 ^ e) = Int.log 10 v + e := by
  have ten : (0 : ℚ) < 10 ^ e := by positivity
  have scaled : 0 < v * 10 ^ e := by positivity
  refine le_antisymm (Int.lt_add_one_iff.mp ?_) ?_
  · refine (Int.lt_zpow_iff_log_lt (by decide) scaled).mp ?_
    have high := Int.lt_zpow_succ_log_self (b := 10) (by decide) v
    rw [show Int.log 10 v + e + 1 = Int.log 10 v + 1 + e by ring, zpow_add₀ (by norm_num)]
    exact mul_lt_mul_of_pos_right high ten
  · refine (Int.zpow_le_iff_le_log (by decide) scaled).mp ?_
    have low := Int.zpow_log_le_self (b := 10) (by decide) positive
    rw [zpow_add₀ (by norm_num)]
    exact mul_le_mul_of_nonneg_right low ten.le

namespace Truncation

theorem truncate_unit_mul (neg : Bool) {v : ℚ} (h : 0 ≤ v) :
    truncate (Decimal.unit neg * v) = Decimal.unit neg * (⌊v / 10 ^ grid v⌋ * 10 ^ grid v) := by
  rw [← truncate_of_nonneg h]
  cases neg <;> simp

end Truncation

/-- A quotient counted in units of a grid is a quotient of whole numbers. -/
theorem units_eq_div (num den : Nat) (exp g : ℤ) :
    (num : ℚ) / den * 10 ^ exp / 10 ^ g =
      ((num * tens (exp - g) : Nat) : ℚ) / ((den * tens (-(exp - g)) : Nat) : ℚ) := by
  have shift : (10 : ℚ) ^ exp / 10 ^ g = 10 ^ (exp - g) := by
    rw [zpow_sub₀ (by norm_num)]
  rw [mul_div_assoc, shift, Nat.cast_mul, Nat.cast_mul]
  generalize exp - g = k
  rcases le_total 0 k with hk | hk
  · rw [tens_cast hk, show tens (-k) = 1 by simp [tens, hk]]
    push_cast
    ring
  · rw [tens_cast (e := -k) (by omega),
      show tens k = 1 by simp [tens, Int.toNat_of_nonpos hk], zpow_neg]
    push_cast
    rw [mul_one, div_mul_eq_div_div, div_inv_eq_mul]

/-- A quotient cut to a grid. -/
theorem toRat_cut (neg : Bool) (num den : Nat) (exp g : ℤ) :
    (Decimal.normal neg (money.rounding.quotient (num * tens (exp - g)) (den * tens (-(exp - g))))
        g).toRat =
      Decimal.unit neg * (⌊(num : ℚ) / den * 10 ^ exp / 10 ^ g⌋ * 10 ^ g) := by
  rw [Decimal.toRat_normal, units_eq_div, Rat.floor_natCast_div_natCast, mul_assoc]
  rfl

/-- The place of the leading digit, as it is worked out, is that of the value. -/
theorem top_eq {num den : Nat} (hn : num ≠ 0) (hd : den ≠ 0) (exp : ℤ) :
    Decimal.quotientAdjusted num den + exp = Int.log 10 ((num : ℚ) / den * 10 ^ exp) := by
  rw [Decimal.quotientAdjusted_eq hn hd, log_mul_zpow (by positivity)]

/-- A rounded result is the truncation of the exact value. -/
theorem round_value {neg : Bool} {num den : Nat} {exp : ℤ} {x : Decimal} (hd : den ≠ 0)
    (h : money.round neg num den exp = .ok x) :
    x.toRat = truncate (Decimal.unit neg * (num / den * 10 ^ exp)) := by
  unfold Context.round at h
  split at h
  · rename_i zero
    cases h
    rw [zero, Decimal.toRat_of_isZero]
    simp
  rename_i nonzero
  have size : (0 : ℚ) < num / den * 10 ^ exp := by positivity
  have place : money.gridExponent (Int.log 10 ((num : ℚ) / den * 10 ^ exp)) =
      grid (num / den * 10 ^ exp) := by
    rw [grid, abs_of_pos size]
  rw [truncate_unit_mul neg size.le]
  simp only [top_eq nonzero hd, place] at h
  split at h
  · cases h
  split at h
  · rename_i far
    cases h
    generalize (num : ℚ) / den * 10 ^ exp = v at far size ⊢
    have high := Int.lt_zpow_succ_log_self (b := 10) (by decide) v
    have below : v / 10 ^ grid v < 1 := by
      rw [div_lt_one (by positivity)]
      exact (high.trans_eq (by simp)).trans_le (zpow_le_zpow_right₀ (by norm_num) far.le)
    rw [Int.floor_eq_zero_iff.mpr ⟨by positivity, below⟩, Decimal.toRat_of_isZero]
    simp
  · split at h
    · cases h
    · cases h
      exact toRat_cut neg num den exp _

theorem round_error {c : Context} {neg : Bool} {num den : Nat} {exp : ℤ} {f : Fault}
    (h : c.round neg num den exp = .error f) : f = .overflow := by
  unfold Context.round at h
  split at h
  · cases h
  · simp only at h
    repeat' split at h
    all_goals cases h
    all_goals rfl

theorem roundDecimal_value {x z : Decimal} (h : money.roundDecimal x = .ok z) :
    z.toRat = truncate x.toRat := by
  have := round_value one_ne_zero h
  rw [this, Decimal.toRat_eq, Nat.cast_one, div_one, mul_assoc]

/-! ## Sums -/

theorem addDigits_value {x y z : Decimal} (h : money.addDigits x y = .ok z) :
    z.toRat = truncate (x.toRat + y.toRat) := by
  have sum : x.toRat + y.toRat =
      (x.inUnits (min x.exp y.exp) + y.inUnits (min x.exp y.exp) : ℤ) * 10 ^ (min x.exp y.exp) := by
    rw [Decimal.toRat_inUnits x (min_le_left _ _), Decimal.toRat_inUnits y (min_le_right _ _)]
    push_cast
    ring
  rw [round_value one_ne_zero h, sum]
  generalize x.inUnits (min x.exp y.exp) + y.inUnits (min x.exp y.exp) = s
  rw [Nat.cast_one, div_one, ← mul_assoc]
  congr 2
  by_cases negative : s < 0
  · simp [negative, abs_of_neg negative]
  · simp [negative, abs_of_nonneg (not_lt.mp negative)]

/-- Values in one cell of a fine enough grid are cut alike. -/
theorem truncate_eq_of_cell {v w : ℚ} {a e : ℤ} (high : 10 ^ 39 ≤ a)
    (hv : a * 10 ^ e ≤ v ∧ v < (a + 1) * 10 ^ e) (hw : a * 10 ^ e ≤ w ∧ w < (a + 1) * 10 ^ e) :
    truncate v = truncate w := by
  have ten : (0 : ℚ) < 10 ^ e := by positivity
  have high' : (0 : ℚ) ≤ a := by exact_mod_cast (by norm_num : (0 : ℤ) ≤ 10 ^ 39).trans high
  have low : 0 ≤ (a : ℚ) * 10 ^ e := mul_nonneg high' ten.le
  refine truncate_eq_of_gap (low.trans hv.1) (low.trans hw.1) fun r hr => ⟨fun h => ?_, fun h => ?_⟩
  · exact (hr.le_of_lt_next high (h.trans_lt hv.2)).trans hw.1
  · exact (hr.le_of_lt_next high (h.trans_lt hw.2)).trans hv.1

/-- Of a term below the last place of a large one only the sign matters. -/
theorem truncate_add_congr {x y z : ℚ} {m e : ℤ} (hx : x = m * 10 ^ e) (large : 10 ^ 40 ≤ |m|)
    (hy : |y| < 10 ^ e) (hz : |z| < 10 ^ e) (alike : 0 < y ∧ 0 < z ∨ y < 0 ∧ z < 0) :
    truncate (x + y) = truncate (x + z) := by
  have above {n : ℤ} {u v : ℚ} (big : 10 ^ 40 ≤ n) (hu : |u| < 10 ^ e) (hv : |v| < 10 ^ e)
      (alike : 0 < u ∧ 0 < v ∨ u < 0 ∧ v < 0) :
      truncate (n * 10 ^ e + u) = truncate (n * 10 ^ e + v) := by
    rw [abs_lt] at hu hv
    rcases alike with ⟨pu, pv⟩ | ⟨nu, nv⟩
    · refine truncate_eq_of_cell (a := n) (e := e) (by omega) ⟨?_, ?_⟩ ⟨?_, ?_⟩ <;> linarith
    · refine truncate_eq_of_cell (a := n - 1) (e := e) (by omega) ⟨?_, ?_⟩ ⟨?_, ?_⟩ <;>
        push_cast <;> linarith
  rcases le_total 0 m with h | h
  · rw [abs_of_nonneg h] at large
    rw [hx]
    exact above large hy hz alike
  · rw [abs_of_nonpos h] at large
    have flipped := above (u := -y) (v := -z) large (by rwa [abs_neg]) (by rwa [abs_neg])
      (by rcases alike with ⟨py, pz⟩ | ⟨ny, nz⟩ <;> [right; left] <;> constructor <;> linarith)
    have back (t : ℚ) : ((-m : ℤ) : ℚ) * 10 ^ e + -t = -(x + t) := by
      rw [hx]
      push_cast
      ring
    rw [back, back, truncate_neg, truncate_neg] at flipped
    exact neg_injective flipped

theorem addTrace_value {x y z : Decimal} (hx : x.coeff ≠ 0) (hy : y.coeff ≠ 0)
    (tiny : money.negligible x y) (h : money.addDigits x (money.trace x y) = .ok z) :
    z.toRat = truncate (x.toRat + y.toRat) := by
  have small : y.adjusted < money.lastPlace x - 1 := by
    simpa [Context.negligible] using tiny
  have place : money.lastPlace x ≤ x.exp := min_le_left _ _
  have digits : money.lastPlace x ≤ x.adjusted - 40 := min_le_right _ _
  generalize hl : money.lastPlace x = l at small place digits
  have ten : (0 : ℚ) < 10 ^ l := by positivity
  have units := Decimal.toRat_inUnits x place
  have large : 10 ^ 40 ≤ |x.inUnits l| := by
    have size := Decimal.adjusted_le hx
    rw [units, abs_mul, abs_of_pos ten] at size
    have : (10 : ℚ) ^ (40 : ℤ) * 10 ^ l ≤ |(x.inUnits l : ℚ)| * 10 ^ l := by
      rw [← zpow_add₀ (by norm_num)]
      exact (zpow_le_zpow_right₀ (by norm_num) (by omega)).trans size
    exact_mod_cast le_of_mul_le_mul_right this ten
  have bound : |y.toRat| < 10 ^ l :=
    (Decimal.lt_adjusted y).trans_le (zpow_le_zpow_right₀ (by norm_num) (by omega))
  have trace : (money.trace x y).toRat = Decimal.unit y.neg * 10 ^ (l - 2) := by
    rw [Context.trace, Decimal.toRat_eq, hl]
    simp
  have traceBound : |(money.trace x y).toRat| < 10 ^ l := by
    rw [trace, abs_mul, Decimal.abs_unit, one_mul, abs_of_pos (by positivity)]
    exact zpow_lt_zpow_right₀ (by norm_num) (by omega)
  rw [addDigits_value h]
  refine truncate_add_congr units large traceBound bound ?_
  have size : (0 : ℚ) < y.coeff * 10 ^ y.exp := by positivity
  rw [trace, Decimal.toRat_eq y]
  cases y.neg
  · left
    constructor <;> simp only [Decimal.unit_false] <;> [positivity; linarith]
  · right
    constructor <;> simp only [Decimal.unit_true]
    · linarith [show (0 : ℚ) < 10 ^ (l - 2) by positivity]
    · linarith

theorem add_value {x y z : Decimal} (h : (x + y : Outcome Decimal) = .ok z) :
    z.toRat = truncate (x.toRat + y.toRat) := by
  change money.add x y = .ok z at h
  unfold Context.add at h
  split at h
  · rename_i zero
    simp only [Bool.and_eq_true, Decimal.isZero_iff] at zero
    cases h
    rw [Decimal.toRat_of_isZero, zero.1, zero.2]
    simp
  split at h
  · rename_i zero
    rw [Decimal.isZero_iff] at zero
    rw [roundDecimal_value h, zero, zero_add]
  split at h
  · rename_i zero
    rw [Decimal.isZero_iff] at zero
    rw [roundDecimal_value h, zero, add_zero]
  rename_i hx hy
  rw [Decimal.isZero_iff, Decimal.toRat_eq_zero_iff] at hx hy
  split at h
  · exact addTrace_value hx hy ‹_› h
  split at h
  · have swapped : money.addDigits y (money.trace y x) = .ok z := by
      rw [← h]
      simp only [Context.addDigits, add_comm, min_comm]
    rw [add_comm]
    exact addTrace_value hy hx ‹_› swapped
  · exact addDigits_value h

theorem sub_value {x y z : Decimal} (h : (x - y : Outcome Decimal) = .ok z) :
    z.toRat = truncate (x.toRat - y.toRat) := by
  have := add_value (y := y.flip) h
  rwa [Decimal.toRat_flip, ← sub_eq_add_neg] at this

theorem negated_value {x z : Decimal} (h : x.negated = .ok z) : z.toRat = -truncate x.toRat := by
  have := sub_value (x := 0) h
  rwa [Decimal.toRat_zero, zero_sub, truncate_neg] at this

/-! ## Products and quotients -/

theorem mul_value {x y z : Decimal} (h : (x * y : Outcome Decimal) = .ok z) :
    z.toRat = truncate (x.toRat * y.toRat) := by
  rw [round_value one_ne_zero h, Decimal.unit_xor, Decimal.toRat_eq x, Decimal.toRat_eq y]
  congr 1
  rw [zpow_add₀ (by norm_num)]
  push_cast
  ring

theorem div_value {x y z : Decimal} (h : (x / y : Outcome Decimal) = .ok z) :
    y.toRat ≠ 0 ∧ z.toRat = truncate (x.toRat / y.toRat) := by
  change money.div x y = .ok z at h
  unfold Context.div at h
  split at h
  · split at h <;> cases h
  rename_i nonzero
  rw [Decimal.isZero_iff] at nonzero
  have coeff : y.coeff ≠ 0 := mt (Decimal.toRat_eq_zero_iff y).mpr nonzero
  refine ⟨nonzero, ?_⟩
  have unit_inv : (Decimal.unit y.neg)⁻¹ = Decimal.unit y.neg := by cases y.neg <;> norm_num
  rw [round_value coeff h, Decimal.unit_xor, Decimal.toRat_eq x, Decimal.toRat_eq y]
  congr 1
  rw [zpow_sub₀ (by norm_num), div_eq_mul_inv (_ * _ * _), mul_inv, mul_inv, unit_inv]
  ring

end Lending
