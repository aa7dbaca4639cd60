/-
  Lending.Proofs.Interest.Expansion — growth between the cubic expansion and the full power.

  `expansion` is `(1 + b) ^ n` up to its cubic term, uncut. Since every cut is downward, the
  growth never exceeds the power (`growthPerSlot_le_pow`). It falls short of the expansion by
  seven units, and by what is lost where the square or the cube of the rate leaves the finest
  grid, times the third power of the slots (`cubic_shortBy`). Up to `fewSlots`, or where
  neither leaves the grid, this is no more than three units more (`expansion_le_growthPerSlot`).
  Beyond, a cube that is cut to nothing can take its whole term away
  (`growthFactor_below_expansion`).
-/
import Lending.Proofs.Decimal.Normal
import Lending.Proofs.Interest.Growth

namespace Lending.Interest

open Outcome Truncation

/-! ## The expansion -/

def expansion (b : ℚ) (n : ℤ) : ℚ :=
  1 + n * b + n * (n - 1) / 2 * b ^ 2 + n * (n - 1) * (n - 2) / 6 * b ^ 3

theorem expansion_eq (b : ℚ) (n : ℤ) : expansion b n =
    1 + b * n + b * b * n * (n - 1 : ℤ) / 2 + b * b * b * n * (n - 1 : ℤ) * (n - 2 : ℤ) / 6 := by
  unfold expansion
  push_cast
  ring

theorem one_le_expansion {b : ℚ} {n : ℤ} (hb : 0 ≤ b) (hn : 2 ≤ n) : 1 ≤ expansion b n := by
  obtain ⟨n0, n1, n2⟩ := counts_nonneg hn
  have first : 0 ≤ b * n := by positivity
  have second : 0 ≤ b * b * n * (n - 1 : ℤ) / 2 := by positivity
  have third : 0 ≤ b * b * b * n * (n - 1 : ℤ) * (n - 2 : ℤ) / 6 := by positivity
  rw [expansion_eq]
  linarith

/-- With one more factor, the expansion has a fourth term that is left out. -/
theorem expansion_le_pow {b : ℚ} (hb : 0 ≤ b) (n : ℕ) : expansion b n ≤ (1 + b) ^ n := by
  induction n with
  | zero => simp [expansion]
  | succ n ih =>
    have left_out : 0 ≤ (n : ℚ) * (n - 1) * (n - 2) / 6 * b ^ 4 := by
      rcases lt_or_ge n 2 with small | large
      · interval_cases n <;> norm_num
      · obtain ⟨n0, n1, n2⟩ := counts_nonneg (n := n) (by exact_mod_cast large)
        push_cast at n0 n1 n2
        positivity
    calc expansion b (n + 1 : ℕ)
        ≤ expansion b (n + 1 : ℕ) + (n : ℚ) * (n - 1) * (n - 2) / 6 * b ^ 4 :=
          le_add_of_nonneg_right left_out
      _ = expansion b n * (1 + b) := by
        unfold expansion
        push_cast
        ring
      _ ≤ (1 + b) ^ n * (1 + b) := mul_le_mul_of_nonneg_right ih (by linarith)
      _ = (1 + b) ^ (n + 1) := (pow_succ _ _).symm

/-! ## The power as an upper bound -/

theorem growthPerSlot_le_pow {b : ℚ} {n : ℤ} (hb : 0 ≤ b) (hn : 0 ≤ n) :
    growthPerSlot b n ≤ (1 + b) ^ n.toNat := by
  rcases le_or_gt n 4 with few | many
  · exact (growthPerSlot_within_of_few hb hn few).le (by positivity)
  · have cut := cubic_le hb many
    rw [exactGrowth, if_neg (by omega), ← expansion_eq] at cut
    have below := expansion_le_pow hb n.toNat
    rw [Int.toNat_of_nonneg hn] at below
    rw [growthPerSlot_of_many many]
    exact cut.trans below

/-! ## The expansion as a lower bound -/

def lostOnGrid (b : ℚ) (n : ℤ) : ℚ :=
  allowance (b * b) * n * (n - 1 : ℤ) / 2 +
    (allowance (b * b) * b + allowance (truncate (b * b) * b)) * n * (n - 1 : ℤ) * (n - 2 : ℤ) / 6 +
    2 * 10 ^ money.leastExponent

/-- Only squaring, cubing and the two divisions can leave the grid; counts of slots are whole. -/
theorem cubic_shortBy {b : ℚ} {n : ℤ} (figure : OnGrid b) (hb : 0 ≤ b) (hn : 2 ≤ n) :
    ShortBy 7 (lostOnGrid b n) (cubic b n) (expansion b n) := by
  obtain ⟨n0, n1, n2⟩ := counts_nonneg hn
  have counted {k : ℕ} {a v w : ℚ} (h : ShortBy k a (truncate w) v) (m : ℤ) (hm : (0 : ℚ) ≤ m) :
      ShortBy (k + 1) (a * m) (truncate (truncate w * m)) (v * m) :=
    (h.mul_right hm).truncate_onGrid ((onGrid_truncate w).mul_intCast m)
  have square := (ShortBy.refl (mul_nonneg hb hb)).truncate
  have cube := (square.mul_right hb).truncate
  have first := ((ShortBy.refl hb).mul_right n0).truncate_onGrid (figure.mul_intCast n)
  have second := ((counted (counted square n n0) (n - 1) n1).div_right zero_le_two).truncate
  have third := ((counted (counted (counted cube n n0) (n - 1) n1) (n - 2) n2).div_right
    (by norm_num : (0 : ℚ) ≤ 6)).truncate
  have sums {x y : ℚ} : OnGrid (truncate x + truncate y) :=
    (onGrid_truncate x).add (onGrid_truncate y)
  have one : ShortBy 1 0 1 1 := (ShortBy.refl zero_le_one).mono (by norm_num) le_rfl
  have sum₁ := (one.add first).truncate_onGrid
    (representable_one.onGrid.add (onGrid_truncate _))
  have sum₂ := ((sum₁.mono (by norm_num : 2 ≤ 4) le_rfl).add second).truncate_onGrid sums
  have sum₃ := ((sum₂.mono (by norm_num : 5 ≤ 6) le_rfl).add third).truncate_onGrid sums
  rw [expansion_eq]
  refine sum₃.mono le_rfl ?_
  unfold lostOnGrid
  have last₁ := allowance_le (truncate (truncate (truncate (b * b) * n) * (n - 1 : ℤ)) / 2)
  have last₂ := allowance_le (truncate (truncate (truncate (truncate (truncate (b * b) * b) * n) *
    (n - 1 : ℤ)) * (n - 2 : ℤ)) / 6)
  simp only [zero_mul, zero_add]
  linarith

/-- So few slots that the steps of the finest grid do not add up to a unit. -/
@[irreducible] def fewSlots : ℤ := 10 ^ 333332

def PowersKept (b : ℚ) : Prop := ¬ Underflows (b * b) ∧ ¬ Underflows (truncate (b * b) * b)

theorem step_mul_slots_le {n : ℤ} (hn : 0 ≤ n) (few : n ≤ fewSlots) :
    10 ^ money.leastExponent * (n : ℚ) ^ 3 ≤ ulp / 1000 := by
  have nonneg : (0 : ℚ) ≤ n := by exact_mod_cast hn
  have few' : (n : ℚ) ≤ 10 ^ (333332 : ℤ) := by
    have cast : ((fewSlots : ℤ) : ℚ) = 10 ^ (333332 : ℤ) := by
      unfold fewSlots
      rw [Int.cast_pow, Int.cast_ofNat]
      exact (zpow_natCast _ _).symm
    exact cast ▸ (by exact_mod_cast few)
  calc (10 : ℚ) ^ money.leastExponent * (n : ℚ) ^ 3
      ≤ 10 ^ money.leastExponent * (10 ^ (333332 : ℤ)) ^ 3 :=
        mul_le_mul_of_nonneg_left (pow_le_pow_left₀ nonneg few' 3) (by positivity)
    _ = 10 ^ (-42 : ℤ) := by
      rw [← zpow_natCast, ← zpow_mul, ← zpow_add₀ (by norm_num)]
      rfl
    _ = ulp / 1000 := by norm_num [ulp]

/-- If the square leaves the grid the rate is below 1, so that the cube loses no more by it. -/
theorem allowance_mul_le {b : ℚ} (hb : 0 ≤ b) :
    allowance (b * b) * b ≤ 10 ^ money.leastExponent := by
  by_cases lost : Underflows (b * b)
  · have small : b ≤ 1 := by
      by_contra large
      have large := (not_le.mp large).le
      have below := lost.1
      rw [abs_of_nonneg (mul_nonneg hb hb)] at below
      have normal : (10 : ℚ) ^ (-money.maxExponent : ℤ) ≤ 1 :=
        zpow_le_one_of_nonpos₀ (by norm_num) (by decide)
      linarith [one_le_mul_of_one_le_of_one_le large large]
    exact (mul_le_of_le_one_right (allowance_nonneg _) small).trans (allowance_le _)
  · rw [allowance_of_not_underflows lost, zero_mul]
    positivity

theorem lostOnGrid_le {b : ℚ} {n : ℤ} (hb : 0 ≤ b) (hn : 2 ≤ n)
    (kept : n ≤ fewSlots ∨ PowersKept b) : lostOnGrid b n ≤ 3 * ulp := by
  obtain ⟨n0, n1, n2⟩ := counts_nonneg hn
  have step : (10 : ℚ) ^ money.leastExponent ≤ ulp :=
    zpow_le_zpow_right₀ (by norm_num) (by decide)
  unfold lostOnGrid
  rcases kept with few | ⟨square, cube⟩
  · have whole := step_mul_slots_le (by omega) few
    have one_le : (1 : ℚ) ≤ n := by exact_mod_cast (by omega : 1 ≤ n)
    have n1_le : ((n - 1 : ℤ) : ℚ) ≤ n := by exact_mod_cast (by omega : n - 1 ≤ n)
    have n2_le : ((n - 2 : ℤ) : ℚ) ≤ n := by exact_mod_cast (by omega : n - 2 ≤ n)
    have pairs : (n : ℚ) * (n - 1 : ℤ) ≤ n ^ 3 := by
      calc (n : ℚ) * (n - 1 : ℤ) ≤ n * n := mul_le_mul_of_nonneg_left n1_le n0
        _ = n ^ 2 := (pow_two _).symm
        _ ≤ n ^ 3 := pow_le_pow_right₀ one_le (by norm_num)
    have triples : (n : ℚ) * (n - 1 : ℤ) * (n - 2 : ℤ) ≤ n ^ 3 := by
      calc (n : ℚ) * (n - 1 : ℤ) * (n - 2 : ℤ) ≤ n * n * n :=
            mul_le_mul (mul_le_mul_of_nonneg_left n1_le n0) n2_le n2 (mul_nonneg n0 n0)
        _ = n ^ 3 := by ring
    have second : allowance (b * b) * (n * (n - 1 : ℤ)) ≤ 10 ^ money.leastExponent * n ^ 3 :=
      mul_le_mul (allowance_le _) pairs (mul_nonneg n0 n1) (by positivity)
    have third : (allowance (b * b) * b + allowance (truncate (b * b) * b)) *
        (n * (n - 1 : ℤ) * (n - 2 : ℤ)) ≤ 2 * 10 ^ money.leastExponent * n ^ 3 := by
      refine mul_le_mul ?_ triples (mul_nonneg (mul_nonneg n0 n1) n2) (by positivity)
      linarith [allowance_mul_le hb, allowance_le (truncate (b * b) * b)]
    linarith [ulp_pos]
  · rw [allowance_of_not_underflows square, allowance_of_not_underflows cube]
    simp only [zero_mul, zero_add, zero_div]
    linarith [ulp_pos]

theorem expansion_le_growthPerSlot {b : ℚ} {n : ℤ} (figure : OnGrid b) (hb : 0 ≤ b) (hn : 0 ≤ n)
    (kept : n ≤ fewSlots ∨ PowersKept b) :
    expansion b n * (1 - 1 / 10 ^ 38) ≤ growthPerSlot b n := by
  rcases le_or_gt n 4 with few | many
  · have below := expansion_le_pow hb n.toNat
    rw [Int.toNat_of_nonneg hn] at below
    have near := (growthPerSlot_within_of_few hb hn few).ge (by positivity)
    rw [ulp_eq] at near
    push_cast at near
    have power : (0 : ℚ) ≤ (1 + b) ^ n.toNat := by positivity
    linarith
  · have short := (cubic_shortBy figure hb (by omega : 2 ≤ n)).lost
    have lost := lostOnGrid_le hb (by omega : 2 ≤ n) kept
    have one_le := one_le_expansion hb (by omega : 2 ≤ n)
    rw [ulp_eq] at short lost
    push_cast at short
    rw [growthPerSlot_of_many many]
    linarith

/-! ## Growth that is given -/

def UpTo (x : Decimal) (v : ℚ) : Prop := 0 ≤ x.toRat ∧ x.toRat ≤ v

section
variable {x y : Decimal} {v w : ℚ} (hx : UpTo x v)
include hx

theorem exists_mul_upTo (hy : UpTo y w) (small : v * w < Decimal.limit) :
    ∃ z, (x * y : Outcome Decimal) = .ok z ∧ UpTo z (v * w) := by
  have nonneg := mul_nonneg hx.1 hy.1
  have le := mul_le_mul hx.2 hy.2 hy.1 (hx.1.trans hx.2)
  obtain ⟨z, hz⟩ := exists_mul (by rw [abs_of_nonneg nonneg]; exact le.trans_lt small)
  refine ⟨z, hz, ?_⟩
  unfold UpTo
  rw [mul_value hz]
  exact ⟨truncate_nonneg nonneg, (truncate_le nonneg).trans le⟩

theorem exists_add_upTo (hy : UpTo y w) (small : v + w < Decimal.limit) :
    ∃ z, (x + y : Outcome Decimal) = .ok z ∧ UpTo z (v + w) := by
  have nonneg := add_nonneg hx.1 hy.1
  have le := add_le_add hx.2 hy.2
  have v_nonneg := hx.1.trans hx.2
  have w_nonneg := hy.1.trans hy.2
  obtain ⟨z, hz⟩ := exists_add_of_sum (by rw [abs_of_nonneg hx.1]; linarith [hx.2])
    (by rw [abs_of_nonneg hy.1]; linarith [hy.2])
    (by rw [abs_of_nonneg nonneg]; exact le.trans_lt small)
  refine ⟨z, hz, ?_⟩
  unfold UpTo
  rw [add_value hz]
  exact ⟨truncate_nonneg nonneg, (truncate_le nonneg).trans le⟩

theorem exists_div_upTo (one_le : 1 ≤ y.toRat) (small : v < Decimal.limit) :
    ∃ z, (x / y : Outcome Decimal) = .ok z ∧ UpTo z v := by
  have positive := zero_lt_one.trans_le one_le
  have nonneg := div_nonneg hx.1 positive.le
  have le := (div_le_self hx.1 one_le).trans hx.2
  obtain ⟨z, hz⟩ := exists_div positive.ne' (by rw [abs_of_nonneg nonneg]; exact le.trans_lt small)
  refine ⟨z, hz, ?_⟩
  unfold UpTo
  rw [(div_value hz).2]
  exact ⟨truncate_nonneg nonneg, (truncate_le nonneg).trans le⟩

end

/-- Every figure on the way is at most the third power of what simple interest would give. -/
theorem exists_cubicFactor {base : Decimal} {n : ℤ} (nonneg : 0 ≤ base.toRat) (hn : 2 ≤ n)
    (small : (1 + base.toRat * n) ^ 3 < Decimal.limit) : ∃ g, cubicFactor base n = .ok g := by
  obtain ⟨n0, n1, n2⟩ := counts_nonneg hn
  have one_le : (1 : ℚ) ≤ n := by exact_mod_cast (by omega : 1 ≤ n)
  have n1_le : ((n - 1 : ℤ) : ℚ) ≤ n := by exact_mod_cast (by omega : n - 1 ≤ n)
  have n2_le : ((n - 2 : ℤ) : ℚ) ≤ n := by exact_mod_cast (by omega : n - 2 ≤ n)
  generalize hb : base.toRat = b at nonneg small
  have upTo_b : UpTo base b := ⟨hb ▸ nonneg, hb.le⟩
  have count {m : ℤ} (hm : (0 : ℚ) ≤ m) (le : (m : ℚ) ≤ n) : UpTo (Decimal.ofInt m) n := by
    unfold UpTo
    rw [Decimal.toRat_ofInt]
    exact ⟨hm, le⟩
  -- each count of slots makes a figure larger
  have simple : 0 ≤ b * n := mul_nonneg nonneg n0
  have grows {v : ℚ} (hv : 0 ≤ v) : v ≤ v * n := le_mul_of_one_le_right hv one_le
  have square_nonneg := mul_nonneg nonneg nonneg
  have cube_nonneg := mul_nonneg square_nonneg nonneg
  have s₁_le := grows square_nonneg
  have s₂_le := grows (mul_nonneg square_nonneg n0)
  have t₁_le := grows cube_nonneg
  have t₂_le := grows (mul_nonneg cube_nonneg n0)
  have t₃_le := grows (mul_nonneg (mul_nonneg cube_nonneg n0) n0)
  have sum_lt : 1 + b * n + b * b * n * n + b * b * b * n * n * n < Decimal.limit := by
    refine lt_of_le_of_lt ?_ small
    linarith [mul_nonneg simple simple]
  have s₂_nonneg := (mul_nonneg square_nonneg n0).trans s₂_le
  have t₃_nonneg := (mul_nonneg (mul_nonneg cube_nonneg n0) n0).trans t₃_le
  have one : UpTo 1 1 := by
    unfold UpTo
    rw [Decimal.toRat_one]
    exact ⟨zero_le_one, le_rfl⟩
  obtain ⟨square, hsquare, square_upTo⟩ := exists_mul_upTo upTo_b upTo_b (by linarith)
  obtain ⟨cube, hcube, cube_upTo⟩ := exists_mul_upTo square_upTo upTo_b (by linarith)
  obtain ⟨first, hfirst, first_upTo⟩ := exists_mul_upTo upTo_b (count n0 le_rfl) (by linarith)
  obtain ⟨s₁, hs₁, s₁_upTo⟩ := exists_mul_upTo square_upTo (count n0 le_rfl) (by linarith)
  obtain ⟨s₂, hs₂, s₂_upTo⟩ := exists_mul_upTo s₁_upTo (count n1 n1_le) (by linarith)
  obtain ⟨second, hsecond, second_upTo⟩ := exists_div_upTo (y := 2) s₂_upTo
    (by norm_num) (by linarith)
  obtain ⟨t₁, ht₁, t₁_upTo⟩ := exists_mul_upTo cube_upTo (count n0 le_rfl) (by linarith)
  obtain ⟨t₂, ht₂, t₂_upTo⟩ := exists_mul_upTo t₁_upTo (count n1 n1_le) (by linarith)
  obtain ⟨t₃, ht₃, t₃_upTo⟩ := exists_mul_upTo t₂_upTo (count n2 n2_le) (by linarith)
  obtain ⟨third, hthird, third_upTo⟩ := exists_div_upTo (y := 6) t₃_upTo
    (by norm_num) (by linarith)
  obtain ⟨sum₁, hsum₁, sum₁_upTo⟩ := exists_add_upTo one first_upTo (by linarith)
  obtain ⟨sum₂, hsum₂, sum₂_upTo⟩ := exists_add_upTo sum₁_upTo second_upTo (by linarith)
  obtain ⟨sum₃, hsum₃, -⟩ := exists_add_upTo sum₂_upTo third_upTo sum_lt
  refine ⟨sum₃, ?_⟩
  simp only [cubicFactor, bind_eq_ok_iff]
  exact ⟨square, hsquare, cube, hcube, first, hfirst, s₁, hs₁, s₂, hs₂, second, hsecond, t₁, ht₁,
    t₂, ht₂, t₃, ht₃, third, hthird, sum₁, hsum₁, sum₂, hsum₂, hsum₃⟩

/-! ## The sandwich -/

/-- Growth that is given is at most the power and at least 1, and in the first 38 digits at least
    the expansion, unless there are so many slots that powers of the rate are lost. -/
theorem growthFactor_between {rate : Decimal} {n : ℤ} (nonneg : 0 ≤ rate) (slots : 0 ≤ n)
    (inRange : growthFactor rate n ≠ .error .overflow) :
    ∃ base g, ratePerSlot rate = .ok base ∧ base.toRat = truncate (rate.toRat / 63072000) ∧
      growthFactor rate n = .ok g ∧ 1 ≤ g.toRat ∧ g.toRat ≤ (1 + base.toRat) ^ n.toNat ∧
      (n ≤ fewSlots ∨ PowersKept base.toRat →
        expansion base.toRat n * (1 - 1 / 10 ^ 38) ≤ g.toRat) := by
  rw [Decimal.le_iff, Decimal.toRat_zero] at nonneg
  cases given : growthFactor rate n with
  | error fault =>
    rw [growthFactor_overflowOnly rate n fault given] at given
    exact absurd given inRange
  | ok g =>
    obtain ⟨base, hbase, -⟩ := bind_eq_ok_iff.mp given
    have value := ratePerSlot_value hbase
    have base_nonneg := slotRate_nonneg nonneg
    refine ⟨base, g, hbase, value, rfl, ?_⟩
    rw [growthFactor_value given, value]
    exact ⟨one_le_growth nonneg slots, growthPerSlot_le_pow base_nonneg slots,
      expansion_le_growthPerSlot (onGrid_truncate _) base_nonneg slots⟩

/-- A thousand slots at 10 % a year. -/
theorem growthFactor_between_sample :
    ∃ base g, ratePerSlot ⟨false, 1, -1⟩ = .ok base ∧ growthFactor ⟨false, 1, -1⟩ 1000 = .ok g ∧
      1 ≤ g.toRat ∧ g.toRat ≤ (1 + base.toRat) ^ 1000 ∧
      expansion base.toRat 1000 * (1 - 1 / 10 ^ 38) ≤ g.toRat := by
  have inRange : growthFactor ⟨false, 1, -1⟩ 1000 ≠ .error .overflow := by decide +kernel
  obtain ⟨base, g, hbase, -, hg, low, high, near⟩ :=
    growthFactor_between (by decide) (by decide) inRange
  refine ⟨base, g, hbase, hg, low, high, near (.inl ?_)⟩
  unfold fewSlots
  calc (1000 : ℤ) = 10 ^ 3 := by norm_num
    _ ≤ 10 ^ 333332 := pow_le_pow_right₀ (by norm_num) (by norm_num)

def faintRate : Decimal := ⟨false, 63072, -333347⟩

def faintSlotRate : Decimal := ⟨false, 1, -333350⟩

@[irreducible] def manySlots : ℤ := 10 ^ 333350

theorem ratePerSlot_faintRate : ratePerSlot faintRate = .ok faintSlotRate := by decide +kernel

theorem toRat_faintSlotRate : faintSlotRate.toRat = 10 ^ (-333350 : ℤ) := by
  rw [Decimal.toRat_eq]
  simp only [faintSlotRate, Decimal.unit_false, Nat.cast_one, one_mul]

theorem faintSlotRate_mul_manySlots : faintSlotRate.toRat * manySlots = 1 := by
  have slots : (manySlots : ℚ) = 10 ^ (333350 : ℤ) := by
    unfold manySlots
    rw [Int.cast_pow, Int.cast_ofNat]
    exact (zpow_natCast _ _).symm
  rw [toRat_faintSlotRate, slots, ← zpow_add₀ (by norm_num)]
  rfl

theorem ten_le_manySlots : 10 ≤ manySlots := by
  unfold manySlots
  exact le_self_pow₀ (by norm_num) (by norm_num)

theorem truncate_cube_faintSlotRate :
    truncate (truncate (faintSlotRate.toRat * faintSlotRate.toRat) * faintSlotRate.toRat) = 0 := by
  rw [toRat_faintSlotRate]
  have positive : (0 : ℚ) ≤ 10 ^ (-333350 : ℤ) := by positivity
  have square := mul_nonneg positive positive
  refine truncate_eq_zero (mul_nonneg (truncate_nonneg square) positive) ?_
  calc truncate ((10 : ℚ) ^ (-333350 : ℤ) * 10 ^ (-333350 : ℤ)) * 10 ^ (-333350 : ℤ)
      ≤ 10 ^ (-333350 : ℤ) * 10 ^ (-333350 : ℤ) * 10 ^ (-333350 : ℤ) :=
        mul_le_mul_of_nonneg_right (truncate_le square) positive
    _ = 10 ^ (-1000050 : ℤ) := by
      rw [← zpow_add₀ (by norm_num), ← zpow_add₀ (by norm_num)]
      rfl
    _ < 10 ^ money.leastExponent := zpow_lt_zpow_right₀ (by norm_num) (by decide)

/-- Where simple interest would double a debt, all terms go by the rate alone. -/
theorem expansion_of_doubled {b : ℚ} {n : ℤ} (doubled : b * n = 1) :
    1 + b * n + b * b * n * (n - 1 : ℤ) / 2 = 2 + (1 - b) / 2 ∧
      expansion b n = 2 + (1 - b) / 2 + (1 - b) * (1 - 2 * b) / 6 := by
  have second : b * b * n * (n - 1) = 1 - b := by
    linear_combination (b * n + 1 - b) * doubled
  have third : b * b * b * n * (n - 1) * (n - 2) = (1 - b) * (1 - 2 * b) := by
    linear_combination
      ((b * n) ^ 2 + b * n + 1 - 3 * b * (b * n + 1) + 2 * b ^ 2) * doubled
  rw [expansion_eq]
  push_cast
  rw [doubled, second, third]
  constructor <;> ring

/-- At a rate whose cube is cut to nothing, over so many slots that simple interest alone doubles
    a debt, the growth lacks the cubic term of the expansion, a sixth. -/
theorem growthFactor_below_expansion : ∃ g, 0 ≤ faintRate ∧ 0 ≤ manySlots ∧
    ratePerSlot faintRate = .ok faintSlotRate ∧ growthFactor faintRate manySlots = .ok g ∧
      g.toRat < expansion faintSlotRate.toRat manySlots * (1 - 1 / 10 ^ 38) := by
  have many := ten_le_manySlots
  have doubled := faintSlotRate_mul_manySlots
  have positive : 0 < faintSlotRate.toRat := by
    rw [toRat_faintSlotRate]
    positivity
  have small : faintSlotRate.toRat ≤ 10 ^ (-1 : ℤ) := by
    rw [toRat_faintSlotRate]
    exact zpow_le_zpow_right₀ (by norm_num) (by norm_num)
  have large : (10 : ℚ) ^ (1 : ℤ) ≤ Decimal.limit / 2 := Decimal.zpow_le_half_limit (by decide)
  norm_num at small large
  obtain ⟨g, hcubic⟩ : ∃ g, cubicFactor faintSlotRate manySlots = .ok g := by
    refine exists_cubicFactor positive.le (by omega) ?_
    rw [doubled]
    linarith
  have hg : growthFactor faintRate manySlots = .ok g := by
    rw [growthFactor_of_many (by omega), bind_eq_ok_iff]
    exact ⟨faintSlotRate, ratePerSlot_faintRate, hcubic⟩
  refine ⟨g, by decide, by omega, ratePerSlot_faintRate, hg, ?_⟩
  have cut := cubic_le_of_cube_le (n := manySlots) positive.le (by omega)
    truncate_cube_faintSlotRate.le
  obtain ⟨terms, whole⟩ := expansion_of_doubled doubled
  rw [terms] at cut
  rw [cubicFactor_value hcubic, whole]
  nlinarith

end Lending.Interest
