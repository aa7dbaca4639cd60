/-
  Lending.Proofs.Interest.Slots — more slots never make a debt grow less.

  Within the powers, for up to four slots, and within the expansion, from five slots on, each
  factor is at least the one before (`growthPerSlot_succ_le`). Where the formula changes the
  terms that the expansion drops have to be made up for by the fifth slot
  (`fourth_le_fifth`). That is so for rates per slot up to 6, beyond which `b ^ 4` is too large.
  Below `10 ^ -12` a fifth of `1 + 5 b` is lost by no cut, as the rate that the powers see is a
  whole number of units of `1 + b`; above, what is gained is more than all cuts together take.
-/
import Lending.Proofs.Interest.Growth

namespace Lending.Interest

open Truncation

/-! ## The expansion -/

theorem cubic_slots_mono {b : ℚ} {n n' : ℤ} (hb : 0 ≤ b) (hn : 2 ≤ n) (le : n ≤ n') :
    cubic b n ≤ cubic b n' := by
  obtain ⟨n0, n1, n2⟩ := counts_nonneg hn
  have c0 : (n : ℚ) ≤ n' := by exact_mod_cast le
  have c1 : ((n - 1 : ℤ) : ℚ) ≤ (n' - 1 : ℤ) := by exact_mod_cast (by omega)
  have c2 : ((n - 2 : ℤ) : ℚ) ≤ (n' - 2 : ℤ) := by exact_mod_cast (by omega)
  have square_nonneg := truncate_nonneg (mul_nonneg hb hb)
  have cube_nonneg := truncate_nonneg (mul_nonneg square_nonneg hb)
  have second₁ := truncate_mul_mono le_rfl c0 square_nonneg n0
  have second₁_nonneg := truncate_nonneg (mul_nonneg square_nonneg n0)
  have second₂ := truncate_mul_mono second₁ c1 second₁_nonneg n1
  have third₁ := truncate_mul_mono le_rfl c0 cube_nonneg n0
  have third₁_nonneg := truncate_nonneg (mul_nonneg cube_nonneg n0)
  have third₂ := truncate_mul_mono third₁ c1 third₁_nonneg n1
  have third₂_nonneg := truncate_nonneg (mul_nonneg third₁_nonneg n1)
  have third₃ := truncate_mul_mono third₂ c2 third₂_nonneg n2
  refine truncate_mono (add_le_add (truncate_mono (add_le_add (truncate_mono (add_le_add le_rfl
    (truncate_mul_mono le_rfl c0 hb n0))) (truncate_mono ?_))) (truncate_mono ?_))
  · exact div_le_div_of_nonneg_right second₂ (by norm_num)
  · exact div_le_div_of_nonneg_right third₃ (by norm_num)

/-- The terms of second and third order only add to the first two. -/
theorem linear_le_cubic {b : ℚ} {n : ℤ} (hb : 0 ≤ b) (hn : 2 ≤ n) :
    truncate (1 + truncate (b * n)) ≤ cubic b n := by
  obtain ⟨n0, n1, n2⟩ := counts_nonneg hn
  have square := truncate_nonneg (mul_nonneg hb hb)
  have cube := truncate_nonneg (mul_nonneg square hb)
  have second := truncate_nonneg (mul_nonneg (truncate_nonneg (mul_nonneg square n0)) n1)
  have third := truncate_nonneg (mul_nonneg (truncate_nonneg
    (mul_nonneg (truncate_nonneg (mul_nonneg cube n0)) n1)) n2)
  have two := (representable_truncate (1 + truncate (b * n))).le_truncate
    (le_add_of_nonneg_right (truncate_nonneg (div_nonneg second (by norm_num : (0 : ℚ) ≤ 2))))
  refine (representable_truncate _).le_truncate (two.trans ?_)
  exact le_add_of_nonneg_right (truncate_nonneg (div_nonneg third (by norm_num : (0 : ℚ) ≤ 6)))

/-! ## From four slots to five -/

/-- A figure from 1 to 10 is a whole number of units of the 40th digit. -/
theorem units_of_one_le {v : ℚ} (low : 1 ≤ v) (high : v < 10) :
    ∃ k : ℤ, truncate v = k * 10 ^ (-39 : ℤ) := by
  have place : Int.log 10 v = 0 := by
    refine le_antisymm ?_ ?_
    · have := (Int.lt_zpow_iff_log_lt (b := 10) (by decide) (by linarith : 0 < v) (x := 1)).mp
        (by simpa using high)
      omega
    · exact (Int.zpow_le_iff_le_log (b := 10) (by decide) (by linarith : 0 < v)).mp
        (by simpa using low)
  have grid_eq : grid v = -39 := by
    rw [Truncation.grid_eq, abs_of_pos (by linarith), place]
    rfl
  refine ⟨⌊v / 10 ^ grid v⌋, ?_⟩
  rw [truncate_of_nonneg (by linarith), grid_eq]

theorem fourth_le_fifth_of_small {b : ℚ} (hb : 0 ≤ b) (small : b < 10 ^ (-12 : ℤ)) :
    truncate (truncate (truncate (b + 1) * truncate (b + 1)) *
      truncate (truncate (b + 1) * truncate (b + 1))) ≤ cubic b 5 := by
  refine le_trans ?_ (linear_le_cubic hb (by norm_num))
  have small' : b < 1 / 10 ^ 12 := by
    norm_num at small ⊢
    exact small
  obtain ⟨k, units⟩ := units_of_one_le (by linarith : 1 ≤ b + 1) (by
    norm_num at small'
    linarith)
  have once_low : 1 ≤ truncate (b + 1) := representable_one.le_truncate (by linarith)
  have once_high : truncate (b + 1) ≤ b + 1 := truncate_le (by linarith)
  generalize truncate (b + 1) = once at *
  -- `t` is the rate that the powers see
  obtain ⟨t, rfl⟩ : ∃ t, once = 1 + t := ⟨once - 1, by ring⟩
  have t_nonneg : 0 ≤ t := by linarith
  have t_le : t ≤ b := by linarith
  have five_units : 5 * t = (5 * (k - 10 ^ 39) : ℤ) * 10 ^ (-39 : ℤ) := by
    push_cast
    rw [mul_assoc, sub_mul, ← units]
    norm_num
  have five : Representable (5 * t) := by
    refine ⟨5 * (k - 10 ^ 39), -39, ?_, by decide, five_units⟩
    have size : |5 * t| < 1 := by
      rw [abs_of_nonneg (by linarith)]
      norm_num at small'
      linarith
    rw [five_units, abs_mul, abs_of_pos (by positivity : (0 : ℚ) < 10 ^ (-39 : ℤ))] at size
    have few : |((5 * (k - 10 ^ 39) : ℤ) : ℚ)| < 10 ^ 39 := by
      norm_num at size ⊢
      linarith
    have few' : |5 * (k - 10 ^ 39)| < 10 ^ 39 := by exact_mod_cast few
    omega
  have kept : 5 * t ≤ truncate (b * (5 : ℤ)) := five.le_truncate (by push_cast; linarith)
  have twice : truncate ((1 + t) * (1 + t)) ≤ (1 + t) * (1 + t) := truncate_le (by positivity)
  have twice_nonneg : 0 ≤ truncate ((1 + t) * (1 + t)) := truncate_nonneg (by positivity)
  have fourth := mul_le_mul twice twice twice_nonneg (by positivity)
  -- the higher terms of the power are less than the fifth slot adds
  have higher : (1 + t) * (1 + t) * ((1 + t) * (1 + t)) ≤ 1 + 5 * t := by
    have thin : 6 * t + 4 * t ^ 2 + t ^ 3 ≤ 1 := by
      have below : t ≤ 1 / 10 ^ 12 := by linarith
      have square : t ^ 2 ≤ t := by nlinarith
      have cube : t ^ 3 ≤ t := by nlinarith
      norm_num at below
      linarith
    linarith [mul_le_mul_of_nonneg_left thin t_nonneg]
  exact truncate_mono (fourth.trans (higher.trans (by linarith)))

theorem fourth_le_fifth_of_large {b : ℚ} (large : 10 ^ (-12 : ℤ) ≤ b) (high : b ≤ 6) :
    truncate (truncate (truncate (b + 1) * truncate (b + 1)) *
      truncate (truncate (b + 1) * truncate (b + 1))) ≤ cubic b 5 := by
  have low : 1 / 10 ^ 12 ≤ b := by
    norm_num at large ⊢
    exact large
  have hb : 0 ≤ b := le_trans (by positivity) low
  have fourth : truncate (truncate (truncate (b + 1) * truncate (b + 1)) *
      truncate (truncate (b + 1) * truncate (b + 1))) ≤ (1 + b) ^ 4 := by
    have := growthPerSlot_le hb (by norm_num : (1 : ℤ) ≤ 4)
    simpa [growthPerSlot, exactGrowth] using this
  have fifth := (cubic_within large (le_refl 5)).ge (by
    norm_num [exactGrowth]
    positivity)
  norm_num [exactGrowth, ulp] at fifth
  refine fourth.trans (le_trans ?_ fifth)
  have square : b ^ 2 ≤ 6 * b := by nlinarith
  have cube : b ^ 3 ≤ 6 * b ^ 2 := by nlinarith [sq_nonneg b]
  have quartic : b ^ 4 ≤ 6 * b ^ 3 := by nlinarith [pow_nonneg hb 3]
  nlinarith [sq_nonneg b, pow_nonneg hb 3]

/-! ## Any number of slots -/

theorem growthPerSlot_succ_le {b : ℚ} {n : ℤ} (hb : 0 ≤ b) (high : b ≤ 6) (hn : 0 ≤ n) :
    growthPerSlot b n ≤ growthPerSlot b (n + 1) := by
  have once : 1 ≤ truncate (b + 1) := representable_one.le_truncate (by linarith)
  have once_nonneg : 0 ≤ truncate (b + 1) := zero_le_one.trans once
  have twice : truncate (b + 1) ≤ truncate (truncate (b + 1) * truncate (b + 1)) :=
    (representable_truncate _).le_truncate (le_mul_of_one_le_right once_nonneg once)
  have twice_nonneg := once_nonneg.trans twice
  have cases : n = 0 ∨ n = 1 ∨ n = 2 ∨ n = 3 ∨ n = 4 ∨ 5 ≤ n := by omega
  rcases cases with rfl | rfl | rfl | rfl | rfl | many
  · exact once
  · exact twice
  · exact (representable_truncate _).le_truncate (le_mul_of_one_le_right twice_nonneg once)
  · exact truncate_mul_mono le_rfl twice twice_nonneg once_nonneg
  · rcases lt_or_ge b (10 ^ (-12 : ℤ)) with small | large
    · exact fourth_le_fifth_of_small hb small
    · exact fourth_le_fifth_of_large large high
  · have expanded {k : ℤ} (hk : 5 ≤ k) : growthPerSlot b k = cubic b k := by
      unfold growthPerSlot
      rw [if_neg (by omega), if_neg (by omega), if_neg (by omega), if_neg (by omega),
        if_neg (by omega)]
    rw [expanded many, expanded (by omega)]
    exact cubic_slots_mono hb (by omega) (by omega)

theorem cast_slotsPerYear : (slotsPerYear : ℚ) = 63072000 := by
  exact_mod_cast (by decide : slotsPerYear = 63072000)

/-- At a rate of up to six times the number of slots in a year, a debt only grows as slots
    pass. -/
theorem growth_slots_mono {rate : ℚ} {n n' : ℤ} (h : 0 ≤ rate) (high : rate ≤ 6 * slotsPerYear)
    (hn : 0 ≤ n) (le : n ≤ n') : growth rate n ≤ growth rate n' := by
  have six : Representable 6 := ⟨6, 0, by norm_num, by decide, by norm_num⟩
  have slot_high : slotRate rate ≤ 6 := by
    refine six.truncate_le ?_
    rw [div_le_iff₀ (by norm_num)]
    rwa [cast_slotsPerYear] at high
  obtain ⟨k, rfl⟩ : ∃ k : ℕ, n' = n + k := ⟨(n' - n).toNat, by omega⟩
  clear le
  induction k with
  | zero => simp
  | succ k ih =>
    refine ih.trans ?_
    push_cast
    rw [← add_assoc]
    exact growthPerSlot_succ_le (slotRate_nonneg h) slot_high (by omega)

end Lending.Interest
