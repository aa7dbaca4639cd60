/-
  Lending.Proofs.Interest.Growth — what the growth factor is worth, and what keeps its order.

  `growth` is the value of `growthFactor`, step by step cut (`growthFactor_value`). For rates
  that are not negative it never shrinks a debt (`one_le_growth`) and never falls when the
  rate rises (`growth_mono`), exactly, since no cut reverses an order. It stays within 7 units
  of the 40th digit of `exactGrowth`, the power for up to four slots and the cubic expansion
  beyond (`growthPerSlot_within`). So a rate that is higher by a basis point or more can be
  told from the growth (`growth_gap`).
-/
import Lending.Interest
import Lending.Proofs.Decimal.Error
import Lending.Proofs.Decimal.Overflow

namespace Lending.Interest

open Truncation

/-! ## The value -/

def slotRate (rate : ℚ) : ℚ := truncate (rate / 63072000)

def cubic (b : ℚ) (n : ℤ) : ℚ :=
  let square := truncate (b * b)
  let cube := truncate (square * b)
  let first := truncate (b * n)
  let second := truncate (truncate (truncate (square * n) * (n - 1 : ℤ)) / 2)
  let third :=
    truncate (truncate (truncate (truncate (cube * n) * (n - 1 : ℤ)) * (n - 2 : ℤ)) / 6)
  truncate (truncate (truncate (1 + first) + second) + third)

def growthPerSlot (b : ℚ) (n : ℤ) : ℚ :=
  let once := truncate (b + 1)
  if n = 0 then 1
  else if n = 1 then once
  else if n = 2 then truncate (once * once)
  else if n = 3 then truncate (truncate (once * once) * once)
  else if n = 4 then truncate (truncate (once * once) * truncate (once * once))
  else cubic b n

def growth (rate : ℚ) (n : ℤ) : ℚ := growthPerSlot (slotRate rate) n

theorem ratePerSlot_value {rate base : Decimal} (h : ratePerSlot rate = .ok base) :
    base.toRat = slotRate rate.toRat := by
  obtain ⟨-, value⟩ := div_value h
  rw [value, Decimal.toRat_ofInt]
  rfl

theorem cubicFactor_value {base g : Decimal} {n : ℤ} (h : cubicFactor base n = .ok g) :
    g.toRat = cubic base.toRat n := by
  simp only [cubicFactor, Outcome.bind_eq_ok_iff] at h
  obtain ⟨square, hsquare, cube, hcube, first, hfirst, s₁, hs₁, s₂, hs₂, second, hsecond, t₁, ht₁,
    t₂, ht₂, t₃, ht₃, third, hthird, sum₁, hsum₁, sum₂, hsum₂, hsum₃⟩ := h
  rw [add_value hsum₃, add_value hsum₂, add_value hsum₁, (div_value hthird).2, mul_value ht₃,
    mul_value ht₂, mul_value ht₁, (div_value hsecond).2, mul_value hs₂, mul_value hs₁,
    mul_value hfirst, mul_value hcube, mul_value hsquare]
  simp only [Decimal.toRat_ofInt, Decimal.toRat_one, Decimal.toRat_ofNat]
  rfl

theorem growthFactor_value {rate g : Decimal} {n : ℤ} (h : growthFactor rate n = .ok g) :
    g.toRat = growth rate.toRat n := by
  unfold growthFactor at h
  obtain ⟨base, hbase, h⟩ := Outcome.bind_eq_ok_iff.mp h
  unfold growth growthPerSlot
  rw [← ratePerSlot_value hbase]
  split at h
  · rename_i now
    cases h
    simp [now]
  rename_i n0
  split at h
  · rename_i one
    rw [add_value h]
    simp [one]
  rename_i n1
  split at h
  · rename_i two
    obtain ⟨once, honce, h⟩ := Outcome.bind_eq_ok_iff.mp h
    rw [mul_value h, add_value honce]
    simp [two]
  rename_i n2
  split at h
  · rename_i three
    simp only [Outcome.bind_eq_ok_iff] at h
    obtain ⟨once, honce, twice, htwice, h⟩ := h
    rw [mul_value h, mul_value htwice, add_value honce]
    simp [three]
  rename_i n3
  split at h
  · rename_i four
    simp only [Outcome.bind_eq_ok_iff] at h
    obtain ⟨once, honce, twice, htwice, h⟩ := h
    rw [mul_value h, mul_value htwice, add_value honce]
    simp [four]
  · rename_i n4
    rw [cubicFactor_value h]
    simp [n0, n1, n2, n3, n4]

open Outcome in
theorem growthFactor_overflowOnly (rate : Decimal) (n : ℤ) :
    (growthFactor rate n).OverflowOnly := by
  have two : (2 : Decimal).toRat ≠ 0 := by simp
  have six : (6 : Decimal).toRat ≠ 0 := by simp
  have year : (Decimal.ofInt slotsPerYear).toRat ≠ 0 := by
    rw [Decimal.toRat_ofInt]
    exact_mod_cast (by decide : slotsPerYear ≠ 0)
  unfold growthFactor
  refine (div_overflowOnly _ year).bind fun base _ => ?_
  repeat' split
  · exact .pure _
  · exact add_overflowOnly _ _
  · exact (add_overflowOnly _ _).bind fun _ _ => mul_overflowOnly _ _
  · exact (add_overflowOnly _ _).bind fun _ _ =>
      (mul_overflowOnly _ _).bind fun _ _ => mul_overflowOnly _ _
  · exact (add_overflowOnly _ _).bind fun _ _ =>
      (mul_overflowOnly _ _).bind fun _ _ => mul_overflowOnly _ _
  · unfold cubicFactor
    refine (mul_overflowOnly _ _).bind fun _ _ => (mul_overflowOnly _ _).bind fun _ _ =>
      (mul_overflowOnly _ _).bind fun _ _ => (mul_overflowOnly _ _).bind fun _ _ =>
      (mul_overflowOnly _ _).bind fun _ _ => (div_overflowOnly _ two).bind fun _ _ =>
      (mul_overflowOnly _ _).bind fun _ _ => (mul_overflowOnly _ _).bind fun _ _ =>
      (mul_overflowOnly _ _).bind fun _ _ => (div_overflowOnly _ six).bind fun _ _ =>
      (add_overflowOnly _ _).bind fun _ _ => (add_overflowOnly _ _).bind fun _ _ =>
      add_overflowOnly _ _

theorem growthFactor_of_many {rate : Decimal} {n : ℤ} (many : 5 ≤ n) :
    growthFactor rate n = ratePerSlot rate >>= fun base => cubicFactor base n := by
  unfold growthFactor
  refine bind_congr fun base => ?_
  rw [if_neg (by omega), if_neg (by omega), if_neg (by omega), if_neg (by omega),
    if_neg (by omega)]

/-! ## Order -/

theorem slotRate_mono {rate rate' : ℚ} (le : rate ≤ rate') : slotRate rate ≤ slotRate rate' :=
  truncate_mono (div_le_div_of_nonneg_right le (by norm_num))

theorem slotRate_nonneg {rate : ℚ} (h : 0 ≤ rate) : 0 ≤ slotRate rate :=
  truncate_nonneg (div_nonneg h (by norm_num))

theorem one_le_truncate_add {x y : ℚ} (hx : 1 ≤ x) (hy : 0 ≤ y) : 1 ≤ truncate (x + y) :=
  representable_one.le_truncate (by linarith)

theorem one_le_truncate_mul {x y : ℚ} (hx : 1 ≤ x) (hy : 1 ≤ y) : 1 ≤ truncate (x * y) :=
  representable_one.le_truncate (one_le_mul_of_one_le_of_one_le hx hy)

theorem truncate_mul_mono {x x' y y' : ℚ} (hx : x ≤ x') (hy : y ≤ y') (x_nonneg : 0 ≤ x)
    (y_nonneg : 0 ≤ y) : truncate (x * y) ≤ truncate (x' * y') :=
  truncate_mono (mul_le_mul hx hy y_nonneg (x_nonneg.trans hx))

theorem counts_nonneg {n : ℤ} (hn : 2 ≤ n) :
    (0 : ℚ) ≤ n ∧ (0 : ℚ) ≤ (n - 1 : ℤ) ∧ (0 : ℚ) ≤ (n - 2 : ℤ) := by
  refine ⟨?_, ?_, ?_⟩ <;> exact_mod_cast (by omega)

theorem cubic_mono {b b' : ℚ} {n : ℤ} (hb : 0 ≤ b) (le : b ≤ b') (hn : 2 ≤ n) :
    cubic b n ≤ cubic b' n := by
  obtain ⟨n0, n1, n2⟩ := counts_nonneg hn
  have square := truncate_mul_mono le le hb hb
  have square_nonneg := truncate_nonneg (mul_nonneg hb hb)
  have cube := truncate_mul_mono square le square_nonneg hb
  have cube_nonneg := truncate_nonneg (mul_nonneg square_nonneg hb)
  have second₁ := truncate_mul_mono square le_rfl square_nonneg n0
  have second₁_nonneg := truncate_nonneg (mul_nonneg square_nonneg n0)
  have second₂ := truncate_mul_mono second₁ le_rfl second₁_nonneg n1
  have third₁ := truncate_mul_mono cube le_rfl cube_nonneg n0
  have third₁_nonneg := truncate_nonneg (mul_nonneg cube_nonneg n0)
  have third₂ := truncate_mul_mono third₁ le_rfl third₁_nonneg n1
  have third₂_nonneg := truncate_nonneg (mul_nonneg third₁_nonneg n1)
  have third₃ := truncate_mul_mono third₂ le_rfl third₂_nonneg n2
  refine truncate_mono (add_le_add (truncate_mono (add_le_add (truncate_mono (add_le_add le_rfl
    (truncate_mul_mono le le_rfl hb n0))) (truncate_mono ?_))) (truncate_mono ?_))
  · exact div_le_div_of_nonneg_right second₂ (by norm_num)
  · exact div_le_div_of_nonneg_right third₃ (by norm_num)

theorem one_le_cubic {b : ℚ} {n : ℤ} (hb : 0 ≤ b) (hn : 2 ≤ n) : 1 ≤ cubic b n := by
  obtain ⟨n0, n1, n2⟩ := counts_nonneg hn
  have square := truncate_nonneg (mul_nonneg hb hb)
  have cube := truncate_nonneg (mul_nonneg square hb)
  have second := truncate_nonneg (mul_nonneg (truncate_nonneg (mul_nonneg square n0)) n1)
  have third := truncate_nonneg (mul_nonneg (truncate_nonneg
    (mul_nonneg (truncate_nonneg (mul_nonneg cube n0)) n1)) n2)
  refine one_le_truncate_add (one_le_truncate_add (one_le_truncate_add le_rfl ?_) ?_) ?_
  · exact truncate_nonneg (mul_nonneg hb n0)
  · exact truncate_nonneg (div_nonneg second (by norm_num))
  · exact truncate_nonneg (div_nonneg third (by norm_num))

theorem one_le_growthPerSlot {b : ℚ} {n : ℤ} (hb : 0 ≤ b) (hn : 0 ≤ n) : 1 ≤ growthPerSlot b n := by
  have once : 1 ≤ truncate (b + 1) := by
    rw [add_comm]
    exact one_le_truncate_add le_rfl hb
  have twice := one_le_truncate_mul once once
  unfold growthPerSlot
  repeat' split
  · exact le_rfl
  · exact once
  · exact twice
  · exact one_le_truncate_mul twice once
  · exact one_le_truncate_mul twice twice
  · exact one_le_cubic hb (by omega)

theorem growthPerSlot_mono {b b' : ℚ} {n : ℤ} (hb : 0 ≤ b) (le : b ≤ b') (hn : 0 ≤ n) :
    growthPerSlot b n ≤ growthPerSlot b' n := by
  have once : truncate (b + 1) ≤ truncate (b' + 1) := truncate_mono (by linarith)
  have once_nonneg : 0 ≤ truncate (b + 1) := truncate_nonneg (by linarith)
  have twice := truncate_mul_mono once once once_nonneg once_nonneg
  have twice_nonneg := truncate_nonneg (mul_nonneg once_nonneg once_nonneg)
  unfold growthPerSlot
  repeat' split
  · exact le_rfl
  · exact once
  · exact twice
  · exact truncate_mul_mono twice once twice_nonneg once_nonneg
  · exact truncate_mul_mono twice twice twice_nonneg twice_nonneg
  · exact cubic_mono hb le (by omega)

/-- A debt never shrinks. -/
theorem one_le_growth {rate : ℚ} {n : ℤ} (h : 0 ≤ rate) (hn : 0 ≤ n) : 1 ≤ growth rate n :=
  one_le_growthPerSlot (slotRate_nonneg h) hn

/-- A higher rate never makes a debt grow less. -/
theorem growth_mono {rate rate' : ℚ} {n : ℤ} (h : 0 ≤ rate) (le : rate ≤ rate') (hn : 0 ≤ n) :
    growth rate n ≤ growth rate' n :=
  growthPerSlot_mono (slotRate_nonneg h) (slotRate_mono le) hn

/-! ## Distance from the exact growth -/

def exactGrowth (b : ℚ) (n : ℤ) : ℚ :=
  if n ≤ 4 then (1 + b) ^ n.toNat
  else 1 + b * n + b * b * n * (n - 1 : ℤ) / 2 + b * b * b * n * (n - 1 : ℤ) * (n - 2 : ℤ) / 6

/-- From a rate per slot of `10 ^ -12` on, no term is so small that its digits are lost. -/
theorem cubic_within {b : ℚ} {n : ℤ} (hb : 10 ^ (-12 : ℤ) ≤ b) (hn : 5 ≤ n) :
    Within 7 (cubic b n) (exactGrowth b n) := by
  have positive : 0 < b := lt_of_lt_of_le (by positivity) hb
  have n0 : (1 : ℚ) ≤ n := by exact_mod_cast (by omega : 1 ≤ n)
  have n1 : (1 : ℚ) ≤ (n - 1 : ℤ) := by exact_mod_cast (by omega : 1 ≤ n - 1)
  have n2 : (1 : ℚ) ≤ (n - 2 : ℤ) := by exact_mod_cast (by omega : 1 ≤ n - 2)
  have large {x : ℚ} {e : ℤ} (h : 10 ^ e ≤ x) : 0 ≤ x := (by positivity : (0 : ℚ) ≤ 10 ^ e).trans h
  -- a factor of at least 1 keeps a lower bound
  have grown {x y : ℚ} {e : ℤ} (hx : 10 ^ e ≤ x) (hy : 1 ≤ y) : (10 : ℚ) ^ e ≤ x * y :=
    hx.trans (le_mul_of_one_le_right (large hx) hy)
  have scaled {x y : ℚ} {d e : ℤ} (hx : 10 ^ d ≤ x) (hy : 10 ^ e ≤ y) :
      (10 : ℚ) ^ (d + e) ≤ x * y := by
    rw [zpow_add₀ (by norm_num)]
    exact mul_le_mul hx hy (by positivity) (large hx)
  have shared {x y : ℚ} {d : ℤ} (hx : 10 ^ d ≤ x) (hy : 0 < y) (small : y ≤ 10) :
      (10 : ℚ) ^ (d - 1) ≤ x / y := by
    rw [zpow_sub_one₀ (by norm_num), le_div_iff₀ hy]
    nlinarith [(by positivity : (0 : ℚ) < 10 ^ d)]
  obtain ⟨square, square_le⟩ := (Within.refl (b * b)).truncate_large (by norm_num) (scaled hb hb)
  obtain ⟨cube, cube_le⟩ := (square.mul_right b).truncate_large (by norm_num) (scaled square_le hb)
  obtain ⟨first, first_low⟩ := (Within.refl (b * n)).truncate_large (by norm_num) (grown hb n0)
  obtain ⟨s₁, s₁_le⟩ := (square.mul_right n).truncate_large (by norm_num) (grown square_le n0)
  obtain ⟨s₂, s₂_le⟩ :=
    (s₁.mul_right (n - 1 : ℤ)).truncate_large (by norm_num) (grown s₁_le n1)
  obtain ⟨second, second_low⟩ :=
    (s₂.div_right 2).truncate_large (by norm_num) (shared s₂_le (by norm_num) (by norm_num))
  obtain ⟨t₁, t₁_le⟩ := (cube.mul_right n).truncate_large (by norm_num) (grown cube_le n0)
  obtain ⟨t₂, t₂_le⟩ :=
    (t₁.mul_right (n - 1 : ℤ)).truncate_large (by norm_num) (grown t₁_le n1)
  obtain ⟨t₃, t₃_le⟩ :=
    (t₂.mul_right (n - 2 : ℤ)).truncate_large (by norm_num) (grown t₂_le n2)
  obtain ⟨third, third_low⟩ :=
    (t₃.div_right 6).truncate_large (by norm_num) (shared t₃_le (by norm_num) (by norm_num))
  have first_nonneg : 0 ≤ b * n := by positivity
  have second_nonneg : 0 ≤ b * b * n * (n - 1 : ℤ) / 2 := by positivity
  have third_nonneg : 0 ≤ b * b * b * n * (n - 1 : ℤ) * (n - 2 : ℤ) / 6 := by positivity
  obtain ⟨sum₁, sum₁_low⟩ := (((Within.refl 1).mono (Nat.zero_le 1)).add first zero_le_one
    first_nonneg).truncate_large (e := 0) (by norm_num) (by simpa using large first_low)
  obtain ⟨sum₂, sum₂_low⟩ := ((sum₁.mono (by norm_num : 2 ≤ 4)).add second (by positivity)
    second_nonneg).truncate_large (e := 0) (by norm_num)
    (le_add_of_le_of_nonneg sum₁_low (large second_low))
  obtain ⟨sum₃, -⟩ := ((sum₂.mono (by norm_num : 5 ≤ 6)).add third (by positivity)
    third_nonneg).truncate_large (e := 0) (by norm_num)
    (le_add_of_le_of_nonneg sum₂_low (large third_low))
  rw [exactGrowth, if_neg (by omega)]
  exact sum₃

/-- For up to four slots no digits are lost: nothing is below 1. -/
theorem growthPerSlot_within_of_few {b : ℚ} {n : ℤ} (hb : 0 ≤ b) (hn : 0 ≤ n) (few : n ≤ 4) :
    Within 7 (growthPerSlot b n) ((1 + b) ^ n.toNat) := by
  have units {k : ℕ} (h : k ≤ 3) : (k : ℚ) * ulp ≤ 1 := by
    have : (k : ℚ) ≤ 3 := by exact_mod_cast h
    nlinarith [ulp_le, ulp_pos]
  have product {x y : ℚ} (hx : 10 ^ (0 : ℤ) ≤ x) (hy : 10 ^ (0 : ℤ) ≤ y) :
      (10 : ℚ) ^ (0 : ℤ) ≤ x * y := by
    rw [zpow_zero] at *
    exact one_le_mul_of_one_le_of_one_le hx hy
  obtain ⟨once, once_low⟩ := (Within.refl (b + 1)).truncate_large (e := 0) (by norm_num)
    (by simpa using hb)
  obtain ⟨twice, twice_low⟩ := (once.mul once (units (by norm_num))).truncate_large (e := 0)
    (by norm_num) (product once_low once_low)
  obtain ⟨thrice, -⟩ := (twice.mul once (units (by norm_num))).truncate_large (e := 0)
    (by norm_num) (product twice_low once_low)
  obtain ⟨fourth, -⟩ := (twice.mul twice (units (by norm_num))).truncate_large (e := 0)
    (by norm_num) (product twice_low twice_low)
  unfold growthPerSlot
  repeat' split
  · rename_i zero
    simpa [zero] using (Within.refl 1).mono (Nat.zero_le 7)
  · rename_i one
    simpa [one, add_comm] using once.mono (by norm_num : 1 ≤ 7)
  · rename_i two
    simpa [two, add_comm, pow_two] using twice.mono (by norm_num : 3 ≤ 7)
  · rename_i three
    simpa [three, add_comm, pow_succ] using thrice.mono (by norm_num : 5 ≤ 7)
  · rename_i four
    simpa [four, add_comm, pow_succ, mul_assoc] using fourth
  · omega

theorem growthPerSlot_of_many {b : ℚ} {n : ℤ} (many : 5 ≤ n) : growthPerSlot b n = cubic b n := by
  unfold growthPerSlot
  rw [if_neg (by omega), if_neg (by omega), if_neg (by omega), if_neg (by omega),
    if_neg (by omega)]

theorem growthPerSlot_within {b : ℚ} {n : ℤ} (hb : 10 ^ (-12 : ℤ) ≤ b) (hn : 1 ≤ n) :
    Within 7 (growthPerSlot b n) (exactGrowth b n) := by
  have nonneg : 0 ≤ b := (by positivity : (0 : ℚ) ≤ 10 ^ (-12 : ℤ)).trans hb
  rcases le_or_gt n 4 with few | many
  · rw [exactGrowth, if_pos few]
    exact growthPerSlot_within_of_few nonneg (by omega) few
  · rw [growthPerSlot_of_many many]
    exact cubic_within hb many

theorem truncate_mul_le {x y v w : ℚ} (hx : x ≤ v) (hy : y ≤ w) (x_nonneg : 0 ≤ x)
    (y_nonneg : 0 ≤ y) : truncate (x * y) ≤ v * w :=
  (truncate_le (mul_nonneg x_nonneg y_nonneg)).trans
    (mul_le_mul hx hy y_nonneg (x_nonneg.trans hx))

/-- Every term is cut down, the last one from what the cube of the rate is cut to. -/
theorem cubic_le_of_cube_le {b c : ℚ} {n : ℤ} (hb : 0 ≤ b) (hn : 2 ≤ n)
    (cube : truncate (truncate (b * b) * b) ≤ c) :
    cubic b n ≤ 1 + b * n + b * b * n * (n - 1 : ℤ) / 2 +
      c * n * (n - 1 : ℤ) * (n - 2 : ℤ) / 6 := by
  obtain ⟨n0, n1, n2⟩ := counts_nonneg hn
  have square := truncate_mul_le (le_refl b) (le_refl b) hb hb
  have square_nonneg := truncate_nonneg (mul_nonneg hb hb)
  have cube_nonneg := truncate_nonneg (mul_nonneg square_nonneg hb)
  have first := truncate_mul_le (le_refl b) (le_refl (n : ℚ)) hb n0
  have first_nonneg := truncate_nonneg (mul_nonneg hb n0)
  have s₁ := truncate_mul_le square (le_refl (n : ℚ)) square_nonneg n0
  have s₁_nonneg := truncate_nonneg (mul_nonneg square_nonneg n0)
  have s₂ := truncate_mul_le s₁ (le_refl ((n - 1 : ℤ) : ℚ)) s₁_nonneg n1
  have s₂_nonneg := truncate_nonneg (mul_nonneg s₁_nonneg n1)
  have second := (truncate_le (div_nonneg s₂_nonneg (by norm_num : (0 : ℚ) ≤ 2))).trans
    (div_le_div_of_nonneg_right s₂ (by norm_num))
  have second_nonneg := truncate_nonneg (div_nonneg s₂_nonneg (by norm_num : (0 : ℚ) ≤ 2))
  have t₁ := truncate_mul_le cube (le_refl (n : ℚ)) cube_nonneg n0
  have t₁_nonneg := truncate_nonneg (mul_nonneg cube_nonneg n0)
  have t₂ := truncate_mul_le t₁ (le_refl ((n - 1 : ℤ) : ℚ)) t₁_nonneg n1
  have t₂_nonneg := truncate_nonneg (mul_nonneg t₁_nonneg n1)
  have t₃ := truncate_mul_le t₂ (le_refl ((n - 2 : ℤ) : ℚ)) t₂_nonneg n2
  have t₃_nonneg := truncate_nonneg (mul_nonneg t₂_nonneg n2)
  have third := (truncate_le (div_nonneg t₃_nonneg (by norm_num : (0 : ℚ) ≤ 6))).trans
    (div_le_div_of_nonneg_right t₃ (by norm_num))
  have third_nonneg := truncate_nonneg (div_nonneg t₃_nonneg (by norm_num : (0 : ℚ) ≤ 6))
  have sum {x y v w : ℚ} (hx : x ≤ v) (hy : y ≤ w) (x_nonneg : 0 ≤ x) (y_nonneg : 0 ≤ y) :
      truncate (x + y) ≤ v + w ∧ 0 ≤ truncate (x + y) :=
    ⟨(truncate_le (add_nonneg x_nonneg y_nonneg)).trans (add_le_add hx hy),
      truncate_nonneg (add_nonneg x_nonneg y_nonneg)⟩
  obtain ⟨sum₁, sum₁_nonneg⟩ := sum (le_refl 1) first zero_le_one first_nonneg
  obtain ⟨sum₂, sum₂_nonneg⟩ := sum sum₁ second sum₁_nonneg second_nonneg
  exact (sum sum₂ third sum₂_nonneg third_nonneg).1

theorem cubic_le {b : ℚ} {n : ℤ} (hb : 0 ≤ b) (hn : 5 ≤ n) : cubic b n ≤ exactGrowth b n := by
  have square_nonneg := truncate_nonneg (mul_nonneg hb hb)
  have square := truncate_le (mul_nonneg hb hb)
  rw [exactGrowth, if_neg (by omega)]
  exact cubic_le_of_cube_le hb (by omega) (truncate_mul_le square le_rfl square_nonneg hb)

theorem growthPerSlot_le {b : ℚ} {n : ℤ} (hb : 0 ≤ b) (hn : 1 ≤ n) :
    growthPerSlot b n ≤ exactGrowth b n := by
  have once : truncate (b + 1) ≤ b + 1 := truncate_le (by linarith)
  have once_nonneg : 0 ≤ truncate (b + 1) := truncate_nonneg (by linarith)
  have twice := truncate_mul_le once once once_nonneg once_nonneg
  have twice_nonneg := truncate_nonneg (mul_nonneg once_nonneg once_nonneg)
  unfold growthPerSlot
  repeat' split
  · omega
  · rename_i one
    simpa [exactGrowth, one, add_comm] using once
  · rename_i two
    simpa [exactGrowth, two, add_comm, pow_two] using twice
  · rename_i three
    simpa [exactGrowth, three, add_comm, pow_succ] using
      truncate_mul_le twice once twice_nonneg once_nonneg
  · rename_i four
    simpa [exactGrowth, four, add_comm, pow_succ, mul_assoc] using
      truncate_mul_le twice twice twice_nonneg twice_nonneg
  · exact cubic_le hb (by omega)

/-- Two rates per slot apart keep the growth of every number of slots apart, in the ratio of
    the growth of one slot at least. -/
theorem exactGrowth_ratio {b b' : ℚ} {n : ℤ} (hb : 0 ≤ b) (le : b ≤ b') (hn : 1 ≤ n) :
    exactGrowth b n * (1 + b') ≤ exactGrowth b' n * (1 + b) := by
  unfold exactGrowth
  split
  · obtain ⟨k, rfl⟩ : ∃ k : ℕ, n = k + 1 := ⟨(n - 1).toNat, by omega⟩
    have powers : (1 + b) ^ k ≤ (1 + b') ^ k := by gcongr
    have ends : 0 ≤ (1 + b) * (1 + b') := by nlinarith
    rw [show ((k : ℤ) + 1).toNat = k + 1 by omega, pow_succ, pow_succ]
    linarith [mul_le_mul_of_nonneg_right powers ends]
  · have n1 : (1 : ℚ) ≤ n := by exact_mod_cast hn
    have n2 : (0 : ℚ) ≤ (n - 1 : ℤ) := by exact_mod_cast (by omega : 0 ≤ n - 1)
    have n3 : (0 : ℚ) ≤ (n - 2 : ℤ) := by exact_mod_cast (by omega : 0 ≤ n - 2)
    generalize hsecond : (n : ℚ) * (n - 1 : ℤ) / 2 = second
    have second_nonneg : 0 ≤ second := by rw [← hsecond]; positivity
    generalize hthird : (n : ℚ) * (n - 1 : ℤ) * (n - 2 : ℤ) / 6 = third
    have third_nonneg : 0 ≤ third := by rw [← hthird]; positivity
    have hb' : 0 ≤ b' := hb.trans le
    have gap : 0 ≤ (b' - b) * ((n - 1) + second * (b + b' + b * b')
        + third * (b ^ 2 + b * b' + b' ^ 2 + b * b' * (b + b'))) := by
      refine mul_nonneg (by linarith) ?_
      have : (0 : ℚ) ≤ n - 1 := by linarith
      positivity
    have form (c : ℚ) : 1 + c * n + c * c * n * (n - 1 : ℤ) / 2
        + c * c * c * n * (n - 1 : ℤ) * (n - 2 : ℤ) / 6
        = 1 + c * n + c ^ 2 * second + c ^ 3 * third := by
      rw [← hsecond, ← hthird]
      ring
    rw [form, form]
    linarith [gap]

/-- A rate above another by at least a basis point: the growth differs in the 35th digit. -/
theorem growth_gap {rate extra : ℚ} {n : ℤ} (h : 0 ≤ rate) (high : rate ≤ 10 ^ 30)
    (he : 1 / 10 ^ 4 ≤ extra) (hn : 1 ≤ n) :
    growth rate n * (1 + 5 / 10 ^ 35) ≤ growth (truncate (rate + extra)) n := by
  have few : ulp = 1 / 10 ^ 39 := by
    unfold ulp
    norm_num
  -- the sum, and then the rate per slot, lose a unit each
  have sum_low : (rate + 1 / 10 ^ 4) * (1 - 1 / 10 ^ 39) ≤ truncate (rate + extra) := by
    have kept : ¬ Underflows (rate + 1 / 10 ^ 4) := by
      refine not_underflows_of_le (e := -4) (by norm_num) ?_
      rw [abs_of_nonneg (by positivity)]
      norm_num
      exact h
    have lost := sub_truncate_le (by positivity) kept
    have := truncate_mono (by linarith : rate + 1 / 10 ^ 4 ≤ rate + extra)
    rw [few] at lost
    linarith
  have slot_low : truncate (rate + extra) / 63072000 * (1 - 1 / 10 ^ 39) ≤
      slotRate (truncate (rate + extra)) := by
    have large : (10 : ℚ) ^ (-13 : ℤ) ≤ truncate (rate + extra) / 63072000 := by
      rw [le_div_iff₀ (by norm_num)]
      norm_num at sum_low ⊢
      linarith
    have positive : 0 ≤ truncate (rate + extra) / 63072000 := le_trans (by positivity) large
    have kept : ¬ Underflows (truncate (rate + extra) / 63072000) := by
      refine not_underflows_of_le (e := -13) (by norm_num) ?_
      rwa [abs_of_nonneg positive]
    have lost := sub_truncate_le positive kept
    rw [few] at lost
    unfold slotRate
    linarith
  have base : slotRate rate ≤ rate / 63072000 := truncate_le (by positivity)
  have base_nonneg : 0 ≤ slotRate rate := slotRate_nonneg h
  have apart : slotRate rate + 1 / 10 ^ 12 ≤ slotRate (truncate (rate + extra)) := by
    linarith
  have step : (1 + slotRate rate) * (1 + 6 / 10 ^ 35) ≤
      1 + slotRate (truncate (rate + extra)) := by
    linarith
  have below := growthPerSlot_le base_nonneg hn
  have positive : 1 ≤ growth rate n := one_le_growth h (by omega)
  have exact_nonneg : 0 ≤ exactGrowth (slotRate rate) n := by
    unfold growth at positive
    linarith
  have ratio := exactGrowth_ratio base_nonneg
    (by linarith : slotRate rate ≤ slotRate (truncate (rate + extra))) hn
  have exact_gap : exactGrowth (slotRate rate) n * (1 + 6 / 10 ^ 35) ≤
      exactGrowth (slotRate (truncate (rate + extra))) n := by
    refine le_of_mul_le_mul_right ?_ (by linarith : 0 < 1 + slotRate rate)
    linarith [mul_le_mul_of_nonneg_left step exact_nonneg]
  have above := (growthPerSlot_within (b := slotRate (truncate (rate + extra)))
    (by norm_num; linarith) hn).ge (by linarith)
  rw [few] at above
  unfold growth
  push_cast at above
  linarith

end Lending.Interest
