/-
  Lending.Proofs.ScaledFraction.Recoding — amounts written as fractions and read again.

  A value is written as a count of units: their number is cut to 40 digits, then to a whole one
  (`encoded`). It is read as the quotient by the scale, cut once more (`decoded`). All three
  cuts go down, so nothing is gained on the way; the second loses less than a unit, the others a
  share of 10^-39 each:
  - `recoding_keeps`: what is read again is short by less than that, order is kept, and three
    places are kept exactly, for the scale ends in three zeros. Below zero only what counts as
    no unit at all can be written.
  - `decoding_separates`: up to 128 bits both shares together are less than a unit, so
    neighbouring counts are read as different values, and read and written again a count is
    the same or one less.
-/
import Lending.Proofs.ScaledFraction

namespace Lending.ScaledFraction

open Truncation

/-! ## Whole parts -/

def whole (v : ℚ) : ℤ := if 0 ≤ v then ⌊v⌋ else ⌈v⌉

theorem whole_of_nonneg {v : ℚ} (h : 0 ≤ v) : whole v = ⌊v⌋ := if_pos h

theorem whole_of_neg {v : ℚ} (h : v < 0) : whole v = ⌈v⌉ := if_neg h.not_ge

theorem whole_mono {v w : ℚ} (le : v ≤ w) : whole v ≤ whole w := by
  by_cases hv : 0 ≤ v
  · rw [whole_of_nonneg hv, whole_of_nonneg (hv.trans le)]
    exact Int.floor_mono le
  · rw [not_le] at hv
    rw [whole_of_neg hv]
    by_cases hw : 0 ≤ w
    · rw [whole_of_nonneg hw]
      have below : ⌈v⌉ ≤ 0 := Int.ceil_le.mpr (by exact_mod_cast hv.le)
      exact below.trans (Int.floor_nonneg.mpr hw)
    · rw [whole_of_neg (not_le.mp hw)]
      exact Int.ceil_mono le

theorem whole_neg_iff {v : ℚ} : whole v < 0 ↔ v ≤ -1 := by
  by_cases h : 0 ≤ v
  · have floor_nonneg := Int.floor_nonneg.mpr h
    rw [whole_of_nonneg h]
    constructor
    · intro below
      omega
    · intro below
      linarith
  · rw [whole_of_neg (not_le.mp h), ← Int.le_sub_one_iff, Int.ceil_le]
    norm_num

/-- A negative value counts as nothing exactly if it is above -1. -/
theorem whole_ne_zero_iff {v : ℚ} (h : v < 0) : whole v ≠ 0 ↔ v ≤ -1 := by
  have no_more : whole v ≤ 0 := by
    rw [whole_of_neg h, Int.ceil_le]
    exact_mod_cast h.le
  rw [← whole_neg_iff]
  omega

/-- The digits of a decimal that stand before the point. -/
theorem size_wholePart (x : Decimal) :
    ((x.coeff * tens x.exp / tens (min (-x.exp) (Decimal.digitCount x.coeff)) : ℕ) : ℤ) =
      ⌊|x.toRat|⌋ := by
  by_cases shown : 0 ≤ x.exp
  · -- no digit stands behind the point
    have places : min (-x.exp) (Decimal.digitCount x.coeff) ≤ 0 :=
      (min_le_left _ _).trans (by omega)
    have none : tens (min (-x.exp) (Decimal.digitCount x.coeff)) = 1 := by
      simp [tens, Int.toNat_of_nonpos places]
    rw [none, Nat.div_one, Decimal.abs_toRat, ← tens_cast shown, ← Nat.cast_mul, Int.floor_natCast]
  · have one : tens x.exp = 1 := by simp [tens, Int.toNat_of_nonpos (not_le.mp shown).le]
    rw [one, mul_one]
    by_cases some : -x.exp ≤ Decimal.digitCount x.coeff
    · have shift : (10 : ℚ) ^ x.exp = ((tens (-x.exp) : ℕ) : ℚ)⁻¹ := by
        rw [tens_cast (by omega), zpow_neg, inv_inv]
      rw [min_eq_left some, Decimal.abs_toRat, shift, ← div_eq_mul_inv,
        Rat.floor_natCast_div_natCast]
      rfl
    · -- all digits do
      have below : x.coeff < tens (Decimal.digitCount x.coeff : ℕ) := by
        by_cases zero : x.coeff = 0
        · simp [zero, tens]
        · rw [Decimal.digitCount_eq zero]
          simpa [tens] using Nat.lt_pow_succ_log_self (by decide) x.coeff
      have small : |x.toRat| < 1 := by
        refine (Decimal.lt_adjusted x).trans_le (zpow_le_one_of_nonpos₀ (by norm_num) ?_)
        unfold Decimal.adjusted
        omega
      rw [min_eq_right (by omega), Nat.div_eq_of_lt below]
      exact (Int.floor_eq_zero_iff.mpr ⟨abs_nonneg _, small⟩).symm

theorem wholePart_eq (x : Decimal) : wholePart x = whole x.toRat := by
  have size := size_wholePart x
  have digits : 0 ≤ x.coeff * (10 : ℚ) ^ x.exp := by positivity
  have value := Decimal.toRat_eq x
  unfold wholePart
  simp only [size]
  cases sign : x.neg with
  | false =>
    rw [sign, Decimal.unit_false, one_mul] at value
    rw [if_neg (by decide), whole_of_nonneg (value ▸ digits), abs_of_nonneg (value ▸ digits)]
  | true =>
    rw [sign, Decimal.unit_true, mul_assoc, neg_one_mul] at value
    have nonpos : x.toRat ≤ 0 := by linarith
    rw [if_pos rfl, abs_of_nonpos nonpos]
    rcases nonpos.eq_or_lt with zero | negative
    · rw [zero, neg_zero, whole_of_nonneg le_rfl, Int.floor_zero, neg_zero]
    · rw [whole_of_neg negative, Int.floor_neg, neg_neg]

/-! ## Counts of units -/

def encoded (v : ℚ) : ℤ := whole (truncate (v * scale))

theorem encoded_mono {v w : ℚ} (le : v ≤ w) : encoded v ≤ encoded w :=
  whole_mono (truncate_mono (mul_le_mul_of_nonneg_right le scale_pos.le))

theorem decoded_mono {m n : ℤ} (le : m ≤ n) : decoded m ≤ decoded n := by
  have cast : (m : ℚ) ≤ n := by exact_mod_cast le
  exact truncate_mono (div_le_div_of_nonneg_right cast scale_pos.le)

section
variable {v : ℚ} (nonneg : 0 ≤ v)
include nonneg

theorem encoded_eq : encoded v = ⌊truncate (v * scale)⌋ :=
  whole_of_nonneg (truncate_nonneg (mul_nonneg nonneg scale_pos.le))

theorem encoded_nonneg : 0 ≤ encoded v := by
  rw [encoded_eq nonneg]
  exact Int.floor_nonneg.mpr (truncate_nonneg (mul_nonneg nonneg scale_pos.le))

theorem encoded_le : (encoded v : ℚ) ≤ v * scale := by
  rw [encoded_eq nonneg]
  exact (Int.floor_le _).trans (truncate_le (mul_nonneg nonneg scale_pos.le))

/-- Less than a unit is dropped besides what the product loses. -/
theorem sub_encoded_lt : v * scale - encoded v < 1 + ulp * (v * scale) := by
  have exact_nonneg : 0 ≤ v * scale := mul_nonneg nonneg scale_pos.le
  by_cases counted : 1 ≤ v * scale
  · have cut := sub_truncate_le_of_normal exact_nonneg le_rfl
      ((normal_of_large (by norm_num)).trans counted)
    have dropped := Int.lt_floor_add_one (truncate (v * scale))
    rw [← encoded_eq nonneg] at dropped
    linarith
  · -- less than a unit: nothing is counted, however small the value is
    have count_nonneg : (0 : ℚ) ≤ encoded v := by exact_mod_cast encoded_nonneg nonneg
    have unit_nonneg := mul_nonneg ulp_pos.le exact_nonneg
    linarith

end

section
variable {v : ℚ} (negative : v < 0)
include negative

theorem count_neg : v * scale < 0 := mul_neg_of_neg_of_pos negative scale_pos

theorem encoded_nonpos : encoded v ≤ 0 := by
  have cut := (le_truncate_of_nonpos (count_neg negative).le).2
  have whole_le := whole_mono cut
  rwa [whole_of_nonneg le_rfl, Int.floor_zero] at whole_le

/-- Cutting to 40 digits first does not change whether there is a unit at all. -/
theorem encoded_neg_iff : encoded v < 0 ↔ whole (v * scale) ≠ 0 := by
  have below := count_neg negative
  rw [whole_ne_zero_iff below]
  unfold encoded
  rw [whole_neg_iff]
  constructor
  · intro cut
    exact (le_truncate_of_nonpos below.le).1.trans cut
  · intro unit
    exact representable_one.neg.truncate_le unit

end

section
variable {n : ℤ} (nonneg : 0 ≤ n)
include nonneg

theorem decoded_nonneg : 0 ≤ decoded n := truncate_nonneg (count_div_nonneg nonneg)

theorem decoded_le : decoded n ≤ n / scale := truncate_le (count_div_nonneg nonneg)

theorem decoded_mul_le : decoded n * scale ≤ n := by
  have le := mul_le_mul_of_nonneg_right (decoded_le nonneg) scale_pos.le
  rwa [div_mul_cancel₀ _ scale_pos.ne'] at le

/-- Reading loses a share of what is read. -/
theorem sub_decoded_le : n / scale - decoded n ≤ ulp * (n / scale) :=
  sub_truncate_le (count_div_nonneg nonneg) (not_underflows_count nonneg)

theorem sub_decoded_mul_le : n - decoded n * scale ≤ ulp * n := by
  have lost := mul_le_mul_of_nonneg_right (sub_decoded_le nonneg) scale_pos.le
  rwa [sub_mul, mul_assoc, div_mul_cancel₀ _ scale_pos.ne'] at lost

end

/-! ## Written and read -/

section
variable {v : ℚ} (nonneg : 0 ≤ v)
include nonneg

theorem decoded_encoded_le : decoded (encoded v) ≤ v := by
  refine (decoded_le (encoded_nonneg nonneg)).trans ?_
  rw [div_le_iff₀ scale_pos]
  exact encoded_le nonneg

theorem sub_decoded_encoded_lt : v - decoded (encoded v) < 1 / scale + 2 * ulp * v := by
  have written : v - encoded v / scale < 1 / scale + ulp * v := by
    have dropped := div_lt_div_of_pos_right (sub_encoded_lt nonneg) scale_pos
    rwa [sub_div, mul_div_cancel_right₀ _ scale_pos.ne', add_div, ← mul_assoc,
      mul_div_cancel_right₀ _ scale_pos.ne'] at dropped
  have read := sub_decoded_le (encoded_nonneg nonneg)
  have share : ulp * (encoded v / scale) ≤ ulp * v := by
    refine mul_le_mul_of_nonneg_left ?_ ulp_pos.le
    rw [div_le_iff₀ scale_pos]
    exact encoded_le nonneg
  linarith

/-- Thousandths are whole counts, for the scale is a multiple of a thousand. -/
theorem decoded_encoded_eq {k : ℤ} (places : v = k / 10 ^ 3) (few : v * scale < 10 ^ 40) :
    decoded (encoded v) = v := by
  have count : v * scale = ((k * 1152921504606847 : ℤ) : ℚ) := by
    rw [places, scale]
    push_cast
    ring
  have counts_nonneg := mul_nonneg nonneg scale_pos.le
  rw [count] at few counts_nonneg
  have count_lt : k * 1152921504606847 < 10 ^ 40 := by exact_mod_cast few
  have count_ge : 0 ≤ k * 1152921504606847 := by exact_mod_cast counts_nonneg
  have written : encoded v = k * 1152921504606847 := by
    have figure : Representable ((k * 1152921504606847 : ℤ) : ℚ) :=
      representable_intCast (by rwa [abs_of_nonneg count_ge])
    rw [encoded_eq nonneg, count, figure.truncate_eq, Int.floor_intCast]
  have figure : Representable v := by
    refine ⟨k, -3, ?_, by decide, by rw [places]; norm_num [div_eq_mul_inv]⟩
    rw [abs_of_nonneg (by omega)]
    omega
  unfold decoded
  rw [written, ← count, mul_div_cancel_right₀ _ scale_pos.ne', figure.truncate_eq]

end

/-- Up to 128 bits a cut takes about a third of a unit at most. -/
theorem ulp_mul_count_lt {n : ℤ} (narrow : n < 2 ^ 128) : ulp * n < 1 / 2 := by
  have bound : (n : ℚ) < 2 ^ 128 := by exact_mod_cast narrow
  rw [ulp_eq]
  norm_num at bound ⊢
  linarith

section
variable {n : ℤ} (nonneg : 0 ≤ n) (narrow : n < 2 ^ 128)
include nonneg narrow

/-- A count is read as more than any count below it. -/
theorem decoded_lt_decoded {m : ℤ} (from_zero : 0 ≤ m) (lt : m < n) : decoded m < decoded n := by
  have apart : (m : ℚ) + 1 ≤ n := by exact_mod_cast lt
  have short := sub_decoded_mul_le nonneg
  have share := ulp_mul_count_lt narrow
  have below := decoded_mul_le from_zero
  exact lt_of_mul_lt_mul_right (by linarith : decoded m * scale < decoded n * scale) scale_pos.le

theorem encoded_decoded : encoded (decoded n) = n ∨ encoded (decoded n) + 1 = n := by
  have value_nonneg := decoded_nonneg nonneg
  have read_le := decoded_mul_le nonneg
  have read_lost := sub_decoded_mul_le nonneg
  have share := ulp_mul_count_lt narrow
  have written_le := encoded_le value_nonneg
  have written_lost := sub_encoded_lt value_nonneg
  have share' : ulp * (decoded n * scale) ≤ ulp * n :=
    mul_le_mul_of_nonneg_left read_le ulp_pos.le
  have above : encoded (decoded n) ≤ n := by exact_mod_cast written_le.trans read_le
  have below : n < encoded (decoded n) + 2 := by
    have short : (n : ℚ) < encoded (decoded n) + 2 := by linarith
    exact_mod_cast short
  omega

end

/-! ## Numbers -/

def recode (x : Decimal) : Outcome Decimal := do (← ofDecimal x).toDecimal

def InRange (x : Decimal) : Prop := |x.toRat * scale| < Decimal.limit

def Refused (x : Decimal) : Prop :=
  ofDecimal x = .error .numberTooLong ∨ ∃ count, ofDecimal x = .error (.negativeFraction count)

theorem toDecimal_eq_decode (f : ScaledFraction) : f.toDecimal = decode f.raw := by
  rw [decode_of_nonneg (Int.natCast_nonneg _)]
  rfl

theorem ofInt_of_nonneg {count : ℤ} (nonneg : 0 ≤ count) : ofInt count = .ok ⟨count.toNat⟩ :=
  if_pos nonneg

theorem ofDecimal_of_inRange {x : Decimal} (room : InRange x) :
    ofDecimal x = ofInt (encoded x.toRat) := by
  obtain ⟨scaled, product⟩ : ∃ z, (x * fractionScale : Outcome Decimal) = .ok z := by
    refine exists_mul ?_
    rw [toRat_fractionScale]
    exact room
  unfold ofDecimal
  rw [product]
  show ofInt (wholePart scaled) = _
  rw [wholePart_eq, mul_value product, toRat_fractionScale]
  rfl

theorem ofDecimal_eq_overflow_iff {x : Decimal} :
    ofDecimal x = .error .overflow ↔ ¬ InRange x := by
  constructor
  · intro failed room
    rw [ofDecimal_of_inRange room] at failed
    unfold ofInt at failed
    repeat' split at failed
    all_goals cases failed
  · intro large
    unfold ofDecimal
    cases product : (x * fractionScale : Outcome Decimal) with
    | error fault => exact congrArg _ (mul_overflowOnly x fractionScale fault product)
    | ok scaled =>
      have size := (mul_result product).2.size
      rw [mul_value product, toRat_fractionScale] at size
      exact absurd (Decimal.abs_lt_limit_of_truncate size) large

theorem refused_iff {x : Decimal} (room : InRange x) : Refused x ↔ encoded x.toRat < 0 := by
  unfold Refused
  rw [ofDecimal_of_inRange room]
  by_cases nonneg : 0 ≤ encoded x.toRat
  · simp [ofInt_of_nonneg nonneg, nonneg]
  · unfold ofInt
    rw [if_neg nonneg]
    split <;> simp [not_le.mp nonneg]

theorem exists_recode {x : Decimal} (nonneg : 0 ≤ x.toRat) (room : InRange x) :
    ∃ e, recode x = .ok e ∧ e.toRat = decoded (encoded x.toRat) := by
  have counts_nonneg := encoded_nonneg nonneg
  obtain ⟨e, read, value⟩ : ∃ e, decode (encoded x.toRat) = .ok e ∧
      e.toRat = decoded (encoded x.toRat) := by
    refine exists_decoded counts_nonneg ?_
    refine (div_le_self (by exact_mod_cast counts_nonneg) one_le_scale).trans_lt ?_
    exact (encoded_le nonneg).trans_lt ((le_abs_self _).trans_lt room)
  refine ⟨e, ?_, value⟩
  unfold recode
  rw [ofDecimal_of_inRange room]
  exact read

theorem InRange.of_le {x y : Decimal} (h : InRange y) (nonneg : 0 ≤ x.toRat)
    (le : x.toRat ≤ y.toRat) : InRange x := by
  have counts := mul_le_mul_of_nonneg_right le scale_pos.le
  have own := mul_nonneg nonneg scale_pos.le
  unfold InRange at h ⊢
  rw [abs_of_nonneg own]
  exact counts.trans_lt ((le_abs_self _).trans_lt h)

/-- Written as a fraction and read again, a number is short by less than a unit and two shares of
    10^-39 of it, and numbers keep their order. Three places are kept. A negative number is
    refused unless it counts as no unit; then it is written as zero. -/
theorem recoding_keeps :
    (∀ x : Decimal, ofDecimal x = .error .overflow ↔ ¬ InRange x) ∧
    (∀ x : Decimal, 0 ≤ x → InRange x → ∃ e, recode x = .ok e ∧ e ≤ x ∧
      x.toRat - e.toRat < 1 / scale + 2 / 10 ^ 39 * x.toRat ∧
      (∀ k : ℤ, x.toRat = k / 10 ^ 3 → x.toRat * scale < 10 ^ 40 → e.toRat = x.toRat)) ∧
    (∀ x y : Decimal, 0 ≤ x → x ≤ y → InRange y →
      ∃ d e, recode x = .ok d ∧ recode y = .ok e ∧ d ≤ e) ∧
    (∀ x : Decimal, x < 0 → InRange x → (Refused x ↔ whole (x.toRat * scale) ≠ 0) ∧
      (whole (x.toRat * scale) = 0 → ofDecimal x = .ok ⟨0⟩)) := by
  refine ⟨fun x => ofDecimal_eq_overflow_iff, ?_, ?_, ?_⟩
  · intro x nonneg room
    rw [Decimal.le_iff, Decimal.toRat_zero] at nonneg
    obtain ⟨e, given, value⟩ := exists_recode nonneg room
    refine ⟨e, given, ?_, ?_, ?_⟩
    · rw [Decimal.le_iff, value]
      exact decoded_encoded_le nonneg
    · have short := sub_decoded_encoded_lt nonneg
      rw [ulp_eq, ← value] at short
      linarith
    · intro k places few
      rw [value]
      exact decoded_encoded_eq nonneg places few
  · intro x y nonneg le room
    rw [Decimal.le_iff] at nonneg le
    rw [Decimal.toRat_zero] at nonneg
    obtain ⟨d, given, value⟩ := exists_recode nonneg (room.of_le nonneg le)
    obtain ⟨e, given', value'⟩ := exists_recode (nonneg.trans le) room
    refine ⟨d, e, given, given', ?_⟩
    rw [Decimal.le_iff, value, value']
    exact decoded_mono (encoded_mono le)
  · intro x negative room
    rw [Decimal.lt_iff, Decimal.toRat_zero] at negative
    refine ⟨(refused_iff room).trans (encoded_neg_iff negative), ?_⟩
    intro none
    have count : encoded x.toRat = 0 := by
      refine (encoded_nonpos negative).antisymm (not_lt.mp ?_)
      rw [encoded_neg_iff negative]
      exact not_not.mpr none
    rw [ofDecimal_of_inRange room, count]
    rfl

/-- Three places are kept and a fourth is not; a tenth of a unit below zero counts as none. -/
theorem recoding_keeps_sample :
    (∃ e, recode ⟨false, 1234567, -3⟩ = .ok e ∧ e.toRat = (⟨false, 1234567, -3⟩ : Decimal).toRat) ∧
    (∃ d e, recode ⟨false, 12345678, -4⟩ = .ok d ∧ recode ⟨false, 1234568, -3⟩ = .ok e ∧ d ≤ e) ∧
    recode ⟨false, 12345678, -4⟩ = .ok ⟨false, 1234567799999999999999479582957206957882, -36⟩ ∧
    Refused ⟨true, 1, 0⟩ ∧ ¬ Refused ⟨true, 1, -19⟩ := by
  obtain ⟨overflow, keeps, order, negative⟩ := recoding_keeps
  have room {x : Decimal} (given : ofDecimal x ≠ .error .overflow) : InRange x :=
    not_not.mp (mt (overflow x).mpr given)
  refine ⟨?_, order _ _ (by decide) (by decide) (room (by decide)), by decide +kernel, ?_, ?_⟩
  · obtain ⟨e, given, -, -, places⟩ :=
      keeps ⟨false, 1234567, -3⟩ (by decide) (room (by decide))
    refine ⟨e, given, places 1234567 ?_ ?_⟩ <;> norm_num [Decimal.toRat_eq, scale]
  · rw [(negative _ (by decide) (room (by decide +kernel))).1, whole_ne_zero_iff] <;>
      norm_num [Decimal.toRat_eq, scale]
  · rw [(negative _ (by decide) (room (by decide +kernel))).1, whole_ne_zero_iff] <;>
      norm_num [Decimal.toRat_eq, scale]

theorem count_lt_limit {f : ScaledFraction} (narrow : f.raw < 2 ^ 128) :
    (f.raw : ℚ) < Decimal.limit := by
  have bound : (f.raw : ℚ) < 10 ^ (39 : ℤ) := by exact_mod_cast narrow.trans (by norm_num)
  exact bound.trans_le ((Decimal.zpow_le_half_limit (by decide)).trans
    (half_le_self Decimal.limit_pos.le))

theorem exists_toDecimal {f : ScaledFraction} (room : f.raw / scale < Decimal.limit) :
    ∃ x, f.toDecimal = .ok x ∧ x.toRat = decoded f.raw := by
  rw [toDecimal_eq_decode]
  exact exists_decoded (Int.natCast_nonneg _) (by exact_mod_cast room)

theorem exists_toDecimal_of_narrow {f : ScaledFraction} (narrow : f.raw < 2 ^ 128) :
    ∃ x, f.toDecimal = .ok x ∧ x.toRat = decoded f.raw :=
  exists_toDecimal ((div_le_self (Nat.cast_nonneg _) one_le_scale).trans_lt (count_lt_limit narrow))

theorem toDecimal_spec {f : ScaledFraction} {x : Decimal} (read : f.toDecimal = .ok x) :
    x.toRat = decoded f.raw ∧ f.raw / scale < Decimal.limit := by
  rw [toDecimal_eq_decode] at read
  have value := (decode_value read).2
  rw [decode_of_nonneg (Int.natCast_nonneg _)] at read
  have size := (div_result read).size
  rw [value] at size
  refine ⟨value, ?_⟩
  exact_mod_cast (le_abs_self _).trans_lt (Decimal.abs_lt_limit_of_truncate size)

theorem inRange_of_narrow {f : ScaledFraction} (narrow : f.raw < 2 ^ 128) {x : Decimal}
    (value : x.toRat = decoded f.raw) : InRange x := by
  have count_nonneg : (0 : ℤ) ≤ f.raw := Int.natCast_nonneg _
  have units_nonneg := mul_nonneg (decoded_nonneg count_nonneg) scale_pos.le
  unfold InRange
  rw [value, abs_of_nonneg units_nonneg]
  exact (decoded_mul_le count_nonneg).trans_lt (by exact_mod_cast count_lt_limit narrow)

/-- Counts of up to 128 bits are read as different values, and read and written again a count is
    the same or one less. Counts of any size keep their order. -/
theorem decoding_separates :
    (∀ f g : ScaledFraction, f.raw < g.raw → g.raw < 2 ^ 128 →
      ∃ x y, f.toDecimal = .ok x ∧ g.toDecimal = .ok y ∧ x < y) ∧
    (∀ f : ScaledFraction, f.raw < 2 ^ 128 →
      ∃ x g, f.toDecimal = .ok x ∧ ofDecimal x = .ok g ∧ (g.raw = f.raw ∨ g.raw + 1 = f.raw)) ∧
    (∀ (f g : ScaledFraction) (y : Decimal), f.raw ≤ g.raw → g.toDecimal = .ok y →
      ∃ x, f.toDecimal = .ok x ∧ x ≤ y) := by
  refine ⟨?_, ?_, ?_⟩
  · intro f g lt narrow
    obtain ⟨x, read, value⟩ := exists_toDecimal_of_narrow (lt.trans narrow)
    obtain ⟨y, read', value'⟩ := exists_toDecimal_of_narrow narrow
    refine ⟨x, y, read, read', ?_⟩
    rw [Decimal.lt_iff, value, value']
    exact decoded_lt_decoded (Int.natCast_nonneg _) (by exact_mod_cast narrow)
      (Int.natCast_nonneg _) (by exact_mod_cast lt)
  · intro f narrow
    have count_nonneg : (0 : ℤ) ≤ f.raw := Int.natCast_nonneg _
    obtain ⟨x, read, value⟩ := exists_toDecimal_of_narrow narrow
    have nonneg : 0 ≤ x.toRat := value ▸ decoded_nonneg count_nonneg
    have own := encoded_nonneg nonneg
    refine ⟨x, ⟨(encoded x.toRat).toNat⟩, read, ?_, ?_⟩
    · rw [ofDecimal_of_inRange (inRange_of_narrow narrow value), ofInt_of_nonneg own]
    · have close := encoded_decoded count_nonneg (by exact_mod_cast narrow)
      rw [← value] at close
      show (encoded x.toRat).toNat = f.raw ∨ (encoded x.toRat).toNat + 1 = f.raw
      omega
  · intro f g y le read'
    obtain ⟨value', small⟩ := toDecimal_spec read'
    have counts : (f.raw : ℚ) / scale ≤ g.raw / scale :=
      div_le_div_of_nonneg_right (by exact_mod_cast le) scale_pos.le
    obtain ⟨x, read, value⟩ := exists_toDecimal (counts.trans_lt small)
    refine ⟨x, read, ?_⟩
    rw [Decimal.le_iff, value, value']
    exact decoded_mono (by exact_mod_cast le)

/-- The last two counts of 128 bits; read and written again, the last one is a unit short. -/
theorem decoding_separates_sample :
    (∃ x y, toDecimal ⟨2 ^ 128 - 2⟩ = .ok x ∧ toDecimal ⟨2 ^ 128 - 1⟩ = .ok y ∧ x < y) ∧
    (∃ x g, toDecimal ⟨2 ^ 128 - 1⟩ = .ok x ∧ ofDecimal x = .ok g ∧ g.raw + 1 = 2 ^ 128 - 1) ∧
    ∃ x, toDecimal ⟨10 ^ 60⟩ = .ok x ∧
      x ≤ ⟨false, 8673617379884035291503690120656176225983, 2⟩ := by
  obtain ⟨apart, again, order⟩ := decoding_separates
  refine ⟨apart _ _ (by norm_num) (by norm_num), ?_, ?_⟩
  · obtain ⟨x, g, read, written, same | short⟩ := again ⟨2 ^ 128 - 1⟩ (by norm_num)
    · have last : toDecimal ⟨2 ^ 128 - 1⟩ =
          .ok ⟨false, 2951479051793528197120000000000001278968, -19⟩ := by decide +kernel
      have recoded : ofDecimal ⟨false, 2951479051793528197120000000000001278968, -19⟩ =
          .ok ⟨2 ^ 128 - 2⟩ := by decide +kernel
      cases last.symm.trans read
      cases recoded.symm.trans written
      exact absurd same (by decide)
    · exact ⟨x, g, read, written, short⟩
  · exact order _ ⟨10 ^ 60 + 1⟩ _ (by norm_num) (by decide +kernel)

end Lending.ScaledFraction
