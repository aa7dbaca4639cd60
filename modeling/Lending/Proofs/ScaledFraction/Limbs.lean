/-
  Lending.Proofs.ScaledFraction.Limbs — wide numbers as lists of limbs.

  A list of limbs stands for the sum of its limbs, each times the value of its place
  (`ofLimbs_eq_placeSum`), whatever their size or sign: one that is no 64-bit word carries into
  the places above. Written out, a number leaves in each limb the 64 bits that stand there, a
  negative one those of its two's complement (`getElem_toLimbs`).

  Words are read back as they were written (`toLimbs_ofLimbs`), and a number is read back up to
  the bits that have no limb (`ofLimbs_toLimbs`). So there is one way to write a number in a given
  count of words (`isLimbsOf_iff`), and both ways round are `limbs_inverse`.
-/
import Lending.Proofs.ScaledFraction

namespace Lending.ScaledFraction

theorem limbBase_eq : limbBase = 2 ^ 64 := by norm_num [limbBase]

theorem limbBase_pos : 0 < limbBase := by decide

/-- One limb more is one factor of the base more. -/
theorem twoPow_succ_limbs (count : ℕ) :
    (2 : ℤ) ^ (64 * (count + 1)) = limbBase * 2 ^ (64 * count) := by
  rw [limbBase_eq, ← pow_add]
  congr 1
  omega

@[simp] theorem ofLimbs_nil : ofLimbs [] = 0 := rfl

theorem ofLimbs_cons (limb : ℤ) (rest : List ℤ) :
    ofLimbs (limb :: rest) = ofLimbs rest * limbBase + limb := rfl

@[simp] theorem toLimbs_zero (value : ℤ) : toLimbs 0 value = [] := rfl

theorem toLimbs_succ (count : ℕ) (value : ℤ) :
    toLimbs (count + 1) value = value % limbBase :: toLimbs count (value / limbBase) := rfl

@[simp] theorem length_toLimbs (count : ℕ) (value : ℤ) : (toLimbs count value).length = count := by
  induction count generalizing value with
  | zero => rfl
  | succ count ih => rw [toLimbs_succ, List.length_cons, ih]

/-! ## What limbs stand for -/

def placeSum (limbs : List ℤ) : ℤ := ∑ i : Fin limbs.length, limbs[i] * 2 ^ (64 * (i : ℕ))

theorem placeSum_cons (limb : ℤ) (rest : List ℤ) :
    placeSum (limb :: rest) = limb + placeSum rest * limbBase := by
  show ∑ i : Fin (rest.length + 1), (limb :: rest)[i] * 2 ^ (64 * (i : ℕ)) = _
  rw [Fin.sum_univ_succ, placeSum, Finset.sum_mul]
  congr 1
  · simp
  · refine Finset.sum_congr rfl fun i _ => ?_
    rw [Fin.val_succ, twoPow_succ_limbs, mul_comm limbBase, ← mul_assoc]
    rfl

/-- Limbs of any size and sign add up; the carries are in the sum. -/
theorem ofLimbs_eq_placeSum (limbs : List ℤ) : ofLimbs limbs = placeSum limbs := by
  induction limbs with
  | nil => rfl
  | cons limb rest ih => rw [ofLimbs_cons, placeSum_cons, ih, add_comm]

/-! ## What is written in a limb -/

def IsProperLimb (limb : ℤ) : Prop := 0 ≤ limb ∧ limb < 2 ^ 64

instance (limb : ℤ) : Decidable (IsProperLimb limb) := instDecidableAnd

/-- Limb `i` holds the 64 bits from place `64 * i` on. -/
theorem getElem_toLimbs (count : ℕ) (value : ℤ) (i : ℕ) (h : i < (toLimbs count value).length) :
    (toLimbs count value)[i] = value / 2 ^ (64 * i) % 2 ^ 64 := by
  induction count generalizing value i with
  | zero => exact absurd h (Nat.not_lt_zero i)
  | succ count ih =>
    cases i with
    | zero => simp [toLimbs_succ, limbBase_eq]
    | succ i =>
      simp only [toLimbs_succ, List.getElem_cons_succ]
      rw [ih, twoPow_succ_limbs, Int.ediv_ediv_of_nonneg limbBase_pos.le]

theorem isProperLimb_of_mem_toLimbs {count : ℕ} {value limb : ℤ} (h : limb ∈ toLimbs count value) :
    IsProperLimb limb := by
  obtain ⟨i, place, rfl⟩ := List.getElem_of_mem h
  rw [getElem_toLimbs]
  exact ⟨Int.emod_nonneg _ (by norm_num), Int.emod_lt_of_pos _ (by norm_num)⟩

/-! ## Reading back -/

/-- The remainder by a product is that of the quotient by one factor, above the remainder by it. -/
theorem emod_mul_eq {a b c : ℤ} (hb : 0 < b) (hc : 0 < c) :
    a % (b * c) = a / b % c * b + a % b := by
  have outer := Int.mul_ediv_add_emod a b
  have inner := Int.mul_ediv_add_emod (a / b) c
  have low := Int.emod_nonneg a hb.ne'
  have low_lt := Int.emod_lt_of_pos a hb
  have high := mul_nonneg (Int.emod_nonneg (a / b) hc.ne') hb.le
  have high_le : (a / b % c + 1) * b ≤ c * b :=
    mul_le_mul_of_nonneg_right (Int.emod_lt_of_pos _ hc) hb.le
  calc a % (b * c) = (a / b % c * b + a % b + b * c * (a / b / c)) % (b * c) := by
        congr 1
        linear_combination -outer - b * inner
    _ = (a / b % c * b + a % b) % (b * c) := Int.add_mul_emod_self_left _ _ _
    _ = a / b % c * b + a % b := Int.emod_eq_of_lt (by linarith) (by linarith)

/-- A number is read back up to the bits that have no limb. -/
theorem ofLimbs_toLimbs (count : ℕ) (value : ℤ) :
    ofLimbs (toLimbs count value) = value % 2 ^ (64 * count) := by
  induction count generalizing value with
  | zero => simp
  | succ count ih =>
    rw [toLimbs_succ, ofLimbs_cons, ih, twoPow_succ_limbs,
      emod_mul_eq limbBase_pos (by positivity)]

/-- Words are read back as they are. -/
theorem toLimbs_ofLimbs {limbs : List ℤ} (words : ∀ limb ∈ limbs, IsProperLimb limb) :
    toLimbs limbs.length (ofLimbs limbs) = limbs := by
  induction limbs with
  | nil => rfl
  | cons limb rest ih =>
    obtain ⟨nonneg, lt⟩ := words limb List.mem_cons_self
    rw [← limbBase_eq] at lt
    have above := ih fun l hl => words l (List.mem_cons_of_mem _ hl)
    rw [List.length_cons, toLimbs_succ, ofLimbs_cons, add_comm,
      Int.add_mul_emod_self_right, Int.emod_eq_of_lt nonneg lt,
      Int.add_mul_ediv_right _ _ limbBase_pos.ne', Int.ediv_eq_zero_of_lt nonneg lt, zero_add, above]

/-- Only what fits the limbs is written. -/
theorem toLimbs_congr {count : ℕ} {a b : ℤ} (same : a ≡ b [ZMOD 2 ^ (64 * count)]) :
    toLimbs count a = toLimbs count b := by
  have rewritten (value : ℤ) :
      toLimbs count (value % 2 ^ (64 * count)) = toLimbs count value := by
    have proper : ∀ limb ∈ toLimbs count value, IsProperLimb limb :=
      fun _ => isProperLimb_of_mem_toLimbs
    have again := toLimbs_ofLimbs proper
    rwa [length_toLimbs, ofLimbs_toLimbs] at again
  rw [← rewritten a, same, rewritten]

/-! ## One way to write a number -/

/-- The words are as many as asked for, and stand for the number up to the bits beyond them. -/
structure IsLimbsOf (count : ℕ) (value : ℤ) (limbs : List ℤ) : Prop where
  length : limbs.length = count
  words : ∀ limb ∈ limbs, IsProperLimb limb
  same : placeSum limbs ≡ value [ZMOD 2 ^ (64 * count)]

theorem isLimbsOf_iff {count : ℕ} {value : ℤ} {limbs : List ℤ} :
    IsLimbsOf count value limbs ↔ limbs = toLimbs count value := by
  constructor
  · rintro ⟨rfl, words, same⟩
    calc limbs = toLimbs limbs.length (ofLimbs limbs) := (toLimbs_ofLimbs words).symm
      _ = toLimbs limbs.length (placeSum limbs) := by rw [ofLimbs_eq_placeSum]
      _ = toLimbs limbs.length value := toLimbs_congr same
  · rintro rfl
    refine ⟨length_toLimbs count value, fun _ => isProperLimb_of_mem_toLimbs, ?_⟩
    rw [← ofLimbs_eq_placeSum, ofLimbs_toLimbs]
    exact Int.mod_modEq value _

/-- Numbers and limbs are inverse to each other, as far as the limbs reach. -/
theorem limbs_inverse :
    (∀ (count : ℕ) (value : ℤ), ofLimbs (toLimbs count value) = value % 2 ^ (64 * count) ∧
      ∀ limb ∈ toLimbs count value, IsProperLimb limb) ∧
    ∀ limbs : List ℤ, ofLimbs limbs = placeSum limbs ∧
      (∀ (count : ℕ) (written : List ℤ),
        IsLimbsOf count (placeSum limbs) written ↔ written = toLimbs count (ofLimbs limbs)) ∧
      ((∀ limb ∈ limbs, IsProperLimb limb) → toLimbs limbs.length (ofLimbs limbs) = limbs) := by
  refine ⟨fun count value => ⟨ofLimbs_toLimbs count value, fun _ => isProperLimb_of_mem_toLimbs⟩,
    fun limbs => ⟨ofLimbs_eq_placeSum limbs, fun count written => ?_, toLimbs_ofLimbs⟩⟩
  rw [ofLimbs_eq_placeSum]
  exact isLimbsOf_iff

/-- A negative number, limbs that are no words and carry, and limbs that are words. -/
theorem limbs_inverse_sample :
    (0xfffffffffffffffb ∈ toLimbs 2 (-5) ∧ IsProperLimb 0xfffffffffffffffb) ∧
    ([0xffffffffffffffff, 2] = toLimbs 2 (ofLimbs [-1, 0x10000000000000003]) ∧
      IsLimbsOf 2 (placeSum [-1, 0x10000000000000003]) [0xffffffffffffffff, 2]) ∧
    ((∀ limb ∈ [5, 0, 7], IsProperLimb limb) ∧ toLimbs 3 (ofLimbs [5, 0, 7]) = [5, 0, 7]) := by
  have top : 0xfffffffffffffffb ∈ toLimbs 2 (-5) := by decide
  have carried : [0xffffffffffffffff, 2] = toLimbs 2 (ofLimbs [-1, 0x10000000000000003]) := by
    decide
  have words : ∀ limb ∈ [5, 0, 7], IsProperLimb limb := by decide
  exact ⟨⟨top, (limbs_inverse.1 2 (-5)).2 _ top⟩,
    ⟨carried, ((limbs_inverse.2 [-1, 0x10000000000000003]).2.1 2 _).mpr carried⟩,
    words, (limbs_inverse.2 [5, 0, 7]).2.2 words⟩

end Lending.ScaledFraction
