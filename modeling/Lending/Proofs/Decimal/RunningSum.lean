/-
  Lending.Proofs.Decimal.RunningSum — sums and products worked out one cut step at a time.

  `scaleBy` multiplies by one factor after the other. The result is at most the exact one
  (`scaleBy_le`), and while no step is so small that digits are lost, each costs one unit
  (`within_scaleBy`). `runningSum` adds figures in order. No
  figure of a list is worth more than its running sum (`le_runningSum`), and what the steps
  lose is at most two units of the result for each entry, however long the list
  (`sum_le_runningSum`), or one of the exact sum (`sum_sub_runningSum_le`).

  `change_near` compares two ways of changing one entry: adding the difference to the old
  sum, or summing anew. The exact sums differ by what the two entries do, and what both sums
  lost is bounded by the larger of them, not by both together. `Change` gathers what this
  needs of an entry that is a holding scaled by factors (`Change.near`, `Change.sum_near`).
-/
import Lending.Proofs.Decimal.Error

namespace Lending.Truncation

/-! ## Products -/

def scaleBy : List ℚ → ℚ → ℚ
  | [], x => x
  | factor :: rest, x => scaleBy rest (truncate (x * factor))

def KeepsDigits : List ℚ → ℚ → Prop
  | [], _ => True
  | factor :: rest, x => ¬ Underflows (x * factor) ∧ KeepsDigits rest (truncate (x * factor))

theorem within_scaleBy {factors : List ℚ} {x : ℚ} (few : factors.length ≤ 9)
    (kept : KeepsDigits factors x) :
    Within factors.length (scaleBy factors x) (x * factors.prod) := by
  induction factors generalizing x with
  | nil => simpa [scaleBy] using Within.refl x
  | cons factor rest ih =>
    rw [List.length_cons] at few
    have later := ih (by omega) kept.2
    have first := (within_truncate kept.1).mul_right rest.prod
    have both := later.trans first (by norm_num [ulp])
    rw [List.prod_cons, ← mul_assoc]
    exact both

@[simp] theorem scaleBy_zero (factors : List ℚ) : scaleBy factors 0 = 0 := by
  induction factors with
  | nil => rfl
  | cons factor rest ih => simp [scaleBy, ih]

theorem scaleBy_nonneg {factors : List ℚ} {x : ℚ} (nonneg : ∀ factor ∈ factors, 0 ≤ factor)
    (h : 0 ≤ x) : 0 ≤ scaleBy factors x := by
  induction factors generalizing x with
  | nil => exact h
  | cons factor rest ih =>
    obtain ⟨first, others⟩ := List.forall_mem_cons.mp nonneg
    exact ih others (truncate_nonneg (mul_nonneg h first))

theorem scaleBy_neg (factors : List ℚ) (x : ℚ) : scaleBy factors (-x) = -scaleBy factors x := by
  induction factors generalizing x with
  | nil => rfl
  | cons factor rest ih =>
    show scaleBy rest (truncate (-x * factor)) = -scaleBy rest (truncate (x * factor))
    rw [neg_mul, truncate_neg, ih]

/-- What is cut on the way is never gained: the result is at most the exact one. -/
theorem scaleBy_le {factors : List ℚ} {x : ℚ} (nonneg : ∀ factor ∈ factors, 0 ≤ factor)
    (h : 0 ≤ x) : scaleBy factors x ≤ x * factors.prod := by
  induction factors generalizing x with
  | nil => exact (mul_one x).ge
  | cons factor rest ih =>
    obtain ⟨first, others⟩ := List.forall_mem_cons.mp nonneg
    have exact_nonneg := mul_nonneg h first
    refine (ih others (truncate_nonneg exact_nonneg)).trans ?_
    rw [List.prod_cons, ← mul_assoc]
    exact mul_le_mul_of_nonneg_right (truncate_le exact_nonneg) (List.prod_nonneg others)

/-- The same factors of a larger figure never give less. -/
theorem scaleBy_mono_right {factors : List ℚ} {x x' : ℚ}
    (nonneg : ∀ factor ∈ factors, 0 ≤ factor) (le : x ≤ x') :
    scaleBy factors x ≤ scaleBy factors x' := by
  induction factors generalizing x x' with
  | nil => exact le
  | cons factor rest ih =>
    obtain ⟨first, others⟩ := List.forall_mem_cons.mp nonneg
    exact ih others (truncate_mono (mul_le_mul_of_nonneg_right le first))

/-- Larger factors of a larger figure never give less. -/
theorem scaleBy_mono {factors factors' : List ℚ} {x x' : ℚ}
    (le : List.Forall₂ (fun factor factor' => 0 ≤ factor ∧ factor ≤ factor') factors factors')
    (nonneg : 0 ≤ x) (le_x : x ≤ x') : scaleBy factors x ≤ scaleBy factors' x' := by
  induction le generalizing x x' with
  | nil => exact le_x
  | cons first _ ih =>
    refine ih (truncate_nonneg (mul_nonneg nonneg first.1)) (truncate_mono ?_)
    exact mul_le_mul le_x first.2 first.1 (nonneg.trans le_x)

theorem representable_scaleBy {factors : List ℚ} (some : factors ≠ []) (x : ℚ) :
    Representable (scaleBy factors x) := by
  induction factors generalizing x with
  | nil => exact absurd rfl some
  | cons factor rest ih =>
    cases rest with
    | nil => exact representable_truncate _
    | cons next others => exact ih (List.cons_ne_nil _ _) _

theorem scaleBy_append (factors more : List ℚ) (x : ℚ) :
    scaleBy (factors ++ more) x = scaleBy more (scaleBy factors x) := by
  induction factors generalizing x with
  | nil => rfl
  | cons factor rest ih => exact ih _

theorem scaleBy_append_singleton (factors : List ℚ) (factor x : ℚ) :
    scaleBy (factors ++ [factor]) x = truncate (scaleBy factors x * factor) :=
  scaleBy_append factors [factor] x

theorem keepsDigits_append {factors more : List ℚ} {x : ℚ} (h : KeepsDigits (factors ++ more) x) :
    KeepsDigits factors x := by
  induction factors generalizing x with
  | nil => trivial
  | cons factor rest ih => exact ⟨h.1, ih h.2⟩

theorem le_abs_truncate {v : ℚ} {e : ℤ} (least : money.leastExponent ≤ e) (low : 10 ^ e ≤ |v|) :
    10 ^ e ≤ |truncate v| := by
  rcases le_total 0 v with sign | sign
  · rw [abs_of_nonneg sign] at low
    exact ((representable_zpow least).le_truncate low).trans (le_abs_self _)
  · rw [abs_of_nonpos sign] at low
    rw [← abs_neg, ← truncate_neg]
    exact ((representable_zpow least).le_truncate low).trans (le_abs_self _)

/-- Factors that are not too small keep the digits of what is not too small. -/
theorem keepsDigits_of_le {factors : List ℚ} {x : ℚ} {e d : ℤ} (low : 10 ^ e ≤ |x|)
    (factors_low : ∀ factor ∈ factors, 10 ^ (-d) ≤ |factor|) (nonneg : 0 ≤ d)
    (room : -999999 ≤ e - d * factors.length) : KeepsDigits factors x := by
  induction factors generalizing x e with
  | nil => trivial
  | cons factor rest ih =>
    obtain ⟨first, others⟩ := List.forall_mem_cons.mp factors_low
    rw [List.length_cons] at room
    push_cast at room
    have later : 0 ≤ d * rest.length := by positivity
    have product : (10 : ℚ) ^ (e - d) ≤ |x * factor| := by
      rw [sub_eq_add_neg, zpow_add₀ (by norm_num), abs_mul]
      exact mul_le_mul low first (by positivity) (abs_nonneg x)
    have normal : -999999 ≤ e - d := by linarith
    refine ⟨not_underflows_of_le normal product, ih (e := e - d) ?_ others (by linarith)⟩
    exact le_abs_truncate (le_trans (by decide) normal) product

/-! ## Sums -/

def runningSum (figures : List ℚ) : ℚ := figures.foldl (fun sum x => truncate (sum + x)) 0

theorem runningSum_append_singleton (figures : List ℚ) (x : ℚ) :
    runningSum (figures ++ [x]) = truncate (runningSum figures + x) := by
  simp [runningSum]

theorem runningSum_map_append_singleton {α : Type} (figure : α → ℚ) (done : List α) (a : α) :
    runningSum ((done ++ [a]).map figure) =
      truncate (runningSum (done.map figure) + figure a) := by
  rw [List.map_append, List.map_singleton, runningSum_append_singleton]

theorem representable_runningSum (figures : List ℚ) : Representable (runningSum figures) := by
  induction figures using List.reverseRecOn with
  | nil => exact representable_zero
  | append_singleton before x _ =>
    rw [runningSum_append_singleton]
    exact representable_truncate _

theorem runningSum_mono {figures figures' : List ℚ} (le : List.Forall₂ (· ≤ ·) figures figures') :
    runningSum figures ≤ runningSum figures' := by
  unfold runningSum
  suffices ∀ start start', start ≤ start' →
      figures.foldl (fun sum x => truncate (sum + x)) start ≤
        figures'.foldl (fun sum x => truncate (sum + x)) start' from this 0 0 le_rfl
  induction le with
  | nil => exact fun _ _ start => start
  | cons first _ ih =>
    intro start start' so_far
    exact ih _ _ (truncate_mono (add_le_add so_far first))

section
variable {figures : List ℚ} (nonneg : ∀ x ∈ figures, 0 ≤ x)
include nonneg

theorem runningSum_nonneg : 0 ≤ runningSum figures := by
  induction figures using List.reverseRecOn with
  | nil => exact le_rfl
  | append_singleton before x ih =>
    rw [runningSum_append_singleton]
    have first := ih fun y hy => nonneg y (List.mem_append_left _ hy)
    have last := nonneg x (List.mem_append_right _ (List.mem_singleton_self x))
    exact truncate_nonneg (add_nonneg first last)

theorem runningSum_le_sum : runningSum figures ≤ figures.sum := by
  induction figures using List.reverseRecOn with
  | nil => exact le_rfl
  | append_singleton before x ih =>
    rw [runningSum_append_singleton, List.sum_append, List.sum_singleton]
    have early : ∀ y ∈ before, 0 ≤ y := fun y hy => nonneg y (List.mem_append_left _ hy)
    have last := nonneg x (List.mem_append_right _ (List.mem_singleton_self x))
    exact (truncate_le (add_nonneg (runningSum_nonneg early) last)).trans
      (add_le_add_left (ih early) x)

variable (exact : ∀ x ∈ figures, Representable x)
include exact

theorem le_runningSum {x : ℚ} (h : x ∈ figures) : x ≤ runningSum figures := by
  induction figures using List.reverseRecOn with
  | nil => cases h
  | append_singleton before y ih =>
    have early : ∀ z ∈ before, 0 ≤ z := fun z hz => nonneg z (List.mem_append_left _ hz)
    have last := nonneg y (List.mem_append_right _ (List.mem_singleton_self y))
    rw [runningSum_append_singleton]
    refine (exact x h).le_truncate ?_
    rcases List.mem_append.mp h with first | same
    · have := ih early (fun z hz => exact z (List.mem_append_left _ hz)) first
      linarith
    · have := runningSum_nonneg early
      rw [List.mem_singleton.mp same]
      linarith

/-- Every step loses at most two units of the final sum. -/
theorem sum_le_runningSum :
    figures.sum ≤ runningSum figures * (1 + 2 * figures.length * ulp) := by
  induction figures using List.reverseRecOn with
  | nil => simp [runningSum]
  | append_singleton before x ih =>
    have early : ∀ y ∈ before, 0 ≤ y := fun y hy => nonneg y (List.mem_append_left _ hy)
    have early_exact : ∀ y ∈ before, Representable y :=
      fun y hy => exact y (List.mem_append_left _ hy)
    have last_mem : x ∈ before ++ [x] := List.mem_append_right _ (List.mem_singleton_self x)
    have last := nonneg x last_mem
    have so_far := runningSum_nonneg early
    have grid : OnGrid (runningSum before + x) :=
      (representable_runningSum before).onGrid.add (exact x last_mem).onGrid
    have lost := sub_truncate_le (add_nonneg so_far last) grid.not_underflows
    have kept : runningSum before ≤ truncate (runningSum before + x) :=
      (representable_runningSum before).le_truncate (le_add_of_nonneg_right last)
    have before_le := ih early early_exact
    rw [runningSum_append_singleton, List.sum_append, List.sum_singleton, List.length_append,
      List.length_singleton]
    generalize runningSum before = s at *
    generalize truncate (s + x) = t at *
    -- what the last step loses, against the new sum
    have step : s + x ≤ t * (1 + 2 * ulp) := by
      have factor : 0 ≤ 1 + 2 * ulp := by linarith [ulp_pos]
      have spare : 0 ≤ (s + x) * (ulp * (1 - 2 * ulp)) := by
        refine mul_nonneg (add_nonneg so_far last) (mul_nonneg ulp_pos.le ?_)
        norm_num [ulp]
      linarith [mul_le_mul_of_nonneg_right lost factor]
    have earlier : s * (2 * before.length * ulp) ≤ t * (2 * before.length * ulp) :=
      mul_le_mul_of_nonneg_right kept (mul_nonneg (by positivity) ulp_pos.le)
    push_cast
    linarith

/-- Every step loses at most a unit of the exact sum. -/
theorem sum_sub_runningSum_le :
    figures.sum - runningSum figures ≤ figures.length * ulp * figures.sum := by
  induction figures using List.reverseRecOn with
  | nil => simp [runningSum]
  | append_singleton before x ih =>
    have early : ∀ y ∈ before, 0 ≤ y := fun y hy => nonneg y (List.mem_append_left _ hy)
    have early_exact : ∀ y ∈ before, Representable y :=
      fun y hy => exact y (List.mem_append_left _ hy)
    have last_mem : x ∈ before ++ [x] := List.mem_append_right _ (List.mem_singleton_self x)
    have last := nonneg x last_mem
    have so_far := runningSum_nonneg early
    have below := runningSum_le_sum early
    have grid : OnGrid (runningSum before + x) :=
      (representable_runningSum before).onGrid.add (exact x last_mem).onGrid
    have lost := sub_truncate_le (add_nonneg so_far last) grid.not_underflows
    have before_lost := ih early early_exact
    rw [runningSum_append_singleton, List.sum_append, List.sum_singleton, List.length_append,
      List.length_singleton]
    have step : ulp * (runningSum before + x) ≤ ulp * (before.sum + x) :=
      mul_le_mul_of_nonneg_left (by linarith) ulp_pos.le
    have earlier : 0 ≤ before.length * ulp * x :=
      mul_nonneg (mul_nonneg (Nat.cast_nonneg _) ulp_pos.le) last
    push_cast
    linarith

end

/-! ## One entry changed -/

def Near (n : ℕ) (predicted actual old change : ℚ) : Prop :=
  |predicted - actual| ≤ (4 * n + 40) / 10 ^ 39 * (old + |change|)

/-- The difference of two entries is the change, up to a few units. -/
theorem drift_le {k : ℕ} (few : k ≤ 6) {X Y v v' change total : ℚ} (X_nonneg : 0 ≤ X)
    (hv : Within k v X) (hv' : Within k v' (X + Y)) (hchange : Within k change Y)
    (member : v ≤ total) : |v' - v - change| ≤ 7 * ulp * (total + |change|) := by
  obtain ⟨d, d_low, d_high, rfl⟩ := hv.mono few
  obtain ⟨e, e_low, e_high, rfl⟩ := hv'.mono few
  obtain ⟨g, g_low, g_high, rfl⟩ := hchange.mono few
  rw [ulp_eq] at d_high e_high g_high ⊢
  push_cast at d_high e_high g_high
  have X_le : X * (1 - 6 / 10 ^ 39) ≤ total := by
    have := mul_le_mul_of_nonneg_left d_high X_nonneg
    linarith
  have Y_le : |Y| * (1 - 6 / 10 ^ 39) ≤ |Y * (1 - g)| := by
    rw [abs_mul, abs_of_nonneg (by norm_num at g_high ⊢; linarith : 0 ≤ 1 - g)]
    exact mul_le_mul_of_nonneg_left (by linarith) (abs_nonneg Y)
  have first : |X * (d - e)| ≤ X * (6 / 10 ^ 39) := by
    rw [abs_mul, abs_of_nonneg X_nonneg]
    exact mul_le_mul_of_nonneg_left (abs_le.mpr ⟨by linarith, by linarith⟩) X_nonneg
  have second : |Y * (g - e)| ≤ |Y| * (6 / 10 ^ 39) := by
    rw [abs_mul]
    exact mul_le_mul_of_nonneg_left (abs_le.mpr ⟨by linarith, by linarith⟩) (abs_nonneg Y)
  rw [show (X + Y) * (1 - e) - X * (1 - d) - Y * (1 - g) = X * (d - e) + Y * (g - e) by ring]
  have split := abs_add_le (X * (d - e)) (Y * (g - e))
  have Y_nonneg := abs_nonneg Y
  linarith

theorem change_near {n k : ℕ} (few : k ≤ 6) {X Y v v' change T S T' S' : ℚ} (X_nonneg : 0 ≤ X)
    (hv : Within k v X) (hv' : Within k v' (X + Y)) (hchange : Within k change Y)
    (T_grid : OnGrid T) (change_grid : OnGrid change) (v_nonneg : 0 ≤ v) (member : v ≤ T)
    (T_le : T ≤ S) (S_le : S ≤ T * (1 + 2 * n * ulp)) (T'_le : T' ≤ S')
    (S'_le : S' ≤ T' * (1 + 2 * (n + 1) * ulp)) (T'_nonneg : 0 ≤ T') (swap : S' - S = v' - v) :
    Near n (max (truncate (T + change)) 0) T' T change := by
  have drift := drift_le few X_nonneg hv hv' hchange member
  have size_le : |T + change| ≤ T + |change| := by
    have := abs_add_le T change
    rwa [abs_of_nonneg (v_nonneg.trans member)] at this
  have cut := (T_grid.add change_grid).abs_truncate_sub_le size_le
  have size_nonneg : 0 ≤ T + |change| := (abs_nonneg _).trans size_le
  have change_le := abs_le.mp (le_refl |change|)
  have count_nonneg : (0 : ℚ) ≤ n := n.cast_nonneg
  rw [ulp_eq] at drift cut S_le S'_le
  generalize hsize : T + |change| = size at *
  rw [abs_le] at drift cut
  -- the new sum is short of the old one with the change by what the larger of them lost
  have upper : T' - (T + (v' - v)) ≤ 2 * n * (1 / 10 ^ 39) * size := by
    have : T * (2 * n * (1 / 10 ^ 39)) ≤ size * (2 * n * (1 / 10 ^ 39)) :=
      mul_le_mul_of_nonneg_right (by linarith [abs_nonneg change]) (by positivity)
    linarith
  have lower : T + (v' - v) - T' ≤ 3 * (n + 1) * (1 / 10 ^ 39) * size := by
    rcases le_total (T + (v' - v)) T' with h | h
    · have : 0 ≤ 3 * ((n : ℚ) + 1) * (1 / 10 ^ 39) * size := by positivity
      linarith
    · have T'_size : T' ≤ size * (1 + 7 / 10 ^ 39) := by linarith
      have lost : T' * (2 * (n + 1) * (1 / 10 ^ 39)) ≤
          size * (1 + 7 / 10 ^ 39) * (2 * (n + 1) * (1 / 10 ^ 39)) :=
        mul_le_mul_of_nonneg_right T'_size (by positivity)
      have spare : size * (1 + 7 / 10 ^ 39) * (2 * (n + 1) * (1 / 10 ^ 39)) ≤
          3 * (n + 1) * (1 / 10 ^ 39) * size := by
        have : 0 ≤ size * (n + 1) := by positivity
        linarith
      linarith
  have near : |truncate (T + change) - T'| ≤ (4 * n + 40) / 10 ^ 39 * size := by
    have : 0 ≤ n * size := by positivity
    rw [abs_le]
    constructor <;> linarith
  have clamp := abs_max_sub_max_le_abs (truncate (T + change)) T' 0
  rw [max_eq_left T'_nonneg] at clamp
  unfold Near
  rw [hsize]
  exact clamp.trans near

structure Change (factors : List ℚ) (held c : ℚ) : Prop where
  some : factors ≠ []
  few : factors.length ≤ 6
  nonneg : ∀ factor ∈ factors, 0 ≤ factor
  held_nonneg : 0 ≤ held
  left_nonneg : 0 ≤ held + c
  kept : ∀ x ∈ [held, c, held + c], KeepsDigits factors x

theorem Change.before {factors more : List ℚ} {held c : ℚ} (h : Change (factors ++ more) held c)
    (some : factors ≠ []) : Change factors held c where
  some := some
  few := (List.length_append ▸ Nat.le_add_right _ _).trans h.few
  nonneg := fun factor listed => h.nonneg factor (List.mem_append_left _ listed)
  held_nonneg := h.held_nonneg
  left_nonneg := h.left_nonneg
  kept := fun x listed => keepsDigits_append (h.kept x listed)

namespace Change

variable {factors : List ℚ} {held c : ℚ} (h : Change factors held c)
include h

theorem within {x : ℚ} (listed : x ∈ [held, c, held + c]) :
    Within factors.length (scaleBy factors x) (x * factors.prod) :=
  within_scaleBy (h.few.trans (by norm_num)) (h.kept x listed)

theorem left_within : Within factors.length (scaleBy factors (held + c))
    (held * factors.prod + c * factors.prod) := by
  rw [← add_mul]
  exact h.within (by simp)

theorem held_prod_nonneg : 0 ≤ held * factors.prod :=
  mul_nonneg h.held_nonneg (List.prod_nonneg h.nonneg)

/-- The changed figure itself. -/
theorem near (n : ℕ) : Near n (max (truncate (scaleBy factors held + scaleBy factors c)) 0)
    (scaleBy factors (held + c)) (scaleBy factors held) (scaleBy factors c) := by
  have held_nonneg := scaleBy_nonneg h.nonneg h.held_nonneg
  have left_nonneg := scaleBy_nonneg h.nonneg h.left_nonneg
  have unit := ulp_pos
  refine change_near h.few h.held_prod_nonneg (h.within (by simp)) h.left_within
    (h.within (by simp)) (representable_scaleBy h.some _).onGrid
    (representable_scaleBy h.some _).onGrid held_nonneg le_rfl le_rfl ?_ le_rfl ?_ left_nonneg rfl
  · exact le_mul_of_one_le_right held_nonneg (le_add_of_nonneg_right (by positivity))
  · exact le_mul_of_one_le_right left_nonneg (le_add_of_nonneg_right (by positivity))

/-- The sum of figures of which one changed, or in which one was entered. -/
theorem sum_near {before old after : List ℚ} (one : old.length ≤ 1)
    (was : old.sum = scaleBy factors held)
    (figures : ∀ x ∈ before ++ old ++ after, 0 ≤ x ∧ Representable x) :
    Near (before ++ old ++ after).length
      (max (truncate (runningSum (before ++ old ++ after) + scaleBy factors c)) 0)
      (runningSum (before ++ scaleBy factors (held + c) :: after))
      (runningSum (before ++ old ++ after)) (scaleBy factors c) := by
  have held_nonneg := scaleBy_nonneg h.nonneg h.held_nonneg
  have left_nonneg := scaleBy_nonneg h.nonneg h.left_nonneg
  have nonneg := fun x hx => (figures x hx).1
  have exact := fun x hx => (figures x hx).2
  have changed : ∀ x ∈ before ++ scaleBy factors (held + c) :: after, 0 ≤ x ∧ Representable x := by
    intro x hx
    rcases List.mem_append.mp hx with early | late
    · exact figures x (by simp [early])
    · rcases List.mem_cons.mp late with rfl | late
      · exact ⟨left_nonneg, representable_scaleBy h.some _⟩
      · exact figures x (by simp [late])
  have member : scaleBy factors held ≤ runningSum (before ++ old ++ after) := by
    rw [← was]
    match old, one with
    | [], _ => simpa using runningSum_nonneg nonneg
    | [x], _ =>
      rw [List.sum_singleton]
      exact le_runningSum nonneg exact (by simp)
  have old_lost := sum_le_runningSum nonneg exact
  have new_lost := sum_le_runningSum (fun x hx => (changed x hx).1) fun x hx => (changed x hx).2
  refine change_near h.few h.held_prod_nonneg (h.within (by simp)) h.left_within
    (h.within (by simp)) (representable_runningSum _).onGrid
    (representable_scaleBy h.some _).onGrid held_nonneg member (runningSum_le_sum nonneg) old_lost
    (runningSum_le_sum fun x hx => (changed x hx).1) ?_
    (runningSum_nonneg fun x hx => (changed x hx).1) ?_
  · refine new_lost.trans (mul_le_mul_of_nonneg_left ?_
      (runningSum_nonneg fun x hx => (changed x hx).1))
    have count : (before ++ scaleBy factors (held + c) :: after).length
        ≤ (before ++ old ++ after).length + 1 := by
      simp only [List.length_append, List.length_cons]
      omega
    have count' : ((before ++ scaleBy factors (held + c) :: after).length : ℚ)
        ≤ (before ++ old ++ after).length + 1 := by exact_mod_cast count
    have unit := ulp_pos
    gcongr
  · simp only [List.sum_append, List.sum_cons, was]
    ring

end Change

end Lending.Truncation
