/-
  Lending.Proofs.Market.BestGroup — whose debt limit a loan against a collateral is held to.

  A group counts for a loan if both reserves list it and it lends the asset. Going through the
  collateral's list, the best group so far is kept (`Best.skip`, `Best.advance`): of those that
  count the one with the highest loan-to-value, and of equal ones the last (`bestGroup_eq`). A
  group that both list and the market lacks ends the search (`eligibleGroups_of_missing`).

  Groups are numbered from 1 and listed from 0. A number that was found is at least 1, so no
  limit is looked up before the start of a list (`groupRemainder_room`); past the end it may be.
-/
import Lending.Proofs.Market.BorrowLimit
import Lending.Proofs.Reserve.Openable

namespace Lending

open Outcome Truncation

/-! ## Faults of figures -/

namespace Fault

def Arithmetic : Fault → Prop
  | divisionByZero | invalidOperation | overflow | negativeFraction _ | numberTooLong => True
  | _ => False

def AboutGroup : Fault → Prop
  | groupNotConfigured _ _ | groupDowngrade _ => True
  | _ => False

theorem Arithmetic.not_aboutGroup {fault : Fault} (h : fault.Arithmetic) : ¬ fault.AboutGroup := by
  cases fault <;> simp_all [Arithmetic, AboutGroup]

theorem Arithmetic.ne_indexOutOfRange {fault : Fault} (h : fault.Arithmetic) :
    fault ≠ .indexOutOfRange := by
  rintro rfl
  exact h

end Fault

theorem Outcome.OverflowOnly.arithmetic {o : Outcome α} (h : o.OverflowOnly) :
    o.FaultsIn Fault.Arithmetic := h.faultsIn trivial

theorem div_arithmetic (x y : Decimal) : (x / y : Outcome Decimal).FaultsIn Fault.Arithmetic := by
  intro fault failed
  rcases div_faults x y fault failed with rfl | rfl | rfl <;> trivial

theorem ScaledFraction.decode_arithmetic (raw : ℤ) : (decode raw).FaultsIn Fault.Arithmetic := by
  unfold decode
  refine .bind ?_ fun f _ => div_arithmetic _ _
  unfold ofInt
  intro fault failed
  split at failed
  · cases failed
  · split at failed <;> cases failed <;> trivial

namespace Pool

variable (p : Pool)

theorem totalSupply_arithmetic : p.totalSupply.FaultsIn Fault.Arithmetic := by
  have stored := ScaledFraction.decode_arithmetic
  exact (stored _).bind fun _ _ => (add_overflowOnly _ _).arithmetic.bind fun _ _ =>
    (stored _).bind fun _ _ => (sub_overflowOnly _ _).arithmetic.bind fun _ _ =>
    (stored _).bind fun _ _ => (sub_overflowOnly _ _).arithmetic.bind fun _ _ =>
    (stored _).bind fun _ _ => (sub_overflowOnly _ _).arithmetic

theorem utilization_arithmetic : p.utilization.FaultsIn Fault.Arithmetic := by
  refine p.totalSupply_arithmetic.bind fun supply _ => ?_
  split
  · exact .pure _
  · exact (ScaledFraction.decode_arithmetic _).bind fun _ _ => div_arithmetic _ _

theorem netOfBorrowFee_arithmetic (amount : Decimal) :
    (p.netOfBorrowFee amount).FaultsIn Fault.Arithmetic :=
  (ScaledFraction.decode_arithmetic _).bind fun _ _ =>
    (add_overflowOnly _ _).arithmetic.bind fun _ _ =>
    (div_arithmetic _ _).bind fun _ _ =>
    (mul_overflowOnly _ _).arithmetic.bind fun _ _ =>
    (sub_overflowOnly _ _).arithmetic

end Pool

namespace Reserve

theorem lendable_arithmetic (r : Reserve) (slot : ℤ) :
    (r.lendable slot).FaultsIn Fault.Arithmetic :=
  (ScaledFraction.decode_arithmetic _).bind fun _ _ =>
    (sub_overflowOnly _ _).arithmetic.bind fun _ _ =>
    (Pool.withinOutflow_overflowOnly _ _ _ _).arithmetic.bind fun _ _ =>
    r.netOfBorrowFee_arithmetic _

theorem withinCeiling_arithmetic (r : Reserve) (amount : Decimal) :
    (r.withinCeiling amount).FaultsIn Fault.Arithmetic := by
  refine (shareOf_overflowOnly _ (by decide)).arithmetic.bind fun ceiling _ => ?_
  split
  · refine r.utilization_arithmetic.bind fun u _ => ?_
    split
    · exact .pure _
    · exact (sub_overflowOnly _ _).arithmetic.bind fun _ _ =>
        r.totalSupply_arithmetic.bind fun _ _ =>
        (mul_overflowOnly _ _).arithmetic.bind fun _ _ => .pure _
  · exact .pure _

end Reserve

/-! ## The groups that count -/

def Reserve.Counts (r : Reserve) (n : ℤ) : Prop := n ≠ 0 ∧ n ∈ r.elevationGroups

namespace Market

def Numbered (m : Market) : Prop :=
  ∀ (i : ℕ) (g : ElevationGroup), m.account.elevationGroups[i]? = some g → g.id = i + 1

def Configures (m : Market) (n : ℤ) : Prop := 1 ≤ n ∧ n ≤ m.account.elevationGroups.length

/-- A number that a reserve counts as a group, although its market has none of that number. -/
def Lacks (m : Market) (r : Reserve) (n : ℤ) : Prop := r.Counts n ∧ ¬ m.Configures n

instance (m : Market) (r : Reserve) (n : ℤ) : Decidable (m.Lacks r n) :=
  inferInstanceAs (Decidable ((n ≠ 0 ∧ n ∈ r.elevationGroups) ∧
    ¬ (1 ≤ n ∧ n ≤ m.account.elevationGroups.length)))

structure Eligible (m : Market) (r : Reserve) (g : ElevationGroup) : Prop where
  configured : g ∈ m.account.elevationGroups
  counts : r.Counts g.id
  lends : g.debtReserve = r.address

/-- The best of the groups in a list of numbers: of those that count one with the highest
    loan-to-value, at the last place that has one. -/
structure Best (m : Market) (r : Reserve) (listed : List ℤ) (g : ElevationGroup) : Prop where
  eligible : m.Eligible r g
  last : ∃ before after, listed = before ++ g.id :: after ∧
    (∀ g', m.Eligible r g' → g'.id ∈ before → g'.ltvPct ≤ g.ltvPct) ∧
    (∀ g', m.Eligible r g' → g'.id ∈ after → g'.ltvPct < g.ltvPct)

def Selects (m : Market) (r : Reserve) (listed : List ℤ) : Option ElevationGroup → Prop
  | some g => m.Best r listed g
  | none => ∀ g, m.Eligible r g → g.id ∉ listed

variable {m : Market} {r : Reserve} {n : ℤ}

theorem elevationGroup_eq_error_iff {fault : Fault} :
    m.elevationGroup n = .error fault ↔
      ¬ m.Configures n ∧ fault = .groupNotConfigured n m.address := by
  unfold elevationGroup Configures
  split
  · rename_i low
    simp only [ofOption, Except.error.injEq]
    exact ⟨fun h => ⟨by omega, h.symm⟩, fun h => h.2.symm⟩
  · rename_i positive
    cases found : m.account.elevationGroups[(n - 1).toNat]? with
    | none =>
      rw [List.getElem?_eq_none_iff] at found
      simp only [ofOption, Except.error.injEq]
      exact ⟨fun h => ⟨by omega, h.symm⟩, fun h => h.2.symm⟩
    | some g =>
      obtain ⟨inside, -⟩ := List.getElem?_eq_some_iff.mp found
      simp only [ofOption, reduceCtorEq, false_iff, not_and]
      intro missing
      omega

/-- The group of a number is the one that has it. -/
theorem elevationGroup_eq_ok_iff (numbered : m.Numbered) {g : ElevationGroup} :
    m.elevationGroup n = .ok g ↔ g ∈ m.account.elevationGroups ∧ g.id = n := by
  unfold elevationGroup
  rw [ofOption_eq_ok_iff, List.mem_iff_getElem?]
  constructor
  · intro h
    split at h
    · cases h
    · have own := numbered _ g h
      exact ⟨⟨_, h⟩, by omega⟩
  · rintro ⟨⟨i, found⟩, rfl⟩
    have own := numbered i g found
    rw [if_neg (by omega), own]
    simpa using found

section
variable {g g' : ElevationGroup} (numbered : m.Numbered)
include numbered

theorem Eligible.elevationGroup (eligible : m.Eligible r g) : m.elevationGroup g.id = .ok g :=
  (elevationGroup_eq_ok_iff numbered).mpr ⟨eligible.configured, rfl⟩

theorem Eligible.eq_of_id (eligible : m.Eligible r g) (eligible' : m.Eligible r g')
    (same : g.id = g'.id) : g = g' := by
  have found := eligible.elevationGroup numbered
  rw [same, eligible'.elevationGroup numbered] at found
  exact (Except.ok.inj found).symm

theorem Eligible.one_le_id (eligible : m.Eligible r g) : 1 ≤ g.id := by
  by_contra low
  have failed : m.elevationGroup g.id = .error (.groupNotConfigured g.id m.address) :=
    elevationGroup_eq_error_iff.mpr ⟨fun known => low known.1, rfl⟩
  rw [eligible.elevationGroup numbered] at failed
  cases failed

end

theorem isEligible_eq_error_iff {fault : Fault} :
    m.isEligible r n = .error fault ↔
      m.Lacks r n ∧ fault = .groupNotConfigured n m.address := by
  unfold isEligible Lacks Reserve.Counts
  simp only [List.contains_iff_mem]
  split
  · rename_i counts
    rw [← and_assoc.symm, and_iff_right counts, ← elevationGroup_eq_error_iff]
    cases m.elevationGroup n <;> simp [bind, Except.bind, pure, Except.pure]
  · rename_i other
    simp [other, pure, Except.pure]

theorem eligible_of_isEligible (numbered : m.Numbered) {eligible : Bool}
    (h : m.isEligible r n = .ok eligible) :
    (eligible = true ∧ ∃ g, m.Eligible r g ∧ g.id = n) ∨
      (eligible = false ∧ ∀ g, m.Eligible r g → g.id ≠ n) := by
  unfold isEligible at h
  simp only [List.contains_iff_mem] at h
  split at h
  · rename_i counts
    obtain ⟨g, found, same⟩ := bind_eq_ok_iff.mp h
    obtain ⟨configured, rfl⟩ := (elevationGroup_eq_ok_iff numbered).mp found
    cases same
    by_cases lends : g.debtReserve = r.address
    · exact .inl ⟨beq_iff_eq.mpr lends, g, ⟨configured, counts, lends⟩, rfl⟩
    · refine .inr ⟨beq_eq_false_iff_ne.mpr lends, fun g' eligible same => lends ?_⟩
      have found' := eligible.elevationGroup numbered
      rw [same, found] at found'
      cases found'
      exact eligible.lends
  · rename_i other
    cases h
    exact .inr ⟨rfl, fun g eligible same => other (same ▸ eligible.counts)⟩

/-- The first number that the market lacks ends the search. -/
theorem eligibleGroups_of_missing {listed : List ℤ}
    (first : listed.find? (fun k => m.Lacks r k) = some n) :
    m.eligibleGroups r listed = .error (.groupNotConfigured n m.address) := by
  induction listed with
  | nil => cases first
  | cons k rest ih =>
    unfold eligibleGroups
    by_cases missing : m.Lacks r k
    · rw [List.find?_cons_of_pos (by simpa using missing)] at first
      cases first
      rw [isEligible_eq_error_iff.mpr ⟨missing, rfl⟩]
      rfl
    · rw [List.find?_cons_of_neg (by simpa using missing)] at first
      cases known : m.isEligible r k with
      | error fault => exact absurd (isEligible_eq_error_iff.mp known).1 missing
      | ok eligible =>
        rw [ih first]
        rfl

theorem exists_eligibleGroups {listed : List ℤ} (none : ∀ k ∈ listed, ¬ m.Lacks r k) :
    ∃ chosen, m.eligibleGroups r listed = .ok chosen := by
  induction listed with
  | nil => exact ⟨[], rfl⟩
  | cons k rest ih =>
    obtain ⟨others, remaining⟩ := ih fun k' later => none k' (List.mem_cons_of_mem _ later)
    unfold eligibleGroups
    rw [remaining]
    cases known : m.isEligible r k with
    | error fault =>
      exact absurd (isEligible_eq_error_iff.mp known).1 (none k List.mem_cons_self)
    | ok eligible => exact ⟨_, rfl⟩

/-! ## The best of them -/

section
variable {g c : ElevationGroup} {listed : List ℤ}

theorem Best.le (numbered : m.Numbered) (best : m.Best r listed g) (eligible : m.Eligible r c)
    (placed : c.id ∈ listed) : c.ltvPct ≤ g.ltvPct := by
  obtain ⟨own, before, after, rfl, earlier, later⟩ := best
  rcases List.mem_append.mp placed with first | rest
  · exact earlier c eligible first
  rcases List.mem_cons.mp rest with same | last
  · rw [eligible.eq_of_id numbered own same]
  · exact (later c eligible last).le

theorem Best.id_mem (best : m.Best r listed g) : g.id ∈ listed := by
  obtain ⟨-, before, after, rfl, -, -⟩ := best
  exact List.mem_append_right before List.mem_cons_self

/-- A list has one best group: of two that are equally good, one comes later. -/
theorem Best.unique (numbered : m.Numbered) (best : m.Best r listed g)
    (other : m.Best r listed c) : g = c := by
  have worse := best.le numbered other.eligible other.id_mem
  have better := other.le numbered best.eligible best.id_mem
  obtain ⟨own, before, after, rfl, -, later⟩ := best
  obtain ⟨own', before', after', placed, -, later'⟩ := other
  obtain ⟨between, -, rest⟩ | ⟨between, -, rest⟩ := List.append_eq_append_iff.mp placed
  · rcases List.cons_eq_append_iff.mp rest with ⟨-, same⟩ | ⟨between, -, rfl⟩
    · exact own.eq_of_id numbered own' (List.cons.inj same).1.symm
    · exact absurd better (later c own' (by simp)).not_ge
  · rcases List.cons_eq_append_iff.mp rest with ⟨-, same⟩ | ⟨between, -, rfl⟩
    · exact own.eq_of_id numbered own' (List.cons.inj same).1
    · exact absurd worse (later' g own (by simp)).not_ge

theorem Best.skip (best : m.Best r listed g) (other : ∀ g', m.Eligible r g' → g'.id ≠ n) :
    m.Best r (listed ++ [n]) g := by
  obtain ⟨eligible, before, after, rfl, earlier, later⟩ := best
  refine ⟨eligible, before, after ++ [n], by simp, earlier, fun g' counts placed => ?_⟩
  rcases List.mem_append.mp placed with old | new
  · exact later g' counts old
  · exact absurd (List.mem_singleton.mp new) (other g' counts)

theorem Best.advance (numbered : m.Numbered) (best : m.Best r listed g)
    (eligible : m.Eligible r c) :
    m.Best r (listed ++ [c.id]) (if g.ltvPct ≤ c.ltvPct then c else g) := by
  split
  · rename_i better
    refine ⟨eligible, listed, [], rfl, fun g' counts placed => ?_, fun _ _ placed => ?_⟩
    · exact (best.le numbered counts placed).trans better
    · cases placed
  · rename_i worse
    obtain ⟨own, before, after, rfl, earlier, later⟩ := best
    refine ⟨own, before, after ++ [c.id], by simp, earlier, fun g' counts placed => ?_⟩
    rcases List.mem_append.mp placed with old | new
    · exact later g' counts old
    · rw [counts.eq_of_id numbered eligible (List.mem_singleton.mp new)]
      exact not_le.mp worse

theorem best_of_first (none : m.Selects r listed none) (eligible : m.Eligible r c) :
    m.Best r (listed ++ [c.id]) c := by
  refine ⟨eligible, listed, [], rfl, fun g' counts placed => ?_, fun _ _ placed => ?_⟩
  · exact absurd placed (none g' counts)
  · cases placed

/-- Going on through the list, the best so far becomes the best of all. -/
theorem bestGroup_eq (numbered : m.Numbered) {rest chosen : List ℤ} (best : m.Best r listed g)
    (h : m.eligibleGroups r rest = .ok chosen) :
    ∃ g', m.bestGroup g chosen = .ok g' ∧ m.Best r (listed ++ rest) g' := by
  induction rest generalizing listed g chosen with
  | nil =>
    cases h
    exact ⟨g, rfl, by rwa [List.append_nil]⟩
  | cons k rest ih =>
    unfold eligibleGroups at h
    obtain ⟨eligible, known, h⟩ := bind_eq_ok_iff.mp h
    obtain ⟨others, remaining, h⟩ := bind_eq_ok_iff.mp h
    cases h
    rw [List.append_cons]
    obtain ⟨rfl, c, counts, rfl⟩ | ⟨rfl, other⟩ := eligible_of_isEligible numbered known
    · obtain ⟨g', run, final⟩ := ih (best.advance numbered counts) remaining
      refine ⟨g', ?_, final⟩
      rw [if_pos rfl]
      unfold bestGroup
      rw [counts.elevationGroup numbered]
      exact run
    · exact ih (best.skip other) remaining

def groupNumber (best : Option ElevationGroup) : ℤ := best.elim 0 (·.id)

/-- Up to the first group that counts there is none, from it on the best so far. -/
theorem selects_of_eligibleGroups (numbered : m.Numbered) {rest chosen : List ℤ}
    (none : m.Selects r listed none) (h : m.eligibleGroups r rest = .ok chosen) :
    (chosen = [] ∧ m.Selects r (listed ++ rest) Option.none) ∨
      ∃ c others g, chosen = c.id :: others ∧ m.Eligible r c ∧ m.bestGroup c others = .ok g ∧
        m.Best r (listed ++ rest) g := by
  induction rest generalizing listed chosen with
  | nil =>
    cases h
    exact .inl ⟨rfl, by rwa [List.append_nil]⟩
  | cons k rest ih =>
    unfold eligibleGroups at h
    obtain ⟨eligible, known, h⟩ := bind_eq_ok_iff.mp h
    obtain ⟨others, remaining, h⟩ := bind_eq_ok_iff.mp h
    cases h
    rw [List.append_cons]
    obtain ⟨rfl, c, counts, rfl⟩ | ⟨rfl, other⟩ := eligible_of_isEligible numbered known
    · obtain ⟨g, run, final⟩ := bestGroup_eq numbered (best_of_first none counts) remaining
      exact .inr ⟨c, others, g, rfl, counts, run, final⟩
    · refine ih (fun g' counts placed => ?_) remaining
      rcases List.mem_append.mp placed with old | new
      · exact none g' counts old
      · exact other g' counts (List.mem_singleton.mp new)

end

/-- The best group of the collateral's list is found, unless the market lacks one in it. -/
theorem bestGroupFor_eq (numbered : m.Numbered) {collateral : Reserve}
    (known : ∀ k ∈ collateral.elevationGroups, ¬ m.Lacks r k) :
    ∃ best, m.Selects r collateral.elevationGroups best ∧
      m.bestGroupFor r collateral = .ok (groupNumber best) := by
  obtain ⟨chosen, found⟩ := exists_eligibleGroups known
  unfold bestGroupFor
  rw [found]
  have start : m.Selects r [] none := fun _ _ placed => nomatch placed
  obtain ⟨rfl, none⟩ | ⟨c, others, g, rfl, counts, run, best⟩ :=
    selects_of_eligibleGroups numbered start found
  · exact ⟨.none, none, rfl⟩
  · refine ⟨some g, best, ?_⟩
    show (do pure (← m.bestGroup (← m.elevationGroup c.id) others).id) = (.ok g.id : Outcome ℤ)
    rw [counts.elevationGroup numbered]
    show m.bestGroup c others >>= _ = _
    rw [run]
    rfl

end Market

/-! ## Its debt limit -/

namespace Reserve

/-- What the limits outside and inside of groups leave for a loan in the best group. A group
    has its place in the lists from its number, counted from 1. -/
inductive Room (r : Reserve) : Option ElevationGroup → ℚ → Prop where
  | outside :
    r.Room none (truncate (r.config.borrowLimitOutsideGroups - r.account.borrowedOutsideGroups))
  | inside {g : ElevationGroup} {limit borrowed : ℤ} (first : 1 ≤ g.id)
      (given : r.config.groupBorrowLimits[(g.id - 1).toNat]? = some limit)
      (counted : r.account.groupBorrowed[(g.id - 1).toNat]? = some borrowed) :
      r.Room (some g) (max 0 (min (limit - borrowed) maxWord))

def Unlisted (r : Reserve) (g : ElevationGroup) : Prop :=
  r.config.groupBorrowLimits.length < g.id ∨ r.account.groupBorrowed.length < g.id

structure StoresLimits (r : Reserve) : Prop where
  limits : ∀ n ∈ r.config.groupBorrowLimits, IsWord n
  borrowed : ∀ n ∈ r.account.groupBorrowed, IsWord n
  limitOutside : IsWord r.config.borrowLimitOutsideGroups
  borrowedOutside : IsWord r.account.borrowedOutsideGroups

/-- A whole number between 0 and a word is not cut, so what is cut is not seen there. -/
theorem clamp_truncate (n : ℤ) :
    max 0 (min (truncate n) maxWord) = max 0 (min (n : ℚ) maxWord) := by
  have word_exact : Representable (maxWord : ℚ) := representable_intCast (by decide)
  rcases le_total (n : ℚ) 0 with owed | left
  · have cut : truncate n ≤ 0 := by
      rw [← truncate_zero]
      exact truncate_mono owed
    rw [max_eq_left ((min_le_left _ _).trans cut), max_eq_left ((min_le_left _ _).trans owed)]
  rcases le_total (n : ℚ) maxWord with fits | above
  · have small : |n| < 10 ^ 40 := by
      rw [abs_of_nonneg (by exact_mod_cast left)]
      exact (show n ≤ maxWord by exact_mod_cast fits).trans_lt (by decide)
    rw [(representable_intCast small).truncate_eq]
  · rw [min_eq_right above, min_eq_right (word_exact.le_truncate above)]

theorem groupEntry_of_nonneg {entries : List ℤ} {i : ℤ} (nonneg : 0 ≤ i) :
    groupEntry entries i = ofOption .indexOutOfRange entries[i.toNat]? := by
  unfold groupEntry
  rw [if_neg nonneg.not_gt]
  exact if_neg nonneg.not_gt

theorem groupEntry_eq_error {entries : List ℤ} {n : ℤ} (first : 1 ≤ n) {fault : Fault}
    (h : groupEntry entries (n - 1) = .error fault) :
    fault = .indexOutOfRange ∧ entries.length < n := by
  rw [groupEntry_of_nonneg (by omega)] at h
  cases found : entries[(n - 1).toNat]? with
  | none =>
    rw [found] at h
    cases h
    rw [List.getElem?_eq_none_iff] at found
    exact ⟨rfl, by omega⟩
  | some entry =>
    rw [found] at h
    cases h

section
variable {r : Reserve} {m : Market} {listed : List ℤ} {best : Option ElevationGroup}

open Market

theorem groupRemainder_inside {g : ElevationGroup} (counts : r.Counts g.id) :
    r.groupRemainder (groupNumber (some g)) = (do
      let limit ← r.groupBorrowLimit (g.id - 1)
      let borrowed ← r.groupBorrowed (g.id - 1)
      pure (max 0 (min (← limit - borrowed) (Decimal.ofInt maxWord)))) :=
  if_pos ⟨counts.1, List.contains_iff_mem.mpr counts.2⟩

theorem groupRemainder_outside :
    r.groupRemainder (groupNumber none) = r.borrowLimitOutsideGroups - r.borrowedOutsideGroups :=
  if_neg fun h => h.1 rfl

theorem groupRemainder_room (numbered : m.Numbered) (selected : m.Selects r listed best)
    {room : Decimal} (h : r.groupRemainder (groupNumber best) = .ok room) :
    r.Room best room.toRat := by
  cases best with
  | none =>
    rw [groupRemainder_outside] at h
    rw [sub_value h, Pool.borrowLimitOutsideGroups, Pool.borrowedOutsideGroups,
      Decimal.toRat_ofInt, Decimal.toRat_ofInt]
    exact .outside
  | some g =>
    have first := selected.eligible.one_le_id numbered
    rw [groupRemainder_inside selected.eligible.counts] at h
    unfold Pool.groupBorrowLimit Pool.groupBorrowed at h
    simp only [groupEntry_of_nonneg (show 0 ≤ g.id - 1 by omega), bind_eq_ok_iff,
      ofOption_eq_ok_iff] at h
    obtain ⟨_, ⟨limit, given, ⟨⟩⟩, _, ⟨borrowed, counted, ⟨⟩⟩, left, hleft, h⟩ := h
    cases h
    rw [Decimal.toRat_max, Decimal.toRat_min, Decimal.toRat_zero, Decimal.toRat_ofInt,
      sub_value hleft, Decimal.toRat_ofInt, Decimal.toRat_ofInt, ← Int.cast_sub, clamp_truncate,
      Int.cast_sub]
    exact .inside first given counted

theorem exists_groupRemainder (stored : r.StoresLimits) (selected : m.Selects r listed best)
    {room : ℚ} (there : r.Room best room) :
    ∃ y, r.groupRemainder (groupNumber best) = .ok y := by
  have below {x y : ℤ} (hx : IsWord x) (hy : IsWord y) :
      ∃ z, (Decimal.ofInt x - Decimal.ofInt y : Outcome Decimal) = .ok z := by
    have size : |(Decimal.ofInt x).toRat| ≤ (1 : ℕ) * wordLimit := by
      rw [Nat.cast_one, one_mul]
      exact hx.size
    obtain ⟨z, hz, -⟩ := exists_sub_word (by decide) size hy.size
    exact ⟨z, hz⟩
  cases there with
  | outside =>
    rw [groupRemainder_outside]
    exact below stored.limitOutside stored.borrowedOutside
  | inside first given counted =>
    obtain ⟨left, hleft⟩ :=
      below (stored.limits _ (List.mem_of_getElem? given))
        (stored.borrowed _ (List.mem_of_getElem? counted))
    rw [groupRemainder_inside selected.eligible.counts]
    unfold Pool.groupBorrowLimit Pool.groupBorrowed
    rw [groupEntry_of_nonneg (by omega), groupEntry_of_nonneg (by omega), given, counted]
    simp only [bind_eq_ok_iff]
    exact ⟨_, _, ⟨_, rfl, rfl⟩, _, ⟨_, rfl, rfl⟩, left, hleft, rfl⟩

/-- What is left for a group fails to be given for want of an entry, or by an overflow. -/
theorem groupRemainder_faults (numbered : m.Numbered) (selected : m.Selects r listed best) :
    (r.groupRemainder (groupNumber best)).FaultsIn fun fault =>
      fault.Arithmetic ∨ fault = .indexOutOfRange ∧ ∃ g, best = some g ∧ r.Unlisted g := by
  cases best with
  | none =>
    rw [groupRemainder_outside]
    exact (sub_overflowOnly _ _).faultsIn (.inl trivial)
  | some g =>
    have first := selected.eligible.one_le_id numbered
    rw [groupRemainder_inside selected.eligible.counts]
    refine .bind ?_ fun _ _ => .bind ?_ fun _ _ =>
      ((sub_overflowOnly _ _).faultsIn (.inl trivial)).bind fun _ _ => .pure _
    · refine .bind (fun fault failed => ?_) fun _ _ => .pure _
      obtain ⟨rfl, past⟩ := groupEntry_eq_error first failed
      exact .inr ⟨rfl, g, rfl, .inl past⟩
    · refine .bind (fun fault failed => ?_) fun _ _ => .pure _
      obtain ⟨rfl, past⟩ := groupEntry_eq_error first failed
      exact .inr ⟨rfl, g, rfl, .inr past⟩

end

/-! ## Loans against a collateral -/

structure CutTo (r : Reserve) (m : Market) (collateral : Reserve) (slot : ℤ)
    (best : Option ElevationGroup) : Prop where
  /-- Places in the lists of limits are counted from the front. -/
  first : ∀ g, best = some g → 1 ≤ g.id
  /-- Above the utilization ceiling the group makes no difference. -/
  exceeded : ∀ lent, r.lendable slot = .ok lent → r.withinCeiling lent = .ok none →
    r.maxBorrowAgainst m collateral slot = .ok 0
  value : ∀ lent amount x, r.lendable slot = .ok lent →
    r.withinCeiling lent = .ok (some amount) → r.maxBorrowAgainst m collateral slot = .ok x →
    ∃ room, r.Room best room ∧ x.toRat = max 0 (min amount.toRat room)
  given : r.StoresLimits → ∀ lent amount room, r.lendable slot = .ok lent →
    r.withinCeiling lent = .ok (some amount) → r.Room best room →
    ∃ x, r.maxBorrowAgainst m collateral slot = .ok x
  unlisted : r.maxBorrowAgainst m collateral slot = .error .indexOutOfRange →
    ∃ g, best = some g ∧ r.Unlisted g

/-- A loan against a collateral is held to the debt limit of the best group. -/
structure HeldToBest (r : Reserve) (m : Market) (collateral : Reserve) (slot : ℤ) : Prop where
  /-- It is refused for a group that the market lacks, and names the first of them. -/
  refused : ∀ fault : Fault, fault.AboutGroup →
    (r.maxBorrowAgainst m collateral slot = .error fault ↔
      ∃ n, collateral.elevationGroups.find? (fun k => m.Lacks r k) = some n ∧
        fault = .groupNotConfigured n m.address)
  refused_iff :
    (∃ fault : Fault, fault.AboutGroup ∧ r.maxBorrowAgainst m collateral slot = .error fault) ↔
      ∃ n ∈ collateral.elevationGroups, n ≠ 0 ∧ n ∈ r.elevationGroups ∧
        ¬ (1 ≤ n ∧ n ≤ m.account.elevationGroups.length)
  cut : (∀ n ∈ collateral.elevationGroups, ¬ m.Lacks r n) →
    ∃ best, m.Selects r collateral.elevationGroups best ∧ r.CutTo m collateral slot best

section
variable {r : Reserve} {m : Market} {collateral : Reserve} {best : Option ElevationGroup}
  {slot : ℤ}

theorem maxBorrowAgainst_of_missing {n : ℤ}
    (missing : collateral.elevationGroups.find? (fun k => m.Lacks r k) = some n) :
    r.maxBorrowAgainst m collateral slot = .error (.groupNotConfigured n m.address) := by
  unfold maxBorrowAgainst Market.bestGroupFor
  rw [Market.eligibleGroups_of_missing missing]
  rfl

/-- Once the group is known, what is left is arithmetic and a look at the lists. -/
theorem maxBorrowAgainst_faults (numbered : m.Numbered)
    (selected : m.Selects r collateral.elevationGroups best)
    (found : m.bestGroupFor r collateral = .ok (Market.groupNumber best)) :
    (r.maxBorrowAgainst m collateral slot).FaultsIn fun fault =>
      fault.Arithmetic ∨ fault = .indexOutOfRange ∧ ∃ g, best = some g ∧ r.Unlisted g := by
  have arithmetic {α : Type} {o : Outcome α} (h : o.FaultsIn Fault.Arithmetic) :
      o.FaultsIn fun fault =>
        fault.Arithmetic ∨ fault = .indexOutOfRange ∧ ∃ g, best = some g ∧ r.Unlisted g :=
    fun fault failed => .inl (h fault failed)
  unfold maxBorrowAgainst
  refine .bind (.of_eq found) fun group same => ?_
  cases found.symm.trans same
  refine (arithmetic (r.lendable_arithmetic slot)).bind fun lent _ => ?_
  refine (arithmetic (r.withinCeiling_arithmetic lent)).bind fun kept _ => ?_
  cases kept with
  | none => exact .pure _
  | some amount => exact (groupRemainder_faults numbered selected).bind fun _ _ => .pure _

theorem maxBorrowAgainst_eq {group : ℤ} {lent : Decimal} {kept : Option Decimal}
    (found : m.bestGroupFor r collateral = .ok group) (lends : r.lendable slot = .ok lent)
    (within : r.withinCeiling lent = .ok kept) :
    r.maxBorrowAgainst m collateral slot =
      kept.elim (pure 0) (fun amount => do
        pure (max 0 (min amount (← r.groupRemainder group)))) := by
  unfold maxBorrowAgainst
  rw [found]
  show r.lendable slot >>= _ = _
  rw [lends]
  show r.withinCeiling lent >>= _ = _
  rw [within]
  cases kept <;> rfl

theorem cutTo_of_selects (numbered : m.Numbered)
    (selected : m.Selects r collateral.elevationGroups best)
    (found : m.bestGroupFor r collateral = .ok (Market.groupNumber best)) :
    r.CutTo m collateral slot best where
  first := by
    rintro g rfl
    exact selected.eligible.one_le_id numbered
  exceeded lent lends within := maxBorrowAgainst_eq found lends within
  value lent amount x lends within h := by
    rw [maxBorrowAgainst_eq found lends within] at h
    obtain ⟨room, left, h⟩ := bind_eq_ok_iff.mp h
    cases h
    refine ⟨_, groupRemainder_room numbered selected left, ?_⟩
    rw [Decimal.toRat_max, Decimal.toRat_min, Decimal.toRat_zero]
  given stored lent amount room lends within there := by
    obtain ⟨left, hleft⟩ := exists_groupRemainder stored selected there
    refine ⟨max 0 (min amount left), ?_⟩
    rw [maxBorrowAgainst_eq found lends within]
    exact bind_eq_ok_iff.mpr ⟨left, hleft, rfl⟩
  unlisted failed := by
    obtain arithmetic | ⟨-, past⟩ := maxBorrowAgainst_faults numbered selected found _ failed
    · exact absurd rfl arithmetic.ne_indexOutOfRange
    · exact past

/-- The debt limit that a loan is held to is that of the best group both reserves list. -/
theorem maxBorrowAgainst_heldToBest (numbered : m.Numbered) (collateral : Reserve) (slot : ℤ) :
    r.HeldToBest m collateral slot := by
  have refused (fault : Fault) (about : fault.AboutGroup) :
      r.maxBorrowAgainst m collateral slot = .error fault ↔
        ∃ n, collateral.elevationGroups.find? (fun k => m.Lacks r k) = some n ∧
          fault = .groupNotConfigured n m.address := by
    cases missing : collateral.elevationGroups.find? (fun k => m.Lacks r k) with
    | some n =>
      rw [maxBorrowAgainst_of_missing missing, Except.error.injEq, eq_comm]
      simp
    | none =>
      have known : ∀ k ∈ collateral.elevationGroups, ¬ m.Lacks r k := by
        simpa using List.find?_eq_none.mp missing
      obtain ⟨best, selected, found⟩ := Market.bestGroupFor_eq numbered known
      simp only [reduceCtorEq, false_and, exists_false, iff_false]
      intro failed
      obtain arithmetic | ⟨rfl, -⟩ := maxBorrowAgainst_faults numbered selected found _ failed
      · exact arithmetic.not_aboutGroup about
      · exact about
  refine ⟨refused, ?_, fun known => ?_⟩
  · constructor
    · rintro ⟨fault, about, failed⟩
      obtain ⟨n, first, -⟩ := (refused fault about).mp failed
      obtain ⟨⟨nonzero, listed⟩, unknown⟩ : m.Lacks r n := by simpa using List.find?_some first
      exact ⟨n, List.mem_of_find?_eq_some first, nonzero, listed, unknown⟩
    · rintro ⟨n, listed, nonzero, own, unknown⟩
      have lacks : m.Lacks r n := ⟨⟨nonzero, own⟩, unknown⟩
      obtain ⟨k, first⟩ := Option.isSome_iff_exists.mp
        (List.find?_isSome (p := fun k => m.Lacks r k) |>.mpr ⟨n, listed, decide_eq_true lacks⟩)
      exact ⟨.groupNotConfigured k m.address, trivial, maxBorrowAgainst_of_missing first⟩
  · obtain ⟨best, selected, found⟩ := Market.bestGroupFor_eq numbered known
    exact ⟨best, selected, cutTo_of_selects numbered selected found⟩

end

end Reserve

namespace Sample

/-- A reserve in three groups, with the same debt limits outside of groups and in each. -/
def grouped : Reserve :=
  let r := idle "debt" "coin" 0 1
  { r with account := { r.account with
      config := { r.account.config with
        elevationGroups := [1, 2, 3], groupBorrowLimits := [100, 300, 500],
        borrowLimitOutsideGroups := 50 },
      groupBorrowed := [0, 50, 0] } }

/-- A collateral that lists groups more than once, no group, and one that only it counts. -/
def groupCollateral : Reserve :=
  let r := idle "collateral" "metal" 0 1
  { r with account := { r.account with
      config := { r.account.config with elevationGroups := [0, 3, 7, 1, 2, 2, 1] } } }

def numberedMarket : Market where
  address := "market"
  account := { elevationGroups := [
    { id := 1, ltvPct := 80, liquidationThresholdPct := 85, debtReserve := "debt" },
    { id := 2, ltvPct := 90, liquidationThresholdPct := 92, debtReserve := "debt" },
    { id := 3, ltvPct := 90, liquidationThresholdPct := 92, debtReserve := "debt" }] }
  reserves := ⟨[("debt", grouped), ("collateral", groupCollateral)]⟩

end Sample

namespace Reserve

open Sample in
/-- Groups 2 and 3 are equally good; the collateral lists 2 later, which leaves 250. -/
theorem maxBorrowAgainst_heldToBest_sample :
    numberedMarket.Numbered ∧ grouped.HeldToBest numberedMarket groupCollateral 0 ∧
      grouped.maxBorrowAgainst numberedMarket groupCollateral 0 = .ok (Decimal.ofInt 250) := by
  have numbered : numberedMarket.Numbered := by
    intro i g listed
    match i with
    | 0 | 1 | 2 => cases listed; rfl
    | _ + 3 => cases listed
  exact ⟨numbered, maxBorrowAgainst_heldToBest numbered groupCollateral 0, by decide +kernel⟩

end Reserve

end Lending
