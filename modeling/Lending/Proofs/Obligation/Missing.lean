/-
  Lending.Proofs.Obligation.Missing — accounts that refer to a reserve their market lacks.

  Valuing and projecting meet the reserves of an account in one order, deposits first. So both
  end at the first one that is missing and name it (`value_of_missing`), except that projecting
  one before it may overflow (`valueAsOf_of_missing`). If none is missing, nothing but an overflow
  keeps the rates of an account from being given (`exists_rates_of_listed`).
-/
import Lending.Proofs.Obligation.AsOf

namespace Lending

open Outcome

def Market.UnsignedIndexes (m : Market) : Prop :=
  ∀ r ∈ m.reserves.values, ∀ limb ∈ r.account.liquidity.cumulativeBorrowRateLimbs, 0 ≤ limb

instance (m : Market) : Decidable m.UnsignedIndexes :=
  inferInstanceAs (Decidable (∀ r ∈ m.reserves.values,
    ∀ limb ∈ r.account.liquidity.cumulativeBorrowRateLimbs, 0 ≤ limb))

def ObligationAccount.references (a : ObligationAccount) : List String :=
  a.usedDeposits.map (·.reserve) ++ a.usedBorrows.map (·.reserve)

def Market.lacks (m : Market) (address : String) : Bool := (m.reserveAt? address).isNone

def Market.firstMissing? (m : Market) (a : ObligationAccount) : Option String :=
  a.references.find? m.lacks

/-- Leaving out repetitions, the first entry of a kind is the same. -/
theorem find?_eraseDups (kind : String → Bool) (l : List String) :
    l.eraseDups.find? kind = l.find? kind := by
  match l with
  | [] => rfl
  | x :: rest =>
    rw [List.eraseDups_cons]
    cases here : kind x with
    | true => rw [List.find?_cons_of_pos here, List.find?_cons_of_pos here]
    | false =>
      rw [List.find?_cons_of_neg (by simp [here]), List.find?_cons_of_neg (by simp [here]),
        find?_eraseDups, List.find?_filter]
      congr 1
      funext y
      by_cases same : y = x
      · simp [same, here]
      · simp [same]
termination_by l.length
decreasing_by exact Nat.lt_succ_of_le (List.length_filter_le _ _)

section
variable {m : Market} {a : ObligationAccount} {x : String}

theorem Market.lacks_eq_false_iff : m.lacks x = false ↔ ∃ r, m.reserveAt? x = some r := by
  unfold lacks
  cases m.reserveAt? x <;> simp

theorem Market.reserveAt_of_lacks (lacks : m.lacks x = true) :
    m.reserveAt x = .error (.reserveNotOnMarket x m.address) := by
  unfold reserveAt
  rw [Option.isNone_iff_eq_none.mp lacks]
  rfl

theorem Market.collateralRateAt_of_lacks (lacks : m.lacks x = true) (slot : ℤ) :
    m.collateralRateAt slot x = .error (.reserveNotOnMarket x m.address) := by
  unfold collateralRateAt
  rw [reserveAt_of_lacks lacks]
  rfl

theorem Market.borrowRateAt_of_lacks (lacks : m.lacks x = true) (slot : ℤ) :
    m.borrowRateAt slot x = .error (.reserveNotOnMarket x m.address) := by
  unfold borrowRateAt
  rw [reserveAt_of_lacks lacks]
  rfl

theorem Market.firstMissing?_eq_none_iff :
    m.firstMissing? a = none ↔ ∀ reserve ∈ a.reserves, ∃ r, m.reserveAt? reserve = some r := by
  unfold firstMissing? ObligationAccount.reserves
  rw [List.find?_eq_none]
  simp only [List.mem_eraseDups, Bool.not_eq_true, lacks_eq_false_iff]
  exact Iff.rfl

theorem Market.lacks_of_firstMissing? (missing : m.firstMissing? a = some x) : m.lacks x = true :=
  List.find?_some missing

/-- Whatever its rates, an account is valued up to the first reserve that is missing. -/
theorem Obligation.value_of_missing (missing : m.firstMissing? a = some x) (address : String)
    (cr br : Option RateMap) :
    value m address a cr br = .error (.reserveNotOnMarket x m.address) := by
  have first : a.reserves.find? m.lacks = some x := by
    rw [← missing]
    exact find?_eraseDups _ _
  obtain ⟨g, groups, none | rfl⟩ := mapM_first_error (P := fun _ => False) first
    (Market.reserveAt_of_lacks (Market.lacks_of_firstMissing? missing)) (fun reserve _ there => by
      obtain ⟨r, found⟩ := Market.lacks_eq_false_iff.mp there
      exact .of_eq (ofOption_eq_ok_iff.mpr found))
  · exact none.elim
  · unfold value Market.potentialGroups
    rw [groups]
    rfl

end

/-! ## Rates -/

section
variable {m : Market} (opened : m.Opened) {slot : ℤ} {a : ObligationAccount} {x : String}
include opened

theorem Market.collateralRateAt_overflowOnly (there : m.lacks x = false) :
    (m.collateralRateAt slot x).OverflowOnly := by
  obtain ⟨r, found⟩ := lacks_eq_false_iff.mp there
  obtain ⟨f⟩ := Pool.figures_of_openReserve (opened.openReserve found)
  rw [collateralRateAt_eq found]
  exact Pool.exchangeRateAsOf_overflowOnly f m.referralFeeBps (some slot)

variable (unsigned : m.UnsignedIndexes)
include unsigned

theorem Market.borrowRateAt_overflowOnly (there : m.lacks x = false) :
    (m.borrowRateAt slot x).OverflowOnly := by
  obtain ⟨r, found⟩ := lacks_eq_false_iff.mp there
  obtain ⟨f⟩ := Pool.figures_of_openReserve (opened.openReserve found)
  have limbs := unsigned r (AddressMap.mem_values_of_find? found)
  rw [borrowRateAt_eq found]
  exact Pool.cumulativeBorrowRateAsOf_overflowOnly f limbs (some slot)

theorem Market.ratesFor_overflowOnly (none : m.firstMissing? a = none) :
    (m.ratesFor slot a).OverflowOnly := by
  have there : ∀ x ∈ a.references, m.lacks x = false := fun x listed => by
    simpa using List.find?_eq_none.mp none x listed
  intro fault failed
  refine OverflowOnly.bind (mapM_overflowOnly fun x held => ?_)
    (fun _ _ => mapM_overflowOnly fun x owed => ?_) fault
    ((addRates_eq_error_iff (RateMaps.agrees_empty m slot) a fault).mp failed)
  · exact collateralRateAt_overflowOnly opened (there x (List.mem_append_left _ held))
  · exact borrowRateAt_overflowOnly opened unsigned (there x (List.mem_append_right _ owed))

theorem Market.ratesFor_of_missing (missing : m.firstMissing? a = some x) (slot : ℤ) :
    ∃ g, m.ratesFor slot a = .error g ∧ (g = .overflow ∨ g = .reserveNotOnMarket x m.address) := by
  have lacks := lacks_of_firstMissing? missing
  unfold firstMissing? ObligationAccount.references at missing
  simp only [ratesFor, addRates_eq_error_iff (RateMaps.agrees_empty m slot)]
  rw [List.find?_append] at missing
  cases held : (a.usedDeposits.map (·.reserve)).find? m.lacks with
  | some y =>
    rw [held] at missing
    cases missing
    obtain ⟨g, failed, why⟩ := mapM_first_error held (collateralRateAt_of_lacks lacks slot)
      fun _ _ there => collateralRateAt_overflowOnly opened there
    refine ⟨g, ?_, why⟩
    rw [failed]
    rfl
  | none =>
    rw [held] at missing
    obtain ⟨g, failed, why⟩ := mapM_first_error missing (borrowRateAt_of_lacks lacks slot)
      fun _ _ there => borrowRateAt_overflowOnly opened unsigned there
    cases rated : (a.usedDeposits.map (·.reserve)).mapM (m.collateralRateAt slot) with
    | ok rates => exact ⟨g, failed, why⟩
    | error fault =>
      -- every deposit is there, so this is an overflow
      refine ⟨fault, rfl, .inl (mapM_overflowOnly (fun y listed => ?_) fault rated)⟩
      exact collateralRateAt_overflowOnly opened
        (by simpa using List.find?_eq_none.mp held y listed)

/-! ## As of a point in time -/

variable {address : String} {time : Option ℤ}
  (fits : Obligation.valueAsOf m address a time ≠ .error .overflow)
include fits

theorem Obligation.valueAsOf_of_missing (missing : m.firstMissing? a = some x) :
    valueAsOf m address a time = .error (.reserveNotOnMarket x m.address) := by
  cases time with
  | none => exact value_of_missing missing address none none
  | some slot =>
    obtain ⟨g, rated, why⟩ := Market.ratesFor_of_missing opened unsigned missing slot
    have failed : valueAsOf m address a (some slot) = .error g := by
      show m.ratesFor slot a >>= _ = _
      rw [rated]
      rfl
    rcases why with rfl | rfl
    · exact absurd failed fits
    · exact failed

/-- With all its reserves there, an account has the rates it is valued with. -/
theorem Obligation.exists_rates_of_listed (keyed : m.Keyed) (listed : m.firstMissing? a = none) :
    ∃ cr br, RatesAsOf m a time cr br ∧
      valueAsOf m address a time = value m address a cr br := by
  cases time with
  | none => exact ⟨none, none, ratesAsOf_refresh m a, rfl⟩
  | some slot =>
    have same : valueAsOf m address a (some slot) =
        m.ratesFor slot a >>= fun maps => valueWith m maps address a := rfl
    cases rated : m.ratesFor slot a with
    | ok maps =>
      rw [same, rated]
      exact ⟨_, _, ratesAsOf_slot keyed rated, rfl⟩
    | error fault =>
      cases Market.ratesFor_overflowOnly opened unsigned listed fault rated
      rw [same, rated] at fits
      exact absurd rfl fits

end

end Lending
