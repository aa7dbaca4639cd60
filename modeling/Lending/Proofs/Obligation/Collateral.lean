/-
  Lending.Proofs.Obligation.Collateral — what all holders of collateral tokens have in a reserve.

  A deposit is its collateral tokens over the exchange rate, which itself is the tokens issued
  over the supply, cut. So the rate is too low by a unit at most and every holding too high by
  as much, before it is cut as well. Together the holders of all tokens issued have the supply,
  up to two units, however many they are (`holders_share_supply`). That needs a rate that keeps
  its digits: of a supply of a million digits a holder of the last token has too much
  (`last_share_exceeds_supply`), and of as many tokens the holders of one each have too little
  (`scattered_shares_miss_supply`).
-/
import Lending.Proofs.Obligation.AsOf
import Lending.Proofs.Obligation.SlotChange

namespace Lending

open Outcome Truncation

def ObligationAccount.collateralIn (a : ObligationAccount) (address : String) : ℤ :=
  ((a.usedDeposits.filter (·.reserve = address)).map (·.depositedAmount)).sum

def Obligation.suppliedIn (o : Obligation) (address : String) : ℚ :=
  ((o.deposits.find? address).map (·.amount.toRat)).getD 0

/-! ## One holder -/

theorem find?_positionMap_eq (positions : List Position) (address : String) :
    (positionMap positions).find? address =
      (positions.filter (·.reserve = address)).getLast? := by
  unfold positionMap
  rw [AddressMap.find?_ofList, List.filter_map, List.getLast?_map, Option.map_map]
  exact Option.map_id'

section
variable {m : Market} {a : ObligationAccount} {address : String} {cr br : Option RateMap}
  {time : Option ℤ} {o : Obligation} {r : Reserve} {rate : Decimal}

theorem PlacedIn.filter {σ τ : Type} {reserve : σ → String} {f : σ → Outcome (τ × Position)}
    {slots : List σ} {vs : List (τ × Position)} (keyed : m.Keyed) (placed : PlacedIn m reserve f)
    (valued : slots.mapM f = .ok vs) (address : String) :
    List.Forall₂ (fun s v => f s = .ok v) (slots.filter (reserve · = address))
      (vs.filter (·.2.reserve = address)) := by
  refine List.rel_filter (fun s v h => ?_) (mapM_eq_ok_iff.mp valued)
  show decide _ = true ↔ decide _ = true
  rw [placed.reserve_eq keyed h]

/-- Of one slot at most, the position is the tokens held over the rate. -/
theorem Obligation.suppliedIn_eq (keyed : m.Keyed) (rates : RatesAsOf m a time cr br)
    (valued : value m address a cr br = .ok o) (found : m.reserveAt? r.address = some r)
    (once : (a.usedDeposits.filter (·.reserve = r.address)).length ≤ 1)
    (rated : r.exchangeRateAsOf m.referralFeeBps time = .ok rate) :
    o.suppliedIn r.address = truncate (a.collateralIn r.address * rate.toRat⁻¹) := by
  obtain ⟨-, ds, bs, hds, -, sums⟩ := value_sums valued
  have here := (placedIn_collateral m a.elevationGroup cr).filter keyed hds r.address
  unfold suppliedIn ObligationAccount.collateralIn
  rw [sums.deposits, find?_positionMap_eq, List.filter_map]
  show ((((ds.filter (·.2.reserve = r.address)).map (·.2)).getLast?).map _).getD 0 = _
  cases held : a.usedDeposits.filter (·.reserve = r.address) with
  | nil =>
    rw [held] at here
    rw [List.forall₂_nil_left_iff.mp here]
    simp
  | cons s rest =>
    rw [held] at here once
    obtain rfl : rest = [] := by simpa using once
    obtain ⟨v, others, first, none, split⟩ := List.forall₂_cons_left_iff.mp here
    cases none
    have used : s ∈ a.usedDeposits.filter (·.reserve = r.address) := by simp [held]
    obtain ⟨used, there⟩ := List.mem_filter.mp used
    have own : m.reserveAt? s.reserve = some r := by rwa [of_decide_eq_true there]
    obtain ⟨r', ownRate, factor, worth⟩ := s.worth first
    cases own.symm.trans worth.reserveAt
    have same := (rates.collateral s used r own).symm.trans worth.rate_eq
    cases rated.symm.trans same
    rw [split]
    show v.2.amount.toRat = _
    rw [worth.amount, List.map_singleton, List.sum_singleton]
    rfl

end

/-! ## The rate -/

/-- Collateral tokens per base unit, before they are cut to a rate. -/
def Pool.issuedPerUnit (p : Pool) (supply : Decimal) : ℚ :=
  p.account.collateral.totalSupply / supply.toRat

section
variable {p : Pool} {supply rate : Decimal} (issued_pos : 0 < p.account.collateral.totalSupply)
  (supply_pos : 0 < supply.toRat) (given : p.exchangeRateFor supply = .ok rate)
include issued_pos supply_pos

theorem Pool.issuedPerUnit_pos : 0 < p.issuedPerUnit supply :=
  div_pos (by exact_mod_cast issued_pos) supply_pos

include given

theorem Pool.rate_value : rate.toRat = truncate (p.issuedPerUnit supply) := by
  rw [exchangeRateFor_eq issued_pos.ne' supply_pos.ne'] at given
  rw [(div_value given).2, Decimal.toRat_ofInt]
  rfl

theorem Pool.rate_le : rate.toRat ≤ p.issuedPerUnit supply := by
  rw [rate_value issued_pos supply_pos given]
  exact truncate_le (issuedPerUnit_pos issued_pos supply_pos).le

/-- All tokens over a rate that was cut are the supply or more. -/
theorem Pool.supply_le_issued (rate_pos : 0 < rate.toRat) :
    supply.toRat ≤ p.account.collateral.totalSupply * rate.toRat⁻¹ := by
  have cut := rate_le issued_pos supply_pos given
  unfold issuedPerUnit at cut
  rw [le_div_iff₀ supply_pos] at cut
  rw [← div_eq_mul_inv, le_div_iff₀ rate_pos]
  linarith

/-- They are a unit more at most if the rate has all its digits. -/
theorem Pool.issued_le_supply (rate_pos : 0 < rate.toRat)
    (low : 10 ^ (-999999 : ℤ) ≤ p.issuedPerUnit supply) :
    (1 - ulp) * (p.account.collateral.totalSupply * rate.toRat⁻¹) ≤ supply.toRat := by
  have near := sub_truncate_le (issuedPerUnit_pos issued_pos supply_pos).le
    (not_underflows_of_le le_rfl (low.trans (le_abs_self _)))
  rw [← rate_value issued_pos supply_pos given] at near
  have kept : (1 - ulp) * p.issuedPerUnit supply ≤ rate.toRat := by linarith
  unfold issuedPerUnit at kept
  rw [mul_div_assoc', div_le_iff₀ supply_pos] at kept
  rw [← div_eq_mul_inv, mul_div_assoc', div_le_iff₀ rate_pos]
  linarith

end

/-! ## All holders -/

theorem ObligationAccount.collateralIn_nonneg {a : ObligationAccount}
    (unsigned : ∀ s ∈ a.usedDeposits, 0 ≤ s.depositedAmount) (address : String) :
    0 ≤ a.collateralIn address := by
  refine List.sum_nonneg fun n listed => ?_
  obtain ⟨s, here, rfl⟩ := List.mem_map.mp listed
  exact unsigned s (List.mem_of_mem_filter here)

theorem holders_listed {m : Market} {time : Option ℤ}
    {accounts : List (String × ObligationAccount)} {os : List Obligation}
    (valued : accounts.mapM (fun a => Obligation.valueAsOf m a.1 a.2 time) = .ok os) :
    List.Forall₂ (fun o a => a ∈ accounts ∧ Obligation.valueAsOf m a.1 a.2 time = .ok o) os
      accounts :=
  ((List.forall₂_and_left _ _).mpr
    ⟨fun _ listed => listed, mapM_eq_ok_iff.mp valued⟩).flip

section
variable {m : Market} (keyed : m.Keyed) {r : Reserve} (found : m.reserveAt? r.address = some r)
  {time : Option ℤ} {rate : Decimal}
  (rated : r.exchangeRateAsOf m.referralFeeBps time = .ok rate) (rate_pos : 0 < rate.toRat)
include keyed found rated rate_pos

theorem holder_value {address : String} {a : ObligationAccount} {o : Obligation}
    (once : (a.usedDeposits.filter (·.reserve = r.address)).length ≤ 1)
    (unsigned : ∀ s ∈ a.usedDeposits, 0 ≤ s.depositedAmount)
    (valued : Obligation.valueAsOf m address a time = .ok o) :
    (0 : ℚ) ≤ a.collateralIn r.address * rate.toRat⁻¹ ∧
      o.suppliedIn r.address = truncate (a.collateralIn r.address * rate.toRat⁻¹) := by
  obtain ⟨cr, br, rates, valued⟩ := exists_rates_of_valueAsOf keyed valued
  have tokens : (0 : ℚ) ≤ a.collateralIn r.address := by
    exact_mod_cast a.collateralIn_nonneg unsigned r.address
  exact ⟨mul_nonneg tokens (inv_nonneg.mpr rate_pos.le),
    Obligation.suppliedIn_eq keyed rates valued found once rated⟩

/-- A holding is a token over the rate at least, and nothing of it is lost to an underflow. -/
theorem holder_within {address : String} {a : ObligationAccount} {o : Obligation}
    (rate_le : rate.toRat ≤ 10 ^ (999999 : ℤ))
    (once : (a.usedDeposits.filter (·.reserve = r.address)).length ≤ 1)
    (unsigned : ∀ s ∈ a.usedDeposits, 0 ≤ s.depositedAmount)
    (valued : Obligation.valueAsOf m address a time = .ok o) :
    Within 1 (o.suppliedIn r.address) (a.collateralIn r.address * rate.toRat⁻¹) := by
  rw [(holder_value keyed found rated rate_pos once unsigned valued).2]
  refine within_truncate ?_
  rcases (a.collateralIn_nonneg unsigned r.address).eq_or_lt with none | some
  · rw [← none, Int.cast_zero, zero_mul]
    exact not_underflows_zero
  · have tokens : (1 : ℚ) ≤ a.collateralIn r.address := by exact_mod_cast some
    have low : (10 : ℚ) ^ (-999999 : ℤ) ≤ rate.toRat⁻¹ := by
      rw [zpow_neg]
      exact inv_anti₀ rate_pos rate_le
    refine not_underflows_of_le le_rfl (low.trans (le_trans ?_ (le_abs_self _)))
    exact le_mul_of_one_le_left (inv_nonneg.mpr rate_pos.le) tokens

variable {accounts : List (String × ObligationAccount)} {os : List Obligation}
  (once : ∀ a ∈ accounts, (a.2.usedDeposits.filter (·.reserve = r.address)).length ≤ 1)
  (unsigned : ∀ a ∈ accounts, ∀ s ∈ a.2.usedDeposits, 0 ≤ s.depositedAmount)
  (valued : accounts.mapM (fun a => Obligation.valueAsOf m a.1 a.2 time) = .ok os)
include once unsigned valued

/-- What the holders have together, against their tokens over the rate. -/
theorem holders_le : (os.map (·.suppliedIn r.address)).sum ≤
    (accounts.map (·.2.collateralIn r.address)).sum * rate.toRat⁻¹ := by
  have each : List.Forall₂ (· ≤ ·) (os.map (·.suppliedIn r.address))
      (accounts.map fun a => a.2.collateralIn r.address * rate.toRat⁻¹) := by
    rw [List.forall₂_map_left_iff, List.forall₂_map_right_iff]
    refine (holders_listed valued).imp fun o a h => ?_
    obtain ⟨nonneg, value⟩ :=
      holder_value keyed found rated rate_pos (once a h.1) (unsigned a h.1) h.2
    exact value.trans_le (truncate_le nonneg)
  refine each.sum_le_sum.trans_eq ?_
  rw [List.sum_map_mul_right, Int.cast_list_sum, List.map_map]
  rfl

theorem holders_within (rate_le : rate.toRat ≤ 10 ^ (999999 : ℤ)) :
    Within 1 (os.map (·.suppliedIn r.address)).sum
      ((accounts.map (·.2.collateralIn r.address)).sum * rate.toRat⁻¹) := by
  have each : List.Forall₂ (fun x v => 0 ≤ v ∧ Within 1 x (v * rate.toRat⁻¹))
      (os.map (·.suppliedIn r.address))
      (accounts.map fun a => (a.2.collateralIn r.address : ℚ)) := by
    rw [List.forall₂_map_left_iff, List.forall₂_map_right_iff]
    refine (holders_listed valued).imp fun o a h => ⟨?_, ?_⟩
    · exact_mod_cast a.2.collateralIn_nonneg (unsigned a h.1) r.address
    · exact holder_within keyed found rated rate_pos rate_le (once a h.1) (unsigned a h.1) h.2
  have total := (Within.sum_mul each).2
  have cast : (accounts.map fun a => (a.2.collateralIn r.address : ℚ)).sum
      = ((accounts.map (·.2.collateralIn r.address)).sum : ℤ) := by
    rw [Int.cast_list_sum, List.map_map]
    rfl
  rwa [cast] at total

end

/-- What is held in a reserve is the part of its supply that the tokens held are of those
    issued, but for the rounding of the rate and of each holding. It is no more if the rate keeps
    its digits, and no less if the base units of a token do. -/
theorem holders_share_supply {m : Market} (keyed : m.Keyed) {r : Reserve}
    (found : m.reserveAt? r.address = some r) {time : Option ℤ} {supply rate : Decimal}
    (supplied : r.supplyAsOf m.referralFeeBps time = .ok supply) (supply_pos : 0 < supply.toRat)
    (issued_pos : 0 < r.account.collateral.totalSupply)
    (rated : r.exchangeRateAsOf m.referralFeeBps time = .ok rate)
    {accounts : List (String × ObligationAccount)} {os : List Obligation}
    (once : ∀ a ∈ accounts, (a.2.usedDeposits.filter (·.reserve = r.address)).length ≤ 1)
    (unsigned : ∀ a ∈ accounts, ∀ s ∈ a.2.usedDeposits, 0 ≤ s.depositedAmount)
    (valued : accounts.mapM (fun a => Obligation.valueAsOf m a.1 a.2 time) = .ok os) :
    (10 ^ (-999999 : ℤ) ≤ r.issuedPerUnit supply →
      (accounts.map (·.2.collateralIn r.address)).sum ≤ r.account.collateral.totalSupply →
      (os.map (·.suppliedIn r.address)).sum ≤ supply.toRat * (1 + 2 / 10 ^ 39)) ∧
    (r.issuedPerUnit supply ≤ 10 ^ (999999 : ℤ) →
      (accounts.map (·.2.collateralIn r.address)).sum = r.account.collateral.totalSupply →
      supply.toRat * (1 - 2 / 10 ^ 39) ≤ (os.map (·.suppliedIn r.address)).sum) := by
  have given : r.exchangeRateFor supply = .ok rate := by
    rwa [Pool.exchangeRateAsOf_eq, supplied] at rated
  have rate_pos : 0 < rate.toRat := by
    refine lt_of_le_of_ne ?_ (Pool.exchangeRateAsOf_ne_zero rated).symm
    rw [Pool.rate_value issued_pos supply_pos given]
    exact truncate_nonneg (Pool.issuedPerUnit_pos issued_pos supply_pos).le
  have scale_nonneg := inv_nonneg.mpr rate_pos.le
  constructor
  · intro low some
    have held := holders_le keyed found rated rate_pos once unsigned valued
    have issued := Pool.issued_le_supply issued_pos supply_pos given rate_pos low
    have tokens : (((accounts.map (·.2.collateralIn r.address)).sum : ℤ) : ℚ) ≤
        r.account.collateral.totalSupply := by exact_mod_cast some
    have most := held.trans (mul_le_mul_of_nonneg_right tokens scale_nonneg)
    rw [ulp_eq] at issued
    linarith
  · intro high all
    have rate_le := (Pool.rate_le issued_pos supply_pos given).trans high
    have held := holders_within keyed found rated rate_pos once unsigned valued rate_le
    have issued := Pool.supply_le_issued issued_pos supply_pos given rate_pos
    rw [all] at held
    have least := held.ge (supply_pos.le.trans issued)
    rw [ulp_eq] at least
    push_cast at least
    linarith

def Sample.lenders : ObligationAccount where
  market := "market"
  owner := "lender"
  deposits := [{ reserve := "reserve", depositedAmount := 3896100000 }]

def Sample.holders : List (String × ObligationAccount) :=
  [("obligation", Sample.borrower), ("lenders", Sample.lenders)]

/-- A thousand slots after the last refresh, with the holders of all tokens issued. -/
theorem holders_share_supply_sample :
    ∃ supply os, Sample.reserve.supplyAsOf 0 (some 2000) = .ok supply ∧
      Sample.holders.mapM (fun a => Obligation.valueAsOf Sample.market a.1 a.2 (some 2000)) =
        .ok os ∧
      supply.toRat * (1 - 2 / 10 ^ 39) ≤ (os.map (·.suppliedIn "reserve")).sum ∧
      (os.map (·.suppliedIn "reserve")).sum ≤ supply.toRat * (1 + 2 / 10 ^ 39) := by
  have supplied : Sample.reserve.supplyAsOf 0 (some 2000) =
      .ok ⟨false, 4000001567356301198105056929667912617392, -30⟩ := by decide +kernel
  obtain ⟨rate, rated⟩ := exists_of_isOk (show (Sample.reserve.exchangeRateAsOf
    Sample.market.referralFeeBps (some 2000)).isOk by decide +kernel)
  obtain ⟨os, valued⟩ := exists_of_isOk (show (Sample.holders.mapM fun a =>
    Obligation.valueAsOf Sample.market a.1 a.2 (some 2000)).isOk by decide +kernel)
  have low : (10 : ℚ) ^ (-999999 : ℤ) ≤ 10 ^ (-1 : ℤ) :=
    zpow_le_zpow_right₀ (by norm_num) (by decide)
  have high : (10 : ℚ) ^ (0 : ℤ) ≤ 10 ^ (999999 : ℤ) :=
    zpow_le_zpow_right₀ (by norm_num) (by decide)
  obtain ⟨most, least⟩ := holders_share_supply (m := Sample.market) (by decide) (by decide)
    supplied (by decide +kernel) (by decide) rated (by decide) (by decide) valued
  exact ⟨_, os, supplied, valued, least (le_trans (by decide +kernel) high) (by decide),
    most (low.trans (by decide +kernel)) (by decide)⟩

namespace Sample

/-- A number of a million digits, which is not to be written out. -/
@[irreducible] def huge : ℕ := 6 * tens 999999

def hugeDecimal : Decimal := ⟨false, 6, 999999⟩

def tinyDecimal : Decimal := ⟨false, 166666666666666666666666666666666666666, -1000038⟩

theorem huge_eq : (huge : ℚ) = hugeDecimal.toRat := by
  unfold huge
  rw [Decimal.toRat_eq, Nat.cast_mul, tens_cast (by decide)]
  simp [hugeDecimal]

theorem ofInt_huge : Decimal.ofInt huge = hugeDecimal := by
  have positive : ¬ (huge : ℤ) < 0 := not_lt.mpr (Int.natCast_nonneg _)
  refine Decimal.ofInt_eq (show ¬ 10 ∣ 6 by decide) (decide_eq_false positive).symm ?_
  rw [← huge_eq]
  rfl

def supplyAndTokens (units tokens : ℤ) (collateralSupply : Decimal) : Reserve :=
  let base := idle "reserve" "token" 6 1
  { base with
    account := { base.account with
      liquidity := { base.account.liquidity with availableAmount := units }
      collateral := { mint := "share", totalSupply := tokens } }
    stats := { base.stats with collateralSupply } }

def lastShare : Reserve := supplyAndTokens huge 1 ⟨false, 1, -6⟩

def scattered : Reserve := supplyAndTokens 1 huge ⟨false, 6, 999993⟩

def marketOf (r : Reserve) : Market := { market with reserves := ⟨[("reserve", r)]⟩ }

def lastHolder : ObligationAccount where
  market := "market"
  owner := "lender"
  deposits := [{ reserve := "reserve", depositedAmount := 1 }]

theorem totalSupply_lastShare : lastShare.totalSupply = .ok hugeDecimal := by
  have available : lastShare.available = hugeDecimal := ofInt_huge
  unfold Pool.totalSupply
  rw [available]
  decide +kernel

theorem exchangeRate_lastShare : lastShare.exchangeRate = .ok tinyDecimal := by
  unfold Pool.exchangeRate
  rw [totalSupply_lastShare]
  decide +kernel

theorem opened_lastShare : lastShare.toPool.openReserve = .ok lastShare := by
  unfold Pool.openReserve Pool.deriveStats Pool.supplyApr Pool.borrowApr Pool.utilization
  rw [totalSupply_lastShare]
  decide +kernel

theorem issued_scattered :
    Decimal.ofInt scattered.account.collateral.totalSupply = hugeDecimal := ofInt_huge

theorem exchangeRate_scattered : scattered.exchangeRate = .ok hugeDecimal := by
  have some : ¬ (scattered.account.collateral.totalSupply = 0 ∨ (1 : Decimal).isZero) := by
    rintro (none | none)
    · have issued : Decimal.ofInt 0 = hugeDecimal := none ▸ issued_scattered
      exact absurd issued (by decide)
    · exact absurd none (by decide)
  have given : scattered.exchangeRateFor 1 = .ok hugeDecimal := by
    unfold Pool.exchangeRateFor
    rw [issued_scattered, if_neg some]
    decide +kernel
  exact bind_eq_ok_iff.mpr ⟨1, by decide +kernel, given⟩

theorem opened_scattered : scattered.toPool.openReserve = .ok scattered := by
  unfold Pool.openReserve Pool.deriveStats
  rw [issued_scattered]
  decide +kernel

end Sample

/-- The amount of a single token, in a market of one reserve whose rate is given. -/
theorem exists_lastHolder {r : Reserve} {rate : Decimal} (amount : Decimal)
    (place : r.address = "reserve") (rated : r.exchangeRate = .ok rate)
    (held : (fun o : Obligation => (o.deposits.find? "reserve").map (·.amount)) <$>
      Obligation.value (Sample.marketOf r) "obligation" Sample.lastHolder
        (some ⟨[("reserve", rate)]⟩) none = .ok (some amount)) :
    ∃ o, Obligation.valueAsOf (Sample.marketOf r) "obligation" Sample.lastHolder none = .ok o ∧
      o.suppliedIn "reserve" = amount.toRat := by
  -- the rate is entered by hand, for the supply has too many digits to be worked out here
  have rates : RatesAsOf (Sample.marketOf r) Sample.lastHolder none
      (some ⟨[("reserve", rate)]⟩) none := by
    refine ⟨fun s used own found => ?_, fun s used => absurd used List.not_mem_nil⟩
    obtain rfl := List.mem_singleton.mp used
    obtain rfl : r = own := Option.some.inj found
    show rateOf _ r r.exchangeRate = r.exchangeRate
    unfold rateOf
    rw [place]
    exact rated.symm
  obtain ⟨o, valued, held⟩ := map_eq_ok_iff.mp held
  rw [rates.value_eq (ratesAsOf_refresh _ _)] at valued
  refine ⟨o, valued, ?_⟩
  obtain ⟨p, found, same⟩ := Option.map_eq_some_iff.mp held
  unfold Obligation.suppliedIn
  rw [found, ← same]
  rfl

/-- The rate of so few tokens per base unit is cut to 39 digits, so that the holder of the only
    token has more than the supply, by four units in the fortieth digit. -/
theorem last_share_exceeds_supply :
    (Sample.marketOf Sample.lastShare).Keyed ∧
    Sample.lastShare.toPool.openReserve = .ok Sample.lastShare ∧
    Sample.lastShare.supplyAsOf 0 none = .ok Sample.hugeDecimal ∧
    Sample.lastHolder.collateralIn "reserve" = Sample.lastShare.account.collateral.totalSupply ∧
    ∃ o, Obligation.valueAsOf (Sample.marketOf Sample.lastShare) "obligation" Sample.lastHolder
        none = .ok o ∧
      o.suppliedIn "reserve" = Sample.hugeDecimal.toRat * (1 + 4 / 10 ^ 39) ∧
      ¬ o.suppliedIn "reserve" ≤ Sample.hugeDecimal.toRat * (1 + 2 / 10 ^ 39) := by
  obtain ⟨o, valued, amount⟩ := exists_lastHolder
    ⟨false, 6000000000000000000000000000000000000024, 999960⟩ rfl Sample.exchangeRate_lastShare
    (by decide +kernel)
  refine ⟨by decide, Sample.opened_lastShare, Sample.totalSupply_lastShare, by decide, o, valued,
    ?_, ?_⟩
  · rw [amount]
    decide +kernel
  · rw [amount]
    decide +kernel

/-- One token of so many is worth so little that its amount is cut to 39 digits, and so is what
    any number of holders of one token each have together. -/
theorem scattered_shares_miss_supply :
    (Sample.marketOf Sample.scattered).Keyed ∧
    Sample.scattered.toPool.openReserve = .ok Sample.scattered ∧
    Sample.scattered.supplyAsOf 0 none = .ok 1 ∧
    ∃ (accounts : List (String × ObligationAccount)) (os : List Obligation), accounts.mapM
        (fun a => Obligation.valueAsOf (Sample.marketOf Sample.scattered) a.1 a.2 none) = .ok os ∧
      (accounts.map (·.2.collateralIn "reserve")).sum =
        Sample.scattered.account.collateral.totalSupply ∧
      (os.map (·.suppliedIn "reserve")).sum = 1 - 4 / 10 ^ 39 ∧
      ¬ (1 : Decimal).toRat * (1 - 2 / 10 ^ 39) ≤ (os.map (·.suppliedIn "reserve")).sum := by
  obtain ⟨o, valued, amount⟩ := exists_lastHolder Sample.tinyDecimal rfl
    Sample.exchangeRate_scattered (by decide +kernel)
  have together : ((List.replicate Sample.huge o).map (·.suppliedIn "reserve")).sum =
      1 - 4 / 10 ^ 39 := by
    rw [List.map_replicate, List.sum_replicate, nsmul_eq_mul, amount, Sample.huge_eq]
    decide +kernel
  refine ⟨by decide, Sample.opened_scattered, by decide +kernel,
    List.replicate Sample.huge ("obligation", Sample.lastHolder), List.replicate Sample.huge o,
    mapM_replicate (a := ("obligation", Sample.lastHolder)) valued _, ?_, together, ?_⟩
  · rw [List.map_replicate, List.sum_replicate,
      show Sample.lastHolder.collateralIn "reserve" = 1 by decide, nsmul_one]
    rfl
  · rw [together]
    decide +kernel

end Lending
