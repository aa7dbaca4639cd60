/-
  Lending.Proofs.Obligation.PotentialGroups — the groups an obligation could be in.

  They are worked out if every reserve that is referred to is on the market
  (`potentialGroups_eq_ok_iff`), and are then the common groups of what these reserves list, each
  reserve taken once (`groupLists`). Main result (`potentialGroups_common`): they are exactly the
  groups that each of these reserves lists, in the order of the first one's list; saying a slot or
  a group again changes nothing, and another order of the slots at most the order of the groups.
-/
import Lending.Proofs.ElevationGroup
import Lending.Proofs.Obligation.Missing

namespace Lending

open Outcome

/-! ## References -/

namespace ObligationAccount

def slotAddresses (a : ObligationAccount) : List String :=
  a.deposits.map (·.reserve) ++ a.borrows.map (·.reserve)

theorem references_eq (a : ObligationAccount) :
    a.references = a.slotAddresses.filter isUsedAddress := by
  unfold references slotAddresses usedDeposits usedBorrows
  rw [List.filter_append, List.filter_map, List.filter_map]
  rfl

theorem reserves_eq (a : ObligationAccount) : a.reserves = a.references.eraseDups := rfl

theorem mem_reserves_iff {a : ObligationAccount} {address : String} :
    address ∈ a.reserves ↔ address ∈ a.references := by
  rw [reserves_eq, List.mem_eraseDups]

/-- Slots that say again what an earlier one said, or are unused, add no reserve. -/
theorem reserves_of_restated {a a' : ObligationAccount}
    (h : Restated (isUsedAddress · = false) a.slotAddresses a'.slotAddresses) :
    a'.reserves = a.reserves := by
  rw [reserves_eq, reserves_eq, references_eq, references_eq]
  exact h.eraseDups fun _ unused => unused

end ObligationAccount

/-! ## Groups -/

namespace Market

variable {m : Market} {a : ObligationAccount}

def groupLists (m : Market) (a : ObligationAccount) : List (List ℤ) :=
  a.reserves.filterMap fun address => (m.reserveAt? address).map (·.elevationGroups)

def Holds (m : Market) (a : ObligationAccount) : Prop :=
  ∀ address ∈ a.references, ∃ r, m.reserveAt? address = some r

theorem mapM_reserveAt {addresses : List String} {reserves : List Reserve}
    (h : addresses.mapM m.reserveAt = .ok reserves) :
    reserves.map (·.elevationGroups) =
      addresses.filterMap fun address => (m.reserveAt? address).map (·.elevationGroups) := by
  rw [mapM_eq_ok_iff] at h
  induction h with
  | nil => rfl
  | cons first _ ih =>
    rw [List.map_cons, List.filterMap_cons, ofOption_eq_ok_iff.mp first, ih]
    rfl

theorem potentialGroups_eq_ok_iff {groups : List ℤ} :
    m.potentialGroups a = .ok groups ↔ m.Holds a ∧ groups = commonGroups (m.groupLists a) := by
  have given : (∃ reserves, a.reserves.mapM m.reserveAt = .ok reserves) ↔ m.Holds a := by
    rw [exists_mapM_eq_ok_iff]
    simp only [ObligationAccount.mem_reserves_iff, reserveAt, ofOption_eq_ok_iff]
    rfl
  rw [← given]
  unfold potentialGroups
  simp only [bind_eq_ok_iff]
  constructor
  · rintro ⟨reserves, found, result⟩
    cases result
    rw [mapM_reserveAt found]
    exact ⟨⟨reserves, found⟩, rfl⟩
  · rintro ⟨⟨reserves, found⟩, rfl⟩
    refine ⟨reserves, found, ?_⟩
    rw [mapM_reserveAt found]
    rfl

theorem mem_groupLists {listed : List ℤ} : listed ∈ m.groupLists a ↔
    ∃ address ∈ a.references, ∃ r, m.reserveAt? address = some r ∧ r.elevationGroups = listed := by
  simp [groupLists, ObligationAccount.mem_reserves_iff]

theorem groupLists_cons {address : String} {r : Reserve}
    (first : a.references.head? = some address) (found : m.reserveAt? address = some r) :
    ∃ rest, m.groupLists a = r.elevationGroups :: rest := by
  obtain ⟨others, references⟩ := List.head?_eq_some_iff.mp first
  unfold groupLists
  rw [ObligationAccount.reserves_eq, references, List.eraseDups_cons, List.filterMap_cons, found]
  exact ⟨_, rfl⟩

theorem mem_commonGroups_groupLists (holds : m.Holds a) {g : ℤ} :
    g ∈ commonGroups (m.groupLists a) ↔ g ≠ 0 ∧ a.references ≠ [] ∧
      ∀ address ∈ a.references, ∃ r, m.reserveAt? address = some r ∧ g ∈ r.elevationGroups := by
  have empty : m.groupLists a = [] ↔ a.references = [] := by
    constructor
    · intro none
      apply List.eq_nil_iff_forall_not_mem.mpr
      intro address listed
      obtain ⟨r, found⟩ := holds address listed
      have own := mem_groupLists.mpr ⟨address, listed, r, found, rfl⟩
      rw [none] at own
      cases own
    · intro none
      unfold groupLists
      rw [ObligationAccount.reserves_eq, none]
      rfl
  rw [mem_commonGroups_iff, ne_eq (m.groupLists a), empty]
  refine and_congr_right fun _ => and_congr_right fun _ => ?_
  constructor
  · intro all address listed
    obtain ⟨r, found⟩ := holds address listed
    exact ⟨r, found, all _ (mem_groupLists.mpr ⟨address, listed, r, found, rfl⟩)⟩
  · intro all listed own
    obtain ⟨address, referred, r, found, rfl⟩ := mem_groupLists.mp own
    obtain ⟨same, given, lists⟩ := all address referred
    rw [found] at given
    cases given
    exact lists

/-- The second market has the reserves of the first. They list the same groups, but may list some
    again, or list the number that means none. -/
def Relists (m m' : Market) : Prop :=
  ∀ address r, m.reserveAt? address = some r → ∃ r', m'.reserveAt? address = some r' ∧
    Restated (· = 0) r.elevationGroups r'.elevationGroups

theorem commonGroups_of_relists {m' : Market} {a' : ObligationAccount} (holds : m.Holds a)
    (relists : m.Relists m') (same : a'.reserves = a.reserves) :
    commonGroups (m'.groupLists a') = commonGroups (m.groupLists a) := by
  apply commonGroups_congr
  unfold groupLists
  rw [same, List.map_filterMap, List.map_filterMap]
  apply List.filterMap_congr
  intro address listed
  obtain ⟨r, found⟩ := holds address (ObligationAccount.mem_reserves_iff.mp listed)
  obtain ⟨r', found', again⟩ := relists address r found
  rw [found, found']
  exact congrArg some again.ownGroups

end Market

/-- An obligation could be in the groups, zero apart, that each reserve it refers to lists. They
    come in the order of the first of these reserves' list. Slots and groups that are repeated
    change nothing, and the order of the slots at most that of the groups. -/
theorem potentialGroups_common {m : Market} {a : ObligationAccount} {groups : List ℤ}
    (given : m.potentialGroups a = .ok groups) :
    (∀ g, g ∈ groups ↔ g ≠ 0 ∧ a.references ≠ [] ∧
      ∀ address ∈ a.references, ∃ r, m.reserveAt? address = some r ∧ g ∈ r.elevationGroups) ∧
    groups.Nodup ∧
    (∀ address r, a.references.head? = some address → m.reserveAt? address = some r →
      groups.Pairwise fun g h => r.elevationGroups.idxOf g < r.elevationGroups.idxOf h) ∧
    (∀ m' a', m.Relists m' →
      Restated (isUsedAddress · = false) a.slotAddresses a'.slotAddresses →
      m'.potentialGroups a' = .ok groups) ∧
    (∀ a', a'.slotAddresses.Perm a.slotAddresses →
      ∃ groups', m.potentialGroups a' = .ok groups' ∧ groups'.Perm groups) := by
  obtain ⟨holds, rfl⟩ := Market.potentialGroups_eq_ok_iff.mp given
  refine ⟨fun g => Market.mem_commonGroups_groupLists holds, nodup_commonGroups _, ?_, ?_, ?_⟩
  · intro address r first found
    obtain ⟨rest, lists⟩ := Market.groupLists_cons first found
    rw [lists]
    exact pairwise_idxOf_commonGroups _ _
  · intro m' a' relists again
    have same := ObligationAccount.reserves_of_restated again
    rw [Market.potentialGroups_eq_ok_iff]
    refine ⟨?_, (Market.commonGroups_of_relists holds relists same).symm⟩
    intro address listed
    rw [← ObligationAccount.mem_reserves_iff, same, ObligationAccount.mem_reserves_iff] at listed
    obtain ⟨r, found⟩ := holds address listed
    obtain ⟨r', found', -⟩ := relists address r found
    exact ⟨r', found'⟩
  · intro a' reordered
    have same := reordered.filter isUsedAddress
    rw [← ObligationAccount.references_eq, ← ObligationAccount.references_eq] at same
    refine ⟨_, Market.potentialGroups_eq_ok_iff.mpr ⟨?_, rfl⟩, ?_⟩
    · exact fun address listed => holds address (same.mem_iff.mp listed)
    · apply perm_commonGroups
      intro listed
      rw [Market.mem_groupLists, Market.mem_groupLists]
      simp only [same.mem_iff]

def Sample.listing (address : String) (groups : List ℤ) : Reserve :=
  let r := idle address "token" 6 1
  let config := { r.account.config with elevationGroups := groups }
  { r with account := { r.account with config } }

def Sample.groupedMarket (first second : List ℤ) : Market :=
  { market with
    reserves := ⟨[("first", listing "first" first), ("second", listing "second" second)]⟩ }

def Sample.referring (deposits borrows : List String) : ObligationAccount :=
  { borrower with
    deposits := deposits.map fun reserve => { reserve }
    borrows := borrows.map fun reserve => { reserve } }

/-- Two groups in common, in the first reserve's order; said again; seen from the other side. -/
theorem potentialGroups_common_sample :
    (Sample.groupedMarket [2, 1, 3] [3, 0, 2]).potentialGroups
      (Sample.referring ["first"] ["second"]) = .ok [2, 3] ∧
    (Sample.groupedMarket [2, 2, 1, 0, 3] [3, 0, 2, 3]).potentialGroups
      (Sample.referring ["first", "", "first"] ["second", "first"]) = .ok [2, 3] ∧
    ∃ groups, (Sample.groupedMarket [2, 1, 3] [3, 0, 2]).potentialGroups
      (Sample.referring ["second"] ["first"]) = .ok groups ∧ groups.Perm [2, 3] := by
  have given : (Sample.groupedMarket [2, 1, 3] [3, 0, 2]).potentialGroups
      (Sample.referring ["first"] ["second"]) = .ok [2, 3] := by decide +kernel
  obtain ⟨-, -, -, again, reordered⟩ := potentialGroups_common given
  refine ⟨given, again _ _ ?_ ?_, reordered _ (.swap _ _ _)⟩
  · intro address r found
    rcases List.mem_cons.mp (AddressMap.mem_of_find? found) with first | later
    · cases first
      exact ⟨Sample.listing "first" [2, 2, 1, 0, 3], by decide,
        .insert [2] 2 [1, 0, 3] (.insert [2, 1] 0 [3] (.refl _) (.inr rfl)) (.inl (by decide))⟩
    · cases List.mem_singleton.mp later
      exact ⟨Sample.listing "second" [3, 0, 2, 3], by decide,
        .insert [3, 0, 2] 3 [] (.refl _) (.inl (by decide))⟩
  · exact .insert ["first", "", "first", "second"] "first" []
      (.insert ["first", ""] "first" ["second"]
        (.insert ["first"] "" ["second"] (.refl _) (.inr (by decide))) (.inl (by decide)))
      (.inl (by decide))

end Lending
