/-
  Lending.Proofs.Market.Keyed — markets whose reserves stand under their own addresses.

  Every market that is built from pools or read from a snapshot is one (`keyed_ofPools`,
  `keyed_load`), and none of its addresses stands for two reserves (`nodup_ofPools`,
  `nodup_load`). Then a reserve that is found at an address has that address, and every reserve
  is found at its own. Each was opened from its pool (`opened_ofPools`, `opened_load`).
-/
import Lending.Market.Load
import Lending.Proofs.AddressMap
import Lending.Proofs.Reserve.Opened

namespace Lending

namespace Market

def Keyed (m : Market) : Prop := ∀ entry ∈ m.reserves.entries, entry.2.address = entry.1

instance (m : Market) : Decidable m.Keyed :=
  inferInstanceAs (Decidable (∀ entry ∈ m.reserves.entries, entry.2.address = entry.1))

theorem Keyed.address_eq {m : Market} (keyed : m.Keyed) {address : String} {r : Reserve}
    (found : m.reserveAt? address = some r) : r.address = address :=
  keyed _ (AddressMap.mem_of_find? found)

/-- Every reserve of a market is what opening its pool gives. -/
def Opened (m : Market) : Prop := ∀ r ∈ m.reserves.values, r.toPool.openReserve = .ok r

instance (m : Market) : Decidable m.Opened :=
  inferInstanceAs (Decidable (∀ r ∈ m.reserves.values, r.toPool.openReserve = .ok r))

theorem Opened.openReserve {m : Market} (opened : m.Opened) {address : String} {r : Reserve}
    (found : m.reserveAt? address = some r) : r.toPool.openReserve = .ok r :=
  opened r (AddressMap.mem_values_of_find? found)

/-- A market in which no address stands twice finds each of its reserves. -/
theorem Keyed.reserveAt_address {m : Market} (keyed : m.Keyed)
    (distinct : m.reserves.addresses.Nodup) {r : Reserve} (listed : r ∈ m.reserves.values) :
    m.reserveAt? r.address = some r := by
  obtain ⟨⟨address, own⟩, entered, rfl⟩ := List.mem_map.mp listed
  rw [keyed _ entered]
  exact AddressMap.find?_of_mem distinct entered

theorem keyed_ofPools {address : String} {account : MarketAccount} {pools : List Pool}
    {slotDuration : Int} {m : Market} (h : ofPools address account pools slotDuration = .ok m) :
    m.Keyed := by
  unfold ofPools at h
  obtain ⟨reserves, -, h⟩ := Outcome.bind_eq_ok_iff.mp h
  cases h
  intro entry listed
  obtain ⟨r, -, rfl⟩ := List.mem_map.mp (AddressMap.mem_ofList listed)
  rfl

theorem opened_ofPools {address : String} {account : MarketAccount} {pools : List Pool}
    {slotDuration : Int} {m : Market} (h : ofPools address account pools slotDuration = .ok m) :
    m.Opened := by
  unfold ofPools at h
  obtain ⟨reserves, opened, h⟩ := Outcome.bind_eq_ok_iff.mp h
  cases h
  intro r listed
  obtain ⟨entry, entered, rfl⟩ := List.mem_map.mp listed
  obtain ⟨r, held, rfl⟩ := List.mem_map.mp (AddressMap.mem_ofList entered)
  obtain ⟨p, -, opened⟩ := Outcome.exists_of_mem_mapM opened held
  rwa [Pool.toPool_of_openReserve opened]

theorem nodup_ofPools {address : String} {account : MarketAccount} {pools : List Pool}
    {slotDuration : Int} {m : Market} (h : ofPools address account pools slotDuration = .ok m) :
    m.reserves.addresses.Nodup := by
  unfold ofPools at h
  obtain ⟨reserves, -, h⟩ := Outcome.bind_eq_ok_iff.mp h
  cases h
  exact AddressMap.nodup_addresses_ofList _

end Market

/-! ## Markets read from a snapshot -/

theorem Snapshot.pool_of_openReserve {s : Snapshot} {slotDuration : Int} {address : String}
    {account : ReserveAccount} {r : Reserve}
    (h : (s.openReserve slotDuration address account).outcome = .ok r) :
    ∃ p : Pool, p.address = address ∧ p.openReserve = .ok r := by
  obtain ⟨price, -, h⟩ := Logged.bind_outcome_eq_ok_iff.mp h
  refine ⟨⟨address, account, price, slotDuration⟩, rfl, ?_⟩
  split at h
  · obtain ⟨_, -, h⟩ := Logged.bind_outcome_eq_ok_iff.mp h
    exact h
  · exact h

theorem Snapshot.pools_of_openReserves {s : Snapshot} {slotDuration : Int}
    {accounts : List (String × ReserveAccount)} {reserves : List (String × Reserve)}
    (h : (s.openReserves slotDuration accounts).outcome = .ok reserves) :
    ∀ entry ∈ reserves, ∃ p : Pool, p.address = entry.1 ∧ p.openReserve = .ok entry.2 := by
  induction accounts generalizing reserves with
  | nil =>
    cases h
    exact List.forall_mem_nil _
  | cons account rest ih =>
    obtain ⟨r, first, h⟩ := Logged.bind_outcome_eq_ok_iff.mp h
    obtain ⟨others, remaining, h⟩ := Logged.bind_outcome_eq_ok_iff.mp h
    cases h
    exact List.forall_mem_cons.mpr ⟨pool_of_openReserve first, ih remaining⟩

theorem Market.pools_of_load {s : Snapshot} {address : String} {slotDuration : Int} {m : Market}
    (h : (load s address slotDuration).outcome = .ok m) :
    ∀ entry ∈ m.reserves.entries,
      ∃ p : Pool, p.address = entry.1 ∧ p.openReserve = .ok entry.2 := by
  obtain ⟨account, -, h⟩ := Logged.bind_outcome_eq_ok_iff.mp h
  obtain ⟨reserves, opened, h⟩ := Logged.bind_outcome_eq_ok_iff.mp h
  cases h
  exact fun entry listed =>
    Snapshot.pools_of_openReserves opened entry (AddressMap.mem_ofList listed)

theorem Market.keyed_load {s : Snapshot} {address : String} {slotDuration : Int} {m : Market}
    (h : (load s address slotDuration).outcome = .ok m) : m.Keyed := by
  intro entry listed
  obtain ⟨p, own, opened⟩ := pools_of_load h entry listed
  rw [← own, Pool.toPool_of_openReserve opened]

theorem Market.opened_load {s : Snapshot} {address : String} {slotDuration : Int} {m : Market}
    (h : (load s address slotDuration).outcome = .ok m) : m.Opened := by
  intro r listed
  obtain ⟨entry, entered, rfl⟩ := List.mem_map.mp listed
  obtain ⟨p, -, opened⟩ := pools_of_load h entry entered
  rwa [Pool.toPool_of_openReserve opened]

theorem Market.nodup_load {s : Snapshot} {address : String} {slotDuration : Int} {m : Market}
    (h : (load s address slotDuration).outcome = .ok m) : m.reserves.addresses.Nodup := by
  obtain ⟨account, -, h⟩ := Logged.bind_outcome_eq_ok_iff.mp h
  obtain ⟨reserves, -, h⟩ := Logged.bind_outcome_eq_ok_iff.mp h
  cases h
  exact AddressMap.nodup_addresses_ofList _

end Lending
