/-
  Lending.AddressMap — values by account address, in the order of their first appearance.

  A value given to an address that already has one takes its place; a new address goes last.
  `find?_insert` says what a search finds after that.
-/

namespace Lending

structure AddressMap (α : Type) where
  entries : List (String × α)
  deriving DecidableEq, Repr

namespace AddressMap

def empty : AddressMap α := ⟨[]⟩

instance : Inhabited (AddressMap α) := ⟨empty⟩

def find? (m : AddressMap α) (address : String) : Option α := m.entries.lookup address

def contains (m : AddressMap α) (address : String) : Bool := (m.find? address).isSome

def insertEntry (address : String) (value : α) : List (String × α) → List (String × α)
  | [] => [(address, value)]
  | entry :: rest =>
    if entry.1 = address then (address, value) :: rest
    else entry :: insertEntry address value rest

def insert (m : AddressMap α) (address : String) (value : α) : AddressMap α :=
  ⟨insertEntry address value m.entries⟩

def ofList (entries : List (String × α)) : AddressMap α :=
  entries.foldl (fun m entry => m.insert entry.1 entry.2) empty

def addresses (m : AddressMap α) : List String := m.entries.map (·.1)

def values (m : AddressMap α) : List α := m.entries.map (·.2)

def size (m : AddressMap α) : Nat := m.entries.length

def map (f : α → β) (m : AddressMap α) : AddressMap β :=
  ⟨m.entries.map fun entry => (entry.1, f entry.2)⟩

def filter (m : AddressMap α) (keep : α → Bool) : AddressMap α :=
  ⟨m.entries.filter fun entry => keep entry.2⟩

/-! ## Search -/

@[simp] theorem find?_empty (address : String) : (empty : AddressMap α).find? address = none := rfl

theorem lookup_entry (address other : String) (value : α) (rest : List (String × α)) :
    ((address, value) :: rest).lookup other =
      if other = address then some value else rest.lookup other := by
  by_cases h : other = address
  · simp [h]
  · simp [List.lookup_cons, beq_false_of_ne h, h]

theorem lookup_insertEntry (address other : String) (value : α) (entries : List (String × α)) :
    (insertEntry address value entries).lookup other =
      if other = address then some value else entries.lookup other := by
  induction entries with
  | nil => exact lookup_entry address other value []
  | cons entry rest ih =>
    obtain ⟨key, old⟩ := entry
    simp only [insertEntry]
    split
    · rename_i taken
      rw [taken, lookup_entry, lookup_entry]
      split <;> rfl
    · rename_i free
      rw [lookup_entry, lookup_entry, ih]
      by_cases found : other = key
      · simp [found, free]
      · simp [found]

/-- A search finds the value entered last. -/
theorem find?_insert (m : AddressMap α) (address other : String) (value : α) :
    (m.insert address value).find? other =
      if other = address then some value else m.find? other :=
  lookup_insertEntry address other value m.entries

end AddressMap

end Lending
