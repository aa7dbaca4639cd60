/-
  Lending.Units — slots, basis points and unused addresses.

  The chain counts time in slots. Rates are per year of nominal half-second slots, and
  shares are given in percent or in basis points.
-/

namespace Lending

def slotsPerSecond : Int := 2

def slotsPerDay : Int := slotsPerSecond * 60 * 60 * 24

def slotsPerYear : Int := slotsPerDay * 365

/-- The duration of a slot that rates are rescaled to if nothing else is known. -/
def defaultSlotDuration : Int := 450

def fullShareBps : Int := 10000

/-- The largest 64-bit word; as an amount it means that there is no limit. -/
def maxWord : Int := 0xffffffffffffffff

/-- The address that marks an unused slot of an account. -/
def nullAddress : String := "11111111111111111111111111111111"

/-- Whether an address names an account. -/
def isUsedAddress (address : String) : Bool := address != "" && address != nullAddress

end Lending
