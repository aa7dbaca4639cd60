/-
  Lending.Position — a borrower's share in one reserve.
-/
import Lending.Decimal.Arithmetic

namespace Lending

/-- The amount is in base units of the reserve's token: what was supplied for a deposit, what
    is owed for a borrow. The value is in dollars at the oracle price. -/
structure Position where
  reserve : String
  mint : String
  amount : Decimal
  value : Decimal
  deriving DecidableEq, Repr

end Lending
