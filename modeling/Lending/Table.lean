/-
  Lending.Table — figures laid out in rows for reports and plots.

  Every row has one cell per column: a text or a binary64 number.
-/
import Lending.Decimal.Binary64

namespace Lending

inductive Cell where
  | text (s : String)
  | number (x : Binary64)
  deriving DecidableEq, Repr

structure Table where
  columns : List String
  rows : List (List Cell)
  deriving DecidableEq, Repr

/-- The cell of an amount or a rate. -/
def Cell.ofDecimal (x : Decimal) : Cell := .number (.ofDecimal x)

end Lending
