/-
  Lending.Action.Basic — what a user asks of a position, and the tag a caller names it by.

  A tag is free text, or a plain value that is not text at all; only texts can name an
  action. The two composite actions have two legs, done in the order of their names.
-/

namespace Lending

inductive Action where
  | deposit
  | withdraw
  | borrow
  | repay
  | depositAndBorrow
  | repayAndWithdraw
  | mint
  | redeem
  deriving DecidableEq, Repr

/-- What a caller hands over as the name of an action. -/
inductive ActionTag where
  | text (s : String)
  | absent
  | integer (n : Int)
  | truth (b : Bool)
  /-- A binary64 number, by its bits. -/
  | binary (bits : UInt64)
  deriving DecidableEq, Repr

namespace Action

def all : List Action :=
  [deposit, withdraw, borrow, repay, depositAndBorrow, repayAndWithdraw, mint, redeem]

/-- The name an action is sent under. -/
def label : Action → String
  | deposit => "deposit"
  | withdraw => "withdraw"
  | borrow => "borrow"
  | repay => "repay"
  | depositAndBorrow => "depositAndBorrow"
  | repayAndWithdraw => "repayAndWithdraw"
  | mint => "mint"
  | redeem => "redeem"

/-- The name an action is listed under. -/
def member : Action → String
  | deposit => "DEPOSIT"
  | withdraw => "WITHDRAW"
  | borrow => "BORROW"
  | repay => "REPAY"
  | depositAndBorrow => "DEPOSIT_AND_BORROW"
  | repayAndWithdraw => "REPAY_AND_WITHDRAW"
  | mint => "MINT"
  | redeem => "REDEEM"

end Action

end Lending
