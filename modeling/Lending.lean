import Lending.Decimal.Shortest
import Lending.Fault.Message
import Lending.Market.BorrowLimit
import Lending.Obligation.Limits
import Lending.Obligation.Load
import Lending.Obligation.Scenario
import Lending.Obligation.Extended
import Lending.Reserve.Simulation
import Lending.Snapshot.Sample
import Lending.Proofs.Decimal.Truncation
import Lending.Proofs.Decimal.Arithmetic
import Lending.Proofs.Decimal.Overflow
import Lending.Proofs.ScaledFraction
import Lending.Proofs.Decimal.Error
import Lending.Proofs.Interest.Growth
import Lending.Proofs.Obligation.RateMaps
import Lending.Proofs.Market.Keyed
import Lending.Proofs.Obligation.Batch
import Lending.Proofs.Reserve.Accrual
import Lending.Proofs.Reserve.Ledger
import Lending.Reserve.Sample
import Lending.Proofs.Obligation.Slots
import Lending.Proofs.Reserve.BorrowIndex
import Lending.Proofs.Obligation.Indexed
import Lending.Proofs.Decimal.RunningSum
import Lending.Proofs.Obligation.Totals
import Lending.Proofs.Obligation.Prediction
import Lending.Proofs.Obligation.Step
import Lending.Proofs.Obligation.Legs
import Lending.Proofs.Interest.Slots
import Lending.Proofs.Reserve.Advance
import Lending.Proofs.Obligation.Advance
import Lending.Proofs.Reserve.Limits
import Lending.Proofs.Obligation.Headroom
import Lending.Proofs.Obligation.MaxBorrow
import Lending.Proofs.Obligation.MaxWithdraw
import Lending.Proofs.Obligation.Overdraw
import Lending.Proofs.Decimal.Normal
import Lending.Proofs.Reserve.AsOf
import Lending.Proofs.Obligation.AsOf
import Lending.Proofs.Obligation.Collateral
import Lending.Proofs.Obligation.Missing
import Lending.Proofs.Obligation.Refreshed
import Lending.Proofs.Obligation.Valuable
import Lending.Proofs.Market.Eased
import Lending.Proofs.Obligation.Eased
import Lending.Proofs.Obligation.OutsideGroup
import Lending.Proofs.Obligation.Displaced
import Lending.Proofs.Obligation.Interleaving
import Lending.Proofs.Decimal.Special
import Lending.Proofs.Obligation.Extended
import Lending.Proofs.Obligation.Refusal
import Lending.Proofs.Obligation.ExtendedLegs
import Lending.Proofs.Obligation.Simulable
import Lending.Proofs.Obligation.Targets
import Lending.Proofs.RateCurve
import Lending.Proofs.Reserve.Response
import Lending.Proofs.Decimal.Power
import Lending.Proofs.Interest.Yield
import Lending.Proofs.Reserve.Openable
import Lending.Proofs.Reserve.Payout
import Lending.Proofs.Market.BorrowLimit
import Lending.Proofs.Market.BestGroup
import Lending.Proofs.Obligation.Relieved
import Lending.Proofs.Obligation.Settled
import Lending.Proofs.Obligation.Idle
import Lending.Proofs.Obligation.RoundTrip
import Lending.Proofs.Obligation.LimitOrder
import Lending.Proofs.Obligation.UnusedSlots
import Lending.Proofs.Reserve.Standstill
import Lending.Proofs.Reserve.IdleRates
import Lending.Proofs.RateCurve.Ends
import Lending.Proofs.RateCurve.Segments
import Lending.Proofs.Interest.Expansion
import Lending.Proofs.Decimal.PowerOrder
import Lending.Proofs.ScaledFraction.Recoding
import Lending.Proofs.ElevationGroup
import Lending.Proofs.Obligation.PotentialGroups
import Lending.Proofs.Obligation.RateEntries
import Lending.Proofs.Reserve.BorrowFee
import Lending.Proofs.ScaledFraction.Limbs
