import StellarLend.Foundations.Total
import StellarLend.Lending.Conservation
import StellarLend.Lending.Withdrawal
import StellarLend.Lending.VaultTotals
import StellarLend.Lending.Authority
import StellarLend.Lending.Liquidation
import StellarLend.Lending.Separation
import StellarLend.Lending.Denomination
import StellarLend.Lending.Pausing
import StellarLend.Lending.Settings
import StellarLend.HelloWorld.Repayment
import StellarLend.HelloWorld.Guards
import StellarLend.HelloWorld.Collateral
import StellarLend.HelloWorld.FairLiquidation
import StellarLend.HelloWorld.SafeWithdrawal
import StellarLend.HelloWorld.BorrowGates
import StellarLend.HelloWorld.Health
import StellarLend.HelloWorld.Utilization
import StellarLend.HelloWorld.Pricing
import StellarLend.HelloWorld.Latching
import StellarLend.HelloWorld.Conservation
import StellarLend.CrossAsset.Solvency
import StellarLend.CrossAsset.Effects
import StellarLend.CrossAsset.Ranges
import StellarLend.CrossAsset.Isolation
import StellarLend.Stablecoin.Effects
import StellarLend.Bridge.Weight
import StellarLend.Bridge.Replay
import StellarLend.Bridge.Shutdown
import StellarLend.Governance.LifeCycle
import StellarLend.Governance.Membership
import StellarLend.Governance.Succession
import StellarLend.Governance.Warrants
import StellarLend.Governance.Elections
import StellarLend.Indexer.Reorgs
import StellarLend.Indexer.Gaps
import StellarLend.Indexer.Frontier
import StellarLend.Lending.Commitments
import StellarLend.Lending.Delegation
import StellarLend.Upgrade.Timeline
import StellarLend.DataStore.Snapshots
import StellarLend.Wallet.Authority
import StellarLend.Wallet.Quorums
import StellarLend.Merkle.Soundness
import StellarLend.AuditLog.Tampering
import StellarLend.Staking.VotingPower
import StellarLend.Lending.Repayable
import StellarLend.Insurance.Disputes
import StellarLend.Insurance.Payouts
import StellarLend.Insurance.Duplicates
import StellarLend.Lending.Reporting
import StellarLend.DebtToken.Registry
import StellarLend.LiquidationQueue.Order
import StellarLend.Timelock.Authority
import StellarLend.Governance.Delegation
import StellarLend.HelloWorld.RateLimits
import StellarLend.HelloWorld.Commits
import StellarLend.HelloWorld.Intents
import StellarLend.HelloWorld.Reserves
import StellarLend.CrossAsset.Liquidation
import StellarLend.OracleService.PriceHistory
import StellarLend.OracleService.CircuitBreaker
import StellarLend.OracleService.Freshness
import StellarLend.HelloWorld.RiskSteering
import StellarLend.HelloWorld.OneVote
import StellarLend.Common.Cache
import StellarLend.Common.MessageDelivery
import StellarLend.Stablecoin.Redemption
import StellarLend.Bridge.Slashing
import StellarLend.Amm.Callbacks
import StellarLend.Foundations.Rounding
import StellarLend.Lending.Accruals
import StellarLend.Lending.Repayment
import StellarLend.HelloWorld.RateCurves
import StellarLend.Lending.PartialFills
import StellarLend.Lending.StableRate
import StellarLend.HelloWorld.StoredIndex
import StellarLend.HelloWorld.Relief
import StellarLend.HelloWorld.Activity
import StellarLend.Staking.Rewards
import StellarLend.OracleService.WeightedMedian
import StellarLend.HelloWorld.Aggregation
import StellarLend.HelloWorld.TimeAverage
import StellarLend.Subscriptions.Idempotence
import StellarLend.Api.Idempotency
import StellarLend.Lending.Registry
import StellarLend.Subscriptions.Export
import StellarLend.Lending.Invariants
import StellarLend.Indexer.QueryService
import StellarLend.Api.CoalescingAccounts
import StellarLend.HelloWorld.ReserveFunds
