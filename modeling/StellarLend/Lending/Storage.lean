import Mathlib.Logic.Function.Basic
import StellarLend.Foundations.Call
import StellarLend.Foundations.Checked

/-!
# Lending/Storage — what the lending contract stores, and what it is called with

One field of `Storage` per storage key of the contract; a key that takes an argument is a partial
function of it, and `none` is an absent entry (the readers supply the defaults).  `Env` is what an
invocation finds around it: the ledger time, the addresses that authorised the call, and the
answers of the contracts it calls out to.

Amounts are `i128` values carried as `ℤ`, timestamps and identifiers `u64` values carried as `ℕ`;
the operations of `Foundations/Checked` say where the source would overflow.

Two entries that no position depends on come with their functions: the pause flags every operation
consults, and the alert tier a borrow latches.
-/

namespace StellarLend.Lending

open Foundations

/-- An account or contract address. -/
structure Address where
  id : ℕ
  deriving DecidableEq, Repr

/-! ## Borrow module -/

inductive RateType where
  | variable
  | stable
  deriving DecidableEq, Repr

inductive BorrowError where
  | insufficientCollateral
  | debtCeilingReached
  | protocolPaused
  | invalidAmount
  | overflow
  | unauthorized
  | assetNotSupported
  | belowMinimumBorrow
  | repayAmountTooHigh
  | positionHealthy
  | insufficientReserves
  deriving DecidableEq, Repr

/-- User debt in one rate bucket. -/
structure DebtPosition where
  borrowedAmount : ℤ
  interestAccrued : ℤ
  lastUpdate : ℕ
  asset : Address
  rateType : RateType
  stableRateBps : ℤ
  deriving DecidableEq, Repr

/-- User collateral of the borrow positions. -/
structure BorrowCollateral where
  amount : ℤ
  asset : Address
  deriving DecidableEq, Repr

structure StablecoinConfig where
  targetPrice : ℤ
  pegThresholdBps : ℤ
  stabilityFeeBps : ℤ
  emergencyThresholdBps : ℤ
  deriving DecidableEq, Repr

/-- The smoothed variable rate that stable borrows are priced from. -/
structure StableRateState where
  avgRateBps : ℤ
  lastUpdate : ℕ
  deriving DecidableEq, Repr

/-! ## Interest rate model -/

inductive InterestRateError where
  | unauthorized
  | invalidParameter
  | overflow
  | divisionByZero
  deriving DecidableEq, Repr

structure InterestRateConfig where
  baseRateBps : ℤ
  kinkUtilizationBps : ℤ
  slopeBps : ℤ
  jumpSlopeBps : ℤ
  rateFloorBps : ℤ
  rateCeilingBps : ℤ
  spreadBps : ℤ
  lastUpdate : ℕ
  deriving DecidableEq, Repr

structure InterestRateConfigUpdate where
  baseRateBps : Option ℤ
  kinkUtilizationBps : Option ℤ
  slopeBps : Option ℤ
  jumpSlopeBps : Option ℤ
  rateFloorBps : Option ℤ
  rateCeilingBps : Option ℤ
  spreadBps : Option ℤ
  deriving DecidableEq, Repr

/-! ## Vault: deposit and withdraw -/

inductive DepositError where
  | invalidAmount
  | depositPaused
  | overflow
  | assetNotSupported
  | exceedsDepositCap
  | unauthorized
  deriving DecidableEq, Repr

/-- User position in the vault. -/
structure DepositCollateral where
  amount : ℤ
  asset : Address
  lastDepositTime : ℕ
  deriving DecidableEq, Repr

inductive WithdrawError where
  | invalidAmount
  | withdrawPaused
  | overflow
  | insufficientCollateral
  | insufficientCollateralRatio
  | unauthorized
  deriving DecidableEq, Repr

/-! ## Pausing -/

inductive PauseType where
  | all
  | deposit
  | borrow
  | repay
  | withdraw
  | liquidation
  | flashLoan
  | bridgeAcceptance
  deriving DecidableEq, Repr

/-! ## Commitments -/

inductive CommitmentError where
  | notFound
  | unauthorized
  | badConfig
  | expired
  | notExecutable
  | oracleNotConfigured
  | triggerNotMet
  | belowMinPartialFill
  | borrowFailed
  | tooManyTriggers
  deriving DecidableEq, Repr

inductive TriggerCombiner where
  | any
  | all
  deriving DecidableEq, Repr

structure PriceTrigger where
  asset : Address
  triggerPrice : ℤ
  fireWhenAtOrAbove : Bool
  deriving DecidableEq, Repr

inductive CommitmentStatus where
  | pending
  | executed
  | cancelled
  | expired
  deriving DecidableEq, Repr

structure BorrowCommitment where
  owner : Address
  triggers : List PriceTrigger
  combiner : TriggerCombiner
  borrowAsset : Address
  collateralAsset : Address
  borrowAmount : ℤ
  collateralAmount : ℤ
  minFillBps : ℕ
  expiryTimestamp : ℕ
  status : CommitmentStatus
  deriving DecidableEq, Repr

/-! ## Delegated calls -/

inductive MetaTxError where
  | unauthorized
  | expired
  | invalidNonce
  | delegationMissing
  | delegationExpired
  | permissionDenied
  deriving DecidableEq, Repr

inductive Action where
  | deposit
  | withdraw
  | borrow
  | repay
  | depositCollateral
  deriving DecidableEq, Repr

/-- One call of a delegated batch. -/
structure MetaCall where
  action : Action
  asset : Address
  amount : ℤ
  collateralAsset : Option Address
  collateralAmount : Option ℤ
  deriving DecidableEq, Repr

/-! ## Monitoring and flash loans -/

structure RiskAlertThresholds where
  warningUtilizationBps : ℕ
  criticalUtilizationBps : ℕ
  emergencyUtilizationBps : ℕ
  deriving DecidableEq, Repr

inductive RiskMonitorError where
  | unauthorized
  | invalidThresholds
  deriving DecidableEq, Repr

inductive FlashLoanError where
  | invalidAmount
  | insufficientRepayment
  | unauthorized
  | invalidFee
  | callbackFailed
  | reentrancy
  | flashLoanPaused
  deriving DecidableEq, Repr

/-! ## The store -/

/-- Persistent storage, one field per key. -/
structure Storage where
  -- borrow module
  protocolAdmin : Option Address
  borrowUserDebt : Address → Option DebtPosition
  borrowUserVariableDebt : Address → Option DebtPosition
  borrowUserStableDebt : Address → Option DebtPosition
  borrowUserCollateral : Address → Option BorrowCollateral
  borrowTotalDebt : Option ℤ
  borrowDebtCeiling : Option ℤ
  borrowInterestRate : Option InterestRateConfig
  borrowMinAmount : Option ℤ
  oracleAddress : Option Address
  liquidationThresholdBps : Option ℤ
  closeFactorBps : Option ℤ
  assetStablecoinConfig : Address → Option StablecoinConfig
  stableRateState : Option StableRateState
  stableRatePremiumBps : Option ℤ
  stableRateRecalcIntervalSecs : Option ℕ
  rateSwitchFeeBps : Option ℤ
  -- vault
  userCollateral : Address → Option DepositCollateral
  totalAmount : Option ℤ
  capAmount : Option ℤ
  minAmount : Option ℤ
  withdrawPaused : Option Bool
  minWithdrawAmount : Option ℤ
  -- pausing
  pauseState : PauseType → Option Bool
  -- commitments
  nextId : Option ℕ
  commitment : ℕ → Option BorrowCommitment
  -- delegated calls
  delegationRegistry : Option Address
  nonce : Address → Option ℕ
  -- bad debt
  badDebtTotal : Option ℤ
  badDebtUser : Address → Option ℤ
  protocolReserves : Option ℤ
  -- monitoring and flash loans
  riskAlertThresholds : Option RiskAlertThresholds
  lastEmittedTier : Option ℕ
  flashLoanFeeBps : Option ℤ

/-- A freshly deployed contract. -/
def Storage.empty : Storage where
  protocolAdmin := none
  borrowUserDebt := fun _ => none
  borrowUserVariableDebt := fun _ => none
  borrowUserStableDebt := fun _ => none
  borrowUserCollateral := fun _ => none
  borrowTotalDebt := none
  borrowDebtCeiling := none
  borrowInterestRate := none
  borrowMinAmount := none
  oracleAddress := none
  liquidationThresholdBps := none
  closeFactorBps := none
  assetStablecoinConfig := fun _ => none
  stableRateState := none
  stableRatePremiumBps := none
  stableRateRecalcIntervalSecs := none
  rateSwitchFeeBps := none
  userCollateral := fun _ => none
  totalAmount := none
  capAmount := none
  minAmount := none
  withdrawPaused := none
  minWithdrawAmount := none
  pauseState := fun _ => none
  nextId := none
  commitment := fun _ => none
  delegationRegistry := none
  nonce := fun _ => none
  badDebtTotal := none
  badDebtUser := fun _ => none
  protocolReserves := none
  riskAlertThresholds := none
  lastEmittedTier := none
  flashLoanFeeBps := none

/-! ## The surroundings of a call -/

/-- What a flash loan finds at the token contract and at its receiver. -/
structure FlashAnswers where
  /-- The contract's balance of the asset before the loan. -/
  balanceBefore : Option ℤ
  /-- The transfer to the receiver went through. -/
  transferred : Bool
  /-- The receiver's answer to the callback. -/
  onFlashLoan : Option Bool
  /-- The contract's balance of the asset after the callback. -/
  balanceAfter : Option ℤ
  deriving DecidableEq, Repr

/-- What an invocation finds around it.  `none` is an external call that traps. -/
structure Env where
  timestamp : ℕ
  /-- The authorisations the host accepts for this invocation, by address. -/
  auths : List Address
  /-- `price(asset)` as an oracle contract answers it. -/
  price : Address → Address → Option ℤ
  /-- `validate(delegator, delegate, permission)` as a registry contract answers it. -/
  validate : Address → Address → Address → ℕ → Option Bool
  /-- The answers of the token contract and of the receiver of a flash loan of an asset. -/
  flash : Address → Address → FlashAnswers

/-- An invocation of the lending contract, or a part of one. -/
abbrev Invocation (ε α : Type) : Type := Call Env Storage ε α

/-- `address.require_auth()`. -/
abbrev requireAuth {ε : Type} (a : Address) : Invocation ε Unit := Call.requireAuth Env.auths a

/-- `address.require_auth()` where this frame has asked the address before. -/
abbrev requireAuthAgain {ε : Type} (a : Address) : Invocation ε Unit :=
  Call.requireAuthAgain Env.auths a

/-- A call that asks for the signature first is the call that does not, signed. -/
theorem onlyIf_requireAuth_ok {ε α : Type} {c c' : Prop} [Decidable c] [Decidable c'] (hc : c)
    (hc' : ¬ c') {a : Address} {f : Unit → Invocation ε α} {e : Env} {s s' : Storage} {r : α} :
    (Call.onlyIf c (requireAuth a) >>= f) e s = .ok r s' ↔
      a ∈ e.auths ∧ (Call.onlyIf c' (requireAuth a) >>= f) e s = .ok r s' := by
  simp [hc, hc']

open Call

/-! ## Pause flags -/

/-- An operation is paused by its own flag or by the `all` flag. -/
def isPaused (s : Storage) (pauseType : PauseType) : Bool :=
  if (s.pauseState .all).getD false then true
  else if pauseType ≠ .all then (s.pauseState pauseType).getD false
  else false

/-- Store a pause flag.  The caller has checked the admin. -/
def Pause.setPause {ε : Type} (pauseType : PauseType) (paused : Bool) : Invocation ε Unit :=
  store fun s => { s with pauseState := Function.update s.pauseState pauseType (some paused) }

theorem isPaused_congr {s s' : Storage} (h : s'.pauseState = s.pauseState) (k : PauseType) :
    isPaused s' k = isPaused s k := by simp only [isPaused, h]

/-! ## Utilization alerts -/

inductive RiskAlertSeverity where
  | warning
  | critical
  | emergency
  deriving DecidableEq, Repr

def severityDiscriminant : RiskAlertSeverity → ℕ
  | .warning => 1
  | .critical => 2
  | .emergency => 3

def severityForUtil (utilBps : ℕ) (th : RiskAlertThresholds) : RiskAlertSeverity :=
  if 0 < th.emergencyUtilizationBps ∧ th.emergencyUtilizationBps ≤ utilBps then .emergency
  else if 0 < th.criticalUtilizationBps ∧ th.criticalUtilizationBps ≤ utilBps then .critical
  else .warning

/-- The tier latched after a borrow brings the total debt to `totalDebt`. -/
def tierAfter (s : Storage) (totalDebt debtCeiling : ℤ) : Option ℕ :=
  if debtCeiling ≤ 0 then s.lastEmittedTier
  else
    match s.riskAlertThresholds with
    | none => s.lastEmittedTier
    | some th =>
      if th.warningUtilizationBps = 0 then s.lastEmittedTier
      else
        let utilBps :=
          min (I128.saturatingDiv (I128.saturatingMul totalDebt 10000) debtCeiling).toNat
            (2 ^ 32 - 1)
        -- below the warning band the latch is reset
        if utilBps < th.warningUtilizationBps then some 0
        else
          let tier := severityDiscriminant (severityForUtil utilBps th)
          if s.lastEmittedTier.getD 0 < tier then some tier else s.lastEmittedTier

/-- The store with another tier latched. -/
def withTier (tier : Option ℕ) (s : Storage) : Storage := { s with lastEmittedTier := tier }

/-- Called after the total debt is updated following a borrow. -/
def onUtilizationChanged {ε : Type} (totalDebt debtCeiling : ℤ) : Invocation ε Unit :=
  store fun s => withTier (tierAfter s totalDebt debtCeiling) s

end StellarLend.Lending
