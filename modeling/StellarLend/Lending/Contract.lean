import StellarLend.Foundations.Run
import StellarLend.Lending.Indirect
import StellarLend.Lending.Views

/-!
# Lending/Contract — the entry points

The contract's public functions, and the machine they make: an `Op` is a call of one of them with
its arguments, and `step` is what the host keeps of it.  An invocation that returns an error or
traps changes nothing.

Entry points that only read (balances, rates, configuration) are left out of `Op`; the debt views
are in, since reading a debt may store a refreshed stable rate.
-/

namespace StellarLend.Lending

open Foundations Call

namespace LendingContract

/-! ## Setup and configuration -/

/-- The source's `initialize`. -/
def initializeProtocol (admin : Address) (debtCeiling minBorrowAmount : ℤ) :
    Invocation BorrowError Unit := do
  let current ← view getAdmin
  failIf (current.isSome = true) .unauthorized
  store fun s => { s with protocolAdmin := some admin }
  Borrow.initializeBorrowSettings debtCeiling minBorrowAmount
  setDefaultIfMissing

def setDelegationRegistry (admin registry : Address) : Invocation BorrowError Unit := do
  requireAdmin admin
  store fun s => { s with delegationRegistry := some registry }

def setPause (admin : Address) (pauseType : PauseType) (paused : Bool) :
    Invocation BorrowError Unit := do
  requireAdmin admin
  Pause.setPause pauseType paused

/-- Deprecated in favour of `setPause`, and unauthenticated. -/
def setDepositPaused (paused : Bool) : Invocation DepositError Unit :=
  Pause.setPause .deposit paused

def setFlashLoanFeeBps (feeBps : ℤ) : Invocation FlashLoanError Unit := do
  let current ← view getAdmin
  let current ← okOr current .unauthorized
  requireAuth current
  failIf (¬ (0 ≤ feeBps ∧ feeBps ≤ 1000)) .invalidFee
  store fun s => { s with flashLoanFeeBps := some feeBps }

def updateInterestRateModel (caller : Address) (update : InterestRateConfigUpdate) :
    Invocation BorrowError Unit := do
  let _ ← mapErr InterestRateError.toBorrowError (updateConfig caller update)
  pure ()

def setRiskAlertThresholds (admin : Address) (th : RiskAlertThresholds) :
    Invocation RiskMonitorError Unit := do
  requireAuth admin
  let stored ← view getAdmin
  let stored ← okOr stored .unauthorized
  failIf (admin ≠ stored) .unauthorized
  failIf (th.warningUtilizationBps = 0) .invalidThresholds
  failIf (0 < th.criticalUtilizationBps ∧ th.criticalUtilizationBps < th.warningUtilizationBps)
    .invalidThresholds
  failIf (0 < th.emergencyUtilizationBps ∧ th.criticalUtilizationBps = 0) .invalidThresholds
  failIf (0 < th.emergencyUtilizationBps ∧
    th.emergencyUtilizationBps < th.criticalUtilizationBps) .invalidThresholds
  store fun s => { s with riskAlertThresholds := some th, lastEmittedTier := some 0 }

/-! ## User operations -/

def repay (user asset : Address) (amount : ℤ) : Invocation BorrowError Unit := do
  requireAuth user
  let paused ← view fun s => isPaused s .repay
  failIf (paused = true) .protocolPaused
  Borrow.repay user asset amount

def repayWithRate (user asset : Address) (amount : ℤ) (rateType : RateType) :
    Invocation BorrowError Unit := do
  requireAuth user
  let paused ← view fun s => isPaused s .repay
  failIf (paused = true) .protocolPaused
  Borrow.repayWithRate user asset amount rateType

/-- The entry point and the borrow module both ask the user, in one frame. -/
def switchRateType (user asset : Address) (toRateType : RateType) :
    Invocation BorrowError Unit := do
  requireAuth user
  requireAuthAgain user
  Borrow.switchRateType user asset toRateType

def deposit (user asset : Address) (amount : ℤ) : Invocation DepositError ℤ := do
  let paused ← view fun s => isPaused s .deposit
  failIf (paused = true) .depositPaused
  Deposit.deposit user asset amount

def depositCollateral (user asset : Address) (amount : ℤ) : Invocation BorrowError Unit := do
  requireAuth user
  let paused ← view fun s => isPaused s .deposit
  failIf (paused = true) .protocolPaused
  Borrow.deposit user asset amount

def withdraw (user asset : Address) (amount : ℤ) : Invocation WithdrawError ℤ := do
  let paused ← view fun s => isPaused s .withdraw
  failIf (paused = true) .withdrawPaused
  Withdraw.withdraw user asset amount

/-! ## Bad debt -/

def getTotalBadDebt (s : Storage) : ℤ := s.badDebtTotal.getD 0
def getUserBadDebt (s : Storage) (user : Address) : ℤ := (s.badDebtUser user).getD 0
def getReserves (s : Storage) : ℤ := s.protocolReserves.getD 0

/-- The store with another total of bad debt. -/
def withBadDebtTotal (total : ℤ) (s : Storage) : Storage := { s with badDebtTotal := some total }

/-- The store with another bad debt of a user. -/
def withBadDebtUser (user : Address) (amount : ℤ) (s : Storage) : Storage :=
  { s with badDebtUser := Function.update s.badDebtUser user (some amount) }

/-- Book bad debt for a user.  Overflow traps. -/
def addBadDebt {ε : Type} (user : Address) (amount : ℤ) : Invocation ε Unit := do
  let total ← view getTotalBadDebt
  let total ← orTrap (I128.checkedAdd total amount)
  store (withBadDebtTotal total)
  let userDebt ← view fun s => getUserBadDebt s user
  let userDebt ← orTrap (I128.checkedAdd userDebt amount)
  store (withBadDebtUser user userDebt)

/-- Book what a liquidation leaves uncovered.  The asset arguments are unused. -/
def liquidate (liquidator borrower _debtAsset _collateralAsset : Address) (repayAmount : ℤ) :
    Invocation BorrowError Unit := do
  requireAuth liquidator
  let paused ← view fun s => isPaused s .liquidation
  failIf (paused = true) .protocolPaused
  let debtValue ← Views.getDebtValue borrower
  let health ← Views.getHealthFactor borrower
  failIf (10000 ≤ health) .positionHealthy
  onlyIf (repayAmount < debtValue) do
    let badDebt ← orTrap (I128.checkedSub debtValue repayAmount)
    addBadDebt borrower badDebt

/-- The store with other reserves. -/
def withReserves (amount : ℤ) (s : Storage) : Storage := { s with protocolReserves := some amount }

def recoverBadDebt (admin : Address) (amount : ℤ) : Invocation BorrowError Unit := do
  requireAdmin admin
  let reserves ← view getReserves
  let badDebt ← view getTotalBadDebt
  failIf (reserves < amount) .insufficientReserves
  let repayAmount := if badDebt < amount then badDebt else amount
  let reserves ← orTrap (I128.checkedSub reserves repayAmount)
  let badDebt ← orTrap (I128.checkedSub badDebt repayAmount)
  store (withReserves reserves)
  store (withBadDebtTotal badDebt)

/-! ## Flash loans -/

def calculateFee (s : Storage) (amount : ℤ) : ℤ :=
  I128.saturatingDiv (I128.saturatingMul amount (s.flashLoanFeeBps.getD 9)) 10000

/-- The re-entrancy guard is left out: it is cleared when the call ends, so no call finds it set. -/
def flashLoan (receiver asset : Address) (amount : ℤ) : Invocation FlashLoanError Unit := do
  let paused ← view fun s => isPaused s .flashLoan
  failIf (paused = true) .flashLoanPaused
  failIf (amount ≤ 0) .invalidAmount
  let fee ← view fun s => calculateFee s amount
  let answers ← asks fun e => e.flash receiver asset
  let initialBalance ← orTrap answers.balanceBefore
  require fun e => (e.flash receiver asset).transferred
  let callbackResult ← orTrap answers.onFlashLoan
  failIf (callbackResult = false) .callbackFailed
  let finalBalance ← orTrap answers.balanceAfter
  let due ← orTrap (I128.checkedAdd initialBalance fee)
  failIf (finalBalance < due) .insufficientRepayment

end LendingContract

/-! ## The machine -/

/-- A call of an entry point. -/
inductive Op where
  | initializeProtocol (admin : Address) (debtCeiling minBorrowAmount : ℤ)
  | setDelegationRegistry (admin registry : Address)
  | executeDelegated (delegator delegate : Address) (nonce deadline : ℕ) (calls : List MetaCall)
  | addBadDebt (user : Address) (amount : ℤ)
  | borrow (user asset : Address) (amount : ℤ) (collateralAsset : Address) (collateralAmount : ℤ)
  | borrowWithRate (user asset : Address) (amount : ℤ) (collateralAsset : Address)
      (collateralAmount : ℤ) (rateType : RateType)
  | setPause (admin : Address) (pauseType : PauseType) (paused : Bool)
  | repay (user asset : Address) (amount : ℤ)
  | repayWithRate (user asset : Address) (amount : ℤ) (rateType : RateType)
  | switchRateType (user asset : Address) (toRateType : RateType)
  | deposit (user asset : Address) (amount : ℤ)
  | depositCollateral (user asset : Address) (amount : ℤ)
  | liquidate (liquidator borrower debtAsset collateralAsset : Address) (repayAmount : ℤ)
  | getUserDebt (user : Address)
  | getUserDebtWithRate (user : Address) (rateType : RateType)
  | setVariableBorrowRateBps (admin : Address) (rateBps : ℤ)
  | getDebtBalance (user : Address)
  | getDebtValue (user : Address)
  | getHealthFactor (user : Address)
  | getUserPosition (user : Address)
  | setOracle (admin oracle : Address)
  | setLiquidationThresholdBps (admin : Address) (bps : ℤ)
  | initializeDepositSettings (depositCap minDepositAmount : ℤ)
  | setDepositPaused (paused : Bool)
  | flashLoan (receiver asset : Address) (amount : ℤ)
  | setFlashLoanFeeBps (feeBps : ℤ)
  | updateInterestRateModel (caller : Address) (update : InterestRateConfigUpdate)
  | withdraw (user asset : Address) (amount : ℤ)
  | initializeWithdrawSettings (minWithdrawAmount : ℤ)
  | setWithdrawPaused (paused : Bool)
  | receive (tokenAsset sender : Address) (amount : ℤ) (payload : List Val)
  | initializeBorrowSettings (debtCeiling minBorrowAmount : ℤ)
  | setStablecoinConfig (admin asset : Address) (config : StablecoinConfig)
  | setRiskAlertThresholds (admin : Address) (thresholds : RiskAlertThresholds)
  | createBorrowCommitment (owner : Address) (triggers : List PriceTrigger)
      (combiner : TriggerCombiner) (borrowAsset collateralAsset : Address)
      (borrowAmount collateralAmount : ℤ) (minFillBps expiryTimestamp : ℕ)
  | cancelBorrowCommitment (owner : Address) (commitmentId : ℕ)
  | executeBorrowCommitment (commitmentId : ℕ)
  | recoverBadDebt (admin : Address) (amount : ℤ)
  deriving DecidableEq

/-- A transaction: a call and what it finds around it. -/
structure Tx where
  env : Env
  op : Op

/-- The store after a call that succeeded. -/
def Op.apply (op : Op) (e : Env) (s : Storage) : Option Storage :=
  match op with
  | .initializeProtocol admin ceiling minBorrow =>
    commit (LendingContract.initializeProtocol admin ceiling minBorrow) e s
  | .setDelegationRegistry admin registry =>
    commit (LendingContract.setDelegationRegistry admin registry) e s
  | .executeDelegated delegator delegate nonce deadline calls =>
    commit (Meta.executeDelegated delegator delegate nonce deadline calls) e s
  | .addBadDebt user amount =>
    commit (LendingContract.addBadDebt user amount : Invocation BorrowError Unit) e s
  | .borrow user asset amount casset camount =>
    commit (Borrow.borrow user asset amount casset camount) e s
  | .borrowWithRate user asset amount casset camount rate =>
    commit (Borrow.borrowWithRate user asset amount casset camount rate) e s
  | .setPause admin k paused => commit (LendingContract.setPause admin k paused) e s
  | .repay user asset amount => commit (LendingContract.repay user asset amount) e s
  | .repayWithRate user asset amount rate =>
    commit (LendingContract.repayWithRate user asset amount rate) e s
  | .switchRateType user asset rate => commit (LendingContract.switchRateType user asset rate) e s
  | .deposit user asset amount => commit (LendingContract.deposit user asset amount) e s
  | .depositCollateral user asset amount =>
    commit (LendingContract.depositCollateral user asset amount) e s
  | .liquidate liquidator borrower debtAsset casset amount =>
    commit (LendingContract.liquidate liquidator borrower debtAsset casset amount) e s
  | .getUserDebt user =>
    commit (Borrow.getUserDebt user : Invocation BorrowError DebtPosition) e s
  | .getUserDebtWithRate user rate =>
    commit (Borrow.getUserDebtWithRate user rate : Invocation BorrowError DebtPosition) e s
  | .setVariableBorrowRateBps admin rate => commit (Borrow.setVariableBorrowRateBps admin rate) e s
  | .getDebtBalance user => commit (Views.getDebtBalance user : Invocation BorrowError ℤ) e s
  | .getDebtValue user => commit (Views.getDebtValue user : Invocation BorrowError ℤ) e s
  | .getHealthFactor user => commit (Views.getHealthFactor user : Invocation BorrowError ℤ) e s
  | .getUserPosition user =>
    commit (Views.getUserPosition user : Invocation BorrowError UserPositionSummary) e s
  | .setOracle admin oracle => commit (Borrow.setOracle admin oracle) e s
  | .setLiquidationThresholdBps admin bps =>
    commit (Borrow.setLiquidationThresholdBps admin bps) e s
  | .initializeDepositSettings cap minDeposit =>
    commit (Deposit.initializeDepositSettings cap minDeposit : Invocation DepositError Unit) e s
  | .setDepositPaused paused => commit (LendingContract.setDepositPaused paused) e s
  | .flashLoan receiver asset amount =>
    commit (LendingContract.flashLoan receiver asset amount) e s
  | .setFlashLoanFeeBps fee => commit (LendingContract.setFlashLoanFeeBps fee) e s
  | .updateInterestRateModel caller update =>
    commit (LendingContract.updateInterestRateModel caller update) e s
  | .withdraw user asset amount => commit (LendingContract.withdraw user asset amount) e s
  | .initializeWithdrawSettings minWithdraw =>
    commit (Withdraw.initializeWithdrawSettings minWithdraw : Invocation WithdrawError Unit) e s
  | .setWithdrawPaused paused =>
    commit (Withdraw.setWithdrawPaused paused : Invocation WithdrawError Unit) e s
  | .receive token sender amount payload =>
    commit (TokenReceiver.receive token sender amount payload) e s
  | .initializeBorrowSettings ceiling minBorrow =>
    commit (Borrow.initializeBorrowSettings ceiling minBorrow : Invocation BorrowError Unit) e s
  | .setStablecoinConfig admin asset config =>
    commit (Borrow.setStablecoinConfig admin asset config) e s
  | .setRiskAlertThresholds admin th =>
    commit (LendingContract.setRiskAlertThresholds admin th) e s
  | .createBorrowCommitment owner triggers combiner basset casset bamount camount fill expiry =>
    commit (Commitments.createBorrowCommitment owner triggers combiner basset casset bamount camount
      fill expiry) e s
  | .cancelBorrowCommitment owner id => commit (Commitments.cancelBorrowCommitment owner id) e s
  | .executeBorrowCommitment id => commit (Commitments.executeBorrowCommitment id) e s
  | .recoverBadDebt admin amount => commit (LendingContract.recoverBadDebt admin amount) e s

/-- The store after a transaction that succeeded. -/
def step (tx : Tx) (s : Storage) : Option Storage := tx.op.apply tx.env s

/-- **The state of the contract after a sequence of transactions on a fresh deployment.** -/
def ledger (txs : List Tx) : Storage := run step Storage.empty txs

theorem ledger_snoc (txs : List Tx) (tx : Tx) :
    ledger (txs ++ [tx]) = exec step (ledger txs) tx := run_snoc ..

/-- A reachable state of the contract. -/
def Reachable (s : Storage) : Prop := ∃ txs, ledger txs = s

/-- An invariant of every step holds of every reachable state. -/
theorem Reachable.invariant {I : Storage → Prop} (h0 : I Storage.empty)
    (hstep : ∀ s tx s', step tx s = some s' → I s → I s') {s : Storage} (h : Reachable s) :
    I s := by
  obtain ⟨txs, rfl⟩ := h
  exact run_invariant hstep txs h0

/-! ## Sample addresses

The parties of the concrete runs below, and the surroundings of a call without external
contracts. -/

namespace Sample

def admin : Address := ⟨0⟩
def alice : Address := ⟨1⟩
def bob : Address := ⟨2⟩
def usdc : Address := ⟨10⟩
def xlm : Address := ⟨11⟩
def oracle : Address := ⟨20⟩

/-- A call at a time, signed by some addresses, that finds no external contract. -/
def envAt (now : ℕ) (auths : List Address) : Env where
  timestamp := now
  auths := auths
  price _ _ := none
  validate _ _ _ _ := none
  flash _ _ := ⟨none, false, none, none⟩

/-- The first transaction of a deployment. -/
def deploy : Tx := ⟨envAt 0 [admin], .initializeProtocol admin 1000000 1000⟩

end Sample

end StellarLend.Lending
