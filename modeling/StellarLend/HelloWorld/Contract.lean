import StellarLend.Foundations.Run
import StellarLend.HelloWorld.Admin

/-!
# HelloWorld/Contract — the entry points

The contract's public functions and the machine they make: an `Op` is a call of one of them with its
arguments, and `step` is what the host keeps of it.  An invocation that returns an error or traps
changes nothing.

Reading an entry point is left out of `Op` unless the reading writes: valuing collateral refreshes
the oracle's cache, and asking the breaker may close it.  In are also the public functions of the
modules that no entry point reaches, and the effect of a governance proposal, as a call of its own
that nothing guards.  What holds of every run here holds of the runs the contract allows.
-/

namespace StellarLend.HelloWorld

open Foundations Call
open Lending (Address)

namespace HelloContract

/-! ## Setup and configuration -/

/-- The source's `initialize`. -/
def initializeContract (admin : Address) : Invocation LendingError Unit := do
  let initialized ← view hasAdmin
  failIf (initialized = true) .unauthorized
  mapErr (fun _ => .unauthorized) (setAdmin admin none)
  mapErr RiskManagementError.toLendingError initializeRiskManagement
  mapErr (fun _ => .invalidParameter) initializeRiskParams
  mapErr (fun err => if err = .alreadyInitialized then .alreadyInitialized else .unauthorized)
    initializeInterestRateConfig

def transferAdmin (caller newAdmin : Address) : Invocation LendingError Unit :=
  mapErr AdminError.toLendingError (setAdmin newAdmin (some caller))

def setRiskParams (caller : Address) (minCollateralRatio liquidationThreshold closeFactor
    liquidationIncentive : Option ℤ) : Invocation LendingError Unit := do
  mapErr RiskManagementError.toLendingError (requireRiskAdmin caller)
  mapErr (fun _ => .invalidParameter)
    (HelloWorld.setRiskParams minCollateralRatio liquidationThreshold closeFactor
      liquidationIncentive)

/-- The admin is checked here and once more in the module. -/
def setEmergencyPause (caller : Address) (paused : Bool) : Invocation LendingError Unit := do
  mapErr RiskManagementError.toLendingError (requireRiskAdmin caller)
  mapErr RiskManagementError.toLendingError (HelloWorld.setEmergencyPause caller paused)

def updateAssetConfig (asset : Address) (params : AssetParams) : Invocation LendingError Unit := do
  let admin ← view getAdmin
  let admin ← okOr admin .unauthorized
  requireAuth admin
  setAssetParams asset params

/-! ## Operations on positions -/

def depositCollateral (user : Address) (asset : Option Address) (amount : ℤ) :
    Invocation LendingError ℤ :=
  mapErr DepositError.toLendingError (HelloWorld.depositCollateral user asset amount)

def borrowAsset (user : Address) (asset : Option Address) (amount : ℤ) :
    Invocation LendingError ℤ := do
  limited user user "borrow" asset
  mapErr BorrowError.toLendingError (HelloWorld.borrowAsset user asset amount)

def borrowAssetIntent (relayer user : Address) (asset : Option Address) (amount : ℤ)
    (nonce expiresAt : ℕ) : Invocation LendingError ℤ := do
  requireAuth relayer
  mapErr (fun _ => .unauthorized)
    (requireIntentAuth user "borrow" nonce expiresAt (.borrow user asset amount))
  limited relayer user "borrow" asset
  mapErr BorrowError.toLendingError (HelloWorld.borrowAsset user asset amount)

def repayDebt (user : Address) (asset : Option Address) (amount : ℤ) :
    Invocation LendingError (ℤ × ℤ × ℤ) :=
  mapErr RepayError.toLendingError (HelloWorld.repayDebt user asset amount)

def withdrawCollateral (user : Address) (asset : Option Address) (amount : ℤ) :
    Invocation LendingError ℤ :=
  mapErr WithdrawError.toLendingError (HelloWorld.withdrawCollateral user asset amount)

def liquidate (liquidator borrower : Address) (debtAsset collateralAsset : Option Address)
    (debtAmount : ℤ) : Invocation LendingError (ℤ × ℤ × ℤ) := do
  requireAuth liquidator
  limited liquidator liquidator "liquidate" debtAsset
  mapErr LiquidationError.toLendingError
    (HelloWorld.liquidate liquidator borrower debtAsset collateralAsset debtAmount)

def liquidateIntent (relayer liquidator borrower : Address)
    (debtAsset collateralAsset : Option Address) (debtAmount : ℤ) (nonce expiresAt : ℕ) :
    Invocation LendingError (ℤ × ℤ × ℤ) := do
  requireAuth relayer
  mapErr (fun _ => .unauthorized)
    (requireIntentAuth liquidator "liquidate" nonce expiresAt
      (.liquidate liquidator borrower debtAsset collateralAsset debtAmount))
  limited relayer liquidator "liquidate" debtAsset
  mapErr LiquidationError.toLendingError
    (HelloWorld.liquidate liquidator borrower debtAsset collateralAsset debtAmount)

/-! ## Commit and reveal -/

def commitBorrowProtected (user : Address) (asset : Option Address) (amount maxFeeBps : ℤ)
    (hint : TxOrderingHint) : Invocation LendingError ℕ :=
  mapErr MevProtectionError.toLendingError
    (createCommit user .borrow asset none none amount maxFeeBps hint)

def revealBorrowProtected (user : Address) (commitId : ℕ) : Invocation LendingError ℤ := do
  let (asset, amount) ← mapErr MevProtectionError.toLendingError (revealBorrow user commitId)
  mapErr BorrowError.toLendingError (HelloWorld.borrowAsset user asset amount)

def commitWithdrawProtected (user : Address) (asset : Option Address) (amount maxFeeBps : ℤ)
    (hint : TxOrderingHint) : Invocation LendingError ℕ :=
  mapErr MevProtectionError.toLendingError
    (createCommit user .withdraw asset none none amount maxFeeBps hint)

def revealWithdrawProtected (user : Address) (commitId : ℕ) : Invocation LendingError ℤ := do
  let (asset, amount) ← mapErr MevProtectionError.toLendingError (revealWithdraw user commitId)
  mapErr WithdrawError.toLendingError (HelloWorld.withdrawCollateral user asset amount)

def commitLiquidationProtected (liquidator borrower : Address)
    (debtAsset collateralAsset : Option Address) (debtAmount maxFeeBps : ℤ)
    (hint : TxOrderingHint) : Invocation LendingError ℕ :=
  mapErr MevProtectionError.toLendingError
    (createCommit liquidator .liquidate debtAsset collateralAsset (some borrower) debtAmount
      maxFeeBps hint)

def revealLiquidationProtected (liquidator : Address) (commitId : ℕ) :
    Invocation LendingError (ℤ × ℤ × ℤ) := do
  let (borrower, debtAsset, collateralAsset, debtAmount) ←
    mapErr MevProtectionError.toLendingError (revealLiquidation liquidator commitId)
  mapErr LiquidationError.toLendingError
    (HelloWorld.liquidate liquidator borrower debtAsset collateralAsset debtAmount)

end HelloContract

/-! ## Governance -/

/-- What a proposal can do to the state here.  A generic action cannot be executed. -/
inductive ProposalType where
  | minCollateralRatio (ratio : ℤ)
  | riskParams (mcr lt cf li : Option ℤ)
  | interestRateConfig (baseRate kink multiplier jumpMultiplier rateFloor rateCeiling spread :
      Option ℤ)
  | pauseSwitch (operation : String) (paused : Bool)
  | emergencyPause (paused : Bool)
  deriving DecidableEq, Repr

/-- The calls are made in the name of `admin`, the governance module's admin. -/
def executeProposalType (admin : Address) : ProposalType → Invocation LendingError Unit
  | .minCollateralRatio ratio =>
    mapErr (fun _ => .governanceError) (setRiskParams (some ratio) none none none)
  | .riskParams mcr lt cf li => mapErr (fun _ => .governanceError) (setRiskParams mcr lt cf li)
  | .interestRateConfig baseRate kink multiplier jumpMultiplier rateFloor rateCeiling spread =>
    mapErr (fun _ => .governanceError)
      (updateInterestRateConfig admin baseRate kink multiplier jumpMultiplier rateFloor rateCeiling
        spread)
  | .pauseSwitch operation paused =>
    mapErr (fun _ => .governanceError) (setPauseSwitch admin operation paused)
  | .emergencyPause paused => mapErr (fun _ => .governanceError) (setEmergencyPause admin paused)

/-! ## Calls -/

/-- A call of the contract. -/
inductive Op where
  -- operations on positions
  | depositCollateral (user : Address) (asset : Option Address) (amount : ℤ)
  | borrowAsset (user : Address) (asset : Option Address) (amount : ℤ)
  | borrowAssetIntent (relayer user : Address) (asset : Option Address) (amount : ℤ)
      (nonce expiresAt : ℕ)
  | repayDebt (user : Address) (asset : Option Address) (amount : ℤ)
  | withdrawCollateral (user : Address) (asset : Option Address) (amount : ℤ)
  | liquidate (liquidator borrower : Address) (debtAsset collateralAsset : Option Address)
      (debtAmount : ℤ)
  | liquidateIntent (relayer liquidator borrower : Address)
      (debtAsset collateralAsset : Option Address) (debtAmount : ℤ) (nonce expiresAt : ℕ)
  | revealBorrowProtected (user : Address) (commitId : ℕ)
  | revealWithdrawProtected (user : Address) (commitId : ℕ)
  | revealLiquidationProtected (liquidator : Address) (commitId : ℕ)
  -- commits
  | commitBorrowProtected (user : Address) (asset : Option Address) (amount maxFeeBps : ℤ)
      (hint : TxOrderingHint)
  | commitWithdrawProtected (user : Address) (asset : Option Address) (amount maxFeeBps : ℤ)
      (hint : TxOrderingHint)
  | commitLiquidationProtected (liquidator borrower : Address)
      (debtAsset collateralAsset : Option Address) (debtAmount maxFeeBps : ℤ)
      (hint : TxOrderingHint)
  | cancelMevCommit (user : Address) (commitId : ℕ)
  -- setup and configuration
  | initializeContract (admin : Address)
  | transferAdmin (caller newAdmin : Address)
  | setRiskParams (caller : Address) (mcr lt cf li : Option ℤ)
  | setEmergencyPause (caller : Address) (paused : Bool)
  | updateAssetConfig (asset : Address) (params : AssetParams)
  | updateInterestRateConfig (caller : Address)
      (baseRate kink multiplier jumpMultiplier rateFloor rateCeiling spread : Option ℤ)
  | configureMevProtection (caller : Address) (config : MevProtectionConfig)
  | configureRateLimitOperation (caller : Address) (operation : String) (cfg : RateLimitConfig)
  | configureRateLimitPool (caller : Address) (operation : String) (pool : Address)
      (cfg : RateLimitConfig)
  | setUserRateLimitGrace (caller user : Address) (operation : String) (enabled : Bool)
  | initializeCircuitBreaker (config : CircuitBreakerConfig)
  | activateCircuitBreaker (caller : Address) (reason : CircuitBreakerReason)
      (emergencyMode : Bool)
  | deactivateCircuitBreaker (caller : Address)
  | addToWhitelist (admin liquidator : Address)
  | removeFromWhitelist (admin liquidator : Address)
  | govExecuteProposal (admin : Address) (proposal : ProposalType)
  -- treasury, flash loans, credit
  | setTreasury (caller treasury : Address)
  | setFeeConfig (caller : Address) (interestFeeBps liquidationFeeBps : ℤ)
  | claimReserves (caller : Address) (asset : Option Address) (recipient : Address) (amount : ℤ)
  | configureFlashLoan (caller : Address) (config : FlashLoanConfig)
  | executeFlashLoan (user asset : Address) (amount : ℤ) (callback : Address)
  | initializeCreditScore (user : Address)
  -- views that write
  | getUserTotalCollateralValue (user : Address)
  | isLiquidationAllowed (liquidator : Address)
  -- public functions of the modules without an entry point
  | grantRole (caller : Address) (role : String) (account : Address)
  | revokeRole (caller : Address) (role : String) (account : Address)
  | setPauseSwitches (caller : Address) (switches : List (String × Bool))
  | setEmergencyRateAdjustment (caller : Address) (adjustmentBps : ℤ)
  | setNativeAssetAddress (caller nativeAsset : Address)
  | updateCircuitBreakerConfig (admin : Address) (config : CircuitBreakerConfig)
  | setFlashLoanFee (caller : Address) (feeBps : ℤ)
  | updatePriceFeed (caller asset : Address) (price : ℤ) (decimals : ℕ) (oracle : Address)
  | getPrice (asset : Address)
  | setPrimaryOracle (caller asset primaryOracle : Address)
  | setFallbackOracle (caller asset fallbackOracle : Address)
  | configureOracle (caller : Address) (config : OracleConfig)
  | setOracleSources (caller asset : Address) (sources : List Address)
  | emergencyPauseAssetOracle (caller asset : Address) (pauseSeconds : ℕ)
  deriving DecidableEq

/-- A transaction: a call and what it finds around it. -/
structure Tx where
  env : Env
  op : Op

/-- The store after a call that succeeded. -/
def Op.apply (op : Op) (e : Env) (s : Storage) : Option Storage :=
  match op with
  | .depositCollateral user asset amount =>
    commit (HelloContract.depositCollateral user asset amount) e s
  | .borrowAsset user asset amount => commit (HelloContract.borrowAsset user asset amount) e s
  | .borrowAssetIntent relayer user asset amount nonce expiresAt =>
    commit (HelloContract.borrowAssetIntent relayer user asset amount nonce expiresAt) e s
  | .repayDebt user asset amount => commit (HelloContract.repayDebt user asset amount) e s
  | .withdrawCollateral user asset amount =>
    commit (HelloContract.withdrawCollateral user asset amount) e s
  | .liquidate liquidator borrower dasset casset amount =>
    commit (HelloContract.liquidate liquidator borrower dasset casset amount) e s
  | .liquidateIntent relayer liquidator borrower dasset casset amount nonce expiresAt =>
    commit (HelloContract.liquidateIntent relayer liquidator borrower dasset casset amount nonce
      expiresAt) e s
  | .revealBorrowProtected user id => commit (HelloContract.revealBorrowProtected user id) e s
  | .revealWithdrawProtected user id => commit (HelloContract.revealWithdrawProtected user id) e s
  | .revealLiquidationProtected liquidator id =>
    commit (HelloContract.revealLiquidationProtected liquidator id) e s
  | .commitBorrowProtected user asset amount maxFee hint =>
    commit (HelloContract.commitBorrowProtected user asset amount maxFee hint) e s
  | .commitWithdrawProtected user asset amount maxFee hint =>
    commit (HelloContract.commitWithdrawProtected user asset amount maxFee hint) e s
  | .commitLiquidationProtected liquidator borrower dasset casset amount maxFee hint =>
    commit (HelloContract.commitLiquidationProtected liquidator borrower dasset casset amount maxFee
      hint) e s
  | .cancelMevCommit user id => commit (cancelCommit user id) e s
  | .initializeContract admin => commit (HelloContract.initializeContract admin) e s
  | .transferAdmin caller newAdmin => commit (HelloContract.transferAdmin caller newAdmin) e s
  | .setRiskParams caller mcr lt cf li =>
    commit (HelloContract.setRiskParams caller mcr lt cf li) e s
  | .setEmergencyPause caller paused => commit (HelloContract.setEmergencyPause caller paused) e s
  | .updateAssetConfig asset params => commit (HelloContract.updateAssetConfig asset params) e s
  | .updateInterestRateConfig caller baseRate kink multiplier jumpMultiplier rateFloor rateCeiling
      spread =>
    commit (HelloWorld.updateInterestRateConfig caller baseRate kink multiplier jumpMultiplier
      rateFloor rateCeiling spread) e s
  | .configureMevProtection caller config =>
    commit (HelloWorld.configureMevProtection caller config) e s
  | .configureRateLimitOperation caller operation cfg =>
    commit (configureOperationLimit caller operation cfg) e s
  | .configureRateLimitPool caller operation pool cfg =>
    commit (configurePoolLimit caller operation pool cfg) e s
  | .setUserRateLimitGrace caller user operation enabled =>
    commit (setUserGrace caller user operation enabled) e s
  | .initializeCircuitBreaker config => commit (HelloWorld.initializeCircuitBreaker config) e s
  | .activateCircuitBreaker caller reason emergencyMode =>
    commit (HelloWorld.activateCircuitBreaker caller reason emergencyMode) e s
  | .deactivateCircuitBreaker caller => commit (HelloWorld.deactivateCircuitBreaker caller) e s
  | .addToWhitelist admin liquidator => commit (HelloWorld.addToWhitelist admin liquidator) e s
  | .removeFromWhitelist admin liquidator =>
    commit (HelloWorld.removeFromWhitelist admin liquidator) e s
  | .govExecuteProposal admin proposal => commit (executeProposalType admin proposal) e s
  | .setTreasury caller treasury => commit (HelloWorld.setTreasury caller treasury) e s
  | .setFeeConfig caller interestFee liquidationFee =>
    commit (HelloWorld.setFeeConfig caller ⟨interestFee, liquidationFee⟩) e s
  | .claimReserves caller asset recipient amount =>
    commit (HelloWorld.claimReserves caller asset recipient amount) e s
  | .configureFlashLoan caller config => commit (setFlashLoanConfig caller config) e s
  | .executeFlashLoan user asset amount callback =>
    commit (HelloWorld.executeFlashLoan user asset amount callback) e s
  | .initializeCreditScore user => commit (HelloWorld.initializeCreditScore user) e s
  | .getUserTotalCollateralValue user =>
    commit (attempt (calculateTotalCollateralValue user) :
      Invocation LendingError (Except MultiCollateralError ℤ)) e s
  | .isLiquidationAllowed liquidator =>
    commit (HelloWorld.isLiquidationAllowed liquidator) e s
  | .grantRole caller role account => commit (HelloWorld.grantRole caller role account) e s
  | .revokeRole caller role account => commit (HelloWorld.revokeRole caller role account) e s
  | .setPauseSwitches caller switches => commit (HelloWorld.setPauseSwitches caller switches) e s
  | .setEmergencyRateAdjustment caller adjustment =>
    commit (HelloWorld.setEmergencyRateAdjustment caller adjustment) e s
  | .setNativeAssetAddress caller asset =>
    commit (HelloWorld.setNativeAssetAddress caller asset) e s
  | .updateCircuitBreakerConfig admin config =>
    commit (HelloWorld.updateCircuitBreakerConfig admin config) e s
  | .setFlashLoanFee caller fee => commit (HelloWorld.setFlashLoanFee caller fee) e s
  | .updatePriceFeed caller asset price decimals oracle =>
    commit (HelloWorld.updatePriceFeed caller asset price decimals oracle) e s
  | .getPrice asset => commit (ofOracle (HelloWorld.getPrice asset)) e s
  | .setPrimaryOracle caller asset oracle =>
    commit (HelloWorld.setPrimaryOracle caller asset oracle) e s
  | .setFallbackOracle caller asset oracle =>
    commit (HelloWorld.setFallbackOracle caller asset oracle) e s
  | .configureOracle caller config => commit (HelloWorld.configureOracle caller config) e s
  | .setOracleSources caller asset sources =>
    commit (HelloWorld.setOracleSources caller asset sources) e s
  | .emergencyPauseAssetOracle caller asset pause =>
    commit (HelloWorld.emergencyPauseAssetOracle caller asset pause) e s

/-- The store after a transaction that succeeded. -/
def step (tx : Tx) (s : Storage) : Option Storage := tx.op.apply tx.env s

/-- **The state of the contract after a sequence of transactions on a fresh deployment.** -/
def ledger (txs : List Tx) : Storage := run step Storage.empty txs

theorem ledger_snoc (txs : List Tx) (tx : Tx) :
    ledger (txs ++ [tx]) = exec step (ledger txs) tx := run_snoc ..

/-- A reachable state of the contract. -/
def Reachable (s : Storage) : Prop := ∃ txs, ledger txs = s

/-- An invariant of every step holds of every reachable state. -/
theorem Reachable.invariant {I : Storage → Prop} (h0 : I Storage.empty)
    (hstep : ∀ s tx s', step tx s = some s' → I s → I s') {s : Storage} (h : Reachable s) :
    I s := by
  obtain ⟨txs, rfl⟩ := h
  exact run_invariant hstep txs h0

/-! ## Sample addresses

The parties of the concrete runs below, and the surroundings of a call whose tokens pay up. -/

namespace Sample

def admin : Address := ⟨0⟩
def alice : Address := ⟨1⟩
def bob : Address := ⟨2⟩
def usdc : Address := ⟨10⟩
def wbtc : Address := ⟨11⟩
def core : Address := ⟨20⟩

/-- A call at a time, signed by some addresses, among tokens that hold and move any amount. -/
def envAt (now : ℕ) (auths : List Address) : Env where
  timestamp := now
  sequence := now
  currentContractAddress := core
  auths := auths
  intentAuths := []
  balance _ _ _ := some 1000000000
  accepts _ _ := true
  onFlashLoan _ _ _ _ _ _ := true

/-- The first transaction of a deployment. -/
def deploy : Tx := ⟨envAt 1 [admin], .initializeContract admin⟩

end Sample

end StellarLend.HelloWorld
