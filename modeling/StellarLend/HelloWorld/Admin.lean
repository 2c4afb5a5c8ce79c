import StellarLend.HelloWorld.Gateways

/-!
# HelloWorld/Admin — configuration, treasury and flash loans

The calls beside the operations on positions.  Most take the caller's word for who is calling
(`requireAdmin`); the treasury and the circuit breaker ask for the caller's signature as well, and
two initialisers ask for nobody.
-/

namespace StellarLend.HelloWorld

open Foundations Call
open Lending (Address)

/-! ## Oracle -/

/-- `require_admin` as the oracle calls it. -/
def requireOracleAdmin (caller : Address) : Invocation OracleError Unit :=
  mapErr (fun _ => .unauthorized) (requireAdmin caller)

@[simp] theorem requireOracleAdmin_ok {caller : Address} {e : Env} {s s' : Storage} {r : Unit} :
    requireOracleAdmin caller e s = .ok r s' ↔ getAdmin s = some caller ∧ s = s' :=
  mapErr_ok.trans requireAdmin_ok

@[simp ↓] theorem requireOracleAdmin_seq {caller : Address} {e : Env} {s s' : Storage}
    {β : Type} {b : β} {k : Unit → Invocation OracleError β} :
    (requireOracleAdmin caller >>= k) e s = .ok b s' ↔
      getAdmin s = some caller ∧ k () e s = .ok b s' :=
  check_seq fun _ _ => requireOracleAdmin_ok

/-- Write the oracle's keys. -/
def storeOracle {ε : Type} (f : OracleStore → OracleStore) : Invocation ε Unit :=
  store fun s => { s with oracle := f s.oracle }

/-- Whether a feed goes to the fallback slot: its caller is the fallback oracle and nothing else. -/
def writesFallback (s : Storage) (caller asset : Address) : Bool :=
  getFallbackOracle s.oracle asset = some caller && !(getPrimaryOracle s.oracle asset = some caller)
    && !(getAdmin s = some caller)

/-- The oracle's keys after a feed is submitted. -/
def withFeed (now : ℕ) (fallback isAdmin : Bool) (asset : Address) (feed : PriceFeed)
    (o : OracleStore) : OracleStore :=
  cachePrice now asset feed.price
    { o with
      priceFeed := if fallback then o.priceFeed else Function.update o.priceFeed asset (some feed)
      fallbackFeed :=
        if fallback then Function.update o.fallbackFeed asset (some feed) else o.fallbackFeed
      sourceFeed := Function.update o.sourceFeed asset
        (Function.update (o.sourceFeed asset) feed.oracle (some feed))
      primaryOracle :=
        if isAdmin then Function.update o.primaryOracle asset (some feed.oracle)
        else o.primaryOracle }

/-- The admin, or an oracle of the asset in its own name, submits a price. -/
def updatePriceFeed (caller asset : Address) (price : ℤ) (decimals : ℕ) (oracle : Address) :
    Invocation OracleError ℤ := do
  let switches ← view fun s => s.oracle.pauseSwitches
  failIf (switches.any (fun f => (f "pause_oracle").getD false) = true) .oraclePaused
  let isAdmin ← view fun s => decide (getAdmin s = some caller)
  let isPrimary ← view fun s => decide (getPrimaryOracle s.oracle asset = some caller)
  let isFallback ← view fun s => decide (getFallbackOracle s.oracle asset = some caller)
  failIf (isAdmin = false ∧ isPrimary = false ∧ isFallback = false) .unauthorized
  failIf (isAdmin = false ∧ caller ≠ oracle) .unauthorized
  let valid ← view fun s => validatePrice s.oracle price
  ofExcept valid
  let fallback ← view fun s => writesFallback s caller asset
  let current ← view fun s =>
    if fallback then s.oracle.fallbackFeed asset else s.oracle.priceFeed asset
  let deviation ← view fun s =>
    match current with
    | some feed => checkPriceDeviation s.oracle price feed.price
    | none => .ok ()
  ofExcept deviation
  let now ← asks Env.timestamp
  storeOracle (withFeed now fallback isAdmin asset ⟨price, now, oracle, decimals⟩)
  pure price

def setPrimaryOracle (caller asset primaryOracle : Address) : Invocation OracleError Unit := do
  requireOracleAdmin caller
  storeOracle fun o =>
    { o with primaryOracle := Function.update o.primaryOracle asset (some primaryOracle) }

def setFallbackOracle (caller asset fallbackOracle : Address) : Invocation OracleError Unit := do
  requireOracleAdmin caller
  let self ← asks Env.currentContractAddress
  failIf (fallbackOracle = self) .invalidOracle
  storeOracle fun o =>
    { o with fallbackOracle := Function.update o.fallbackOracle asset (some fallbackOracle) }

def configureOracle (caller : Address) (config : OracleConfig) : Invocation OracleError Unit := do
  requireOracleAdmin caller
  failIf (config.maxDeviationBps ≤ 0 ∨ 10000 < config.maxDeviationBps) .invalidPrice
  failIf (config.maxStalenessSeconds = 0) .invalidPrice
  failIf (config.minSources = 0) .invalidPrice
  failIf (256 < config.maxObservations) .invalidPrice
  failIf (config.outlierDeviationBps ≤ 0 ∨ 10000 < config.outlierDeviationBps) .invalidPrice
  failIf (config.breakerDeviationBps ≤ 0 ∨ 10000 < config.breakerDeviationBps) .invalidPrice
  storeOracle fun o => { o with oracleConfig := some config }

/-- The sources of an asset are named. -/
def setOracleSources (caller asset : Address) (sources : List Address) :
    Invocation OracleError Unit := do
  requireOracleAdmin caller
  storeOracle fun o =>
    { o with oracleSources := Function.update o.oracleSources asset (some sources) }

/-- The asset's breaker opens, for as long as is said. -/
def emergencyPauseAssetOracle (caller asset : Address) (pauseSeconds : ℕ) :
    Invocation OracleError Unit := do
  requireOracleAdmin caller
  let now ← asks Env.timestamp
  storeOracle fun o =>
    withBreaker asset
      ⟨U64.saturatingAdd now pauseSeconds, (getBreakerState o asset).lastSafePrice, now⟩ o

/-! ## Gateways -/

/-- Neither the window nor the number of calls is zero. -/
def validateRateLimitConfig (cfg : RateLimitConfig) : Except RateLimitError Unit :=
  if cfg.windowSeconds = 0 then .error .invalidConfig
  else if cfg.maxCallsPerWindow = 0 then .error .invalidConfig
  else .ok ()

/-- The limit of an operation. -/
def configureOperationLimit (caller : Address) (op : String) (cfg : RateLimitConfig) :
    Invocation RateLimitError Unit := do
  mapErr (fun _ => .unauthorized) (requireAdmin caller)
  ofExcept (validateRateLimitConfig cfg)
  store fun s => { s with rateLimits := { s.rateLimits with
    opConfig := Function.update s.rateLimits.opConfig op (some cfg) } }

/-- The limit of an operation on a pool. -/
def configurePoolLimit (caller : Address) (op : String) (pool : Address) (cfg : RateLimitConfig) :
    Invocation RateLimitError Unit := do
  mapErr (fun _ => .unauthorized) (requireAdmin caller)
  ofExcept (validateRateLimitConfig cfg)
  store fun s => { s with rateLimits := { s.rateLimits with
    opPoolConfig := Function.update s.rateLimits.opPoolConfig op
      (Function.update (s.rateLimits.opPoolConfig op) pool (some cfg)) } }

/-- A user is let off the limit of an operation, or no longer. -/
def setUserGrace (caller user : Address) (op : String) (enabled : Bool) :
    Invocation RateLimitError Unit := do
  mapErr (fun _ => .unauthorized) (requireAdmin caller)
  store fun s => { s with rateLimits := { s.rateLimits with
    userGrace := Function.update s.rateLimits.userGrace user
      (Function.update (s.rateLimits.userGrace user) op (some enabled)) } }

/-- The value is in basis points. -/
def InBps (x : ℤ) : Prop := 0 ≤ x ∧ x ≤ MAX_BPS

instance (x : ℤ) : Decidable (InBps x) := inferInstanceAs (Decidable (_ ∧ _))

/-- A commit can be revealed before it expires, and the fees are rates. -/
def validateMevConfig (config : MevProtectionConfig) : Except MevProtectionError Unit :=
  if config.commitDelaySecs = 0 ∨ config.commitExpirySecs ≤ config.commitDelaySecs ∨
      config.suspiciousWindowSecs = 0 ∨ ¬ InBps config.feeSmoothingBps ∨
      ¬ InBps config.baseProtectionFeeBps ∨ ¬ InBps config.surgeProtectionFeeBps ∨
      ¬ InBps config.sandwichThresholdBps then .error .invalidConfig
  else .ok ()

def configureMevProtection (caller : Address) (config : MevProtectionConfig) :
    Invocation MevProtectionError Unit := do
  mapErr (fun _ => .unauthorized) (requireRiskAdmin caller)
  ofExcept (validateMevConfig config)
  store fun s => { s with mev := { s.mev with config := some config } }

/-! ## Circuit breaker of the liquidations -/

def DEFAULT_COOLDOWN_PERIOD : ℕ := 3600
def MAX_COOLDOWN_PERIOD : ℕ := 86400

/-- Asks for nobody, and may be called again. -/
def initializeCircuitBreaker (config : CircuitBreakerConfig) : Invocation LendingError Unit := do
  failIf (MAX_COOLDOWN_PERIOD < config.cooldownPeriod) .invalidParameter
  let now ← asks Env.timestamp
  let self ← asks Env.currentContractAddress
  store fun s => { s with breaker :=
    ⟨some config, some ⟨.active, now, self, config.cooldownPeriod, none, .systemMaintenance⟩,
      some []⟩ }

def getCircuitBreakerConfig (s : Storage) : CircuitBreakerConfig :=
  s.breaker.config.getD ⟨DEFAULT_COOLDOWN_PERIOD, true, true⟩

/-- The caller signed, and is the stored admin. -/
def requireSignedAdmin (caller : Address) : Invocation LendingError Unit := do
  requireAuth caller
  let admin ← view getAdmin
  let admin ← okOr admin .unauthorized
  failIf (caller ≠ admin) .unauthorized

/-- The caller names the stored admin, and signed. -/
@[simp] theorem requireSignedAdmin_ok {caller : Address} {e : Env} {s s' : Storage} {r : Unit} :
    requireSignedAdmin caller e s = .ok r s' ↔
      caller ∈ e.auths ∧ getAdmin s = some caller ∧ s = s' := by
  simp [requireSignedAdmin, and_assoc]

@[simp ↓] theorem requireSignedAdmin_seq {caller : Address} {e : Env} {s s' : Storage}
    {β : Type} {b : β} {k : Unit → Invocation LendingError β} :
    (requireSignedAdmin caller >>= k) e s = .ok b s' ↔
      caller ∈ e.auths ∧ getAdmin s = some caller ∧ k () e s = .ok b s' :=
  (check_seq fun _ _ => requireSignedAdmin_ok.trans and_assoc.symm).trans and_assoc

/-- The time of the automatic deactivation is unchecked. -/
def activateCircuitBreaker (caller : Address) (reason : CircuitBreakerReason)
    (emergencyMode : Bool) : Invocation LendingError Unit := do
  requireSignedAdmin caller
  let config ← view getCircuitBreakerConfig
  let now ← asks Env.timestamp
  let due ← orTrap (U64.checkedAdd now config.cooldownPeriod)
  store fun s => { s with breaker := { s.breaker with
    state := some ⟨if emergencyMode then .emergency else .paused, now, caller,
      config.cooldownPeriod, if config.autoDeactivateEnabled then some due else none, reason⟩ } }

/-- Liquidations go on. -/
def deactivateCircuitBreaker (caller : Address) : Invocation LendingError Unit := do
  requireSignedAdmin caller
  let state ← view fun s => s.breaker.state
  let state ← okOr state .notFound
  failIf (state.status = .active) .invalidState
  store fun s => { s with breaker := { s.breaker with
    state := some { state with status := .active, autoDeactivateAt := none } } }

/-- A liquidator is let through. -/
def addToWhitelist (admin liquidator : Address) : Invocation LendingError Unit := do
  requireSignedAdmin admin
  let whitelist ← view fun s => s.breaker.whitelist.getD []
  failIf (liquidator ∈ whitelist) .alreadyExists
  store fun s => { s with breaker := { s.breaker with
    whitelist := some (whitelist ++ [liquidator]) } }

/-- A liquidator is let through no longer. -/
def removeFromWhitelist (admin liquidator : Address) : Invocation LendingError Unit := do
  requireSignedAdmin admin
  let whitelist ← view fun s => s.breaker.whitelist
  let whitelist ← okOr whitelist .notFound
  failIf (liquidator ∉ whitelist) .notFound
  store fun s => { s with breaker := { s.breaker with
    whitelist := some (whitelist.filter fun a => a ≠ liquidator) } }

/-- The cooldown has a maximum. -/
def updateCircuitBreakerConfig (admin : Address) (config : CircuitBreakerConfig) :
    Invocation LendingError Unit := do
  requireSignedAdmin admin
  failIf (MAX_COOLDOWN_PERIOD < config.cooldownPeriod) .invalidParameter
  store fun s => { s with breaker := { s.breaker with config := some config } }

/-! ## Treasury -/

/-- The errors of the treasury. -/
inductive TreasuryError where
  | unauthorized
  | invalidAmount
  | insufficientReserve
  | overflow
  | treasuryNotSet
  | invalidFee
  deriving DecidableEq, Repr

def TreasuryError.toLendingError : TreasuryError → LendingError
  | .unauthorized => .unauthorized
  | .invalidAmount => .invalidAmount
  | .insufficientReserve => .insufficientReserve
  | .overflow => .overflow
  | .treasuryNotSet => .treasuryNotSet
  | .invalidFee => .invalidFee

/-- The caller signed, and is the stored admin. -/
def requireTreasuryAdmin (caller : Address) : Invocation TreasuryError Unit := do
  requireAuth caller
  mapErr (fun _ => .unauthorized) (requireAdmin caller)

@[simp] theorem requireTreasuryAdmin_ok {caller : Address} {e : Env} {s s' : Storage} {r : Unit} :
    requireTreasuryAdmin caller e s = .ok r s' ↔
      caller ∈ e.auths ∧ getAdmin s = some caller ∧ s = s' := by
  simp only [requireTreasuryAdmin, requireAuth_seq, mapErr_ok, requireAdmin_ok]

@[simp ↓] theorem requireTreasuryAdmin_seq {caller : Address} {e : Env} {s s' : Storage}
    {β : Type} {b : β} {k : Unit → Invocation TreasuryError β} :
    (requireTreasuryAdmin caller >>= k) e s = .ok b s' ↔
      caller ∈ e.auths ∧ getAdmin s = some caller ∧ k () e s = .ok b s' :=
  (check_seq fun _ _ => requireTreasuryAdmin_ok.trans and_assoc.symm).trans and_assoc

/-- The address that the treasury is paid at. -/
def setTreasury (caller treasury : Address) : Invocation TreasuryError Unit := do
  requireTreasuryAdmin caller
  store fun s => { s with treasury := { s.treasury with treasuryAddress := some treasury } }

/-- Both fees are rates. -/
def setFeeConfig (caller : Address) (config : TreasuryFeeConfig) :
    Invocation TreasuryError Unit := do
  requireTreasuryAdmin caller
  failIf (config.interestFeeBps < 0 ∨ 10000 < config.interestFeeBps) .invalidFee
  failIf (config.liquidationFeeBps < 0 ∨ 10000 < config.liquidationFeeBps) .invalidFee
  store fun s => { s with treasury := { s.treasury with feeConfig := some config } }

/-- The reserve goes down before anything is paid. -/
def claimReserves (caller : Address) (asset : Option Address) (recipient : Address) (amount : ℤ) :
    Invocation TreasuryError Unit := do
  requireTreasuryAdmin caller
  failIf (amount ≤ 0) .invalidAmount
  let current ← view fun s => (s.treasury.protocolReserve asset).getD 0
  failIf (current < amount) .insufficientReserve
  let reserve ← okOr (I128.checkedSub current amount) .overflow
  store (withReserve asset reserve)
  match asset with
  | some token => transferOut token recipient amount
  | none => pure ()

/-! ## Flash loans -/

inductive FlashLoanError where
  | invalidAmount
  | invalidAsset
  | insufficientLiquidity
  | flashLoanPaused
  | notRepaid
  | insufficientRepayment
  | overflow
  | reentrancy
  | invalidCallback
  | callbackFailed
  deriving DecidableEq, Repr

def FlashLoanError.toLendingError : FlashLoanError → LendingError
  | .invalidAmount => .invalidAmount
  | .invalidAsset => .invalidAsset
  | .insufficientLiquidity => .insufficientLiquidity
  | .flashLoanPaused => .protocolPaused
  | .notRepaid => .notRepaid
  | .insufficientRepayment => .insufficientBalance
  | .overflow => .overflow
  | .reentrancy => .reentrancy
  | .invalidCallback => .invalidCallback
  | .callbackFailed => .callbackFailed

def getFlashLoanConfig (s : Storage) : FlashLoanConfig :=
  s.treasury.flashLoanConfig.getD ⟨9, 1000000000000, 100⟩

/-- The loan is sent to the callback contract and pulled back with the fee once it returns.  The
record of the loan lives within the call and is left out: the host lets nobody back in to read
it. -/
def executeFlashLoan (user asset : Address) (amount : ℤ) (callback : Address) :
    Invocation FlashLoanError ℤ := do
  failIf (amount ≤ 0) .invalidAmount
  let config ← view getFlashLoanConfig
  failIf (amount < config.minAmount ∨ config.maxAmount < amount) .invalidAmount
  let switches ← view fun s => s.treasury.flashLoanPauseSwitches
  failIf (switches.any (fun f => (f "pause_flash_loan").getD false) = true) .flashLoanPaused
  let fee ← okOr
    ((I128.checkedMul amount config.feeBps).bind fun scaled => I128.checkedDiv scaled 10000)
    .overflow
  let required ← okOr (I128.checkedAdd amount fee) .overflow
  let self ← asks Env.currentContractAddress
  let balance ← tokenBalance asset self
  failIf (balance < amount) .insufficientLiquidity
  transferOut asset callback amount
  let returned ← look fun e s => e.onFlashLoan s.transfers callback user asset amount fee
  require fun _ => returned
  transferIn asset callback required
  onlyIf (0 < fee) (creditReserve .overflow (some asset) fee)
  pure required

/-- The fee is a rate. -/
def setFlashLoanConfig (caller : Address) (config : FlashLoanConfig) :
    Invocation FlashLoanError Unit := do
  mapErr (fun _ => .invalidCallback) (requireAdmin caller)
  failIf (¬ (0 ≤ config.feeBps ∧ config.feeBps ≤ 10000)) .invalidAmount
  store fun s => { s with treasury := { s.treasury with flashLoanConfig := some config } }

/-- The rest of the configuration stays. -/
def setFlashLoanFee (caller : Address) (feeBps : ℤ) : Invocation FlashLoanError Unit := do
  let config ← view getFlashLoanConfig
  setFlashLoanConfig caller { config with feeBps }

end StellarLend.HelloWorld
