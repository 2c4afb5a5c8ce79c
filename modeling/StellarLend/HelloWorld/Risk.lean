import StellarLend.HelloWorld.Storage

/-!
# HelloWorld/Risk — admin, risk parameters, pausing

`requireAdmin` compares the caller an entry point was handed with the stored admin; it asks the host
for no authorisation.  Where the source computes without checking, an overflow traps.
-/

namespace StellarLend.HelloWorld

open Foundations Call
open Lending (Address)

def BASIS_POINTS_SCALE : ℤ := 10000

/-! ## Admin and roles -/

inductive AdminError where
  | unauthorized
  | invalidParameter
  | adminAlreadySet
  deriving DecidableEq, Repr

def AdminError.toLendingError : AdminError → LendingError
  | .unauthorized => .unauthorized
  | .invalidParameter => .invalidParameter
  | .adminAlreadySet => .alreadyInitialized

def hasAdmin (s : Storage) : Bool := s.admin.isSome
def getAdmin (s : Storage) : Option Address := s.admin

/-- With an admin in place, only a caller who names it may set another. -/
def setAdmin (newAdmin : Address) (caller : Option Address) : Invocation AdminError Unit := do
  let current ← view getAdmin
  failIf (current.isSome = true ∧ caller ≠ current) .unauthorized
  store fun s => { s with admin := some newAdmin }

def requireAdmin (caller : Address) : Invocation AdminError Unit := do
  let admin ← view getAdmin
  let admin ← okOr admin .unauthorized
  failIf (admin ≠ caller) .unauthorized

/-- The caller names the stored admin. -/
@[simp] theorem requireAdmin_ok {caller : Address} {e : Env} {s s' : Storage} {r : Unit} :
    requireAdmin caller e s = .ok r s' ↔ getAdmin s = some caller ∧ s = s' := by
  simp [requireAdmin]

@[simp ↓] theorem requireAdmin_seq {caller : Address} {e : Env} {s s' : Storage}
    {β : Type} {b : β} {k : Unit → Invocation AdminError β} :
    (requireAdmin caller >>= k) e s = .ok b s' ↔ getAdmin s = some caller ∧ k () e s = .ok b s' :=
  check_seq fun _ _ => requireAdmin_ok

@[simp ↓] theorem mapErr_requireAdmin_seq {caller : Address} {e : Env} {s s' : Storage}
    {ε β : Type} {f : AdminError → ε} {b : β} {k : Unit → Invocation ε β} :
    (mapErr f (requireAdmin caller) >>= k) e s = .ok b s' ↔
      getAdmin s = some caller ∧ k () e s = .ok b s' :=
  check_seq fun _ _ => mapErr_ok.trans requireAdmin_ok

/-- The store with another role of an account. -/
def withRole (role : String) (account : Address) (granted : Option Bool) (s : Storage) : Storage :=
  { s with role := Function.update s.role role (Function.update (s.role role) account granted) }

def grantRole (caller : Address) (role : String) (account : Address) :
    Invocation AdminError Unit := do
  requireAdmin caller
  store (withRole role account (some true))

def revokeRole (caller : Address) (role : String) (account : Address) :
    Invocation AdminError Unit := do
  requireAdmin caller
  store (withRole role account none)

def hasRole (s : Storage) (role : String) (account : Address) : Bool :=
  (s.role role account).getD false

/-! ## Risk parameters -/

inductive RiskParamsError where
  | unauthorized
  | invalidParameter
  | parameterChangeTooLarge
  | invalidCollateralRatio
  | invalidLiquidationThreshold
  | invalidCloseFactor
  | invalidLiquidationIncentive
  deriving DecidableEq, Repr

def MIN_COLLATERAL_RATIO_MIN : ℤ := 10000
def MIN_COLLATERAL_RATIO_MAX : ℤ := 50000
def LIQUIDATION_THRESHOLD_MIN : ℤ := 10000
def LIQUIDATION_THRESHOLD_MAX : ℤ := 50000
def CLOSE_FACTOR_MIN : ℤ := 0
def CLOSE_FACTOR_MAX : ℤ := BASIS_POINTS_SCALE
def LIQUIDATION_INCENTIVE_MIN : ℤ := 0
def LIQUIDATION_INCENTIVE_MAX : ℤ := 5000
def MAX_PARAMETER_CHANGE_BPS : ℤ := 1000

def getRiskParams (s : Storage) : Option RiskParams := s.risk.riskParamsConfig

def validateRiskParams (config : RiskParams) : Except RiskParamsError Unit :=
  if config.minCollateralRatio < MIN_COLLATERAL_RATIO_MIN ∨
      MIN_COLLATERAL_RATIO_MAX < config.minCollateralRatio then .error .invalidParameter
  else if config.liquidationThreshold < LIQUIDATION_THRESHOLD_MIN ∨
      LIQUIDATION_THRESHOLD_MAX < config.liquidationThreshold then
    .error .invalidLiquidationThreshold
  else if config.minCollateralRatio < config.liquidationThreshold then
    .error .invalidCollateralRatio
  else if config.closeFactor < CLOSE_FACTOR_MIN ∨ CLOSE_FACTOR_MAX < config.closeFactor then
    .error .invalidCloseFactor
  else if config.liquidationIncentive < LIQUIDATION_INCENTIVE_MIN ∨
      LIQUIDATION_INCENTIVE_MAX < config.liquidationIncentive then
    .error .invalidLiquidationIncentive
  else .ok ()

/-- What the configuration has to satisfy. -/
structure RiskParams.Valid (config : RiskParams) : Prop where
  ratio : MIN_COLLATERAL_RATIO_MIN ≤ config.minCollateralRatio ∧
    config.minCollateralRatio ≤ MIN_COLLATERAL_RATIO_MAX
  threshold : LIQUIDATION_THRESHOLD_MIN ≤ config.liquidationThreshold ∧
    config.liquidationThreshold ≤ LIQUIDATION_THRESHOLD_MAX
  ordered : config.liquidationThreshold ≤ config.minCollateralRatio
  closeFactor : CLOSE_FACTOR_MIN ≤ config.closeFactor ∧ config.closeFactor ≤ CLOSE_FACTOR_MAX
  incentive : LIQUIDATION_INCENTIVE_MIN ≤ config.liquidationIncentive ∧
    config.liquidationIncentive ≤ LIQUIDATION_INCENTIVE_MAX

theorem validateRiskParams_ok {config : RiskParams} {u : Unit} :
    validateRiskParams config = .ok u ↔ config.Valid := by
  unfold validateRiskParams
  constructor
  · intro h
    split_ifs at h with h1 h2 h3 h4 h5
    exact ⟨by omega, by omega, by omega, by omega, by omega⟩
  · rintro ⟨h1, h2, h3, h4, h5⟩
    rw [if_neg (by omega), if_neg (by omega), if_neg (by omega), if_neg (by omega),
      if_neg (by omega)]

/-- The store with other risk parameters. -/
def withRiskParams (config : RiskParams) (s : Storage) : Storage :=
  { s with risk := { s.risk with riskParamsConfig := some config } }

/-- The source's `initialize_risk_params` starts from these. -/
def RiskParams.default (now : ℕ) : RiskParams := ⟨11000, 10500, 5000, 1000, now⟩

/-- The default configuration passes its own check. -/
theorem RiskParams.default_valid (now : ℕ) : (RiskParams.default now).Valid := by
  constructor <;> simp only [RiskParams.default] <;> decide

def initializeRiskParams : Invocation RiskParamsError Unit := do
  let now ← asks Env.timestamp
  ofExcept (validateRiskParams (.default now))
  store (withRiskParams (.default now))

/-- At most a tenth of the old value, in unchecked arithmetic. -/
def validateParameterChange (oldValue newValue : ℤ) : Invocation RiskParamsError Unit := do
  let change ← orTrap
    (if oldValue < newValue then I128.checkedSub newValue oldValue
      else I128.checkedSub oldValue newValue)
  let scaled ← orTrap (I128.checkedMul oldValue MAX_PARAMETER_CHANGE_BPS)
  failIf (scaled.tdiv BASIS_POINTS_SCALE < change) .parameterChangeTooLarge

/-- The new value of an optional parameter, its change validated. -/
def changeParameter (oldValue : ℤ) (newValue : Option ℤ) : Invocation RiskParamsError ℤ :=
  match newValue with
  | some value => do
    validateParameterChange oldValue value
    pure value
  | none => pure oldValue

def setRiskParams (minCollateralRatio liquidationThreshold closeFactor liquidationIncentive :
    Option ℤ) : Invocation RiskParamsError Unit := do
  let config ← view getRiskParams
  let config ← okOr config .invalidParameter
  let mcr ← changeParameter config.minCollateralRatio minCollateralRatio
  let lt ← changeParameter config.liquidationThreshold liquidationThreshold
  let cf ← changeParameter config.closeFactor closeFactor
  let li ← changeParameter config.liquidationIncentive liquidationIncentive
  ofExcept (validateRiskParams ⟨mcr, lt, cf, li, config.lastUpdate⟩)
  let now ← asks Env.timestamp
  store (withRiskParams ⟨mcr, lt, cf, li, now⟩)

def getMinCollateralRatio (s : Storage) : Except RiskParamsError ℤ :=
  orErr ((getRiskParams s).map RiskParams.minCollateralRatio) .invalidParameter

/-- The ratio the operations enforce: `get_min_collateral_ratio(env).unwrap_or(15000)`. -/
def minCollateralRatioOr (s : Storage) : ℤ :=
  match getMinCollateralRatio s with
  | .ok ratio => ratio
  | .error _ => 15000

/-- Unchecked: the product traps, the division cannot fail. -/
def getMaxLiquidatableAmount (debtValue : ℤ) : Invocation RiskParamsError ℤ := do
  let config ← view getRiskParams
  let config ← okOr config .invalidParameter
  let scaled ← orTrap (I128.checkedMul debtValue config.closeFactor)
  pure (scaled.tdiv BASIS_POINTS_SCALE)

def canBeLiquidated (collateralValue debtValue : ℤ) : Invocation RiskParamsError Bool := do
  let config ← view getRiskParams
  let config ← okOr config .invalidParameter
  if debtValue = 0 then pure false
  else do
    let scaled ← orTrap (I128.checkedMul collateralValue BASIS_POINTS_SCALE)
    let ratio ← okOr (I128.checkedDiv scaled debtValue) .invalidParameter
    pure (decide (ratio < config.liquidationThreshold))

/-! ## Pausing -/

inductive RiskManagementError where
  | unauthorized
  | invalidParameter
  | parameterChangeTooLarge
  | insufficientCollateralRatio
  | operationPaused
  | emergencyPaused
  | invalidCollateralRatio
  | invalidLiquidationThreshold
  | invalidCloseFactor
  | invalidLiquidationIncentive
  | overflow
  | governanceRequired
  | alreadyInitialized
  deriving DecidableEq, Repr

def RiskManagementError.toLendingError : RiskManagementError → LendingError
  | .unauthorized => .unauthorized
  | .invalidParameter => .invalidParameter
  | .parameterChangeTooLarge => .limitExceeded
  | .insufficientCollateralRatio => .insufficientCollateralRatio
  | .operationPaused => .protocolPaused
  | .emergencyPaused => .protocolPaused
  | .invalidCollateralRatio => .invalidParameter
  | .invalidLiquidationThreshold => .invalidParameter
  | .invalidCloseFactor => .invalidParameter
  | .invalidLiquidationIncentive => .invalidParameter
  | .overflow => .overflow
  | .governanceRequired => .governanceRequired
  | .alreadyInitialized => .alreadyInitialized

/-- The source's `risk_management::require_admin`. -/
def requireRiskAdmin (caller : Address) : Invocation RiskManagementError Unit :=
  mapErr (fun _ => .unauthorized) (requireAdmin caller)

@[simp] theorem requireRiskAdmin_ok {caller : Address} {e : Env} {s s' : Storage} {r : Unit} :
    requireRiskAdmin caller e s = .ok r s' ↔ getAdmin s = some caller ∧ s = s' :=
  mapErr_ok.trans requireAdmin_ok

@[simp ↓] theorem requireRiskAdmin_seq {caller : Address} {e : Env} {s s' : Storage}
    {β : Type} {b : β} {k : Unit → Invocation RiskManagementError β} :
    (requireRiskAdmin caller >>= k) e s = .ok b s' ↔
      getAdmin s = some caller ∧ k () e s = .ok b s' :=
  check_seq fun _ _ => requireRiskAdmin_ok

def createDefaultPauseSwitches (operation : String) : Option Bool :=
  if operation ∈ ["pause_deposit", "pause_withdraw", "pause_borrow", "pause_repay",
    "pause_liquidate", "pause_flash_loan", "pause_bridge_acceptance"] then some false else none

/-- The store with another risk configuration. -/
def withRiskConfig (config : RiskConfig) (s : Storage) : Storage :=
  { s with risk := { s.risk with riskConfig := some config } }

/-- The store with the emergency pause switched. -/
def withEmergencyPause (paused : Bool) (s : Storage) : Storage :=
  { s with risk := { s.risk with emergencyPause := some paused } }

/-- The admin recorded here is read by nothing and left out. -/
def initializeRiskManagement : Invocation RiskManagementError Unit := do
  let config ← view fun s => s.risk.riskConfig
  if config.isSome then pure ()
  else do
    let now ← asks Env.timestamp
    let params ← view fun s => (getRiskParams s).getD (.default now)
    store (withRiskConfig ⟨createDefaultPauseSwitches, params.minCollateralRatio,
      params.liquidationThreshold, params.closeFactor, params.liquidationIncentive, now⟩)
    store (withEmergencyPause false)

/-- The stored configuration, its parameters refreshed from the risk parameters. -/
def getRiskConfig (s : Storage) : Option RiskConfig :=
  s.risk.riskConfig.map fun config =>
    match getRiskParams s with
    | some params => ⟨config.pauseSwitches, params.minCollateralRatio, params.liquidationThreshold,
        params.closeFactor, params.liquidationIncentive, params.lastUpdate⟩
    | none => config

/-- Set several switches, in order.  A single switch is a list of one. -/
def switchAll (switches : List (String × Bool)) (current : String → Option Bool) :
    String → Option Bool :=
  switches.foldl (fun f (op, paused) => Function.update f op (some paused)) current

def setPauseSwitches (caller : Address) (switches : List (String × Bool)) :
    Invocation RiskManagementError Unit := do
  requireRiskAdmin caller
  let config ← view getRiskConfig
  let config ← okOr config .invalidParameter
  let now ← asks Env.timestamp
  store (withRiskConfig
    { config with pauseSwitches := switchAll switches config.pauseSwitches, lastUpdate := now })

def setPauseSwitch (caller : Address) (operation : String) (paused : Bool) :
    Invocation RiskManagementError Unit :=
  setPauseSwitches caller [(operation, paused)]

def isOperationPaused (s : Storage) (operation : String) : Bool :=
  match getRiskConfig s with
  | some config => (config.pauseSwitches operation).getD false
  | none => false

def requireOperationNotPaused (operation : String) : Invocation RiskManagementError Unit := do
  let paused ← view fun s => isOperationPaused s operation
  failIf (paused = true) .operationPaused

def setEmergencyPause (caller : Address) (paused : Bool) : Invocation RiskManagementError Unit := do
  requireRiskAdmin caller
  store (withEmergencyPause paused)

def isEmergencyPaused (s : Storage) : Bool := s.risk.emergencyPause.getD false

/-- Either kind of pause.  No operation asks for both through it. -/
def checkOperationPaused (s : Storage) (operation : String) : Bool :=
  if isEmergencyPaused s then true else isOperationPaused s operation

/-- The deposit module's own pause switches, which `deposit`, `withdraw`, `borrow` and `repay` each
read under their own symbol. -/
def legacySwitch (s : Storage) (operation : String) : Bool :=
  match s.pauseSwitches with
  | some switches => (switches operation).getD false
  | none => false

/-! ## Circuit breaker of the liquidations -/

/-- Once the breaker is due to close by itself, the first call that asks closes it. -/
def isLiquidationAllowed (liquidator : Address) : Invocation LendingError Bool := do
  let state ← view fun s => s.breaker.state
  let state ← okOr state .notFound
  let now ← asks Env.timestamp
  if state.autoDeactivateAt.any fun due => due ≤ now then do
    store fun s => { s with
      breaker := { s.breaker with
        state := some { state with status := .active, autoDeactivateAt := none } } }
    pure true
  else
    match state.status with
    | .active => pure true
    | .paused => pure false
    | .emergency => view fun s => decide (liquidator ∈ s.breaker.whitelist.getD [])

end StellarLend.HelloWorld
