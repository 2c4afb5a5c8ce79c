import StellarLend.Lending.Storage
import StellarLend.Lending.InterestRate

/-!
# Lending/Borrow — borrow positions: two rate buckets, collateral, interest

A user's debt sits in a variable and a stable bucket, each under a storage key of its own.  A third
key, `borrowUserDebt`, is the record older versions kept: every save of either bucket rewrites it,
and the variable bucket is read from it when its own record is missing.

Functions are translated in the order of the source.  Those the source lets its callers
authenticate take no authorisation of their own here either.
-/

namespace StellarLend.Lending

open Foundations Call

def COLLATERAL_RATIO_MIN : ℤ := 15000
def SECONDS_PER_YEAR : ℤ := 31536000
def DEFAULT_STABLE_PREMIUM_BPS : ℤ := 100
def DEFAULT_STABLE_RECALC_INTERVAL_SECS : ℕ := 6 * 3600
def DEFAULT_SWITCH_FEE_BPS : ℤ := 10

/-! ## Rates -/

def getCurrentVariableRateBps (e : Env) (s : Storage) : Except BorrowError ℤ :=
  (borrowRateBps e s).mapError InterestRateError.toBorrowError

/-- The rate is set through `update_config`, which asks the admin a second time. -/
def Borrow.setVariableBorrowRateBps (admin : Address) (rateBps : ℤ) :
    Invocation BorrowError Unit := do
  let current ← view getAdmin
  let current ← okOr current .unauthorized
  failIf (admin ≠ current) .unauthorized
  requireAuth admin
  failIf (¬ (0 ≤ rateBps ∧ rateBps ≤ 10000)) .invalidAmount
  requireAuthAgain admin
  let _ ← mapErr InterestRateError.toBorrowError
    (updateConfig admin ⟨some rateBps, none, none, none, none, none, none⟩)
  pure ()

def getStableRatePremiumBps (s : Storage) : ℤ :=
  s.stableRatePremiumBps.getD DEFAULT_STABLE_PREMIUM_BPS

def getStableRateRecalcIntervalSecs (s : Storage) : ℕ :=
  s.stableRateRecalcIntervalSecs.getD DEFAULT_STABLE_RECALC_INTERVAL_SECS

def getRateSwitchFeeBps (s : Storage) : ℤ := s.rateSwitchFeeBps.getD DEFAULT_SWITCH_FEE_BPS

/-- The variable rate, or a fallback where it cannot be computed. -/
def variableRateOr (d : ℤ) (e : Env) (s : Storage) : ℤ :=
  match getCurrentVariableRateBps e s with
  | .ok v => v
  | .error _ => d

def getStableRateState (e : Env) (s : Storage) : StableRateState :=
  s.stableRateState.getD ⟨variableRateOr 0 e s, e.timestamp⟩

/-- The moving average after one observation: nine parts old, one part new. -/
def nextAvg (avg current : ℤ) : ℤ :=
  (((I128.checkedMul avg 9).bind fun v => I128.checkedAdd v current).bind
    fun v => I128.checkedDiv v 10).getD current

/-- The store with another stable rate state. -/
def withStableRate (state : Option StableRateState) (s : Storage) : Storage :=
  { s with stableRateState := state }

def updateStableRateStateIfNeeded {ε : Type} : Invocation ε StableRateState := do
  let state ← look getStableRateState
  let now ← asks Env.timestamp
  let interval ← view getStableRateRecalcIntervalSecs
  if now ≤ state.lastUpdate then pure state
  else if interval = 0 ∨ now - state.lastUpdate < interval then pure state
  else do
    let current ← look (variableRateOr state.avgRateBps)
    store (withStableRate (some ⟨nextAvg state.avgRateBps current, now⟩))
    pure ⟨nextAvg state.avgRateBps current, now⟩

def getCurrentStableRateBps : Invocation BorrowError ℤ := do
  let state ← updateStableRateStateIfNeeded
  let premium ← view getStableRatePremiumBps
  okOr (I128.checkedAdd state.avgRateBps premium) .overflow

/-! ## Positions -/

/-- The storage key of a bucket. -/
def debtRecord (s : Storage) (rateType : RateType) (user : Address) : Option DebtPosition :=
  match rateType with
  | .variable => s.borrowUserVariableDebt user
  | .stable => s.borrowUserStableDebt user

/-- A bucket with nothing in it. -/
def emptyPosition (now : ℕ) (asset : Address) (rateType : RateType) : DebtPosition :=
  ⟨0, 0, now, asset, rateType, 0⟩

/-- A bucket as the contract reads it.  Without a variable record the variable bucket is read from
the legacy record. -/
def getDebtPosition (e : Env) (s : Storage) (user : Address) (defaultAsset : Option Address)
    (rateType : RateType) : DebtPosition :=
  match rateType, debtRecord s rateType user, s.borrowUserDebt user with
  | _, some pos, _ => pos
  | .variable, none, some legacy =>
    ⟨legacy.borrowedAmount, legacy.interestAccrued, legacy.lastUpdate, legacy.asset, .variable, 0⟩
  | _, none, _ => emptyPosition e.timestamp (defaultAsset.getD user) rateType

/-- The bucket an operation on it starts from: as read, and marked with the rate type asked for. -/
def bucketOf (e : Env) (s : Storage) (user asset : Address) (rateType : RateType) : DebtPosition :=
  { getDebtPosition e s user (some asset) rateType with rateType }

/-- Principal or interest is owed in the bucket. -/
def DebtPosition.Owing (p : DebtPosition) : Prop := 0 < p.borrowedAmount ∨ 0 < p.interestAccrued

instance (p : DebtPosition) : Decidable p.Owing := inferInstanceAs (Decidable (_ ∨ _))

/-- The record the legacy key is set to: the variable bucket if it owes anything, else the stable
one. -/
def compatUserDebt (s : Storage) (user : Address) (now : ℕ) : DebtPosition :=
  let chosen :=
    match s.borrowUserVariableDebt user with
    | some pos => if pos.Owing then some pos else s.borrowUserStableDebt user
    | none => s.borrowUserStableDebt user
  chosen.getD (emptyPosition now user .variable)

/-- Rewrite the legacy record. -/
def updateCompatUserDebt (user : Address) (now : ℕ) (s : Storage) : Storage :=
  { s with borrowUserDebt :=
      Function.update s.borrowUserDebt user (some (compatUserDebt s user now)) }

/-- Write a bucket's record. -/
def setDebtRecord (user : Address) (p : DebtPosition) (s : Storage) : Storage :=
  { s with
    borrowUserVariableDebt :=
      match p.rateType with
      | .variable => Function.update s.borrowUserVariableDebt user (some p)
      | .stable => s.borrowUserVariableDebt
    borrowUserStableDebt :=
      match p.rateType with
      | .variable => s.borrowUserStableDebt
      | .stable => Function.update s.borrowUserStableDebt user (some p) }

/-- The store after a bucket is saved. -/
def savedDebt (now : ℕ) (user : Address) (p : DebtPosition) (s : Storage) : Storage :=
  updateCompatUserDebt user now (setDebtRecord user p s)

def saveDebtPosition {ε : Type} (user : Address) (p : DebtPosition) : Invocation ε Unit := do
  let now ← asks Env.timestamp
  store (savedDebt now user p)

def getCollateralPosition (s : Storage) (user : Address) : BorrowCollateral :=
  (s.borrowUserCollateral user).getD ⟨0, user⟩

/-- The store after a user's collateral is saved. -/
def withCollateral (user : Address) (c : BorrowCollateral) (s : Storage) : Storage :=
  { s with borrowUserCollateral := Function.update s.borrowUserCollateral user (some c) }

def saveCollateralPosition {ε : Type} (user : Address) (c : BorrowCollateral) :
    Invocation ε Unit :=
  store (withCollateral user c)

/-- The store with another total debt. -/
def withTotalDebt (amount : ℤ) (s : Storage) : Storage := { s with borrowTotalDebt := some amount }

def setTotalDebt {ε : Type} (amount : ℤ) : Invocation ε Unit := store (withTotalDebt amount)

def getMinBorrowAmount (s : Storage) : ℤ := s.borrowMinAmount.getD 1000
def getOracle (s : Storage) : Option Address := s.oracleAddress
def getLiquidationThresholdBps (s : Storage) : ℤ := s.liquidationThresholdBps.getD 8000
def getCloseFactorBps (s : Storage) : ℤ := s.closeFactorBps.getD 5000

def getStablecoinConfig (s : Storage) (asset : Address) : Option StablecoinConfig :=
  s.assetStablecoinConfig asset

/-! ## Collateral ratio -/

/-- The collateral a debt of `debt` requires: 150%, rounded down. -/
def minCollateral (debt : ℤ) : ℤ := (debt * COLLATERAL_RATIO_MIN).tdiv 10000

def validateCollateralRatio (collateral borrow : ℤ) : Except BorrowError Unit := do
  let scaled ← orErr (I128.checkedMul borrow COLLATERAL_RATIO_MIN) .overflow
  let required ← orErr (I128.checkedDiv scaled 10000) .invalidAmount
  if collateral < required then .error .insufficientCollateral else .ok ()

/-! ## Interest -/

/-- `principal * bps * elapsed / 10000 / SECONDS_PER_YEAR` at 256 bits; `none` is an overflow. -/
def simpleInterest (principal bps elapsed : ℤ) : Option ℤ :=
  (((I256.mul principal bps).bind fun x => I256.mul x elapsed).bind fun x =>
    I256.div x 10000).bind fun x => I256.div x SECONDS_PER_YEAR

/-- How far the price is below its target, in basis points of the target. -/
def deviationBps (config : StablecoinConfig) (price : ℤ) : ℤ :=
  if 0 < config.targetPrice then
    I128.saturatingDiv (I128.saturatingMul (I128.saturatingSub config.targetPrice price) 10000)
      config.targetPrice
  else 0

/-- The fee rate the stablecoin configuration adds for the asset: its stability fee while the price
is off its peg.  `none` is an oracle call that traps. -/
def stabilityFeeBps (e : Env) (s : Storage) (asset : Address) : Option (Option ℤ) :=
  match getStablecoinConfig s asset, getOracle s with
  | some config, some oracle =>
    (e.price oracle asset).map fun price =>
      if config.pegThresholdBps < deviationBps config price then some config.stabilityFeeBps
      else none
  | _, _ => some none

/-- The rate a position accrues at. -/
def positionRateBps (p : DebtPosition) : Invocation BorrowError ℤ :=
  match p.rateType with
  | .variable => do
    let rate ← look getCurrentVariableRateBps
    ofExcept rate
  | .stable => if 0 < p.stableRateBps then pure p.stableRateBps else getCurrentStableRateBps

/-- The interest with the stability fee added, if there is one; `none` is an overflow. -/
def addStabilityFee (principal elapsed interest : ℤ) (feeBps : Option ℤ) : Option ℤ :=
  match feeBps with
  | none => some interest
  | some bps => (simpleInterest principal bps elapsed).bind fun fee => I256.add interest fee

/-- The interest since the position's last update. -/
def calculateInterest (p : DebtPosition) : Invocation BorrowError ℤ :=
  if p.borrowedAmount = 0 then pure 0
  else do
    let now ← asks Env.timestamp
    let rate ← positionRateBps p
    let elapsed : ℤ := ((now - p.lastUpdate : ℕ) : ℤ)
    let interest ← orTrap (simpleInterest p.borrowedAmount rate elapsed)
    let fee ← look fun e s => stabilityFeeBps e s p.asset
    let fee ← orTrap fee
    let interest ← orTrap (addStabilityFee p.borrowedAmount elapsed interest fee)
    okOr (I256.toI128 interest) .overflow

/-! ## Operations -/

/-- The rate recorded with a save of a bucket: the current stable rate for the stable bucket. -/
def bucketRateBps (rateType : RateType) (old : ℤ) : Invocation BorrowError ℤ :=
  match rateType with
  | .stable => getCurrentStableRateBps
  | .variable => pure old

inductive BorrowAuth where
  | requireUserSignature
  | trustedCommitment
  deriving DecidableEq, Repr

def borrowInner (user asset : Address) (amount : ℤ) (collateralAsset : Address)
    (collateralAmount : ℤ) (rateType : RateType) (auth : BorrowAuth) :
    Invocation BorrowError Unit := do
  onlyIf (auth = .requireUserSignature) (requireAuth user)
  let paused ← view fun s => isPaused s .borrow
  failIf (paused = true) .protocolPaused
  failIf (amount ≤ 0 ∨ collateralAmount ≤ 0) .invalidAmount
  let minBorrow ← view getMinBorrowAmount
  failIf (amount < minBorrow) .belowMinimumBorrow
  ofExcept (validateCollateralRatio collateralAmount amount)
  let totalDebt ← view getTotalDebt
  let debtCeiling ← view getDebtCeiling
  let newTotal ← okOr (I128.checkedAdd totalDebt amount) .overflow
  failIf (debtCeiling < newTotal) .debtCeilingReached
  let pos ← look fun e s => bucketOf e s user asset rateType
  let accrued ← calculateInterest pos
  let borrowed ← okOr (I128.checkedAdd pos.borrowedAmount amount) .overflow
  let interest ← okOr (I128.checkedAdd pos.interestAccrued accrued) .overflow
  let now ← asks Env.timestamp
  let stableRate ← bucketRateBps rateType pos.stableRateBps
  let collateral ← view fun s => getCollateralPosition s user
  let collateralTotal ← okOr (I128.checkedAdd collateral.amount collateralAmount) .overflow
  saveDebtPosition user ⟨borrowed, interest, now, asset, rateType, stableRate⟩
  saveCollateralPosition user ⟨collateralTotal, collateralAsset⟩
  setTotalDebt newTotal
  onUtilizationChanged newTotal debtCeiling

def borrowTrusted (user asset : Address) (amount : ℤ) (collateralAsset : Address)
    (collateralAmount : ℤ) : Invocation BorrowError Unit :=
  borrowInner user asset amount collateralAsset collateralAmount .variable .trustedCommitment

def Borrow.borrowWithRate (user asset : Address) (amount : ℤ) (collateralAsset : Address)
    (collateralAmount : ℤ) (rateType : RateType) : Invocation BorrowError Unit :=
  borrowInner user asset amount collateralAsset collateralAmount rateType .requireUserSignature

def Borrow.borrow (user asset : Address) (amount : ℤ) (collateralAsset : Address)
    (collateralAmount : ℤ) : Invocation BorrowError Unit :=
  Borrow.borrowWithRate user asset amount collateralAsset collateralAmount .variable

def borrowFromCommitment (user asset : Address) (amount : ℤ) (collateralAsset : Address)
    (collateralAmount : ℤ) : Invocation BorrowError Unit :=
  borrowInner user asset amount collateralAsset collateralAmount .variable .trustedCommitment

/-- Add collateral to a borrow position. -/
def Borrow.deposit (user asset : Address) (amount : ℤ) : Invocation BorrowError Unit := do
  failIf (amount ≤ 0) .invalidAmount
  let c ← view fun s => getCollateralPosition s user
  failIf (c.amount ≠ 0 ∧ c.asset ≠ asset) .assetNotSupported
  let total ← okOr (I128.checkedAdd c.amount amount) .overflow
  saveCollateralPosition user ⟨total, if c.amount = 0 then asset else c.asset⟩

/-- What a repayment leaves after the interest is paid: the rest of the payment, and the interest
still owed.  `none` is an overflow, which traps. -/
def payInterest (amount interest : ℤ) : Option (ℤ × ℤ) :=
  if interest ≤ amount then (I128.checkedSub amount interest).map fun remaining => (remaining, 0)
  else (I128.checkedSub interest amount).map fun left => (0, left)

/-- Pay principal with the rest of a repayment, and take it off the protocol's total debt. -/
def payPrincipal (borrowed remaining : ℤ) : Invocation BorrowError ℤ :=
  if 0 < remaining then do
    failIf (borrowed < remaining) .repayAmountTooHigh
    let totalDebt ← view getTotalDebt
    let newTotal ← okOr (I128.checkedSub totalDebt remaining) .overflow
    setTotalDebt newTotal
    pure (borrowed - remaining)
  else pure borrowed

def Borrow.repayWithRate (user asset : Address) (amount : ℤ) (rateType : RateType) :
    Invocation BorrowError Unit := do
  failIf (amount ≤ 0) .invalidAmount
  let pos ← look fun e s => bucketOf e s user asset rateType
  failIf (pos.borrowedAmount = 0 ∧ pos.interestAccrued = 0) .invalidAmount
  failIf (pos.asset ≠ asset) .assetNotSupported
  let accrued ← calculateInterest pos
  let interest ← okOr (I128.checkedAdd pos.interestAccrued accrued) .overflow
  let now ← asks Env.timestamp
  let (remaining, interestLeft) ← orTrap (payInterest amount interest)
  let principalLeft ← payPrincipal pos.borrowedAmount remaining
  saveDebtPosition user
    ⟨principalLeft, interestLeft, now, pos.asset, rateType, pos.stableRateBps⟩

def Borrow.repay (user asset : Address) (amount : ℤ) : Invocation BorrowError Unit := do
  let variablePos ← look fun e s => getDebtPosition e s user (some asset) .variable
  if variablePos.Owing then Borrow.repayWithRate user asset amount .variable
  else Borrow.repayWithRate user asset amount .stable

/-- The other bucket. -/
def RateType.other : RateType → RateType
  | .variable => .stable
  | .stable => .variable

theorem RateType.ne_other (r : RateType) : r ≠ r.other := by
  rcases r with _ | _ <;> exact nofun

def Borrow.switchRateType (user asset : Address) (toRateType : RateType) :
    Invocation BorrowError Unit := do
  requireAuth user
  let fromRateType := toRateType.other
  let source ← look fun e s => bucketOf e s user asset fromRateType
  failIf (source.borrowedAmount = 0 ∧ source.interestAccrued = 0) .invalidAmount
  let target ← look fun e s => bucketOf e s user asset toRateType
  failIf (target.borrowedAmount ≠ 0 ∨ target.interestAccrued ≠ 0) .assetNotSupported
  let accrued ← calculateInterest source
  let interest ← okOr (I128.checkedAdd source.interestAccrued accrued) .overflow
  let feeBps ← view getRateSwitchFeeBps
  let scaled ← okOr (I128.checkedMul source.borrowedAmount feeBps) .overflow
  let fee ← okOr (I128.checkedDiv scaled 10000) .overflow
  let interest ← okOr (I128.checkedAdd interest fee) .overflow
  let now ← asks Env.timestamp
  let stableRate ← bucketRateBps toRateType target.stableRateBps
  saveDebtPosition user ⟨0, 0, now, source.asset, fromRateType, 0⟩
  saveDebtPosition user ⟨source.borrowedAmount, interest, now, asset, toRateType, stableRate⟩

/-! ## Settings -/

/-- The borrow settings.  The source leaves the admin check to the caller. -/
def Borrow.initializeBorrowSettings {ε : Type} (debtCeiling minBorrowAmount : ℤ) :
    Invocation ε Unit := do
  store fun s =>
    { s with borrowDebtCeiling := some debtCeiling, borrowMinAmount := some minBorrowAmount }
  setDefaultIfMissing
  store fun s =>
    { s with
      stableRatePremiumBps := s.stableRatePremiumBps.or (some DEFAULT_STABLE_PREMIUM_BPS)
      stableRateRecalcIntervalSecs :=
        s.stableRateRecalcIntervalSecs.or (some DEFAULT_STABLE_RECALC_INTERVAL_SECS)
      rateSwitchFeeBps := s.rateSwitchFeeBps.or (some DEFAULT_SWITCH_FEE_BPS) }

/-- The check every admin setter starts with. -/
def requireAdmin (admin : Address) : Invocation BorrowError Unit := do
  let current ← view getAdmin
  let current ← okOr current .unauthorized
  failIf (admin ≠ current) .unauthorized
  requireAuth admin

def Borrow.setOracle (admin oracle : Address) : Invocation BorrowError Unit := do
  requireAdmin admin
  store fun s => { s with oracleAddress := some oracle }

def Borrow.setLiquidationThresholdBps (admin : Address) (bps : ℤ) :
    Invocation BorrowError Unit := do
  requireAdmin admin
  failIf (bps ≤ 0 ∨ 10000 < bps) .invalidAmount
  store fun s => { s with liquidationThresholdBps := some bps }

def Borrow.setStablecoinConfig (admin asset : Address) (config : StablecoinConfig) :
    Invocation BorrowError Unit := do
  requireAdmin admin
  store fun s =>
    { s with assetStablecoinConfig := Function.update s.assetStablecoinConfig asset (some config) }

/-! ## Reading a position with its pending interest -/

/-- A position with the interest accrued to now.  An overflow saturates, other errors leave the
stored interest. -/
def withPendingInterest {ε : Type} (p : DebtPosition) : Invocation ε DebtPosition := do
  let accrued ← attempt (calculateInterest p)
  match accrued with
  | .ok a => pure { p with interestAccrued := I128.saturatingAdd p.interestAccrued a }
  | .error .overflow => pure { p with interestAccrued := I128.MAX }
  | .error _ => pure p

def Borrow.getUserDebt {ε : Type} (user : Address) : Invocation ε DebtPosition := do
  let variablePos ← look fun e s => getDebtPosition e s user none .variable
  let stablePos ← look fun e s => getDebtPosition e s user none .stable
  withPendingInterest (if variablePos.Owing then variablePos else stablePos)

def Borrow.getUserDebtWithRate {ε : Type} (user : Address) (rateType : RateType) :
    Invocation ε DebtPosition := do
  let p ← look fun e s => getDebtPosition e s user none rateType
  withPendingInterest p

end StellarLend.Lending
