import StellarLend.HelloWorld.Borrow

/-!
# HelloWorld/Liquidate — repaying a borrower's debt for its collateral

A borrower with an asset list is judged by the oracle-weighted value of the whole list.  One
without is judged by its aggregate balance at the price of the collateral asset over the price of
the debt asset, and both are the liquidator's to name.
-/

namespace StellarLend.HelloWorld

open Foundations Call
open Lending (Address)

inductive LiquidationError where
  | invalidAmount
  | invalidAsset
  | notLiquidatable
  | liquidationPaused
  | exceedsCloseFactor
  | insufficientBalance
  | overflow
  | invalidCollateralAsset
  | invalidDebtAsset
  | priceNotAvailable
  | insufficientLiquidation
  | reentrancy
  deriving DecidableEq, Repr

def LiquidationError.toLendingError : LiquidationError → LendingError
  | .invalidAmount => .invalidAmount
  | .invalidAsset => .invalidAsset
  | .notLiquidatable => .invalidState
  | .liquidationPaused => .protocolPaused
  | .exceedsCloseFactor => .limitExceeded
  | .insufficientBalance => .insufficientBalance
  | .overflow => .overflow
  | .invalidCollateralAsset => .invalidAsset
  | .invalidDebtAsset => .invalidAsset
  | .priceNotAvailable => .priceUnavailable
  | .insufficientLiquidation => .invalidState
  | .reentrancy => .reentrancy

def MAX_PENALTY_BPS : ℤ := 2000

/-- The penalty grows from the base incentive to its cap as the ratio falls from the threshold to
nothing.  The two differences are unchecked. -/
def calculateDynamicPenalty (collateralValue totalDebt : ℤ) : Invocation LiquidationError ℤ := do
  let params ← view getRiskParams
  let params ← okOr params .overflow
  if totalDebt = 0 then pure params.liquidationIncentive
  else do
    let health ← okOr
      ((I128.checkedMul collateralValue 10000).bind fun scaled => I128.checkedDiv scaled totalDebt)
      .overflow
    if params.liquidationThreshold ≤ health then pure params.liquidationIncentive
    else do
      let severity ← orTrap (I128.checkedSub params.liquidationThreshold health)
      let range ← orTrap (I128.checkedSub MAX_PENALTY_BPS params.liquidationIncentive)
      let extra ← okOr
        ((I128.checkedMul severity range).bind fun scaled =>
          I128.checkedDiv scaled params.liquidationThreshold) .overflow
      let penalty ← okOr (I128.checkedAdd params.liquidationIncentive extra) .overflow
      pure (min penalty MAX_PENALTY_BPS)

/-- The source's `liquidate::accrue_interest`. -/
def Liquidate.accrueInterest (user : Address) (position : Position) :
    Invocation LiquidationError Position :=
  HelloWorld.accrueInterest .overflow user position

/-- The price of a token, or the default of one unit at eight decimals. -/
def getAssetPrice {ε : Type} (asset : Address) : Invocation ε ℤ :=
  ofOracle (priceOr 100000000 asset)

/-- The price of a named asset: `1` for native assets, and not one unit at eight decimals. -/
def namedPrice {ε : Type} (asset : Option Address) : Invocation ε ℤ :=
  match asset with
  | some token => getAssetPrice token
  | none => pure 1

def calculateCollateralValue (amount collateralPrice debtPrice : ℤ) :
    Except LiquidationError ℤ :=
  if debtPrice = 0 then .error .priceNotAvailable
  else do
    let scaled ← orErr (I128.checkedMul amount collateralPrice) .overflow
    orErr (I128.checkedDiv scaled debtPrice) .overflow

/-- The balance a liquidation can seize from. -/
def seizableBalance (s : Storage) (borrower : Address) (collateralAsset : Option Address) : ℤ :=
  match collateralAsset with
  | some token =>
    if hasMultiAssetCollateral s borrower then getUserAssetCollateral s borrower token
    else getCollateralBalance s borrower
  | none => getCollateralBalance s borrower

/-- The collateral value the borrower is judged by. -/
def collateralValueForCheck (borrower : Address) (debtAsset collateralAsset : Option Address)
    (balance : ℤ) : Invocation LiquidationError ℤ := do
  let multi ← view fun s => hasMultiAssetCollateral s borrower
  if multi then mapErr (fun _ => .overflow) (calculateTotalCollateralValue borrower)
  else if debtAsset = none ∧ collateralAsset = none then pure balance
  else do
    let debtPrice ← namedPrice debtAsset
    let collateralPrice ← namedPrice collateralAsset
    ofExcept (calculateCollateralValue balance collateralPrice debtPrice)

/-- The collateral a repaid debt is worth, before the incentive. -/
def collateralFor (debtAsset collateralAsset : Option Address) (repaid : ℤ) :
    Invocation LiquidationError ℤ :=
  if debtAsset = none ∧ collateralAsset = none then pure repaid
  else do
    let debtPrice ← namedPrice debtAsset
    let collateralPrice ← namedPrice collateralAsset
    okOr ((I128.checkedMul repaid debtPrice).bind fun scaled =>
      I128.checkedDiv scaled collateralPrice) .overflow

/-- What a liquidation settles: the debt repaid, the incentive, the collateral seized, the
protocol's fee and what is left of the seizure for the liquidator. -/
structure Settlement where
  repaid : ℤ
  incentive : ℤ
  seized : ℤ
  fee : ℤ
  received : ℤ
  deriving DecidableEq, Repr

/-- The amounts of a liquidation. -/
def settlement (debtAsset collateralAsset : Option Address)
    (debtAmount totalDebt balance value : ℤ) : Invocation LiquidationError Settlement := do
  let repaid := if totalDebt < debtAmount then totalDebt else debtAmount
  let incentiveBps ← calculateDynamicPenalty value totalDebt
  let incentive ← okOr
    ((I128.checkedMul repaid incentiveBps).bind fun scaled => I128.checkedDiv scaled 10000)
    .overflow
  let worth ← collateralFor debtAsset collateralAsset repaid
  let factor ← orTrap (I128.checkedAdd 10000 incentiveBps)
  let seizable ← okOr
    ((I128.checkedMul worth factor).bind fun scaled => I128.checkedDiv scaled 10000) .overflow
  let seized := if balance < seizable then balance else seizable
  let fees ← view getFeeConfig
  let fee ← okOr
    ((I128.checkedMul incentive fees.liquidationFeeBps).bind fun scaled =>
      I128.checkedDiv scaled 10000) .overflow
  let received ← okOr (I128.checkedSub seized fee) .overflow
  pure ⟨repaid, incentive, seized, fee, received⟩

/-- Pull the repaid debt in.  Native debt moves nothing. -/
def receiveLiquidation (liquidator : Address) (debtAsset : Option Address) (repaid : ℤ) :
    Invocation LiquidationError Unit :=
  match debtAsset with
  | none => pure ()
  | some token => do
    let balance ← tokenBalance token liquidator
    failIf (balance < repaid) .insufficientBalance
    transferIn token liquidator repaid

/-- Send the liquidator's share of the collateral.  Native collateral moves nothing. -/
def sendSeized (liquidator : Address) (collateralAsset : Option Address) (seized received : ℤ) :
    Invocation LiquidationError Unit :=
  match collateralAsset with
  | none => pure ()
  | some token => do
    let self ← asks Env.currentContractAddress
    let balance ← tokenBalance token self
    failIf (balance < seized) .insufficientBalance
    transferOut token liquidator received

/-- Whether the breaker lets the liquidator through; one that was never initialised does. -/
def breakerAllows (liquidator : Address) : Invocation LiquidationError Bool := do
  let allowed ← attempt (isLiquidationAllowed liquidator)
  pure (match allowed with
    | .ok allowed => allowed
    | .error _ => true)

/-- What stops a liquidation before the position is read. -/
def liquidationGate (liquidator : Address) (debtAsset collateralAsset : Option Address)
    (debtAmount : ℤ) : Invocation LiquidationError Unit := do
  failIf (debtAmount ≤ 0) .invalidAmount
  let allowed ← breakerAllows liquidator
  failIf (allowed = false) .liquidationPaused
  let emergency ← view isEmergencyPaused
  failIf (emergency = true) .liquidationPaused
  mapErr (fun _ => .liquidationPaused) (requireOperationNotPaused "pause_liquidate")
  let self ← asks Env.currentContractAddress
  failIf (debtAsset = some self) .invalidDebtAsset
  failIf (collateralAsset = some self) .invalidCollateralAsset

/-- Judge the borrower and bound the amount by the close factor. -/
def liquidationCheck (debtAmount value totalDebt : ℤ) : Invocation LiquidationError Unit := do
  let canLiquidate ← mapErr (fun _ => .notLiquidatable) (canBeLiquidated value totalDebt)
  failIf (canLiquidate = false) .notLiquidatable
  let maxLiquidatable ← mapErr (fun _ => .overflow) (getMaxLiquidatableAmount totalDebt)
  failIf (maxLiquidatable < debtAmount) .exceedsCloseFactor

/-- Take what was seized from the borrower's records: the aggregate, the asset for a borrower with
an asset list, and the position. -/
def seize (borrower : Address) (collateralAsset : Option Address) (position : Position)
    (seized : ℤ) : Invocation LiquidationError Unit := do
  let collateral ← view fun s => subOrZero (getCollateralBalance s borrower) seized
  store (withCollateralBalance borrower collateral)
  let multi ← view fun s => hasMultiAssetCollateral s borrower
  (match collateralAsset with
    | some token => onlyIf (multi = true) (recordAssetWithdrawal borrower token seized)
    | none => pure ())
  store (withPosition borrower { position with collateral })

/-- Returns the debt repaid, the collateral seized and the incentive. -/
def liquidate (liquidator borrower : Address) (debtAsset collateralAsset : Option Address)
    (debtAmount : ℤ) : Invocation LiquidationError (ℤ × ℤ × ℤ) := do
  liquidationGate liquidator debtAsset collateralAsset debtAmount
  let now ← asks Env.timestamp
  let position ← view fun s => s.books.position borrower
  let position ← okOr position .notLiquidatable
  let position ← Liquidate.accrueInterest borrower position
  let balance ← view fun s => seizableBalance s borrower collateralAsset
  let totalDebt ← okOr (I128.checkedAdd position.debt position.borrowInterest) .overflow
  let value ← collateralValueForCheck borrower debtAsset collateralAsset balance
  liquidationCheck debtAmount value totalDebt
  let amounts ← settlement debtAsset collateralAsset debtAmount totalDebt balance value
  receiveLiquidation liquidator debtAsset amounts.repaid
  sendSeized liquidator collateralAsset amounts.seized amounts.received
  onlyIf (0 < amounts.fee) (creditReserve .overflow collateralAsset amounts.fee)
  let interestToPay :=
    if amounts.repaid ≤ position.borrowInterest then amounts.repaid else position.borrowInterest
  let principalToPay ← okOr (I128.checkedSub amounts.repaid interestToPay) .overflow
  seize borrower collateralAsset
    { position.settle interestToPay principalToPay with lastAccrualTime := now } amounts.seized
  touchUserAnalytics borrower (liquidatedAnalytics amounts.repaid amounts.seized)
  touchProtocolAnalytics (unlockedTotals amounts.seized)
  addActivityLog borrower "liquidate" amounts.repaid debtAsset
  let _ ← attempt (updateScoreOnLiquidation borrower)
  pure (amounts.repaid, amounts.seized, amounts.incentive)

end StellarLend.HelloWorld
