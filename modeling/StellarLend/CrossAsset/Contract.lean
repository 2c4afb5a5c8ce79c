import StellarLend.Foundations.Run
import StellarLend.CrossAsset.Summary

/-!
# CrossAsset/Contract — deposits, withdrawals, borrows, repayments, liquidations

A withdrawal and a borrow write the position first and judge it as written; where the judgement is
against them they write it back and fail.  The source defines `cross_asset_borrow` twice: this is
the one that counts isolated pools apart.

An `Op` is a call of one of the module's functions and `step` what the host keeps of it.  Several
entry points of the contract lead to one function, and differ in what they make of its error.
-/

namespace StellarLend.CrossAsset

open Foundations Call
open Lending (Address)

/-! ## Operations -/

/-- `get_user_asset_position` in a call. -/
def readPosition (user : Address) (asset : Option Address) : Invocation AssetPosition :=
  look fun e s => getUserAssetPosition e.timestamp s user asset

/-- `get_user_position_summary` in a call. -/
def readSummary (user : Address) : Invocation UserPositionSummary := do
  let summary ← look fun e s => getUserPositionSummary e.timestamp s user
  ofResult summary

/-- A cap that is set bounds the total after the operation. -/
def checkCap (cap : ℤ) (total : Storage → ℤ) (amount : ℤ) (err : CrossAssetError) :
    Invocation Unit :=
  onlyIf (0 < cap) do
    let current ← view total
    let next ← orTrap (I128.checkedAdd current amount)
    failIf (cap < next) err

def crossAssetDeposit (user : Address) (asset : Option Address) (amount : ℤ) :
    Invocation AssetPosition := do
  requireAuth user
  let key := AssetKey.fromOption asset
  let config ← getAssetConfig key
  failIf (config.isFrozen = true) .assetDisabled
  failIf (config.canCollateralize = false) .assetDisabled
  checkCap config.maxSupply (fun s => getTotalSupply s key) amount .supplyCapExceeded
  let position ← readPosition user asset
  let collateral ← orTrap (I128.checkedAdd position.collateral amount)
  let now ← asks Env.timestamp
  let position := { position with collateral := collateral, lastUpdated := now }
  store (setUserAssetPosition user asset position)
  updateTotalSupply key amount
  pure position

def crossAssetWithdraw (user : Address) (asset : Option Address) (amount : ℤ) :
    Invocation AssetPosition := do
  requireAuth user
  let key := AssetKey.fromOption asset
  let position ← readPosition user asset
  failIf (position.collateral < amount) .insufficientCollateral
  let collateral ← orTrap (I128.checkedSub position.collateral amount)
  let now ← asks Env.timestamp
  let position := { position with collateral := collateral, lastUpdated := now }
  store (setUserAssetPosition user asset position)
  let summary ← readSummary user
  onlyIf (0 < summary.totalDebtValue ∧ summary.healthFactor < 10000) do
    let collateral ← orTrap (I128.checkedAdd position.collateral amount)
    store (setUserAssetPosition user asset { position with collateral := collateral })
    fail .unhealthyPosition
  let delta ← orTrap (I128.checkedSub 0 amount)
  updateTotalSupply key delta
  pure position

/-- The most an isolated pool lends to a user with some collateral in it.  What overflows counts as
nothing. -/
def maxPoolDebt (collateral collateralFactor : ℤ) : ℤ :=
  (I128.checkedDiv ((I128.checkedMul collateral collateralFactor).getD 0) 10000).getD 0

/-- Write the position of a borrow back and fail. -/
def undoBorrow (user : Address) (asset : Option Address) (amount : ℤ) (position : AssetPosition) :
    Invocation Unit := do
  let principal ← orTrap (I128.checkedSub position.debtPrincipal amount)
  store (setUserAssetPosition user asset { position with debtPrincipal := principal })
  fail .exceedsBorrowCapacity

/-- The gate of a borrow, on the position as written.  An isolated pool looks at itself only. -/
def borrowGate (user : Address) (asset : Option Address) (amount : ℤ) (config : AssetConfig)
    (position : AssetPosition) : Invocation Unit :=
  if config.isIsolated = true then do
    let poolDebt ← orTrap (I128.checkedAdd position.debtPrincipal position.accruedInterest)
    onlyIf (maxPoolDebt position.collateral config.collateralFactor < poolDebt)
      (undoBorrow user asset amount position)
  else do
    let summary ← readSummary user
    onlyIf (summary.healthFactor < 10000) (undoBorrow user asset amount position)

def crossAssetBorrow (user : Address) (asset : Option Address) (amount : ℤ) :
    Invocation AssetPosition := do
  requireAuth user
  let key := AssetKey.fromOption asset
  let config ← getAssetConfig key
  failIf (config.isFrozen = true) .assetDisabled
  failIf (config.canBorrow = false) .assetDisabled
  checkCap config.maxBorrow (fun s => getTotalBorrow s key) amount .borrowCapExceeded
  let position ← readPosition user asset
  let principal ← orTrap (I128.checkedAdd position.debtPrincipal amount)
  let now ← asks Env.timestamp
  let position := { position with debtPrincipal := principal, lastUpdated := now }
  store (setUserAssetPosition user asset position)
  borrowGate user asset amount config position
  updateTotalBorrow key amount
  pure position

/-- Interest first, then principal. -/
def AssetPosition.payOff (repayAmount : ℤ) (p : AssetPosition) : Option AssetPosition :=
  if repayAmount ≤ p.accruedInterest then
    (I128.checkedSub p.accruedInterest repayAmount).map fun interest =>
      { p with accruedInterest := interest }
  else do
    let remaining ← I128.checkedSub repayAmount p.accruedInterest
    let principal ← I128.checkedSub p.debtPrincipal remaining
    pure { p with accruedInterest := 0, debtPrincipal := principal }

def crossAssetRepay (user : Address) (asset : Option Address) (amount : ℤ) :
    Invocation AssetPosition := do
  requireAuth user
  let key := AssetKey.fromOption asset
  let position ← readPosition user asset
  let totalDebt ← orTrap (I128.checkedAdd position.debtPrincipal position.accruedInterest)
  let repayAmount := min amount totalDebt
  let position ← orTrap (position.payOff repayAmount)
  let now ← asks Env.timestamp
  let position := { position with lastUpdated := now }
  store (setUserAssetPosition user asset position)
  let delta ← orTrap (I128.checkedSub 0 repayAmount)
  updateTotalBorrow key delta
  pure position

/-- What a liquidator receives of the collateral asked for. -/
def actualCollateral (config : AssetConfig) (collateralToReceive : ℤ) : Option ℤ := do
  let incentive ← I128.checkedSub config.liquidationThreshold config.collateralFactor
  let rate ← I128.checkedSub 10000 incentive
  partOf collateralToReceive rate

/-- Both positions are read before either is written. -/
def crossAssetLiquidate (liquidator user : Address) (debtAsset collateralAsset : Option Address)
    (debtToRepay collateralToReceive : ℤ) : Invocation ℤ := do
  requireAuth liquidator
  let debtKey := AssetKey.fromOption debtAsset
  let collateralKey := AssetKey.fromOption collateralAsset
  let _ ← getAssetConfig debtKey
  let collateralConfig ← getAssetConfig collateralKey
  let summary ← readSummary user
  failIf (summary.isLiquidatable = false) .insufficientCollateral
  let debtPosition ← readPosition user debtAsset
  let collateralPosition ← readPosition user collateralAsset
  failIf (debtToRepay ≤ 0 ∨ collateralToReceive ≤ 0) .insufficientCollateral
  let actual ← orTrap (actualCollateral collateralConfig collateralToReceive)
  failIf (collateralPosition.collateral < actual) .insufficientCollateral
  let totalDebt ← orTrap (I128.checkedAdd debtPosition.debtPrincipal debtPosition.accruedInterest)
  failIf (totalDebt < debtToRepay) .insufficientCollateral
  let now ← asks Env.timestamp
  let principal ← orTrap (I128.checkedSub debtPosition.debtPrincipal debtToRepay)
  let debtPosition := { debtPosition with debtPrincipal := principal, lastUpdated := now }
  let collateral ← orTrap (I128.checkedSub collateralPosition.collateral actual)
  let collateralPosition := { collateralPosition with collateral := collateral, lastUpdated := now }
  store (setUserAssetPosition user debtAsset debtPosition)
  store (setUserAssetPosition user collateralAsset collateralPosition)
  let borrowDelta ← orTrap (I128.checkedSub 0 debtToRepay)
  updateTotalBorrow debtKey borrowDelta
  let supplyDelta ← orTrap (I128.checkedSub 0 actual)
  updateTotalSupply collateralKey supplyDelta
  pure actual

/-! ## Entry points -/

/-- A call of the module. -/
inductive Op where
  | initializeCa (admin : Address)
  | initializeAsset (asset : Option Address) (config : AssetConfig)
  | updateAssetConfig (asset : Option Address) (collateralFactor liquidationThreshold maxSupply
      maxBorrow : Option ℤ) (canCollateralize canBorrow : Option Bool)
  | updateAssetPrice (asset : Option Address) (price : ℤ)
  | freezePool (admin : Address) (asset : Option Address) (freeze : Bool)
  | deposit (user : Address) (asset : Option Address) (amount : ℤ)
  | withdraw (user : Address) (asset : Option Address) (amount : ℤ)
  | borrow (user : Address) (asset : Option Address) (amount : ℤ)
  | repay (user : Address) (asset : Option Address) (amount : ℤ)
  | liquidate (liquidator user : Address) (debtAsset collateralAsset : Option Address)
      (debtToRepay collateralToReceive : ℤ)
  deriving DecidableEq

/-- A transaction: a call and what it finds around it. -/
structure Tx where
  env : Env
  op : Op

/-- The store after a transaction that succeeded. -/
def step (tx : Tx) (s : Storage) : Option Storage :=
  match tx.op with
  | .initializeCa admin => commit (CrossAsset.initializeCa admin) tx.env s
  | .initializeAsset asset config => commit (CrossAsset.initializeAsset asset config) tx.env s
  | .updateAssetConfig asset cf lt ms mb cc cb =>
    commit (CrossAsset.updateAssetConfig asset cf lt ms mb cc cb) tx.env s
  | .updateAssetPrice asset price => commit (CrossAsset.updateAssetPrice asset price) tx.env s
  | .freezePool admin asset freeze => commit (CrossAsset.freezePool admin asset freeze) tx.env s
  | .deposit user asset amount => commit (crossAssetDeposit user asset amount) tx.env s
  | .withdraw user asset amount => commit (crossAssetWithdraw user asset amount) tx.env s
  | .borrow user asset amount => commit (crossAssetBorrow user asset amount) tx.env s
  | .repay user asset amount => commit (crossAssetRepay user asset amount) tx.env s
  | .liquidate liquidator user debtAsset collateralAsset repaid received =>
    commit (crossAssetLiquidate liquidator user debtAsset collateralAsset repaid received) tx.env s

/-- **The state of the module after a sequence of transactions on a fresh deployment.** -/
def ledger (txs : List Tx) : Storage := run step Storage.empty txs

/-- A reachable state of the module. -/
def Reachable (s : Storage) : Prop := ∃ txs, ledger txs = s

/-! ## Sample addresses and assets -/

namespace Sample

def admin : Address := ⟨0⟩
def alice : Address := ⟨1⟩
def bob : Address := ⟨2⟩
def usdc : Address := ⟨10⟩
def wbtc : Address := ⟨11⟩

/-- An asset at price one, counted at 75 to 80 percent. -/
def asset (address : Option Address) : AssetConfig where
  asset := address
  collateralFactor := 7500
  liquidationThreshold := 8000
  reserveFactor := 1000
  maxSupply := 0
  maxBorrow := 0
  canCollateralize := true
  canBorrow := true
  price := 10000000
  priceUpdatedAt := 0
  isIsolated := false
  isFrozen := false

/-- A deployment with two assets, of which the second may be isolated. -/
def deploy (isolated : Bool) : List Tx :=
  [⟨⟨1, [admin]⟩, .initializeCa admin⟩,
    ⟨⟨2, [admin]⟩, .initializeAsset (some usdc) (asset (some usdc))⟩,
    ⟨⟨3, [admin]⟩, .initializeAsset (some wbtc) { asset (some wbtc) with isIsolated := isolated }⟩]

end Sample

end StellarLend.CrossAsset
