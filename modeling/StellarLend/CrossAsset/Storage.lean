import StellarLend.Lending.Storage

/-!
# CrossAsset/Storage — what the cross-asset module stores, and what the admin sets

The module shares a contract with others and no key with them, so it is a machine of its own.  A
`Map` of the source is a partial function of its key and `none` an absent entry.

The totals of an asset stand beside the positions they add up: a position is written by
`setUserAssetPosition` alone, a total by `updateTotalSupply` and `updateTotalBorrow`.  What the
admin signs writes the configurations, the list of assets or the admin itself, never a position or a
total.
-/

namespace StellarLend.CrossAsset

open Foundations Call
open Lending (Address)

/-! ## Data -/

inductive CrossAssetError where
  | assetNotConfigured
  | assetDisabled
  | insufficientCollateral
  | exceedsBorrowCapacity
  | unhealthyPosition
  | supplyCapExceeded
  | borrowCapExceeded
  | invalidPrice
  | priceStale
  | notAuthorized
  deriving DecidableEq, Repr

inductive AssetKey where
  | native
  | token (address : Address)
  deriving DecidableEq, Repr

namespace AssetKey

def fromOption : Option Address → AssetKey
  | some address => token address
  | none => native

def toOption : AssetKey → Option Address
  | native => none
  | token address => some address

@[simp] theorem fromOption_toOption (key : AssetKey) : fromOption key.toOption = key := by
  cases key <;> rfl

@[simp] theorem toOption_fromOption (asset : Option Address) :
    (fromOption asset).toOption = asset := by
  cases asset <;> rfl

theorem fromOption_injective : Function.Injective fromOption :=
  Function.LeftInverse.injective toOption_fromOption

end AssetKey

structure AssetConfig where
  asset : Option Address
  collateralFactor : ℤ
  liquidationThreshold : ℤ
  reserveFactor : ℤ
  /-- 0 is no cap. -/
  maxSupply : ℤ
  /-- 0 is no cap. -/
  maxBorrow : ℤ
  canCollateralize : Bool
  canBorrow : Bool
  /-- Seven decimals. -/
  price : ℤ
  priceUpdatedAt : ℕ
  isIsolated : Bool
  isFrozen : Bool
  deriving DecidableEq, Repr

structure AssetPosition where
  collateral : ℤ
  debtPrincipal : ℤ
  accruedInterest : ℤ
  lastUpdated : ℕ
  deriving DecidableEq, Repr

/-- What a position owes. -/
def AssetPosition.debt (p : AssetPosition) : ℤ := p.debtPrincipal + p.accruedInterest

structure UserPositionSummary where
  totalCollateralValue : ℤ
  weightedCollateralValue : ℤ
  totalDebtValue : ℤ
  weightedDebtValue : ℤ
  /-- In units of 1/10000. -/
  healthFactor : ℤ
  isLiquidatable : Bool
  borrowCapacity : ℤ
  deriving DecidableEq, Repr

structure UserAssetKey where
  user : Address
  asset : AssetKey
  deriving DecidableEq, Repr

def UserAssetKey.new (user : Address) (asset : Option Address) : UserAssetKey :=
  ⟨user, .fromOption asset⟩

/-- The keys of the module. -/
structure Storage where
  admin : Option Address
  assetConfigs : AssetKey → Option AssetConfig
  userPositions : UserAssetKey → Option AssetPosition
  totalSupplies : AssetKey → Option ℤ
  totalBorrows : AssetKey → Option ℤ
  assetList : List AssetKey

def Storage.empty : Storage where
  admin := none
  assetConfigs := fun _ => none
  userPositions := fun _ => none
  totalSupplies := fun _ => none
  totalBorrows := fun _ => none
  assetList := []

/-- What an invocation finds around it. -/
structure Env where
  timestamp : ℕ
  /-- The authorisations the host accepts for this invocation, by address. -/
  auths : List Address

/-- An invocation of the module, or a part of one. -/
abbrev Invocation (α : Type) : Type := Call Env Storage CrossAssetError α

/-- `address.require_auth()`. -/
abbrev requireAuth (a : Address) : Invocation Unit := Call.requireAuth Env.auths a

/-! ## Positions -/

/-- A user without an entry has an empty position, updated just now. -/
def getUserAssetPosition (now : ℕ) (s : Storage) (user : Address) (asset : Option Address) :
    AssetPosition :=
  (s.userPositions (.new user asset)).getD ⟨0, 0, 0, now⟩

def setUserAssetPosition (user : Address) (asset : Option Address) (position : AssetPosition)
    (s : Storage) : Storage :=
  { s with
    userPositions := Function.update s.userPositions (.new user asset) (some position) }

/-! ## Totals -/

def getTotalSupply (s : Storage) (key : AssetKey) : ℤ := (s.totalSupplies key).getD 0

def getTotalBorrow (s : Storage) (key : AssetKey) : ℤ := (s.totalBorrows key).getD 0

/-- `supplies.set(asset_key, total)`. -/
def withTotalSupply (key : AssetKey) (total : ℤ) (s : Storage) : Storage :=
  { s with totalSupplies := Function.update s.totalSupplies key (some total) }

/-- `borrows.set(asset_key, total)`. -/
def withTotalBorrow (key : AssetKey) (total : ℤ) (s : Storage) : Storage :=
  { s with totalBorrows := Function.update s.totalBorrows key (some total) }

@[simp] theorem getTotalSupply_withTotalSupply (key key' : AssetKey) (total : ℤ) (s : Storage) :
    getTotalSupply (withTotalSupply key total s) key' =
      if key' = key then total else getTotalSupply s key' := by
  change (Function.update s.totalSupplies key (some total) key').getD 0 = _
  rw [Function.update_apply]
  split <;> rfl

@[simp] theorem getTotalBorrow_withTotalBorrow (key key' : AssetKey) (total : ℤ) (s : Storage) :
    getTotalBorrow (withTotalBorrow key total s) key' =
      if key' = key then total else getTotalBorrow s key' := by
  change (Function.update s.totalBorrows key (some total) key').getD 0 = _
  rw [Function.update_apply]
  split <;> rfl

def updateTotalSupply (key : AssetKey) (delta : ℤ) : Invocation Unit := do
  let current ← view fun s => getTotalSupply s key
  let total ← orTrap (I128.checkedAdd current delta)
  store (withTotalSupply key total)

def updateTotalBorrow (key : AssetKey) (delta : ℤ) : Invocation Unit := do
  let current ← view fun s => getTotalBorrow s key
  let total ← orTrap (I128.checkedAdd current delta)
  store (withTotalBorrow key total)

/-! ## What the admin sets -/

/-- The source's `initialize`. -/
def initializeCa (admin : Address) : Invocation Unit := do
  let stored ← view Storage.admin
  failIf (stored.isSome = true) .notAuthorized
  requireAuth admin
  store fun s => { s with admin := some admin }

def requireAdmin : Invocation Unit := do
  let stored ← view Storage.admin
  let admin ← okOr stored .notAuthorized
  requireAuth admin

def getAssetConfig (key : AssetKey) : Invocation AssetConfig := do
  let config ← view fun s => s.assetConfigs key
  okOr config .assetNotConfigured

/-- `configs.set(asset_key, config)`. -/
def withAssetConfig (key : AssetKey) (config : AssetConfig) (s : Storage) : Storage :=
  { s with assetConfigs := Function.update s.assetConfigs key (some config) }

def requireValidBasisPoints (value : ℤ) : Invocation Unit :=
  failIf (¬ (0 ≤ value ∧ value ≤ 10000)) .assetNotConfigured

def requireValidConfig (config : AssetConfig) : Invocation Unit := do
  requireValidBasisPoints config.collateralFactor
  requireValidBasisPoints config.liquidationThreshold
  requireValidBasisPoints config.reserveFactor
  failIf (config.price ≤ 0) .invalidPrice
  failIf (config.liquidationThreshold < config.collateralFactor) .assetNotConfigured

/-- Append the asset unless it is listed. -/
def listAsset (key : AssetKey) (s : Storage) : Storage :=
  if key ∈ s.assetList then s else { s with assetList := s.assetList ++ [key] }

def initializeAsset (asset : Option Address) (config : AssetConfig) : Invocation Unit := do
  requireAdmin
  requireValidConfig config
  let key := AssetKey.fromOption asset
  store (withAssetConfig key config)
  store (listAsset key)

/-- A factor that is given has to be in range. -/
def requireValidFactor : Option ℤ → Invocation Unit
  | some value => requireValidBasisPoints value
  | none => pure ()

/-- The factors are checked one by one, not against each other. -/
def updateAssetConfig (asset : Option Address) (collateralFactor liquidationThreshold maxSupply
    maxBorrow : Option ℤ) (canCollateralize canBorrow : Option Bool) : Invocation Unit := do
  requireAdmin
  let key := AssetKey.fromOption asset
  let config ← getAssetConfig key
  requireValidFactor collateralFactor
  requireValidFactor liquidationThreshold
  store (withAssetConfig key { config with
    collateralFactor := collateralFactor.getD config.collateralFactor
    liquidationThreshold := liquidationThreshold.getD config.liquidationThreshold
    maxSupply := maxSupply.getD config.maxSupply
    maxBorrow := maxBorrow.getD config.maxBorrow
    canCollateralize := canCollateralize.getD config.canCollateralize
    canBorrow := canBorrow.getD config.canBorrow })

def updateAssetPrice (asset : Option Address) (price : ℤ) : Invocation Unit := do
  requireAdmin
  failIf (price ≤ 0) .invalidPrice
  let key := AssetKey.fromOption asset
  let config ← getAssetConfig key
  let now ← asks Env.timestamp
  store (withAssetConfig key { config with price := price, priceUpdatedAt := now })

def freezePool (admin : Address) (asset : Option Address) (freeze : Bool) : Invocation Unit := do
  let stored ← view Storage.admin
  let storedAdmin ← okOr stored .notAuthorized
  failIf (admin ≠ storedAdmin) .notAuthorized
  requireAuth admin
  let key := AssetKey.fromOption asset
  let config ← getAssetConfig key
  store (withAssetConfig key { config with isFrozen := freeze })

end StellarLend.CrossAsset
