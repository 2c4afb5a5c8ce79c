import StellarLend.HelloWorld.Stats

/-!
# HelloWorld/Deposit — collateral in, and what it counts for

A user's collateral is kept three times: in aggregate (`collateralBalance`), in the position, and
by asset (`userAssetCollateral` over `userAssetList`).  Native collateral has no asset and is in
the first two only.

A withdrawal checks the ratio on the stored position and on the aggregate balance, weighted by the
factor of the asset withdrawn.  A ratio that cannot be computed counts as one without debt.
-/

namespace StellarLend.HelloWorld

open Foundations Call
open Lending (Address)

inductive DepositError where
  | invalidAmount
  | invalidAsset
  | insufficientBalance
  | depositPaused
  | assetNotEnabled
  | overflow
  | reentrancy
  | unauthorized
  deriving DecidableEq, Repr

def DepositError.toLendingError : DepositError → LendingError
  | .invalidAmount => .invalidAmount
  | .invalidAsset => .invalidAsset
  | .insufficientBalance => .insufficientBalance
  | .depositPaused => .protocolPaused
  | .assetNotEnabled => .assetNotEnabled
  | .overflow => .overflow
  | .reentrancy => .reentrancy
  | .unauthorized => .unauthorized

/-! ## Records -/

def getCollateralBalance (s : Storage) (user : Address) : ℤ :=
  (s.books.collateralBalance user).getD 0

def getUserAssetCollateral (s : Storage) (user asset : Address) : ℤ :=
  (s.books.userAssetCollateral user asset).getD 0

def getUserAssetList (s : Storage) (user : Address) : List Address :=
  (s.books.userAssetList user).getD []

/-- A position that nobody has opened yet. -/
def Position.new (now : ℕ) : Position := ⟨0, 0, 0, now⟩

/-- The store with another collateral balance of a user. -/
def withCollateralBalance (user : Address) (amount : ℤ) (s : Storage) : Storage :=
  { s with books := { s.books with
      collateralBalance := Function.update s.books.collateralBalance user (some amount) } }

/-- The store with another position of a user. -/
def withPosition (user : Address) (position : Position) (s : Storage) : Storage :=
  { s with books := { s.books with
      position := Function.update s.books.position user (some position) } }

/-- The store with another collateral of a user in one asset. -/
def withAssetCollateral (user asset : Address) (amount : ℤ) (s : Storage) : Storage :=
  { s with books := { s.books with
      userAssetCollateral := Function.update s.books.userAssetCollateral user
        (Function.update (s.books.userAssetCollateral user) asset (some amount)) } }

/-- The store with another list of assets of a user. -/
def withAssetList (user : Address) (assets : List Address) (s : Storage) : Storage :=
  { s with books := { s.books with
      userAssetList := Function.update s.books.userAssetList user (some assets) } }

/-- The store with another reserve of an asset. -/
def withReserve (asset : Option Address) (amount : ℤ) (s : Storage) : Storage :=
  { s with treasury := { s.treasury with
      protocolReserve := Function.update s.treasury.protocolReserve asset (some amount) } }

/-- Credit a fee to the reserve of an asset. -/
def creditReserve {ε : Type} (overflow : ε) (asset : Option Address) (fee : ℤ) :
    Invocation ε Unit := do
  let current ← view fun s => (s.treasury.protocolReserve asset).getD 0
  let reserve ← okOr (I128.checkedAdd current fee) overflow
  store (withReserve asset reserve)

/-! ## Per-asset tracking -/

def recordAssetDeposit (user asset : Address) (amount : ℤ) : Invocation DepositError Unit := do
  let current ← view fun s => getUserAssetCollateral s user asset
  let balance ← okOr (I128.checkedAdd current amount) .overflow
  store (withAssetCollateral user asset balance)
  let assets ← view fun s => getUserAssetList s user
  onlyIf (asset ∉ assets) (store (withAssetList user (assets ++ [asset])))

/-- The store after a withdrawal is recorded: an asset whose balance is gone leaves the list, one
whose balance is not, be it negative, stays where it was. -/
def withAssetWithdrawal (user asset : Address) (amount : ℤ) (s : Storage) : Storage :=
  let balance := subOrZero (getUserAssetCollateral s user asset) amount
  let s := withAssetCollateral user asset balance s
  if balance = 0 then
    withAssetList user ((getUserAssetList s user).filter fun a => a ≠ asset) s
  else s

def recordAssetWithdrawal {ε : Type} (user asset : Address) (amount : ℤ) : Invocation ε Unit :=
  store (withAssetWithdrawal user asset amount)

/-! ## Asset parameters -/

/-- The factor of a named asset; native assets and assets without parameters count in full. -/
def collateralFactorOf (s : Storage) (asset : Option Address) : ℤ :=
  match asset.bind s.assetParams with
  | some params => params.collateralFactor
  | none => 10000

/-- The caller's authority is the entry point's business. -/
def setAssetParams {ε : Type} (asset : Address) (params : AssetParams) : Invocation ε Unit :=
  store fun s => { s with assetParams := Function.update s.assetParams asset (some params) }

def setNativeAssetAddress (caller nativeAsset : Address) : Invocation DepositError Unit := do
  let admin ← view getAdmin
  let admin ← okOr admin .invalidAsset
  failIf (caller ≠ admin) .invalidAsset
  requireAuth caller
  let self ← asks Env.currentContractAddress
  failIf (nativeAsset = self) .invalidAsset
  store fun s => { s with nativeAssetAddress := some nativeAsset }

/-! ## Deposit -/

/-- Check a deposited token against its parameters and pull it in.  Native deposits move nothing. -/
def receiveDeposit (user : Address) (asset : Option Address) (amount : ℤ) :
    Invocation DepositError Unit :=
  match asset with
  | none => pure ()
  | some token => do
    let self ← asks Env.currentContractAddress
    failIf (token = self) .invalidAsset
    let params ← view fun s => s.assetParams token
    failIf (params.any fun p => !p.depositEnabled) .assetNotEnabled
    failIf (params.any fun p => 0 < p.maxDeposit && p.maxDeposit < amount) .invalidAmount
    let balance ← tokenBalance token user
    failIf (balance < amount) .insufficientBalance
    transferIn token user amount

def depositCollateral (user : Address) (asset : Option Address) (amount : ℤ) :
    Invocation DepositError ℤ := do
  failIf (amount ≤ 0) .invalidAmount
  let switched ← view fun s => legacySwitch s "pause_deposit"
  failIf (switched = true) .depositPaused
  let emergency ← view isEmergencyPaused
  failIf (emergency = true) .depositPaused
  let now ← asks Env.timestamp
  receiveDeposit user asset amount
  let position ← view fun s => (s.books.position user).getD (.new now)
  let current ← view fun s => getCollateralBalance s user
  let collateral ← okOr (I128.checkedAdd current amount) .overflow
  store (withCollateralBalance user collateral)
  (match asset with
    | some token => recordAssetDeposit user token amount
    | none => pure ())
  store (withPosition user { position with collateral, lastAccrualTime := now })
  touchUserAnalytics user (depositedAnalytics .overflow amount)
  touchProtocolAnalytics (depositedTotals .overflow amount)
  addActivityLog user "deposit" amount asset
  pure collateral

/-! ## The value of several assets -/

inductive MultiCollateralError where
  | overflow
  | assetNotFound
  deriving DecidableEq, Repr

def PRICE_DECIMALS : ℤ := 100000000
def BPS_SCALE : ℤ := 10000

def getCollateralFactor (s : Storage) (asset : Address) : ℤ :=
  ((s.assetParams asset).map AssetParams.collateralFactor).getD BPS_SCALE

def getOraclePrice {ε : Type} (asset : Address) : Invocation ε ℤ :=
  ofOracle (priceOr PRICE_DECIMALS asset)

/-- `amount * price / 10^8 * factor / 10^4`, each step checked and each division truncating. -/
def weightedValue (amount price factor : ℤ) : Except MultiCollateralError ℤ := do
  let scaled ← orErr (I128.checkedMul amount price) .overflow
  let inBase ← orErr (I128.checkedDiv scaled PRICE_DECIMALS) .overflow
  let weighted ← orErr (I128.checkedMul inBase factor) .overflow
  orErr (I128.checkedDiv weighted BPS_SCALE) .overflow

/-- The loop of `calculateTotalCollateralValue`. -/
def collateralValueLoop (user : Address) : List Address → ℤ → Invocation MultiCollateralError ℤ
  | [], total => pure total
  | asset :: rest, total => do
    let amount ← view fun s => getUserAssetCollateral s user asset
    if amount = 0 then collateralValueLoop user rest total
    else do
      let price ← getOraclePrice asset
      let factor ← view fun s => getCollateralFactor s asset
      let weighted ← ofExcept (weightedValue amount price factor)
      let total ← okOr (I128.checkedAdd total weighted) .overflow
      collateralValueLoop user rest total

def calculateTotalCollateralValue (user : Address) : Invocation MultiCollateralError ℤ := do
  let assets ← view fun s => getUserAssetList s user
  collateralValueLoop user assets 0

def hasMultiAssetCollateral (s : Storage) (user : Address) : Bool :=
  !(getUserAssetList s user).isEmpty

/-! ## Withdraw -/

inductive WithdrawError where
  | invalidAmount
  | invalidAsset
  | insufficientCollateral
  | withdrawPaused
  | insufficientCollateralRatio
  | overflow
  | reentrancy
  | undercollateralized
  deriving DecidableEq, Repr

def WithdrawError.toLendingError : WithdrawError → LendingError
  | .invalidAmount => .invalidAmount
  | .invalidAsset => .invalidAsset
  | .insufficientCollateral => .insufficientCollateral
  | .withdrawPaused => .protocolPaused
  | .insufficientCollateralRatio => .insufficientCollateralRatio
  | .overflow => .overflow
  | .reentrancy => .reentrancy
  | .undercollateralized => .invalidState

/-- `none` without debt, and where a product overflows. -/
def calculateCollateralRatio (collateral debt interest factor : ℤ) : Option ℤ :=
  (I128.checkedAdd debt interest).bind fun totalDebt =>
    if totalDebt = 0 then none
    else (((I128.checkedMul collateral factor).bind fun scaled => I128.checkedDiv scaled 10000).bind
      fun value => I128.checkedMul value 10000).bind fun scaled => I128.checkedDiv scaled totalDebt

def validateCollateralRatioAfterWithdraw (user : Address) (amount : ℤ) (asset : Option Address) :
    Invocation WithdrawError Unit := do
  let position ← view fun s => s.books.position user
  let position ← okOr position .insufficientCollateral
  if position.debt = 0 ∧ position.borrowInterest = 0 then pure ()
  else do
    let current ← view fun s => getCollateralBalance s user
    let collateral ← okOr (I128.checkedSub current amount) .insufficientCollateral
    let factor ← view fun s => collateralFactorOf s asset
    let _ ← okOr (I128.checkedAdd position.debt position.borrowInterest) .overflow
    let minRatio ← view minCollateralRatioOr
    match calculateCollateralRatio collateral position.debt position.borrowInterest factor with
    | some ratio => failIf (ratio < minRatio) .insufficientCollateralRatio
    | none => pure ()

def withdrawCollateral (user : Address) (asset : Option Address) (amount : ℤ) :
    Invocation WithdrawError ℤ := do
  failIf (amount ≤ 0) .invalidAmount
  let switched ← view fun s => legacySwitch s "pause_withdraw"
  failIf (switched = true) .withdrawPaused
  let now ← asks Env.timestamp
  let self ← asks Env.currentContractAddress
  failIf (asset = some self) .invalidAsset
  let current ← view fun s => getCollateralBalance s user
  failIf (current < amount) .insufficientCollateral
  validateCollateralRatioAfterWithdraw user amount asset
  let collateral ← okOr (I128.checkedSub current amount) .overflow
  store (withCollateralBalance user collateral)
  (match asset with
    | some token => recordAssetWithdrawal user token amount
    | none => pure ())
  let position ← view fun s => (s.books.position user).getD (.new now)
  store (withPosition user { position with collateral, lastAccrualTime := now })
  (match asset with
    | some token => transferOut token user amount
    | none => pure ())
  touchUserAnalytics user (withdrawnAnalytics .overflow amount)
  touchProtocolAnalytics (unlockedTotals amount)
  addActivityLog user "withdraw" amount asset
  pure collateral

end StellarLend.HelloWorld
