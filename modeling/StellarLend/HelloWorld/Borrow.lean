import StellarLend.HelloWorld.Deposit

/-!
# HelloWorld/Borrow — borrowing and repaying

A borrow passes two gates: `calculateMaxBorrowable` on the accrued position, then
`validateCollateralRatioAfterBorrow` on the stored one.  Both value the collateral, by the oracle
for a user with an asset list and by the raw balance for one without.

A repayment splits what is paid into interest and principal, and takes the split out of the
position twice.
-/

namespace StellarLend.HelloWorld

open Foundations Call
open Lending (Address)

/-! ## Borrowing -/

inductive BorrowError where
  | invalidAmount
  | invalidAsset
  | insufficientCollateral
  | borrowPaused
  | insufficientCollateralRatio
  | overflow
  | reentrancy
  | maxBorrowExceeded
  | assetNotEnabled
  deriving DecidableEq, Repr

def BorrowError.toLendingError : BorrowError → LendingError
  | .invalidAmount => .invalidAmount
  | .invalidAsset => .invalidAsset
  | .insufficientCollateral => .insufficientCollateral
  | .borrowPaused => .protocolPaused
  | .insufficientCollateralRatio => .insufficientCollateralRatio
  | .overflow => .overflow
  | .reentrancy => .reentrancy
  | .maxBorrowExceeded => .limitExceeded
  | .assetNotEnabled => .assetNotEnabled

/-- The source's `borrow::accrue_interest`. -/
def Borrow.accrueInterest (user : Address) (position : Position) :
    Invocation BorrowError Position :=
  HelloWorld.accrueInterest .overflow user position

def calculateMaxBorrowable (collateral currentDebt currentInterest factor minRatio : ℤ) :
    Except BorrowError ℤ := do
  let scaled ← orErr (I128.checkedMul collateral factor) .overflow
  let collateralValue ← orErr (I128.checkedDiv scaled 10000) .overflow
  let totalDebt ← orErr (I128.checkedAdd currentDebt currentInterest) .overflow
  let scaled ← orErr (I128.checkedMul collateralValue 10000) .overflow
  let maxDebt ← orErr (I128.checkedDiv scaled minRatio) .overflow
  if totalDebt < maxDebt then orErr (I128.checkedSub maxDebt totalDebt) .overflow else .ok 0

/-- The collateral a borrow counts, and whether the factor is still to be applied. -/
def effectiveCollateral (user : Address) : Invocation BorrowError (ℤ × Bool) := do
  let multi ← view fun s => hasMultiAssetCollateral s user
  if multi then do
    let total ← mapErr (fun _ => .overflow) (calculateTotalCollateralValue user)
    pure (total, false)
  else do
    let balance ← view fun s => getCollateralBalance s user
    pure (balance, true)

def validateCollateralRatioAfterBorrow (user : Address) (amount factor : ℤ) :
    Invocation BorrowError Unit := do
  let position ← view fun s => s.books.position user
  let position ← okOr position .insufficientCollateral
  let (collateral, applyFactor) ← effectiveCollateral user
  failIf (collateral = 0) .insufficientCollateral
  let newDebt ← okOr (I128.checkedAdd position.debt amount) .overflow
  let totalDebt ← okOr (I128.checkedAdd newDebt position.borrowInterest) .overflow
  if totalDebt = 0 then pure ()
  else do
    let value ← if applyFactor then
        okOr ((I128.checkedMul collateral factor).bind fun scaled => I128.checkedDiv scaled 10000)
          .overflow
      else pure collateral
    let ratio ← okOr
      ((I128.checkedMul value 10000).bind fun scaled => I128.checkedDiv scaled totalDebt) .overflow
    let minRatio ← view minCollateralRatioOr
    failIf (ratio < minRatio) .insufficientCollateralRatio

/-- The two gates of a borrow, for a position with its interest accrued. -/
def borrowGates (user : Address) (asset : Option Address) (amount : ℤ) (position : Position) :
    Invocation BorrowError Unit := do
  let (collateral, useRawFactor) ← effectiveCollateral user
  failIf (collateral = 0) .insufficientCollateral
  let factor ← view fun s => collateralFactorOf s asset
  let minRatio ← view minCollateralRatioOr
  let maxBorrowable ← ofExcept
    (calculateMaxBorrowable collateral position.debt position.borrowInterest
      (if useRawFactor then factor else 10000) minRatio)
  failIf (maxBorrowable < amount) .maxBorrowExceeded
  validateCollateralRatioAfterBorrow user amount factor

/-- The borrow fee of an asset in basis points. -/
def borrowFeeBpsOf (s : Storage) (asset : Option Address) : ℤ :=
  match asset.bind s.assetParams with
  | some params => params.borrowFeeBps
  | none => 0

/-- Send a borrowed token and book the fee withheld.  Native borrows move and book nothing. -/
def sendBorrowed (user : Address) (asset : Option Address) (amount received fee : ℤ) :
    Invocation BorrowError Unit :=
  match asset with
  | none => pure ()
  | some token => do
    let self ← asks Env.currentContractAddress
    let balance ← tokenBalance token self
    failIf (balance < amount) .insufficientCollateral
    transferOut token user received
    onlyIf (0 < fee) (creditReserve .overflow (some token) fee)

def borrowAsset (user : Address) (asset : Option Address) (amount : ℤ) :
    Invocation BorrowError ℤ := do
  failIf (amount ≤ 0) .invalidAmount
  let switched ← view fun s => legacySwitch s "pause_borrow"
  failIf (switched = true) .borrowPaused
  let now ← asks Env.timestamp
  let self ← asks Env.currentContractAddress
  failIf (asset = some self) .invalidAsset
  let params ← view fun s => asset.bind s.assetParams
  failIf (params.any fun p => !p.depositEnabled) .assetNotEnabled
  let position ← view fun s => (s.books.position user).getD (.new now)
  let position ← Borrow.accrueInterest user position
  borrowGates user asset amount position
  let newDebt ← okOr (I128.checkedAdd position.debt amount) .overflow
  let feeBps ← view fun s => borrowFeeBpsOf s asset
  let fee ← okOr
    ((I128.checkedMul amount feeBps).bind fun scaled => I128.checkedDiv scaled 10000) .overflow
  let received ← okOr (I128.checkedSub amount fee) .overflow
  failIf (received ≤ 0) .invalidAmount
  store (withPosition user { position with debt := newDebt, lastAccrualTime := now })
  sendBorrowed user asset amount received fee
  touchUserAnalytics user (borrowedAnalytics .overflow amount)
  touchProtocolAnalytics (borrowedTotals .overflow amount)
  addActivityLog user "borrow" amount asset
  okOr (I128.checkedAdd newDebt position.borrowInterest) .overflow

/-! ## Repaying -/

inductive RepayError where
  | invalidAmount
  | invalidAsset
  | insufficientBalance
  | repayPaused
  | noDebt
  | overflow
  | reentrancy
  deriving DecidableEq, Repr

def RepayError.toLendingError : RepayError → LendingError
  | .invalidAmount => .invalidAmount
  | .invalidAsset => .invalidAsset
  | .insufficientBalance => .insufficientBalance
  | .repayPaused => .protocolPaused
  | .noDebt => .noDebt
  | .overflow => .overflow
  | .reentrancy => .reentrancy

/-- The source's `repay::accrue_interest`. -/
def Repay.accrueInterest (user : Address) (position : Position) : Invocation RepayError Position :=
  HelloWorld.accrueInterest .overflow user position

def TreasuryFeeConfig.default : TreasuryFeeConfig := ⟨1000, 1000⟩

def getFeeConfig (s : Storage) : TreasuryFeeConfig := s.treasury.feeConfig.getD .default

/-- The source's `repay::get_native_asset_address`. -/
def getNativeAssetAddress (s : Storage) : Except RepayError Address :=
  orErr s.nativeAssetAddress .invalidAsset

/-- Pull a repayment in. -/
def receiveRepayment (token user : Address) (amount : ℤ) : Invocation RepayError Unit := do
  let balance ← tokenBalance token user
  failIf (balance < amount) .insufficientBalance
  transferIn token user amount

/-- Take an interest and a principal payment out of a position. -/
def Position.settle (position : Position) (interestPaid principalPaid : ℤ) : Position :=
  { position with
    borrowInterest := subOrZero position.borrowInterest interestPaid
    debt := subOrZero position.debt principalPaid }

/-- What a repayment records once the position is stored. -/
def recordRepayment (user : Address) (asset : Option Address) (repaid : ℤ) :
    Invocation RepayError Unit := do
  touchUserAnalytics user (repaidAnalytics .overflow repaid)
  touchProtocolAnalytics (repaidTotals repaid)
  addActivityLog user "repay" repaid asset
  addActivityLog user "repay" repaid asset

/-- Credit the protocol's part of the interest paid. -/
def creditInterestFee (asset : Option Address) (interestPaid reserveFactor : ℤ) :
    Invocation RepayError Unit := do
  let fee ← okOr
    ((I128.checkedMul interestPaid reserveFactor).bind fun scaled => I128.checkedDiv scaled 10000)
    .overflow
  onlyIf (0 < fee) (creditReserve .overflow asset fee)

/-- Returns what is still owed, the interest and the principal paid. -/
def repayDebt (user : Address) (asset : Option Address) (amount : ℤ) :
    Invocation RepayError (ℤ × ℤ × ℤ) := do
  failIf (amount ≤ 0) .invalidAmount
  let switched ← view fun s => legacySwitch s "pause_repay"
  failIf (switched = true) .repayPaused
  let now ← asks Env.timestamp
  let self ← asks Env.currentContractAddress
  failIf (asset = some self) .invalidAsset
  let native ← view getNativeAssetAddress
  let token ← ofExcept (match asset with
    | some token => .ok token
    | none => native)
  let fees ← view getFeeConfig
  let position ← view fun s => s.books.position user
  let position ← okOr position .noDebt
  failIf (position.debt = 0 ∧ position.borrowInterest = 0) .noDebt
  let position ← Repay.accrueInterest user position
  let totalDebt ← okOr (I128.checkedAdd position.debt position.borrowInterest) .overflow
  let repaid := if totalDebt ≤ amount then totalDebt else amount
  (match asset with
    | some token => receiveRepayment token user repaid
    | none => pure ())
  let interestPaid := if repaid ≤ position.borrowInterest then repaid else position.borrowInterest
  let principalPaid ← okOr (I128.checkedSub repaid interestPaid) .overflow
  receiveRepayment token user repaid
  let settled :=
    { (position.settle interestPaid principalPaid).settle interestPaid principalPaid with
      lastAccrualTime := now }
  store (withPosition user settled)
  onlyIf (0 < interestPaid) (creditInterestFee asset interestPaid fees.interestFeeBps)
  recordRepayment user asset repaid
  let _ ← attempt (updateScoreOnRepayment user repaid
    (decide (0 < principalPaid ∨ repaid = totalDebt)))
  let _ ← attempt (recordBorrow user 0)
  pure ((I128.checkedAdd settled.debt settled.borrowInterest).getD 0, interestPaid, principalPaid)

end StellarLend.HelloWorld
