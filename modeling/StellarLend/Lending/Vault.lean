import StellarLend.Lending.Borrow

/-!
# Lending/Vault — deposits and withdrawals

The vault keeps one position a user: an amount and one asset.  It is a ledger of its own, apart
from the collateral of the borrow positions; a withdrawal consults the borrow module through the
legacy debt record only.
-/

namespace StellarLend.Lending

open Foundations Call

/-! ## Readers and writers -/

def getDepositPosition (e : Env) (s : Storage) (user asset : Address) : DepositCollateral :=
  (s.userCollateral user).getD ⟨0, asset, e.timestamp⟩

/-- The store after a user's vault position is saved. -/
def withVault (user : Address) (p : DepositCollateral) (s : Storage) : Storage :=
  { s with userCollateral := Function.update s.userCollateral user (some p) }

def saveDepositPosition {ε : Type} (user : Address) (p : DepositCollateral) : Invocation ε Unit :=
  store (withVault user p)

def getTotalDeposits (s : Storage) : ℤ := s.totalAmount.getD 0

/-- The store with another total of deposits. -/
def withTotalDeposits (amount : ℤ) (s : Storage) : Storage := { s with totalAmount := some amount }

def setTotalDeposits {ε : Type} (amount : ℤ) : Invocation ε Unit :=
  store (withTotalDeposits amount)

def getDepositCap (s : Storage) : ℤ := s.capAmount.getD I128.MAX
def getMinDepositAmount (s : Storage) : ℤ := s.minAmount.getD 0
def getMinWithdrawAmount (s : Storage) : ℤ := s.minWithdrawAmount.getD 0

/-- The withdraw module's own pause flag. -/
def isWithdrawPaused (s : Storage) : Bool := s.withdrawPaused.getD false

/-! ## Deposit -/

/-- Returns the new balance. -/
def depositWithAuth (user asset : Address) (amount : ℤ) (authenticate : Bool) :
    Invocation DepositError ℤ := do
  onlyIf (authenticate = true) (requireAuth user)
  let paused ← view fun s => isPaused s .deposit
  failIf (paused = true) .depositPaused
  failIf (amount ≤ 0) .invalidAmount
  let minDeposit ← view getMinDepositAmount
  failIf (amount < minDeposit) .invalidAmount
  let totalDeposits ← view getTotalDeposits
  let depositCap ← view getDepositCap
  let newTotal ← okOr (I128.checkedAdd totalDeposits amount) .overflow
  failIf (depositCap < newTotal) .exceedsDepositCap
  let position ← look fun e s => getDepositPosition e s user asset
  let balance ← okOr (I128.checkedAdd position.amount amount) .overflow
  let now ← asks Env.timestamp
  saveDepositPosition user ⟨balance, asset, now⟩
  setTotalDeposits newTotal
  pure balance

def Deposit.deposit (user asset : Address) (amount : ℤ) : Invocation DepositError ℤ :=
  depositWithAuth user asset amount true

def Deposit.initializeDepositSettings {ε : Type} (depositCap minDepositAmount : ℤ) :
    Invocation ε Unit :=
  store fun s => { s with capAmount := some depositCap, minAmount := some minDepositAmount }

/-! ## Withdraw -/

def MIN_COLLATERAL_RATIO_BPS : ℤ := 15000

/-- What remains must cover 150% of the debt on the legacy record. -/
def validateCollateralRatioAfterWithdraw (s : Storage) (user : Address)
    (remainingCollateral : ℤ) : Except WithdrawError Unit :=
  match s.borrowUserDebt user with
  | none => .ok ()
  | some debt => do
    let totalDebt ← orErr (I128.checkedAdd debt.borrowedAmount debt.interestAccrued) .overflow
    if 0 < totalDebt then do
      let scaled ← orErr (I128.checkedMul totalDebt MIN_COLLATERAL_RATIO_BPS) .overflow
      let required ← orErr (I128.checkedDiv scaled 10000) .overflow
      if remainingCollateral < required then .error .insufficientCollateralRatio else pure ()
    else pure ()

/-- Returns the remaining balance. -/
def withdrawWithAuth (user asset : Address) (amount : ℤ) (authenticate : Bool) :
    Invocation WithdrawError ℤ := do
  onlyIf (authenticate = true) (requireAuth user)
  let paused ← view fun s => isWithdrawPaused s || isPaused s .withdraw
  failIf (paused = true) .withdrawPaused
  failIf (amount ≤ 0) .invalidAmount
  let minWithdraw ← view getMinWithdrawAmount
  failIf (amount < minWithdraw) .invalidAmount
  let position ← look fun e s => getDepositPosition e s user asset
  failIf (position.amount < amount) .insufficientCollateral
  let newAmount ← okOr (I128.checkedSub position.amount amount) .overflow
  let checked ← view fun s => validateCollateralRatioAfterWithdraw s user newAmount
  ofExcept checked
  saveDepositPosition user ⟨newAmount, asset, position.lastDepositTime⟩
  let totalDeposits ← view getTotalDeposits
  setTotalDeposits ((I128.checkedSub totalDeposits amount).getD 0)
  pure newAmount

def Withdraw.withdraw (user asset : Address) (amount : ℤ) : Invocation WithdrawError ℤ :=
  withdrawWithAuth user asset amount true

def Withdraw.initializeWithdrawSettings {ε : Type} (minWithdrawAmount : ℤ) : Invocation ε Unit :=
  store fun s =>
    { s with minWithdrawAmount := some minWithdrawAmount, withdrawPaused := some false }

def Withdraw.setWithdrawPaused {ε : Type} (paused : Bool) : Invocation ε Unit :=
  store fun s => { s with withdrawPaused := some paused }

end StellarLend.Lending
