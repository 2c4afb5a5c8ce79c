import StellarLend.Foundations.Run
import StellarLend.Lending.Storage

/-!
# Stablecoin/Contract — collateral in, stablecoins out

A user deposits a collateral token, mints stablecoins against a fraction of it and burns them to get
collateral back.  Beside the two tokens the contract keeps two counters for each user: the
collateral deposited and the stablecoins minted.
-/

namespace StellarLend.Stablecoin

open Foundations Call
open Lending (Address)

/-! ## Data -/

inductive StablecoinError where
  | unauthorized
  | alreadyInitialized
  | notInitialized
  | invalidAmount
  | invalidParameter
  | overflow
  | shutdown
  | insufficientCollateral
  deriving DecidableEq, Repr

structure FractionalReserveConfig where
  /-- Minimum collateral backing ratio, in basis points. -/
  reserveRatioBps : ℤ
  deriving DecidableEq, Repr

def BPS : ℤ := 10000

/-- What the contract asks a token contract for. -/
inductive TokenCall where
  | transfer (token sender recipient : Address) (amount : ℤ)
  | mint (token recipient : Address) (amount : ℤ)
  | burn (token holder : Address) (amount : ℤ)
  deriving DecidableEq, Repr

/-- The keys of the contract.  `tokenCalls` is no key: it is what was asked of the token contracts,
in order. -/
structure Storage where
  admin : Option Address
  stablecoinToken : Option Address
  collateralToken : Option Address
  reserveRatioBps : Option ℤ
  shutdown : Option Bool
  totalCollateral : Option ℤ
  userCollateral : Address → Option ℤ
  userMinted : Address → Option ℤ
  tokenCalls : List TokenCall

/-- A freshly deployed contract. -/
def Storage.empty : Storage where
  admin := none
  stablecoinToken := none
  collateralToken := none
  reserveRatioBps := none
  shutdown := none
  totalCollateral := none
  userCollateral := fun _ => none
  userMinted := fun _ => none
  tokenCalls := []

/-- What an invocation finds around it. -/
structure Env where
  currentContractAddress : Address
  /-- The authorisations the host accepts for this invocation, by address. -/
  auths : List Address
  /-- Whether a token contract does what it is asked for, after what it was asked for so far. -/
  accepts : List TokenCall → TokenCall → Bool

/-- An invocation of the contract, or a part of one. -/
abbrev Invocation (α : Type) : Type := Call Env Storage StablecoinError α

/-- `address.require_auth()`. -/
abbrev requireAuth (a : Address) : Invocation Unit := Call.requireAuth Env.auths a

/-- Ask a token contract; a refusal traps. -/
def askToken (call : TokenCall) : Invocation Unit := do
  let accepted ← look fun e s => e.accepts s.tokenCalls call
  require fun _ => accepted
  store fun s => { s with tokenCalls := s.tokenCalls ++ [call] }

@[simp] theorem askToken_ok {call : TokenCall} {e : Env} {s s' : Storage} {u : Unit} :
    askToken call e s = .ok u s' ↔ e.accepts s.tokenCalls call = true ∧
      { s with tokenCalls := s.tokenCalls ++ [call] } = s' := by
  simp [askToken]

/-! ## Storage -/

def requireInit : Invocation Unit := do
  let admin ← view Storage.admin
  failIf (admin = none) .notInitialized

def requireAdmin (caller : Address) : Invocation Unit := do
  requireInit
  let admin ← view Storage.admin
  let admin ← orTrap admin
  failIf (admin ≠ caller) .unauthorized

def isShutdown (s : Storage) : Bool := s.shutdown.getD false

def stablecoinToken : Invocation Address := do
  requireInit
  let token ← view Storage.stablecoinToken
  okOr token .notInitialized

def collateralToken : Invocation Address := do
  requireInit
  let token ← view Storage.collateralToken
  okOr token .notInitialized

def reserveRatioBps : Invocation ℤ := do
  requireInit
  view fun s => s.reserveRatioBps.getD BPS

def addTotalCollateral (amount : ℤ) : Invocation Unit := do
  let current ← view fun s => s.totalCollateral.getD 0
  let next ← okOr (I128.checkedAdd current amount) .overflow
  store fun s => { s with totalCollateral := some next }

def subTotalCollateral (amount : ℤ) : Invocation Unit := do
  let current ← view fun s => s.totalCollateral.getD 0
  failIf (current < amount) .insufficientCollateral
  let next ← orTrap (I128.checkedSub current amount)
  store fun s => { s with totalCollateral := some next }

def getUserCollateral (s : Storage) (user : Address) : ℤ := (s.userCollateral user).getD 0

def setUserCollateral (user : Address) (amount : ℤ) (s : Storage) : Storage :=
  { s with userCollateral := Function.update s.userCollateral user (some amount) }

def getUserMinted (s : Storage) (user : Address) : ℤ := (s.userMinted user).getD 0

def setUserMinted (user : Address) (amount : ℤ) (s : Storage) : Storage :=
  { s with userMinted := Function.update s.userMinted user (some amount) }

/-! ## Entry points -/

/-- The source's `initialize`. -/
def initializeContract (admin stablecoinToken collateralToken : Address)
    (config : FractionalReserveConfig) : Invocation Unit := do
  let current ← view Storage.admin
  failIf (current.isSome = true) .alreadyInitialized
  requireAuth admin
  failIf (¬ (0 ≤ config.reserveRatioBps ∧ config.reserveRatioBps ≤ BPS)) .invalidParameter
  store fun s =>
    { s with
      admin := some admin
      stablecoinToken := some stablecoinToken
      collateralToken := some collateralToken
      reserveRatioBps := some config.reserveRatioBps
      shutdown := some false
      totalCollateral := some 0 }

def setShutdown (caller : Address) (shutdown : Bool) : Invocation Unit := do
  requireAuth caller
  requireAdmin caller
  store fun s => { s with shutdown := some shutdown }

def setReserveRatio (caller : Address) (reserveRatioBps : ℤ) : Invocation Unit := do
  requireAuth caller
  requireAdmin caller
  failIf (¬ (0 ≤ reserveRatioBps ∧ reserveRatioBps ≤ BPS)) .invalidParameter
  store fun s => { s with reserveRatioBps := some reserveRatioBps }

/-- The checks the three user operations begin with. -/
def requireOpen (user : Address) (amount : ℤ) : Invocation Unit := do
  requireInit
  requireAuth user
  let closed ← view isShutdown
  failIf (closed = true) .shutdown
  failIf (amount ≤ 0) .invalidAmount

def depositCollateral (user : Address) (amount : ℤ) : Invocation Unit := do
  requireOpen user amount
  let collateral ← collateralToken
  let self ← asks Env.currentContractAddress
  askToken (.transfer collateral user self amount)
  addTotalCollateral amount
  let current ← view fun s => getUserCollateral s user
  let next ← orTrap (I128.checkedAdd current amount)
  store (setUserCollateral user next)

/-- The most a user with some collateral may have minted.  What overflows counts as nothing. -/
def maxMintable (userCollateral rr : ℤ) : ℤ :=
  ((I128.checkedMul userCollateral rr).getD 0).tdiv BPS

/-- The amount is minted and the user's counter is left as it was. -/
def mintFromCollateral (user : Address) (collateralAmount : ℤ) : Invocation ℤ := do
  requireOpen user collateralAmount
  let userCollateral ← view fun s => getUserCollateral s user
  failIf (userCollateral < collateralAmount) .insufficientCollateral
  let rr ← reserveRatioBps
  let product ← okOr (I128.checkedMul collateralAmount rr) .overflow
  let mintAmount := product.tdiv BPS
  failIf (mintAmount ≤ 0) .invalidAmount
  let userMinted ← view fun s => getUserMinted s user
  let total ← orTrap (I128.checkedAdd userMinted mintAmount)
  failIf (maxMintable userCollateral rr < total) .invalidAmount
  let stable ← stablecoinToken
  askToken (.mint stable user mintAmount)
  pure mintAmount

/-- A reserve ratio of zero divides by zero. -/
def burnAndRedeem (user : Address) (burnAmount : ℤ) : Invocation ℤ := do
  requireOpen user burnAmount
  let userMinted ← view fun s => getUserMinted s user
  failIf (userMinted < burnAmount) .invalidAmount
  let rr ← reserveRatioBps
  let product ← okOr (I128.checkedMul burnAmount BPS) .overflow
  let collateralOut ← orTrap (I128.checkedDiv product rr)
  let userCollateral ← view fun s => getUserCollateral s user
  failIf (userCollateral < collateralOut) .insufficientCollateral
  subTotalCollateral collateralOut
  let collateralLeft ← orTrap (I128.checkedSub userCollateral collateralOut)
  store (setUserCollateral user collateralLeft)
  let minted ← orTrap (I128.checkedSub userMinted burnAmount)
  store (setUserMinted user minted)
  let stable ← stablecoinToken
  askToken (.burn stable user burnAmount)
  let collateral ← collateralToken
  let self ← asks Env.currentContractAddress
  askToken (.transfer collateral self user collateralOut)
  pure collateralOut

/-! ## Transactions -/

/-- A call of the contract. -/
inductive Op where
  | initializeContract (admin stablecoinToken collateralToken : Address)
      (config : FractionalReserveConfig)
  | setShutdown (caller : Address) (shutdown : Bool)
  | setReserveRatio (caller : Address) (reserveRatioBps : ℤ)
  | depositCollateral (user : Address) (amount : ℤ)
  | mintFromCollateral (user : Address) (collateralAmount : ℤ)
  | burnAndRedeem (user : Address) (burnAmount : ℤ)
  deriving DecidableEq

/-- A transaction: a call and what it finds around it. -/
structure Tx where
  env : Env
  op : Op

/-- The store after a transaction that succeeded. -/
def step (tx : Tx) (s : Storage) : Option Storage :=
  match tx.op with
  | .initializeContract admin stable collateral config =>
    commit (Stablecoin.initializeContract admin stable collateral config) tx.env s
  | .setShutdown caller shutdown => commit (Stablecoin.setShutdown caller shutdown) tx.env s
  | .setReserveRatio caller rr => commit (Stablecoin.setReserveRatio caller rr) tx.env s
  | .depositCollateral user amount => commit (Stablecoin.depositCollateral user amount) tx.env s
  | .mintFromCollateral user amount => commit (Stablecoin.mintFromCollateral user amount) tx.env s
  | .burnAndRedeem user amount => commit (Stablecoin.burnAndRedeem user amount) tx.env s

/-- **The state of the contract after a sequence of transactions on a fresh deployment.** -/
def ledger (txs : List Tx) : Storage := run step Storage.empty txs

end StellarLend.Stablecoin
