import Mathlib.Logic.Function.Basic
import StellarLend.Foundations.Checked
import StellarLend.Foundations.Run
import StellarLend.Lending.Storage

/-!
# DebtToken/Contract — debt positions as tokens

A borrower mints a token for a position, its owner passes it on or burns it.  A token is three
records: the position under its id, the id in the list of its owner, and one in the total supply.
The admin of the protocol pauses minting and transfers, and blocks recipients.
-/

namespace StellarLend.DebtToken

open Foundations Call Function
open Lending (Address)

/-! ## Data -/

/-- What a token stands for. -/
structure DebtPosition where
  borrower : Address
  principal : ℤ
  accruedInterest : ℤ
  collateralAsset : Option Address
  collateralAmount : ℤ
  interestRateBps : ℤ
  lastAccrualTime : ℕ
  isLiquidatable : Bool
  createdAt : ℕ
  updatedAt : ℕ
  deriving DecidableEq

/-- The errors of the contract. -/
inductive DebtTokenError where
  | tokenNotFound
  | unauthorized
  | transferPaused
  | transferBlocked
  | liquidationInProgress
  | zeroAddress
  | alreadyTokenized
  | positionNotFound
  deriving DecidableEq, Repr

/-- The keys of `debt_token.rs`. -/
structure Storage where
  nextTokenId : Option ℕ
  tokenPosition : ℕ → Option DebtPosition
  ownerTokens : Address → Option (List ℕ)
  transferPaused : Option Bool
  blockedAddress : Address → Option Bool
  totalSupply : Option ℕ

/-- A freshly deployed contract. -/
def Storage.empty : Storage where
  nextTokenId := none
  tokenPosition := fun _ => none
  ownerTokens := fun _ => none
  transferPaused := none
  blockedAddress := fun _ => none
  totalSupply := none

/-- What an invocation finds around it: the addresses that signed it, the time, the admin of the
protocol, and the address the source calls zero. -/
structure Env where
  auths : List Address
  timestamp : ℕ
  admin : Option Address
  zero : Address

/-- An invocation of the contract, or a part of one. -/
abbrev Invocation (α : Type) : Type := Call Env Storage DebtTokenError α

/-- `address.require_auth()`. -/
abbrev requireAuth (a : Address) : Invocation Unit := Call.requireAuth Env.auths a

/-! ## Reading and writing -/

def getDebtPosition (s : Storage) (tokenId : ℕ) : Option DebtPosition := s.tokenPosition tokenId
def getUserDebtTokens (s : Storage) (user : Address) : List ℕ := (s.ownerTokens user).getD []
def getTotalSupply (s : Storage) : ℕ := s.totalSupply.getD 0
def getNextTokenId (s : Storage) : ℕ := s.nextTokenId.getD 1
def isTransferPaused (s : Storage) : Bool := s.transferPaused.getD false
def isAddressBlocked (s : Storage) (a : Address) : Bool := (s.blockedAddress a).getD false

/-- `persistent().set(TokenPosition(id), position)`, or its removal. -/
def setPosition (tokenId : ℕ) (position : Option DebtPosition) (s : Storage) : Storage :=
  { s with tokenPosition := update s.tokenPosition tokenId position }

/-- `persistent().set(OwnerTokens(owner), tokens)`. -/
def setOwnerTokens (owner : Address) (tokens : List ℕ) (s : Storage) : Storage :=
  { s with ownerTokens := update s.ownerTokens owner (some tokens) }

/-- `persistent().set(NextTokenId, next_id)`. -/
def updateNextTokenId (nextId : ℕ) (s : Storage) : Storage := { s with nextTokenId := some nextId }

/-- The source's `update_total_supply`, which traps where the supply leaves the unsigned 64-bit
integers. -/
def updateTotalSupply (delta : ℤ) : Invocation Unit := do
  let currentSupply ← view getTotalSupply
  let newSupply ← orTrap
    (if 0 ≤ delta then U64.checkedAdd currentSupply delta.toNat
    else if (-delta).toNat ≤ currentSupply then some (currentSupply - (-delta).toNat) else none)
  store fun s => { s with totalSupply := some newSupply }

/-! ## Entry points -/

/-- The position a token is minted for. -/
def newPosition (now : ℕ) (user : Address) (collateralAsset : Option Address)
    (principal interestRateBps : ℤ) : DebtPosition where
  borrower := user
  principal := principal
  accruedInterest := 0
  collateralAsset := collateralAsset
  collateralAmount := 0
  interestRateBps := interestRateBps
  lastAccrualTime := now
  isLiquidatable := false
  createdAt := now
  updatedAt := now

/-- A token stands for the position of a borrower under an asset. -/
def StandsFor (s : Storage) (tokenId : ℕ) (user : Address) (collateralAsset : Option Address) :
    Prop :=
  ∃ position ∈ getDebtPosition s tokenId,
    position.borrower = user ∧ position.collateralAsset = collateralAsset

instance (s : Storage) (tokenId : ℕ) (user : Address) (collateralAsset : Option Address) :
    Decidable (StandsFor s tokenId user collateralAsset) :=
  inferInstanceAs (Decidable (∃ position ∈ getDebtPosition s tokenId, _))

def mintDebtToken (user : Address) (collateralAsset : Option Address)
    (principal interestRateBps : ℤ) : Invocation ℕ := do
  requireAuth user
  let paused ← view isTransferPaused
  failIf (paused = true) .transferPaused
  let tokenized ← view fun s =>
    decide (∃ id ∈ getUserDebtTokens s user, StandsFor s id user collateralAsset)
  failIf (tokenized = true) .alreadyTokenized
  failIf (principal ≤ 0) .positionNotFound
  let tokenId ← view getNextTokenId
  let now ← asks Env.timestamp
  let position := newPosition now user collateralAsset principal interestRateBps
  store (setPosition tokenId (some position))
  let ownerTokens ← view fun s => getUserDebtTokens s user
  store (setOwnerTokens user (ownerTokens ++ [tokenId]))
  let nextId ← orTrap (U64.checkedAdd tokenId 1)
  store (updateNextTokenId nextId)
  updateTotalSupply 1
  pure tokenId

/-- The list of an owner without a token it has. -/
def removeOwned (owner : Address) (tokenId : ℕ) : Invocation Unit := do
  let ownerTokens ← view fun s => getUserDebtTokens s owner
  failIf (tokenId ∉ ownerTokens) .unauthorized
  let index ← okOr (ownerTokens.idxOf? tokenId) .tokenNotFound
  store (setOwnerTokens owner (ownerTokens.eraseIdx index))

/-- The token moves from the sender's list to the end of the recipient's. -/
def transferDebtToken (sender recipient : Address) (tokenId : ℕ) : Invocation Unit := do
  requireAuth sender
  let zero ← asks Env.zero
  failIf (recipient = zero) .zeroAddress
  let paused ← view isTransferPaused
  failIf (paused = true) .transferPaused
  let blocked ← view fun s => isAddressBlocked s recipient
  failIf (blocked = true) .transferBlocked
  let stored ← view fun s => getDebtPosition s tokenId
  let position ← okOr stored .tokenNotFound
  failIf (position.isLiquidatable = true) .liquidationInProgress
  removeOwned sender tokenId
  let recipientTokens ← view fun s => getUserDebtTokens s recipient
  store (setOwnerTokens recipient (recipientTokens ++ [tokenId]))
  let now ← asks Env.timestamp
  store (setPosition tokenId (some { position with updatedAt := now }))

/-- The reason goes to an event only. -/
def burnDebtToken (user : Address) (tokenId : ℕ) (_reason : String) : Invocation Unit := do
  requireAuth user
  let stored ← view fun s => getDebtPosition s tokenId
  let _ ← okOr stored .tokenNotFound
  removeOwned user tokenId
  store (setPosition tokenId none)
  updateTotalSupply (-1)

/-- Only the admin of the protocol passes. -/
def requireAdmin (admin : Address) : Invocation Unit := do
  let stored ← asks Env.admin
  let storedAdmin ← okOr stored .unauthorized
  failIf (admin ≠ storedAdmin) .unauthorized
  requireAuth admin

/-- Transfers are paused or let go on. -/
def setTransferPause (admin : Address) (paused : Bool) : Invocation Unit := do
  requireAdmin admin
  store fun s => { s with transferPaused := some paused }

/-- An address is blocked or let in again. -/
def setAddressBlocked (admin address : Address) (blocked : Bool) : Invocation Unit := do
  requireAdmin admin
  store fun s =>
    { s with
      blockedAddress := update s.blockedAddress address (if blocked then some true else none) }

/-! ## The machine -/

/-- A call of an entry point. -/
inductive Op where
  | mintDebtToken (user : Address) (collateralAsset : Option Address)
      (principal interestRateBps : ℤ)
  | transferDebtToken (sender recipient : Address) (tokenId : ℕ)
  | burnDebtToken (user : Address) (tokenId : ℕ) (reason : String)
  | setTransferPause (admin : Address) (paused : Bool)
  | setAddressBlocked (admin address : Address) (blocked : Bool)
  deriving DecidableEq

/-- A transaction: a call and what it finds around it. -/
structure Tx where
  env : Env
  op : Op

/-- The store after a call that succeeded. -/
def Op.apply (op : Op) (e : Env) (s : Storage) : Option Storage :=
  match op with
  | .mintDebtToken user asset principal rate =>
    commit (DebtToken.mintDebtToken user asset principal rate) e s
  | .transferDebtToken sender recipient id =>
    commit (DebtToken.transferDebtToken sender recipient id) e s
  | .burnDebtToken user id reason => commit (DebtToken.burnDebtToken user id reason) e s
  | .setTransferPause admin paused => commit (DebtToken.setTransferPause admin paused) e s
  | .setAddressBlocked admin address blocked =>
    commit (DebtToken.setAddressBlocked admin address blocked) e s

/-- The store after a transaction that succeeded. -/
def step (tx : Tx) (s : Storage) : Option Storage := tx.op.apply tx.env s

/-- **The state of the contract after a sequence of transactions on a fresh deployment.** -/
def ledger (txs : List Tx) : Storage := run step Storage.empty txs

end StellarLend.DebtToken
