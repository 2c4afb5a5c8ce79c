import StellarLend.Lending.Vault

/-!
# Lending/Indirect — the operations reached other than by their user's call

Three paths reach the operations of `Borrow` and `Vault` without the user signing the call: a
commitment the user scheduled, a batch a delegate runs for the user, and the hook a token contract
calls on a transfer.
-/

namespace StellarLend.Lending

open Foundations Call

/-- The successor of a `u64` counter; `none` is an overflow, which traps. -/
def nextU64 (n : ℕ) : Option ℕ := if n + 1 < 2 ^ 64 then some (n + 1) else none

@[simp] theorem nextU64_eq_some {n m : ℕ} : nextU64 n = some m ↔ n + 1 < 2 ^ 64 ∧ n + 1 = m := by
  unfold nextU64
  split <;> simp_all

/-! ## Borrow commitments -/

def MAX_TRIGGERS : ℕ := 4

def readPrice (asset : Address) : Invocation CommitmentError ℤ := do
  let oracle ← view getOracle
  let oracle ← okOr oracle .oracleNotConfigured
  let price ← asks fun e => e.price oracle asset
  orTrap price

def triggerMet (t : PriceTrigger) : Invocation CommitmentError Bool := do
  let price ← readPrice t.asset
  pure (if t.fireWhenAtOrAbove then t.triggerPrice ≤ price else price ≤ t.triggerPrice)

/-- The loop of the `any` combiner: the first trigger met ends it. -/
def anyTriggerMet : List PriceTrigger → Invocation CommitmentError Bool
  | [] => pure false
  | t :: ts => do
    let met ← triggerMet t
    if met then pure true else anyTriggerMet ts

/-- The loop of the `all` combiner: the first trigger not met ends it. -/
def allTriggersMet : List PriceTrigger → Invocation CommitmentError Bool
  | [] => pure true
  | t :: ts => do
    let met ← triggerMet t
    if met then allTriggersMet ts else pure false

def triggersSatisfied (triggers : List PriceTrigger) (combiner : TriggerCombiner) :
    Invocation CommitmentError Bool :=
  if triggers = [] then fail .badConfig
  else
    match combiner with
    | .any => anyTriggerMet triggers
    | .all => allTriggersMet triggers

/-- The store after a commitment is saved. -/
def withCommitment (id : ℕ) (c : BorrowCommitment) (s : Storage) : Storage :=
  { s with commitment := Function.update s.commitment id (some c) }

def setCommitment {ε : Type} (id : ℕ) (c : BorrowCommitment) : Invocation ε Unit :=
  store (withCommitment id c)

/-- Returns the commitment's identifier. -/
def Commitments.createBorrowCommitment (owner : Address) (triggers : List PriceTrigger)
    (combiner : TriggerCombiner) (borrowAsset collateralAsset : Address)
    (borrowAmount collateralAmount : ℤ) (minFillBps expiryTimestamp : ℕ) :
    Invocation CommitmentError ℕ := do
  requireAuth owner
  failIf (triggers = []) .badConfig
  failIf (MAX_TRIGGERS < triggers.length) .tooManyTriggers
  failIf (borrowAmount ≤ 0 ∨ collateralAmount ≤ 0 ∨ minFillBps = 0 ∨ 10000 < minFillBps) .badConfig
  mapErr (fun _ => .badConfig) (ofExcept (validateCollateralRatio collateralAmount borrowAmount))
  let now ← asks Env.timestamp
  failIf (expiryTimestamp ≤ now) .badConfig
  let id ← view fun s => s.nextId.getD 0
  setCommitment id ⟨owner, triggers, combiner, borrowAsset, collateralAsset, borrowAmount,
    collateralAmount, minFillBps, expiryTimestamp, .pending⟩
  let next ← orTrap (nextU64 id)
  store fun s => { s with nextId := some next }
  pure id

def Commitments.cancelBorrowCommitment (owner : Address) (commitmentId : ℕ) :
    Invocation CommitmentError Unit := do
  requireAuth owner
  let c ← view fun s => s.commitment commitmentId
  let c ← okOr c .notFound
  failIf (c.owner ≠ owner) .unauthorized
  failIf (c.status ≠ .pending) .notExecutable
  setCommitment commitmentId { c with status := .cancelled }

/-- The amount a commitment can borrow under the debt ceiling. -/
def fillAmount (s : Storage) (c : BorrowCommitment) : ℤ :=
  min c.borrowAmount (I128.saturatingSub (getDebtCeiling s) (getTotalDebt s))

/-- The collateral that goes with a fill; `none` is a division by zero, which traps. -/
def collateralFill (c : BorrowCommitment) (fill : ℤ) : Option ℤ :=
  if c.borrowAmount = 0 then none
  else some (I128.saturatingDiv (I128.saturatingMul c.collateralAmount fill) c.borrowAmount)

def Commitments.executeBorrowCommitment (commitmentId : ℕ) : Invocation CommitmentError Unit := do
  let c ← view fun s => s.commitment commitmentId
  let c ← okOr c .notFound
  failIf (c.status ≠ .pending) .notExecutable
  let now ← asks Env.timestamp
  -- the status written here is lost: the error discards the invocation's writes
  onlyIf (c.expiryTimestamp < now) do
    setCommitment commitmentId { c with status := .expired }
    fail .expired
  let satisfied ← triggersSatisfied c.triggers c.combiner
  failIf (satisfied = false) .triggerNotMet
  let fill ← view fun s => fillAmount s c
  failIf (fill < I128.saturatingDiv (I128.saturatingMul c.borrowAmount c.minFillBps) 10000)
    .belowMinPartialFill
  let minBorrow ← view getMinBorrowAmount
  failIf (fill < minBorrow) .borrowFailed
  let collateral ← orTrap (collateralFill c fill)
  failIf (collateral ≤ 0) .badConfig
  mapErr (fun _ => .borrowFailed) (ofExcept (validateCollateralRatio collateral fill))
  mapErr (fun _ => .borrowFailed)
    (borrowFromCommitment c.owner c.borrowAsset fill c.collateralAsset collateral)
  setCommitment commitmentId { c with status := .executed }

/-! ## Delegated batches -/

/-- The permission bit an action needs. -/
def Action.permission : Action → ℕ
  | .deposit => 1
  | .withdraw => 2
  | .borrow => 4
  | .repay => 8
  | .depositCollateral => 16

def getNonce (s : Storage) (delegator : Address) : ℕ := (s.nonce delegator).getD 0

/-- The store with another nonce of a delegator. -/
def withNonce (delegator : Address) (nonce : ℕ) (s : Storage) : Storage :=
  { s with nonce := Function.update s.nonce delegator (some nonce) }

def setNonce {ε : Type} (delegator : Address) (nonce : ℕ) : Invocation ε Unit :=
  store (withNonce delegator nonce)

def validateDelegation (registry delegator delegate : Address) (action : Action) :
    Invocation MetaTxError Unit := do
  let valid ← asks fun e => e.validate registry delegator delegate action.permission
  let valid ← orTrap valid
  failIf (valid = false) .permissionDenied

/-- The pause check of a delegated call. -/
def failIfPaused (pauseType : PauseType) : Invocation MetaTxError Unit := do
  let paused ← view fun s => isPaused s pauseType
  failIf (paused = true) .unauthorized

/-- Any error of the operation is reported as `unauthorized`. -/
def asUnauthorized {ε α : Type} (x : Invocation ε α) : Invocation MetaTxError Unit := do
  let _ ← mapErr (fun _ => .unauthorized) x
  pure ()

def executeAction (delegator : Address) (c : MetaCall) : Invocation MetaTxError Unit :=
  match c.action with
  | .deposit => do
    failIfPaused .deposit
    asUnauthorized (depositWithAuth delegator c.asset c.amount false)
  | .withdraw => do
    failIfPaused .withdraw
    asUnauthorized (withdrawWithAuth delegator c.asset c.amount false)
  | .borrow => do
    failIfPaused .borrow
    let collateralAsset ← okOr c.collateralAsset .unauthorized
    let collateralAmount ← okOr c.collateralAmount .unauthorized
    asUnauthorized (borrowTrusted delegator c.asset c.amount collateralAsset collateralAmount)
  | .repay => do
    failIfPaused .repay
    asUnauthorized (Borrow.repay delegator c.asset c.amount)
  | .depositCollateral => do
    failIfPaused .deposit
    asUnauthorized (Borrow.deposit delegator c.asset c.amount)

/-- The calls of a batch, each under a delegation of its own. -/
def executeCalls (registry delegator delegate : Address) :
    List MetaCall → Invocation MetaTxError Unit
  | [] => pure ()
  | c :: cs => do
    validateDelegation registry delegator delegate c.action
    executeAction delegator c
    executeCalls registry delegator delegate cs

def Meta.executeDelegated (delegator delegate : Address) (nonce deadline : ℕ)
    (calls : List MetaCall) : Invocation MetaTxError Unit := do
  requireAuth delegate
  let now ← asks Env.timestamp
  failIf (deadline ≠ 0 ∧ deadline < now) .expired
  let current ← view fun s => getNonce s delegator
  failIf (nonce ≠ current) .invalidNonce
  let next ← orTrap (nextU64 current)
  setNonce delegator next
  let registry ← view fun s => s.delegationRegistry
  let registry ← okOr registry .delegationMissing
  executeCalls registry delegator delegate calls

/-! ## Token receiver hook -/

/-- An element of a hook's payload. -/
inductive Val where
  | symbol (name : String)
  | other
  deriving DecidableEq, Repr

/-- The action a payload names; `none` traps, as a value that is no symbol does. -/
def Val.toSymbol : Val → Option String
  | .symbol name => some name
  | .other => none

def TokenReceiver.receive (tokenAsset sender : Address) (amount : ℤ) (payload : List Val) :
    Invocation BorrowError Unit := do
  failIf (payload = []) .invalidAmount
  let first ← okOr payload.head? .invalidAmount
  let action ← orTrap first.toSymbol
  if action = "deposit" then Borrow.deposit sender tokenAsset amount
  else if action = "repay" then Borrow.repay sender tokenAsset amount
  else fail .assetNotSupported

end StellarLend.Lending
