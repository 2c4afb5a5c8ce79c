import StellarLend.Governance.Contract

/-!
# Timelock/Contract — changes that wait

    queued ──── delay ────▸ ready ──── grace period ────▸ expired

A change of the protocol is queued, waits for its delay and may then be executed by whoever asks,
until its grace period is over.  The changes are those governance can make, and they are made in the
name of the admin of governance.  The rest of the contract runs as steps of the same machine.
-/

namespace StellarLend.Timelock

open Foundations Call Function
open Lending (Address)
open Governance (GovernanceError ProposalType)

/-! ## Data -/

def MIN_TIMELOCK_DELAY : ℕ := 7200
def MAX_TIMELOCK_DELAY : ℕ := 172800
def DEFAULT_TIMELOCK_DELAY : ℕ := 86400

inductive TimelockStatus where
  | pending
  | ready
  | executed
  | cancelled
  | expired
  deriving DecidableEq, Repr

structure TimelockOperation where
  id : ℕ
  proposalType : ProposalType
  description : String
  proposer : Address
  queuedAt : ℕ
  readyAt : ℕ
  expiresAt : ℕ
  status : TimelockStatus
  delay : ℕ
  deriving DecidableEq

structure TimelockConfig where
  minDelay : ℕ
  maxDelay : ℕ
  defaultDelay : ℕ
  gracePeriod : ℕ
  deriving DecidableEq, Repr

/-- The source's `TimelockConfig::default()`. -/
def defaultConfig : TimelockConfig where
  minDelay := MIN_TIMELOCK_DELAY
  maxDelay := MAX_TIMELOCK_DELAY
  defaultDelay := DEFAULT_TIMELOCK_DELAY
  gracePeriod := 86400

/-- The errors of the module, those of governance among them. -/
inductive TimelockError where
  | invalidTimelockConfig
  | invalidTimelockDelay
  | timelockNotFound
  | invalidTimelockStatus
  | timelockNotReady
  | timelockExpired
  | governance (err : GovernanceError)
  deriving DecidableEq, Repr

/-- The keys of `timelock.rs`, and those of governance and the protocol. -/
structure Storage where
  config : Option TimelockConfig
  nextTimelockId : Option ℕ
  operation : ℕ → Option TimelockOperation
  governance : Governance.Storage

/-- A freshly deployed contract. -/
def Storage.empty : Storage where
  config := none
  nextTimelockId := none
  operation := fun _ => none
  governance := Governance.Storage.empty

/-- An invocation of the contract, or a part of one. -/
abbrev Invocation (α : Type) : Type := Call HelloWorld.Env Storage TimelockError α

/-- `address.require_auth()`. -/
abbrev requireAuth (a : Address) : Invocation Unit := Call.requireAuth HelloWorld.Env.auths a

/-- Run a part of governance. -/
def ofGovernance {α : Type} (x : Governance.Invocation α) : Invocation α :=
  zoom id Storage.governance (fun t s => { s with governance := t }) (mapErr .governance x)

@[simp] theorem ofGovernance_ok {α : Type} {x : Governance.Invocation α} {e : HelloWorld.Env}
    {s s' : Storage} {a : α} :
    ofGovernance x e s = .ok a s' ↔
      ∃ t, x e s.governance = .ok a t ∧ { s with governance := t } = s' := by
  simp [ofGovernance]

/-! ## Reading and writing -/

def getTimelockConfig (s : Storage) : TimelockConfig := s.config.getD defaultConfig
def getNextId (s : Storage) : ℕ := s.nextTimelockId.getD 0
def getTimelockOperation (s : Storage) (operationId : ℕ) : Option TimelockOperation :=
  s.operation operationId

/-- `persistent().set(TimelockOperation(id), operation)`. -/
def setOperation (operationId : ℕ) (operation : TimelockOperation) (s : Storage) : Storage :=
  { s with operation := update s.operation operationId (some operation) }

def TimelockOperation.withStatus (operation : TimelockOperation) (status : TimelockStatus) :
    TimelockOperation := { operation with status := status }

/-- An operation that was neither executed nor cancelled. -/
def TimelockOperation.Open (operation : TimelockOperation) : Prop :=
  operation.status = .pending ∨ operation.status = .ready

instance (operation : TimelockOperation) : Decidable operation.Open :=
  inferInstanceAs (Decidable (_ ∨ _))

/-- The check both setters of the configuration make. -/
def validateConfig (config : TimelockConfig) : Invocation Unit := do
  failIf (config.maxDelay < config.minDelay) .invalidTimelockConfig
  failIf (config.defaultDelay < config.minDelay ∨ config.maxDelay < config.defaultDelay)
    .invalidTimelockConfig

/-! ## Entry points -/

/-- Nobody is asked for a signature. -/
def initializeTimelock (config : TimelockConfig) : Invocation Unit := do
  validateConfig config
  store fun s => { s with config := some config, nextTimelockId := some 0 }

def queueTimelockOperation (proposer : Address) (proposalType : ProposalType)
    (description : String) (customDelay : Option ℕ) : Invocation ℕ := do
  requireAuth proposer
  let config ← view getTimelockConfig
  let delay := customDelay.getD config.defaultDelay
  failIf (delay < config.minDelay ∨ config.maxDelay < delay) .invalidTimelockDelay
  let operationId ← view getNextId
  let now ← asks HelloWorld.Env.timestamp
  let readyAt ← orTrap (U64.checkedAdd now delay)
  let expiresAt ← orTrap (U64.checkedAdd readyAt config.gracePeriod)
  store (setOperation operationId
    { id := operationId
      proposalType := proposalType
      description := description
      proposer := proposer
      queuedAt := now
      readyAt := readyAt
      expiresAt := expiresAt
      status := .pending
      delay := delay })
  let nextId ← orTrap (U64.checkedAdd operationId 1)
  store fun s => { s with nextTimelockId := some nextId }
  pure operationId

/-- The source's own `execute_proposal_type` is that of governance. -/
def executeTimelockOperation (executor : Address) (operationId : ℕ) : Invocation Unit := do
  requireAuth executor
  let stored ← view fun s => getTimelockOperation s operationId
  let operation ← okOr stored .timelockNotFound
  failIf (¬ operation.Open) .invalidTimelockStatus
  let now ← asks HelloWorld.Env.timestamp
  failIf (now < operation.readyAt) .timelockNotReady
  onlyIf (operation.expiresAt < now) do
    store (setOperation operationId (operation.withStatus .expired))
    fail .timelockExpired
  ofGovernance (Governance.executeProposalType operation.proposalType)
  store (setOperation operationId (operation.withStatus .executed))

/-- Proposer and admin may cancel. -/
def cancelTimelockOperation (caller : Address) (operationId : ℕ) : Invocation Unit := do
  requireAuth caller
  let stored ← view fun s => getTimelockOperation s operationId
  let operation ← okOr stored .timelockNotFound
  let admin ← ofGovernance Governance.getAdmin
  failIf (caller ≠ operation.proposer ∧ caller ≠ admin) (.governance .unauthorized)
  failIf (¬ operation.Open) .invalidTimelockStatus
  store (setOperation operationId (operation.withStatus .cancelled))

/-- Public in the module; no entry point calls it. -/
def updateTimelockConfig (admin : Address) (config : TimelockConfig) : Invocation Unit := do
  requireAuth admin
  let storedAdmin ← ofGovernance Governance.getAdmin
  failIf (admin ≠ storedAdmin) (.governance .unauthorized)
  validateConfig config
  store fun s => { s with config := some config }

/-! ## The machine -/

/-- A call of an entry point. -/
inductive Op where
  | initializeTimelock (config : TimelockConfig)
  | queueTimelockOperation (proposer : Address) (proposalType : ProposalType)
      (description : String) (customDelay : Option ℕ)
  | executeTimelockOperation (executor : Address) (operationId : ℕ)
  | cancelTimelockOperation (caller : Address) (operationId : ℕ)
  | updateTimelockConfig (admin : Address) (config : TimelockConfig)
  -- governance and the rest of the contract
  | governance (op : Governance.Op)
  deriving DecidableEq

/-- A transaction: a call and what it finds around it. -/
structure Tx where
  env : HelloWorld.Env
  op : Op

/-- The store after a call that succeeded. -/
def Op.apply (op : Op) (e : HelloWorld.Env) (s : Storage) : Option Storage :=
  match op with
  | .initializeTimelock config => commit (Timelock.initializeTimelock config) e s
  | .queueTimelockOperation proposer proposalType description customDelay =>
    commit (Timelock.queueTimelockOperation proposer proposalType description customDelay) e s
  | .executeTimelockOperation executor id =>
    commit (Timelock.executeTimelockOperation executor id) e s
  | .cancelTimelockOperation caller id => commit (Timelock.cancelTimelockOperation caller id) e s
  | .updateTimelockConfig admin config => commit (Timelock.updateTimelockConfig admin config) e s
  | .governance op => (Governance.step ⟨e, op⟩ s.governance).map fun t => { s with governance := t }

/-- The store after a transaction that succeeded. -/
def step (tx : Tx) (s : Storage) : Option Storage := tx.op.apply tx.env s

/-- **The state of the contract after a sequence of transactions on a fresh deployment.** -/
def ledger (txs : List Tx) : Storage := run step Storage.empty txs

end StellarLend.Timelock
