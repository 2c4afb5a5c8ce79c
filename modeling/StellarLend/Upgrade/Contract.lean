import StellarLend.Foundations.Run
import StellarLend.Lending.Storage

/-!
# Upgrade/Contract — proposals for a new implementation

    propose ──▸ approve ──▸ … ──▸ execute ──▸ rollback

The admin proposes a new implementation hash with a version above the current one; approvers approve
it one by one; with enough approvals an approver executes it, and the admin may roll it back to what
was current when it was executed.
-/

namespace StellarLend.Upgrade

open Foundations Call
open Lending (Address)

/-! ## Data -/

/-- The errors of the contract. -/
inductive UpgradeError where
  | alreadyInitialized
  | notInitialized
  | notAuthorized
  | proposalNotFound
  | invalidVersion
  | invalidStatus
  | alreadyApproved
  | notEnoughApprovals
  | invalidThreshold
  deriving DecidableEq, Repr

/-- How far a proposal has come. -/
inductive UpgradeStage where
  | proposed
  | approved
  | executed
  | rolledBack
  deriving DecidableEq, Repr

/-- A hash of 32 bytes. -/
abbrev WasmHash : Type := BitVec 256

/-- A proposal, and what it replaced when it was executed. -/
structure UpgradeProposal where
  id : ℕ
  proposer : Address
  newWasmHash : WasmHash
  newVersion : ℕ
  approvals : List Address
  stage : UpgradeStage
  prevWasmHash : Option WasmHash
  prevVersion : Option ℕ
  deriving DecidableEq, Repr

/-- The keys of the contract. -/
structure Storage where
  admin : Option Address
  approvers : Option (List Address)
  requiredApprovals : Option ℕ
  nextProposalId : Option ℕ
  currentWasmHash : Option WasmHash
  currentVersion : Option ℕ
  proposal : ℕ → Option UpgradeProposal

/-- A freshly deployed contract. -/
def Storage.empty : Storage where
  admin := none
  approvers := none
  requiredApprovals := none
  nextProposalId := none
  currentWasmHash := none
  currentVersion := none
  proposal := fun _ => none

/-- What an invocation finds around it. -/
structure Env where
  /-- The authorisations the host accepts for this invocation, by address. -/
  auths : List Address

/-- An invocation of the contract, or a part of one. -/
abbrev Invocation (α : Type) : Type := Call Env Storage UpgradeError α

/-- `address.require_auth()`. -/
abbrev requireAuth (a : Address) : Invocation Unit := Call.requireAuth Env.auths a

/-! ## Reading -/

/-- The approvers, in the order of their coming. -/
def approvers (s : Storage) : List Address := s.approvers.getD []

/-- There is an admin. -/
def assertInitialized : Invocation Unit := do
  let admin ← view Storage.admin
  failIf (admin = none) .notInitialized

/-- The caller is the admin. -/
def assertAdmin (caller : Address) : Invocation Unit := do
  let stored ← view Storage.admin
  let admin ← okOr stored .notInitialized
  failIf (caller ≠ admin) .notAuthorized

/-- The caller is an approver. -/
def assertApprover (caller : Address) : Invocation Unit := do
  let members ← view approvers
  failIf (caller ∉ members) .notAuthorized

/-- The number of approvals that an execution takes. -/
def requiredApprovals : Invocation ℕ := do
  assertInitialized
  view fun s => s.requiredApprovals.getD 0

/-- The version in force. -/
def currentVersion : Invocation ℕ := do
  assertInitialized
  view fun s => s.currentVersion.getD 0

/-- The hash in force. -/
def currentWasmHash : Invocation WasmHash := do
  assertInitialized
  let stored ← view Storage.currentWasmHash
  okOr stored .notInitialized

/-- A proposal by its number. -/
def loadProposal (proposalId : ℕ) : Invocation UpgradeProposal := do
  let stored ← view fun s => s.proposal proposalId
  okOr stored .proposalNotFound

/-- `persistent().set(Proposal(proposal_id), proposal)`. -/
def saveProposal (proposalId : ℕ) (proposal : UpgradeProposal) (s : Storage) : Storage :=
  { s with proposal := Function.update s.proposal proposalId (some proposal) }

/-! ## Entry points -/

/-- The admin is the first approver. -/
def init (admin : Address) (hash : WasmHash) (required : ℕ) : Invocation Unit := do
  requireAuth admin
  let current ← view Storage.admin
  failIf (current.isSome = true) .alreadyInitialized
  failIf (required = 0) .invalidThreshold
  store fun s =>
    { s with
      admin := some admin
      approvers := some [admin]
      requiredApprovals := some required
      nextProposalId := some 1
      currentWasmHash := some hash
      currentVersion := some 0 }

/-- Who is an approver already is not added again. -/
def addApprover (caller approver : Address) : Invocation Unit := do
  requireAuth caller
  assertInitialized
  assertAdmin caller
  let members ← view approvers
  onlyIf (approver ∉ members)
    (store fun s => { s with approvers := some (members ++ [approver]) })

/-- The first occurrence is removed, if there is one. -/
def removeApprover (caller approver : Address) : Invocation Unit := do
  requireAuth caller
  assertInitialized
  assertAdmin caller
  let stored ← view Storage.admin
  let admin ← okOr stored .notInitialized
  failIf (approver = admin) .notAuthorized
  let required ← requiredApprovals
  let members ← view approvers
  onlyIf (approver ∈ members) do
    failIf ((members.erase approver).length < required) .invalidThreshold
    store fun s => { s with approvers := some (members.erase approver) }

/-- The number of the next proposal is counted in 64 bits, and overflow traps. -/
def upgradePropose (caller : Address) (hash : WasmHash) (version : ℕ) : Invocation ℕ := do
  requireAuth caller
  assertInitialized
  assertAdmin caller
  let current ← currentVersion
  failIf (version ≤ current) .invalidVersion
  let required ← requiredApprovals
  let id ← view fun s => s.nextProposalId.getD 1
  store (saveProposal id
    { id := id
      proposer := caller
      newWasmHash := hash
      newVersion := version
      approvals := [caller]
      stage := if required ≤ 1 then .approved else .proposed
      prevWasmHash := none
      prevVersion := none })
  let next ← orTrap (U64.checkedAdd id 1)
  store fun s => { s with nextProposalId := some next }
  pure id

/-- A proposal takes approvals until it is executed. -/
def upgradeApprove (caller : Address) (proposalId : ℕ) : Invocation ℕ := do
  requireAuth caller
  assertInitialized
  assertApprover caller
  let proposal ← loadProposal proposalId
  failIf (proposal.stage ≠ .proposed ∧ proposal.stage ≠ .approved) .invalidStatus
  failIf (caller ∈ proposal.approvals) .alreadyApproved
  let approvals := proposal.approvals ++ [caller]
  let required ← requiredApprovals
  store (saveProposal proposalId
    { proposal with
      approvals := approvals
      stage := if required ≤ approvals.length then .approved else proposal.stage })
  pure approvals.length

/-- What was in force is kept in the proposal. -/
def upgradeExecute (caller : Address) (proposalId : ℕ) : Invocation Unit := do
  requireAuth caller
  assertInitialized
  assertApprover caller
  let proposal ← loadProposal proposalId
  failIf (proposal.stage = .executed ∨ proposal.stage = .rolledBack) .invalidStatus
  let required ← requiredApprovals
  failIf (proposal.approvals.length < required) .notEnoughApprovals
  let hash ← currentWasmHash
  let version ← currentVersion
  store fun s =>
    { s with
      currentWasmHash := some proposal.newWasmHash
      currentVersion := some proposal.newVersion }
  store (saveProposal proposalId
    { proposal with
      prevWasmHash := some hash
      prevVersion := some version
      stage := .executed })

/-- What an executed proposal replaced is in force again. -/
def upgradeRollback (caller : Address) (proposalId : ℕ) : Invocation Unit := do
  requireAuth caller
  assertInitialized
  assertAdmin caller
  let proposal ← loadProposal proposalId
  failIf (proposal.stage ≠ .executed) .invalidStatus
  let hash ← okOr proposal.prevWasmHash .invalidStatus
  let version ← okOr proposal.prevVersion .invalidStatus
  store fun s => { s with currentWasmHash := some hash, currentVersion := some version }
  store (saveProposal proposalId { proposal with stage := .rolledBack })

/-! ## Transactions -/

/-- A call of the contract. -/
inductive Op where
  | init (admin : Address) (hash : WasmHash) (required : ℕ)
  | addApprover (caller approver : Address)
  | removeApprover (caller approver : Address)
  | upgradePropose (caller : Address) (hash : WasmHash) (version : ℕ)
  | upgradeApprove (caller : Address) (proposalId : ℕ)
  | upgradeExecute (caller : Address) (proposalId : ℕ)
  | upgradeRollback (caller : Address) (proposalId : ℕ)
  deriving DecidableEq

/-- A transaction: a call and what it finds around it. -/
structure Tx where
  env : Env
  op : Op

/-- The store after a transaction that succeeded. -/
def step (tx : Tx) (s : Storage) : Option Storage :=
  match tx.op with
  | .init admin hash required => commit (Upgrade.init admin hash required) tx.env s
  | .addApprover caller approver => commit (Upgrade.addApprover caller approver) tx.env s
  | .removeApprover caller approver => commit (Upgrade.removeApprover caller approver) tx.env s
  | .upgradePropose caller hash version =>
    commit (Upgrade.upgradePropose caller hash version) tx.env s
  | .upgradeApprove caller proposalId => commit (Upgrade.upgradeApprove caller proposalId) tx.env s
  | .upgradeExecute caller proposalId => commit (Upgrade.upgradeExecute caller proposalId) tx.env s
  | .upgradeRollback caller proposalId =>
    commit (Upgrade.upgradeRollback caller proposalId) tx.env s

/-- **The state of the contract after a sequence of transactions on a fresh deployment.** -/
def ledger (txs : List Tx) : Storage := run step Storage.empty txs

theorem ledger_snoc (txs : List Tx) (tx : Tx) :
    ledger (txs ++ [tx]) = exec step (ledger txs) tx := run_snoc ..

end StellarLend.Upgrade
