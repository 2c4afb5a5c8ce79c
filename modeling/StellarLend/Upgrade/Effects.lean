import StellarLend.Upgrade.Contract

/-!
# Upgrade/Effects — what each call does

A call that succeeds is read off as the conditions it passed and the store it leaves.
-/

namespace StellarLend.Upgrade

open Foundations Call
open Lending (Address)

variable {e : Env} {s s' : Storage} {caller : Address} {id : ℕ} {u : Unit}

/-- There is an admin, and nothing changes. -/
@[simp] theorem assertInitialized_ok :
    assertInitialized e s = .ok u s' ↔ s.admin ≠ none ∧ s = s' := by
  simp [assertInitialized, and_comm]

@[simp ↓] theorem assertInitialized_seq {β : Type} {b : β} {k : Unit → Invocation β} :
    (assertInitialized >>= k) e s = .ok b s' ↔ s.admin ≠ none ∧ k () e s = .ok b s' :=
  check_seq fun _ _ => assertInitialized_ok

/-- The caller is the admin, and nothing changes. -/
@[simp] theorem assertAdmin_ok :
    assertAdmin caller e s = .ok u s' ↔ s.admin = some caller ∧ s = s' := by
  simp [assertAdmin]

@[simp ↓] theorem assertAdmin_seq {β : Type} {b : β} {k : Unit → Invocation β} :
    (assertAdmin caller >>= k) e s = .ok b s' ↔ s.admin = some caller ∧ k () e s = .ok b s' :=
  check_seq fun _ _ => assertAdmin_ok

/-- The caller is an approver, and nothing changes. -/
@[simp] theorem assertApprover_ok :
    assertApprover caller e s = .ok u s' ↔ caller ∈ approvers s ∧ s = s' := by
  simp [assertApprover, and_comm]

/-- The approvals a proposal needs. -/
def required (s : Storage) : ℕ := s.requiredApprovals.getD 0

/-- The version in force. -/
def version (s : Storage) : ℕ := s.currentVersion.getD 0

@[simp] theorem requiredApprovals_ok {n : ℕ} :
    requiredApprovals e s = .ok n s' ↔ s.admin ≠ none ∧ required s = n ∧ s = s' := by
  simp [requiredApprovals, required, and_assoc]

@[simp] theorem currentVersion_ok {n : ℕ} :
    currentVersion e s = .ok n s' ↔ s.admin ≠ none ∧ version s = n ∧ s = s' := by
  simp [currentVersion, version, and_assoc]

@[simp] theorem currentWasmHash_ok {hash : WasmHash} :
    currentWasmHash e s = .ok hash s' ↔
      s.admin ≠ none ∧ s.currentWasmHash = some hash ∧ s = s' := by
  simp [currentWasmHash, and_assoc]

/-- The proposal is there, and nothing changes. -/
@[simp] theorem loadProposal_ok {proposal : UpgradeProposal} :
    loadProposal id e s = .ok proposal s' ↔ s.proposal id = some proposal ∧ s = s' := by
  simp [loadProposal]

/-! ## Each call -/

/-- The contract is set up, once. -/
structure Initialized (s : Storage) (admin : Address) (hash : WasmHash) (n : ℕ) (s' : Storage) :
    Prop where
  fresh : s.admin = none
  positive : 0 < n
  after : s' = { s with
    admin := some admin
    approvers := some [admin]
    requiredApprovals := some n
    nextProposalId := some 1
    currentWasmHash := some hash
    currentVersion := some 0 }

/-- **Setting up.** -/
theorem init_effect {admin : Address} {hash : WasmHash} {n : ℕ}
    (h : init admin hash n e s = .ok u s') : Initialized s admin hash n s' := by
  simp only [init, requireAuth_seq, view_seq, failIf_seq, store_ok] at h
  obtain ⟨-, hfresh, hpos, rfl⟩ := h
  exact ⟨by simpa using hfresh, Nat.pos_of_ne_zero hpos, rfl⟩

/-- The admin adds an approver. -/
structure Joined (s : Storage) (caller approver : Address) (s' : Storage) : Prop where
  admin : s.admin = some caller
  after : s' = if approver ∈ approvers s then s
    else { s with approvers := some (approvers s ++ [approver]) }

/-- **Adding an approver.** -/
theorem addApprover_effect {approver : Address} (h : addApprover caller approver e s = .ok u s') :
    Joined s caller approver s' := by
  simp only [addApprover, requireAuth_seq, assertInitialized_seq, assertAdmin_seq, view_seq,
    onlyIf_ok, store_ok, not_not] at h
  obtain ⟨-, -, hadmin, hnew, hold⟩ := h
  refine ⟨hadmin, ?_⟩
  split
  case isTrue hmem => exact (hold hmem).symm
  case isFalse hmem => exact (hnew hmem).symm

/-- The admin removes an approver other than itself, and enough stay. -/
structure Left (s : Storage) (caller approver : Address) (s' : Storage) : Prop where
  admin : s.admin = some caller
  other : approver ≠ caller
  enough : approver ∈ approvers s → required s ≤ ((approvers s).erase approver).length
  after : s' = if approver ∈ approvers s then
    { s with approvers := some ((approvers s).erase approver) } else s

/-- **Removing an approver.** -/
theorem removeApprover_effect {approver : Address}
    (h : removeApprover caller approver e s = .ok u s') : Left s caller approver s' := by
  simp only [removeApprover, bind_ok, requireAuth_ok, ↓assertInitialized_seq, ↓assertAdmin_seq,
    ↓view_seq, ↓okOr_seq, ↓failIf_seq, requiredApprovals_ok, onlyIf_ok, store_ok, not_lt, and_assoc,
    exists_and_left, exists_eq_left', exists_const] at h
  obtain ⟨-, -, hadmin, admin, hadmin', hother, -, hmember, hnot⟩ := h
  obtain rfl := Option.some.inj (hadmin.symm.trans hadmin')
  refine ⟨hadmin, hother, fun hmem => (hmember hmem).1, ?_⟩
  split
  case isTrue hmem => exact (hmember hmem).2.symm
  case isFalse hmem => exact (hnot hmem).symm

/-- The number of the next proposal. -/
def nextId (s : Storage) : ℕ := s.nextProposalId.getD 1

/-- A proposal as it is made. -/
def proposalOf (s : Storage) (caller : Address) (hash : WasmHash) (n : ℕ) : UpgradeProposal where
  id := nextId s
  proposer := caller
  newWasmHash := hash
  newVersion := n
  approvals := [caller]
  stage := if required s ≤ 1 then .approved else .proposed
  prevWasmHash := none
  prevVersion := none

/-- The admin proposes a newer version. -/
structure Proposed (s : Storage) (caller : Address) (hash : WasmHash) (n : ℕ) (s' : Storage) :
    Prop where
  admin : s.admin = some caller
  newer : version s < n
  bound : nextId s + 1 ≤ U64.MAX
  after : s' = { saveProposal (nextId s) (proposalOf s caller hash n) s with
    nextProposalId := some (nextId s + 1) }

/-- **Proposing.** -/
theorem upgradePropose_effect {hash : WasmHash} {n : ℕ}
    (h : upgradePropose caller hash n e s = .ok id s') : Proposed s caller hash n s' := by
  simp only [upgradePropose, bind_ok, requireAuth_ok, ↓assertInitialized_seq, ↓assertAdmin_seq,
    currentVersion_ok, ↓failIf_seq, requiredApprovals_ok, ↓view_seq, ↓store_seq, ↓orTrap_seq,
    U64.checkedAdd_eq_some, pure_ok, not_le, and_assoc, exists_and_left, exists_eq_left',
    exists_const] at h
  obtain ⟨-, -, hadmin, -, hnewer, -, hbound, rfl, rfl⟩ := h
  exact ⟨hadmin, hnewer, hbound, rfl⟩

/-- A proposal with one more approval. -/
def UpgradeProposal.approvedBy (n : ℕ) (caller : Address) (proposal : UpgradeProposal) :
    UpgradeProposal :=
  { proposal with
    approvals := proposal.approvals ++ [caller]
    stage := if n ≤ (proposal.approvals ++ [caller]).length then .approved else proposal.stage }

/-- An approver approves a proposal that is still open, once. -/
structure Approved (s : Storage) (caller : Address) (id : ℕ) (proposal : UpgradeProposal)
    (s' : Storage) : Prop where
  member : caller ∈ approvers s
  proposal_eq : s.proposal id = some proposal
  pending : proposal.stage = .proposed ∨ proposal.stage = .approved
  fresh : caller ∉ proposal.approvals
  after : s' = saveProposal id (proposal.approvedBy (required s) caller) s

/-- **Approving.** -/
theorem upgradeApprove_effect {n : ℕ} (h : upgradeApprove caller id e s = .ok n s') :
    ∃ proposal, Approved s caller id proposal s' := by
  simp only [upgradeApprove, bind_ok, requireAuth_ok, ↓assertInitialized_seq, assertApprover_ok,
    loadProposal_ok, ↓failIf_seq, requiredApprovals_ok, ↓store_seq, pure_ok, and_assoc,
    exists_and_left, exists_eq_left', exists_const] at h
  obtain ⟨-, -, hmember, proposal, hproposal, hpending, hfresh, -, -, rfl⟩ := h
  rw [not_and_or, not_not, not_not] at hpending
  exact ⟨proposal, hmember, hproposal, hpending, hfresh, rfl⟩

/-- An approver puts a proposal with enough approvals in force. -/
structure Executed (s : Storage) (caller : Address) (id : ℕ) (proposal : UpgradeProposal)
    (hash : WasmHash) (s' : Storage) : Prop where
  member : caller ∈ approvers s
  proposal_eq : s.proposal id = some proposal
  pending : proposal.stage ≠ .executed ∧ proposal.stage ≠ .rolledBack
  enough : required s ≤ proposal.approvals.length
  hash_eq : s.currentWasmHash = some hash
  after : s' = saveProposal id
    { proposal with
      prevWasmHash := some hash
      prevVersion := some (version s)
      stage := .executed }
    { s with
      currentWasmHash := some proposal.newWasmHash
      currentVersion := some proposal.newVersion }

/-- **Executing.** -/
theorem upgradeExecute_effect (h : upgradeExecute caller id e s = .ok u s') :
    ∃ proposal hash, Executed s caller id proposal hash s' := by
  simp only [upgradeExecute, bind_ok, requireAuth_ok, ↓assertInitialized_seq, assertApprover_ok,
    loadProposal_ok, ↓failIf_seq, requiredApprovals_ok, currentWasmHash_ok, currentVersion_ok,
    ↓store_seq, store_ok, not_lt, not_or, and_assoc, exists_and_left, exists_eq_left', exists_const]
    at h
  obtain ⟨-, -, hmember, proposal, hproposal, hopen, hkept, -, henough, -, hash, hhash, -, rfl⟩ := h
  exact ⟨proposal, hash, hmember, hproposal, ⟨hopen, hkept⟩, henough, hhash, rfl⟩

/-- The admin takes an executed proposal back. -/
structure RolledBack (s : Storage) (caller : Address) (id : ℕ) (proposal : UpgradeProposal)
    (hash : WasmHash) (n : ℕ) (s' : Storage) : Prop where
  admin : s.admin = some caller
  proposal_eq : s.proposal id = some proposal
  executed : proposal.stage = .executed
  hash_eq : proposal.prevWasmHash = some hash
  version_eq : proposal.prevVersion = some n
  after : s' = saveProposal id { proposal with stage := .rolledBack }
    { s with currentWasmHash := some hash, currentVersion := some n }

/-- **Rolling back.** -/
theorem upgradeRollback_effect (h : upgradeRollback caller id e s = .ok u s') :
    ∃ proposal hash n, RolledBack s caller id proposal hash n s' := by
  simp only [upgradeRollback, bind_ok, requireAuth_ok, ↓assertInitialized_seq, ↓assertAdmin_seq,
    loadProposal_ok, ↓failIf_seq, ↓okOr_seq, ↓store_seq, store_ok, not_not, and_assoc,
    exists_and_left, exists_eq_left', exists_const] at h
  obtain ⟨-, -, hadmin, proposal, hproposal, hexecuted, hash, hhash, n, hversion, rfl⟩ := h
  exact ⟨proposal, hash, n, hadmin, hproposal, hexecuted, hhash, hversion, rfl⟩

/-! ## Every call -/

/-- What a transaction does. -/
def Op.Effect (s s' : Storage) : Op → Prop
  | .init admin hash n => Initialized s admin hash n s'
  | .addApprover caller approver => Joined s caller approver s'
  | .removeApprover caller approver => Left s caller approver s'
  | .upgradePropose caller hash n => Proposed s caller hash n s'
  | .upgradeApprove caller id => ∃ proposal, Approved s caller id proposal s'
  | .upgradeExecute caller id => ∃ proposal hash, Executed s caller id proposal hash s'
  | .upgradeRollback caller id => ∃ proposal hash n, RolledBack s caller id proposal hash n s'

/-- **Every transaction does what its operation says.** -/
theorem step_effect {tx : Tx} (h : step tx s = some s') : tx.op.Effect s s' := by
  obtain ⟨e, op⟩ := tx
  cases op <;> simp only [step, commit_eq_some] at h <;> obtain ⟨a, h⟩ := h
  case init => exact init_effect h
  case addApprover => exact addApprover_effect h
  case removeApprover => exact removeApprover_effect h
  case upgradePropose => exact upgradePropose_effect h
  case upgradeApprove => exact upgradeApprove_effect h
  case upgradeExecute => exact upgradeExecute_effect h
  case upgradeRollback => exact upgradeRollback_effect h

end StellarLend.Upgrade
