import StellarLend.Governance.Councils
import StellarLend.Governance.Proposals

/-!
# Governance/Contract — the machine of governance

An `Op` is a call of a public function of `governance.rs`, `multisig.rs` or `recovery.rs` that
writes, or a call of the rest of the contract.  Not every function has an entry point; what holds of
every run here holds of the runs the contract allows.
-/

namespace StellarLend.Governance

open Foundations Call
open Lending (Address)

/-! ## The multisig's own calls -/

/-- The proposer approves at once: creation and approval both ask the proposer, in one frame. -/
def msProposeSetMinCr (proposer : Address) (newRatio : ℤ) : Invocation ℕ := do
  failIf (newRatio ≤ 10000) .invalidProposal
  let id ← createProposal proposer (.minCollateralRatio newRatio)
    "Adjust minimum collateral ratio" none
  requireAuthAgain proposer
  approveProposal proposer id
  pure id

def msApprove (approver : Address) (proposalId : ℕ) : Invocation Unit :=
  approveProposal approver proposalId

def msExecute (executor : Address) (proposalId : ℕ) : Invocation Unit :=
  executeProposal executor proposalId

/-! ## Calls -/

/-- A call of `recovery.rs`. -/
inductive RecoveryOp where
  | setGuardians (caller : Address) (guardians : List Address) (threshold : ℕ)
  | addGuardian (caller guardian : Address)
  | removeGuardian (caller guardian : Address)
  | setGuardianThreshold (caller : Address) (threshold : ℕ)
  | startRecovery (initiator oldAdmin newAdmin : Address)
  | approveRecovery (approver : Address)
  | executeRecovery (executor : Address)
  deriving DecidableEq

/-- A call of the contract. -/
inductive Op where
  -- setup
  | govInitialize (admin voteToken : Address) (votingPeriod executionDelay quorumBps : Option ℕ)
      (proposalThreshold : Option ℤ) (timelockDuration : Option ℕ)
      (defaultVotingThreshold : Option ℤ)
  -- proposals
  | createProposal (proposer : Address) (proposalType : ProposalType) (description : String)
      (votingThreshold : Option ℤ)
  | createAdminProposal (admin : Address) (proposalType : ProposalType) (description : String)
  | createEmergencyProposal (caller : Address) (proposalType : ProposalType)
      (description : String)
  | proposeSetMinCollateralRatio (proposer : Address) (newRatio : ℤ)
  | msProposeSetMinCr (proposer : Address) (newRatio : ℤ)
  | vote (voter : Address) (proposalId : ℕ) (voteType : VoteType)
  | queueProposal (caller : Address) (proposalId : ℕ)
  | simulateProposal (proposalId : ℕ)
  | executeProposal (executor : Address) (proposalId : ℕ)
  | msExecute (executor : Address) (proposalId : ℕ)
  | cancelProposal (caller : Address) (proposalId : ℕ)
  | approveProposal (approver : Address) (proposalId : ℕ)
  | msApprove (approver : Address) (proposalId : ℕ)
  | executeMultisigProposal (executor : Address) (proposalId : ℕ)
  -- voting power
  | takeVotePowerSnapshot (proposalId : ℕ) (voter voteToken : Address)
  | delegateVote (delegator delegatee : Address)
  | revokeDelegation (delegator : Address)
  -- councils
  | setMultisigConfig (caller : Address) (admins : List Address) (threshold : ℕ)
  | setMultisigAdmins (caller : Address) (admins : List Address)
  | setMultisigThreshold (caller : Address) (threshold : ℕ)
  | msSetAdmins (caller : Address) (admins : List Address) (threshold : ℕ)
  | addGuardian (caller guardian : Address)
  | removeGuardian (caller guardian : Address)
  | setGuardianThreshold (caller : Address) (threshold : ℕ)
  | startRecovery (initiator oldAdmin newAdmin : Address)
  | approveRecovery (approver : Address)
  | executeRecovery (executor : Address)
  | recovery (op : RecoveryOp)
  -- the rest of the contract
  | core (op : HelloWorld.Op)
  deriving DecidableEq

/-- A transaction: a call and what it finds around it. -/
structure Tx where
  env : HelloWorld.Env
  op : Op

/-- The ledger's clock never goes back. -/
def Clocked (txs : List Tx) : Prop :=
  txs.Pairwise fun tx tx' => tx.env.timestamp ≤ tx'.env.timestamp

instance (txs : List Tx) : Decidable (Clocked txs) := inferInstanceAs (Decidable (txs.Pairwise _))

/-- The store after a call of `recovery.rs` that succeeded. -/
def RecoveryOp.apply (op : RecoveryOp) (e : HelloWorld.Env) (s : Storage) : Option Storage :=
  match op with
  | .setGuardians caller guardians threshold =>
    commit (Recovery.setGuardians caller guardians threshold) e s
  | .addGuardian caller guardian => commit (Recovery.addGuardian caller guardian) e s
  | .removeGuardian caller guardian => commit (Recovery.removeGuardian caller guardian) e s
  | .setGuardianThreshold caller threshold =>
    commit (Recovery.setGuardianThreshold caller threshold) e s
  | .startRecovery initiator oldAdmin newAdmin =>
    commit (Recovery.startRecovery initiator oldAdmin newAdmin) e s
  | .approveRecovery approver => commit (Recovery.approveRecovery approver) e s
  | .executeRecovery executor => commit (Recovery.executeRecovery executor) e s

/-- A call of the rest of the contract.  The effect of a proposal is no call of its own: it is had
through governance only. -/
def coreStep (op : HelloWorld.Op) (e : HelloWorld.Env) (s : Storage) : Option Storage :=
  match op with
  | .govExecuteProposal _ _ => none
  | op => (op.apply e s.protocol).map fun t => { s with protocol := t }

/-- The store after a transaction that succeeded. -/
def step (tx : Tx) (s : Storage) : Option Storage :=
  match tx.op with
  | .govInitialize admin voteToken votingPeriod executionDelay quorumBps proposalThreshold
      timelockDuration defaultVotingThreshold =>
    commit (Governance.govInitialize admin voteToken votingPeriod executionDelay quorumBps
      proposalThreshold timelockDuration defaultVotingThreshold) tx.env s
  | .createProposal proposer proposalType description votingThreshold =>
    commit (Governance.createProposal proposer proposalType description votingThreshold) tx.env s
  | .createAdminProposal admin proposalType description =>
    commit (Governance.createAdminProposal admin proposalType description) tx.env s
  | .createEmergencyProposal caller proposalType description =>
    commit (Governance.createEmergencyProposal caller proposalType description) tx.env s
  | .proposeSetMinCollateralRatio proposer newRatio =>
    commit (Governance.proposeSetMinCollateralRatio proposer newRatio) tx.env s
  | .msProposeSetMinCr proposer newRatio =>
    commit (Governance.msProposeSetMinCr proposer newRatio) tx.env s
  | .vote voter id voteType => commit (Governance.vote voter id voteType) tx.env s
  | .queueProposal caller id => commit (Governance.queueProposal caller id) tx.env s
  | .simulateProposal id => commit (Governance.simulateProposal id) tx.env s
  | .executeProposal executor id => commit (Governance.executeProposal executor id) tx.env s
  | .msExecute executor id => commit (Governance.msExecute executor id) tx.env s
  | .cancelProposal caller id => commit (Governance.cancelProposal caller id) tx.env s
  | .approveProposal approver id => commit (Governance.approveProposal approver id) tx.env s
  | .msApprove approver id => commit (Governance.msApprove approver id) tx.env s
  | .executeMultisigProposal executor id =>
    commit (Governance.executeMultisigProposal executor id) tx.env s
  | .takeVotePowerSnapshot id voter voteToken =>
    commit (Governance.takeVotePowerSnapshot id voter voteToken) tx.env s
  | .delegateVote delegator delegatee =>
    commit (Governance.delegateVote delegator delegatee) tx.env s
  | .revokeDelegation delegator => commit (Governance.revokeDelegation delegator) tx.env s
  | .setMultisigConfig caller admins threshold =>
    commit (Governance.setMultisigConfig caller admins threshold) tx.env s
  | .setMultisigAdmins caller admins =>
    commit (Governance.setMultisigAdmins caller admins) tx.env s
  | .setMultisigThreshold caller threshold =>
    commit (Governance.setMultisigThreshold caller threshold) tx.env s
  | .msSetAdmins caller admins threshold =>
    commit (Governance.msSetAdmins caller admins threshold) tx.env s
  | .addGuardian caller guardian => commit (Governance.addGuardian caller guardian) tx.env s
  | .removeGuardian caller guardian =>
    commit (Governance.removeGuardian caller guardian) tx.env s
  | .setGuardianThreshold caller threshold =>
    commit (Governance.setGuardianThreshold caller threshold) tx.env s
  | .startRecovery initiator oldAdmin newAdmin =>
    commit (Governance.startRecovery initiator oldAdmin newAdmin) tx.env s
  | .approveRecovery approver => commit (Governance.approveRecovery approver) tx.env s
  | .executeRecovery executor => commit (Governance.executeRecovery executor) tx.env s
  | .recovery op => op.apply tx.env s
  | .core op => coreStep op tx.env s

/-- **The state of the contract after a sequence of transactions on a fresh deployment.** -/
def ledger (txs : List Tx) : Storage := run step Storage.empty txs

/-! ## Sample addresses

The parties of the concrete runs below. -/

namespace Sample

def admin : Address := ⟨0⟩
def alice : Address := ⟨1⟩
def bob : Address := ⟨2⟩
def token : Address := ⟨10⟩

/-- A call at a time, signed by one address, where `balance` says who holds the vote token. -/
def signed (balance : Address → ℤ) (now : ℕ) (a : Address) (op : Op) : Tx where
  env := { HelloWorld.Sample.envAt now [a] with balance := fun _ _ holder => some (balance holder) }
  op := op

/-- Everything is alice's. -/
def alices (a : Address) : ℤ := if a = alice then 100 else 0

/-- The default configuration. -/
def deploy : Tx :=
  signed alices 0 admin (.govInitialize admin token none none none none none none)

end Sample

end StellarLend.Governance
