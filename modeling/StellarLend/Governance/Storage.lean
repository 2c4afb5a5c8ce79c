import StellarLend.HelloWorld.Contract

/-!
# Governance/Storage — what governance stores

The keys of governance live in the core contract's store, next to the protocol they govern.  Two
modules keep councils there: `governance.rs` the multisig admins and the guardians, `recovery.rs` a
second pair under keys of its own.  The request for a recovery and its approvals are one pair of
keys that both modules use.
-/

namespace StellarLend.Governance

open Foundations Call
open Lending (Address)

/-! ## Errors -/

/-- The errors of the module. -/
inductive GovernanceError where
  | proposalNotFound
  | proposalNotActive
  | alreadyVoted
  | noVotingPower
  | insufficientProposalPower
  | votingNotEnded
  | invalidProposalStatus
  | proposalExpired
  | notQueued
  | invalidExecutionTime
  | executionTooEarly
  | invalidQuorum
  | invalidVotingPeriod
  | executionFailed
  | invalidMultisigConfig
  | insufficientApprovals
  | invalidProposalType
  | guardianAlreadyExists
  | guardianNotFound
  | invalidGuardianConfig
  | recoveryInProgress
  | noRecoveryInProgress
  | unauthorized
  | alreadyInitialized
  | notInitialized
  | invalidProposal
  | inputTooLong
  | selfDelegation
  | votesLocked
  | alreadyDelegated
  | delegationDepthExceeded
  deriving DecidableEq, Repr

/-! ## Constants -/

def BASIS_POINTS_SCALE : ℤ := 10000
def DEFAULT_VOTING_PERIOD : ℕ := 7 * 24 * 60 * 60
def DEFAULT_EXECUTION_DELAY : ℕ := 2 * 24 * 60 * 60
def DEFAULT_QUORUM_BPS : ℕ := 4000
def DEFAULT_VOTING_THRESHOLD : ℤ := 5000
def DEFAULT_TIMELOCK_DURATION : ℕ := 7 * 24 * 60 * 60
def DEFAULT_RECOVERY_PERIOD : ℕ := 3 * 24 * 60 * 60
def MIN_TIMELOCK_DELAY : ℕ := 24 * 60 * 60
def DELEGATION_DEADLINE : ℕ := 24 * 60 * 60
def MAX_DELEGATION_DEPTH : ℕ := 3

/-- The longest description, in bytes. -/
def MAX_DESCRIPTION_LEN : ℕ := 256

/-! ## Proposals -/

/-- Where a proposal stands. -/
inductive ProposalStatus where
  | pending
  | active
  | succeeded
  | defeated
  | expired
  | queued
  | executed
  | cancelled
  deriving DecidableEq, Repr

/-- What a vote says. -/
inductive VoteType where
  | for_
  | against
  | abstain
  deriving DecidableEq, Repr

/-- The interest parameters that a proposal changes. -/
structure InterestRateParams where
  baseRateBps : Option ℤ
  kinkUtilizationBps : Option ℤ
  multiplierBps : Option ℤ
  jumpMultiplierBps : Option ℤ
  rateFloorBps : Option ℤ
  rateCeilingBps : Option ℤ
  spreadBps : Option ℤ
  deriving DecidableEq, Repr

/-- A call that a proposal makes elsewhere. -/
structure Action where
  target : Address
  method : String
  args : List (List UInt8)
  value : ℤ
  deriving DecidableEq, Repr

/-- What a proposal is about. -/
inductive ProposalType where
  | minCollateralRatio (ratio : ℤ)
  | riskParams (mcr lt cf li : Option ℤ)
  | pauseSwitch (operation : String) (paused : Bool)
  | emergencyPause (paused : Bool)
  | genericAction (action : Action)
  | interestRateConfig (params : InterestRateParams)
  deriving DecidableEq, Repr

/-- A proposal and its votes. -/
structure Proposal where
  id : ℕ
  proposer : Address
  proposalType : ProposalType
  description : String
  status : ProposalStatus
  startTime : ℕ
  endTime : ℕ
  executionTime : Option ℕ
  /-- In basis points. -/
  votingThreshold : ℤ
  forVotes : ℤ
  againstVotes : ℤ
  abstainVotes : ℤ
  totalVotingPower : ℤ
  createdAt : ℕ
  deriving DecidableEq, Repr

/-- One vote. -/
structure VoteInfo where
  voter : Address
  proposalId : ℕ
  voteType : VoteType
  votingPower : ℤ
  timestamp : ℕ
  deriving DecidableEq, Repr

/-- The count that queueing makes. -/
structure ProposalOutcome where
  proposalId : ℕ
  succeeded : Bool
  forVotes : ℤ
  againstVotes : ℤ
  abstainVotes : ℤ
  quorumReached : Bool
  quorumRequired : ℤ
  deriving DecidableEq, Repr

/-- The count that a simulation makes. -/
structure ProposalSimulationResult where
  proposalId : ℕ
  now : ℕ
  wouldSucceed : Bool
  quorumRequired : ℤ
  quorumReached : Bool
  thresholdVotes : ℤ
  thresholdMet : Bool
  forVotes : ℤ
  againstVotes : ℤ
  abstainVotes : ℤ
  totalVotingPower : ℤ
  note : String
  deriving DecidableEq, Repr

/-- The rules of the votes. -/
structure GovernanceConfig where
  votingPeriod : ℕ
  executionDelay : ℕ
  quorumBps : ℕ
  proposalThreshold : ℤ
  voteToken : Address
  timelockDuration : ℕ
  defaultVotingThreshold : ℤ
  deriving DecidableEq, Repr

/-! ## Voting power -/

/-- A voter's balance when the snapshot was taken. -/
structure VotePowerSnapshot where
  proposalId : ℕ
  voter : Address
  balance : ℤ
  snapshotTime : ℕ
  deriving DecidableEq, Repr

/-- The tokens that a vote locks. -/
structure VoteLock where
  voter : Address
  lockedUntil : ℕ
  lockedAmount : ℤ
  proposalId : ℕ
  deriving DecidableEq, Repr

/-- To whom an address delegates. -/
structure DelegationRecord where
  delegator : Address
  delegatee : Address
  delegatedAt : ℕ
  depth : ℕ
  deriving DecidableEq, Repr

/-- What `DelegationRecord(address)` holds: where the address delegates to, or who delegates to it.
The two share the key, and reading one as the other traps. -/
inductive DelegationEntry where
  | record (record : DelegationRecord)
  | delegators (delegators : List Address)
  deriving DecidableEq, Repr

/-! ## Councils -/

/-- The multisig admins, and how many must approve. -/
structure MultisigConfig where
  admins : List Address
  threshold : ℕ
  deriving DecidableEq, Repr

/-- The guardians, and how many must approve. -/
structure GuardianConfig where
  guardians : List Address
  threshold : ℕ
  deriving DecidableEq, Repr

/-- An open recovery. -/
structure RecoveryRequest where
  oldAdmin : Address
  newAdmin : Address
  initiator : Address
  initiatedAt : ℕ
  expiresAt : ℕ
  deriving DecidableEq, Repr

/-! ## The store -/

structure Storage where
  admin : Option Address
  config : Option GovernanceConfig
  nextProposalId : Option ℕ
  multisigConfig : Option MultisigConfig
  guardianConfig : Option GuardianConfig
  /-- `MultisigAdmins`, `Guardians` and `GuardianThreshold`: the councils of `recovery.rs`. -/
  multisigAdmins : Option (List Address)
  guardians : Option (List Address)
  guardianThreshold : Option ℕ
  proposal : ℕ → Option Proposal
  vote : ℕ → Address → Option VoteInfo
  votePowerSnapshot : ℕ → Address → Option VotePowerSnapshot
  voteLock : Address → Option VoteLock
  delegationRecord : Address → Option DelegationEntry
  proposalApprovals : ℕ → Option (List Address)
  userProposals : Address → ℕ → Option Bool
  proposalSimulationCache : ℕ → Option ProposalSimulationResult
  recoveryRequest : Option RecoveryRequest
  recoveryApprovals : Option (List Address)
  /-- The keys of the rest of the contract. -/
  protocol : HelloWorld.Storage

/-- A freshly deployed contract. -/
def Storage.empty : Storage where
  admin := none
  config := none
  nextProposalId := none
  multisigConfig := none
  guardianConfig := none
  multisigAdmins := none
  guardians := none
  guardianThreshold := none
  proposal := fun _ => none
  vote := fun _ _ => none
  votePowerSnapshot := fun _ _ => none
  voteLock := fun _ => none
  delegationRecord := fun _ => none
  proposalApprovals := fun _ => none
  userProposals := fun _ _ => none
  proposalSimulationCache := fun _ => none
  recoveryRequest := none
  recoveryApprovals := none
  protocol := HelloWorld.Storage.empty

/-- An invocation of governance, or a part of one. -/
abbrev Invocation (α : Type) : Type := Call HelloWorld.Env Storage GovernanceError α

/-- `address.require_auth()`. -/
abbrev requireAuth (a : Address) : Invocation Unit := Call.requireAuth HelloWorld.Env.auths a

/-- `address.require_auth()` where this frame has asked the address before. -/
abbrev requireAuthAgain (a : Address) : Invocation Unit :=
  Call.requireAuthAgain HelloWorld.Env.auths a

/-- Run a part of the rest of the contract; any error of it is a failed execution. -/
def effect {ε : Type} (x : HelloWorld.Invocation ε Unit) : Invocation Unit :=
  zoom id Storage.protocol (fun t s => { s with protocol := t })
    (mapErr (fun _ => .executionFailed) x)

@[simp] theorem effect_ok {ε : Type} {x : HelloWorld.Invocation ε Unit} {e : HelloWorld.Env}
    {s s' : Storage} {u : Unit} :
    effect x e s = .ok u s' ↔
      ∃ t, x e s.protocol = .ok u t ∧ { s with protocol := t } = s' := by
  simp [effect]

/-- `TokenClient::new(env, token).balance(holder)`. -/
def balance (token holder : Address) : Invocation ℤ := do
  let answer ← look fun e s => e.balance s.protocol.transfers token holder
  orTrap answer

@[simp] theorem balance_ok {token holder : Address} {e : HelloWorld.Env} {s s' : Storage}
    {amount : ℤ} : balance token holder e s = .ok amount s' ↔
      e.balance s.protocol.transfers token holder = some amount ∧ s = s' := by
  simp [balance]

@[simp ↓] theorem balance_seq {token holder : Address} {e : HelloWorld.Env} {s s' : Storage}
    {β : Type} {b : β} {g : ℤ → Invocation β} :
    (balance token holder >>= g) e s = .ok b s' ↔
      ∃ amount,
      e.balance s.protocol.transfers token holder = some amount ∧ g amount e s = .ok b s' :=
  read_seq fun _ _ => balance_ok

/-! ## Reading -/

/-- `get(Config)`, or `NotInitialized`. -/
def getConfig : Invocation GovernanceConfig := do
  let stored ← view Storage.config
  okOr stored .notInitialized

/-- `get(Admin)`, or `NotInitialized`. -/
def getAdmin : Invocation Address := do
  let stored ← view Storage.admin
  okOr stored .notInitialized

/-- `get_multisig_config`, or `NotInitialized`. -/
def getMultisigConfig : Invocation MultisigConfig := do
  let stored ← view Storage.multisigConfig
  okOr stored .notInitialized

def getProposal (proposalId : ℕ) : Invocation Proposal := do
  let stored ← view fun s => s.proposal proposalId
  okOr stored .proposalNotFound

/-- `persistent().set(Proposal(proposal_id), proposal)`. -/
def setProposal (proposalId : ℕ) (proposal : Proposal) (s : Storage) : Storage :=
  { s with proposal := Function.update s.proposal proposalId (some proposal) }

variable {e : HelloWorld.Env} {s s' : Storage}

@[simp] theorem getConfig_ok {c : GovernanceConfig} :
    getConfig e s = .ok c s' ↔ s.config = some c ∧ s = s' := by simp [getConfig]

@[simp ↓] theorem getConfig_seq {β : Type} {b : β} {g : GovernanceConfig → Invocation β} :
    (getConfig >>= g) e s = .ok b s' ↔ ∃ c, s.config = some c ∧ g c e s = .ok b s' :=
  read_seq fun _ _ => getConfig_ok

@[simp] theorem getAdmin_ok {a : Address} :
    getAdmin e s = .ok a s' ↔ s.admin = some a ∧ s = s' := by simp [getAdmin]

@[simp] theorem getMultisigConfig_ok {m : MultisigConfig} :
    getMultisigConfig e s = .ok m s' ↔ s.multisigConfig = some m ∧ s = s' := by
  simp [getMultisigConfig]

@[simp ↓] theorem getMultisigConfig_seq {β : Type} {b : β} {g : MultisigConfig → Invocation β} :
    (getMultisigConfig >>= g) e s = .ok b s' ↔
      ∃ m, s.multisigConfig = some m ∧ g m e s = .ok b s' :=
  read_seq fun _ _ => getMultisigConfig_ok

@[simp] theorem getProposal_ok {id : ℕ} {p : Proposal} :
    getProposal id e s = .ok p s' ↔ s.proposal id = some p ∧ s = s' := by simp [getProposal]

@[simp ↓] theorem getProposal_seq {id : ℕ} {β : Type} {b : β} {g : Proposal → Invocation β} :
    (getProposal id >>= g) e s = .ok b s' ↔ ∃ p, s.proposal id = some p ∧ g p e s = .ok b s' :=
  read_seq fun _ _ => getProposal_ok

end StellarLend.Governance
