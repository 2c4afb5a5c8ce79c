import StellarLend.Governance.Storage

/-!
# Governance/Proposals — making, voting on, queueing and executing proposals

    create_proposal ──▸ vote … ──▸ queue_proposal ──▸ execute_proposal
    create_admin_proposal ─────────────────────────▸ execute_proposal
    create_emergency_proposal ─────────────────────▸ execute_proposal
    create_proposal ──▸ approve_proposal … ────────▸ execute_multisig_proposal

Arithmetic is checked: what overflows traps.
-/

namespace StellarLend.Governance

open Foundations Call
open Lending (Address)

/-! ## Setup -/

/-- The source's `initialize`. -/
def govInitialize (admin voteToken : Address) (votingPeriod executionDelay quorumBps : Option ℕ)
    (proposalThreshold : Option ℤ) (timelockDuration : Option ℕ)
    (defaultVotingThreshold : Option ℤ) : Invocation Unit := do
  let current ← view Storage.admin
  failIf (current.isSome = true) .alreadyInitialized
  requireAuth admin
  let config : GovernanceConfig :=
    { votingPeriod := votingPeriod.getD DEFAULT_VOTING_PERIOD
      executionDelay := executionDelay.getD DEFAULT_EXECUTION_DELAY
      quorumBps := quorumBps.getD DEFAULT_QUORUM_BPS
      proposalThreshold := proposalThreshold.getD 0
      voteToken := voteToken
      timelockDuration := timelockDuration.getD DEFAULT_TIMELOCK_DURATION
      defaultVotingThreshold := defaultVotingThreshold.getD DEFAULT_VOTING_THRESHOLD }
  failIf (10000 < config.quorumBps) .invalidQuorum
  failIf (config.votingPeriod = 0) .invalidVotingPeriod
  store fun s =>
    { s with
      admin := some admin
      config := some config
      nextProposalId := some 0
      multisigConfig := some ⟨[admin], 1⟩
      guardianConfig := some ⟨[], 1⟩ }

/-! ## Creation -/

/-- The proposals created so far. -/
def nextId (s : Storage) : ℕ := s.nextProposalId.getD 0

/-- A proposal nobody has voted on. -/
def newProposal (id : ℕ) (proposer : Address) (proposalType : ProposalType) (description : String)
    (status : ProposalStatus) (now endTime : ℕ) (executionTime : Option ℕ) (votingThreshold : ℤ) :
    Proposal where
  id := id
  proposer := proposer
  proposalType := proposalType
  description := description
  status := status
  startTime := now
  endTime := endTime
  executionTime := executionTime
  votingThreshold := votingThreshold
  forVotes := 0
  againstVotes := 0
  abstainVotes := 0
  totalVotingPower := 0
  createdAt := now

/-- `set(NextProposalId, id + 1)`. -/
def advance (id : ℕ) : Invocation Unit := do
  let next ← orTrap (U64.checkedAdd id 1)
  store fun s => { s with nextProposalId := some next }

def createProposal (proposer : Address) (proposalType : ProposalType) (description : String)
    (votingThreshold : Option ℤ) : Invocation ℕ := do
  requireAuth proposer
  failIf (MAX_DESCRIPTION_LEN < description.utf8ByteSize) .inputTooLong
  let config ← getConfig
  onlyIf (0 < config.proposalThreshold) do
    let amount ← balance config.voteToken proposer
    failIf (amount < config.proposalThreshold) .insufficientProposalPower
  let id ← view nextId
  let now ← asks HelloWorld.Env.timestamp
  let endTime ← orTrap (U64.checkedAdd now config.votingPeriod)
  store (setProposal id
    (newProposal id proposer proposalType description .pending now endTime none
      (votingThreshold.getD config.defaultVotingThreshold)))
  store fun s =>
    { s with
      userProposals := Function.update s.userProposals proposer
        (Function.update (s.userProposals proposer) id (some true))
      proposalApprovals := Function.update s.proposalApprovals id (some []) }
  advance id
  pure id

def createAdminProposal (admin : Address) (proposalType : ProposalType) (description : String) :
    Invocation ℕ := do
  requireAuth admin
  failIf (MAX_DESCRIPTION_LEN < description.utf8ByteSize) .inputTooLong
  let storedAdmin ← getAdmin
  failIf (admin ≠ storedAdmin) .unauthorized
  let config ← getConfig
  let now ← asks HelloWorld.Env.timestamp
  let id ← view nextId
  let executionTime ← orTrap (U64.checkedAdd now (max config.executionDelay MIN_TIMELOCK_DELAY))
  store (setProposal id
    (newProposal id admin proposalType description .queued now now (some executionTime) 0))
  advance id
  pure id

/-- Queued at once and without delay, for any one multisig admin. -/
def createEmergencyProposal (caller : Address) (proposalType : ProposalType)
    (description : String) : Invocation ℕ := do
  requireAuth caller
  failIf (MAX_DESCRIPTION_LEN < description.utf8ByteSize) .inputTooLong
  let multisig ← getMultisigConfig
  failIf (caller ∉ multisig.admins) .unauthorized
  let now ← asks HelloWorld.Env.timestamp
  let id ← view nextId
  store (setProposal id
    (newProposal id caller proposalType description .queued now now (some now) 0))
  advance id
  pure id

def proposeSetMinCollateralRatio (proposer : Address) (newRatio : ℤ) : Invocation ℕ :=
  createProposal proposer (.minCollateralRatio newRatio) "Update min collateral ratio" none

/-! ## Delegated power -/

/-- `DelegationRecord(address)` read as a record. -/
def getDelegationRecord (a : Address) : Invocation (Option DelegationRecord) := do
  let entry ← view fun s => s.delegationRecord a
  match entry with
  | none => pure none
  | some (.record record) => pure (some record)
  | some (.delegators _) => orTrap none

/-- `DelegationRecord(address)` read as a list of delegators. -/
def getDelegators (a : Address) : Invocation (List Address) := do
  let entry ← view fun s => s.delegationRecord a
  match entry with
  | none => pure []
  | some (.delegators delegators) => pure delegators
  | some (.record _) => orTrap none

def takeVotePowerSnapshot (proposalId : ℕ) (voter voteToken : Address) : Invocation Unit := do
  let amount ← balance voteToken voter
  let now ← asks HelloWorld.Env.timestamp
  store fun s =>
    { s with
      votePowerSnapshot := Function.update s.votePowerSnapshot proposalId
        (Function.update (s.votePowerSnapshot proposalId) voter
          (some ⟨proposalId, voter, amount, now⟩)) }

/-- The snapshot, or the balance of the moment. -/
def getSnapshottedVotePower (proposalId : ℕ) (voter voteToken : Address) : Invocation ℤ := do
  let snapshot ← view fun s => s.votePowerSnapshot proposalId voter
  match snapshot with
  | some snapshot => pure snapshot.balance
  | none => balance voteToken voter

/-- What one delegator adds: a snapshot, if the delegation is in time and not to somebody else. -/
def delegatedPower (delegatee : Address) (deadline : ℕ) (record : Option DelegationRecord)
    (snapshot : Option VotePowerSnapshot) : ℤ :=
  match record, snapshot with
  | some record, some snapshot =>
    if record.delegatee = delegatee ∧ record.delegatedAt ≤ deadline then snapshot.balance else 0
  | _, _ => 0

/-- The loop of `get_delegated_power_for_voter`. -/
def sumDelegatedPower (proposalId : ℕ) (delegatee : Address) (deadline : ℕ) :
    List Address → ℤ → Invocation ℤ
  | [], total => pure total
  | delegator :: delegators, total => do
    let record ← getDelegationRecord delegator
    let snapshot ← view fun s => s.votePowerSnapshot proposalId delegator
    let total ← orTrap (I128.checkedAdd total (delegatedPower delegatee deadline record snapshot))
    sumDelegatedPower proposalId delegatee deadline delegators total

def getDelegatedPowerForVoter (proposalId : ℕ) (delegatee : Address) (proposal : Proposal) :
    Invocation ℤ := do
  let delegators ← getDelegators delegatee
  sumDelegatedPower proposalId delegatee (proposal.createdAt - DELEGATION_DEADLINE) delegators 0

def getVotePowerWithDelegation (proposalId : ℕ) (voter voteToken : Address) : Invocation ℤ := do
  let proposal ← getProposal proposalId
  let ownPower ← getSnapshottedVotePower proposalId voter voteToken
  let delegatedExtra ← getDelegatedPowerForVoter proposalId voter proposal
  orTrap (I128.checkedAdd ownPower delegatedExtra)

/-! ## Delegation -/

def isVoteLocked (now : ℕ) (s : Storage) (voter : Address) : Bool :=
  match s.voteLock voter with
  | some lock => decide (now < lock.lockedUntil)
  | none => false

def getDelegationDepth (a : Address) : Invocation ℕ := do
  let record ← getDelegationRecord a
  pure (record.elim 0 DelegationRecord.depth)

/-- `persistent().set(DelegationRecord(address), entry)`. -/
def setDelegation (a : Address) (entry : Option DelegationEntry) (s : Storage) : Storage :=
  { s with delegationRecord := Function.update s.delegationRecord a entry }

def delegateVote (delegator delegatee : Address) : Invocation Unit := do
  requireAuth delegator
  failIf (delegator = delegatee) .selfDelegation
  let now ← asks HelloWorld.Env.timestamp
  let locked ← view fun s => isVoteLocked now s delegator
  failIf (locked = true) .votesLocked
  let current ← view fun s => s.delegationRecord delegator
  failIf (current.isSome = true) .alreadyDelegated
  let depth ← getDelegationDepth delegatee
  failIf (MAX_DELEGATION_DEPTH ≤ depth) .delegationDepthExceeded
  store (setDelegation delegator (some (.record ⟨delegator, delegatee, now, depth + 1⟩)))
  let delegators ← getDelegators delegatee
  store (setDelegation delegatee (some (.delegators (delegators ++ [delegator]))))

def revokeDelegation (delegator : Address) : Invocation Unit := do
  requireAuth delegator
  let stored ← getDelegationRecord delegator
  let record ← okOr stored .notInitialized
  let delegators ← getDelegators record.delegatee
  store (setDelegation record.delegatee (some (.delegators (delegators.filter (· ≠ delegator)))))
  store (setDelegation delegator none)

/-! ## Voting -/

/-- A pending proposal becomes active once its time has come. -/
def Proposal.opened (p : Proposal) (now : ℕ) : Proposal :=
  if p.status = .pending ∧ p.startTime ≤ now then { p with status := .active } else p

/-- The proposal with a vote on one side. -/
def Proposal.siding (p : Proposal) (power : ℤ) : VoteType → Option Proposal
  | .for_ => (I128.checkedAdd p.forVotes power).map fun v => { p with forVotes := v }
  | .against => (I128.checkedAdd p.againstVotes power).map fun v => { p with againstVotes := v }
  | .abstain => (I128.checkedAdd p.abstainVotes power).map fun v => { p with abstainVotes := v }

/-- The proposal with a vote counted. -/
def Proposal.counting (p : Proposal) (voteType : VoteType) (power : ℤ) : Option Proposal := do
  let voted ← p.siding power voteType
  let total ← I128.checkedAdd p.totalVotingPower power
  pure { voted with totalVotingPower := total }

/-- The delegated power is worked out, and the balance of the moment is counted. -/
def vote (voter : Address) (proposalId : ℕ) (voteType : VoteType) : Invocation Unit := do
  requireAuth voter
  let config ← getConfig
  let stored ← getProposal proposalId
  let now ← asks HelloWorld.Env.timestamp
  let proposal := stored.opened now
  failIf (proposal.status ≠ .active) .proposalNotActive
  let current ← view fun s => s.vote proposalId voter
  failIf (current.isSome = true) .alreadyVoted
  let _ ← getVotePowerWithDelegation proposalId voter config.voteToken
  let votingPower ← balance config.voteToken voter
  failIf (votingPower = 0) .noVotingPower
  let counted ← orTrap (proposal.counting voteType votingPower)
  store (setProposal proposalId counted)
  store fun s =>
    { s with
      vote := Function.update s.vote proposalId
        (Function.update (s.vote proposalId) voter
          (some ⟨voter, proposalId, voteType, votingPower, now⟩)) }

/-! ## The count -/

/-- What the votes come to. -/
structure Tally where
  quorumRequired : ℤ
  quorumReached : Bool
  thresholdVotes : ℤ
  thresholdMet : Bool
  deriving DecidableEq, Repr

def Tally.succeeded (t : Tally) : Bool := t.quorumReached && t.thresholdMet

/-- The arithmetic `queue_proposal` and `compute_simulation` share. -/
def Proposal.tally (p : Proposal) (config : GovernanceConfig) : Option Tally := do
  let sides ← I128.checkedAdd p.forVotes p.againstVotes
  let totalVotes ← I128.checkedAdd sides p.abstainVotes
  let quorum ← I128.checkedMul totalVotes config.quorumBps
  let threshold ← I128.checkedMul p.totalVotingPower p.votingThreshold
  let quorumRequired := quorum.tdiv BASIS_POINTS_SCALE
  let thresholdVotes := threshold.tdiv BASIS_POINTS_SCALE
  pure
    { quorumRequired := quorumRequired
      quorumReached := decide (quorumRequired ≤ totalVotes)
      thresholdVotes := thresholdVotes
      thresholdMet := decide (thresholdVotes ≤ p.forVotes) }

/-- The statuses `queue_proposal` turns away. -/
def ProposalStatus.queueable : ProposalStatus → Bool
  | .executed | .cancelled | .expired | .queued => false
  | _ => true

def outcomeOf (proposalId : ℕ) (p : Proposal) (t : Tally) : ProposalOutcome where
  proposalId := proposalId
  succeeded := t.succeeded
  forVotes := p.forVotes
  againstVotes := p.againstVotes
  abstainVotes := p.abstainVotes
  quorumReached := t.quorumReached
  quorumRequired := t.quorumRequired

/-- The proposal is queued or defeated. -/
def recordOutcome (proposalId now : ℕ) (config : GovernanceConfig) (p : Proposal) (t : Tally) :
    Invocation Unit :=
  if t.succeeded = true then do
    let executionTime ← orTrap (U64.checkedAdd now config.executionDelay)
    store (setProposal proposalId { p with executionTime := some executionTime, status := .queued })
  else store (setProposal proposalId { p with status := .defeated })

/-- A proposal that comes too late is marked expired, and the error takes the mark back. -/
def queueProposal (caller : Address) (proposalId : ℕ) : Invocation ProposalOutcome := do
  requireAuth caller
  let config ← getConfig
  let proposal ← getProposal proposalId
  let now ← asks HelloWorld.Env.timestamp
  failIf (now ≤ proposal.endTime) .votingNotEnded
  failIf (proposal.status.queueable = false) .invalidProposalStatus
  let limit ← orTrap (U64.checkedAdd proposal.endTime DEFAULT_TIMELOCK_DURATION)
  onlyIf (limit < now) do
    store (setProposal proposalId { proposal with status := .expired })
    fail .proposalExpired
  let tally ← orTrap (proposal.tally config)
  recordOutcome proposalId now config proposal tally
  pure (outcomeOf proposalId proposal tally)

def computeSimulation (now : ℕ) (p : Proposal) (config : GovernanceConfig) :
    Option ProposalSimulationResult := do
  let tally ← p.tally config
  pure
    { proposalId := p.id
      now := now
      wouldSucceed := tally.succeeded
      quorumRequired := tally.quorumRequired
      quorumReached := tally.quorumReached
      thresholdVotes := tally.thresholdVotes
      thresholdMet := tally.thresholdMet
      forVotes := p.forVotes
      againstVotes := p.againstVotes
      abstainVotes := p.abstainVotes
      totalVotingPower := p.totalVotingPower
      note :=
        if tally.succeeded = true then "simulation: would succeed with current votes"
        else "simulation: would fail with current votes" }

def simulateProposal (proposalId : ℕ) : Invocation ProposalSimulationResult := do
  let config ← getConfig
  let proposal ← getProposal proposalId
  let now ← asks HelloWorld.Env.timestamp
  let result ← orTrap (computeSimulation now proposal config)
  store fun s =>
    { s with proposalSimulationCache :=
        Function.update s.proposalSimulationCache proposalId (some result) }
  pure result

/-! ## Execution -/

/-- What a proposal does to the rest of the contract, in the name of the admin of governance. -/
def executeProposalType : ProposalType → Invocation Unit
  | .minCollateralRatio ratio => effect (HelloWorld.setRiskParams (some ratio) none none none)
  | .riskParams mcr lt cf li => effect (HelloWorld.setRiskParams mcr lt cf li)
  | .interestRateConfig params => do
    let admin ← getAdmin
    effect (HelloWorld.updateInterestRateConfig admin params.baseRateBps params.kinkUtilizationBps
      params.multiplierBps params.jumpMultiplierBps params.rateFloorBps params.rateCeilingBps
      params.spreadBps)
  | .pauseSwitch operation paused => do
    let admin ← getAdmin
    effect (HelloWorld.setPauseSwitch admin operation paused)
  | .emergencyPause paused => do
    let admin ← getAdmin
    effect (HelloWorld.setEmergencyPause admin paused)
  | .genericAction _ => fail .invalidProposalType

def executeProposal (executor : Address) (proposalId : ℕ) : Invocation Unit := do
  requireAuth executor
  let config ← getConfig
  let proposal ← getProposal proposalId
  let now ← asks HelloWorld.Env.timestamp
  failIf (proposal.status ≠ .queued) .notQueued
  let executionTime ← okOr proposal.executionTime .invalidExecutionTime
  failIf (now < executionTime) .executionTooEarly
  let limit ← orTrap (U64.checkedAdd executionTime config.timelockDuration)
  onlyIf (limit < now) do
    store (setProposal proposalId { proposal with status := .expired })
    fail .proposalExpired
  executeProposalType proposal.proposalType
  store (setProposal proposalId { proposal with status := .executed })

/-- Proposer and admin may cancel what is neither executed nor queued. -/
def cancelProposal (caller : Address) (proposalId : ℕ) : Invocation Unit := do
  requireAuth caller
  let admin ← getAdmin
  let proposal ← getProposal proposalId
  failIf (caller ≠ proposal.proposer ∧ caller ≠ admin) .unauthorized
  failIf (proposal.status = .executed ∨ proposal.status = .queued) .invalidProposalStatus
  store (setProposal proposalId { proposal with status := .cancelled })

/-! ## Approval -/

/-- The approvals on record for a proposal. -/
def approvalsOf (s : Storage) (proposalId : ℕ) : List Address :=
  (s.proposalApprovals proposalId).getD []

def approveProposal (approver : Address) (proposalId : ℕ) : Invocation Unit := do
  requireAuth approver
  let multisig ← getMultisigConfig
  failIf (approver ∉ multisig.admins) .unauthorized
  let stored ← view fun s => s.proposal proposalId
  failIf (stored = none) .proposalNotFound
  let approvals ← view fun s => approvalsOf s proposalId
  failIf (approver ∈ approvals) .alreadyVoted
  store fun s =>
    { s with proposalApprovals :=
        Function.update s.proposalApprovals proposalId (some (approvals ++ [approver])) }

/-- Approvals are counted, whoever gave them. -/
def executeMultisigProposal (executor : Address) (proposalId : ℕ) : Invocation Unit := do
  requireAuth executor
  let multisig ← getMultisigConfig
  failIf (executor ∉ multisig.admins) .unauthorized
  let proposal ← getProposal proposalId
  failIf (proposal.status ≠ .pending) .invalidProposalStatus
  let approvals ← view fun s => approvalsOf s proposalId
  failIf (approvals.length < multisig.threshold) .insufficientApprovals
  executeProposalType proposal.proposalType
  store (setProposal proposalId { proposal with status := .executed })

end StellarLend.Governance
