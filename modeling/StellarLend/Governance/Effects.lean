import StellarLend.Governance.Contract

/-!
# Governance/Effects — what each call does

A call that succeeds is read off as the conditions it passed and the store it leaves.  `step_effect`
collects them by call; calls of one kind have one effect.
-/

namespace StellarLend.Governance

open Foundations Call Function
open Lending (Address)

variable {e : HelloWorld.Env} {s s' : Storage} {id : ℕ} {c : GovernanceConfig} {p : Proposal}
  {u : Unit} {caller : Address}

/-! ## Setup -/

/-- The configuration of a deployment. -/
def configOf (voteToken : Address) (votingPeriod executionDelay quorumBps : Option ℕ)
    (proposalThreshold : Option ℤ) (timelockDuration : Option ℕ)
    (defaultVotingThreshold : Option ℤ) : GovernanceConfig where
  votingPeriod := votingPeriod.getD DEFAULT_VOTING_PERIOD
  executionDelay := executionDelay.getD DEFAULT_EXECUTION_DELAY
  quorumBps := quorumBps.getD DEFAULT_QUORUM_BPS
  proposalThreshold := proposalThreshold.getD 0
  voteToken := voteToken
  timelockDuration := timelockDuration.getD DEFAULT_TIMELOCK_DURATION
  defaultVotingThreshold := defaultVotingThreshold.getD DEFAULT_VOTING_THRESHOLD

/-- The module is set up, once. -/
structure SetUp (s : Storage) (admin : Address) (c : GovernanceConfig) (s' : Storage) : Prop where
  fresh : s.admin = none
  quorum : c.quorumBps ≤ 10000
  period : 0 < c.votingPeriod
  after : s' = { s with
    admin := some admin
    config := some c
    nextProposalId := some 0
    multisigConfig := some ⟨[admin], 1⟩
    guardianConfig := some ⟨[], 1⟩ }

theorem govInitialize_effect {admin token : Address} {period delay quorum lock : Option ℕ}
    {minimum threshold : Option ℤ}
    (h : govInitialize admin token period delay quorum minimum lock threshold e s = .ok u s') :
    SetUp s admin (configOf token period delay quorum minimum lock threshold) s' := by
  simp only [govInitialize, view_seq, failIf_seq, requireAuth_seq, store_ok] at h
  obtain ⟨hfresh, -, hquorum, hperiod, rfl⟩ := h
  exact ⟨by simpa using hfresh, not_lt.mp hquorum, Nat.pos_of_ne_zero hperiod, rfl⟩

/-! ## Creation -/

@[simp] theorem advance_ok :
    advance id e s = .ok u s' ↔
      id + 1 ≤ U64.MAX ∧ { s with nextProposalId := some (id + 1) } = s' := by
  simp [advance]

/-- The proposal `create_proposal` makes. -/
def proposalOf (s : Storage) (now : ℕ) (c : GovernanceConfig) (proposer : Address)
    (proposalType : ProposalType) (description : String) (votingThreshold : Option ℤ) : Proposal :=
  newProposal (nextId s) proposer proposalType description .pending now (now + c.votingPeriod) none
    (votingThreshold.getD c.defaultVotingThreshold)

/-- The store with a proposal put to the vote. -/
def withProposal (s : Storage) (p : Proposal) : Storage :=
  { setProposal (nextId s) p s with
    userProposals := update s.userProposals p.proposer
      (update (s.userProposals p.proposer) (nextId s) (some true))
    proposalApprovals := update s.proposalApprovals (nextId s) (some [])
    nextProposalId := some (nextId s + 1) }

/-- A proposal is made, to be voted on. -/
structure Created (e : HelloWorld.Env) (s : Storage) (proposer : Address)
    (proposalType : ProposalType) (description : String) (votingThreshold : Option ℤ)
    (c : GovernanceConfig) (s' : Storage) : Prop where
  config_eq : s.config = some c
  after : s' = withProposal s
    (proposalOf s e.timestamp c proposer proposalType description votingThreshold)

theorem createProposal_effect {proposer : Address} {proposalType : ProposalType}
    {description : String} {threshold : Option ℤ}
    (h : createProposal proposer proposalType description threshold e s = .ok id s') :
    id = nextId s ∧ ∃ c, Created e s proposer proposalType description threshold c s' := by
  simp only [createProposal, bind_ok, requireAuth_ok, ↓failIf_seq, failIf_ok, ↓getConfig_seq,
    onlyIf_ok, ↓view_seq, ↓asks_seq, ↓orTrap_seq, U64.checkedAdd_eq_some, ↓store_seq, advance_ok,
    ↓balance_seq, pure_ok, and_assoc, exists_and_left, exists_eq_left', exists_const] at h
  obtain ⟨-, -, c, hconfig, t, hpower, hfree, -, -, rfl, rfl⟩ := h
  obtain rfl : s = t := by
    by_cases hneeded : 0 < c.proposalThreshold
    · obtain ⟨_, -, -, rfl⟩ := hpower hneeded
      rfl
    · exact hfree hneeded
  exact ⟨rfl, c, hconfig, rfl⟩

/-- The store with a proposal queued as it is made. -/
def withQueued (s : Storage) (p : Proposal) : Storage :=
  { setProposal (nextId s) p s with nextProposalId := some (nextId s + 1) }

/-- A proposal queued as it is made. -/
def queuedProposal (s : Storage) (now executionTime : ℕ) (proposer : Address)
    (proposalType : ProposalType) (description : String) : Proposal :=
  newProposal (nextId s) proposer proposalType description .queued now now (some executionTime) 0

/-- The admin makes a proposal, queued at once. -/
structure AdminCreated (e : HelloWorld.Env) (s : Storage) (admin : Address)
    (proposalType : ProposalType) (description : String) (c : GovernanceConfig) (s' : Storage) :
    Prop where
  admin_eq : s.admin = some admin
  config_eq : s.config = some c
  after : s' = withQueued s (queuedProposal s e.timestamp
    (e.timestamp + max c.executionDelay MIN_TIMELOCK_DELAY) admin proposalType description)

theorem createAdminProposal_effect {admin : Address} {proposalType : ProposalType}
    {description : String}
    (h : createAdminProposal admin proposalType description e s = .ok id s') :
    ∃ c, AdminCreated e s admin proposalType description c s' := by
  simp only [createAdminProposal, bind_ok, requireAuth_ok, ↓failIf_seq, getAdmin_ok, ↓getConfig_seq,
    ↓asks_seq, ↓view_seq, ↓orTrap_seq, U64.checkedAdd_eq_some, ↓store_seq, advance_ok, pure_ok,
    not_not, and_assoc, exists_and_left, exists_eq_left', exists_const] at h
  obtain ⟨-, -, _, hadmin, rfl, c, hconfig, -, -, rfl, rfl⟩ := h
  exact ⟨c, hadmin, hconfig, rfl⟩

/-- A multisig admin makes a proposal, due at once. -/
structure EmergencyCreated (e : HelloWorld.Env) (s : Storage) (caller : Address)
    (proposalType : ProposalType) (description : String) (m : MultisigConfig) (s' : Storage) :
    Prop where
  multisig_eq : s.multisigConfig = some m
  member : caller ∈ m.admins
  after : s' = withQueued s
    (queuedProposal s e.timestamp e.timestamp caller proposalType description)

theorem createEmergencyProposal_effect {proposalType : ProposalType} {description : String}
    (h : createEmergencyProposal caller proposalType description e s = .ok id s') :
    ∃ m, EmergencyCreated e s caller proposalType description m s' := by
  simp only [createEmergencyProposal, bind_ok, requireAuth_ok, ↓failIf_seq, ↓getMultisigConfig_seq,
    ↓asks_seq, ↓view_seq, ↓store_seq, advance_ok, pure_ok, not_not, and_assoc, exists_and_left,
    exists_eq_left', exists_const] at h
  obtain ⟨-, -, m, hmultisig, hmember, -, rfl, rfl⟩ := h
  exact ⟨m, hmultisig, hmember, rfl⟩

/-! ## Delegated power -/

/-- The key is absent or holds a record. -/
@[simp] theorem getDelegationRecord_ok {a : Address} {record : Option DelegationRecord} :
    getDelegationRecord a e s = .ok record s' ↔
      s.delegationRecord a = record.map .record ∧ s = s' := by
  simp only [getDelegationRecord, bind_ok, view_ok]
  constructor
  · rintro ⟨entry, _, ⟨hentry, rfl⟩, hread⟩
    rcases entry with _ | record | delegators <;> simp_all
  · rintro ⟨hentry, rfl⟩
    refine ⟨_, s, ⟨hentry, rfl⟩, ?_⟩
    rcases record with _ | record <;> simp

/-- The key is absent or holds a list. -/
@[simp] theorem getDelegators_ok {a : Address} {delegators : List Address} :
    getDelegators a e s = .ok delegators s' ↔
      (s.delegationRecord a = none ∧ delegators = [] ∨
        s.delegationRecord a = some (.delegators delegators)) ∧ s = s' := by
  simp only [getDelegators, bind_ok, view_ok]
  constructor
  · rintro ⟨entry, _, ⟨hentry, rfl⟩, hread⟩
    rcases entry with _ | record | delegators <;> simp_all
  · rintro ⟨hentry | hentry, rfl⟩
    · exact ⟨_, s, ⟨hentry.1, rfl⟩, by simp [hentry.2]⟩
    · exact ⟨_, s, ⟨hentry, rfl⟩, by simp⟩

theorem sumDelegatedPower_reads {delegatee : Address} {deadline : ℕ} {delegators : List Address}
    {total power : ℤ}
    (h : sumDelegatedPower id delegatee deadline delegators total e s = .ok power s') : s = s' := by
  induction delegators generalizing total with
  | nil => exact (pure_ok.mp h).2
  | cons delegator delegators ih =>
    simp only [sumDelegatedPower, bind_ok, getDelegationRecord_ok, view_ok, orTrap_ok] at h
    obtain ⟨_, _, ⟨-, rfl⟩, _, _, ⟨-, rfl⟩, _, _, ⟨-, rfl⟩, hrest⟩ := h
    exact ih hrest

/-- Working out the delegated power writes nothing. -/
theorem getVotePowerWithDelegation_reads {voter token : Address} {power : ℤ}
    (h : getVotePowerWithDelegation id voter token e s = .ok power s') : s = s' := by
  simp only [getVotePowerWithDelegation, getSnapshottedVotePower, getDelegatedPowerForVoter,
    bind_ok, getProposal_ok, view_ok, getDelegators_ok, orTrap_ok] at h
  obtain ⟨_, _, ⟨-, rfl⟩, _, t, ⟨snapshot, _, ⟨-, rfl⟩, hown⟩, _, _, ⟨_, _, ⟨-, rfl⟩, hsum⟩, -,
    rfl⟩ := h
  obtain rfl : s = t := by
    rcases snapshot with _ | snapshot
    · exact (balance_ok.mp hown).2
    · exact (pure_ok.mp hown).2
  exact sumDelegatedPower_reads hsum

/-- Following the delegations changes nothing. -/
theorem getDelegationDepth_reads {a : Address} {depth : ℕ}
    (h : getDelegationDepth a e s = .ok depth s') : s = s' := by
  simp only [getDelegationDepth, bind_ok, getDelegationRecord_ok, pure_ok] at h
  obtain ⟨_, _, ⟨-, rfl⟩, -, rfl⟩ := h
  rfl

/-! ## Voting -/

/-- Opening changes the status only. -/
theorem Proposal.opened_eq (p : Proposal) (now : ℕ) :
    p.opened now = { p with status := (p.opened now).status } := by
  rw [Proposal.opened]
  split <;> rfl

/-- A proposal that has left the pending state is not opened again. -/
theorem Proposal.opened_of_ne_pending {now : ℕ} (h : p.status ≠ .pending) : p.opened now = p :=
  if_neg fun hopen => h hopen.1

theorem Proposal.counting_eq_some {q : Proposal} {voteType : VoteType} {power : ℤ} :
    p.counting voteType power = some q ↔ ∃ voted, p.siding power voteType = some voted ∧
      I128.Holds (p.totalVotingPower + power) ∧
      { voted with totalVotingPower := p.totalVotingPower + power } = q := by
  simp only [Proposal.counting, Option.bind_eq_bind, Option.bind_eq_some_iff,
    I128.checkedAdd_eq_some, Option.pure_def, Option.some.injEq]
  constructor
  · rintro ⟨voted, hvoted, _, ⟨hbound, rfl⟩, rfl⟩
    exact ⟨voted, hvoted, hbound, rfl⟩
  · rintro ⟨voted, hvoted, hbound, rfl⟩
    exact ⟨voted, hvoted, _, ⟨hbound, rfl⟩, rfl⟩

/-- Counting a vote changes the counters only. -/
theorem Proposal.counting_eq {q : Proposal} {voteType : VoteType} {power : ℤ}
    (h : p.counting voteType power = some q) :
    q = { p with
      forVotes := q.forVotes
      againstVotes := q.againstVotes
      abstainVotes := q.abstainVotes
      totalVotingPower := q.totalVotingPower } := by
  obtain ⟨voted, hvoted, -, rfl⟩ := counting_eq_some.mp h
  cases voteType <;>
    · obtain ⟨v, -, rfl⟩ := Option.map_eq_some_iff.mp hvoted
      rfl

/-- A vote adds its power to one side and to the total. -/
theorem Proposal.counting_power {q : Proposal} {voteType : VoteType} {power : ℤ}
    (h : p.counting voteType power = some q) :
    q.forVotes + q.againstVotes + q.abstainVotes =
        p.forVotes + p.againstVotes + p.abstainVotes + power ∧
      q.totalVotingPower = p.totalVotingPower + power := by
  obtain ⟨voted, hvoted, -, rfl⟩ := counting_eq_some.mp h
  cases voteType <;>
    · obtain ⟨v, hv, rfl⟩ := Option.map_eq_some_iff.mp hvoted
      obtain ⟨-, rfl⟩ := I128.checkedAdd_eq_some.mp hv
      exact ⟨by dsimp only; omega, rfl⟩

/-- The record of a vote. -/
def voteInfo (e : HelloWorld.Env) (voter : Address) (id : ℕ) (voteType : VoteType) (power : ℤ) :
    VoteInfo := ⟨voter, id, voteType, power, e.timestamp⟩

/-- A vote is counted. -/
structure Voted (e : HelloWorld.Env) (s : Storage) (voter : Address) (id : ℕ) (voteType : VoteType)
    (c : GovernanceConfig) (p counted : Proposal) (power : ℤ) (s' : Storage) : Prop where
  config_eq : s.config = some c
  proposal_eq : s.proposal id = some p
  active : (p.opened e.timestamp).status = .active
  fresh : s.vote id voter = none
  power_eq : e.balance s.protocol.transfers c.voteToken voter = some power
  counted_eq : (p.opened e.timestamp).counting voteType power = some counted
  after : s' = { setProposal id counted s with
    vote := update s.vote id
      (update (s.vote id) voter (some (voteInfo e voter id voteType power))) }

theorem vote_effect {voter : Address} {voteType : VoteType}
    (h : vote voter id voteType e s = .ok u s') :
    ∃ c p counted power, Voted e s voter id voteType c p counted power s' := by
  simp only [vote, bind_ok, requireAuth_ok, ↓getConfig_seq, ↓getProposal_seq, ↓asks_seq,
    ↓failIf_seq, ↓view_seq, ↓balance_seq, ↓orTrap_seq, ↓store_seq, store_ok, not_not, and_assoc,
    exists_and_left, exists_eq_left', exists_const] at h
  obtain ⟨-, c, hconfig, p, hproposal, hactive, hfresh, _, _, hread, power, hpower, -, counted,
    hcounted, rfl⟩ := h
  obtain rfl := getVotePowerWithDelegation_reads hread
  exact ⟨c, p, counted, power, hconfig, hproposal, hactive, by simpa using hfresh, hpower, hcounted,
    rfl⟩

/-! ## Queueing -/

/-- What `queue_proposal` leaves of a proposal. -/
def afterCount (p : Proposal) (t : Tally) (executionTime : ℕ) : Proposal :=
  if t.succeeded = true then { p with executionTime := some executionTime, status := .queued }
  else { p with status := .defeated }

@[simp] theorem recordOutcome_ok {now : ℕ} {t : Tally} :
    recordOutcome id now c p t e s = .ok u s' ↔
      (t.succeeded = true → now + c.executionDelay ≤ U64.MAX) ∧
        setProposal id (afterCount p t (now + c.executionDelay)) s = s' := by
  unfold recordOutcome
  rw [afterCount]
  split
  case isTrue hsucceeded =>
    simp only [bind_ok, orTrap_ok, U64.checkedAdd_eq_some, store_ok, hsucceeded, true_imp_iff]
    constructor
    · rintro ⟨_, _, ⟨⟨hbound, rfl⟩, rfl⟩, rfl⟩
      exact ⟨hbound, rfl⟩
    · rintro ⟨hbound, rfl⟩
      exact ⟨_, s, ⟨⟨hbound, rfl⟩, rfl⟩, rfl⟩
  case isFalse hfailed => simp [hfailed]

/-- The count does not look at the status. -/
@[simp] theorem afterCount_tally {t : Tally} {n : ℕ} : (afterCount p t n).tally c = p.tally c := by
  rw [afterCount]
  split <;> rfl

/-- The votes are counted, and the proposal queued or defeated. -/
structure Queued (e : HelloWorld.Env) (s : Storage) (id : ℕ) (c : GovernanceConfig) (p : Proposal)
    (t : Tally) (s' : Storage) : Prop where
  config_eq : s.config = some c
  proposal_eq : s.proposal id = some p
  ended : p.endTime < e.timestamp
  queueable : p.status.queueable = true
  bounded : p.endTime + DEFAULT_TIMELOCK_DURATION ≤ U64.MAX
  inTime : e.timestamp ≤ p.endTime + DEFAULT_TIMELOCK_DURATION
  tally_eq : p.tally c = some t
  delay : t.succeeded = true → e.timestamp + c.executionDelay ≤ U64.MAX
  after : s' = setProposal id (afterCount p t (e.timestamp + c.executionDelay)) s

theorem queueProposal_effect {outcome : ProposalOutcome}
    (h : queueProposal caller id e s = .ok outcome s') :
    ∃ c p t, outcome = outcomeOf id p t ∧ Queued e s id c p t s' := by
  simp only [queueProposal, bind_ok, requireAuth_ok, ↓getConfig_seq, ↓getProposal_seq, ↓asks_seq,
    ↓failIf_seq, ↓orTrap_seq, U64.checkedAdd_eq_some, onlyIf_ok, ↓store_seq, fail_ok, pure_ok,
    not_le, Bool.not_eq_false, recordOutcome_ok, and_assoc, exists_and_left, exists_eq_left',
    exists_const] at h
  obtain ⟨-, c, hconfig, p, hproposal, hended, hopen, hbound, hlate, _, hkept, t, htally, hdelay,
    rfl, rfl⟩ := h
  obtain rfl := hkept hlate
  exact ⟨c, p, t, rfl, hconfig, hproposal, hended, hopen, hbound, not_lt.mp hlate, htally, hdelay,
    rfl⟩

/-- A count is made and kept aside. -/
structure Simulated (e : HelloWorld.Env) (s : Storage) (id : ℕ) (c : GovernanceConfig)
    (p : Proposal) (result : ProposalSimulationResult) (s' : Storage) : Prop where
  config_eq : s.config = some c
  proposal_eq : s.proposal id = some p
  result_eq : computeSimulation e.timestamp p c = some result
  after : s' = { s with
    proposalSimulationCache := update s.proposalSimulationCache id (some result) }

theorem simulateProposal_effect {result : ProposalSimulationResult}
    (h : simulateProposal id e s = .ok result s') : ∃ c p, Simulated e s id c p result s' := by
  simp only [simulateProposal, getConfig_seq, getProposal_seq, asks_seq, orTrap_seq, store_seq,
    pure_ok] at h
  obtain ⟨c, hconfig, p, hproposal, _, hresult, rfl, rfl⟩ := h
  exact ⟨c, p, hconfig, hproposal, hresult, rfl⟩

/-! ## Execution -/

/-- The change of the protocol a proposal stands for. -/
def ProposalType.toCore : ProposalType → Option HelloWorld.ProposalType
  | .minCollateralRatio ratio => some (.minCollateralRatio ratio)
  | .riskParams mcr lt cf li => some (.riskParams mcr lt cf li)
  | .pauseSwitch operation paused => some (.pauseSwitch operation paused)
  | .emergencyPause paused => some (.emergencyPause paused)
  | .genericAction _ => none
  | .interestRateConfig params =>
    some (.interestRateConfig params.baseRateBps params.kinkUtilizationBps params.multiplierBps
      params.jumpMultiplierBps params.rateFloorBps params.rateCeilingBps params.spreadBps)

/-- The rest of the contract takes the step the proposal stands for. -/
def Applies (e : HelloWorld.Env) (proposalType : ProposalType) (t t' : HelloWorld.Storage) : Prop :=
  ∃ admin change, proposalType.toCore = some change ∧
    HelloWorld.step ⟨e, .govExecuteProposal admin change⟩ t = some t'

/-- **An execution is a step of the protocol and leaves governance as it was.** -/
theorem executeProposalType_effect {proposalType : ProposalType}
    (h : executeProposalType proposalType e s = .ok u s') :
    ∃ t, s' = { s with protocol := t } ∧ Applies e proposalType s.protocol t := by
  have happly : ∀ {admin : Address} {change : HelloWorld.ProposalType} {t : HelloWorld.Storage},
      HelloWorld.executeProposalType admin change e s.protocol = .ok () t →
      HelloWorld.step ⟨e, .govExecuteProposal admin change⟩ s.protocol = some t :=
    fun hcore => commit_eq_some.mpr ⟨(), hcore⟩
  cases proposalType
  case genericAction => exact absurd h (fail_ok (e := e))
  case minCollateralRatio ratio =>
    obtain ⟨t, ht, rfl⟩ := effect_ok.mp h
    exact ⟨t, rfl, ⟨0⟩, _, rfl, happly (mapErr_ok.mpr ht)⟩
  case riskParams mcr lt cf li =>
    obtain ⟨t, ht, rfl⟩ := effect_ok.mp h
    exact ⟨t, rfl, ⟨0⟩, _, rfl, happly (mapErr_ok.mpr ht)⟩
  all_goals
    simp only [executeProposalType, bind_ok, getAdmin_ok, effect_ok] at h
    obtain ⟨admin, _, ⟨-, rfl⟩, t, ht, rfl⟩ := h
    exact ⟨t, rfl, admin, _, rfl, happly (mapErr_ok.mpr ht)⟩

/-- The store with a proposal executed. -/
def withExecuted (s : Storage) (id : ℕ) (p : Proposal) (t : HelloWorld.Storage) : Storage :=
  setProposal id { p with status := .executed } { s with protocol := t }

/-- A queued proposal is carried out. -/
structure Executed (e : HelloWorld.Env) (s : Storage) (id : ℕ) (c : GovernanceConfig)
    (p : Proposal) (executionTime : ℕ) (t : HelloWorld.Storage) (s' : Storage) : Prop where
  config_eq : s.config = some c
  proposal_eq : s.proposal id = some p
  queued : p.status = .queued
  executionTime_eq : p.executionTime = some executionTime
  ready : executionTime ≤ e.timestamp
  inTime : e.timestamp ≤ executionTime + c.timelockDuration
  applies : Applies e p.proposalType s.protocol t
  after : s' = withExecuted s id p t

theorem executeProposal_effect {executor : Address}
    (h : executeProposal executor id e s = .ok u s') :
    ∃ c p executionTime t, Executed e s id c p executionTime t s' := by
  simp only [executeProposal, bind_ok, requireAuth_ok, ↓getConfig_seq, ↓getProposal_seq, ↓asks_seq,
    ↓failIf_seq, ↓okOr_seq, ↓orTrap_seq, U64.checkedAdd_eq_some, onlyIf_ok, ↓store_seq, store_ok,
    fail_ok, not_not, not_lt, and_assoc, exists_and_left, exists_eq_left', exists_const] at h
  obtain ⟨-, c, hconfig, p, hproposal, hqueued, executionTime, htime, hready, -, hlate, _, hkept, _,
    _, heffect, rfl⟩ := h
  have hintime : e.timestamp ≤ executionTime + c.timelockDuration := not_lt.mp hlate
  obtain rfl := hkept hintime
  obtain ⟨t, rfl, happlies⟩ := executeProposalType_effect heffect
  exact ⟨c, p, executionTime, t, hconfig, hproposal, hqueued, htime, hready, hintime, happlies, rfl⟩

/-- A proposal that the multisig approved is carried out. -/
structure ExecutedByMultisig (e : HelloWorld.Env) (s : Storage) (executor : Address) (id : ℕ)
    (m : MultisigConfig) (p : Proposal) (t : HelloWorld.Storage) (s' : Storage) : Prop where
  multisig_eq : s.multisigConfig = some m
  member : executor ∈ m.admins
  proposal_eq : s.proposal id = some p
  pending : p.status = .pending
  enough : m.threshold ≤ (approvalsOf s id).length
  applies : Applies e p.proposalType s.protocol t
  after : s' = withExecuted s id p t

theorem executeMultisigProposal_effect {executor : Address}
    (h : executeMultisigProposal executor id e s = .ok u s') :
    ∃ m p t, ExecutedByMultisig e s executor id m p t s' := by
  simp only [executeMultisigProposal, bind_ok, requireAuth_ok, ↓getMultisigConfig_seq, ↓failIf_seq,
    ↓getProposal_seq, ↓view_seq, store_ok, not_not, not_lt, and_assoc, exists_and_left,
    exists_eq_left', exists_const] at h
  obtain ⟨-, m, hmultisig, hmember, p, hproposal, hpending, henough, _, _, heffect, rfl⟩ := h
  obtain ⟨t, rfl, happlies⟩ := executeProposalType_effect heffect
  exact ⟨m, p, t, hmultisig, hmember, hproposal, hpending, henough, happlies, rfl⟩

/-- The proposer or the admin cancels a proposal. -/
structure Cancelled (s : Storage) (caller : Address) (id : ℕ) (admin : Address) (p : Proposal)
    (s' : Storage) : Prop where
  admin_eq : s.admin = some admin
  proposal_eq : s.proposal id = some p
  authority : caller = p.proposer ∨ caller = admin
  notExecuted : p.status ≠ .executed
  notQueued : p.status ≠ .queued
  after : s' = setProposal id { p with status := .cancelled } s

theorem cancelProposal_effect (h : cancelProposal caller id e s = .ok u s') :
    ∃ admin p, Cancelled s caller id admin p s' := by
  simp only [cancelProposal, bind_ok, requireAuth_ok, getAdmin_ok, ↓getProposal_seq, ↓failIf_seq,
    store_ok, not_and_or, not_or, not_not, and_assoc, exists_and_left, exists_eq_left',
    exists_const] at h
  obtain ⟨-, admin, hadmin, p, hproposal, hauth, hexecuted, hqueued, rfl⟩ := h
  exact ⟨admin, p, hadmin, hproposal, hauth, hexecuted, hqueued, rfl⟩

/-- The store with an approval more. -/
def withApproval (s : Storage) (id : ℕ) (approver : Address) : Storage :=
  { s with proposalApprovals :=
      update s.proposalApprovals id (some (approvalsOf s id ++ [approver])) }

/-- A multisig admin approves a proposal, once. -/
structure Approved (s : Storage) (approver : Address) (id : ℕ) (m : MultisigConfig) (p : Proposal)
    (s' : Storage) : Prop where
  multisig_eq : s.multisigConfig = some m
  member : approver ∈ m.admins
  proposal_eq : s.proposal id = some p
  fresh : approver ∉ approvalsOf s id
  after : s' = withApproval s id approver

theorem approveProposal_effect {approver : Address}
    (h : approveProposal approver id e s = .ok u s') : ∃ m p, Approved s approver id m p s' := by
  simp only [approveProposal, requireAuth_seq, getMultisigConfig_seq, failIf_seq, view_seq,
    store_ok, not_not] at h
  obtain ⟨-, m, hmultisig, hmember, hsome, hfresh, rfl⟩ := h
  obtain ⟨p, hproposal⟩ := Option.ne_none_iff_exists'.mp hsome
  exact ⟨m, p, hmultisig, hmember, hproposal, hfresh, rfl⟩

theorem msProposeSetMinCr_effect {proposer : Address} {ratio : ℤ}
    (h : msProposeSetMinCr proposer ratio e s = .ok id s') :
    ∃ c t m p, Created e s proposer (.minCollateralRatio ratio) "Adjust minimum collateral ratio"
      none c t ∧ Approved t proposer (nextId s) m p s' := by
  simp only [msProposeSetMinCr, bind_ok, failIf_ok, requireAuthAgain_ok, pure_ok] at h
  obtain ⟨_, _, ⟨-, rfl⟩, _, t, hcreate, _, _, ⟨-, rfl⟩, _, _, happrove, rfl, rfl⟩ := h
  obtain ⟨rfl, c, hcreated⟩ := createProposal_effect hcreate
  obtain ⟨m, p, happroved⟩ := approveProposal_effect happrove
  exact ⟨c, t, m, p, hcreated, happroved⟩

/-! ## Voting power -/

/-- Only snapshots and delegations change. -/
def PowerOnly (s s' : Storage) : Prop :=
  ∃ snapshots delegations, s' =
    { s with votePowerSnapshot := snapshots, delegationRecord := delegations }

theorem takeVotePowerSnapshot_effect {voter token : Address}
    (h : takeVotePowerSnapshot id voter token e s = .ok u s') : PowerOnly s s' := by
  simp only [takeVotePowerSnapshot, balance_seq, asks_seq, store_ok] at h
  obtain ⟨_, -, rfl⟩ := h
  exact ⟨_, _, rfl⟩

theorem delegateVote_effect {delegator delegatee : Address}
    (h : delegateVote delegator delegatee e s = .ok u s') : PowerOnly s s' := by
  simp only [delegateVote, bind_ok, requireAuth_ok, ↓failIf_seq, ↓asks_seq, ↓view_seq, ↓store_seq,
    store_ok, getDelegators_ok, and_assoc, exists_and_left, exists_eq_left', exists_const] at h
  obtain ⟨-, -, -, -, _, _, hdepth, -, _, -, rfl⟩ := h
  obtain rfl := getDelegationDepth_reads hdepth
  exact ⟨_, _, rfl⟩

theorem revokeDelegation_effect {delegator : Address}
    (h : revokeDelegation delegator e s = .ok u s') : PowerOnly s s' := by
  simp only [revokeDelegation, bind_ok, requireAuth_ok, getDelegationRecord_ok, ↓okOr_seq,
    getDelegators_ok, ↓store_seq, store_ok, and_assoc, exists_and_left, exists_eq_left',
    exists_const] at h
  obtain ⟨-, _, -, _, -, _, -, rfl⟩ := h
  exact ⟨_, _, rfl⟩

/-! ## Councils -/

@[simp] theorem requireAdmin_ok :
    requireAdmin caller e s = .ok u s' ↔ caller ∈ e.auths ∧ s.admin = some caller ∧ s = s' := by
  simp [requireAdmin, and_assoc]

@[simp ↓] theorem requireAdmin_seq {β : Type} {b : β} {k : Unit → Invocation β} :
    (requireAdmin caller >>= k) e s = .ok b s' ↔
      caller ∈ e.auths ∧ s.admin = some caller ∧ k () e s = .ok b s' :=
  (check_seq fun _ _ => requireAdmin_ok.trans and_assoc.symm).trans and_assoc

/-- The admin names the multisig. -/
structure MultisigSet (s : Storage) (caller : Address) (admins : List Address) (threshold : ℕ)
    (s' : Storage) : Prop where
  admin_eq : s.admin = some caller
  positive : 0 < threshold
  le : threshold ≤ admins.length
  after : s' = { s with multisigConfig := some ⟨admins, threshold⟩ }

theorem setMultisigConfig_effect {admins : List Address} {n : ℕ}
    (h : setMultisigConfig caller admins n e s = .ok u s') : MultisigSet s caller admins n s' := by
  simp only [setMultisigConfig, requireAdmin_seq, failIf_seq, store_ok, not_or, not_lt] at h
  obtain ⟨-, hadmin, ⟨-, hpos, hle⟩, rfl⟩ := h
  exact ⟨hadmin, Nat.pos_of_ne_zero hpos, hle, rfl⟩

theorem setMultisigAdmins_effect {admins : List Address}
    (h : setMultisigAdmins caller admins e s = .ok u s') :
    ∃ m, s.multisigConfig = some m ∧ MultisigSet s caller admins m.threshold s' := by
  simp only [setMultisigAdmins, getMultisigConfig_seq] at h
  obtain ⟨m, hmultisig, hset⟩ := h
  exact ⟨m, hmultisig, setMultisigConfig_effect hset⟩

theorem setMultisigThreshold_effect {n : ℕ} (h : setMultisigThreshold caller n e s = .ok u s') :
    ∃ m, s.multisigConfig = some m ∧ MultisigSet s caller m.admins n s' := by
  simp only [setMultisigThreshold, getMultisigConfig_seq] at h
  obtain ⟨m, hmultisig, hset⟩ := h
  exact ⟨m, hmultisig, setMultisigConfig_effect hset⟩

theorem msSetAdmins_effect {admins : List Address} {n : ℕ}
    (h : msSetAdmins caller admins n e s = .ok u s') :
    admins.Nodup ∧ MultisigSet s caller admins n s' := by
  simp only [msSetAdmins, failIf_seq, not_not] at h
  obtain ⟨-, hnodup, hset⟩ := h
  exact ⟨hnodup, setMultisigConfig_effect hset⟩

/-- The guardians of governance. -/
def guardianConfig (s : Storage) : GuardianConfig := s.guardianConfig.getD ⟨[], 1⟩

/-- The admin adds a guardian. -/
structure GuardianAdded (s : Storage) (caller guardian : Address) (s' : Storage) : Prop where
  admin_eq : s.admin = some caller
  fresh : guardian ∉ (guardianConfig s).guardians
  after : s' = { s with
    guardianConfig :=
      some ⟨(guardianConfig s).guardians ++ [guardian], (guardianConfig s).threshold⟩ }

theorem addGuardian_effect {guardian : Address} (h : addGuardian caller guardian e s = .ok u s') :
    GuardianAdded s caller guardian s' := by
  simp only [addGuardian, requireAdmin_seq, view_seq, failIf_seq, store_ok] at h
  obtain ⟨-, hadmin, hfresh, rfl⟩ := h
  exact ⟨hadmin, hfresh, rfl⟩

@[simp] theorem getGuardianConfig_ok {g : GuardianConfig} :
    getGuardianConfig e s = .ok g s' ↔ s.guardianConfig = some g ∧ s = s' := by
  simp [getGuardianConfig]

@[simp ↓] theorem getGuardianConfig_seq {β : Type} {b : β} {g : GuardianConfig → Invocation β} :
    (getGuardianConfig >>= g) e s = .ok b s' ↔
      ∃ c, s.guardianConfig = some c ∧ g c e s = .ok b s' :=
  read_seq fun _ _ => getGuardianConfig_ok

/-- The admin removes a guardian. -/
structure GuardianRemoved (s : Storage) (caller guardian : Address) (g : GuardianConfig)
    (s' : Storage) : Prop where
  admin_eq : s.admin = some caller
  config_eq : s.guardianConfig = some g
  member : guardian ∈ g.guardians
  after : s' = { s with
    guardianConfig := some ⟨g.guardians.filter (· ≠ guardian),
      min g.threshold (g.guardians.filter (· ≠ guardian)).length⟩ }

theorem removeGuardian_effect {guardian : Address}
    (h : removeGuardian caller guardian e s = .ok u s') :
    ∃ g, GuardianRemoved s caller guardian g s' := by
  simp only [removeGuardian, requireAdmin_seq, getGuardianConfig_seq, failIf_seq, store_ok, not_not]
    at h
  obtain ⟨-, hadmin, g, hconfig, hmember, rfl⟩ := h
  exact ⟨g, hadmin, hconfig, hmember, rfl⟩

/-- The admin sets how many guardians must approve. -/
structure GuardianThresholdSet (s : Storage) (caller : Address) (threshold : ℕ)
    (g : GuardianConfig) (s' : Storage) : Prop where
  admin_eq : s.admin = some caller
  config_eq : s.guardianConfig = some g
  positive : 0 < threshold
  le : threshold ≤ g.guardians.length
  after : s' = { s with guardianConfig := some ⟨g.guardians, threshold⟩ }

theorem setGuardianThreshold_effect {n : ℕ} (h : setGuardianThreshold caller n e s = .ok u s') :
    ∃ g, GuardianThresholdSet s caller n g s' := by
  simp only [setGuardianThreshold, requireAdmin_seq, getGuardianConfig_seq, failIf_seq, store_ok,
    not_or, not_lt] at h
  obtain ⟨-, hadmin, g, hconfig, ⟨hpos, hle⟩, rfl⟩ := h
  exact ⟨g, hadmin, hconfig, Nat.pos_of_ne_zero hpos, hle, rfl⟩

/-! ## Recovery -/

/-- The request as it is made. -/
def requestOf (now : ℕ) (initiator oldAdmin newAdmin : Address) : RecoveryRequest :=
  ⟨oldAdmin, newAdmin, initiator, now, now + DEFAULT_RECOVERY_PERIOD⟩

/-- A recovery is opened, with one approval. -/
structure RecoveryStarted (e : HelloWorld.Env) (s : Storage)
    (initiator oldAdmin newAdmin : Address) (s' : Storage) : Prop where
  free : s.recoveryRequest = none
  after : s' = { s with
    recoveryRequest := some (requestOf e.timestamp initiator oldAdmin newAdmin)
    recoveryApprovals := some [initiator] }

theorem openRecovery_effect {initiator oldAdmin newAdmin : Address}
    (h : openRecovery initiator oldAdmin newAdmin e s = .ok u s') :
    RecoveryStarted e s initiator oldAdmin newAdmin s' := by
  simp only [openRecovery, bind_ok, view_ok, failIf_ok, asks_ok, orTrap_ok, U64.checkedAdd_eq_some,
    store_ok] at h
  obtain ⟨_, _, ⟨rfl, rfl⟩, _, _, ⟨hfree, rfl⟩, _, _, ⟨rfl, rfl⟩, _, _, ⟨⟨-, rfl⟩, rfl⟩, rfl⟩ := h
  exact ⟨by simpa using hfree, rfl⟩

/-- One more approval is put down. -/
structure RecoveryApproved (s : Storage) (approver : Address) (s' : Storage) : Prop where
  fresh : approver ∉ recoveryApprovals s
  after : s' = { s with recoveryApprovals := some (recoveryApprovals s ++ [approver]) }

theorem recordApproval_effect {approver : Address} (h : recordApproval approver e s = .ok u s') :
    RecoveryApproved s approver s' := by
  simp only [recordApproval, view_seq, failIf_seq, store_ok] at h
  obtain ⟨hfresh, rfl⟩ := h
  exact ⟨hfresh, rfl⟩

@[simp] theorem pendingRecovery_ok {r : RecoveryRequest} :
    pendingRecovery e s = .ok r s' ↔
      s.recoveryRequest = some r ∧ e.timestamp ≤ r.expiresAt ∧ s = s' := by
  constructor
  · simp only [pendingRecovery, bind_ok, view_ok, okOr_ok, asks_ok, onlyIf_ok, store_ok, fail_ok,
      pure_ok]
    rintro ⟨_, _, ⟨rfl, rfl⟩, _, _, ⟨hrequest, rfl⟩, _, _, ⟨rfl, rfl⟩, _, _, ⟨hlate, hkept⟩, rfl,
      rfl⟩
    have hintime : ¬ _ < e.timestamp := fun hlt => by simpa using hlate hlt
    exact ⟨hrequest, not_lt.mp hintime, hkept hintime⟩
  · rintro ⟨hrequest, hintime, rfl⟩
    simp [pendingRecovery, hrequest, onlyIf, not_lt.mpr hintime]

/-- Enough approvals are on record, and the admin is replaced. -/
structure RecoveryExecuted (e : HelloWorld.Env) (s : Storage) (g : GuardianConfig)
    (r : RecoveryRequest) (m : MultisigConfig) (s' : Storage) : Prop where
  guardians_eq : s.guardianConfig = some g
  request_eq : s.recoveryRequest = some r
  inTime : e.timestamp ≤ r.expiresAt
  enough : g.threshold ≤ (recoveryApprovals s).length
  multisig_eq : s.multisigConfig = some m
  after : s' = closeRecovery
    { s with multisigConfig := some ⟨replaceAdmin r m.admins, m.threshold⟩ }

theorem executeRecovery_effect {executor : Address} (h : executeRecovery executor e s = .ok u s') :
    ∃ g r m, RecoveryExecuted e s g r m s' := by
  simp only [executeRecovery, bind_ok, requireAuth_ok, getGuardianConfig_ok, pendingRecovery_ok,
    view_ok, failIf_ok, getMultisigConfig_ok, store_ok, not_lt] at h
  obtain ⟨_, _, ⟨-, rfl⟩, g, _, ⟨hguardians, rfl⟩, r, _, ⟨hrequest, hintime, rfl⟩, _, _, ⟨rfl, rfl⟩,
    _, _, ⟨henough, rfl⟩, m, _, ⟨hmultisig, rfl⟩, _, _, rfl, rfl⟩ := h
  exact ⟨g, r, m, hguardians, hrequest, hintime, henough, hmultisig, rfl⟩

/-- A guardian of governance starts. -/
theorem startRecovery_effect {initiator oldAdmin newAdmin : Address}
    (h : startRecovery initiator oldAdmin newAdmin e s = .ok u s') :
    initiator ∈ e.auths ∧ (∃ g, s.guardianConfig = some g ∧ initiator ∈ g.guardians) ∧
      RecoveryStarted e s initiator oldAdmin newAdmin s' := by
  simp only [startRecovery, requireAuth_seq, getGuardianConfig_seq, failIf_seq, not_not] at h
  obtain ⟨hsigned, g, hguardians, hmember, hopen⟩ := h
  exact ⟨hsigned, ⟨g, hguardians, hmember⟩, openRecovery_effect hopen⟩

theorem approveRecovery_effect {approver : Address} (h : approveRecovery approver e s = .ok u s') :
    (∃ g, s.guardianConfig = some g ∧ approver ∈ g.guardians) ∧ s.recoveryRequest ≠ none ∧
      RecoveryApproved s approver s' := by
  simp only [approveRecovery, requireAuth_seq, getGuardianConfig_seq, failIf_seq, view_seq, not_not]
    at h
  obtain ⟨-, g, hguardians, hmember, hrequest, happrove⟩ := h
  exact ⟨⟨g, hguardians, hmember⟩, hrequest, recordApproval_effect happrove⟩

/-! ## The second module -/

namespace Recovery

/-- The guardians of the other module are named. -/
structure GuardiansSet (s : Storage) (guardians : List Address) (threshold : ℕ) (s' : Storage) :
    Prop where
  nodup : guardians.Nodup
  positive : 0 < threshold
  le : threshold ≤ guardians.length
  after : s' = { s with guardians := some guardians, guardianThreshold := some threshold }

@[simp] theorem requireMultisigAdmin_ok :
    requireMultisigAdmin caller e s = .ok u s' ↔
      (∃ admins, s.multisigAdmins = some admins ∧ caller ∈ admins) ∧ s = s' := by
  simp only [requireMultisigAdmin, ↓view_seq, ↓okOr_seq, failIf_ok, not_not, ← and_assoc,
    exists_and_right]

theorem setGuardians_effect {guardians : List Address} {n : ℕ}
    (h : setGuardians caller guardians n e s = .ok u s') : GuardiansSet s guardians n s' := by
  simp only [setGuardians, bind_ok, requireMultisigAdmin_ok, failIf_ok, store_ok, not_or, not_lt,
    not_not] at h
  obtain ⟨_, _, ⟨-, rfl⟩, _, _, ⟨-, rfl⟩, _, _, ⟨⟨hpos, hle⟩, rfl⟩, _, _, ⟨hnodup, rfl⟩, rfl⟩ := h
  exact ⟨hnodup, Nat.pos_of_ne_zero hpos, hle, rfl⟩

theorem addGuardian_effect {guardian : Address} (h : addGuardian caller guardian e s = .ok u s') :
    guardian ∉ s.guardians.getD [] ∧
      s' = { s with guardians := some (s.guardians.getD [] ++ [guardian]) } := by
  simp only [addGuardian, bind_ok, requireMultisigAdmin_ok, view_ok, failIf_ok, store_ok] at h
  obtain ⟨_, _, ⟨-, rfl⟩, _, _, ⟨rfl, rfl⟩, _, _, ⟨hfresh, rfl⟩, rfl⟩ := h
  exact ⟨hfresh, rfl⟩

theorem removeGuardian_effect {guardian : Address}
    (h : removeGuardian caller guardian e s = .ok u s') :
    ∃ guardians, s.guardians = some guardians ∧ guardian ∈ guardians ∧
      s' = { s with guardians := some (guardians.filter (· ≠ guardian)) } := by
  simp only [removeGuardian, bind_ok, requireMultisigAdmin_ok, view_ok, okOr_ok, failIf_ok,
    store_ok, not_not] at h
  obtain ⟨_, _, ⟨-, rfl⟩, _, _, ⟨rfl, rfl⟩, guardians, _, ⟨hguardians, rfl⟩, _, _, ⟨hmember, rfl⟩,
    rfl⟩ := h
  exact ⟨guardians, hguardians, hmember, rfl⟩

theorem setGuardianThreshold_effect {n : ℕ} (h : setGuardianThreshold caller n e s = .ok u s') :
    0 < n ∧ n ≤ (s.guardians.getD []).length ∧ s' = { s with guardianThreshold := some n } := by
  simp only [setGuardianThreshold, bind_ok, requireMultisigAdmin_ok, view_ok, failIf_ok, store_ok,
    not_or, not_lt] at h
  obtain ⟨_, _, ⟨-, rfl⟩, _, _, ⟨rfl, rfl⟩, _, _, ⟨⟨hpos, hle⟩, rfl⟩, rfl⟩ := h
  exact ⟨Nat.pos_of_ne_zero hpos, hle, rfl⟩

@[simp] theorem requireGuardian_ok :
    requireGuardian caller e s = .ok u s' ↔
      (∃ guardians, s.guardians = some guardians ∧ caller ∈ guardians) ∧ s = s' := by
  simp only [requireGuardian, ↓view_seq, ↓okOr_seq, failIf_ok, not_not, ← and_assoc,
    exists_and_right]

theorem startRecovery_effect {initiator oldAdmin newAdmin : Address}
    (h : startRecovery initiator oldAdmin newAdmin e s = .ok u s') :
    RecoveryStarted e s initiator oldAdmin newAdmin s' := by
  simp only [startRecovery, bind_ok, requireGuardian_ok] at h
  obtain ⟨_, _, ⟨-, rfl⟩, hopen⟩ := h
  exact openRecovery_effect hopen

theorem approveRecovery_effect {approver : Address} (h : approveRecovery approver e s = .ok u s') :
    RecoveryApproved s approver s' := by
  simp only [approveRecovery, bind_ok, requireGuardian_ok, pendingRecovery_ok] at h
  obtain ⟨_, _, ⟨-, rfl⟩, _, _, ⟨-, -, rfl⟩, happrove⟩ := h
  exact recordApproval_effect happrove

structure RecoveryExecuted (e : HelloWorld.Env) (s : Storage) (r : RecoveryRequest)
    (s' : Storage) : Prop where
  request_eq : s.recoveryRequest = some r
  inTime : e.timestamp ≤ r.expiresAt
  enough : getGuardianThreshold s ≤ (recoveryApprovals s).length
  after : s' = closeRecovery
    { s with multisigAdmins := some (replaceAdmin r (s.multisigAdmins.getD [])) }

theorem executeRecovery_effect {executor : Address} (h : executeRecovery executor e s = .ok u s') :
    ∃ r, RecoveryExecuted e s r s' := by
  simp only [executeRecovery, bind_ok, pendingRecovery_ok, view_ok, failIf_ok, store_ok, not_lt]
    at h
  obtain ⟨r, _, ⟨hrequest, hintime, rfl⟩, _, _, ⟨rfl, rfl⟩, _, _, ⟨rfl, rfl⟩, _, _,
    ⟨henough, rfl⟩, _, _, rfl, rfl⟩ := h
  exact ⟨r, hrequest, hintime, henough, rfl⟩

end Recovery

/-! ## The rest of the contract -/

theorem coreStep_effect {op : HelloWorld.Op} (h : coreStep op e s = some s') :
    ∃ t, HelloWorld.step ⟨e, op⟩ s.protocol = some t ∧ s' = { s with protocol := t } := by
  unfold coreStep at h
  split at h
  · cases h
  · obtain ⟨t, ht, rfl⟩ := Option.map_eq_some_iff.mp h
    exact ⟨t, ht, rfl⟩

end StellarLend.Governance
