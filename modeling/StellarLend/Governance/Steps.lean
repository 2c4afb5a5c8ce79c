import StellarLend.Governance.Effects

/-!
# Governance/Steps — what a step does to the ballots and to the councils

Proposals and councils are kept apart: no call writes both, save the first.  `step_ballots` says
what a step does to the proposals and their votes and approvals, `step_councils` what it does to the
admins, the guardians and the request for a recovery.
-/

namespace StellarLend.Governance

open Foundations Call Function
open Lending (Address)

variable {e : HelloWorld.Env} {s s' t : Storage} {op : Op}

/-! ## Ballots -/

/-- Proposals, votes and approvals are as they were. -/
structure SameBallots (s s' : Storage) : Prop where
  admin : s'.admin = s.admin
  config : s'.config = s.config
  nextProposalId : s'.nextProposalId = s.nextProposalId
  proposal : s'.proposal = s.proposal
  vote : s'.vote = s.vote
  proposalApprovals : s'.proposalApprovals = s.proposalApprovals

/-- The calls that write ballots. -/
def Op.onBallots : Op → Bool
  | .govInitialize .. | .createProposal .. | .createAdminProposal .. | .createEmergencyProposal ..
  | .proposeSetMinCollateralRatio .. | .msProposeSetMinCr .. | .vote .. | .queueProposal ..
  | .executeProposal .. | .msExecute .. | .cancelProposal .. | .approveProposal ..
  | .msApprove .. | .executeMultisigProposal .. => true
  | _ => false

/-- **What a step does to the ballots.** -/
inductive BallotStep (e : HelloWorld.Env) (s : Storage) : Op → Storage → Prop
  | quiet {op : Op} {s' : Storage} (hquiet : op.onBallots = false) (h : SameBallots s s') :
      BallotStep e s op s'
  | setUp {admin token : Address} {period delay quorum lock : Option ℕ}
      {minimum threshold : Option ℤ} {s' : Storage}
      (h : SetUp s admin (configOf token period delay quorum minimum lock threshold) s') :
      BallotStep e s (.govInitialize admin token period delay quorum minimum lock threshold) s'
  | created {proposer : Address} {proposalType : ProposalType} {description : String}
      {threshold : Option ℤ} {c : GovernanceConfig} {op : Op} {s' : Storage}
      (hop : op = .createProposal proposer proposalType description threshold ∨
        ∃ ratio, op = .proposeSetMinCollateralRatio proposer ratio)
      (h : Created e s proposer proposalType description threshold c s') : BallotStep e s op s'
  | createdApproved {proposer : Address} {ratio : ℤ} {c : GovernanceConfig} {m : MultisigConfig}
      {p : Proposal} {t s' : Storage}
      (h : Created e s proposer (.minCollateralRatio ratio) "Adjust minimum collateral ratio" none
        c t) (happroved : Approved t proposer (nextId s) m p s') :
      BallotStep e s (.msProposeSetMinCr proposer ratio) s'
  | adminCreated {admin : Address} {proposalType : ProposalType} {description : String}
      {c : GovernanceConfig} {s' : Storage}
      (h : AdminCreated e s admin proposalType description c s') :
      BallotStep e s (.createAdminProposal admin proposalType description) s'
  | emergencyCreated {caller : Address} {proposalType : ProposalType} {description : String}
      {m : MultisigConfig} {s' : Storage}
      (h : EmergencyCreated e s caller proposalType description m s') :
      BallotStep e s (.createEmergencyProposal caller proposalType description) s'
  | voted {voter : Address} {id : ℕ} {voteType : VoteType} {c : GovernanceConfig}
      {p counted : Proposal} {power : ℤ} {s' : Storage}
      (h : Voted e s voter id voteType c p counted power s') :
      BallotStep e s (.vote voter id voteType) s'
  | counted {caller : Address} {id : ℕ} {c : GovernanceConfig} {p : Proposal} {t : Tally}
      {s' : Storage} (h : Queued e s id c p t s') : BallotStep e s (.queueProposal caller id) s'
  | executed {executor : Address} {id : ℕ} {c : GovernanceConfig} {p : Proposal} {time : ℕ}
      {t : HelloWorld.Storage} {op : Op} {s' : Storage}
      (hop : op = .executeProposal executor id ∨ op = .msExecute executor id)
      (h : Executed e s id c p time t s') : BallotStep e s op s'
  | executedByMultisig {executor : Address} {id : ℕ} {m : MultisigConfig} {p : Proposal}
      {t : HelloWorld.Storage} {s' : Storage} (h : ExecutedByMultisig e s executor id m p t s') :
      BallotStep e s (.executeMultisigProposal executor id) s'
  | cancelled {caller : Address} {id : ℕ} {admin : Address} {p : Proposal} {s' : Storage}
      (h : Cancelled s caller id admin p s') : BallotStep e s (.cancelProposal caller id) s'
  | approved {approver : Address} {id : ℕ} {m : MultisigConfig} {p : Proposal} {op : Op}
      {s' : Storage} (hop : op = .approveProposal approver id ∨ op = .msApprove approver id)
      (h : Approved s approver id m p s') : BallotStep e s op s'

theorem PowerOnly.sameBallots (h : PowerOnly s s') : SameBallots s s' := by
  obtain ⟨_, _, rfl⟩ := h
  exact ⟨rfl, rfl, rfl, rfl, rfl, rfl⟩

theorem MultisigSet.sameBallots {caller : Address} {admins : List Address} {n : ℕ}
    (h : MultisigSet s caller admins n s') : SameBallots s s' := by
  obtain ⟨-, -, -, rfl⟩ := h
  exact ⟨rfl, rfl, rfl, rfl, rfl, rfl⟩

theorem RecoveryStarted.sameBallots {initiator oldAdmin newAdmin : Address}
    (h : RecoveryStarted e s initiator oldAdmin newAdmin s') : SameBallots s s' := by
  obtain ⟨-, rfl⟩ := h
  exact ⟨rfl, rfl, rfl, rfl, rfl, rfl⟩

theorem RecoveryApproved.sameBallots {approver : Address} (h : RecoveryApproved s approver s') :
    SameBallots s s' := by
  obtain ⟨-, rfl⟩ := h
  exact ⟨rfl, rfl, rfl, rfl, rfl, rfl⟩

theorem RecoveryOp.sameBallots {op : RecoveryOp} (h : op.apply e s = some s') :
    SameBallots s s' := by
  cases op <;> obtain ⟨_, h⟩ := commit_eq_some.mp h
  case setGuardians =>
    rw [(Recovery.setGuardians_effect h).after]
    exact ⟨rfl, rfl, rfl, rfl, rfl, rfl⟩
  case addGuardian =>
    rw [(Recovery.addGuardian_effect h).2]
    exact ⟨rfl, rfl, rfl, rfl, rfl, rfl⟩
  case removeGuardian =>
    obtain ⟨_, -, -, rfl⟩ := Recovery.removeGuardian_effect h
    exact ⟨rfl, rfl, rfl, rfl, rfl, rfl⟩
  case setGuardianThreshold =>
    rw [(Recovery.setGuardianThreshold_effect h).2.2]
    exact ⟨rfl, rfl, rfl, rfl, rfl, rfl⟩
  case startRecovery => exact (Recovery.startRecovery_effect h).sameBallots
  case approveRecovery => exact (Recovery.approveRecovery_effect h).sameBallots
  case executeRecovery =>
    obtain ⟨_, h⟩ := Recovery.executeRecovery_effect h
    rw [h.after]
    exact ⟨rfl, rfl, rfl, rfl, rfl, rfl⟩

/-- A call that writes no ballots leaves them. -/
theorem step_sameBallots (hquiet : op.onBallots = false) (h : step ⟨e, op⟩ s = some s') :
    SameBallots s s' := by
  cases op <;> cases hquiet
  case recovery => exact RecoveryOp.sameBallots h
  case core =>
    obtain ⟨_, -, rfl⟩ := coreStep_effect h
    exact ⟨rfl, rfl, rfl, rfl, rfl, rfl⟩
  all_goals obtain ⟨_, h⟩ := commit_eq_some.mp h
  case simulateProposal =>
    obtain ⟨_, _, h⟩ := simulateProposal_effect h
    rw [h.after]
    exact ⟨rfl, rfl, rfl, rfl, rfl, rfl⟩
  case takeVotePowerSnapshot => exact (takeVotePowerSnapshot_effect h).sameBallots
  case delegateVote => exact (delegateVote_effect h).sameBallots
  case revokeDelegation => exact (revokeDelegation_effect h).sameBallots
  case setMultisigConfig => exact (setMultisigConfig_effect h).sameBallots
  case setMultisigAdmins =>
    obtain ⟨_, -, h⟩ := setMultisigAdmins_effect h
    exact h.sameBallots
  case setMultisigThreshold =>
    obtain ⟨_, -, h⟩ := setMultisigThreshold_effect h
    exact h.sameBallots
  case msSetAdmins => exact (msSetAdmins_effect h).2.sameBallots
  case addGuardian =>
    rw [(addGuardian_effect h).after]
    exact ⟨rfl, rfl, rfl, rfl, rfl, rfl⟩
  case removeGuardian =>
    obtain ⟨_, h⟩ := removeGuardian_effect h
    rw [h.after]
    exact ⟨rfl, rfl, rfl, rfl, rfl, rfl⟩
  case setGuardianThreshold =>
    obtain ⟨_, h⟩ := setGuardianThreshold_effect h
    rw [h.after]
    exact ⟨rfl, rfl, rfl, rfl, rfl, rfl⟩
  case startRecovery => exact (startRecovery_effect h).2.2.sameBallots
  case approveRecovery => exact (approveRecovery_effect h).2.2.sameBallots
  case executeRecovery =>
    obtain ⟨_, _, _, h⟩ := executeRecovery_effect h
    rw [h.after]
    exact ⟨rfl, rfl, rfl, rfl, rfl, rfl⟩

theorem step_ballots (h : step ⟨e, op⟩ s = some s') : BallotStep e s op s' := by
  by_cases hop : op.onBallots = false
  · exact .quiet hop (step_sameBallots hop h)
  cases op <;> first | exact absurd rfl hop | obtain ⟨_, h⟩ := commit_eq_some.mp h
  case govInitialize => exact .setUp (govInitialize_effect h)
  case createProposal =>
    obtain ⟨-, c, h⟩ := createProposal_effect h
    exact .created (.inl rfl) h
  case createAdminProposal =>
    obtain ⟨c, h⟩ := createAdminProposal_effect h
    exact .adminCreated h
  case createEmergencyProposal =>
    obtain ⟨m, h⟩ := createEmergencyProposal_effect h
    exact .emergencyCreated h
  case proposeSetMinCollateralRatio =>
    obtain ⟨-, c, h⟩ := createProposal_effect h
    exact .created (.inr ⟨_, rfl⟩) h
  case msProposeSetMinCr =>
    obtain ⟨c, t, m, p, h, happroved⟩ := msProposeSetMinCr_effect h
    exact .createdApproved h happroved
  case vote =>
    obtain ⟨c, p, counted, power, h⟩ := vote_effect h
    exact .voted h
  case queueProposal =>
    obtain ⟨c, p, t, -, h⟩ := queueProposal_effect h
    exact .counted h
  case executeProposal =>
    obtain ⟨c, p, time, t, h⟩ := executeProposal_effect h
    exact .executed (.inl rfl) h
  case msExecute =>
    obtain ⟨c, p, time, t, h⟩ := executeProposal_effect h
    exact .executed (.inr rfl) h
  case cancelProposal =>
    obtain ⟨admin, p, h⟩ := cancelProposal_effect h
    exact .cancelled h
  case approveProposal =>
    obtain ⟨m, p, h⟩ := approveProposal_effect h
    exact .approved (.inl rfl) h
  case msApprove =>
    obtain ⟨m, p, h⟩ := approveProposal_effect h
    exact .approved (.inr rfl) h
  case executeMultisigProposal =>
    obtain ⟨m, p, t, h⟩ := executeMultisigProposal_effect h
    exact .executedByMultisig h

/-! ## Councils -/

/-- Admins, guardians and the request for a recovery are as they were. -/
structure SameCouncils (s s' : Storage) : Prop where
  admin : s'.admin = s.admin
  multisigConfig : s'.multisigConfig = s.multisigConfig
  guardianConfig : s'.guardianConfig = s.guardianConfig
  multisigAdmins : s'.multisigAdmins = s.multisigAdmins
  guardians : s'.guardians = s.guardians
  guardianThreshold : s'.guardianThreshold = s.guardianThreshold
  recoveryRequest : s'.recoveryRequest = s.recoveryRequest
  recoveryApprovals : s'.recoveryApprovals = s.recoveryApprovals

/-- The calls that write councils. -/
def Op.onCouncils : Op → Bool
  | .govInitialize .. | .setMultisigConfig .. | .setMultisigAdmins .. | .setMultisigThreshold ..
  | .msSetAdmins .. | .addGuardian .. | .removeGuardian .. | .setGuardianThreshold ..
  | .startRecovery .. | .approveRecovery .. | .executeRecovery .. | .recovery .. => true
  | _ => false

/-- What a call of `recovery.rs` does. -/
inductive RecoveryStep (e : HelloWorld.Env) (s : Storage) : RecoveryOp → Storage → Prop
  | guardiansSet {caller : Address} {guardians : List Address} {n : ℕ} {s' : Storage}
      (h : Recovery.GuardiansSet s guardians n s') :
      RecoveryStep e s (.setGuardians caller guardians n) s'
  | guardianAdded {caller guardian : Address} (hfresh : guardian ∉ s.guardians.getD []) :
      RecoveryStep e s (.addGuardian caller guardian)
        { s with guardians := some (s.guardians.getD [] ++ [guardian]) }
  | guardianRemoved {caller guardian : Address} {guardians : List Address}
      (hguardians : s.guardians = some guardians) (hmem : guardian ∈ guardians) :
      RecoveryStep e s (.removeGuardian caller guardian)
        { s with guardians := some (guardians.filter (· ≠ guardian)) }
  | thresholdSet {caller : Address} {n : ℕ} (hpos : 0 < n)
      (hle : n ≤ (s.guardians.getD []).length) :
      RecoveryStep e s (.setGuardianThreshold caller n) { s with guardianThreshold := some n }
  | started {initiator oldAdmin newAdmin : Address} {s' : Storage}
      (h : RecoveryStarted e s initiator oldAdmin newAdmin s') :
      RecoveryStep e s (.startRecovery initiator oldAdmin newAdmin) s'
  | approved {approver : Address} {s' : Storage} (h : RecoveryApproved s approver s') :
      RecoveryStep e s (.approveRecovery approver) s'
  | executed {executor : Address} {r : RecoveryRequest} {s' : Storage}
      (h : Recovery.RecoveryExecuted e s r s') : RecoveryStep e s (.executeRecovery executor) s'

/-- **What a step does to the councils.** -/
inductive CouncilStep (e : HelloWorld.Env) (s : Storage) : Op → Storage → Prop
  | quiet {op : Op} {s' : Storage} (hquiet : op.onCouncils = false) (h : SameCouncils s s') :
      CouncilStep e s op s'
  | setUp {admin token : Address} {period delay quorum lock : Option ℕ}
      {minimum threshold : Option ℤ} {s' : Storage}
      (h : SetUp s admin (configOf token period delay quorum minimum lock threshold) s') :
      CouncilStep e s (.govInitialize admin token period delay quorum minimum lock threshold) s'
  | multisigSet {caller : Address} {admins : List Address} {n : ℕ} {s' : Storage}
      (h : MultisigSet s caller admins n s') :
      CouncilStep e s (.setMultisigConfig caller admins n) s'
  | adminsSet {caller : Address} {admins : List Address} {m : MultisigConfig} {s' : Storage}
      (hm : s.multisigConfig = some m) (h : MultisigSet s caller admins m.threshold s') :
      CouncilStep e s (.setMultisigAdmins caller admins) s'
  | thresholdSet {caller : Address} {n : ℕ} {m : MultisigConfig} {s' : Storage}
      (hm : s.multisigConfig = some m) (h : MultisigSet s caller m.admins n s') :
      CouncilStep e s (.setMultisigThreshold caller n) s'
  | distinctSet {caller : Address} {admins : List Address} {n : ℕ} {s' : Storage}
      (hnodup : admins.Nodup) (h : MultisigSet s caller admins n s') :
      CouncilStep e s (.msSetAdmins caller admins n) s'
  | guardianAdded {caller guardian : Address} {s' : Storage}
      (h : GuardianAdded s caller guardian s') : CouncilStep e s (.addGuardian caller guardian) s'
  | guardianRemoved {caller guardian : Address} {g : GuardianConfig} {s' : Storage}
      (h : GuardianRemoved s caller guardian g s') :
      CouncilStep e s (.removeGuardian caller guardian) s'
  | guardianThresholdSet {caller : Address} {n : ℕ} {g : GuardianConfig} {s' : Storage}
      (h : GuardianThresholdSet s caller n g s') :
      CouncilStep e s (.setGuardianThreshold caller n) s'
  | recoveryStarted {initiator oldAdmin newAdmin : Address} {g : GuardianConfig} {s' : Storage}
      (hg : s.guardianConfig = some g) (hmem : initiator ∈ g.guardians)
      (h : RecoveryStarted e s initiator oldAdmin newAdmin s') :
      CouncilStep e s (.startRecovery initiator oldAdmin newAdmin) s'
  | recoveryApproved {approver : Address} {g : GuardianConfig} {r : RecoveryRequest}
      {s' : Storage} (hg : s.guardianConfig = some g) (hmem : approver ∈ g.guardians)
      (hr : s.recoveryRequest = some r) (h : RecoveryApproved s approver s') :
      CouncilStep e s (.approveRecovery approver) s'
  | recoveryExecuted {executor : Address} {g : GuardianConfig} {r : RecoveryRequest}
      {m : MultisigConfig} {s' : Storage} (h : RecoveryExecuted e s g r m s') :
      CouncilStep e s (.executeRecovery executor) s'
  | recovery {op : RecoveryOp} {s' : Storage} (h : RecoveryStep e s op s') :
      CouncilStep e s (.recovery op) s'

theorem PowerOnly.sameCouncils (h : PowerOnly s s') : SameCouncils s s' := by
  obtain ⟨_, _, rfl⟩ := h
  exact ⟨rfl, rfl, rfl, rfl, rfl, rfl, rfl, rfl⟩

theorem Created.sameCouncils {proposer : Address} {proposalType : ProposalType}
    {description : String} {threshold : Option ℤ} {c : GovernanceConfig}
    (h : Created e s proposer proposalType description threshold c s') : SameCouncils s s' := by
  obtain ⟨-, rfl⟩ := h
  exact ⟨rfl, rfl, rfl, rfl, rfl, rfl, rfl, rfl⟩

theorem Approved.sameCouncils {approver : Address} {id : ℕ} {m : MultisigConfig} {p : Proposal}
    (h : Approved s approver id m p s') : SameCouncils s s' := by
  obtain ⟨-, -, -, -, rfl⟩ := h
  exact ⟨rfl, rfl, rfl, rfl, rfl, rfl, rfl, rfl⟩

theorem Executed.sameCouncils {id : ℕ} {c : GovernanceConfig} {p : Proposal} {time : ℕ}
    {t : HelloWorld.Storage} (h : Executed e s id c p time t s') : SameCouncils s s' := by
  rw [h.after]
  exact ⟨rfl, rfl, rfl, rfl, rfl, rfl, rfl, rfl⟩

/-- A call that writes no councils leaves them. -/
theorem step_sameCouncils (hquiet : op.onCouncils = false) (h : step ⟨e, op⟩ s = some s') :
    SameCouncils s s' := by
  cases op <;> cases hquiet
  case core =>
    obtain ⟨_, -, rfl⟩ := coreStep_effect h
    exact ⟨rfl, rfl, rfl, rfl, rfl, rfl, rfl, rfl⟩
  all_goals obtain ⟨_, h⟩ := commit_eq_some.mp h
  case createProposal =>
    obtain ⟨-, _, h⟩ := createProposal_effect h
    exact h.sameCouncils
  case createAdminProposal =>
    obtain ⟨_, h⟩ := createAdminProposal_effect h
    rw [h.after]
    exact ⟨rfl, rfl, rfl, rfl, rfl, rfl, rfl, rfl⟩
  case createEmergencyProposal =>
    obtain ⟨_, h⟩ := createEmergencyProposal_effect h
    rw [h.after]
    exact ⟨rfl, rfl, rfl, rfl, rfl, rfl, rfl, rfl⟩
  case proposeSetMinCollateralRatio =>
    obtain ⟨-, _, h⟩ := createProposal_effect h
    exact h.sameCouncils
  case msProposeSetMinCr =>
    obtain ⟨_, t, _, _, h, happroved⟩ := msProposeSetMinCr_effect h
    rw [happroved.after, h.after]
    exact ⟨rfl, rfl, rfl, rfl, rfl, rfl, rfl, rfl⟩
  case vote =>
    obtain ⟨_, _, _, _, h⟩ := vote_effect h
    rw [h.after]
    exact ⟨rfl, rfl, rfl, rfl, rfl, rfl, rfl, rfl⟩
  case queueProposal =>
    obtain ⟨_, _, _, -, h⟩ := queueProposal_effect h
    rw [h.after]
    exact ⟨rfl, rfl, rfl, rfl, rfl, rfl, rfl, rfl⟩
  case simulateProposal =>
    obtain ⟨_, _, h⟩ := simulateProposal_effect h
    rw [h.after]
    exact ⟨rfl, rfl, rfl, rfl, rfl, rfl, rfl, rfl⟩
  case executeProposal =>
    obtain ⟨_, _, _, _, h⟩ := executeProposal_effect h
    exact h.sameCouncils
  case msExecute =>
    obtain ⟨_, _, _, _, h⟩ := executeProposal_effect h
    exact h.sameCouncils
  case cancelProposal =>
    obtain ⟨_, _, h⟩ := cancelProposal_effect h
    rw [h.after]
    exact ⟨rfl, rfl, rfl, rfl, rfl, rfl, rfl, rfl⟩
  case approveProposal =>
    obtain ⟨_, _, h⟩ := approveProposal_effect h
    exact h.sameCouncils
  case msApprove =>
    obtain ⟨_, _, h⟩ := approveProposal_effect h
    exact h.sameCouncils
  case executeMultisigProposal =>
    obtain ⟨_, _, _, h⟩ := executeMultisigProposal_effect h
    rw [h.after]
    exact ⟨rfl, rfl, rfl, rfl, rfl, rfl, rfl, rfl⟩
  case takeVotePowerSnapshot => exact (takeVotePowerSnapshot_effect h).sameCouncils
  case delegateVote => exact (delegateVote_effect h).sameCouncils
  case revokeDelegation => exact (revokeDelegation_effect h).sameCouncils

theorem recovery_step {op : RecoveryOp} (h : op.apply e s = some s') : RecoveryStep e s op s' := by
  cases op <;> obtain ⟨_, h⟩ := commit_eq_some.mp h
  case setGuardians => exact .guardiansSet (Recovery.setGuardians_effect h)
  case addGuardian =>
    obtain ⟨hfresh, rfl⟩ := Recovery.addGuardian_effect h
    exact .guardianAdded hfresh
  case removeGuardian =>
    obtain ⟨_, hguardians, hmem, rfl⟩ := Recovery.removeGuardian_effect h
    exact .guardianRemoved hguardians hmem
  case setGuardianThreshold =>
    obtain ⟨hpos, hle, rfl⟩ := Recovery.setGuardianThreshold_effect h
    exact .thresholdSet hpos hle
  case startRecovery => exact .started (Recovery.startRecovery_effect h)
  case approveRecovery => exact .approved (Recovery.approveRecovery_effect h)
  case executeRecovery =>
    obtain ⟨_, h⟩ := Recovery.executeRecovery_effect h
    exact .executed h

theorem step_councils (h : step ⟨e, op⟩ s = some s') : CouncilStep e s op s' := by
  by_cases hop : op.onCouncils = false
  · exact .quiet hop (step_sameCouncils hop h)
  cases op <;> first | exact absurd rfl hop | skip
  case recovery => exact .recovery (recovery_step h)
  all_goals obtain ⟨_, h⟩ := commit_eq_some.mp h
  case govInitialize => exact .setUp (govInitialize_effect h)
  case setMultisigConfig => exact .multisigSet (setMultisigConfig_effect h)
  case setMultisigAdmins =>
    obtain ⟨m, hm, h⟩ := setMultisigAdmins_effect h
    exact .adminsSet hm h
  case setMultisigThreshold =>
    obtain ⟨m, hm, h⟩ := setMultisigThreshold_effect h
    exact .thresholdSet hm h
  case msSetAdmins =>
    obtain ⟨hnodup, h⟩ := msSetAdmins_effect h
    exact .distinctSet hnodup h
  case addGuardian => exact .guardianAdded (addGuardian_effect h)
  case removeGuardian =>
    obtain ⟨g, h⟩ := removeGuardian_effect h
    exact .guardianRemoved h
  case setGuardianThreshold =>
    obtain ⟨g, h⟩ := setGuardianThreshold_effect h
    exact .guardianThresholdSet h
  case startRecovery =>
    obtain ⟨-, ⟨g, hg, hmem⟩, h⟩ := startRecovery_effect h
    exact .recoveryStarted hg hmem h
  case approveRecovery =>
    obtain ⟨⟨g, hg, hmem⟩, hsome, h⟩ := approveRecovery_effect h
    obtain ⟨r, hr⟩ := Option.ne_none_iff_exists'.mp hsome
    exact .recoveryApproved hg hmem hr h
  case executeRecovery =>
    obtain ⟨g, r, m, h⟩ := executeRecovery_effect h
    exact .recoveryExecuted h

end StellarLend.Governance
