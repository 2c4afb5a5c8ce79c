import StellarLend.Foundations.Quorum
import StellarLend.Governance.Steps

/-!
# Governance/Registry — proposals are told apart

A proposal is made under a number that no proposal had before, no approval of it is counted twice,
and the configuration it is judged by stays.  `step_proposal` says what a step makes of a proposal
that is there, `step_created` which proposals are new, `step_vote` which votes are.
-/

namespace StellarLend.Governance

open Foundations Call Function
open Lending (Address)

variable {e : HelloWorld.Env} {s s' : Storage} {op : Op} {id : ℕ} {p p' : Proposal} {a : Address}

/-- Nothing is there before the setup; proposals, votes and approvals have numbers given out. -/
structure Registry (s : Storage) : Prop where
  fresh : s.admin = none → s.config = none ∧ s.multisigConfig = none ∧ nextId s = 0
  proposal : ∀ id p, s.proposal id = some p → id < nextId s
  vote : ∀ id a v, s.vote id a = some v → id < nextId s
  approvals : ∀ id l, s.proposalApprovals id = some l → id < nextId s ∧ l.Nodup

/-! ## What a step makes of a proposal -/

/-- What a call may make of a proposal. -/
inductive Evolves (e : HelloWorld.Env) (s : Storage) (id : ℕ) (p : Proposal) : Op → Proposal → Prop
  | kept {op : Op} : Evolves e s id p op p
  | voted {voter : Address} {voteType : VoteType} {c : GovernanceConfig} {counted : Proposal}
      {power : ℤ} {s' : Storage} (h : Voted e s voter id voteType c p counted power s') :
      Evolves e s id p (.vote voter id voteType) counted
  | counted {caller : Address} {c : GovernanceConfig} {t : Tally} {s' : Storage}
      (h : Queued e s id c p t s') :
      Evolves e s id p (.queueProposal caller id)
        (afterCount p t (e.timestamp + c.executionDelay))
  | executed {op : Op} (hstatus : p.status = .queued ∨ p.status = .pending) :
      Evolves e s id p op { p with status := .executed }
  | cancelled {caller admin : Address} {s' : Storage} (h : Cancelled s caller id admin p s') :
      Evolves e s id p (.cancelProposal caller id) { p with status := .cancelled }

/-- A proposal as it is made: put to the vote, or queued for later or for now. -/
inductive Fresh (e : HelloWorld.Env) (s : Storage) : Op → Proposal → Prop
  | proposed {op : Op} {c : GovernanceConfig} {proposer : Address} {proposalType : ProposalType}
      {description : String} {threshold : Option ℤ} (hc : s.config = some c) :
      Fresh e s op (proposalOf s e.timestamp c proposer proposalType description threshold)
  | byAdmin {c : GovernanceConfig} {admin : Address} {proposalType : ProposalType}
      {description : String} (hc : s.config = some c) (hadmin : s.admin = some admin) :
      Fresh e s (.createAdminProposal admin proposalType description)
        (queuedProposal s e.timestamp (e.timestamp + max c.executionDelay MIN_TIMELOCK_DELAY) admin
          proposalType description)
  | emergency {m : MultisigConfig} {caller : Address} {proposalType : ProposalType}
      {description : String} (hm : s.multisigConfig = some m) (hmem : caller ∈ m.admins) :
      Fresh e s (.createEmergencyProposal caller proposalType description)
        (queuedProposal s e.timestamp e.timestamp caller proposalType description)

/-- A proposal starts when it is made. -/
theorem Fresh.startTime_eq (h : Fresh e s op p) : p.startTime = e.timestamp := by
  cases h <;> rfl

/-- The times of a proposal stay. -/
theorem Evolves.times (h : Evolves e s id p op p') :
    p'.startTime = p.startTime ∧ p'.endTime = p.endTime ∧ p'.createdAt = p.createdAt := by
  cases h with
  | kept | executed | cancelled => exact ⟨rfl, rfl, rfl⟩
  | voted h =>
    rw [Proposal.counting_eq h.counted_eq, Proposal.opened_eq]
    exact ⟨rfl, rfl, rfl⟩
  | counted =>
    rw [afterCount]
    split <;> exact ⟨rfl, rfl, rfl⟩

/-- No proposal goes back to the start. -/
theorem Evolves.ne_pending (h : Evolves e s id p op p') (hp : p.status ≠ .pending) :
    p'.status ≠ .pending := by
  intro hpending
  cases h with
  | kept => exact hp hpending
  | executed | cancelled => cases hpending
  | voted h =>
    rw [Proposal.counting_eq h.counted_eq, h.active] at hpending
    cases hpending
  | counted =>
    rw [afterCount] at hpending
    split at hpending <;> cases hpending

/-- A proposal gets a time of execution only when it is queued. -/
theorem Evolves.executionTime (h : Evolves e s id p op p') :
    p'.executionTime = p.executionTime ∨ ∃ caller c t s', op = .queueProposal caller id ∧
      Queued e s id c p t s' ∧ t.succeeded = true ∧
      p'.executionTime = some (e.timestamp + c.executionDelay) := by
  cases h with
  | kept | executed | cancelled => exact .inl rfl
  | voted h =>
    rw [Proposal.counting_eq h.counted_eq, Proposal.opened_eq]
    exact .inl rfl
  | @counted caller c t s' h =>
    rw [afterCount]
    split
    case isTrue hsucceeded => exact .inr ⟨caller, c, t, s', rfl, h, hsucceeded, rfl⟩
    case isFalse => exact .inl rfl

/-- A proposal is queued from before or by the step. -/
theorem Evolves.queued (h : Evolves e s id p op p') (hp : p'.status = .queued) : p' = p ∨
    ∃ caller c t s', op = .queueProposal caller id ∧ Queued e s id c p t s' ∧
      t.succeeded = true ∧ p'.executionTime = some (e.timestamp + c.executionDelay) := by
  cases h with
  | kept => exact .inl rfl
  | executed | cancelled => cases hp
  | voted h =>
    rw [Proposal.counting_eq h.counted_eq, h.active] at hp
    cases hp
  | @counted caller c t s' h =>
    rw [afterCount] at hp ⊢
    split at hp
    case isTrue hsucceeded =>
      rw [if_pos hsucceeded]
      exact .inr ⟨caller, c, t, s', rfl, h, hsucceeded, rfl⟩
    case isFalse => cases hp

/-- An entry of a table after one entry was written. -/
theorem update_some_iff {α : Type} {f : ℕ → Option α} {k : ℕ} {x y : α} :
    update f k (some x) id = some y ↔ id = k ∧ x = y ∨ id ≠ k ∧ f id = some y := by
  rw [update_apply]
  split <;> simp_all

namespace Registry

theorem empty : Registry Storage.empty where
  fresh _ := ⟨rfl, rfl, rfl⟩
  proposal _ _ h := by cases h
  vote _ _ _ h := by cases h
  approvals _ _ h := by cases h

theorem vote_nextId (hs : Registry s) (a : Address) : s.vote (nextId s) a = none :=
  Option.eq_none_iff_forall_ne_some.mpr fun v h => (hs.vote _ a v h).false

theorem approvals_nextId (hs : Registry s) : s.proposalApprovals (nextId s) = none :=
  Option.eq_none_iff_forall_ne_some.mpr fun l h => (hs.approvals _ l h).1.false

theorem approvalsOf_nodup (hs : Registry s) (id : ℕ) : (approvalsOf s id).Nodup := by
  rw [approvalsOf]
  rcases h : s.proposalApprovals id with _ | l
  · exact List.nodup_nil
  · exact (hs.approvals id l h).2

theorem admin_ne_none (hs : Registry s) (hp : s.proposal id = some p) : s.admin ≠ none := by
  intro hnone
  have hlt := hs.proposal id p hp
  rw [(hs.fresh hnone).2.2] at hlt
  exact absurd hlt (Nat.not_lt_zero _)

/-! ### Each kind of step -/

theorem setUp {c : GovernanceConfig} (hs : Registry s) (h : SetUp s a c s') : Registry s' := by
  have hzero : nextId s = 0 := (hs.fresh h.fresh).2.2
  rw [h.after]
  refine ⟨fun hnone => absurd hnone (Option.some_ne_none _), fun id p hp => ?_, fun id a v hv => ?_,
    fun id l hl => ?_⟩
  · exact absurd (hzero ▸ hs.proposal id p hp) (Nat.not_lt_zero _)
  · exact absurd (hzero ▸ hs.vote id a v hv) (Nat.not_lt_zero _)
  · exact absurd (hzero ▸ (hs.approvals id l hl).1) (Nat.not_lt_zero _)

/-- A proposal made under the next number, with no approvals or without any. -/
theorem created (hs : Registry s) (hadmin : s.admin ≠ none) (h : s'.admin = s.admin)
    (hnext : s'.nextProposalId = some (nextId s + 1))
    (hproposal : s'.proposal = update s.proposal (nextId s) (some p)) (hvote : s'.vote = s.vote)
    (happrovals : s'.proposalApprovals = s.proposalApprovals ∨
      s'.proposalApprovals = update s.proposalApprovals (nextId s) (some [])) : Registry s' := by
  have hlt : ∀ {k : ℕ}, k < nextId s → k < nextId s' := fun hk => by
    rw [nextId, hnext]
    exact Nat.lt_succ_of_lt hk
  have hself : nextId s < nextId s' := by
    rw [nextId, nextId, hnext]
    exact Nat.lt_succ_self _
  refine ⟨fun hnone => absurd (h ▸ hnone) hadmin, fun k q hk => ?_, fun k a v hk => ?_,
    fun k l hk => ?_⟩
  · rw [hproposal, update_some_iff] at hk
    rcases hk with ⟨rfl, -⟩ | ⟨-, hk⟩
    · exact hself
    · exact hlt (hs.proposal k q hk)
  · rw [hvote] at hk
    exact hlt (hs.vote k a v hk)
  · rcases happrovals with heq | heq
    · rw [heq] at hk
      exact ⟨hlt (hs.approvals k l hk).1, (hs.approvals k l hk).2⟩
    · rw [heq, update_some_iff] at hk
      rcases hk with ⟨rfl, rfl⟩ | ⟨-, hk⟩
      · exact ⟨hself, List.nodup_nil⟩
      · exact ⟨hlt (hs.approvals k l hk).1, (hs.approvals k l hk).2⟩

theorem proposed {proposalType : ProposalType} {description : String} {threshold : Option ℤ}
    {c : GovernanceConfig} (hs : Registry s)
    (h : Created e s a proposalType description threshold c s') : Registry s' := by
  have hadmin : s.admin ≠ none := fun hnone => by
    cases (hs.fresh hnone).1.symm.trans h.config_eq
  rw [h.after]
  exact hs.created hadmin rfl rfl rfl rfl (.inr rfl)

/-- A proposal that is there is written, and perhaps a vote on it. -/
theorem written (hs : Registry s) (hp : s.proposal id = some p) (h : s'.admin = s.admin)
    (hnext : s'.nextProposalId = s.nextProposalId)
    (hproposal : s'.proposal = update s.proposal id (some p'))
    (hvote : ∀ k a v, s'.vote k a = some v → k = id ∨ s.vote k a = some v)
    (happrovals : s'.proposalApprovals = s.proposalApprovals) : Registry s' := by
  have hsame : nextId s' = nextId s := by rw [nextId, hnext, nextId]
  refine ⟨fun hnone => absurd (h ▸ hnone) (hs.admin_ne_none hp), fun k q hk => ?_,
    fun k a v hk => ?_, fun k l hk => ?_⟩
  · rw [hproposal, update_some_iff] at hk
    rw [hsame]
    rcases hk with ⟨rfl, -⟩ | ⟨-, hk⟩
    · exact hs.proposal k p hp
    · exact hs.proposal k q hk
  · rw [hsame]
    rcases hvote k a v hk with rfl | hk
    · exact hs.proposal k p hp
    · exact hs.vote k a v hk
  · rw [hsame]
    exact hs.approvals k l (happrovals ▸ hk)

theorem voted {voter : Address} {voteType : VoteType} {c : GovernanceConfig} {power : ℤ}
    (hs : Registry s) (h : Voted e s voter id voteType c p p' power s') : Registry s' := by
  have hp := h.proposal_eq
  rw [h.after]
  refine hs.written hp rfl rfl rfl (fun k a v hk => ?_) rfl
  change update s.vote id _ k a = some v at hk
  rw [update_apply] at hk
  split at hk
  case isTrue hid => exact .inl hid
  case isFalse => exact .inr hk

theorem approved {m : MultisigConfig} (hs : Registry s) (h : Approved s a id m p s') :
    Registry s' := by
  have hp := h.proposal_eq
  rw [h.after]
  refine ⟨fun hnone => absurd hnone (hs.admin_ne_none hp), hs.proposal, hs.vote, fun k l hk => ?_⟩
  change update s.proposalApprovals id _ k = some l at hk
  rw [update_some_iff] at hk
  rcases hk with ⟨rfl, rfl⟩ | ⟨-, hk⟩
  · exact ⟨hs.proposal k p hp, nodup_snoc (hs.approvalsOf_nodup k) h.fresh⟩
  · exact hs.approvals k l hk

/-- No multisig is configured before the setup. -/
theorem multisig_none (hs : Registry s) (hadmin : s.admin = none) (hnone : s'.admin = none)
    (hstep : CouncilStep e s op s') : s'.multisigConfig = none := by
  have hm : s.multisigConfig = none := (hs.fresh hadmin).2.1
  cases hstep with
  | quiet _ h => rw [h.multisigConfig, hm]
  | setUp h =>
    rw [h.after] at hnone
    cases hnone
  | multisigSet h | adminsSet _ h | thresholdSet _ h | distinctSet _ h | guardianAdded h
  | guardianRemoved h | guardianThresholdSet h =>
    cases hadmin.symm.trans h.admin_eq
  | recoveryStarted _ _ h | recoveryApproved _ _ _ h => rw [h.after, hm]
  | recoveryExecuted h => cases hm.symm.trans h.multisig_eq
  | recovery h =>
    cases h with
    | guardiansSet h | started h | approved h | executed h => rw [h.after]; exact hm
    | guardianAdded | guardianRemoved | thresholdSet => exact hm

/-- **Every step keeps the registry.** -/
theorem step {tx : Tx} (hs : Registry s) (hstep : Governance.step tx s = some s') :
    Registry s' := by
  obtain ⟨e, op⟩ := tx
  have hcouncils := step_councils hstep
  cases step_ballots hstep with
  | quiet _ h =>
    have hsame : nextId s' = nextId s := by rw [nextId, h.nextProposalId, nextId]
    refine ⟨fun hnone => ?_, fun k p hk => ?_, fun k a v hk => ?_, fun k l hk => ?_⟩
    · have hbefore : s.admin = none := h.admin ▸ hnone
      exact ⟨h.config.trans (hs.fresh hbefore).1, hs.multisig_none hbefore hnone hcouncils,
        hsame.trans (hs.fresh hbefore).2.2⟩
    · exact hsame ▸ hs.proposal k p (h.proposal ▸ hk)
    · exact hsame ▸ hs.vote k a v (h.vote ▸ hk)
    · exact hsame ▸ hs.approvals k l (h.proposalApprovals ▸ hk)
  | setUp h => exact hs.setUp h
  | created _ h => exact hs.proposed h
  | createdApproved h happroved => exact (hs.proposed h).approved happroved
  | adminCreated h =>
    have hadmin : s.admin ≠ none := fun hnone => by cases hnone.symm.trans h.admin_eq
    rw [h.after]
    exact hs.created hadmin rfl rfl rfl rfl (.inl rfl)
  | emergencyCreated h =>
    have hadmin : s.admin ≠ none := fun hnone => by
      cases (hs.fresh hnone).2.1.symm.trans h.multisig_eq
    rw [h.after]
    exact hs.created hadmin rfl rfl rfl rfl (.inl rfl)
  | voted h => exact hs.voted h
  | counted h =>
    have hp := h.proposal_eq
    rw [h.after]
    exact hs.written hp rfl rfl rfl (fun _ _ _ hv => .inr hv) rfl
  | executed _ h =>
    have hp := h.proposal_eq
    rw [h.after]
    exact hs.written hp rfl rfl rfl (fun _ _ _ hv => .inr hv) rfl
  | executedByMultisig h =>
    have hp := h.proposal_eq
    rw [h.after]
    exact hs.written hp rfl rfl rfl (fun _ _ _ hv => .inr hv) rfl
  | cancelled h =>
    have hp := h.proposal_eq
    rw [h.after]
    exact hs.written hp rfl rfl rfl (fun _ _ _ hv => .inr hv) rfl
  | approved _ h => exact hs.approved h

/-- **The registry is kept along every run.** -/
theorem ledger (txs : List Tx) : Registry (ledger txs) :=
  run_invariant (fun _ _ _ hstep hs => hs.step hstep) txs empty

/-! ### Proposals and votes across a step -/

/-- The configuration stays once there is an admin. -/
theorem config_of_admin (hadmin : s.admin ≠ none) (h : BallotStep e s op s') :
    s'.config = s.config := by
  cases h with
  | quiet _ h => exact h.config
  | setUp h => exact absurd h.fresh hadmin
  | createdApproved h happroved => rw [happroved.after, h.after]; rfl
  | created _ h | adminCreated h | emergencyCreated h | voted h | counted h | executed _ h
  | executedByMultisig h | cancelled h | approved _ h => rw [h.after]; rfl

/-- So it stays once there is a proposal. -/
theorem config_eq (hs : Registry s) (hp : s.proposal id = some p) (h : BallotStep e s op s') :
    s'.config = s.config := config_of_admin (hs.admin_ne_none hp) h

/-- **A step keeps a proposal or makes of it what its call may.** -/
theorem evolves (hs : Registry s) (hp : s.proposal id = some p) (h : BallotStep e s op s') :
    ∃ p', s'.proposal id = some p' ∧ Evolves e s id p op p' := by
  have hother : id ≠ nextId s := (hs.proposal id p hp).ne
  have hwritten : ∀ {k : ℕ} {q q' : Proposal}, s.proposal k = some q →
      s'.proposal = update s.proposal k (some q') → (k = id → q = p → Evolves e s id p op q') →
      ∃ p', s'.proposal id = some p' ∧ Evolves e s id p op p' := by
    intro k q q' hq hafter hevolves
    by_cases hk : k = id
    · subst hk
      refine ⟨q', by rw [hafter, update_self], hevolves rfl ?_⟩
      exact Option.some.inj (hq.symm.trans hp)
    · exact ⟨p, by rw [hafter, update_of_ne (Ne.symm hk), hp], .kept⟩
  have hadded : ∀ {q : Proposal}, s'.proposal = update s.proposal (nextId s) (some q) →
      ∃ p', s'.proposal id = some p' ∧ Evolves e s id p op p' := fun hafter =>
    ⟨p, by rw [hafter, update_of_ne hother, hp], .kept⟩
  cases h with
  | quiet _ h => exact ⟨p, by rw [h.proposal, hp], .kept⟩
  | setUp h => exact ⟨p, by rw [h.after]; exact hp, .kept⟩
  | created _ h | adminCreated h | emergencyCreated h => exact hadded (by rw [h.after]; rfl)
  | createdApproved h happroved => exact hadded (by rw [happroved.after, h.after]; rfl)
  | voted h =>
    refine hwritten h.proposal_eq (by rw [h.after]; rfl) ?_
    rintro rfl rfl
    exact .voted h
  | counted h =>
    refine hwritten h.proposal_eq (by rw [h.after]; rfl) ?_
    rintro rfl rfl
    exact .counted h
  | executed _ h =>
    refine hwritten h.proposal_eq (by rw [h.after]; rfl) ?_
    rintro rfl rfl
    exact .executed (.inl h.queued)
  | executedByMultisig h =>
    refine hwritten h.proposal_eq (by rw [h.after]; rfl) ?_
    rintro rfl rfl
    exact .executed (.inr h.pending)
  | cancelled h =>
    refine hwritten h.proposal_eq (by rw [h.after]; rfl) ?_
    rintro rfl rfl
    exact .cancelled h
  | approved _ h => exact ⟨p, by rw [h.after]; exact hp, .kept⟩

/-- **A proposal that was not there is fresh, under the next number.** -/
theorem fresh_of_created (hp : s.proposal id = none) (hp' : s'.proposal id = some p')
    (h : BallotStep e s op s') : id = nextId s ∧ Fresh e s op p' := by
  have hwritten : ∀ {k : ℕ} {q q' : Proposal}, s.proposal k = some q →
      s'.proposal = update s.proposal k (some q') → id = nextId s ∧ Fresh e s op p' := by
    intro k q q' hq hafter
    rw [hafter, update_some_iff] at hp'
    rcases hp' with ⟨rfl, -⟩ | ⟨-, hp'⟩
    · cases hp.symm.trans hq
    · cases hp.symm.trans hp'
  have hadded : ∀ {q : Proposal}, s'.proposal = update s.proposal (nextId s) (some q) →
      Fresh e s op q → id = nextId s ∧ Fresh e s op p' := by
    intro q hafter hfresh
    rw [hafter, update_some_iff] at hp'
    rcases hp' with ⟨hid, rfl⟩ | ⟨-, hp'⟩
    · exact ⟨hid, hfresh⟩
    · cases hp.symm.trans hp'
  cases h with
  | quiet _ h => cases hp.symm.trans (h.proposal ▸ hp')
  | setUp h =>
    rw [h.after] at hp'
    cases hp.symm.trans hp'
  | created _ h => exact hadded (by rw [h.after]; rfl) (.proposed h.config_eq)
  | createdApproved h happroved =>
    exact hadded (by rw [happroved.after, h.after]; rfl) (.proposed h.config_eq)
  | adminCreated h => exact hadded (by rw [h.after]; rfl) (.byAdmin h.config_eq h.admin_eq)
  | emergencyCreated h => exact hadded (by rw [h.after]; rfl) (.emergency h.multisig_eq h.member)
  | voted h | counted h | executed _ h | executedByMultisig h | cancelled h =>
    exact hwritten h.proposal_eq (by rw [h.after]; rfl)
  | approved _ h =>
    rw [h.after] at hp'
    cases hp.symm.trans hp'

/-- **A step leaves the votes on a proposal or adds one.** -/
theorem votes_cases (h : BallotStep e s op s') (id : ℕ) : s'.vote id = s.vote id ∨
    ∃ voter voteType c p counted power, op = .vote voter id voteType ∧
      Voted e s voter id voteType c p counted power s' := by
  cases h with
  | quiet _ h => exact .inl (by rw [h.vote])
  | createdApproved h happroved => exact .inl (by rw [happroved.after, h.after]; rfl)
  | setUp h => exact .inl (by rw [h.after])
  | created _ h | adminCreated h | emergencyCreated h | counted h | executed _ h
  | executedByMultisig h | cancelled h | approved _ h => exact .inl (by rw [h.after]; rfl)
  | @voted voter k voteType c p counted power _ h =>
    by_cases hk : k = id
    · subst hk
      exact .inr ⟨voter, voteType, c, p, counted, power, rfl, h⟩
    · refine .inl ?_
      rw [h.after]
      exact update_of_ne (Ne.symm hk) _ _

end Registry

end StellarLend.Governance
