import StellarLend.Foundations.Quorum
import StellarLend.Governance.LifeCycle

/-!
# Governance/Warrants — who stands behind the execution of a proposal

    a vote that passes ──── execution delay ───▸
    an order of the admin ── execution delay ──▸   the effect
    approvals of the multisig ─────────────────▸
    any one multisig admin ────────────────────▸   (an emergency)

The last line is for emergencies: such a proposal is queued as it is made, to be executed at once,
and no approvals are asked for.  Where approvals are counted, those of former admins are too.
-/

namespace StellarLend.Governance

open Foundations Call Function
open Lending (Address)

variable {e : HelloWorld.Env} {s s' : Storage} {tx : Tx} {op : Op} {id : ℕ} {p : Proposal}

/-! ## Warrants -/

/-- What speaks for a proposal. -/
inductive Warrant where
  /-- A vote passed, and the proposal was queued. -/
  | passed (id time : ℕ)
  /-- The admin queued the proposal. -/
  | ordered (id time : ℕ)
  /-- A multisig admin declared an emergency. -/
  | declared (id : ℕ) (caller : Address)
  /-- A multisig admin approved. -/
  | approved (id : ℕ) (approver : Address)
  deriving DecidableEq

/-- The votes are enough. -/
def passes (s : Storage) (id : ℕ) : Bool :=
  match s.config, s.proposal id with
  | some c, some p => (p.tally c).elim false Tally.succeeded
  | _, _ => false

/-- Who is an admin of the multisig at the moment. -/
def multisigAdminsOf (s : Storage) : List Address :=
  s.multisigConfig.elim [] MultisigConfig.admins

/-- What a transaction adds. -/
def Tx.warrants (s : Storage) (tx : Tx) : List Warrant :=
  match tx.op with
  | .queueProposal _ id => if passes s id = true then [.passed id tx.env.timestamp] else []
  | .createAdminProposal _ _ _ => [.ordered (nextId s) tx.env.timestamp]
  | .createEmergencyProposal caller _ _ =>
    if caller ∈ multisigAdminsOf s then [.declared (nextId s) caller] else []
  | .approveProposal approver id => [.approved id approver]
  | .msApprove approver id => [.approved id approver]
  | .msProposeSetMinCr proposer _ => [.approved (nextId s) proposer]
  | _ => []

theorem warrants_of_quiet {e : HelloWorld.Env} {op : Op} (s : Storage)
    (h : op.onBallots = false) : Tx.warrants s ⟨e, op⟩ = [] := by
  cases op <;> first | rfl | cases h

/-- What a run adds, first to last. -/
def warrants (txs : List Tx) : List Warrant := history step Tx.warrants Storage.empty txs

/-- Who approved a proposal. -/
def approvers (h : List Warrant) (id : ℕ) : List Address :=
  h.filterMap fun
    | .approved k approver => if k = id then some approver else none
    | _ => none

/-- A vote or the admin allows the execution from `t` on. -/
def Ripe (h : List Warrant) (c : GovernanceConfig) (id t : ℕ) : Prop :=
  ∃ time, .passed id time ∈ h ∧ t = time + c.executionDelay ∨
    .ordered id time ∈ h ∧ t = time + max c.executionDelay MIN_TIMELOCK_DELAY

/-- The execution is due after a vote or an order of the admin. -/
def Due (h : List Warrant) (s : Storage) (now id : ℕ) : Prop :=
  ∃ c t, s.config = some c ∧ Ripe h c id t ∧ t ≤ now

/-- Enough admins of the moment approved. -/
def Backed (h : List Warrant) (m : MultisigConfig) (id : ℕ) : Prop :=
  m.threshold ≤ (standing m.admins (approvers h id)).card

/-- The calls of the rest of the contract. -/
def Op.onCore : Op → Bool
  | .core _ => true
  | _ => false

/-- Every execution is due or backed, and governance changes nothing outside but by executions. -/
structure Lawful (txs : List Tx) : Prop where
  warranted : ∀ ys tx zs s', txs = ys ++ tx :: zs → step tx (ledger ys) = some s' →
    ∀ id ∈ tx.op.executes, Due (warrants ys) (ledger ys) tx.env.timestamp id ∨
      ∃ m, (ledger ys).multisigConfig = some m ∧ Backed (warrants ys) m id
  effect : ∀ ys tx zs s', txs = ys ++ tx :: zs → step tx (ledger ys) = some s' →
    tx.op.onCore = false → tx.op.executes = [] → s'.protocol = (ledger ys).protocol

/-- The same with emergencies, and with approvals that were all given by admins of the moment. -/
structure LawfulKept (txs : List Tx) : Prop where
  warranted : ∀ ys tx zs s', txs = ys ++ tx :: zs → step tx (ledger ys) = some s' →
    ∀ id ∈ tx.op.executes, Due (warrants ys) (ledger ys) tx.env.timestamp id ∨
      (∃ caller, .declared id caller ∈ warrants ys) ∨
      ∃ executor m, tx.op = .executeMultisigProposal executor id ∧
        (ledger ys).multisigConfig = some m ∧ executor ∈ m.admins ∧
        (lapsed m.admins (approvers (warrants ys) id) = 0 → Backed (warrants ys) m id)
  effect : ∀ ys tx zs s', txs = ys ++ tx :: zs → step tx (ledger ys) = some s' →
    tx.op.onCore = false → tx.op.executes = [] → s'.protocol = (ledger ys).protocol

/-- What is executed is queued, and not as it was made; or enough approvals are left without those
of former admins. -/
def Countersigned (s : Storage) (tx : Tx) : Prop := ∀ id ∈ tx.op.executes,
  (∃ p, s.proposal id = some p ∧ p.status = .queued ∧ p.executionTime ≠ some p.createdAt) ∨
    ∃ m, s.multisigConfig = some m ∧
      m.threshold + lapsed m.admins (approvalsOf s id) ≤ (approvalsOf s id).length

/-! ## Effects -/

/-- **A step of governance leaves the protocol, or takes one step of it.** -/
theorem step_protocol (hstep : step ⟨e, op⟩ s = some s') : s'.protocol = s.protocol ∨
    (∃ core, op = .core core ∧ HelloWorld.step ⟨e, core⟩ s.protocol = some s'.protocol) ∨
    ∃ id p, op.executes = [id] ∧ s.proposal id = some p ∧
      Applies e p.proposalType s.protocol s'.protocol := by
  cases step_ballots hstep with
  | quiet hquiet =>
    cases step_councils hstep with
    | quiet hquiet' =>
      cases op <;> first
        | exact (Bool.false_ne_true hquiet.symm).elim
        | exact (Bool.false_ne_true hquiet'.symm).elim
        | skip
      case core core =>
        obtain ⟨t, ht, rfl⟩ := coreStep_effect hstep
        exact .inr (.inl ⟨core, rfl, ht⟩)
      all_goals obtain ⟨_, h⟩ := commit_eq_some.mp hstep
      case simulateProposal =>
        obtain ⟨_, _, h⟩ := simulateProposal_effect h
        exact .inl (by rw [h.after])
      case takeVotePowerSnapshot =>
        obtain ⟨_, _, rfl⟩ := takeVotePowerSnapshot_effect h
        exact .inl rfl
      case delegateVote =>
        obtain ⟨_, _, rfl⟩ := delegateVote_effect h
        exact .inl rfl
      case revokeDelegation =>
        obtain ⟨_, _, rfl⟩ := revokeDelegation_effect h
        exact .inl rfl
    | setUp h | multisigSet h | adminsSet _ h | thresholdSet _ h | distinctSet _ h
    | guardianAdded h | guardianRemoved h | guardianThresholdSet h | recoveryStarted _ _ h
    | recoveryApproved _ _ _ h => exact .inl (by rw [h.after])
    | recoveryExecuted h => exact .inl (by rw [h.after]; rfl)
    | recovery h =>
      refine .inl ?_
      cases h with
      | guardiansSet h | started h | approved h => rw [h.after]
      | guardianAdded | guardianRemoved | thresholdSet => rfl
      | executed h =>
        rw [h.after]
        rfl
  | setUp h => exact .inl (by rw [h.after])
  | createdApproved h happroved => exact .inl (by rw [happroved.after, h.after]; rfl)
  | created _ h | adminCreated h | emergencyCreated h | voted h | counted h | cancelled h
  | approved _ h => exact .inl (by rw [h.after]; rfl)
  | @executed _ id _ p _ t _ _ hop h =>
    have hprotocol : s'.protocol = t := by rw [h.after]; rfl
    refine .inr (.inr ⟨id, p, ?_, h.proposal_eq, hprotocol ▸ h.applies⟩)
    rcases hop with rfl | rfl <;> rfl
  | @executedByMultisig _ id _ p t _ h =>
    have hprotocol : s'.protocol = t := by rw [h.after]; rfl
    exact .inr (.inr ⟨id, p, rfl, h.proposal_eq, hprotocol ▸ h.applies⟩)

/-- **Under governance the protocol is in no state it could not be in alone.** -/
theorem protocol_reachable (txs : List Tx) : HelloWorld.Reachable (ledger txs).protocol := by
  refine run_invariant (I := fun s : Storage => HelloWorld.Reachable s.protocol) ?_ txs ⟨[], rfl⟩
  rintro s ⟨e, op⟩ s' hstep ⟨cores, hcores⟩
  have hnext : ∀ {core : HelloWorld.Op},
      HelloWorld.step ⟨e, core⟩ s.protocol = some s'.protocol →
      HelloWorld.Reachable s'.protocol := fun hcore =>
    ⟨cores ++ [⟨e, _⟩], by rw [HelloWorld.ledger_snoc, hcores, exec_of_some hcore]⟩
  rcases step_protocol hstep with hsame | ⟨core, -, hcore⟩ | ⟨_, _, -, -, _, _, -, hcore⟩
  · rw [hsame]
    exact ⟨cores, hcores⟩
  · exact hnext hcore
  · exact hnext hcore

/-! ## What is on record -/

theorem approvers_append (h k : List Warrant) (id : ℕ) :
    approvers (h ++ k) id = approvers h id ++ approvers k id := List.filterMap_append

/-- What was ripe stays so. -/
theorem Ripe.append {h : List Warrant} {c : GovernanceConfig} {t : ℕ} (hripe : Ripe h c id t)
    (k : List Warrant) : Ripe (h ++ k) c id t := by
  obtain ⟨time, hpassed | hordered⟩ := hripe
  · exact ⟨time, .inl ⟨List.mem_append_left k hpassed.1, hpassed.2⟩⟩
  · exact ⟨time, .inr ⟨List.mem_append_left k hordered.1, hordered.2⟩⟩

/-- A vote is on record if the count finds that it passed. -/
theorem Queued.warrants_eq {caller : Address} {c : GovernanceConfig} {t : Tally}
    (h : Queued e s id c p t s') : Tx.warrants s ⟨e, .queueProposal caller id⟩ =
      if t.succeeded = true then [.passed id e.timestamp] else [] := by
  have hpasses : passes s id = t.succeeded := by
    simp only [passes, h.config_eq, h.proposal_eq, h.tally_eq, Option.elim]
  rw [← hpasses]
  rfl

/-- An emergency is on record. -/
theorem EmergencyCreated.warrants_eq {caller : Address} {proposalType : ProposalType}
    {description : String} {m : MultisigConfig}
    (h : EmergencyCreated e s caller proposalType description m s') :
    Tx.warrants s ⟨e, .createEmergencyProposal caller proposalType description⟩ =
      [.declared (nextId s) caller] := by
  have hmem : caller ∈ multisigAdminsOf s := by
    rw [multisigAdminsOf, h.multisig_eq]
    exact h.member
  exact if_pos hmem

/-- The approvals on record are those of the store, and what is queued is so for a reason: for now
in an emergency, for later otherwise. -/
structure OnRecord (h : List Warrant) (s : Storage) : Prop where
  registry : Registry s
  approvers : ∀ id, approvers h id = approvalsOf s id
  ended : ∀ id p, s.proposal id = some p → p.createdAt ≤ p.endTime
  recorded : ∀ id time, .passed id time ∈ h ∨ .ordered id time ∈ h →
    ∃ p, s.proposal id = some p ∧ p.status ≠ .pending ∧ p.executionTime ≠ some p.createdAt
  queued : ∀ id p t, s.proposal id = some p → p.status = .queued → p.executionTime = some t →
    (t = p.createdAt ∧ ∃ caller, .declared id caller ∈ h) ∨ ∃ c, s.config = some c ∧ Ripe h c id t

namespace OnRecord

variable {h : List Warrant}

theorem empty : OnRecord [] Storage.empty where
  registry := Registry.empty
  approvers _ := rfl
  ended _ _ hp := by cases hp
  recorded _ _ hrecord := by rcases hrecord with hrecord | hrecord <;> cases hrecord
  queued _ _ _ hp := by cases hp

/-- An approval goes on record and into the store. -/
theorem approvers_approved {a : Address} {k : ℕ} {m : MultisigConfig}
    (hs : ∀ id, Governance.approvers h id = approvalsOf s id) (happroved : Approved s a k m p s')
    (id : ℕ) : Governance.approvers (h ++ [.approved k a]) id = approvalsOf s' id := by
  rw [approvers_append, hs, happroved.after]
  by_cases hid : id = k
  · subst hid
    simp [Governance.approvers, approvalsOf, withApproval]
  · simp [Governance.approvers, approvalsOf, withApproval, hid, Ne.symm hid]

/-- A proposal begins without approvals. -/
theorem approvalsOf_withProposal (hs : Registry s) (p : Proposal) (id : ℕ) :
    approvalsOf (withProposal s p) id = approvalsOf s id := by
  by_cases hid : id = nextId s
  · rw [hid, approvalsOf, approvalsOf, hs.approvals_nextId]
    simp [withProposal]
  · simp [approvalsOf, withProposal, setProposal, hid]

theorem step_approvers (hs : OnRecord h s) (hstep : step tx s = some s') (id : ℕ) :
    Governance.approvers (h ++ tx.warrants s) id = approvalsOf s' id := by
  obtain ⟨e, op⟩ := tx
  have hkept : Tx.warrants s ⟨e, op⟩ = [] → s'.proposalApprovals = s.proposalApprovals →
      Governance.approvers (h ++ Tx.warrants s ⟨e, op⟩) id = approvalsOf s' id := by
    intro hnone hsame
    rw [hnone, List.append_nil, hs.approvers, approvalsOf, approvalsOf, hsame]
  cases step_ballots hstep with
  | quiet hquiet hsame =>
    exact hkept (warrants_of_quiet s hquiet) hsame.proposalApprovals
  | setUp hafter => exact hkept rfl (by rw [hafter.after])
  | created hop hafter =>
    have hnone : Tx.warrants s ⟨e, op⟩ = [] := by rcases hop with rfl | ⟨_, rfl⟩ <;> rfl
    rw [hnone, List.append_nil, hs.approvers, hafter.after, approvalsOf_withProposal hs.registry]
  | createdApproved hafter happroved =>
    refine approvers_approved (fun k => ?_) happroved id
    rw [hs.approvers, hafter.after, approvalsOf_withProposal hs.registry]
  | adminCreated hafter =>
    rw [approvers_append, hs.approvers, hafter.after]
    exact List.append_nil _
  | @counted caller k _ _ _ _ hafter =>
    have hnone : Governance.approvers (Tx.warrants s ⟨e, .queueProposal caller k⟩) id = [] := by
      rw [hafter.warrants_eq]
      split <;> rfl
    rw [approvers_append, hs.approvers, hnone, List.append_nil, hafter.after]
    rfl
  | @approved approver k _ _ _ _ hop happroved =>
    have hone : Tx.warrants s ⟨e, op⟩ = [.approved k approver] := by
      rcases hop with rfl | rfl <;> rfl
    rw [hone]
    exact approvers_approved hs.approvers happroved id
  | executed hop hafter =>
    refine hkept ?_ (by rw [hafter.after]; rfl)
    rcases hop with rfl | rfl <;> rfl
  | emergencyCreated hafter =>
    rw [approvers_append, hs.approvers, hafter.warrants_eq, hafter.after]
    exact List.append_nil _
  | voted hafter | executedByMultisig hafter | cancelled hafter =>
    exact hkept rfl (by rw [hafter.after]; rfl)

/-- The time of execution a proposal gets from a vote is not that of its creation. -/
theorem executionTime_ne {c : GovernanceConfig} {t : Tally} (hs : OnRecord h s)
    (hq : Queued e s id c p t s') : e.timestamp + c.executionDelay ≠ p.createdAt := by
  have hended := hs.ended id p hq.proposal_eq
  have hlate := hq.ended
  omega

theorem step_recorded (hs : OnRecord h s) (hstep : step tx s = some s') (id time : ℕ)
    (hrecord : .passed id time ∈ h ++ tx.warrants s ∨ .ordered id time ∈ h ++ tx.warrants s) :
    ∃ p, s'.proposal id = some p ∧ p.status ≠ .pending ∧ p.executionTime ≠ some p.createdAt := by
  obtain ⟨e, op⟩ := tx
  have hballots := step_ballots hstep
  have hbefore : .passed id time ∈ h ∨ .ordered id time ∈ h →
      ∃ p, s'.proposal id = some p ∧ p.status ≠ .pending ∧ p.executionTime ≠ some p.createdAt := by
    intro hold
    obtain ⟨p, hp, hstatus, htime⟩ := hs.recorded id time hold
    obtain ⟨p', hp', hevolves⟩ := hs.registry.evolves hp hballots
    refine ⟨p', hp', hevolves.ne_pending hstatus, ?_⟩
    rw [hevolves.times.2.2]
    rcases hevolves.executionTime with hsame | ⟨_, c, t, _, -, hq, -, hsome⟩
    · rwa [hsame]
    · rw [hsome]
      exact fun heq => hs.executionTime_ne hq (Option.some.inj heq)
  simp only [List.mem_append, or_or_or_comm] at hrecord
  refine hrecord.elim hbefore fun hnew => ?_
  cases hballots with
  | quiet hquiet =>
    simp only [warrants_of_quiet s hquiet, List.not_mem_nil, or_self] at hnew
  | created hop =>
    rcases hop with rfl | ⟨_, rfl⟩ <;> simp only [Tx.warrants, List.not_mem_nil, or_self] at hnew
  | @adminCreated _ _ _ c _ hafter =>
    obtain ⟨rfl, rfl⟩ : id = nextId s ∧ time = e.timestamp := by simpa [Tx.warrants] using hnew
    rw [hafter.after]
    refine ⟨_, update_self .., fun hpending => (by cases hpending), fun heq => ?_⟩
    have hsame : e.timestamp + max c.executionDelay MIN_TIMELOCK_DELAY = e.timestamp :=
      Option.some.inj heq
    have hdelay : 0 < max c.executionDelay MIN_TIMELOCK_DELAY := lt_max_of_lt_right (by decide)
    omega
  | @counted _ k c p t _ hq =>
    rw [hq.warrants_eq] at hnew
    split at hnew
    case isFalse => simp at hnew
    case isTrue hsucceeded =>
      obtain ⟨rfl, rfl⟩ : id = k ∧ time = e.timestamp := by simpa using hnew
      rw [hq.after, afterCount, if_pos hsucceeded]
      refine ⟨_, update_self .., fun hpending => (by cases hpending), fun heq => ?_⟩
      exact hs.executionTime_ne hq (Option.some.inj heq)
  | approved hop => rcases hop with rfl | rfl <;> simp only [Tx.warrants, List.mem_cons,
    reduceCtorEq, List.not_mem_nil, or_self] at hnew
  | executed hop => rcases hop with rfl | rfl <;> simp only [Tx.warrants, List.not_mem_nil,
    or_self] at hnew
  | emergencyCreated hafter => simp only [hafter.warrants_eq, List.mem_cons, reduceCtorEq,
    List.not_mem_nil, or_self] at hnew
  | setUp | createdApproved | voted | executedByMultisig | cancelled =>
    simp [Tx.warrants] at hnew

theorem step_queued (hs : OnRecord h s) (hstep : step tx s = some s') {t : ℕ}
    (hp' : s'.proposal id = some p) (hstatus : p.status = .queued)
    (htime : p.executionTime = some t) :
    (t = p.createdAt ∧ ∃ caller, .declared id caller ∈ h ++ tx.warrants s) ∨
      ∃ c, s'.config = some c ∧ Ripe (h ++ tx.warrants s) c id t := by
  obtain ⟨e, op⟩ := tx
  have hballots := step_ballots hstep
  rcases hp : s.proposal id with _ | q
  · obtain ⟨rfl, hfresh⟩ := Registry.fresh_of_created hp hp' hballots
    cases hfresh with
    | proposed => cases hstatus
    | @byAdmin c _ _ _ hc hadmin =>
      obtain rfl := Option.some.inj htime
      have hsome : s.admin ≠ none := fun hnone => by cases hnone.symm.trans hadmin
      exact .inr ⟨c, (Registry.config_of_admin hsome hballots).trans hc, e.timestamp,
        .inr ⟨List.mem_append_right h List.mem_cons_self, rfl⟩⟩
    | @emergency m caller _ _ hm hmem =>
      obtain rfl := Option.some.inj htime
      refine .inl ⟨rfl, caller, List.mem_append_right h ?_⟩
      rw [EmergencyCreated.warrants_eq ⟨hm, hmem, rfl⟩]
      exact List.mem_singleton_self _
  · obtain ⟨q', hq', hevolves⟩ := hs.registry.evolves hp hballots
    obtain rfl := Option.some.inj (hp'.symm.trans hq')
    rw [hs.registry.config_eq hp hballots]
    rcases hevolves.queued hstatus with rfl | ⟨_, c, tl, _, rfl, hq, hsucceeded, hsome⟩
    · rcases hs.queued id p t hp hstatus htime with ⟨hnow, caller, hdeclared⟩ | ⟨c, hc, hripe⟩
      · exact .inl ⟨hnow, caller, List.mem_append_left _ hdeclared⟩
      · exact .inr ⟨c, hc, hripe.append _⟩
    · obtain rfl := Option.some.inj (htime.symm.trans hsome)
      refine .inr ⟨c, hq.config_eq, e.timestamp, .inl ⟨List.mem_append_right h ?_, rfl⟩⟩
      rw [hq.warrants_eq, if_pos hsucceeded]
      exact List.mem_singleton_self _

/-- **Every step keeps the record.** -/
theorem step (hs : OnRecord h s) (hstep : Governance.step tx s = some s') :
    OnRecord (h ++ tx.warrants s) s' := by
  refine ⟨hs.registry.step hstep, hs.step_approvers hstep, fun id p' hp' => ?_,
    hs.step_recorded hstep, fun _ _ _ hp => hs.step_queued hstep hp⟩
  obtain ⟨e, op⟩ := tx
  rcases hp : s.proposal id with _ | p
  · cases (Registry.fresh_of_created hp hp' (step_ballots hstep)).2 with
    | proposed => exact Nat.le_add_right _ _
    | byAdmin | emergency => exact le_rfl
  · obtain ⟨q, hq, hevolves⟩ := hs.registry.evolves hp (step_ballots hstep)
    obtain rfl := Option.some.inj (hp'.symm.trans hq)
    rw [hevolves.times.2.2, hevolves.times.2.1]
    exact hs.ended id p hp

theorem ledger (txs : List Tx) : OnRecord (warrants txs) (ledger txs) :=
  history_invariant (I := OnRecord) (h := []) (fun _ _ _ _ hstep hs => hs.step hstep) txs empty

end OnRecord

/-! ## Executions -/

/-- What is executed is queued and its time has come, or is pending and has approvals. -/
theorem executes_due (hstep : step tx s = some s') (hid : id ∈ tx.op.executes) :
    ∃ p, s.proposal id = some p ∧
      ((p.status = .queued ∧ ∃ t, p.executionTime = some t ∧ t ≤ tx.env.timestamp) ∨
        p.status = .pending ∧ ∃ executor m, tx.op = .executeMultisigProposal executor id ∧
          s.multisigConfig = some m ∧ executor ∈ m.admins ∧
          m.threshold ≤ (approvalsOf s id).length) := by
  obtain ⟨e, op⟩ := tx
  cases step_ballots hstep with
  | quiet hquiet => simp only [Op.executes_of_quiet hquiet, List.not_mem_nil] at hid
  | @executed _ k _ p _ _ _ _ hop h =>
    obtain rfl : id = k := by rcases hop with rfl | rfl <;> exact List.mem_singleton.mp hid
    exact ⟨p, h.proposal_eq, .inl ⟨h.queued, _, h.executionTime_eq, h.ready⟩⟩
  | @executedByMultisig executor k m p _ _ h =>
    obtain rfl : id = k := List.mem_singleton.mp hid
    exact ⟨p, h.proposal_eq, .inr ⟨h.pending, executor, m, rfl, h.multisig_eq, h.member, h.enough⟩⟩
  | created hop => rcases hop with rfl | ⟨_, rfl⟩ <;> cases hid
  | approved hop => rcases hop with rfl | rfl <;> cases hid
  | setUp | createdApproved | adminCreated | emergencyCreated | voted | counted | cancelled =>
    cases hid

/-- What changes the protocol is a call of it or an execution. -/
theorem protocol_eq (hstep : step tx s = some s') (hcore : tx.op.onCore = false)
    (hnone : tx.op.executes = []) : s'.protocol = s.protocol := by
  obtain ⟨e, op⟩ := tx
  rcases step_protocol hstep with hsame | ⟨core, rfl, -⟩ | ⟨id, _, hone, -⟩
  · exact hsame
  · cases hcore
  · cases hnone.symm.trans hone

/-- The approvals of enough admins of the moment are on record exactly if the list is long enough
without the others. -/
theorem backed_iff_length {h : List Warrant} (hs : OnRecord h s) (m : MultisigConfig) (id : ℕ) :
    Backed h m id ↔
      m.threshold + lapsed m.admins (approvalsOf s id) ≤ (approvalsOf s id).length := by
  rw [Backed, hs.approvers]
  exact le_card_standing_iff (hs.registry.approvalsOf_nodup id)

/-- **In every run what is executed was voted for or ordered by the admin and has waited, was
declared an emergency by an admin of the multisig, or was approved and is executed by an admin of
the multisig; and nothing else of governance has an effect.** -/
theorem lawfulKept (txs : List Tx) : LawfulKept txs := by
  refine ⟨fun ys tx zs s' _ hstep id hid => ?_, fun _ _ _ _ _ => protocol_eq⟩
  have hs := OnRecord.ledger ys
  obtain ⟨p, hp, ⟨hqueued, t, ht, hle⟩ | ⟨-, executor, m, hop, hm, hmem, henough⟩⟩ :=
    executes_due hstep hid
  · rcases hs.queued id p t hp hqueued ht with ⟨-, hdeclared⟩ | ⟨c, hc, hripe⟩
    · exact .inr (.inl hdeclared)
    · exact .inl ⟨c, t, hc, hripe, hle⟩
  · refine .inr (.inr ⟨executor, m, hop, hm, hmem, fun hlapsed => ?_⟩)
    rw [hs.approvers] at hlapsed
    rwa [backed_iff_length hs, hlapsed]

/-- **Executions in a run are all due or backed exactly if what they execute was not queued as it
was made, or has enough approvals without those of former admins.** -/
theorem lawful_iff (txs : List Tx) : Lawful txs ↔ Meets step Countersigned Storage.empty txs := by
  rw [meets_iff]
  constructor
  · rintro h ys tx zs s' htxs hstep id hid
    have hs := OnRecord.ledger ys
    rcases h.warranted ys tx zs s' htxs hstep id hid with ⟨c, t, -, ⟨time, hrecord⟩, -⟩ |
      ⟨m, hm, hbacked⟩
    · obtain ⟨p, hp, hstatus, htime⟩ := hs.recorded id time (hrecord.imp And.left And.left)
      obtain ⟨q, hq, hdue⟩ := executes_due hstep hid
      obtain rfl := Option.some.inj (hp.symm.trans hq)
      have hqueued := hdue.resolve_right fun hpending => hstatus hpending.1
      exact .inl ⟨p, hp, hqueued.1, htime⟩
    · exact .inr ⟨m, hm, (backed_iff_length hs m id).mp hbacked⟩
  · intro h
    refine ⟨fun ys tx zs s' htxs hstep id hid => ?_, fun _ _ _ _ _ => protocol_eq⟩
    have hs := OnRecord.ledger ys
    rcases h ys tx zs s' htxs hstep id hid with ⟨p, hp, hqueued, hne⟩ | ⟨m, hm, henough⟩
    · obtain ⟨q, hq, hdue⟩ := executes_due hstep hid
      obtain rfl := Option.some.inj (hp.symm.trans hq)
      obtain ⟨-, t, ht, hle⟩ := hdue.resolve_right fun hpending => by
        cases hqueued.symm.trans hpending.1
      have hlater : t ≠ p.createdAt := fun heq => hne (heq ▸ ht)
      obtain ⟨c, hc, hripe⟩ :=
        (hs.queued id p t hp hqueued ht).resolve_left fun hnow => hlater hnow.1
      exact .inl ⟨c, t, hc, hripe, hle⟩
    · exact .inr ⟨m, hm, (backed_iff_length hs m id).mpr henough⟩

/-! ## One admin of several -/

namespace Sample

/-- Alice and bob are to decide together, and bob pauses the protocol alone. -/
def council : List Tx :=
  [deploy, signed alices 0 admin (.core (.initializeContract admin)),
    signed alices 0 admin (.setMultisigConfig admin [alice, bob] 2),
    signed alices 5 bob (.createEmergencyProposal bob (.emergencyPause true) "")]

def seizure : Tx := signed alices 5 bob (.executeProposal bob 0)

end Sample

theorem not_lawful_emergency : ¬ Lawful (Sample.council ++ [Sample.seizure]) := by
  intro h
  have hsome : (step Sample.seizure (ledger Sample.council)).isSome = true := by decide
  obtain ⟨s', hstep⟩ := Option.isSome_iff_exists.mp hsome
  have hwarrants : warrants Sample.council = [.declared 0 Sample.bob] := by decide
  have hmultisig : (ledger Sample.council).multisigConfig =
      some ⟨[Sample.alice, Sample.bob], 2⟩ := by decide
  obtain ⟨_, _, -, ⟨_, hrecord⟩, -⟩ | ⟨m, hm, hbacked⟩ :=
    h.warranted Sample.council Sample.seizure [] s' rfl hstep 0 (List.mem_singleton_self 0)
  · simp [hwarrants] at hrecord
  · obtain rfl := Option.some.inj (hmultisig.symm.trans hm)
    rw [Backed, hwarrants] at hbacked
    revert hbacked
    decide

end StellarLend.Governance
