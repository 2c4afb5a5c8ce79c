import StellarLend.Foundations.History
import StellarLend.Governance.Registry

/-!
# Governance/LifeCycle — the end of a proposal

    pending ──▸ active ──▸ queued ──▸ executed
       │           ├─────▸ defeated ──▸ cancelled
       ├───────────┴──────────────────▸ cancelled
       └──────────────────────────────▸ executed     (by the multisig)

A proposal that was executed or cancelled stays as it is.  One that was defeated is counted again to
the same end, since neither its votes nor the configuration change; but whoever may cancel it still
may.  No proposal is ever seen expired.
-/

namespace StellarLend.Governance

open Foundations Call Function
open Lending (Address)

variable {s s' : Storage} {tx : Tx} {id : ℕ} {p : Proposal}

/-! ## The end -/

/-- The statuses meant to be the last. -/
def ProposalStatus.final : ProposalStatus → Bool
  | .executed | .cancelled | .defeated | .expired => true
  | _ => false

/-- The proposals a transaction executes. -/
def Op.executes : Op → List ℕ
  | .executeProposal _ id | .msExecute _ id | .executeMultisigProposal _ id => [id]
  | _ => []

theorem Op.executes_of_quiet {op : Op} (h : op.onBallots = false) : op.executes = [] := by
  cases op <;> first | rfl | cases h

/-- The proposals a run executes, first to last. -/
def executions (txs : List Tx) : List ℕ :=
  history step (fun _ tx => tx.op.executes) Storage.empty txs

/-- Executions are of different proposals, and a proposal in a last status stays as it is, its votes
too. -/
structure LifeCycle (txs : List Tx) : Prop where
  once : (executions txs).Nodup
  final : ∀ ys zs, ys ++ zs = txs → ∀ id p, (ledger ys).proposal id = some p →
    p.status.final = true →
    (ledger txs).proposal id = some p ∧ (ledger txs).vote id = (ledger ys).vote id

/-- The same, save that proposer and admin may cancel what was defeated. -/
structure LifeCycleKept (txs : List Tx) : Prop where
  once : (executions txs).Nodup
  final : ∀ ys zs, ys ++ zs = txs → ∀ id p, (ledger ys).proposal id = some p →
    p.status.final = true → (ledger txs).vote id = (ledger ys).vote id ∧
    ((ledger txs).proposal id = some p ∨
      p.status = .defeated ∧ (ledger txs).proposal id = some { p with status := .cancelled })
  cancelled : ∀ ys tx s', ys ++ [tx] <+: txs → step tx (ledger ys) = some s' →
    ∀ id p, (ledger ys).proposal id = some p → p.status.final = true →
    s'.proposal id = some p ∨ p.status = .defeated ∧ ∃ caller, tx.op = .cancelProposal caller id ∧
      (caller = p.proposer ∨ (ledger ys).admin = some caller)
  unexpired : ∀ ys, ys <+: txs → ∀ id p, (ledger ys).proposal id = some p → p.status ≠ .expired

/-! ## What has been judged -/

/-- No proposal begins at its end. -/
theorem Fresh.not_final {e : HelloWorld.Env} {op : Op} (h : Fresh e s op p) :
    p.status.final = false := by
  cases h <;> rfl

/-- What was defeated would be again, and nothing is expired. -/
structure Judged (s : Storage) : Prop where
  registry : Registry s
  defeated : ∀ id p c t, s.proposal id = some p → p.status = .defeated → s.config = some c →
    p.tally c = some t → t.succeeded = false
  unexpired : ∀ id p, s.proposal id = some p → p.status ≠ .expired

namespace Judged

theorem empty : Judged Storage.empty where
  registry := Registry.empty
  defeated _ _ _ _ h := by cases h
  unexpired _ _ h := by cases h

theorem step (hs : Judged s) (hstep : Governance.step tx s = some s') : Judged s' := by
  obtain ⟨e, op⟩ := tx
  have hballots := step_ballots hstep
  have hcases : ∀ id p', s'.proposal id = some p' → p'.status.final = false ∨
      ∃ p, s.proposal id = some p ∧ s'.config = s.config ∧ Evolves e s id p op p' := by
    intro id p' hp'
    rcases hp : s.proposal id with _ | p
    · exact .inl (Fresh.not_final (Registry.fresh_of_created hp hp' hballots).2)
    · obtain ⟨q, hq, hevolves⟩ := hs.registry.evolves hp hballots
      obtain rfl := Option.some.inj (hq.symm.trans hp')
      exact .inr ⟨p, rfl, hs.registry.config_eq hp hballots, hevolves⟩
  refine ⟨hs.registry.step hstep, ?_, ?_⟩
  · intro id p' c t hp' hdefeated hc ht
    obtain hfresh | ⟨p, hp, hconfig, hevolves⟩ := hcases id p' hp'
    · rw [hdefeated] at hfresh
      cases hfresh
    · rw [hconfig] at hc
      cases hevolves with
      | kept => exact hs.defeated id _ c t hp hdefeated hc ht
      | voted h =>
        rw [Proposal.counting_eq h.counted_eq, h.active] at hdefeated
        cases hdefeated
      | counted h =>
        obtain rfl := Option.some.inj (hc.symm.trans h.config_eq)
        rw [afterCount_tally, h.tally_eq] at ht
        obtain rfl := Option.some.inj ht
        rw [afterCount] at hdefeated
        split at hdefeated
        case isTrue => cases hdefeated
        case isFalse hfailed => exact Bool.not_eq_true _ ▸ hfailed
      | executed => cases hdefeated
      | cancelled => cases hdefeated
  · intro id p' hp' hexpired
    obtain hfresh | ⟨p, hp, -, hevolves⟩ := hcases id p' hp'
    · rw [hexpired] at hfresh
      cases hfresh
    · cases hevolves with
      | kept => exact hs.unexpired id _ hp hexpired
      | voted h =>
        rw [Proposal.counting_eq h.counted_eq, h.active] at hexpired
        cases hexpired
      | counted h =>
        rw [afterCount] at hexpired
        split at hexpired <;> cases hexpired
      | executed => cases hexpired
      | cancelled => cases hexpired

theorem ledger (txs : List Tx) : Judged (ledger txs) :=
  run_invariant (fun _ _ _ hstep hs => hs.step hstep) txs empty

/-- A proposal in a last status is not active. -/
theorem opened_of_final {now : ℕ} (hfinal : p.status.final = true) :
    (p.opened now).status ≠ .active := by
  rw [Proposal.opened_of_ne_pending fun h => by simp [h, ProposalStatus.final] at hfinal]
  intro h
  simp [h, ProposalStatus.final] at hfinal

/-- **A step keeps a proposal in a last status, or cancels a defeated one.** -/
theorem settled (hs : Judged s) (hstep : Governance.step tx s = some s')
    (hp : s.proposal id = some p) (hfinal : p.status.final = true) :
    s'.proposal id = some p ∨ p.status = .defeated ∧
      s'.proposal id = some { p with status := .cancelled } ∧
      ∃ caller, tx.op = .cancelProposal caller id ∧
        (caller = p.proposer ∨ s.admin = some caller) := by
  obtain ⟨e, op⟩ := tx
  obtain ⟨p', hp', hevolves⟩ := hs.registry.evolves hp (step_ballots hstep)
  rw [hp']
  cases hevolves with
  | kept => exact .inl rfl
  | voted h => exact absurd h.active (opened_of_final hfinal)
  | counted h =>
    have hdefeated : p.status = .defeated := by
      have hqueueable := h.queueable
      revert hfinal hqueueable
      cases p.status <;> simp [ProposalStatus.final, ProposalStatus.queueable]
    have hfailed := hs.defeated id p _ _ hp hdefeated h.config_eq h.tally_eq
    rw [afterCount, if_neg (by rw [hfailed]; exact Bool.false_ne_true), ← hdefeated]
    exact .inl rfl
  | executed hstatus =>
    rcases hstatus with hstatus | hstatus <;> simp [hstatus, ProposalStatus.final] at hfinal
  | @cancelled caller _ _ h =>
    by_cases hdefeated : p.status = .defeated
    · refine .inr ⟨hdefeated, rfl, caller, rfl, h.authority.imp_right fun hadmin => ?_⟩
      rw [hadmin, h.admin_eq]
    · have hcancelled : p.status = .cancelled := by
        have hexecuted := h.notExecuted
        have hexpired := hs.unexpired id p hp
        revert hfinal hdefeated hexecuted hexpired
        cases p.status <;> simp [ProposalStatus.final]
      rw [← hcancelled]
      exact .inl rfl

/-- **No vote is counted on a proposal in a last status.** -/
theorem vote_eq (hstep : Governance.step tx s = some s') (hp : s.proposal id = some p)
    (hfinal : p.status.final = true) : s'.vote id = s.vote id := by
  obtain ⟨e, op⟩ := tx
  refine (Registry.votes_cases (step_ballots hstep) id).resolve_right ?_
  rintro ⟨voter, voteType, c, q, counted, power, -, h⟩
  obtain rfl := Option.some.inj (hp.symm.trans h.proposal_eq)
  exact opened_of_final hfinal h.active

end Judged

/-! ## Once -/

/-- The executed proposals are different and known as executed. -/
structure Ended (h : List ℕ) (s : Storage) : Prop where
  judged : Judged s
  nodup : h.Nodup
  executed : ∀ id ∈ h, ∃ p, s.proposal id = some p ∧ p.status = .executed

/-- A transaction executes a queued or pending proposal, or none. -/
theorem executes_cases (hstep : step tx s = some s') : tx.op.executes = [] ∨
    ∃ id p t, tx.op.executes = [id] ∧ s.proposal id = some p ∧ p.status ≠ .executed ∧
      s' = withExecuted s id p t := by
  obtain ⟨e, op⟩ := tx
  cases step_ballots hstep with
  | quiet hquiet => exact .inl (Op.executes_of_quiet hquiet)
  | created hop =>
    rcases hop with rfl | ⟨_, rfl⟩ <;> exact .inl rfl
  | approved hop => rcases hop with rfl | rfl <;> exact .inl rfl
  | @executed _ id _ p _ t _ _ hop h =>
    refine .inr ⟨id, p, t, ?_, h.proposal_eq, fun hstatus => ?_, h.after⟩
    · rcases hop with rfl | rfl <;> rfl
    · cases hstatus.symm.trans h.queued
  | @executedByMultisig _ id _ p t _ h =>
    refine .inr ⟨id, p, t, rfl, h.proposal_eq, fun hstatus => ?_, h.after⟩
    cases hstatus.symm.trans h.pending
  | setUp | createdApproved | adminCreated | emergencyCreated | voted | counted | cancelled =>
    exact .inl rfl

theorem Ended.step {h : List ℕ} (hs : Ended h s) (hstep : step tx s = some s') :
    Ended (h ++ tx.op.executes) s' := by
  have hkept : ∀ k ∈ h, ∃ p, s'.proposal k = some p ∧ p.status = .executed := by
    intro k hk
    obtain ⟨p, hp, hstatus⟩ := hs.executed k hk
    have hfinal : p.status.final = true := by rw [hstatus]; rfl
    refine ⟨p, (hs.judged.settled hstep hp hfinal).resolve_right fun hdefeated => ?_, hstatus⟩
    cases hstatus.symm.trans hdefeated.1
  refine ⟨hs.judged.step hstep, ?_, ?_⟩
  all_goals obtain hnone | ⟨id, p, t, hone, hp, hstatus, hafter⟩ := executes_cases hstep
  · rw [hnone, List.append_nil]
    exact hs.nodup
  · rw [hone]
    refine nodup_snoc hs.nodup fun ha => ?_
    obtain ⟨q, hq, hexecuted⟩ := hs.executed _ ha
    obtain rfl := Option.some.inj (hp.symm.trans hq)
    exact hstatus hexecuted
  · rw [hnone, List.append_nil]
    exact hkept
  · rw [hone]
    intro k hk
    obtain hk | hk := List.mem_append.mp hk
    · exact hkept k hk
    · obtain rfl := List.mem_singleton.mp hk
      exact ⟨_, by rw [hafter]; exact update_self .., rfl⟩

theorem Ended.ledger (txs : List Tx) : Ended (executions txs) (ledger txs) :=
  history_invariant (I := Ended) (h := []) (fun _ _ _ _ hstep hs => hs.step hstep) txs
    ⟨Judged.empty, List.nodup_nil, fun _ h => absurd h List.not_mem_nil⟩

/-! ## To the end of a run -/

/-- What a run makes of a proposal in a last status. -/
structure Since (p : Proposal) (id : ℕ) (votes : Address → Option VoteInfo) (s : Storage) :
    Prop where
  judged : Judged s
  vote : s.vote id = votes
  proposal : s.proposal id = some p ∨
    p.status = .defeated ∧ s.proposal id = some { p with status := .cancelled }

theorem Since.step {votes : Address → Option VoteInfo} (hfinal : p.status.final = true)
    (hs : Since p id votes s) (hstep : step tx s = some s') : Since p id votes s' := by
  have hjudged := hs.judged.step hstep
  rcases hs.proposal with hp | ⟨hdefeated, hp⟩
  · refine ⟨hjudged, (Judged.vote_eq hstep hp hfinal).trans hs.vote, ?_⟩
    exact (hs.judged.settled hstep hp hfinal).imp_right fun h => ⟨h.1, h.2.1⟩
  · refine ⟨hjudged, (Judged.vote_eq hstep hp rfl).trans hs.vote, .inr ⟨hdefeated, ?_⟩⟩
    exact (hs.judged.settled hstep hp rfl).resolve_right fun h => by cases h.1

/-- **In every run no proposal is executed twice, what was executed or cancelled stays, what was
defeated stays or is cancelled by its proposer or the admin, and nothing is ever expired.** -/
theorem lifeCycleKept (txs : List Tx) : LifeCycleKept txs := by
  refine ⟨(Ended.ledger txs).nodup, ?_, ?_, fun ys _ => (Judged.ledger ys).unexpired⟩
  · rintro ys zs rfl id p hp hfinal
    have hsince : Since p id ((ledger ys).vote id) (run step (ledger ys) zs) :=
      run_invariant (fun _ _ _ hstep hs => hs.step hfinal hstep) zs
        ⟨Judged.ledger ys, rfl, .inl hp⟩
    rw [ledger, run_append]
    exact ⟨hsince.vote, hsince.proposal⟩
  · rintro ys tx s' _ hstep id p hp hfinal
    exact ((Judged.ledger ys).settled hstep hp hfinal).imp_right fun h => ⟨h.1, h.2.2⟩

/-! ## A defeated proposal that is cancelled -/

namespace Sample

/-- Alice's proposal, on which alice votes against it. -/
def defeated : List Tx :=
  [deploy, signed alices 0 alice (.createProposal alice (.emergencyPause true) "" none),
    signed alices 1 alice (.vote alice 0 .against),
    signed alices 604801 alice (.queueProposal alice 0)]

def cancellation : List Tx := [signed alices 604802 alice (.cancelProposal alice 0)]

/-- The proposal as it is defeated. -/
def loser : Proposal where
  id := 0
  proposer := alice
  proposalType := .emergencyPause true
  description := ""
  status := .defeated
  startTime := 0
  endTime := 604800
  executionTime := none
  votingThreshold := 5000
  forVotes := 0
  againstVotes := 100
  abstainVotes := 0
  totalVotingPower := 100
  createdAt := 0

end Sample

theorem not_lifeCycle_cancelled : ¬ LifeCycle (Sample.defeated ++ Sample.cancellation) := by
  intro h
  have hkept := (h.final Sample.defeated Sample.cancellation rfl 0 Sample.loser
    (by decide) rfl).1
  revert hkept
  decide

end StellarLend.Governance
