import StellarLend.Governance.VotingPower

/-!
# Governance/Elections — what queues a proposal

    asked of a vote that passes          what the code looks at
    cast before the end                  the status of the proposal
    a quorum of the supply took part     a quorum of what was cast
    somebody is for it                   ―
    for ≥ threshold × total              for ≥ ⌊threshold × total⌋

A simulation counts as `queue_proposal` does, and looks at neither the time nor the status.
`sincere_of_regular` says where this makes no difference.
-/

namespace StellarLend.Governance

open Foundations Call Function
open Lending (Address)

variable {e : HelloWorld.Env} {s s' : Storage} {tx : Tx} {op : Op} {id : ℕ} {p p' : Proposal}
  {c : GovernanceConfig} {t : Tally}

/-! ## Elections and forecasts -/

/-- The votes on a proposal are in time, enough, and for it. -/
structure Elected (e : HelloWorld.Env) (s : Storage) (c : GovernanceConfig) (id : ℕ)
    (p : Proposal) : Prop where
  window : ∀ a v, s.vote id a = some v → p.startTime ≤ v.timestamp ∧ v.timestamp ≤ p.endTime
  quorum : ∀ S, TotalsTo (holding e s c.voteToken) S → S * c.quorumBps ≤ p.turnout * 10000
  supported : 0 < p.forVotes
  threshold : p.totalVotingPower * p.votingThreshold ≤ p.forVotes * 10000

/-- A simulation says that the proposal would succeed. -/
def Forecast (e : HelloWorld.Env) (s : Storage) (id : ℕ) : Prop :=
  ∃ result s', simulateProposal id e s = .ok result s' ∧ result.wouldSucceed = true

/-- Somebody could queue the proposal at this moment. -/
def Queueable (e : HelloWorld.Env) (s : Storage) (id : ℕ) : Prop :=
  ∃ caller outcome s', queueProposal caller id { e with auths := [caller] } s = .ok outcome s' ∧
    (s'.proposal id).map Proposal.status = some .queued

/-- What is queued was elected, and every simulation tells what would be queued. -/
structure Sincere (txs : List Tx) : Prop where
  elected : ∀ ys tx zs s', txs = ys ++ tx :: zs → step tx (ledger ys) = some s' →
    ∀ caller id p', tx.op = .queueProposal caller id → s'.proposal id = some p' →
      p'.status = .queued → ∃ c p, (ledger ys).config = some c ∧
        (ledger ys).proposal id = some p ∧ Elected tx.env (ledger ys) c id p
  foretold : ∀ ys tx zs, txs = ys ++ tx :: zs → ∀ id, tx.op = .simulateProposal id →
    (Forecast tx.env (ledger ys) id ↔ Queueable tx.env (ledger ys) id)

/-! ## Where the code looks at enough -/

/-- A vote comes while the proposal is open.  It is never early (`inTime_iff`). -/
def InTime (now : ℕ) (p : Proposal) : Prop := p.startTime ≤ now ∧ now ≤ p.endTime

/-- The proposal misses its threshold, rounded or not; or the turnout is a quorum of the supply,
there are votes for the proposal, and they do not meet the threshold by its rounding only. -/
def ClearCut (e : HelloWorld.Env) (s : Storage) (c : GovernanceConfig) (p : Proposal) : Prop :=
  (p.forVotes + 1) * 10000 ≤ p.totalVotingPower * p.votingThreshold ∨
    (∀ S, TotalsTo (holding e s c.voteToken) S → S * c.quorumBps ≤ p.turnout * 10000) ∧
      0 < p.forVotes ∧ (p.forVotes = p.totalVotingPower * p.votingThreshold / 10000 →
        10000 ∣ p.totalVotingPower * p.votingThreshold)

/-- A simulation comes when the proposal could be counted. -/
structure Countable (now : ℕ) (c : GovernanceConfig) (p : Proposal) : Prop where
  ended : p.endTime < now
  inTime : now ≤ p.endTime + DEFAULT_TIMELOCK_DURATION
  bounded : p.endTime + DEFAULT_TIMELOCK_DURATION ≤ U64.MAX
  delay : now + c.executionDelay ≤ U64.MAX
  queueable : p.status.queueable = true

/-- Votes are cast in time, counts are clear-cut, simulations come when one may count. -/
def Regular (s : Storage) (tx : Tx) : Prop :=
  match tx.op with
  | .vote _ id _ => ∀ p, s.proposal id = some p → InTime tx.env.timestamp p
  | .queueProposal _ id => ∀ c p, s.config = some c → s.proposal id = some p →
    ClearCut tx.env s c p
  | .simulateProposal id => ∀ c p, s.config = some c → s.proposal id = some p →
    Countable tx.env.timestamp c p
  | _ => True

/-! ## Counting -/

theorem Proposal.tally_eq_some : p.tally c = some t ↔
    I128.Holds (p.forVotes + p.againstVotes) ∧ I128.Holds p.turnout ∧
      I128.Holds (p.turnout * c.quorumBps) ∧ I128.Holds (p.totalVotingPower * p.votingThreshold) ∧
      t = ⟨(p.turnout * c.quorumBps).tdiv 10000,
        decide ((p.turnout * c.quorumBps).tdiv 10000 ≤ p.turnout),
        (p.totalVotingPower * p.votingThreshold).tdiv 10000,
        decide ((p.totalVotingPower * p.votingThreshold).tdiv 10000 ≤ p.forVotes)⟩ := by
  simp only [Proposal.tally, Option.bind_eq_bind, Option.bind_eq_some_iff, I128.checkedAdd_eq_some,
    I128.checkedMul_eq_some, Option.pure_def, Option.some.injEq]
  constructor
  · rintro ⟨_, ⟨hsides, rfl⟩, _, ⟨hturnout, rfl⟩, _, ⟨hquorum, rfl⟩, _, ⟨hthreshold, rfl⟩, rfl⟩
    exact ⟨hsides, hturnout, hquorum, hthreshold, rfl⟩
  · rintro ⟨hsides, hturnout, hquorum, hthreshold, rfl⟩
    exact ⟨_, ⟨hsides, rfl⟩, _, ⟨hturnout, rfl⟩, _, ⟨hquorum, rfl⟩, _, ⟨hthreshold, rfl⟩, rfl⟩

/-- **Any turnout is a quorum of itself.** -/
theorem quorumReached_of_nonneg (h : p.tally c = some t) (hc : c.quorumBps ≤ 10000)
    (hp : 0 ≤ p.turnout) : t.quorumReached = true := by
  obtain ⟨-, -, -, -, rfl⟩ := Proposal.tally_eq_some.mp h
  have hc' : (c.quorumBps : ℤ) ≤ 10000 := by exact_mod_cast hc
  rw [decide_eq_true_eq,
    Int.tdiv_eq_ediv_of_nonneg (mul_nonneg hp (Int.natCast_nonneg c.quorumBps))]
  exact Int.ediv_le_of_le_mul (by decide) (mul_le_mul_of_nonneg_left hc' hp)

/-- What succeeds meets the threshold rounded. -/
theorem Tally.succeeded_threshold (h : p.tally c = some t) (ht : t.succeeded = true) :
    (p.totalVotingPower * p.votingThreshold).tdiv 10000 ≤ p.forVotes := by
  obtain ⟨-, -, -, -, rfl⟩ := Proposal.tally_eq_some.mp h
  simp only [Tally.succeeded, Bool.and_eq_true, decide_eq_true_eq] at ht
  exact ht.2

/-- **What succeeds in a clear-cut count has a quorum, votes for it, and all of its threshold.** -/
theorem ClearCut.elected (h : ClearCut e s c p) (htally : p.tally c = some t)
    (hsucceeded : t.succeeded = true) :
    (∀ S, TotalsTo (holding e s c.voteToken) S → S * c.quorumBps ≤ p.turnout * 10000) ∧
      0 < p.forVotes ∧ p.totalVotingPower * p.votingThreshold ≤ p.forVotes * 10000 := by
  have hmet := Tally.succeeded_threshold htally hsucceeded
  rcases h with hshort | ⟨hquorum, hpos, hwhole⟩
  · have hmono := Int.tdiv_le_tdiv (c := 10000) (by decide) hshort
    rw [Int.mul_tdiv_cancel _ (by decide)] at hmono
    omega
  · refine ⟨hquorum, hpos, ?_⟩
    rcases le_or_gt (p.totalVotingPower * p.votingThreshold) 0 with hneg | hx
    · omega
    · rw [Int.tdiv_eq_ediv_of_nonneg hx.le] at hmet
      omega

/-! ## Votes in time -/

/-- Every proposal was made by a transaction, and starts with it. -/
theorem started (ys : List Tx) : ∀ id p, (ledger ys).proposal id = some p →
    ∃ x ∈ ys, p.startTime = x.env.timestamp := by
  induction ys using List.reverseRecOn with
  | nil => intro id p hp; cases hp
  | append_singleton ys x ih =>
    intro id p' hp'
    obtain ⟨e, op⟩ := x
    rw [ledger, run_snoc] at hp'
    cases hx : step ⟨e, op⟩ (run step Storage.empty ys) with
    | none =>
      rw [exec_of_none hx] at hp'
      obtain ⟨y, hy, hstart⟩ := ih id p' hp'
      exact ⟨y, List.mem_append_left _ hy, hstart⟩
    | some s' =>
      rw [exec_of_some hx] at hp'
      have hballots := step_ballots hx
      rcases hp : (ledger ys).proposal id with _ | p
      · exact ⟨⟨e, op⟩, List.mem_append_right _ List.mem_cons_self,
          (Registry.fresh_of_created hp hp' hballots).2.startTime_eq⟩
      · obtain ⟨q, hq, hevolves⟩ := (Registry.ledger ys).evolves hp hballots
        obtain rfl := Option.some.inj (hp'.symm.trans hq)
        obtain ⟨y, hy, hstart⟩ := ih id p hp
        exact ⟨y, List.mem_append_left _ hy, hevolves.times.1.trans hstart⟩

/-- **As long as the clock does not go back, a vote is in time if it is not late.** -/
theorem inTime_iff {ys zs : List Tx} (hclock : Clocked (ys ++ tx :: zs))
    (hp : (ledger ys).proposal id = some p) :
    InTime tx.env.timestamp p ↔ tx.env.timestamp ≤ p.endTime := by
  obtain ⟨x, hx, hstart⟩ := started ys id p hp
  exact and_iff_right (hstart.trans_le
    ((List.pairwise_append.mp hclock).2.2 x hx tx List.mem_cons_self))

/-- The votes on record were cast in time. -/
structure Punctual (s : Storage) : Prop where
  registry : Registry s
  window : ∀ id p a v, s.proposal id = some p → s.vote id a = some v → InTime v.timestamp p

namespace Punctual

theorem empty : Punctual Storage.empty where
  registry := Registry.empty
  window _ _ _ _ hp := by cases hp

theorem step (hs : Punctual s) (hstep : Governance.step tx s = some s') (hC : Regular s tx) :
    Punctual s' := by
  refine ⟨hs.registry.step hstep, fun id p' a v hp' hv => ?_⟩
  obtain ⟨e, op⟩ := tx
  have hballots := step_ballots hstep
  rcases hp : s.proposal id with _ | p
  · -- nobody votes on a proposal as it is made
    obtain ⟨rfl, -⟩ := Registry.fresh_of_created hp hp' hballots
    rcases Registry.votes_cases hballots (nextId s) with hkept | ⟨_, _, _, q, _, _, -, h⟩
    · cases (hs.registry.vote_nextId a).symm.trans (congrFun hkept a ▸ hv)
    · cases hp.symm.trans h.proposal_eq
  · obtain ⟨q, hq, hevolves⟩ := hs.registry.evolves hp hballots
    obtain rfl := Option.some.inj (hp'.symm.trans hq)
    rw [InTime, hevolves.times.1, hevolves.times.2.1]
    rcases Registry.votes_cases hballots id with hkept | ⟨voter, voteType, _, q, _, _, rfl, h⟩
    · exact hs.window id p a v hp (congrFun hkept a ▸ hv)
    · obtain rfl := Option.some.inj (hp.symm.trans h.proposal_eq)
      rw [h.after] at hv
      change update s.vote id _ id a = some v at hv
      rw [update_self, update_apply] at hv
      split at hv
      case isTrue =>
        obtain rfl := Option.some.inj hv
        exact hC p hp
      case isFalse => exact hs.window id p a v hp hv

end Punctual

/-! ## Forecasts -/

theorem computeSimulation_eq {now : ℕ} {result : ProposalSimulationResult}
    (h : computeSimulation now p c = some result) :
    ∃ t, p.tally c = some t ∧ result.wouldSucceed = t.succeeded := by
  simp only [computeSimulation, Option.bind_eq_bind, Option.bind_eq_some_iff, Option.pure_def,
    Option.some.injEq] at h
  obtain ⟨t, htally, rfl⟩ := h
  exact ⟨t, htally, rfl⟩

/-- A simulation says what the count says. -/
theorem forecast_iff : Forecast e s id ↔ ∃ c p t, s.config = some c ∧ s.proposal id = some p ∧
    p.tally c = some t ∧ t.succeeded = true := by
  constructor
  · rintro ⟨result, s', hrun, hsucceeds⟩
    obtain ⟨c, p, h⟩ := simulateProposal_effect hrun
    obtain ⟨t, htally, hresult⟩ := computeSimulation_eq h.result_eq
    exact ⟨c, p, t, h.config_eq, h.proposal_eq, htally, hresult ▸ hsucceeds⟩
  · rintro ⟨c, p, t, hc, hp, htally, hsucceeded⟩
    have hresult : ∃ result, computeSimulation e.timestamp p c = some result ∧
        result.wouldSucceed = t.succeeded := by
      simp [computeSimulation, htally]
    obtain ⟨result, hresult, hsucceeds⟩ := hresult
    refine ⟨result,
      { s with
        proposalSimulationCache := update s.proposalSimulationCache id (some result) },
      ?_, hsucceeds.trans hsucceeded⟩
    simp only [simulateProposal, getConfig_seq, getProposal_seq, asks_seq, orTrap_seq, store_seq,
      pure_ok]
    exact ⟨c, hc, p, hp, result, hresult, rfl, rfl⟩

/-- **Somebody could queue a proposal exactly if it could be counted and the count succeeds.** -/
theorem queueable_iff : Queueable e s id ↔ ∃ c p t, s.config = some c ∧ s.proposal id = some p ∧
    p.tally c = some t ∧ t.succeeded = true ∧ Countable e.timestamp c p := by
  constructor
  · rintro ⟨caller, outcome, s', hrun, hqueued⟩
    obtain ⟨c, p, t, -, h⟩ := queueProposal_effect hrun
    have hsucceeded : t.succeeded = true := by
      by_contra hfailed
      simp [h.after, setProposal, afterCount, hfailed] at hqueued
    exact ⟨c, p, t, h.config_eq, h.proposal_eq, h.tally_eq, hsucceeded, h.ended, h.inTime,
      h.bounded, h.delay hsucceeded, h.queueable⟩
  · rintro ⟨c, p, t, hc, hp, htally, hsucceeded, hcount⟩
    refine ⟨⟨0⟩, outcomeOf id p t,
      setProposal id (afterCount p t (e.timestamp + c.executionDelay)) s, ?_, ?_⟩
    · simp only [queueProposal, bind_ok, requireAuth_ok, ↓getConfig_seq, ↓getProposal_seq,
        ↓asks_seq, ↓failIf_seq, ↓orTrap_seq, U64.checkedAdd_eq_some, onlyIf_ok, ↓store_seq, fail_ok,
        pure_ok, not_le, Bool.not_eq_false, recordOutcome_ok, and_assoc, exists_and_left,
        exists_eq_left', exists_const]
      have hlate : ¬ p.endTime + DEFAULT_TIMELOCK_DURATION < e.timestamp := not_lt.mpr hcount.inTime
      exact ⟨List.mem_singleton_self _, c, hc, p, hp, hcount.ended, hcount.queueable,
        hcount.bounded, hlate, s, fun _ => rfl, t, htally, fun _ => hcount.delay, rfl, rfl⟩
    · simp [setProposal, afterCount, hsucceeded]

/-! ## Runs -/

/-- **In a run whose votes are cast in time, whose counts are clear-cut and whose simulations come
when one may count, what is queued was elected and every simulation tells what would be queued.** -/
theorem sincere_of_regular (txs : List Tx) (h : Meets step Regular Storage.empty txs) :
    Sincere txs := by
  refine ⟨fun ys tx zs s' htxs hstep caller id p' hop hp' hqueued => ?_,
    fun ys tx zs htxs id hop => ?_⟩
  · have hC : Regular (ledger ys) tx := meets_iff.mp h ys tx zs s' htxs hstep
    have hpunctual : Punctual (ledger ys) := by
      rw [htxs, meets_append] at h
      exact h.1.invariant (fun _ _ _ hx hCx hs => hs.step hx hCx) Punctual.empty
    obtain ⟨e, op⟩ := tx
    obtain rfl : op = .queueProposal caller id := hop
    obtain ⟨_, hrun⟩ := commit_eq_some.mp hstep
    obtain ⟨c, p, t, -, hq⟩ := queueProposal_effect hrun
    have hsucceeded : t.succeeded = true := by
      by_contra hfailed
      simp [hq.after, setProposal, afterCount, hfailed] at hp'
      cases hp' ▸ hqueued
    obtain ⟨hquorum, hpos, hthreshold⟩ :=
      (hC c p hq.config_eq hq.proposal_eq).elected hq.tally_eq hsucceeded
    exact ⟨c, p, hq.config_eq, hq.proposal_eq,
      ⟨fun a v hv => hpunctual.window id p a v hq.proposal_eq hv, hquorum, hpos, hthreshold⟩⟩
  · rw [forecast_iff, queueable_iff]
    constructor
    · rintro ⟨c, p, t, hc, hp, htally, hsucceeded⟩
      obtain ⟨e, op⟩ := tx
      obtain rfl : op = .simulateProposal id := hop
      obtain ⟨result, s', hrun, -⟩ := forecast_iff.mpr ⟨c, p, t, hc, hp, htally, hsucceeded⟩
      have hstep : step ⟨e, .simulateProposal id⟩ (ledger ys) = some s' :=
        commit_eq_some.mpr ⟨result, hrun⟩
      have hC : Regular (ledger ys) ⟨e, .simulateProposal id⟩ :=
        meets_iff.mp h ys _ zs s' htxs hstep
      exact ⟨c, p, t, hc, hp, htally, hsucceeded, hC c p hc hp⟩
    · rintro ⟨c, p, t, hc, hp, htally, hsucceeded, -⟩
      exact ⟨c, p, t, hc, hp, htally, hsucceeded⟩

/-! ## A proposal nobody votes on -/

namespace Sample

/-- Alice's proposal. -/
def proposed : List Tx :=
  [deploy, signed alices 0 alice (.createProposal alice (.emergencyPause true) "" none)]

def assent : Tx := signed alices 1 alice (.vote alice 0 .for_)
def forecast : Tx := signed alices 604801 alice (.simulateProposal 0)
def count : Tx := signed alices 604801 alice (.queueProposal alice 0)

/-- The proposal with alice's vote. -/
def favourite : Proposal where
  id := 0
  proposer := alice
  proposalType := .emergencyPause true
  description := ""
  status := .active
  startTime := 0
  endTime := 604800
  executionTime := none
  votingThreshold := 5000
  forVotes := 100
  againstVotes := 0
  abstainVotes := 0
  totalVotingPower := 100
  createdAt := 0

def terms : GovernanceConfig := configOf token none none none none none none

/-- What the simulation and the count find. -/
theorem found : ∀ ys ∈ [proposed ++ [assent], proposed ++ [assent, forecast]],
    (ledger ys).config = some terms ∧ (ledger ys).proposal 0 = some favourite := by decide

theorem clearCut_favourite : ClearCut count.env s terms favourite := by
  refine .inr ⟨fun S hS => ?_, by decide, fun _ => by decide⟩
  obtain rfl : S = 100 := hS.unique totals_alices
  decide

end Sample

theorem sincere_of_regular_assented :
    Sincere (Sample.proposed ++ [Sample.assent, Sample.forecast, Sample.count]) := by
  refine sincere_of_regular _ ⟨fun _ => trivial, fun _ => trivial, fun _ p hp => ?_,
    fun _ c p hc hp => ?_, fun _ c p hc hp => ?_, trivial⟩
  · have hwindow : ((ledger Sample.proposed).proposal 0).map
        (fun p => (p.startTime, p.endTime)) = some (0, 604800) := by decide
    rw [show (ledger Sample.proposed).proposal 0 = some p from hp] at hwindow
    obtain ⟨hstart, hend⟩ := Prod.mk.inj (Option.some.inj hwindow)
    rw [InTime, hstart, hend]
    decide
  · obtain ⟨hterms, hfavourite⟩ := Sample.found (Sample.proposed ++ [Sample.assent]) (by simp)
    obtain rfl := Option.some.inj (hterms.symm.trans hc)
    obtain rfl := Option.some.inj (hfavourite.symm.trans hp)
    exact ⟨by decide, by decide, by decide, by decide, rfl⟩
  · obtain ⟨hterms, hfavourite⟩ :=
      Sample.found (Sample.proposed ++ [Sample.assent, Sample.forecast]) (by simp)
    obtain rfl := Option.some.inj (hterms.symm.trans hc)
    obtain rfl := Option.some.inj (hfavourite.symm.trans hp)
    exact Sample.clearCut_favourite

theorem not_sincere_unvoted : ¬ Sincere (Sample.proposed ++ [Sample.count]) := by
  intro h
  have hqueued : ((step Sample.count (ledger Sample.proposed)).bind fun s => s.proposal 0).map
      Proposal.status = some .queued := by decide
  obtain ⟨p', hp', hstatus⟩ := Option.map_eq_some_iff.mp hqueued
  obtain ⟨s', hstep, hp'⟩ := Option.bind_eq_some_iff.mp hp'
  obtain ⟨c, p, -, hp, helected⟩ :=
    h.elected Sample.proposed Sample.count [] s' rfl hstep Sample.alice 0 p' rfl hp' hstatus
  have hnone : ((ledger Sample.proposed).proposal 0).map Proposal.forVotes = some 0 := by
    decide
  have hsupported := helected.supported
  rw [hp] at hnone
  rw [Option.some.inj hnone] at hsupported
  exact absurd hsupported (by decide)

end StellarLend.Governance
