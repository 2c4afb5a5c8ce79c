import StellarLend.Foundations.Total
import StellarLend.Governance.Registry

/-!
# Governance/VotingPower — no token votes twice

What is counted on a proposal is what the votes on record say (`Recorded.ledger`), and that is no
more than the supply of the vote token as long as every voter still holds what was counted
(`conserved_of_held`).  The balance of the moment is what a vote counts, whatever snapshot or
delegation says, so tokens that move on after a vote are counted again:

    alice holds 100 ──▸ alice votes ──▸ bob holds 100 ──▸ bob votes      200 of 100
-/

namespace StellarLend.Governance

open Foundations Call Function
open Lending (Address)

variable {e : HelloWorld.Env} {s s' : Storage} {tx : Tx} {op : Op} {id : ℕ} {p p' : Proposal}
  {c : GovernanceConfig} {power : ℤ} {voter : Address} {voteType : VoteType} {S : ℕ}

/-! ## Power and supply -/

/-- The votes counted, on all sides. -/
def Proposal.turnout (p : Proposal) : ℤ := p.forVotes + p.againstVotes + p.abstainVotes

/-- The power counted for an account. -/
def powerOf (s : Storage) (id : ℕ) (a : Address) : ℤ := (s.vote id a).elim 0 VoteInfo.votingPower

/-- What an account holds of a token. -/
def holding (e : HelloWorld.Env) (s : Storage) (token a : Address) : ℤ :=
  (e.balance s.protocol.transfers token a).getD 0

/-- The vote token has a supply of `S`, and nobody holds less than nothing. -/
def Supplied (S : ℕ) (s : Storage) (tx : Tx) : Prop := ∀ c, s.config = some c →
  TotalsTo (holding tx.env s c.voteToken) (S : ℤ) ∧ ∀ a, 0 ≤ holding tx.env s c.voteToken a

/-- When a vote is cast, whoever voted on the proposal before still holds what was counted. -/
def StillHeld (s : Storage) (tx : Tx) : Prop :=
  ∀ voter id voteType c, tx.op = .vote voter id voteType → s.config = some c →
    ∀ a v, s.vote id a = some v → v.votingPower ≤ holding tx.env s c.voteToken a

/-- The counters of a proposal come to the votes on record. -/
structure Recorded (s : Storage) : Prop where
  registry : Registry s
  total : ∀ id p, s.proposal id = some p → TotalsTo (powerOf s id) p.totalVotingPower
  turnout : ∀ id p, s.proposal id = some p → p.turnout = p.totalVotingPower

/-- The same, and within the supply. -/
structure Conserved (S : ℕ) (s : Storage) : Prop extends Recorded s where
  bounded : ∀ id p, s.proposal id = some p → p.turnout ≤ S

/-! ## Votes on record -/

/-- A proposal begins with counters at zero. -/
theorem Fresh.counters (h : Fresh e s op p) : p.turnout = 0 ∧ p.totalVotingPower = 0 := by
  cases h <;> exact ⟨rfl, rfl⟩

/-- A step leaves votes and counters of a proposal, or adds a vote to both. -/
theorem counters_cases (hs : Registry s) (hstep : step ⟨e, op⟩ s = some s')
    (hp : s.proposal id = some p) (hp' : s'.proposal id = some p') :
    (s'.vote id = s.vote id ∧ p'.turnout = p.turnout ∧
      p'.totalVotingPower = p.totalVotingPower) ∨
    ∃ voter voteType c power, op = .vote voter id voteType ∧
      Voted e s voter id voteType c p p' power s' := by
  rcases Registry.votes_cases (step_ballots hstep) id with
    hkept | ⟨voter, voteType, c, q, counted, power, hop, h⟩
  · refine .inl ⟨hkept, ?_⟩
    obtain ⟨q, hq, hevolves⟩ := hs.evolves hp (step_ballots hstep)
    obtain rfl := Option.some.inj (hp'.symm.trans hq)
    cases hevolves with
    | kept | executed | cancelled => exact ⟨rfl, rfl⟩
    | counted =>
      rw [afterCount]
      split <;> exact ⟨rfl, rfl⟩
    | @voted voter _ _ _ _ _ _ =>
      obtain ⟨_, hrun⟩ := commit_eq_some.mp hstep
      obtain ⟨_, _, _, _, h⟩ := vote_effect hrun
      have hsame := congrFun hkept voter
      rw [h.fresh, h.after] at hsame
      simp at hsame
  · obtain rfl := Option.some.inj (hp.symm.trans h.proposal_eq)
    have hcounted : s'.proposal id = some counted := by
      rw [h.after]
      exact update_self ..
    obtain rfl := Option.some.inj (hp'.symm.trans hcounted)
    exact .inr ⟨voter, voteType, c, power, hop, h⟩

/-- A vote gives its voter power, and nobody else. -/
theorem Voted.powerOf_eq (h : Voted e s voter id voteType c p p' power s') :
    powerOf s' id = update (powerOf s id) voter power := by
  funext a
  rw [powerOf, h.after]
  by_cases ha : a = voter
  · subst ha
    simp [voteInfo]
  · simp [powerOf, ha]

/-- A vote adds its power to the counters. -/
theorem Voted.counters (h : Voted e s voter id voteType c p p' power s') :
    p'.turnout = p.turnout + power ∧ p'.totalVotingPower = p.totalVotingPower + power := by
  have hpower := Proposal.counting_power h.counted_eq
  rwa [Proposal.opened_eq] at hpower

namespace Recorded

theorem empty : Recorded Storage.empty where
  registry := Registry.empty
  total _ _ hp := by cases hp
  turnout _ _ hp := by cases hp

theorem step (hs : Recorded s) (hstep : Governance.step tx s = some s') : Recorded s' := by
  obtain ⟨e, op⟩ := tx
  have hballots := step_ballots hstep
  have hboth : ∀ id p', s'.proposal id = some p' →
      TotalsTo (powerOf s' id) p'.totalVotingPower ∧ p'.turnout = p'.totalVotingPower := by
    intro id p' hp'
    rcases hp : s.proposal id with _ | p
    · obtain ⟨rfl, hfresh⟩ := Registry.fresh_of_created hp hp' hballots
      obtain ⟨hturnout, htotal⟩ := hfresh.counters
      have hnone : ∀ a, powerOf s' (nextId s) a = 0 := by
        intro a
        rcases Registry.votes_cases hballots (nextId s) with hkept | ⟨_, _, _, q, _, _, -, h⟩
        · rw [powerOf, hkept, hs.registry.vote_nextId a]
          rfl
        · cases hp.symm.trans h.proposal_eq
      rw [hturnout, htotal]
      exact ⟨TotalsTo.zero.congr hnone, rfl⟩
    · have htotal := hs.total id p hp
      have hturnout := hs.turnout id p hp
      rcases counters_cases hs.registry hstep hp hp' with
        ⟨hkept, ht, hn⟩ | ⟨voter, _, _, power, -, h⟩
      · rw [ht, hn]
        exact ⟨htotal.congr fun a => by rw [powerOf, hkept, powerOf], hturnout⟩
      · have hbefore : powerOf s id voter = 0 := by
          rw [powerOf, h.fresh]
          rfl
        rw [h.counters.1, h.counters.2, hturnout, h.powerOf_eq]
        refine ⟨htotal.change_eq voter (fun a ha => update_of_ne ha ..) ?_, rfl⟩
        rw [update_self, hbefore, sub_zero]
  exact ⟨hs.registry.step hstep, fun id p hp => (hboth id p hp).1, fun id p hp => (hboth id p hp).2⟩

/-- **In every run the counters of a proposal come to the votes on record.** -/
theorem ledger (txs : List Tx) : Recorded (ledger txs) :=
  run_invariant (fun _ _ _ hstep hs => hs.step hstep) txs empty

end Recorded

/-! ## Within the supply -/

/-- **A vote of somebody's holding stays within the supply while the earlier votes are held.** -/
theorem Voted.le_supply (h : Voted e s voter id voteType c p p' power s')
    (htotal : TotalsTo (powerOf s' id) p'.totalVotingPower)
    (hsupply : TotalsTo (holding e s c.voteToken) (S : ℤ))
    (hnonneg : ∀ a, 0 ≤ holding e s c.voteToken a)
    (hheld : ∀ a v, s.vote id a = some v → v.votingPower ≤ holding e s c.voteToken a) :
    p'.totalVotingPower ≤ S := by
  refine htotal.mono hsupply fun a => ?_
  rw [h.powerOf_eq, update_apply]
  split
  case isTrue ha => rw [ha, holding, h.power_eq]; rfl
  case isFalse =>
    rw [powerOf]
    rcases hv : s.vote id a with _ | v
    · exact hnonneg a
    · exact hheld a v hv

theorem Conserved.step (hs : Conserved S s) (hstep : step tx s = some s')
    (hsupply : Supplied S s tx) (hheld : StillHeld s tx) : Conserved S s' := by
  have hrecorded := hs.toRecorded.step hstep
  refine ⟨hrecorded, fun id p' hp' => ?_⟩
  obtain ⟨e, op⟩ := tx
  rcases hp : s.proposal id with _ | p
  · rw [((Registry.fresh_of_created hp hp' (step_ballots hstep)).2.counters).1]
    exact Int.natCast_nonneg S
  · rcases counters_cases hs.registry hstep hp hp' with
      ⟨-, hturnout, -⟩ | ⟨voter, voteType, c, _, hop, h⟩
    · rw [hturnout]
      exact hs.bounded id p hp
    · obtain ⟨htotals, hnonneg⟩ := hsupply c h.config_eq
      rw [hrecorded.turnout id p' hp']
      exact h.le_supply (hrecorded.total id p' hp') htotals hnonneg
        (hheld voter id voteType c hop h.config_eq)

/-- **In a run in which the supply of the vote token stays what it is, and in which at each vote the
earlier voters on the proposal still hold what was counted, what is counted on a proposal is what
the votes on record say, and no more than the supply.** -/
theorem conserved_of_held (S : ℕ) (txs : List Tx)
    (hsupply : Meets step (Supplied S) Storage.empty txs)
    (hheld : Meets step StillHeld Storage.empty txs) :
    ∀ ys, ys <+: txs → Conserved S (ledger ys) := by
  rintro ys ⟨zs, rfl⟩
  have hboth := (meets_append.mp (hsupply.and hheld)).1
  exact hboth.invariant (fun s tx s' hstep hC hs => hs.step hstep hC.1 hC.2)
    ⟨Recorded.empty, fun _ _ hp => by cases hp⟩

/-! ## Tokens that vote twice -/

namespace Sample

/-- Everything is bob's. -/
def bobs (a : Address) : ℤ := if a = bob then 100 else 0

/-- Alice and bob hold it all. -/
def shared (a : Address) : ℤ := if a = alice then 60 else if a = bob then 40 else 0

/-- Alice makes a proposal, and alice and bob vote for it, each with what is theirs at the time. -/
def ballot (before after : Address → ℤ) : List Tx :=
  [deploy, signed before 0 alice (.createProposal alice (.emergencyPause true) "" none),
    signed before 1 alice (.vote alice 0 .for_), signed after 2 bob (.vote bob 0 .for_)]

theorem totals_alices : TotalsTo alices 100 :=
  ⟨{alice}, fun a ha => if_neg (by simpa using ha), by decide⟩

theorem totals_bobs : TotalsTo bobs 100 :=
  ⟨{bob}, fun a ha => if_neg (by simpa using ha), by decide⟩

theorem totals_shared : TotalsTo shared 100 := by
  refine ⟨{alice, bob}, fun a ha => ?_, by decide⟩
  obtain ⟨halice, hbob⟩ : a ≠ alice ∧ a ≠ bob := by simpa using ha
  rw [shared, if_neg halice, if_neg hbob]

theorem supplied_ballot {before after : Address → ℤ} (hbefore : TotalsTo before 100)
    (hafter : TotalsTo after 100) (hnonneg : ∀ a, 0 ≤ before a ∧ 0 ≤ after a) :
    Meets step (Supplied 100) Storage.empty (ballot before after) :=
  ⟨fun _ _ hc => (by cases hc), fun _ _ _ => ⟨hbefore, fun a => (hnonneg a).1⟩,
    fun _ _ _ => ⟨hbefore, fun a => (hnonneg a).1⟩,
    fun _ _ _ => ⟨hafter, fun a => (hnonneg a).2⟩, trivial⟩

/-- Bob votes where alice voted and holds what she held. -/
theorem stillHeld_shared : Meets step StillHeld Storage.empty (ballot shared shared) := by
  have hvotes : (ledger (ballot shared shared).dropLast).vote 0 =
      update (fun _ => none) alice (some ⟨alice, 0, .for_, 60, 1⟩) := rfl
  have hfirst : ∀ a, (ledger [deploy, signed shared 0 alice
      (.createProposal alice (.emergencyPause true) "" none)]).vote 0 a = none := fun _ => rfl
  refine ⟨fun _ _ _ _ _ hop => (by cases hop), fun _ _ _ _ _ hop => (by cases hop), ?_, ?_,
    trivial⟩
  · rintro - voter id voteType c hop - a v hv
    cases hop
    cases (hfirst a).symm.trans hv
  · rintro - voter id voteType c hop - a v hv
    cases hop
    have hrecord := (congrFun hvotes a).symm.trans hv
    rw [update_apply] at hrecord
    split at hrecord
    case isTrue ha =>
      cases hrecord
      rw [ha]
      exact le_refl (60 : ℤ)
    case isFalse => cases hrecord

end Sample

theorem conserved_of_held_shared :
    Conserved 100 (ledger (Sample.ballot Sample.shared Sample.shared)) := by
  have hnonneg : ∀ a, 0 ≤ Sample.shared a := fun a => by
    rw [Sample.shared]
    split
    · decide
    · split <;> decide
  exact conserved_of_held 100 _ (Sample.supplied_ballot Sample.totals_shared Sample.totals_shared
    fun a => ⟨hnonneg a, hnonneg a⟩) Sample.stillHeld_shared _ List.prefix_rfl

theorem not_conserved_passedOn :
    Meets step (Supplied 100) Storage.empty (Sample.ballot Sample.alices Sample.bobs) ∧
      ¬ Conserved 100 (ledger (Sample.ballot Sample.alices Sample.bobs)) := by
  refine ⟨Sample.supplied_ballot Sample.totals_alices Sample.totals_bobs fun a => ?_, fun h => ?_⟩
  · rw [Sample.alices, Sample.bobs]
    constructor <;> split <;> decide
  · have hturnout : ((ledger (Sample.ballot Sample.alices Sample.bobs)).proposal 0).map
        Proposal.turnout = some 200 := by decide
    obtain ⟨p, hp, h200⟩ := Option.map_eq_some_iff.mp hturnout
    have hbounded := h.bounded 0 p hp
    rw [h200] at hbounded
    exact absurd hbounded (by decide)

end StellarLend.Governance
