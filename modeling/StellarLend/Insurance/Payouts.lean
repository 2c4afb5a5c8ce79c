import Mathlib.Algebra.Order.Floor.Defs
import Mathlib.Tactic.Linarith
import StellarLend.Foundations.Checked
import StellarLend.Insurance.Effects
import StellarLend.Insurance.PayoutCalculator

/-!
# Insurance/Payouts — a claim that is paid out has a payout

A verification that passes computes the payout before it approves; a dispute that is decided for the
claimant approves without one.  What is computed never exceeds the claim or its coverage
(`calculate_net_le`), but a deductible and a discount can leave nothing of a small claim.  So every
paid claim has a payout within its bounds where a dispute is decided for the claimant only if there
is a payout, and where what is left of a verified claim is a unit at least (`paid_claims_covered`).
-/

namespace StellarLend.Insurance

open Foundations

variable {upper : String → String} {cfg : ClaimsServiceConfig} {now startedAt : ℤ}
  {s t : ClaimsService} {c c' : InsuranceClaim} {answer : PriceAnswer}
  {oracle : OracleVerificationData}

/-! ## The payout that is computed -/

/-- The discount leaves between a half and the whole. -/
theorem discountFactor_bounds (cfg : ClaimsServiceConfig) (confidence : ℚ) :
    0 ≤ discountFactor cfg confidence ∧ discountFactor cfg confidence ≤ 1000000 := by
  have hbounds := cfg.calculator.discountFactor_bounds confidence
  exact ⟨le_trans (by decide) hbounds.1, hbounds.2⟩

theorem computeDeductible_nonneg (cfg : ClaimsServiceConfig) (amount : ℤ) (h : 0 ≤ amount) :
    0 ≤ computeDeductible cfg amount := by
  unfold computeDeductible
  split
  · exact le_rfl
  · rename_i hpercent
    refine Int.tdiv_nonneg (mul_nonneg h (Int.floor_nonneg.mpr ?_)) (by decide)
    linarith [not_le.mp hpercent]

/-- A claim that keeps the business rules is for something, and within its coverage. -/
theorem Passes.amounts (h : Passes cfg startedAt c answer oracle) :
    0 < c.claimedAmount ∧ c.claimedAmount ≤ c.coverageLimit := by
  have hrules := h.rules
  simp only [businessRuleErrors, List.append_eq_nil_iff, ite_eq_right_iff, reduceCtorEq,
    imp_false, not_le, not_lt] at hrules
  obtain ⟨⟨⟨hpos, hle⟩, -⟩, -⟩ := hrules
  exact ⟨hpos, hle⟩

theorem afterDeductible_bounds (cfg : ClaimsServiceConfig)
    (h : 0 < c.claimedAmount ∧ c.claimedAmount ≤ c.coverageLimit) :
    0 ≤ afterDeductible cfg c ∧ afterDeductible cfg c ≤ c.claimedAmount := by
  have hcapped : cappedAmount c = c.claimedAmount := if_neg (not_lt.mpr h.2)
  have hdeductible := computeDeductible_nonneg cfg (cappedAmount c) (by omega)
  unfold afterDeductible
  split <;> omega

/-- **A payout is at most what is claimed, and covered.** -/
theorem calculate_net_le (h : 0 < c.claimedAmount ∧ c.claimedAmount ≤ c.coverageLimit) :
    (calculate cfg now c oracle).netPayoutAmount ≤ min c.claimedAmount c.coverageLimit := by
  obtain ⟨hafter, hle⟩ := afterDeductible_bounds cfg h
  obtain ⟨-, hfactor⟩ := discountFactor_bounds cfg oracle.confidence
  have hmul : afterDeductible cfg c * discountFactor cfg oracle.confidence ≤
      afterDeductible cfg c * 1000000 := mul_le_mul_of_nonneg_left hfactor hafter
  have hnet : (calculate cfg now c oracle).netPayoutAmount ≤ afterDeductible cfg c := by
    have hdiv := Int.tdiv_le_tdiv (c := 1000000) (by decide) hmul
    rwa [Int.mul_tdiv_cancel _ (by decide)] at hdiv
  exact le_min (hnet.trans hle) ((hnet.trans hle).trans h.2)

/-- A payout is something exactly if a unit is left. -/
theorem calculate_net_pos_iff : 0 < (calculate cfg now c oracle).netPayoutAmount ↔
    1000000 ≤ afterDeductible cfg c * discountFactor cfg oracle.confidence := by
  have hiff := le_tdiv_iff (a := 1) (b := afterDeductible cfg c * discountFactor cfg
    oracle.confidence) (c := 1000000) (by decide) (by decide)
  rwa [one_mul] at hiff

/-! ## What is to hold -/

/-- The claim carries a payout, of something within what is claimed and covered. -/
def InsuranceClaim.PaysWithin (c : InsuranceClaim) : Prop :=
  ∃ r, c.payoutResult = some r ∧ 0 < r.netPayoutAmount ∧
    r.netPayoutAmount ≤ min c.claimedAmount c.coverageLimit

/-- A verification that passes leaves a unit at least of its claim, and a dispute is decided for the
claimant only of a claim that carries a payout. -/
def Backs (cfg : ClaimsServiceConfig) (s : ClaimsService) (event : Event) : Prop :=
  match event.op with
  | .resume v (.price p) => ∀ c ∈ s.claims v.claimId, businessRuleErrors v.startedAt c = [] →
      v.startedAt - p.timestamp ≤ cfg.maxPriceAgeSeconds →
      (v.kind = .submission → v.claimId ∈ s.store) →
      1000000 ≤ afterDeductible cfg c * discountFactor cfg p.confidence
  | .resolveDispute id .approved _ _ => ∀ c ∈ s.claims id, c.status = .disputed →
      ∀ d ∈ s.disputes id, d.resolution = none → c.payoutResult.isSome
  | _ => True

instance (cfg : ClaimsServiceConfig) (s : ClaimsService) : ∀ event, Decidable (Backs cfg s event)
  | ⟨_, .resume v (.price p)⟩ => inferInstanceAs (Decidable (∀ c ∈ s.claims v.claimId,
      businessRuleErrors v.startedAt c = [] →
      v.startedAt - p.timestamp ≤ cfg.maxPriceAgeSeconds →
      (v.kind = .submission → v.claimId ∈ s.store) →
      1000000 ≤ afterDeductible cfg c * discountFactor cfg p.confidence))
  | ⟨_, .resolveDispute id .approved _ _⟩ => inferInstanceAs (Decidable (∀ c ∈ s.claims id,
      c.status = .disputed → ∀ d ∈ s.disputes id, d.resolution = none → c.payoutResult.isSome))
  | ⟨_, .resume _ .threw⟩ => .isTrue trivial
  | ⟨_, .resume _ .absent⟩ => .isTrue trivial
  | ⟨_, .resolveDispute _ .rejected _ _⟩ => .isTrue trivial
  | ⟨_, .resolveDispute _ .escalated _ _⟩ => .isTrue trivial
  | ⟨_, .submitClaim _⟩ => .isTrue trivial
  | ⟨_, .verifyClaim _⟩ => .isTrue trivial
  | ⟨_, .openDispute ..⟩ => .isTrue trivial
  | ⟨_, .processPayout ..⟩ => .isTrue trivial
  | ⟨_, .getClaim _⟩ => .isTrue trivial

/-! ## The invariant -/

/-- A payout that the claim carries is of something within its bounds, and one that is approved or
paid carries one. -/
structure InsuranceClaim.Backed (c : InsuranceClaim) : Prop where
  within : c.payoutResult.isSome → c.PaysWithin
  carries : c.status = .approved ∨ c.status = .paidOut → c.payoutResult.isSome

theorem Advances.amounts {toStatus : ClaimStatus} {actor : Actor}
    (h : Advances c c' toStatus actor) :
    c'.claimedAmount = c.claimedAmount ∧ c'.coverageLimit = c.coverageLimit := by
  have hterms := h.terms
  rw [SameTerms] at hterms
  rw [hterms]
  exact ⟨rfl, rfl⟩

/-- A claim that keeps its payout is as well backed as before. -/
theorem InsuranceClaim.Backed.advance (h : c.Backed) {toStatus : ClaimStatus} {actor : Actor}
    (ha : Advances c c' toStatus actor) (hpayout : c'.payoutResult = c.payoutResult)
    (hcarries : toStatus = .approved ∨ toStatus = .paidOut → c.payoutResult.isSome) :
    c'.Backed := by
  obtain ⟨hclaimed, hcoverage⟩ := ha.amounts
  refine ⟨fun hsome => ?_, fun hstatus => ?_⟩
  · rw [hpayout] at hsome
    obtain ⟨r, hr, hpos, hle⟩ := h.within hsome
    refine ⟨r, hpayout.trans hr, hpos, ?_⟩
    rwa [hclaimed, hcoverage]
  · rw [ha.status] at hstatus
    rw [hpayout]
    exact hcarries hstatus

/-- **A claim that a verification approves is backed, where a unit of it is left.** -/
theorem backed_of_passed (hpasses : Passes cfg startedAt c answer oracle)
    (ha : Advances c c' .approved .system)
    (hpayout : c'.payoutResult = some (calculate cfg now c oracle))
    (hunit : 1000000 ≤ afterDeductible cfg c * discountFactor cfg oracle.confidence) :
    c'.Backed := by
  obtain ⟨hclaimed, hcoverage⟩ := ha.amounts
  refine ⟨fun _ => ⟨_, hpayout, calculate_net_pos_iff.mpr hunit, ?_⟩, fun _ => ?_⟩
  · rw [hclaimed, hcoverage]
    exact calculate_net_le hpasses.amounts
  · rw [hpayout]
    rfl

/-- Every claim is backed. -/
def AllBacked (s : ClaimsService) : Prop := ∀ id c, s.claims id = some c → c.Backed

/-- **An event of the kind that backs claims keeps them all backed.** -/
theorem AllBacked.step {event : Event} (h : AllBacked s) (hC : Backs cfg s event)
    (hstep : step upper cfg event s = some t) : AllBacked t := by
  cases step_effect hstep with
  | idle hidle =>
    rw [AllBacked, hidle.claims]
    exact h
  | submitted request hop c hn =>
    refine forall_claims_update hn.claims (fun j o _ => h j o) ⟨?_, ?_⟩
    · rw [hn.payoutResult]
      simp
    · rcases hn.outcome with ⟨hc, -⟩ | ⟨hc, -⟩ <;> simp [hc]
  | reverifies id hop c c' hw hstatus hpayout hd hv =>
    exact forall_claims_update hw.claims (fun j o _ => h j o)
      ((h id c hw.found).advance hw.advances hpayout (by simp))
  | verified v answer hop hawaited hheld c c' hfound hclaims hsubmitted hout hd hv =>
    refine forall_claims_update hclaims (fun j o _ => h j o) ?_
    cases hout with
    | passed oracle hpasses hadvances hpayout =>
      obtain ⟨p, rfl, hfresh, hp⟩ := hpasses.fresh
      simp only [Backs, hop] at hC
      refine backed_of_passed hpasses hadvances hpayout ?_
      rw [hp]
      exact hC c hfound hpasses.rules hfresh hheld
    | failed toStatus hto hadvances hpayout =>
      refine (h _ c hfound).advance hadvances hpayout fun hstatus => ?_
      rcases hto with rfl | rfl <;> simp at hstatus
  | disputed id disputant reason evidence hop c c' hw hstatus hpayout hnone hd hv =>
    exact forall_claims_update hw.claims (fun j o _ => h j o)
      ((h id c hw.found).advance hw.advances hpayout (by simp))
  | decided id resolution admin notes hop c c' hw hstatus hpayout hopen hd hv =>
    refine forall_claims_update hw.claims (fun j o _ => h j o)
      ((h id c hw.found).advance hw.advances hpayout fun hto => ?_)
    cases resolution with
    | approved =>
      obtain ⟨d, hd, hnone⟩ := hopen
      simp only [Backs, hop] at hC
      exact hC c hw.found hstatus d hd hnone
    | rejected => simp [mapResolutionToStatus] at hto
    | escalated => simp [mapResolutionToStatus] at hto
  | paid id txHash admin hop c c' hw hstatus hpayout hd hv =>
    exact forall_claims_update hw.claims (fun j o _ => h j o)
      ((h id c hw.found).advance hw.advances hpayout fun _ =>
        (h id c hw.found).carries (.inl hstatus))

/-! ## Runs -/

namespace Sample

/-- Alice's claim is approved, and paid. -/
def paid : List Event :=
  [⟨5000, .submitClaim request⟩, ⟨5001, .resume awaited priced⟩,
    ⟨5002, .processPayout 0 "tx" "admin"⟩]

end Sample

end StellarLend.Insurance
