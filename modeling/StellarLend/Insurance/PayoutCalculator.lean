import StellarLend.Foundations.Rounding
import StellarLend.Insurance.Checks

/-!
# Insurance/PayoutCalculator — the payout calculator in any configuration

    claimed ──cap──▸ capped ──deductible──▸ after it ──discount──▸ net
              limit          rounded share            rounded factor, at least a half

The claims service makes its calculator with the default discount rate (`calculate_service`).  Here
the rate is any that is not negative, and the deductible any percentage.  Each stage is monotone and
leaves no more than it was given, so the whole is; and the discount leaves a half at least.
-/

namespace StellarLend.Insurance

open Foundations

/-- The calculator's configuration, with the source's defaults. -/
structure PayoutCalculatorConfig where
  deductiblePercent : ℚ := 5
  minOracleConfidence : ℚ := 80
  confidenceDiscountRate : ℚ := 1 / 2
  deriving DecidableEq

namespace PayoutCalculatorConfig

variable (config : PayoutCalculatorConfig)

def computeDeductible (cappedAmount : ℤ) : ℤ :=
  if config.deductiblePercent ≤ 0 then 0
  else (cappedAmount * round (config.deductiblePercent * 1000)).tdiv 100000

/-- The discount for a confidence below the threshold, at most one half. -/
def computeConfidenceDiscount (confidence : ℚ) : ℚ :=
  if config.minOracleConfidence ≤ confidence then 0
  else
    let pointsBelow := config.minOracleConfidence - confidence
    let discount := pointsBelow * config.confidenceDiscountRate / 100
    min (1 / 2) (max 0 discount)

/-- The part of the payout that the discount leaves, in millionths. -/
def discountFactor (confidence : ℚ) : ℤ :=
  round ((1 - config.computeConfidenceDiscount confidence) * 1000000)

/-- What the deductible leaves of the capped amount. -/
def afterDeductible (claim : InsuranceClaim) : ℤ :=
  let deductibleAmount := config.computeDeductible (cappedAmount claim)
  if deductibleAmount < cappedAmount claim then cappedAmount claim - deductibleAmount else 0

def calculate (now : ℤ) (claim : InsuranceClaim) (oracle : OracleVerificationData) :
    PayoutResult :=
  let netPayoutAmount :=
    (config.afterDeductible claim * config.discountFactor oracle.confidence).tdiv 1000000
  { grossAmount := claim.claimedAmount
    cappedAmount := cappedAmount claim
    deductibleAmount := config.computeDeductible (cappedAmount claim)
    netPayoutAmount
    oraclePriceUsed := oracle.priceAtVerification
    usdValue := (netPayoutAmount * oracle.priceAtVerification).tdiv SCALE
    confidenceDiscount := config.computeConfidenceDiscount oracle.confidence
    calculatedAt := now }

end PayoutCalculatorConfig

/-- The calculator that the claims service makes. -/
def ClaimsServiceConfig.calculator (cfg : ClaimsServiceConfig) : PayoutCalculatorConfig :=
  { deductiblePercent := cfg.deductiblePercent, minOracleConfidence := cfg.minOracleConfidence }

/-- **The service's payouts are this calculator's.** -/
theorem calculate_service (cfg : ClaimsServiceConfig) (now : ℤ) (claim : InsuranceClaim)
    (oracle : OracleVerificationData) :
    calculate cfg now claim oracle = cfg.calculator.calculate now claim oracle := rfl

namespace PayoutCalculatorConfig

variable {config : PayoutCalculatorConfig} {claim claim' : InsuranceClaim}
  {oracle oracle' : OracleVerificationData} {confidence confidence' : ℚ} {now now' a b : ℤ}

/-- A percentage to deduct, and a rate that discounts. -/
structure Proper (config : PayoutCalculatorConfig) : Prop where
  percent_nonneg : 0 ≤ config.deductiblePercent
  percent_le : config.deductiblePercent ≤ 100
  rate_nonneg : 0 ≤ config.confidenceDiscountRate

theorem round_mono {x y : ℚ} (h : x ≤ y) : round x ≤ round y :=
  Int.floor_le_floor (by linarith)

@[simp] theorem round_intCast (n : ℤ) : round n = n := by
  rw [round, Int.floor_eq_iff]
  constructor <;> linarith

/-! ## The cap -/

theorem cappedAmount_eq_min (claim : InsuranceClaim) :
    cappedAmount claim = min claim.claimedAmount claim.coverageLimit := by
  unfold cappedAmount
  split <;> omega

/-! ## The deductible -/

/-- The share that is deducted, in hundred-thousandths. -/
def share (config : PayoutCalculatorConfig) : ℤ := round (config.deductiblePercent * 1000)

theorem Proper.share_bounds (h : config.Proper) : 0 ≤ config.share ∧ config.share ≤ 100000 := by
  have h0 := h.percent_nonneg
  have h1 := h.percent_le
  have hlow : round ((0 : ℤ) : ℚ) ≤ config.share := by
    refine round_mono ?_
    push_cast
    linarith
  have hhigh : config.share ≤ round ((100000 : ℤ) : ℚ) := by
    refine round_mono ?_
    push_cast
    linarith
  rw [round_intCast] at hlow hhigh
  exact ⟨hlow, hhigh⟩

/-- The deductible is the floor of the share, also where there is none. -/
theorem Proper.computeDeductible_eq (h : config.Proper) (ha : 0 ≤ a) :
    config.computeDeductible a = a * config.share / 100000 := by
  rw [computeDeductible]
  split
  · rename_i hnone
    have hzero : config.deductiblePercent = 0 := le_antisymm hnone h.percent_nonneg
    have hshare : config.share = 0 := by
      rw [share, hzero, zero_mul]
      exact_mod_cast round_intCast 0
    rw [hshare, mul_zero, Int.zero_ediv]
  · exact Int.tdiv_eq_ediv_of_nonneg (mul_nonneg ha h.share_bounds.1)

/-- What the deductible leaves. -/
theorem Proper.afterDeductible_eq (h : config.Proper) (hcapped : 0 ≤ cappedAmount claim) :
    config.afterDeductible claim =
      cappedAmount claim - cappedAmount claim * config.share / 100000 := by
  have hle : cappedAmount claim * config.share / 100000 ≤ cappedAmount claim :=
    Int.ediv_le_of_le_mul (by decide) (mul_le_mul_of_nonneg_left h.share_bounds.2 hcapped)
  simp only [afterDeductible, h.computeDeductible_eq hcapped]
  split <;> omega

theorem Proper.afterDeductible_bounds (h : config.Proper) (hcapped : 0 ≤ cappedAmount claim) :
    0 ≤ config.afterDeductible claim ∧ config.afterDeductible claim ≤ cappedAmount claim := by
  have hshare : 0 ≤ cappedAmount claim * config.share / 100000 :=
    Int.ediv_nonneg (mul_nonneg hcapped h.share_bounds.1) (by decide)
  have hle : cappedAmount claim * config.share / 100000 ≤ cappedAmount claim :=
    Int.ediv_le_of_le_mul (by decide) (mul_le_mul_of_nonneg_left h.share_bounds.2 hcapped)
  rw [h.afterDeductible_eq hcapped]
  omega

theorem Proper.afterDeductible_mono (h : config.Proper) (hcapped : 0 ≤ cappedAmount claim)
    (hle : cappedAmount claim ≤ cappedAmount claim') :
    config.afterDeductible claim ≤ config.afterDeductible claim' := by
  rw [h.afterDeductible_eq hcapped, h.afterDeductible_eq (hcapped.trans hle)]
  exact sub_share_mono (by decide) h.share_bounds.2 hle

/-! ## The discount -/

theorem computeConfidenceDiscount_bounds (config : PayoutCalculatorConfig) (confidence : ℚ) :
    0 ≤ config.computeConfidenceDiscount confidence ∧
      config.computeConfidenceDiscount confidence ≤ 1 / 2 := by
  rw [computeConfidenceDiscount]
  split
  · norm_num
  · exact ⟨le_min (by norm_num) (le_max_left _ _), min_le_left _ _⟩

/-- A greater confidence is discounted less. -/
theorem Proper.computeConfidenceDiscount_anti (h : config.Proper)
    (hle : confidence ≤ confidence') :
    config.computeConfidenceDiscount confidence' ≤ config.computeConfidenceDiscount confidence := by
  by_cases henough : config.minOracleConfidence ≤ confidence'
  · rw [computeConfidenceDiscount, if_pos henough]
    exact (config.computeConfidenceDiscount_bounds confidence).1
  · have hbelow : ¬ config.minOracleConfidence ≤ confidence := fun hc => henough (hc.trans hle)
    rw [computeConfidenceDiscount, computeConfidenceDiscount, if_neg henough, if_neg hbelow]
    have hpoints : (config.minOracleConfidence - confidence') * config.confidenceDiscountRate ≤
        (config.minOracleConfidence - confidence) * config.confidenceDiscountRate :=
      mul_le_mul_of_nonneg_right (by linarith) h.rate_nonneg
    exact min_le_min le_rfl (max_le_max le_rfl (by linarith))

/-- **The discount leaves between a half and the whole.** -/
theorem discountFactor_bounds (config : PayoutCalculatorConfig) (confidence : ℚ) :
    500000 ≤ config.discountFactor confidence ∧ config.discountFactor confidence ≤ 1000000 := by
  obtain ⟨h0, h1⟩ := config.computeConfidenceDiscount_bounds confidence
  have hlow : round ((500000 : ℤ) : ℚ) ≤ config.discountFactor confidence := by
    refine round_mono ?_
    push_cast
    linarith
  have hhigh : config.discountFactor confidence ≤ round ((1000000 : ℤ) : ℚ) := by
    refine round_mono ?_
    push_cast
    linarith
  rw [round_intCast] at hlow hhigh
  exact ⟨hlow, hhigh⟩

theorem Proper.discountFactor_mono (h : config.Proper) (hle : confidence ≤ confidence') :
    config.discountFactor confidence ≤ config.discountFactor confidence' := by
  have hanti := h.computeConfidenceDiscount_anti hle
  exact round_mono (by linarith)

/-! ## The payout -/

/-- The net payout is the floor of what the factor leaves. -/
theorem Proper.netPayoutAmount_eq (h : config.Proper) (hcapped : 0 ≤ cappedAmount claim) :
    (config.calculate now claim oracle).netPayoutAmount =
      config.afterDeductible claim * config.discountFactor oracle.confidence / 1000000 := by
  have hafter := (h.afterDeductible_bounds hcapped).1
  have hfactor := (config.discountFactor_bounds oracle.confidence).1
  exact Int.tdiv_eq_ediv_of_nonneg (mul_nonneg hafter (by omega))

theorem Proper.netPayoutAmount_mono (h : config.Proper) (hcapped : 0 ≤ cappedAmount claim)
    (hle : cappedAmount claim ≤ cappedAmount claim')
    (hconfidence : oracle.confidence ≤ oracle'.confidence) :
    (config.calculate now claim oracle).netPayoutAmount ≤
      (config.calculate now' claim' oracle').netPayoutAmount := by
  rw [h.netPayoutAmount_eq hcapped, h.netPayoutAmount_eq (hcapped.trans hle)]
  refine Int.ediv_le_ediv (by decide) ?_
  have hafter := (h.afterDeductible_bounds (hcapped.trans hle)).1
  have hfactor := (config.discountFactor_bounds oracle.confidence).1
  exact mul_le_mul (h.afterDeductible_mono hcapped hle) (h.discountFactor_mono hconfidence)
    (by omega) hafter

theorem Proper.netPayoutAmount_le (h : config.Proper) (hcapped : 0 ≤ cappedAmount claim) :
    (config.calculate now claim oracle).netPayoutAmount ≤ cappedAmount claim := by
  obtain ⟨hafter, hle⟩ := h.afterDeductible_bounds hcapped
  rw [h.netPayoutAmount_eq hcapped]
  refine le_trans (Int.ediv_le_of_le_mul (by decide) ?_) hle
  exact mul_le_mul_of_nonneg_left (config.discountFactor_bounds _).2 hafter

/-- At least the floor of a half is paid. -/
theorem Proper.half_le_netPayoutAmount (h : config.Proper) (hcapped : 0 ≤ cappedAmount claim) :
    config.afterDeductible claim / 2 ≤ (config.calculate now claim oracle).netPayoutAmount := by
  have hafter := (h.afterDeductible_bounds hcapped).1
  have hmul := mul_le_mul_of_nonneg_left (config.discountFactor_bounds oracle.confidence).1 hafter
  rw [h.netPayoutAmount_eq hcapped]
  omega

/-- **A payout is within the capped amount, which is within claim and coverage; it grows with the
claim, the coverage and the confidence; and a half of what the deductible leaves is paid at
least.** -/
theorem payout_bounded_and_monotone (h : config.Proper) (hclaimed : 0 ≤ claim.claimedAmount)
    (hlimit : 0 ≤ claim.coverageLimit) :
    (∀ now oracle,
      let payout := config.calculate now claim oracle
      0 ≤ payout.netPayoutAmount ∧ payout.netPayoutAmount ≤ payout.cappedAmount ∧
        payout.cappedAmount ≤ min claim.claimedAmount claim.coverageLimit ∧
        config.afterDeductible claim / 2 ≤ payout.netPayoutAmount) ∧
    ∀ now now' claim' (oracle oracle' : OracleVerificationData),
      claim.claimedAmount ≤ claim'.claimedAmount → claim.coverageLimit ≤ claim'.coverageLimit →
      oracle.confidence ≤ oracle'.confidence →
      (config.calculate now claim oracle).netPayoutAmount ≤
        (config.calculate now' claim' oracle').netPayoutAmount := by
  have hcapped : 0 ≤ cappedAmount claim := by
    rw [cappedAmount_eq_min]
    exact le_min hclaimed hlimit
  constructor
  · intro now oracle
    have hhalf : config.afterDeductible claim / 2 ≤
        (config.calculate now claim oracle).netPayoutAmount := h.half_le_netPayoutAmount hcapped
    have hafter := (h.afterDeductible_bounds hcapped).1
    refine ⟨by omega, h.netPayoutAmount_le hcapped, (cappedAmount_eq_min claim).le, hhalf⟩
  · intro now now' claim' oracle oracle' hclaimed' hlimit' hconfidence
    refine h.netPayoutAmount_mono hcapped ?_ hconfidence
    rw [cappedAmount_eq_min, cappedAmount_eq_min]
    exact min_le_min hclaimed' hlimit'

namespace Sample

/-- A claim of more than its coverage. -/
def overclaim : InsuranceClaim where
  id := 1
  claimantAddress := "alice"
  asset := "XLM"
  claimedAmount := 1500
  coverageLimit := 1001
  lossDescription := "depeg"
  lossTimestamp := 100
  submittedAt := 200
  coveragePurchasedAt := 50
  status := .approved
  verificationResult := none
  payoutResult := none
  rejectionReason := none
  rejectionDetails := none
  fraudSignals := []
  history := []
  payoutTransactionHash := none

/-- A price that is verified with some confidence. -/
def verified (confidence : ℚ) : OracleVerificationData :=
  ⟨10000000, 150, confidence, ["coingecko"], 160⟩

/-- With no confidence at all, a half of what the default deductible leaves of 1001 is paid, and no
more than with full confidence. -/
theorem payout_bounded_and_monotone_overclaim :
    475 ≤ (calculate {} 210 overclaim (verified 0)).netPayoutAmount ∧
      (calculate {} 210 overclaim (verified 0)).netPayoutAmount ≤
        (calculate {} 210 overclaim (verified 100)).netPayoutAmount := by
  have h := @payout_bounded_and_monotone {} overclaim
    ⟨by decide +kernel, by decide +kernel, by decide +kernel⟩ (by decide) (by decide)
  have hafter : (475 : ℤ) ≤ afterDeductible {} overclaim / 2 := by decide +kernel
  constructor
  · exact hafter.trans (h.1 210 (verified 0)).2.2.2
  · exact h.2 210 210 overclaim (verified 0) (verified 100) le_rfl le_rfl (by decide)

end Sample

end PayoutCalculatorConfig

end StellarLend.Insurance
