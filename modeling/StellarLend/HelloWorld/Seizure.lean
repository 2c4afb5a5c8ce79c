import StellarLend.HelloWorld.Quiet

/-!
# HelloWorld/Seizure — how much a liquidation takes

    0  ≤  seized  ≤  seizableBalance

The upper bound is a `min` in the code.  The lower one rests on everything behind the amount: the
total debt is positive because the close factor is not negative, the prices are positive, and the
penalty is not below `-100%`.  The last is the delicate one.  The penalty moves from the incentive
to its cap by how far the ratio is below the threshold, so where the incentive is above the cap it
moves down, and a negative value pushes it down without bound.
-/

namespace StellarLend.HelloWorld

open Foundations Call
open Lending (Address)

variable {e : Env} {s t s' : Storage}

/-- A liquidation that passed its check is of a positive debt. -/
theorem liquidationCheck_pos {debtAmount value totalDebt : ℤ} {r : Unit} (hvalid : RiskValid s)
    (hpos : 0 < debtAmount)
    (h : liquidationCheck debtAmount value totalDebt e s = .ok r s') : 0 < totalDebt := by
  obtain ⟨-, config, hconfig, -, -, hle⟩ := liquidationCheck_ok h
  have hclose : 0 ≤ config.closeFactor :=
    (validateRiskParams_ok.mp (hvalid config hconfig)).closeFactor.1
  by_contra hneg
  have hnonpos : totalDebt * config.closeFactor ≤ 0 :=
    mul_nonpos_of_nonpos_of_nonneg (not_lt.mp hneg) hclose
  have hflip := Int.tdiv_nonneg (neg_nonneg.mpr hnonpos)
    (show 0 ≤ BASIS_POINTS_SCALE by decide)
  rw [Int.neg_tdiv] at hflip
  omega

/-! ## The penalty -/

/-- A truncating quotient of a product by one of its factors' bounds. -/
theorem le_tdiv_mul {severity threshold range : ℤ} (hthreshold : 0 < threshold)
    (hseverity : 0 ≤ severity) (hle : severity ≤ threshold) (hrange : range ≤ 0) :
    range ≤ (severity * range).tdiv threshold := by
  have hflip : (severity * range).tdiv threshold = -((severity * -range).tdiv threshold) := by
    rw [mul_neg, Int.neg_tdiv, neg_neg]
  have hnonneg : 0 ≤ severity * -range := mul_nonneg hseverity (by omega)
  rw [hflip, Int.tdiv_eq_ediv_of_nonneg hnonneg]
  have hmul : severity * -range ≤ -range * threshold := by
    rw [mul_comm (-range)]
    exact mul_le_mul_of_nonneg_right hle (by omega)
  have := Int.ediv_le_of_le_mul hthreshold hmul
  omega

/-- **The penalty is not negative**, as long as the incentive is at most the cap or the value is not
negative. -/
theorem calculateDynamicPenalty_nonneg {config : RiskParams} {value totalDebt penalty : ℤ}
    (hvalid : RiskValid s) (hconfig : getRiskParams s = some config) (hdebt : 0 < totalDebt)
    (hsign : config.liquidationIncentive ≤ MAX_PENALTY_BPS ∨ 0 ≤ value)
    (h : calculateDynamicPenalty value totalDebt e s = .ok penalty s') : 0 ≤ penalty := by
  have hbounds := validateRiskParams_ok.mp (hvalid config hconfig)
  have hthreshold : 10000 ≤ config.liquidationThreshold := hbounds.threshold.1
  have hincentive : 0 ≤ config.liquidationIncentive := hbounds.incentive.1
  simp only [calculateDynamicPenalty, view_seq, okOr_seq, hconfig, Option.some.injEq,
    exists_eq_left', if_neg hdebt.ne'] at h
  obtain ⟨health, hhealth, h⟩ := h
  simp only [Option.bind_eq_some_iff, I128.checkedMul_eq_some, I128.checkedDiv_eq_some, and_assoc,
    exists_and_left, exists_eq_left'] at hhealth
  obtain ⟨-, -, -, hhealth⟩ := hhealth
  by_cases habove : config.liquidationThreshold ≤ health
  · rw [if_pos habove] at h
    obtain ⟨rfl, -⟩ := pure_ok.mp h
    exact hincentive
  · simp only [if_neg habove, orTrap_seq, okOr_seq, pure_ok, Option.bind_eq_some_iff,
      I128.checkedSub_eq_some, I128.checkedMul_eq_some, I128.checkedDiv_eq_some,
      I128.checkedAdd_eq_some, and_assoc, exists_and_left, exists_eq_left'] at h
    obtain ⟨-, -, -, -, -, -, rfl, -⟩ := h
    refine le_min ?_ (by decide)
    by_cases hcap : config.liquidationIncentive ≤ MAX_PENALTY_BPS
    · exact add_nonneg hincentive (Int.tdiv_nonneg (mul_nonneg (by omega) (by omega)) (by omega))
    · have hvalue : 0 ≤ value := hsign.resolve_left hcap
      have hnonneg : 0 ≤ health :=
        hhealth ▸ Int.tdiv_nonneg (mul_nonneg hvalue (by decide)) hdebt.le
      have hle : MAX_PENALTY_BPS - config.liquidationIncentive ≤
          ((config.liquidationThreshold - health) *
            (MAX_PENALTY_BPS - config.liquidationIncentive)).tdiv config.liquidationThreshold :=
        le_tdiv_mul (by omega) (by omega) (by omega) (by omega)
      have hmax : (0 : ℤ) ≤ MAX_PENALTY_BPS := by decide
      omega

/-! ## The seizure -/

theorem collateralFor_nonneg {debtAsset collateralAsset : Option Address} {repaid worth : ℤ}
    (hprices : PricesPositive s.oracle) (hrepaid : 0 ≤ repaid)
    (h : collateralFor debtAsset collateralAsset repaid e s = .ok worth s') : 0 ≤ worth := by
  unfold collateralFor at h
  by_cases hnative : debtAsset = none ∧ collateralAsset = none
  · rw [if_pos hnative] at h
    obtain ⟨rfl, -⟩ := pure_ok.mp h
    exact hrepaid
  · simp only [if_neg hnative, bind_ok, okOr_ok, Option.bind_eq_some_iff, I128.checkedMul_eq_some,
      I128.checkedDiv_eq_some, and_assoc, exists_and_left, exists_eq_left'] at h
    obtain ⟨debtPrice, t, hdebt, price, u, hprice, -, -, -, rfl, -⟩ := h
    obtain ⟨hpriced, hdebtPos⟩ := namedPrice_ok hdebt
    have hpricePos := (namedPrice_ok hprice).2 (hpriced.positive hprices)
    exact Int.tdiv_nonneg (mul_nonneg hrepaid (hdebtPos hprices).le) hpricePos.le

/-- **A settlement seizes something between nothing and the balance.** -/
theorem settlement_seized {config : RiskParams} {debtAsset collateralAsset : Option Address}
    {debtAmount totalDebt balance value : ℤ} {amounts : Settlement} (hvalid : RiskValid s)
    (hconfig : getRiskParams s = some config) (hprices : PricesPositive s.oracle)
    (hamount : 0 < debtAmount) (hdebt : 0 < totalDebt) (hbalance : 0 ≤ balance)
    (hsign : config.liquidationIncentive ≤ MAX_PENALTY_BPS ∨ 0 ≤ value)
    (h : settlement debtAsset collateralAsset debtAmount totalDebt balance value e s =
      .ok amounts s') : 0 ≤ amounts.seized ∧ amounts.seized ≤ balance := by
  obtain ⟨hrepaid, -, penalty, worth, hpenalty, hworth, hseized, -⟩ := settlement_ok h
  have hpenalty := calculateDynamicPenalty_nonneg hvalid hconfig hdebt hsign hpenalty
  have hworth := collateralFor_nonneg hprices (by omega) hworth
  have hseizable : 0 ≤ (worth * (10000 + penalty)).tdiv 10000 :=
    Int.tdiv_nonneg (mul_nonneg hworth (by omega)) (by decide)
  rw [hseized]
  exact ⟨le_min hbalance hseizable, min_le_left ..⟩

/-- A borrower's collateral is judged at no less than nothing, if nothing on the list is held or
counted negatively. -/
theorem collateralValueForCheck_nonneg {borrower : Address}
    {debtAsset collateralAsset : Option Address} {balance value : ℤ}
    (hprices : PricesPositive s.oracle) (hbalance : 0 ≤ balance)
    (hlisted : ∀ a ∈ getUserAssetList s borrower,
      0 ≤ getUserAssetCollateral s borrower a ∧ 0 ≤ getCollateralFactor s a)
    (h : collateralValueForCheck borrower debtAsset collateralAsset balance e s = .ok value s') :
    0 ≤ value := by
  simp only [collateralValueForCheck, view_seq] at h
  by_cases hmulti : hasMultiAssetCollateral s borrower = true
  · rw [if_pos hmulti, mapErr_ok, calculateTotalCollateralValue_eq] at h
    exact (ofOracle_priced (valueOn_keeps _ _ _ _) h).2 hprices (fun a ha => (hlisted a ha).1)
      (fun a ha => (hlisted a ha).2) le_rfl
  · rw [if_neg hmulti] at h
    by_cases hnative : debtAsset = none ∧ collateralAsset = none
    · rw [if_pos hnative] at h
      obtain ⟨rfl, -⟩ := pure_ok.mp h
      exact hbalance
    · simp only [if_neg hnative, bind_ok, ofExcept_ok] at h
      obtain ⟨debtPrice, t, hdebt, price, u, hprice, hvalue, -⟩ := h
      obtain ⟨hpriced, hdebtPos⟩ := namedPrice_ok hdebt
      have hpricePos := (namedPrice_ok hprice).2 (hpriced.positive hprices)
      have hdebtPos := hdebtPos hprices
      simp only [calculateCollateralValue, if_neg hdebtPos.ne', except_bind_ok, orErr_ok,
        I128.checkedMul_eq_some, I128.checkedDiv_eq_some, and_assoc, exists_and_left,
        exists_eq_left'] at hvalue
      obtain ⟨-, -, -, rfl⟩ := hvalue
      exact Int.tdiv_nonneg (mul_nonneg hbalance hpricePos.le) hdebtPos.le

theorem Approach.getRiskParams (h : Approach s t) :
    getRiskParams t = HelloWorld.getRiskParams s := by
  rw [HelloWorld.getRiskParams, h.risk, HelloWorld.getRiskParams]

section Liquidated

variable {borrower : Address} {debtAsset collateralAsset : Option Address} {debtAmount value : ℤ}
  {p : Position} {amounts : Settlement}

/-- A liquidation is of a positive debt. -/
theorem Liquidated.debt_pos
    (h : Liquidated e s borrower debtAsset collateralAsset debtAmount p value amounts s')
    (hvalid : RiskValid s) : 0 < p.debt + p.borrowInterest := by
  obtain ⟨tc, _, hc, hchecked⟩ := h.checked
  refine liquidationCheck_pos ?_ h.amount_pos hchecked
  rwa [RiskValid, hc.getRiskParams]

theorem Liquidated.repaid
    (h : Liquidated e s borrower debtAsset collateralAsset debtAmount p value amounts s') :
    amounts.repaid = min (p.debt + p.borrowInterest) debtAmount := by
  obtain ⟨_, _, -, -, hsettled⟩ := h.settled
  exact (settlement_ok hsettled).1

/-- What a liquidation has compared its borrower and its amount with. -/
theorem Liquidated.judgement
    (h : Liquidated e s borrower debtAsset collateralAsset debtAmount p value amounts s') :
    ∃ config, getRiskParams s = some config ∧
      (value * BASIS_POINTS_SCALE).tdiv (p.debt + p.borrowInterest) < config.liquidationThreshold ∧
      debtAmount ≤ ((p.debt + p.borrowInterest) * config.closeFactor).tdiv BASIS_POINTS_SCALE := by
  obtain ⟨tc, _, hc, hchecked⟩ := h.checked
  obtain ⟨-, config, hconfig, -, hbelow, hlimit⟩ := liquidationCheck_ok hchecked
  exact ⟨config, hc.getRiskParams ▸ hconfig, hbelow, hlimit⟩

/-- The incentive is at most its cap, or nothing the borrower's list is valued by is negative. -/
def PenaltyBounded (s : Storage) (borrower : Address) : Prop :=
  (∀ config, getRiskParams s = some config → config.liquidationIncentive ≤ MAX_PENALTY_BPS) ∨
    ∀ a ∈ getUserAssetList s borrower,
      0 ≤ getUserAssetCollateral s borrower a ∧ 0 ≤ getCollateralFactor s a

/-- Under that condition the penalty is not negative. -/
theorem Liquidated.sign
    (h : Liquidated e s borrower debtAsset collateralAsset debtAmount p value amounts s')
    (hprices : PricesPositive s.oracle)
    (hbalance : 0 ≤ seizableBalance s borrower collateralAsset)
    (hbounded : PenaltyBounded s borrower) {config : RiskParams}
    (hconfig : getRiskParams s = some config) :
    config.liquidationIncentive ≤ MAX_PENALTY_BPS ∨ 0 ≤ value := by
  obtain ⟨tj, _, hj, hjoracle, hjudged⟩ := h.judged
  refine hbounded.imp (fun hcap => hcap config hconfig) fun hlisted => ?_
  refine collateralValueForCheck_nonneg (hjoracle ▸ hprices) hbalance (fun a ha => ?_) hjudged
  rw [hj.getUserAssetList] at ha
  rw [hj.getUserAssetCollateral, getCollateralFactor, hj.assetParams]
  exact hlisted a ha

/-- **A liquidation seizes something between nothing and what it can seize from.** -/
theorem Liquidated.seized_bounds
    (h : Liquidated e s borrower debtAsset collateralAsset debtAmount p value amounts s')
    (hvalid : RiskValid s) (hprices : PricesPositive s.oracle)
    (hbalance : 0 ≤ seizableBalance s borrower collateralAsset)
    (hbounded : PenaltyBounded s borrower) :
    0 ≤ amounts.seized ∧ amounts.seized ≤ seizableBalance s borrower collateralAsset := by
  obtain ⟨ts, _, hs, hsprices, hsettled⟩ := h.settled
  obtain ⟨config, hconfig, -⟩ := h.judgement
  have hkept : getRiskParams ts = some config := by rwa [hs.getRiskParams]
  refine settlement_seized ?_ hkept (hsprices hprices) h.amount_pos (h.debt_pos hvalid) hbalance
    (h.sign hprices hbalance hbounded hconfig) hsettled
  rwa [RiskValid, hs.getRiskParams]

end Liquidated

end StellarLend.HelloWorld
