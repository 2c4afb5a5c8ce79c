import StellarLend.Foundations.Rounding
import StellarLend.HelloWorld.Treasury

/-!
# HelloWorld/Relief — the penalty of a liquidation, and whether the liquidation helps

The penalty is a function of the health: the incentive from the threshold on, and below it on the
line from the incentive to the cap.  Where the incentive is above the cap the line falls, and the
cap holds below the threshold only.

A liquidation repays an amount and seizes what it is worth with the penalty on top.  The ratio of
value to debt does not fall exactly where what is seized has no greater part of the value than the
amount has of the debt (`InProportion`).
-/

namespace StellarLend.HelloWorld

open Foundations Call
open Lending (Address)

variable {e : Env} {s t s' : Storage} {config : RiskParams}

/-! ## The penalty -/

/-- The penalty at a health. -/
def penaltyOf (config : RiskParams) (health : ℤ) : ℤ :=
  if config.liquidationThreshold ≤ health then config.liquidationIncentive
  else
    min (config.liquidationIncentive + ((config.liquidationThreshold - health) *
      (MAX_PENALTY_BPS - config.liquidationIncentive)).tdiv config.liquidationThreshold)
      MAX_PENALTY_BPS

theorem penaltyAt_eq (value totalDebt : ℤ) :
    penaltyAt config value totalDebt = penaltyOf config ((value * 10000).tdiv totalDebt) := rfl

section Penalty

variable {value value' totalDebt totalDebt' penalty : ℤ}

/-- With an incentive within the cap the line rises. -/
theorem extra_nonneg {health : ℤ} (hthreshold : 0 < config.liquidationThreshold)
    (hcap : config.liquidationIncentive ≤ MAX_PENALTY_BPS)
    (hbelow : health < config.liquidationThreshold) :
    0 ≤ ((config.liquidationThreshold - health) *
      (MAX_PENALTY_BPS - config.liquidationIncentive)).tdiv config.liquidationThreshold :=
  Int.tdiv_nonneg (mul_nonneg (sub_nonneg.mpr hbelow.le) (sub_nonneg.mpr hcap)) hthreshold.le

theorem penaltyOf_bounds (hthreshold : 0 < config.liquidationThreshold)
    (hcap : config.liquidationIncentive ≤ MAX_PENALTY_BPS) (health : ℤ) :
    config.liquidationIncentive ≤ penaltyOf config health ∧
      penaltyOf config health ≤ MAX_PENALTY_BPS := by
  unfold penaltyOf
  split
  · exact ⟨le_rfl, hcap⟩
  · rename_i hdue
    have hextra := extra_nonneg hthreshold hcap (not_le.mp hdue)
    exact ⟨le_min (le_add_of_nonneg_right hextra) hcap, min_le_right _ _⟩

/-- **With an incentive within the cap the penalty falls with the health**, across the threshold
too. -/
theorem penaltyOf_anti (hthreshold : 0 < config.liquidationThreshold)
    (hcap : config.liquidationIncentive ≤ MAX_PENALTY_BPS) : Antitone (penaltyOf config) := by
  intro health health' hle
  by_cases hsafe : config.liquidationThreshold ≤ health'
  · rw [penaltyOf, if_pos hsafe]
    exact (penaltyOf_bounds hthreshold hcap health).1
  · have hdue : ¬ config.liquidationThreshold ≤ health := fun h => hsafe (h.trans hle)
    rw [penaltyOf, penaltyOf, if_neg hsafe, if_neg hdue]
    refine min_le_min_right _ (add_le_add_right (Int.tdiv_le_tdiv hthreshold ?_) _)
    exact mul_le_mul_of_nonneg_right (by omega) (sub_nonneg.mpr hcap)

/-- The code's penalty on a borrower with a debt, where nothing overflows. -/
theorem calculateDynamicPenalty_at (hconfig : getRiskParams s = some config) (hdebt : 0 < totalDebt)
    (h : calculateDynamicPenalty value totalDebt e s = .ok penalty t) :
    penalty = penaltyOf config ((value * 10000).tdiv totalDebt) := by
  obtain ⟨config', hconfig', rfl⟩ := calculateDynamicPenalty_eq hdebt.ne' h
  obtain rfl := Option.some.inj (hconfig.symm.trans hconfig')
  exact penaltyAt_eq value totalDebt

/-- At the threshold and above, the code's penalty is the incentive. -/
theorem calculateDynamicPenalty_safe (hconfig : getRiskParams s = some config)
    (hdebt : 0 < totalDebt) (hscaled : I128.Holds (value * 10000))
    (hhealth : I128.Holds ((value * 10000).tdiv totalDebt))
    (hsafe : config.liquidationThreshold ≤ (value * 10000).tdiv totalDebt) :
    calculateDynamicPenalty value totalDebt e s = .ok config.liquidationIncentive s := by
  simp only [calculateDynamicPenalty, if_neg hdebt.ne', view_seq, okOr_seq,
    Option.bind_eq_some_iff, I128.checkedMul_eq_some, I128.checkedDiv_eq_some, and_assoc,
    exists_and_left, exists_eq_left']
  refine ⟨config, hconfig, hscaled, hdebt.ne', hhealth, ?_⟩
  rw [if_pos hsafe]
  rfl

/-- What a penalty promises: it is between the incentive and the cap, no greater with more
collateral, no less with more debt, and no less below the threshold than above. -/
structure PenaltyLaws (e : Env) (s : Storage) (config : RiskParams) : Prop where
  bounds : ∀ value totalDebt penalty t, 0 ≤ value → 0 < totalDebt →
    calculateDynamicPenalty value totalDebt e s = .ok penalty t →
      config.liquidationIncentive ≤ penalty ∧ penalty ≤ MAX_PENALTY_BPS
  collateral : ∀ value value' totalDebt penalty penalty' t t', 0 ≤ value → value ≤ value' →
    0 < totalDebt → calculateDynamicPenalty value totalDebt e s = .ok penalty t →
      calculateDynamicPenalty value' totalDebt e s = .ok penalty' t' → penalty' ≤ penalty
  debt : ∀ value totalDebt totalDebt' penalty penalty' t t', 0 ≤ value → 0 < totalDebt →
    totalDebt ≤ totalDebt' → calculateDynamicPenalty value totalDebt e s = .ok penalty t →
      calculateDynamicPenalty value totalDebt' e s = .ok penalty' t' → penalty ≤ penalty'
  threshold : ∀ value value' totalDebt totalDebt' penalty penalty' t t', 0 ≤ value → 0 ≤ value' →
    0 < totalDebt → 0 < totalDebt' →
      (value * 10000).tdiv totalDebt < config.liquidationThreshold →
        config.liquidationThreshold ≤ (value' * 10000).tdiv totalDebt' →
          calculateDynamicPenalty value totalDebt e s = .ok penalty t →
            calculateDynamicPenalty value' totalDebt' e s = .ok penalty' t' → penalty' ≤ penalty

/-- **Under a configuration that a run reaches, the penalty keeps its laws if and only if the
incentive is within the cap.** -/
theorem penalty_laws_iff (hs : Reachable s) (hconfig : getRiskParams s = some config) :
    PenaltyLaws e s config ↔ config.liquidationIncentive ≤ MAX_PENALTY_BPS := by
  have hbounds := validateRiskParams_ok.mp (hs.settled.risk config hconfig)
  have hthreshold : 0 < config.liquidationThreshold :=
    lt_of_lt_of_le (by decide) hbounds.threshold.1
  constructor
  · intro hlaws
    have hlimit : config.liquidationThreshold ≤ 50000 := hbounds.threshold.2
    have hhealth : (config.liquidationThreshold * 10000).tdiv 1 =
        config.liquidationThreshold * 10000 := Int.tdiv_one _
    have hholds : I128.Holds (config.liquidationThreshold * 10000) :=
      I128.holds_iff.mpr (by omega)
    have hpenalty : calculateDynamicPenalty config.liquidationThreshold 1 e s =
        .ok config.liquidationIncentive s :=
      calculateDynamicPenalty_safe hconfig one_pos hholds (by rwa [hhealth]) (by omega)
    exact (hlaws.bounds _ _ _ _ hthreshold.le one_pos hpenalty).2
  · intro hcap
    have hanti := penaltyOf_anti hthreshold hcap
    constructor
    · intro value totalDebt penalty t _ hdebt h
      rw [calculateDynamicPenalty_at hconfig hdebt h]
      exact penaltyOf_bounds hthreshold hcap _
    · intro value value' totalDebt penalty penalty' t t' _ hle hdebt h h'
      rw [calculateDynamicPenalty_at hconfig hdebt h, calculateDynamicPenalty_at hconfig hdebt h']
      exact hanti (Int.tdiv_le_tdiv hdebt (mul_le_mul_of_nonneg_right hle (by decide)))
    · intro value totalDebt totalDebt' penalty penalty' t t' hvalue hdebt hle h h'
      have hscaled : 0 ≤ value * 10000 := mul_nonneg hvalue (by decide)
      rw [calculateDynamicPenalty_at hconfig hdebt h,
        calculateDynamicPenalty_at hconfig (hdebt.trans_le hle) h']
      refine hanti ?_
      rw [Int.tdiv_eq_ediv_of_nonneg hscaled, Int.tdiv_eq_ediv_of_nonneg hscaled]
      exact ediv_anti hscaled hdebt hle
    · intro value value' totalDebt totalDebt' penalty penalty' t t' _ _ hdebt hdebt' hbelow habove
        h h'
      rw [calculateDynamicPenalty_at hconfig hdebt h, calculateDynamicPenalty_at hconfig hdebt' h']
      exact hanti (hbelow.le.trans habove)

end Penalty

namespace Sample

/-- The admin raises the incentive by a tenth, eight times. -/
def generous : List Tx :=
  deploy :: [1100, 1210, 1331, 1464, 1610, 1771, 1948, 2142].map fun incentive =>
    ⟨envAt 2 [admin], .setRiskParams admin none none none (some incentive)⟩

def generousParams : RiskParams := ⟨11000, 10500, 5000, 2142, 2⟩

theorem generous_params : getRiskParams (ledger generous) = some generousParams := by decide

end Sample

theorem penalty_laws_deploy :
    PenaltyLaws (Sample.envAt 2 []) (ledger [Sample.deploy]) (.default 1) ↔
      (1000 : ℤ) ≤ MAX_PENALTY_BPS :=
  penalty_laws_iff ⟨[Sample.deploy], rfl⟩ (by decide)

/-- At the threshold the penalty of 2142 is above the cap, and one unit below it is at the cap. -/
theorem not_penalty_laws_generous :
    ¬ ∀ e s config, Reachable s → getRiskParams s = some config → PenaltyLaws e s config := by
  intro hall
  have hlaws := hall (Sample.envAt 2 []) _ _ ⟨Sample.generous, rfl⟩ Sample.generous_params
  have hpenalty : calculateDynamicPenalty 10500 10000 (Sample.envAt 2 []) (ledger Sample.generous) =
      .ok 2142 (ledger Sample.generous) :=
    calculateDynamicPenalty_safe Sample.generous_params (by decide) (by decide) (by decide)
      (by decide)
  exact absurd (hlaws.bounds _ _ _ _ (by decide) (by decide) hpenalty).2 (by decide)

/-! ## What a liquidation takes -/

section Seizure

variable {liquidator borrower : Address} {debtAsset collateralAsset : Option Address}
  {debtAmount value : ℤ} {p : Position} {amounts : Settlement}

/-- What is taken for a worth with a penalty on top: no more than there is. -/
def penalised (s : Storage) (borrower : Address) (collateralAsset : Option Address)
    (worth penalty : ℤ) : ℤ :=
  min (seizableBalance s borrower collateralAsset) ((worth * (10000 + penalty)).tdiv 10000)

/-- The store with some of a borrower's collateral taken. -/
def withoutCollateral (borrower : Address) (collateralAsset : Option Address) (taken : ℤ)
    (s : Storage) : Storage :=
  withSeizure borrower collateralAsset taken
    (withCollateralBalance borrower (subOrZero (getCollateralBalance s borrower) taken) s)

/-- Seizing and writing the copy of the index do not touch the same record. -/
theorem withSeizure_index (user : Address) (index taken : ℤ) (s : Storage) :
    withSeizure borrower collateralAsset taken (withUserBorrowIndex user index s) =
      withUserBorrowIndex user index (withSeizure borrower collateralAsset taken s) := by
  have hmulti : hasMultiAssetCollateral (withUserBorrowIndex user index s) borrower =
      hasMultiAssetCollateral s borrower := rfl
  unfold withSeizure
  rw [hmulti]
  split
  · cases collateralAsset with
    | none => rfl
    | some token =>
      have hbalance : getUserAssetCollateral (withUserBorrowIndex user index s) borrower token =
          getUserAssetCollateral s borrower token := rfl
      simp only [onAsset, withAssetWithdrawal, hbalance]
      split <;> rfl
  · rfl

/-- **After a liquidation the collateral is what it was without what was seized.** -/
theorem Liquidated.remaining
    (h : Liquidated e s borrower debtAsset collateralAsset debtAmount p value amounts s') :
    SameCollateral (withoutCollateral borrower collateralAsset amounts.seized s)
      { s' with oracle := s.oracle } := by
  obtain ⟨index, -, hbooks⟩ := h.books
  have hassets := withSeizure_assets borrower collateralAsset amounts.seized
    (withCollateralBalance borrower (subOrZero (getCollateralBalance s borrower) amounts.seized) s)
  have hindex : ∀ balance, withSeizure borrower collateralAsset amounts.seized
      (withCollateralBalance borrower balance (withUserBorrowIndex borrower index s)) =
      withUserBorrowIndex borrower index (withSeizure borrower collateralAsset amounts.seized
        (withCollateralBalance borrower balance s)) := fun balance =>
    withSeizure_index borrower index amounts.seized (withCollateralBalance borrower balance s)
  simp only [hindex] at hbooks
  rw [AssetsOnly] at hassets
  refine ⟨?_, ?_, ?_, ?_, ?_⟩
  · rw [withoutCollateral, hassets]
    rfl
  · rw [withoutCollateral, hassets]
    exact h.frame.assetParams
  all_goals
    simp only [hbooks]
    rfl

/-! ## Whether it helps -/

/-- The amount is the whole debt, or what is taken for it with the penalty at the borrower's health
has no greater part in the collateral value than the amount has in the debt. -/
def InProportion (e : Env) (s : Storage) (borrower : Address)
    (debtAsset collateralAsset : Option Address) (amount : ℤ) : Prop :=
  amount = owed s borrower ∨ ∀ config value worth rest, getRiskParams s = some config →
    judgedValue e s borrower debtAsset collateralAsset = some value →
      worthFor e s borrower debtAsset collateralAsset amount = some worth →
        judgedValue e (withoutCollateral borrower collateralAsset
            (penalised s borrower collateralAsset worth
              (penaltyAt config value (owed s borrower))) s)
          borrower debtAsset collateralAsset = some rest →
            (value - rest) * owed s borrower ≤ value * amount

/-- The debt is gone, or the ratio of collateral value to debt has not fallen, at the prices of
before. -/
def RatioKept (e : Env) (s : Storage) (borrower : Address)
    (debtAsset collateralAsset : Option Address) (s' : Storage) : Prop :=
  owed s' borrower = 0 ∨ ∀ value value',
    judgedValue e s borrower debtAsset collateralAsset = some value →
      judgedValue e { s' with oracle := s.oracle } borrower debtAsset collateralAsset =
        some value' →
          value * owed s' borrower ≤ value' * owed s borrower

/-- No more than the debt passes the close factor. -/
theorem Liquidated.repaid_eq
    (h : Liquidated e s borrower debtAsset collateralAsset debtAmount p value amounts s')
    (hvalid : RiskValid s) : amounts.repaid = debtAmount := by
  obtain ⟨config, hconfig, -, hlimit⟩ := h.judgement
  have hdebt := h.debt_pos hvalid
  have hclose := (validateRiskParams_ok.mp (hvalid config hconfig)).closeFactor
  have hall : ((p.debt + p.borrowInterest) * config.closeFactor).tdiv BASIS_POINTS_SCALE ≤
      p.debt + p.borrowInterest := by
    rw [Int.tdiv_eq_ediv_of_nonneg (mul_nonneg hdebt.le hclose.1)]
    exact Int.ediv_le_of_le_mul (by decide) (mul_le_mul_of_nonneg_left hclose.2 hdebt.le)
  rw [h.repaid]
  omega

/-- **A liquidation keeps the ratio exactly where it is in proportion.** -/
theorem Liquidated.ratioKept_iff
    (h : Liquidated e s borrower debtAsset collateralAsset debtAmount p value amounts s')
    (hpaid : Paid e s liquidator borrower debtAsset collateralAsset debtAmount
      (p.debt + p.borrowInterest) value amounts s') (hs : Settled s) (hrange : InRange s) :
    RatioKept e s borrower debtAsset collateralAsset s' ↔
      InProportion e s borrower debtAsset collateralAsset debtAmount := by
  have hdebt := h.debt_pos hs.risk
  obtain ⟨howed, hfalls⟩ := h.debt_falls hs hrange hpaid.holds
  rw [h.repaid_eq hs.risk] at hfalls
  obtain ⟨hvalue, config, worth, hconfig, hworth, -, hseized, -, -⟩ := hpaid.settled hdebt.ne'
  rw [← penalised] at hseized
  rw [h.repaid_eq hs.risk] at hworth
  rw [← howed] at hseized
  have hafter := h.remaining.judgedValue (e := e) borrower debtAsset collateralAsset
  have hgone : owed s' borrower = 0 ↔ debtAmount = owed s borrower := by omega
  rw [RatioKept, InProportion, hgone, hafter, hfalls]
  refine or_congr Iff.rfl ⟨?_, ?_⟩
  · intro hkept config' value' worth' rest hconfig' hvalue' hworth' hrest
    obtain rfl := Option.some.inj (hconfig.symm.trans hconfig')
    obtain rfl := Option.some.inj (hvalue.symm.trans hvalue')
    obtain rfl := Option.some.inj (hworth.symm.trans hworth')
    rw [← hseized] at hrest
    have hratio := hkept value rest hvalue hrest
    linarith
  · intro hshare value' rest hvalue' hrest
    obtain rfl := Option.some.inj (hvalue.symm.trans hvalue')
    have hratio := hshare config value worth rest hconfig hvalue hworth (hseized ▸ hrest)
    linarith

/-- A debt converts alike where the collateral is the same. -/
theorem SameCollateral.worthFor (h : SameCollateral s t) (borrower : Address)
    (debtAsset collateralAsset : Option Address) (amount : ℤ) :
    worthFor e t borrower debtAsset collateralAsset amount =
      worthFor e s borrower debtAsset collateralAsset amount := by
  have hconverted : ∀ s t, SameCollateral s t → ∀ balance worth,
      (∃ u, (do
        let _ ← collateralValueForCheck borrower debtAsset collateralAsset balance
        collateralFor debtAsset collateralAsset amount : Invocation LiquidationError ℤ) e s =
          .ok worth u) →
      ∃ u, (do
        let _ ← collateralValueForCheck borrower debtAsset collateralAsset balance
        collateralFor debtAsset collateralAsset amount : Invocation LiquidationError ℤ) e t =
          .ok worth u := by
    rintro s t hst balance worth ⟨u, hu⟩
    obtain ⟨value, v, hjudged, hworth⟩ := bind_ok.mp hu
    exact ⟨_, bind_ok.mpr ⟨value, _, collateralValueForCheck_congr hst hjudged,
      collateralFor_congr (t := v) rfl hworth⟩⟩
  rw [HelloWorld.worthFor, h.seizableBalance, HelloWorld.worthFor]
  ext worth
  rw [Outcome.value_eq_some, Outcome.value_eq_some]
  exact ⟨hconverted t s h.symm _ worth, hconverted s t h _ worth⟩

/-- What a gateway leaves is the same without some collateral. -/
theorem Gate.withoutCollateral (h : Gate s t) (borrower : Address)
    (collateralAsset : Option Address) (taken : ℤ) :
    SameCollateral (withoutCollateral borrower collateralAsset taken s)
      (withoutCollateral borrower collateralAsset taken t) := by
  have hbalance : getCollateralBalance t borrower = getCollateralBalance s borrower :=
    getCollateralBalance_congr h.books borrower
  have hless : ∀ balance, (withCollateralBalance borrower balance t).books =
      (withCollateralBalance borrower balance s).books := fun balance => by
    rw [withCollateralBalance, withCollateralBalance, h.books]
  have hbooks := withSeizure_congr (hless (subOrZero (getCollateralBalance s borrower) taken))
    borrower collateralAsset taken
  have hassets := fun u => withSeizure_assets borrower collateralAsset taken
    (withCollateralBalance borrower (subOrZero (getCollateralBalance s borrower) taken) u)
  simp only [AssetsOnly] at hassets
  simp only [HelloWorld.withoutCollateral, hbalance]
  refine ⟨?_, ?_, congrArg _ hbooks, congrArg _ hbooks, congrArg _ hbooks⟩
  · rw [hassets t, hassets s]
    exact h.oracle
  · rw [hassets t, hassets s]
    exact h.assetParams

theorem Gate.owed (h : Gate s t) (user : Address) : owed t user = HelloWorld.owed s user := by
  rw [HelloWorld.owed, h.books, HelloWorld.owed]

/-- A gateway changes nothing that the proportion is of. -/
theorem Gate.inProportion (h : Gate s t) (borrower : Address)
    (debtAsset collateralAsset : Option Address) (amount : ℤ) :
    InProportion e t borrower debtAsset collateralAsset amount ↔
      InProportion e s borrower debtAsset collateralAsset amount := by
  have hsame := h.sameCollateral
  have hrisk : getRiskParams t = getRiskParams s := by
    rw [getRiskParams, h.risk, getRiskParams]
  have hrest : ∀ taken,
      judgedValue e (HelloWorld.withoutCollateral borrower collateralAsset taken t) borrower
          debtAsset collateralAsset =
        judgedValue e (HelloWorld.withoutCollateral borrower collateralAsset taken s) borrower
          debtAsset collateralAsset := fun taken =>
    (h.withoutCollateral borrower collateralAsset taken).judgedValue _ _ _
  rw [InProportion, InProportion, h.owed, hrisk, hsame.worthFor, hsame.judgedValue]
  simp only [penalised, hsame.seizableBalance, hrest]

/-- **Whoever liquidates whom, in whatever assets: the borrower's ratio of collateral value to debt
does not fall if and only if the liquidation is in proportion.** -/
theorem liquidation_helps_iff {tx : Tx} (hs : Reachable s) (hstep : step tx s = some s')
    (hact : tx.op.act s =
      some (.liquidate liquidator borrower debtAsset collateralAsset debtAmount)) :
    RatioKept tx.env s borrower debtAsset collateralAsset s' ↔
      InProportion tx.env s borrower debtAsset collateralAsset debtAmount := by
  obtain ⟨t, hgate, ha⟩ := step_act hstep hact
  obtain ⟨_, hliquidate⟩ := commit_eq_some.mp ha
  obtain ⟨⟨p, value, amounts, hliquidated, hpaid⟩, -⟩ := liquidate_counted hliquidate
  have hiff := hliquidated.ratioKept_iff hpaid (hs.settled.gate hgate)
    (hs.inRange.congr hgate.books)
  rw [hgate.inProportion] at hiff
  rw [← hiff, RatioKept, RatioKept, hgate.sameCollateral.judgedValue, hgate.owed, hgate.oracle]

/-! ### Native collateral against a native debt -/

/-- Without a list of assets, native collateral is judged at its balance. -/
theorem judgedValue_native (hsingle : hasMultiAssetCollateral s borrower = false) :
    judgedValue e s borrower none none = some (getCollateralBalance s borrower) := by
  refine Outcome.value_eq_some.mpr ⟨s, ?_⟩
  simp only [collateralValueForCheck, view_seq, hsingle]
  rfl

theorem worthFor_native (hsingle : hasMultiAssetCollateral s borrower = false) (amount : ℤ) :
    worthFor e s borrower none none amount = some amount := by
  obtain ⟨t, ht⟩ := Outcome.value_eq_some.mp (judgedValue_native (e := e) hsingle)
  exact Outcome.value_eq_some.mpr ⟨t, bind_ok.mpr ⟨_, t, ht, rfl⟩⟩

/-- **There a liquidation is in proportion if the amount with its penalty, as far as there is
collateral for it, has no greater part in the balance than the amount has in the debt.** -/
theorem inProportion_native {amount : ℤ} (hsingle : hasMultiAssetCollateral s borrower = false)
    (hconfig : getRiskParams s = some config) {taken : ℤ}
    (htaken : taken = min (getCollateralBalance s borrower) ((amount * (10000 +
      penaltyAt config (getCollateralBalance s borrower) (owed s borrower))).tdiv 10000))
    (hholds : I128.Holds (getCollateralBalance s borrower - taken)) :
    InProportion e s borrower none none amount ↔ amount = owed s borrower ∨
      taken * owed s borrower ≤ getCollateralBalance s borrower * amount := by
  have hkept : ∀ balance, hasMultiAssetCollateral (withCollateralBalance borrower balance s)
      borrower = false := fun _ => hsingle
  have hafter : withoutCollateral borrower none taken s =
      withCollateralBalance borrower (getCollateralBalance s borrower - taken) s := by
    rw [withoutCollateral, subOrZero_eq, if_pos hholds, withSeizure, hkept,
      if_neg Bool.false_ne_true]
  have hrest : judgedValue e (withoutCollateral borrower none taken s) borrower none none =
      some (getCollateralBalance s borrower - taken) := by
    rw [hafter, judgedValue_native (hkept _)]
    simp [withCollateralBalance, getCollateralBalance]
  have hpenalised : penalised s borrower none amount
      (penaltyAt config (getCollateralBalance s borrower) (owed s borrower)) = taken :=
    htaken.symm
  rw [InProportion, judgedValue_native hsingle, worthFor_native hsingle, hconfig]
  refine or_congr Iff.rfl ⟨fun h => ?_, ?_⟩
  · have hshare := h config _ amount _ rfl rfl rfl (by rw [hpenalised]; exact hrest)
    rwa [sub_sub_cancel] at hshare
  · rintro h _ _ _ rest ⟨⟩ ⟨⟩ ⟨⟩ hjudged
    rw [hpenalised, hrest, Option.some.injEq] at hjudged
    rwa [← hjudged, sub_sub_cancel]

end Seizure

namespace Sample

/-- Alice borrows as much as she can, and the threshold moves above her ratio. -/
def stretched : List Tx :=
  [deploy, ⟨envAt 5 [alice], .depositCollateral alice none 1000⟩,
    ⟨envAt 6 [alice], .borrowAsset alice none 909⟩,
    ⟨envAt 7 [admin], .setRiskParams admin (some 12000) (some 11500) none none⟩]

/-- Bob repays a part of her debt. -/
def partOf (amount : ℤ) : Tx := ⟨envAt 8 [bob], .liquidate bob alice none none amount⟩

end Sample

theorem liquidation_helps_stretched :
    ∃ s', step (Sample.partOf 9) (ledger Sample.stretched) = some s' ∧
      (RatioKept (Sample.envAt 8 [Sample.bob]) (ledger Sample.stretched) Sample.alice none none s' ↔
        InProportion (Sample.envAt 8 [Sample.bob]) (ledger Sample.stretched) Sample.alice none none
          9) := by
  have hrun : (step (Sample.partOf 9) (ledger Sample.stretched)).isSome := by decide
  obtain ⟨s', hs'⟩ := Option.isSome_iff_exists.mp hrun
  exact ⟨s', hs', liquidation_helps_iff ⟨_, rfl⟩ hs' rfl⟩

/-- Alice has 1000 against 909 and is left with 559 against 509: with its penalty of 1043, the
amount of 400 takes 441. -/
theorem not_liquidation_helps :
    ¬ ∀ s s' tx liquidator borrower debtAsset collateralAsset debtAmount, Reachable s →
      step tx s = some s' → tx.op.act s =
        some (.liquidate liquidator borrower debtAsset collateralAsset debtAmount) →
          (∀ value, judgedValue tx.env s borrower debtAsset collateralAsset = some value →
            owed s borrower ≤ value) →
              RatioKept tx.env s borrower debtAsset collateralAsset s' := by
  intro hall
  have hrun : (step (Sample.partOf 400) (ledger Sample.stretched)).map (fun s' =>
      (owed s' Sample.alice, judgedValue (Sample.envAt 8 [Sample.bob])
        { s' with oracle := (ledger Sample.stretched).oracle } Sample.alice none none)) =
      some (509, some 559) := by decide
  have hvalue : judgedValue (Sample.envAt 8 [Sample.bob]) (ledger Sample.stretched) Sample.alice
      none none = some 1000 := by decide
  have howed : owed (ledger Sample.stretched) Sample.alice = 909 := by decide
  obtain ⟨s', hs', hafter⟩ := Option.map_eq_some_iff.mp hrun
  obtain ⟨hrest, hleft⟩ := Prod.mk.inj hafter
  have hkept := hall _ s' (Sample.partOf 400) _ _ _ _ _ ⟨Sample.stretched, rfl⟩ hs' rfl
    fun value h => by
      obtain rfl := Option.some.inj (hvalue.symm.trans h)
      rw [howed]
      decide
  rw [RatioKept, hrest, howed] at hkept
  exact absurd (hkept.resolve_left (by decide) 1000 559 hvalue hleft) (by decide)

end StellarLend.HelloWorld
