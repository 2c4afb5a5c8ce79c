import StellarLend.HelloWorld.Health
import StellarLend.HelloWorld.Seizure

/-!
# HelloWorld/FairLiquidation — who can be liquidated that could still borrow

A borrower with a list of assets is judged by the same valuation as a borrow.  One without is judged
by the balance at a price ratio, and both prices are of assets the liquidator names: native counts 1
there and a token about `10^8`, so a native position is worth next to nothing against a token
debt.  `liquidation_fair` says that this is the only way to a healthy borrower.
-/

namespace StellarLend.HelloWorld

open Foundations Call
open Lending (Address)

variable {e : Env} {s t s' : Storage} {borrower : Address}
  {asset debtAsset collateralAsset : Option Address} {debtAmount : ℤ}

/-- The borrower has a list of assets, or the price ratio of the assets named is at least the factor
the collateral counts with. -/
def FairlyPriced (e : Env) (s : Storage) (borrower : Address)
    (asset debtAsset collateralAsset : Option Address) : Prop :=
  hasMultiAssetCollateral s borrower = true ∨
    0 ≤ collateralFactorOf s asset ∧ ∀ debtPrice t price u,
      (namedPrice debtAsset : Invocation LiquidationError ℤ) e s = .ok debtPrice t →
      (namedPrice collateralAsset : Invocation LiquidationError ℤ) e t = .ok price u →
        debtPrice * collateralFactorOf s asset ≤ 10000 * price

theorem FairlyPriced.gate (h : FairlyPriced e s borrower asset debtAsset collateralAsset)
    (hgate : Gate s t) : FairlyPriced e t borrower asset debtAsset collateralAsset := by
  have hfactor := hgate.sameCollateral.factor asset
  refine h.imp (fun hmulti => ?_) fun hprices => ⟨hfactor ▸ hprices.1, ?_⟩
  · rw [hgate.sameCollateral.multi]
    exact hmulti
  · intro debtPrice u price v hdebt hprice
    have hdebt' := namedPrice_congr hgate.oracle hdebt
    rw [hfactor]
    exact hprices.2 debtPrice _ price _ hdebt'
      (namedPrice_congr (t := u) rfl hprice)

/-- A balance at a factor is worth no more than at a price ratio that is at least the factor. -/
theorem weighted_le_priced {balance factor debtPrice price : ℤ} (hdebt : 0 < debtPrice)
    (hbalance : 0 ≤ balance) (hfactor : 0 ≤ factor) (hfair : debtPrice * factor ≤ 10000 * price) :
    (balance * factor).tdiv 10000 ≤ (balance * price).tdiv debtPrice := by
  refine Int.le_tdiv_of_mul_le hdebt ?_
  rw [Int.tdiv_eq_ediv_of_nonneg (mul_nonneg hbalance hfactor)]
  have hround : balance * factor / 10000 * 10000 ≤ balance * factor :=
    Int.ediv_mul_le _ (by decide)
  have hscaled : balance * factor / 10000 * 10000 * debtPrice ≤ balance * factor * debtPrice :=
    mul_le_mul_of_nonneg_right hround hdebt.le
  have hpriced : balance * (debtPrice * factor) ≤ balance * (10000 * price) :=
    mul_le_mul_of_nonneg_left hfair hbalance
  linarith

/-- What a borrower without a list of assets is judged at. -/
theorem collateralValueForCheck_single {balance value : ℤ}
    (hsingle : ¬ hasMultiAssetCollateral s borrower = true)
    (h : collateralValueForCheck borrower debtAsset collateralAsset balance e s = .ok value s') :
    ∃ debtPrice t price u,
      (namedPrice debtAsset : Invocation LiquidationError ℤ) e s = .ok debtPrice t ∧
      (namedPrice collateralAsset : Invocation LiquidationError ℤ) e t = .ok price u ∧
      value = (balance * price).tdiv debtPrice := by
  simp only [collateralValueForCheck, view_seq, if_neg hsingle] at h
  by_cases hnative : debtAsset = none ∧ collateralAsset = none
  · obtain ⟨rfl, rfl⟩ := hnative
    rw [if_pos ⟨rfl, rfl⟩] at h
    obtain ⟨rfl, -⟩ := pure_ok.mp h
    exact ⟨1, s, 1, s, rfl, rfl, by rw [mul_one, Int.tdiv_one]⟩
  · simp only [if_neg hnative, bind_ok, ofExcept_ok] at h
    obtain ⟨debtPrice, t, hdebt, price, u, hprice, hvalue, -⟩ := h
    refine ⟨debtPrice, t, price, u, hdebt, hprice, ?_⟩
    unfold calculateCollateralValue at hvalue
    by_cases hzero : debtPrice = 0
    · rw [if_pos hzero] at hvalue
      cases hvalue
    · simp only [if_neg hzero, except_bind_ok, orErr_ok, I128.checkedMul_eq_some,
        I128.checkedDiv_eq_some, and_assoc, exists_and_left, exists_eq_left'] at hvalue
      exact hvalue.2.2.2.symm

/-- **A liquidation judges a fairly priced borrower's collateral at no less than a borrow counts
it**, wherever that is worth anything. -/
theorem CollateralWorth.le_judged {worth value : ℤ} (h : CollateralWorth e s borrower asset worth)
    (hpositive : PricesPositive s.oracle)
    (hfair : FairlyPriced e s borrower asset debtAsset collateralAsset) (hworth : 0 < worth)
    (happroach : Approach s t) (horacle : t.oracle = s.oracle)
    (hjudged : collateralValueForCheck borrower debtAsset collateralAsset
      (seizableBalance s borrower collateralAsset) e t = .ok value s') : worth ≤ value := by
  unfold CollateralWorth at h
  have hmulti := happroach.hasMultiAssetCollateral borrower
  by_cases hlisted : hasMultiAssetCollateral s borrower = true
  · rw [if_pos hlisted] at h
    obtain ⟨u, hu⟩ := h
    simp only [collateralValueForCheck, view_seq, hmulti, if_pos hlisted, mapErr_ok] at hjudged
    have hsame := (happroach.sameCollateral horacle).symm.value hjudged
    rw [hu, Outcome.ok.injEq] at hsame
    exact hsame.1.le
  · rw [if_neg hlisted] at h
    have hbalance :
        seizableBalance s borrower collateralAsset = getCollateralBalance s borrower := by
      cases collateralAsset with
      | none => rfl
      | some token => rw [seizableBalance, if_neg hlisted]
    obtain ⟨debtPrice, u, price, v, hdebt, hprice, rfl⟩ :=
      collateralValueForCheck_single (hmulti ▸ hlisted) hjudged
    have hdebt' := namedPrice_congr horacle hdebt
    obtain ⟨hfactor, hprices⟩ := hfair.resolve_left hlisted
    have hratio := hprices debtPrice _ price _ hdebt'
      (namedPrice_congr (t := u) rfl hprice)
    have hdebtPos := (namedPrice_ok hdebt').2 hpositive
    have hbalancePos : 0 ≤ getCollateralBalance s borrower := by
      by_contra hneg
      have hnonpos := mul_nonneg (neg_nonneg.mpr (not_le.mp hneg).le) hfactor
      rw [neg_mul] at hnonpos
      have := Int.tdiv_nonneg hnonpos (show (0 : ℤ) ≤ 10000 by decide)
      rw [Int.neg_tdiv] at this
      omega
    rw [hbalance, h]
    exact weighted_le_priced hdebtPos hbalancePos hfactor hratio

/-- **A liquidation that is fairly priced does not pass against a healthy borrower.** -/
theorem Liquidated.unhealthy {p : Position} {value : ℤ} {amounts : Settlement}
    (h : Liquidated e s borrower debtAsset collateralAsset debtAmount p value amounts s')
    (hs : Settled s) (hfair : FairlyPriced e s borrower asset debtAsset collateralAsset) :
    ¬ Healthy e s borrower asset := by
  rintro ⟨p₀, interest, worth, hp₀, hinterest, hworth, hcovers⟩
  obtain ⟨p₁, i, hp₁, hi, rfl⟩ := h.accrued
  obtain rfl : p₀ = p₁ := Option.some.inj (hp₀.symm.trans hp₁)
  rw [hs.interestNow, Option.some.injEq] at hinterest
  rw [hs.indexInterest, Option.some.injEq] at hi
  obtain ⟨tc, _, hc, hchecked⟩ := h.checked
  obtain ⟨tj, _, hj, hjoracle, hjudged⟩ := h.judged
  have hparams : getRiskParams tc = getRiskParams s := by
    rw [getRiskParams, hc.risk, getRiskParams]
  have hvalid : RiskValid tc := by
    rw [RiskValid, hparams]
    exact hs.risk
  have hdebt := liquidationCheck_pos hvalid h.amount_pos hchecked
  obtain ⟨-, config, hconfig, -, hbelow, -⟩ := liquidationCheck_ok hchecked
  rw [hparams] at hconfig
  have hbounds := validateRiskParams_ok.mp (hs.risk config hconfig)
  have hthreshold : 10000 ≤ config.liquidationThreshold := hbounds.threshold.1
  have hmin : config.liquidationThreshold ≤ config.minCollateralRatio := hbounds.ordered
  have hminRatio : minCollateralRatioOr s = config.minCollateralRatio := by
    rw [minCollateralRatioOr, getMinCollateralRatio, hconfig]
    rfl
  have howing : p₀.debt ≠ 0 := by
    intro hzero
    simp only [hzero, if_true, add_zero, lt_irrefl] at hdebt
  simp only [if_neg howing, ← hi, add_zero] at hdebt hbelow
  rw [hminRatio, ← hinterest] at hcovers
  have hcovers : config.liquidationThreshold * (p₀.debt + p₀.borrowInterest) ≤ worth * 10000 :=
    (mul_le_mul_of_nonneg_right hmin hdebt.le).trans hcovers
  have hworthPos : 0 < worth := by
    have := mul_pos (show 0 < config.liquidationThreshold by omega) hdebt
    omega
  have hle := hworth.le_judged hs.positive hfair hworthPos hj hjoracle hjudged
  have := Int.le_tdiv_of_mul_le hdebt (hcovers.trans (mul_le_mul_of_nonneg_right hle (by decide)))
  exact absurd hbelow (not_lt.mpr this)

/-! ## Runs -/

/-- The liquidations of a call are fairly priced. -/
def CallFairlyPriced (asset : Option Address) (s : Storage) (tx : Tx) : Prop :=
  ∀ liquidator borrower debtAsset collateralAsset debtAmount,
    tx.op.act s = some (.liquidate liquidator borrower debtAsset collateralAsset debtAmount) →
      FairlyPriced tx.env s borrower asset debtAsset collateralAsset

/-- **In a run whose liquidations are fairly priced nobody is liquidated who is healthy**, whoever
liquidates and whatever assets and amount they name. -/
theorem liquidation_fair {txs : List Tx}
    (h : Meets step (CallFairlyPriced asset) Storage.empty txs) {ys zs : List Tx} {tx : Tx}
    (htxs : txs = ys ++ tx :: zs) (hstep : step tx (ledger ys) = some s') {liquidator : Address}
    (hact : tx.op.act (ledger ys) =
      some (.liquidate liquidator borrower debtAsset collateralAsset debtAmount)) :
    ¬ Healthy tx.env (ledger ys) borrower asset := by
  have hs := Reachable.settled ⟨ys, rfl⟩
  have hfair := (meets_iff.mp h) ys tx zs s' htxs hstep _ _ _ _ _ hact
  obtain ⟨t, hgate, ha⟩ := step_act hstep hact
  obtain ⟨p, value, amounts, heffect⟩ := Act.effect ha
  intro hhealthy
  exact heffect.unhealthy (hs.gate hgate) (hfair.gate hgate) (hhealthy.gate hs hgate)

namespace Sample

/-- Alice borrows close to the limit, the limit moves, and bob liquidates some of it natively. -/
def overdue : List Tx :=
  [deploy, ⟨envAt 5 [alice], .depositCollateral alice none 1000⟩,
    ⟨envAt 6 [alice], .borrowAsset alice none 900⟩,
    ⟨envAt 7 [admin], .setRiskParams admin (some 12000) (some 11500) none none⟩,
    ⟨envAt 8 [bob], .liquidate bob alice none none 100⟩]

/-- Alice borrows half of what she could. -/
def solvent : List Tx :=
  [deploy, ⟨envAt 5 [alice], .depositCollateral alice none 1000⟩,
    ⟨envAt 6 [alice], .borrowAsset alice none 500⟩]

end Sample

theorem liquidation_fair_overdue :
    ¬ Healthy (Sample.envAt 8 [Sample.bob]) (ledger (Sample.overdue.take 4)) Sample.alice none := by
  have h : Meets step (CallFairlyPriced none) Storage.empty Sample.overdue := by
    refine ⟨fun _ _ _ _ _ _ ha => ?_, fun _ _ _ _ _ _ ha => ?_, fun _ _ _ _ _ _ ha => ?_,
      fun _ _ _ _ _ _ ha => ?_, fun _ _ _ _ _ _ ha => ?_, trivial⟩
    · cases ha
    · cases ha
    · cases ha
    · cases ha
    · cases ha
      refine .inr ⟨by decide, fun debtPrice t price u hdebt hprice => ?_⟩
      obtain ⟨rfl, -⟩ := pure_ok.mp hdebt
      obtain ⟨rfl, -⟩ := pure_ok.mp hprice
      decide
  have hrun : (step ⟨Sample.envAt 8 [Sample.bob], .liquidate Sample.bob Sample.alice none none 100⟩
      (ledger (Sample.overdue.take 4))).isSome := by decide
  obtain ⟨s', hs'⟩ := Option.isSome_iff_exists.mp hrun
  have htxs : Sample.overdue = Sample.overdue.take 4 ++
      ⟨Sample.envAt 8 [Sample.bob], .liquidate Sample.bob Sample.alice none none 100⟩ :: [] := rfl
  exact liquidation_fair h htxs hs' rfl

/-- With 1000 against a debt of 500, both native, alice is liquidated: judged in a token she never
touched, her collateral is worth nothing. -/
theorem healthy_liquidated :
    ¬ ∀ txs e liquidator borrower debtAsset collateralAsset debtAmount asset,
      Healthy e (ledger txs) borrower asset →
        step ⟨e, .liquidate liquidator borrower debtAsset collateralAsset debtAmount⟩
          (ledger txs) = none := by
  intro hall
  have hrun : (step ⟨Sample.envAt 7 [Sample.bob],
      .liquidate Sample.bob Sample.alice (some Sample.usdc) none 200⟩
      (ledger Sample.solvent)).isSome := by decide
  have hhealthy : Healthy (Sample.envAt 7 [Sample.bob]) (ledger Sample.solvent) Sample.alice
      none := by
    refine ⟨⟨1000, 500, 0, 6⟩, 0, 1000, by decide, by decide, ?_, by decide⟩
    have hsingle : hasMultiAssetCollateral (ledger Sample.solvent) Sample.alice = false := by
      decide
    rw [CollateralWorth, hsingle, if_neg Bool.false_ne_true]
    decide
  rw [hall _ _ _ _ _ _ _ _ hhealthy] at hrun
  cases hrun

end StellarLend.HelloWorld
