import StellarLend.HelloWorld.Health
import StellarLend.HelloWorld.Seizure

/-!
# HelloWorld/SafeWithdrawal — what a withdrawal leaves as cover for the debt

A borrow counts collateral asset by asset, at the oracle's prices.  The ratio check of a withdrawal
counts what is left of the aggregate balance, at the factor of the asset that goes out, and passes
where that overflows.  `withdrawal_healthy` says when this is enough: where the check's product fits
and what is left is worth at least what the check counts it at.
-/

namespace StellarLend.HelloWorld

open Foundations Call
open Lending (Address)

variable {e : Env} {s t s' : Storage} {user : Address} {asset : Option Address} {amount : ℤ}

/-- The user owes something. -/
def Owes (s : Storage) (user : Address) : Prop :=
  ∃ p, s.books.position user = some p ∧ 0 < p.debt + p.borrowInterest

/-- The records without an amount of an asset. -/
def withWithdrawal (user : Address) (asset : Option Address) (amount : ℤ) (s : Storage) : Storage :=
  onAsset (withAssetWithdrawal user · amount) asset
    (withCollateralBalance user (getCollateralBalance s user - amount) s)

/-- What the ratio check counts what is left at. -/
def checkedWorth (s : Storage) (user : Address) (asset : Option Address) (amount : ℤ) : ℤ :=
  ((getCollateralBalance s user - amount) * collateralFactorOf s asset).tdiv 10000

/-- The check can count what is left, and counts it at no more than it is worth. -/
structure CheckFaithful (e : Env) (s : Storage) (user : Address) (asset : Option Address)
    (amount : ℤ) : Prop where
  product : I128.Holds ((getCollateralBalance s user - amount) * collateralFactorOf s asset)
  scaled : I128.Holds (checkedWorth s user asset amount * 10000)
  worth : ∃ value, CollateralWorth e (withWithdrawal user asset amount s) user asset value ∧
    checkedWorth s user asset amount ≤ value

theorem withWithdrawal_assets (user : Address) (asset : Option Address) (amount : ℤ)
    (s : Storage) :
    AssetsOnly (withCollateralBalance user (getCollateralBalance s user - amount) s)
      (withWithdrawal user asset amount s) :=
  onAsset_assets (withAssetWithdrawal_assets user · amount) asset _

theorem withWithdrawal_congr (h : t.books = s.books) (user : Address) (asset : Option Address)
    (amount : ℤ) :
    (withWithdrawal user asset amount t).books = (withWithdrawal user asset amount s).books := by
  have hstart := withCollateralBalance_congr h user (getCollateralBalance s user - amount)
  unfold withWithdrawal
  rw [getCollateralBalance_congr h]
  exact onAsset_congr (withAssetWithdrawal_congr hstart user · amount) hstart asset

theorem CheckFaithful.gate (h : CheckFaithful e s user asset amount) (hgate : Gate s t) :
    CheckFaithful e t user asset amount := by
  obtain ⟨hproduct, hscaled, value, hworth, hle⟩ := h
  have hbalance := getCollateralBalance_congr hgate.books user
  have hfactor := hgate.sameCollateral.factor asset
  have hchecked : checkedWorth t user asset amount = checkedWorth s user asset amount := by
    rw [checkedWorth, hbalance, hfactor, checkedWorth]
  have hbooks := withWithdrawal_congr hgate.books user asset amount
  refine ⟨by rwa [hbalance, hfactor], by rwa [hchecked], value, ?_, by rwa [hchecked]⟩
  refine hworth.congr ⟨?_, ?_, by rw [hbooks], by rw [hbooks], by rw [hbooks]⟩
  · rw [(withWithdrawal_assets ..).oracle, (withWithdrawal_assets ..).oracle]
    exact hgate.oracle
  · rw [(withWithdrawal_assets ..).assetParams, (withWithdrawal_assets ..).assetParams]
    exact hgate.assetParams

theorem minCollateralRatioOr_pos (h : RiskValid s) : 0 < minCollateralRatioOr s := by
  cases hconfig : getRiskParams s with
  | none =>
    rw [minCollateralRatioOr, getMinCollateralRatio, hconfig]
    decide
  | some config =>
    have hmin : 10000 ≤ config.minCollateralRatio :=
      (validateRiskParams_ok.mp (h config hconfig)).ratio.1
    rw [minCollateralRatioOr, getMinCollateralRatio, hconfig]
    change 0 < config.minCollateralRatio
    omega

/-- **What the check lets through it covers**, as it counts. -/
theorem checkedWorth_covers {debt interest : ℤ} (hmin : 0 < minCollateralRatioOr s)
    (hdebt : 0 < debt + interest) (hholds : I128.Holds (debt + interest))
    (hproduct : I128.Holds ((getCollateralBalance s user - amount) * collateralFactorOf s asset))
    (hscaled : I128.Holds (checkedWorth s user asset amount * 10000))
    (h : ∀ ratio, calculateCollateralRatio (getCollateralBalance s user - amount) debt interest
      (collateralFactorOf s asset) = some ratio → minCollateralRatioOr s ≤ ratio) :
    minCollateralRatioOr s * (debt + interest) ≤ checkedWorth s user asset amount * 10000 := by
  refine (le_tdiv_iff hmin hdebt).mp (h _ ?_)
  simp only [calculateCollateralRatio, Option.bind_eq_some_iff, I128.checkedAdd_eq_some,
    I128.checkedMul_eq_some, and_assoc, exists_and_left, exists_eq_left', if_neg hdebt.ne',
    I128.checkedDiv_eq_some]
  exact ⟨hholds, hproduct, by decide, I128.holds_tdiv hproduct (by decide), hscaled, hdebt.ne',
    I128.holds_tdiv hscaled hdebt, rfl⟩

/-- **A withdrawal whose check is faithful leaves a position with debt healthy.** -/
theorem Withdrawn.healthy (h : Withdrawn e s user asset amount s') (hs : Settled s)
    (hs' : Settled s') (howes : Owes s user) (hcheck : CheckFaithful e s user asset amount) :
    Healthy e s' user asset := by
  obtain ⟨p, hp, hdebt⟩ := howes
  obtain ⟨p', hp', hvalidated⟩ := h.validated
  obtain rfl : p = p' := Option.some.inj (hp.symm.trans hp')
  obtain ⟨hholds, hratio⟩ := hvalidated fun hfree => by
    rw [hfree.1, hfree.2] at hdebt
    omega
  obtain ⟨hproduct, hscaled, value, hworth, hle⟩ := hcheck
  have hcovers := checkedWorth_covers (minCollateralRatioOr_pos hs.risk) hdebt hholds hproduct
    hscaled hratio
  have hstored := congrFun (congrArg Books.position h.books) user
  have hmin : minCollateralRatioOr s' = minCollateralRatioOr s := by
    rw [minCollateralRatioOr, getMinCollateralRatio, getRiskParams, h.frame.risk]
    rfl
  refine ⟨_, p.borrowInterest, value, hstored.trans (Function.update_self ..), ?_, ?_, ?_⟩
  · rw [hs'.interestNow, hp]
    rfl
  · refine hworth.congr ⟨?_, ?_, by rw [h.books]; rfl, by rw [h.books]; rfl, by rw [h.books]; rfl⟩
    · rw [h.oracle, (withWithdrawal_assets ..).oracle]
      rfl
    · rw [h.frame.assetParams, (withWithdrawal_assets ..).assetParams]
      rfl
  · rw [hmin, hp]
    exact hcovers.trans (mul_le_mul_of_nonneg_right hle (by decide))

/-! ## Runs -/

/-- The ratio check of a call is faithful, if it is a withdrawal of somebody with debt. -/
def CallCheckFaithful (s : Storage) (tx : Tx) : Prop :=
  ∀ user asset amount, tx.op.act s = some (.withdraw user asset amount) → Owes s user →
    CheckFaithful tx.env s user asset amount

/-- **In a run whose ratio checks are faithful every withdrawal of somebody with debt leaves them
healthy**, whatever the collateral is. -/
theorem withdrawal_healthy {txs : List Tx} (h : Meets step CallCheckFaithful Storage.empty txs)
    {ys zs : List Tx} {tx : Tx} (htxs : txs = ys ++ tx :: zs)
    (hstep : step tx (ledger ys) = some s')
    (hact : tx.op.act (ledger ys) = some (.withdraw user asset amount))
    (howes : Owes (ledger ys) user) : Healthy tx.env s' user asset := by
  have hs := Reachable.settled ⟨ys, rfl⟩
  have hcheck := (meets_iff.mp h) ys tx zs s' htxs hstep _ _ _ hact howes
  obtain ⟨t, hgate, ha⟩ := step_act hstep hact
  have heffect := Act.effect ha
  refine heffect.healthy (hs.gate hgate) (hs.step hstep) ?_ (hcheck.gate hgate)
  rw [Owes, hgate.books]
  exact howes

namespace Sample

/-- Alice owes 500 against 1000, and takes 400 out. -/
def withdrawnNative : List Tx :=
  [deploy, ⟨envAt 5 [alice], .depositCollateral alice none 1000⟩,
    ⟨envAt 6 [alice], .borrowAsset alice none 500⟩,
    ⟨envAt 7 [alice], .withdrawCollateral alice none 400⟩]

/-- Of two tokens one counts half.  Alice borrows against both. -/
def twoFactors : List Tx :=
  [deploy, ⟨envAt 2 [admin], .updateAssetConfig usdc ⟨true, 5000, 0, 0⟩⟩,
    ⟨envAt 5 [alice], .depositCollateral alice (some usdc) 1000⟩,
    ⟨envAt 6 [alice], .depositCollateral alice (some wbtc) 1000⟩,
    ⟨envAt 7 [alice], .borrowAsset alice none 900⟩]

end Sample

theorem withdrawal_healthy_native :
    ∃ s', step ⟨Sample.envAt 7 [Sample.alice], .withdrawCollateral Sample.alice none 400⟩
        (ledger (Sample.withdrawnNative.take 3)) = some s' ∧
      Healthy (Sample.envAt 7 [Sample.alice]) s' Sample.alice none := by
  have hposition : (ledger (Sample.withdrawnNative.take 3)).books.position Sample.alice =
      some ⟨1000, 500, 0, 6⟩ := by decide
  have hcheck : CheckFaithful (Sample.envAt 7 [Sample.alice])
      (ledger (Sample.withdrawnNative.take 3)) Sample.alice none 400 := by
    have hsingle : hasMultiAssetCollateral (withWithdrawal Sample.alice none 400
        (ledger (Sample.withdrawnNative.take 3))) Sample.alice = false := by decide
    refine ⟨by decide, by decide, 600, ?_, by decide⟩
    rw [CollateralWorth, hsingle, if_neg Bool.false_ne_true]
    decide
  have h : Meets step CallCheckFaithful Storage.empty Sample.withdrawnNative := by
    refine ⟨fun _ _ _ _ ha => ?_, fun _ _ _ _ ha => ?_, fun _ _ _ _ ha => ?_,
      fun _ _ _ _ ha _ => ?_, trivial⟩
    · cases ha
    · cases ha
    · cases ha
    · cases ha
      exact hcheck
  have hrun : (step ⟨Sample.envAt 7 [Sample.alice], .withdrawCollateral Sample.alice none 400⟩
      (ledger (Sample.withdrawnNative.take 3))).isSome := by decide
  obtain ⟨s', hs'⟩ := Option.isSome_iff_exists.mp hrun
  have htxs : Sample.withdrawnNative = Sample.withdrawnNative.take 3 ++
      ⟨Sample.envAt 7 [Sample.alice], .withdrawCollateral Sample.alice none 400⟩ :: [] := rfl
  exact ⟨s', hs', withdrawal_healthy h htxs hs' rfl ⟨_, hposition, by decide⟩⟩

/-- The token that counts in full goes out: the check counts the other one in full as well, and what
is left is worth 500 against a debt of 900. -/
theorem withdrawal_unhealthy :
    ¬ ∀ txs e user asset amount s', Owes (ledger txs) user →
      step ⟨e, .withdrawCollateral user asset amount⟩ (ledger txs) = some s' →
        Healthy e s' user asset := by
  intro hall
  have hposition : (ledger Sample.twoFactors).books.position Sample.alice =
      some ⟨2000, 900, 0, 7⟩ := by decide +kernel
  have hrun : (step ⟨Sample.envAt 8 [Sample.alice],
      .withdrawCollateral Sample.alice (some Sample.wbtc) 1000⟩ (ledger Sample.twoFactors)).map
        (fun s' => (s'.books.position Sample.alice, minCollateralRatioOr s',
          hasMultiAssetCollateral s' Sample.alice,
          (calculateTotalCollateralValue Sample.alice (Sample.envAt 8 [Sample.alice]) s').value)) =
      some (some ⟨1000, 900, 0, 8⟩, 11000, true, some 500) := by decide +kernel
  obtain ⟨s', hs', hafter⟩ := Option.map_eq_some_iff.mp hrun
  obtain ⟨p, interest, value, hp, hinterest, hworth, hcovers⟩ :=
    hall _ _ _ _ _ _ ⟨_, hposition, by decide⟩ hs'
  simp only [Prod.mk.injEq] at hafter
  obtain ⟨hp', hmin, hmulti, hvalue⟩ := hafter
  have hsettled : Settled s' := (Reachable.settled ⟨Sample.twoFactors, rfl⟩).step hs'
  rw [hp', Option.some.injEq] at hp
  rw [hsettled.interestNow, ← hp, Option.some.injEq] at hinterest
  rw [CollateralWorth, if_pos hmulti] at hworth
  obtain ⟨t, ht⟩ := hworth
  obtain rfl : value = 500 := by rw [ht] at hvalue; exact Option.some.inj hvalue
  rw [hmin, ← hp, ← hinterest] at hcovers
  exact absurd hcovers (by decide)

end StellarLend.HelloWorld
