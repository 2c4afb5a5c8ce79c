import StellarLend.Foundations.Rounding
import StellarLend.Lending.BadDebt

/-!
# Lending/Liquidation — the liquidation entry point against the view of what is liquidatable

The health factor of two values is the floored share of the weighted collateral in the debt, and `0`
where that is no 128-bit number: `health_laws_iff` says that this one exception is all that keeps it
from being monotone.

The view reports the close factor's share of a debt whose health factor is known and below one.  The
entry point only asks that the health factor, which is `0` where it is not known, be below one, and
takes any amount.  `liquidation_agrees_iff` says that the two agree only where no liquidation passes
at all.
-/

namespace StellarLend.Lending

open Foundations Call LendingContract

variable {e : Env} {s s' : Storage} {borrower : Address}

/-! ## The health factor of two values -/

/-- A collateral value at the liquidation threshold. -/
def atThreshold (s : Storage) (value : ℤ) : ℤ := value * getLiquidationThresholdBps s / 10000

/-- The threshold is one that the setter accepts. -/
def ThresholdInRange (s : Storage) : Prop :=
  0 < getLiquidationThresholdBps s ∧ getLiquidationThresholdBps s ≤ 10000

theorem ThresholdInRange.nonneg (h : ThresholdInRange s) {cv : ℤ} (hcv : 0 ≤ cv) :
    0 ≤ atThreshold s cv :=
  Int.ediv_nonneg (mul_nonneg hcv h.1.le) (by decide)

theorem ThresholdInRange.le_self (h : ThresholdInRange s) {cv : ℤ} (hcv : 0 ≤ cv) :
    atThreshold s cv ≤ cv :=
  Int.ediv_le_of_le_mul (by decide) (mul_le_mul_of_nonneg_left h.2 hcv)

theorem ThresholdInRange.mono (h : ThresholdInRange s) {cv cv' : ℤ} (hle : cv ≤ cv') :
    atThreshold s cv ≤ atThreshold s cv' :=
  Int.ediv_le_ediv (by decide) (mul_le_mul_of_nonneg_right hle h.1.le)

/-- The share of the weighted collateral in the debt, ten thousand to one. -/
def healthShare (s : Storage) (cv dv : ℤ) : ℤ := atThreshold s cv * HEALTH_FACTOR_SCALE / dv

/-- **The health factor is the share, or `0` where that is no 128-bit number.** -/
theorem computeHealthFactor_eq {hasDebt : Bool} {cv dv : ℤ} (hset : getOracle s ≠ none)
    (ht : ThresholdInRange s) (hcv : 0 ≤ cv ∧ cv ≤ I128.MAX) (hdv : 0 < dv) :
    computeHealthFactor s cv dv hasDebt =
      some (if healthShare s cv dv ≤ I128.MAX then healthShare s cv dv else 0) := by
  obtain ⟨oracle, horacle⟩ := Option.ne_none_iff_exists'.mp hset
  have hweight := mul_nonneg hcv.1 ht.1.le
  have hbound : cv * getLiquidationThresholdBps s ≤ I128.MAX * 10000 :=
    mul_le_mul hcv.2 ht.2 ht.1.le (by decide)
  have hwide : I256.Holds (cv * getLiquidationThresholdBps s) :=
    ⟨le_trans (by decide) hweight, hbound.trans (by decide)⟩
  have hat : atThreshold s cv ≤ I128.MAX := (ht.le_self hcv.1).trans hcv.2
  have hscaled : 0 ≤ atThreshold s cv * HEALTH_FACTOR_SCALE :=
    mul_nonneg (ht.nonneg hcv.1) (by decide)
  have hbound' : atThreshold s cv * HEALTH_FACTOR_SCALE ≤ I128.MAX * HEALTH_FACTOR_SCALE :=
    mul_le_mul_of_nonneg_right hat (by decide)
  have hwide' : I256.Holds (atThreshold s cv * HEALTH_FACTOR_SCALE) :=
    ⟨le_trans (by decide) hscaled, hbound'.trans (by decide)⟩
  have hdivided : I256.div (cv * getLiquidationThresholdBps s) 10000 =
      some (atThreshold s cv) :=
    I256.div_eq_some.mpr ⟨by decide, I256.holds_tdiv hwide (by decide),
      Int.tdiv_eq_ediv_of_nonneg hweight⟩
  rw [computeHealthFactor, if_neg (not_le.mpr hdv), horacle]
  dsimp only
  rw [I256.mul_eq_some.mpr ⟨hwide, rfl⟩, Option.bind_some, hdivided, Option.bind_some]
  exact (scaled_eq_some hscaled hdv).mpr ⟨hwide', rfl⟩

/-- What a health factor promises of the values it was computed of: it is one or more exactly where
the weighted collateral covers the debt, and no greater with less collateral or with more debt. -/
structure HealthLaws (s : Storage) (hasDebt : Bool) (cv dv health : ℤ) : Prop where
  covered : HEALTH_FACTOR_SCALE ≤ health ↔ dv ≤ atThreshold s cv
  collateral : ∀ cv' health', 0 ≤ cv' → cv' ≤ cv →
    computeHealthFactor s cv' dv hasDebt = some health' → health' ≤ health
  debt : ∀ dv' health', dv ≤ dv' → dv' ≤ I128.MAX →
    computeHealthFactor s cv dv' hasDebt = some health' → health' ≤ health

/-- A share is at least ten thousand exactly where the debt is covered. -/
theorem scale_le_healthShare {cv dv : ℤ} (hdv : 0 < dv) :
    HEALTH_FACTOR_SCALE ≤ healthShare s cv dv ↔ dv ≤ atThreshold s cv := by
  rw [healthShare, Int.le_ediv_iff_mul_le hdv, mul_comm]
  exact Int.mul_le_mul_right (by decide)

/-- **The laws hold of two values exactly where the share is a 128-bit number.**  Where it is not,
the debt is covered and the factor is `0`. -/
theorem health_laws_iff {hasDebt : Bool} {cv dv : ℤ} (hset : getOracle s ≠ none)
    (ht : ThresholdInRange s) (hcv : 0 ≤ cv ∧ cv ≤ I128.MAX) (hdv : 0 < dv) :
    (∃ health, computeHealthFactor s cv dv hasDebt = some health ∧
      HealthLaws s hasDebt cv dv health) ↔
      atThreshold s cv * HEALTH_FACTOR_SCALE < (I128.MAX + 1) * dv := by
  have heq : computeHealthFactor s cv dv hasDebt = some _ :=
    computeHealthFactor_eq hset ht hcv hdv
  have hfits : healthShare s cv dv ≤ I128.MAX ↔
      atThreshold s cv * HEALTH_FACTOR_SCALE < (I128.MAX + 1) * dv := by
    rw [← Int.lt_add_one_iff, healthShare, Int.ediv_lt_iff_lt_mul hdv]
  rw [← hfits]
  constructor
  · rintro ⟨_, hhealth, hlaws⟩
    obtain rfl := Option.some.inj (heq.symm.trans hhealth)
    by_contra hover
    have hcovered := hlaws.covered
    rw [if_neg hover, ← scale_le_healthShare hdv] at hcovered
    exact absurd (hcovered.mpr (le_trans (by decide) (not_le.mp hover).le)) (by decide)
  · intro hle
    rw [if_pos hle] at heq
    refine ⟨_, heq, scale_le_healthShare hdv, ?_, ?_⟩
    · intro cv' health' hcv' hless hhealth'
      rw [computeHealthFactor_eq hset ht ⟨hcv', hless.trans hcv.2⟩ hdv] at hhealth'
      have hshare : healthShare s cv' dv ≤ healthShare s cv dv :=
        Int.ediv_le_ediv hdv (mul_le_mul_of_nonneg_right (ht.mono hless) (by decide))
      rw [if_pos (hshare.trans hle)] at hhealth'
      exact (Option.some.inj hhealth').symm.trans_le hshare
    · intro dv' health' hmore _ hhealth'
      rw [computeHealthFactor_eq hset ht hcv (hdv.trans_le hmore)] at hhealth'
      have hshare : healthShare s cv dv' ≤ healthShare s cv dv :=
        ediv_anti (mul_nonneg (ht.nonneg hcv.1) (by decide)) hdv hmore
      rw [if_pos (hshare.trans hle)] at hhealth'
      exact (Option.some.inj hhealth').symm.trans_le hshare

namespace Sample

/-- The oracle is set, and the threshold is the default. -/
def withOracle : List Tx := [deploy, ⟨envAt 1 [admin], .setOracle admin oracle⟩]

theorem withOracle_set : getOracle (ledger withOracle) ≠ none ∧
    getLiquidationThresholdBps (ledger withOracle) = 8000 := by
  decide

theorem withOracle_inRange : ThresholdInRange (ledger withOracle) := by
  rw [ThresholdInRange, withOracle_set.2]
  decide

end Sample

/-- Collateral of 1200 at 80% weighs 960, short of a debt of 1000. -/
theorem health_laws_short : ∃ health,
    computeHealthFactor (ledger Sample.withOracle) 1200 1000 true = some health ∧
      HealthLaws (ledger Sample.withOracle) true 1200 1000 health :=
  (health_laws_iff Sample.withOracle_set.1 Sample.withOracle_inRange (by decide)
    (by decide)).mpr (by
      rw [atThreshold, Sample.withOracle_set.2]
      decide)

/-- A debt of one unit against the largest collateral value has the health factor `0`. -/
theorem not_health_laws_largest : ¬ ∀ s hasDebt cv dv, getOracle s ≠ none → ThresholdInRange s →
    0 ≤ cv ∧ cv ≤ I128.MAX → 0 < dv ∧ dv ≤ I128.MAX →
      ∃ health, computeHealthFactor s cv dv hasDebt = some health ∧
        HealthLaws s hasDebt cv dv health := by
  intro hall
  obtain ⟨health, hhealth, hlaws⟩ := hall (ledger Sample.withOracle) true I128.MAX 1
    Sample.withOracle_set.1 Sample.withOracle_inRange (by decide) (by decide)
  have hzero : computeHealthFactor (ledger Sample.withOracle) I128.MAX 1 true = some 0 := by
    decide
  obtain rfl := Option.some.inj (hzero.symm.trans hhealth)
  have hcovered : (1 : ℤ) ≤ atThreshold (ledger Sample.withOracle) I128.MAX := by
    rw [atThreshold, Sample.withOracle_set.2]
    decide
  exact absurd (hlaws.covered.mpr hcovered) (by decide)

/-! ## The close factor -/

/-- No operation sets the close factor. -/
theorem Reachable.closeFactor (h : Reachable s) : s.closeFactorBps = none := by
  refine h.invariant (I := fun s => s.closeFactorBps = none) rfl fun s tx s' hstep hs => ?_
  refine step_invariant (C := fun _ _ _ => True) (I := fun s => s.closeFactorBps = none) ?_ ?_ hstep
    (meets_of_forall fun _ _ _ => trivial) hs
  · intro a s₁ s₂ ha _ hs
    have hf := actStep_frame ha
    rw [Frame] at hf
    rw [hf]
    exact hs
  · exact fun _ _ hset hs => hset.closeFactor.trans hs

/-! ## Bounds of the views -/

/-- A scaled amount fits 128 bits. -/
theorem scaled_le_max {amount numerator denominator v : ℤ}
    (h : scaled amount numerator denominator = some v) : v ≤ I128.MAX := by
  obtain ⟨x, -, rfl⟩ := Option.map_eq_some_iff.mp h
  cases hx : I256.toI128 x with
  | none => exact (by decide : (0 : ℤ) ≤ I128.MAX)
  | some y =>
    obtain ⟨hholds, rfl⟩ := I256.toI128_eq_some.mp hx
    exact hholds.2

theorem valueOf_le_max {amount v : ℤ} {asset : Address} (h : valueOf e s amount asset = some v) :
    v ≤ I128.MAX := by
  have h0 : (0 : ℤ) ≤ I128.MAX := by decide
  unfold valueOf at h
  split at h
  · cases h
    exact h0
  · split at h
    · cases h
      exact h0
    · obtain ⟨price, -, h⟩ := Option.bind_eq_some_iff.mp h
      split at h
      · cases h
        exact h0
      · exact scaled_le_max h

/-- Half of a debt is less than the largest amount. -/
theorem scaled_half_lt_max {amount v : ℤ} (hpos : 0 < amount) (hmax : amount ≤ I128.MAX)
    (h : scaled amount 5000 10000 = some v) : v < I128.MAX := by
  obtain ⟨x, hx, rfl⟩ := Option.map_eq_some_iff.mp h
  obtain ⟨y, hy, hx⟩ := Option.bind_eq_some_iff.mp hx
  obtain ⟨-, rfl⟩ := I256.mul_eq_some.mp hy
  obtain ⟨-, -, rfl⟩ := I256.div_eq_some.mp hx
  rw [Int.tdiv_eq_ediv_of_nonneg (by omega)]
  cases hnarrow : I256.toI128 (amount * 5000 / 10000) with
  | none => exact hpos.trans_le hmax
  | some z =>
    obtain ⟨-, rfl⟩ := I256.toI128_eq_some.mp hnarrow
    rw [Option.getD_some]
    omega

theorem debtBalance_le_max (p : DebtPosition) : debtBalance p ≤ I128.MAX := by
  unfold debtBalance
  cases hadd : I128.checkedAdd p.borrowedAmount p.interestAccrued with
  | none => exact (by decide : (0 : ℤ) ≤ I128.MAX)
  | some x =>
    obtain ⟨hholds, rfl⟩ := I128.checkedAdd_eq_some.mp hadd
    exact hholds.2

/-- **What the view reports is less than the largest amount**, at the default close factor. -/
theorem maxLiquidatable_lt_max (hclose : s.closeFactorBps = none) {m : ℤ}
    (h : maxLiquidatable e s borrower = some m) : m < I128.MAX := by
  have h0 : (0 : ℤ) < I128.MAX := by decide
  have hfactor : getCloseFactorBps s = 5000 := by rw [getCloseFactorBps, hclose]; rfl
  obtain ⟨position, -, h⟩ := Option.bind_eq_some_iff.mp h
  split at h
  · cases h
    exact h0
  · rename_i hdebt
    obtain ⟨cv, -, h⟩ := Option.bind_eq_some_iff.mp h
    obtain ⟨dv, -, h⟩ := Option.bind_eq_some_iff.mp h
    obtain ⟨health, -, h⟩ := Option.bind_eq_some_iff.mp h
    split at h
    · cases h
      exact h0
    · rw [hfactor] at h
      exact scaled_half_lt_max (not_le.mp hdebt) (debtBalance_le_max position) h

/-! ## Liquidations that pass -/

/-- Some liquidation of the borrower passes every check. -/
structure CanLiquidate (e : Env) (s : Storage) (borrower : Address) : Prop where
  signed : e.auths ≠ []
  unpaused : isPaused s .liquidation = false
  unhealthy : ∃ health, reportedHealth e s borrower = some health ∧ health < 10000

/-- A health factor is computed from a debt value. -/
theorem debtValue_of_health {health : ℤ} (h : reportedHealth e s borrower = some health) :
    ∃ value, reportedDebtValue e s borrower = some value ∧ value ≤ I128.MAX := by
  obtain ⟨position, hposition, h⟩ := Option.bind_eq_some_iff.mp h
  obtain ⟨cv, -, h⟩ := Option.bind_eq_some_iff.mp h
  obtain ⟨dv, hdv, -⟩ := Option.bind_eq_some_iff.mp h
  exact ⟨dv, Option.bind_eq_some_iff.mpr ⟨position, hposition, hdv⟩, valueOf_le_max hdv⟩

/-- **Where any liquidation passes, one of any amount that covers the debt passes.** -/
theorem liquidate_succeeds {liquidator : Address} {repayAmount value health : ℤ}
    (hsigned : liquidator ∈ e.auths) (hunpaused : isPaused s .liquidation = false)
    (hvalue : reportedDebtValue e s borrower = some value)
    (hhealth : reportedHealth e s borrower = some health) (hless : health < 10000)
    (hcovers : value ≤ repayAmount) (debtAsset casset : Address) :
    ∃ s', step ⟨e, .liquidate liquidator borrower debtAsset casset repayAmount⟩ s = some s' := by
  obtain ⟨t, ht, hdv⟩ := getDebtValue_eq (ε := BorrowError) borrower e s
  obtain ⟨u, -, hhf⟩ := getHealthFactor_eq (ε := BorrowError) borrower e t
  rw [hvalue] at hdv
  rw [ht.reportedHealth, hhealth] at hhf
  refine ⟨u, commit_eq_some.mpr ⟨(), ?_⟩⟩
  rw [liquidate, bind_of_ok ((requireAuth_ok (u := ())).mpr ⟨hsigned, rfl⟩),
    bind_of_ok (view_ok.mpr ⟨rfl, rfl⟩),
    bind_of_ok ((failIf_ok (u := ())).mpr ⟨by simp [hunpaused], rfl⟩), bind_of_ok hdv,
    bind_of_ok hhf, bind_of_ok ((failIf_ok (u := ())).mpr ⟨not_le.mpr hless, rfl⟩)]
  exact onlyIf_ok.mpr ⟨fun hlt => absurd hcovers (not_le.mpr hlt), fun _ => rfl⟩

/-- The view reports something only of a position that can be liquidated. -/
theorem unhealthy_of_maxLiquidatable {m : ℤ} (h : maxLiquidatable e s borrower = some m)
    (hpos : 0 < m) : ∃ health, reportedHealth e s borrower = some health ∧ health < 10000 := by
  obtain ⟨position, hposition, h⟩ := Option.bind_eq_some_iff.mp h
  split at h
  · cases h
    exact absurd hpos (lt_irrefl 0)
  · rename_i hdebt
    obtain ⟨cv, hcv, h⟩ := Option.bind_eq_some_iff.mp h
    obtain ⟨dv, hdv, h⟩ := Option.bind_eq_some_iff.mp h
    obtain ⟨health, hhealth, h⟩ := Option.bind_eq_some_iff.mp h
    split at h
    · cases h
      exact absurd hpos (lt_irrefl 0)
    · rename_i hknown
      refine ⟨health, ?_, not_le.mp (not_or.mp hknown).2⟩
      simp only [reportedHealth, hposition, hcv, hdv, Option.bind_some, not_le.mp hdebt,
        decide_true, hhealth]

/-! ## Agreement -/

/-- A liquidation passes only for amounts up to what the view reports, and one of exactly that
amount passes unless liquidation is paused. -/
structure LiquidationAgrees (e : Env) (s : Storage) (borrower : Address) : Prop where
  within : ∀ liquidator debtAsset casset repayAmount s', I128.Holds repayAmount →
    step ⟨e, .liquidate liquidator borrower debtAsset casset repayAmount⟩ s = some s' →
      ∃ m t, (Views.getMaxLiquidatableAmount borrower : Invocation BorrowError ℤ) e s = .ok m t ∧
        0 < m ∧ 0 < repayAmount ∧ repayAmount ≤ m
  maximal : ∀ m t, (Views.getMaxLiquidatableAmount borrower : Invocation BorrowError ℤ) e s =
    .ok m t → 0 < m → isPaused s .liquidation = false → ∀ liquidator ∈ e.auths, ∀ debtAsset casset,
      ∃ s', step ⟨e, .liquidate liquidator borrower debtAsset casset m⟩ s = some s'

/-- **The entry point agrees with the view exactly where no liquidation of the borrower passes.** -/
theorem liquidation_agrees_iff (h : Reachable s) (e : Env) (borrower : Address) :
    LiquidationAgrees e s borrower ↔ ¬ CanLiquidate e s borrower := by
  constructor
  · rintro ⟨hwithin, -⟩ ⟨hsigned, hunpaused, health, hhealth, hless⟩
    obtain ⟨liquidator, hliquidator⟩ := List.exists_mem_of_ne_nil _ hsigned
    obtain ⟨value, hvalue, hmax⟩ := debtValue_of_health hhealth
    obtain ⟨s', hstep⟩ := liquidate_succeeds hliquidator hunpaused hvalue hhealth hless hmax
      borrower borrower
    obtain ⟨m, t, hview, -, -, hle⟩ := hwithin _ _ _ _ s' (by decide) hstep
    have hm := (reading_refreshes (getMaxLiquidatableAmount_eq borrower e s) hview).1
    have hlt := maxLiquidatable_lt_max h.closeFactor hm
    omega
  · intro hcannot
    refine ⟨fun liquidator debtAsset casset repayAmount s' _ hstep => ?_,
      fun m t hview hpos hunpaused liquidator hliquidator _ _ => ?_⟩
    · obtain ⟨r, hr⟩ := commit_eq_some.mp hstep
      have hl := liquidate_ok hr
      obtain ⟨_, health, _, -, hhealth, hless, -⟩ := hl.store
      exact absurd ⟨List.ne_nil_of_mem hl.authorized, hl.unpaused, health, hhealth, hless⟩ hcannot
    · have hm := (reading_refreshes (getMaxLiquidatableAmount_eq borrower e s) hview).1
      exact absurd ⟨List.ne_nil_of_mem hliquidator, hunpaused,
        unhealthy_of_maxLiquidatable hm hpos⟩ hcannot

/-- Nobody can be liquidated who owes nothing. -/
theorem liquidation_agrees_deploy :
    LiquidationAgrees (Sample.envAt 5 [Sample.bob]) (ledger [Sample.deploy]) Sample.alice := by
  refine (liquidation_agrees_iff ⟨[Sample.deploy], rfl⟩ _ _).mpr ?_
  rintro ⟨-, -, health, hhealth, hless⟩
  have hnone : reportedHealth (Sample.envAt 5 [Sample.bob]) (ledger [Sample.deploy]) Sample.alice =
      some HEALTH_FACTOR_NO_DEBT := by decide
  rw [hnone] at hhealth
  cases hhealth
  exact absurd hless (by decide)

/-- Of an unhealthy debt of 10000, 5000 can be liquidated by the view, and all of it in fact. -/
theorem liquidation_disagrees :
    ¬ LiquidationAgrees (Sample.pricedAt 5 [Sample.bob]) (ledger (Sample.liquidatedOnce.take 3))
      Sample.alice := by
  rintro ⟨hwithin, -⟩
  have hpasses : (step ⟨Sample.pricedAt 5 [Sample.bob],
      .liquidate Sample.bob Sample.alice Sample.usdc Sample.xlm 10000⟩
      (ledger (Sample.liquidatedOnce.take 3))).isSome = true := by decide
  have hmax : maxLiquidatable (Sample.pricedAt 5 [Sample.bob])
      (ledger (Sample.liquidatedOnce.take 3)) Sample.alice = some 5000 := by decide
  obtain ⟨s', hstep⟩ := Option.isSome_iff_exists.mp hpasses
  obtain ⟨m, t, hview, -, -, hle⟩ := hwithin _ _ _ _ s' (by decide) hstep
  have hm := (reading_refreshes (getMaxLiquidatableAmount_eq _ _ _) hview).1
  rw [hmax] at hm
  cases hm
  omega

end StellarLend.Lending
