import StellarLend.Foundations.Rounding
import StellarLend.HelloWorld.Quiet
import StellarLend.Lending.Repayable

/-!
# HelloWorld/RateCurves — both rate curves rise, and stay between floor and ceiling

                    utilization                      the rate at it
    lending         total debt / debt ceiling        two lines, clamped
    hello-world     total borrows / total deposits   two lines, adjusted, clamped

The setters check each parameter on its own, and that is enough: the lines rise, the kink lies
inside, and the floor is at most the ceiling (`Valid`).  So on the states that share their
parameters the rate is a monotone function of the utilization, whatever the parameters are.
-/

namespace StellarLend.HelloWorld

open Foundations Call
open Lending (Address)

/-! ## The laws of a rate curve -/

/-- What a rate curve promises on the states that share its parameters.  `Fuller` says that in the
second state more is lent out of the same. -/
structure RateCurve {S ε : Type} (floor ceiling : ℤ) (On : S → Prop) (Fuller : S → S → Prop)
    (utilization borrow supply : S → Except ε ℤ) : Prop where
  ordered : floor ≤ ceiling
  limits : ∀ s r, On s → borrow s = .ok r → floor ≤ r ∧ r ≤ ceiling
  rises : ∀ s s' u u' r r', On s → On s' → utilization s = .ok u → utilization s' = .ok u' →
    u ≤ u' → borrow s = .ok r → borrow s' = .ok r' → r ≤ r'
  fuller : ∀ s s' r r', On s → On s' → Fuller s s' → borrow s = .ok r → borrow s' = .ok r' → r ≤ r'
  supply : ∀ s r q, On s → borrow s = .ok r → supply s = .ok q → floor ≤ q ∧ q ≤ r

section Curve

variable {S ε : Type} {floor ceiling spread : ℤ} {On : S → Prop} {Fuller : S → S → Prop}
  {utilization borrow supply : S → Except ε ℤ} {curve : ℤ → ℤ}

/-- **A rate read off a monotone curve and clamped keeps the laws.** -/
theorem RateCurve.of_curve (hordered : floor ≤ ceiling) (hspread : 0 ≤ spread)
    (hcurve : Monotone curve)
    (hborrow : ∀ s r, On s → borrow s = .ok r →
      ∃ u, utilization s = .ok u ∧ r = min (max (curve u) floor) ceiling)
    (hsupply : ∀ s r q, On s → borrow s = .ok r → supply s = .ok q → q = max (r - spread) floor)
    (hfuller : ∀ s s' u u', Fuller s s' → utilization s = .ok u → utilization s' = .ok u' →
      u ≤ u') : RateCurve floor ceiling On Fuller utilization borrow supply := by
  have hlimits : ∀ s r, On s → borrow s = .ok r → floor ≤ r ∧ r ≤ ceiling := by
    intro s r hs hr
    obtain ⟨u, -, rfl⟩ := hborrow s r hs hr
    exact ⟨le_min (le_max_right _ _) hordered, min_le_right _ _⟩
  have hrises : ∀ s s' u u' r r', On s → On s' → utilization s = .ok u → utilization s' = .ok u' →
      u ≤ u' → borrow s = .ok r → borrow s' = .ok r' → r ≤ r' := by
    intro s s' u u' r r' hs hs' hu hu' hle hr hr'
    obtain ⟨v, hv, rfl⟩ := hborrow s r hs hr
    obtain ⟨v', hv', rfl⟩ := hborrow s' r' hs' hr'
    obtain rfl := Except.ok.inj (hv.symm.trans hu)
    obtain rfl := Except.ok.inj (hv'.symm.trans hu')
    exact min_le_min_right ceiling (max_le_max_right floor (hcurve hle))
  refine ⟨hordered, hlimits, hrises, ?_, ?_⟩
  · intro s s' r r' hs hs' hmore hr hr'
    obtain ⟨u, hu, -⟩ := hborrow s r hs hr
    obtain ⟨u', hu', -⟩ := hborrow s' r' hs' hr'
    exact hrises s s' u u' r r' hs hs' hu hu' (hfuller s s' u u' hmore hu hu') hr hr'
  · intro s r q hs hr hq
    obtain rfl := hsupply s r q hs hr hq
    have hfloor := (hlimits s r hs hr).1
    exact ⟨le_max_right _ _, max_le (sub_le_self r hspread) hfloor⟩

end Curve

/-! ## Two lines, checked -/

/-- The two lines as both contracts compute them, each step checked. -/
def checkedLines {ε : Type} (overflow divisionByZero : ε) (base slope jump kink u : ℤ) :
    Except ε ℤ :=
  if u ≤ kink then
    if 0 < kink then do
      let scaled ← orErr (I128.checkedMul u slope) overflow
      let increase ← orErr (I128.checkedDiv scaled kink) divisionByZero
      orErr (I128.checkedAdd base increase) overflow
    else .ok base
  else do
    let rateAtKink ← orErr (I128.checkedAdd base slope) overflow
    let above ← orErr (I128.checkedSub u kink) overflow
    let maxAbove ← orErr (I128.checkedSub BASIS_POINTS_SCALE kink) overflow
    if 0 < maxAbove then do
      let scaled ← orErr (I128.checkedMul above jump) overflow
      let additional ← orErr (I128.checkedDiv scaled maxAbove) divisionByZero
      orErr (I128.checkedAdd rateAtKink additional) overflow
    else .ok rateAtKink

/-- Where no step overflows, the rate is on the curve. -/
theorem checkedLines_ok {ε : Type} {overflow divisionByZero : ε} {base slope jump kink u r : ℤ}
    (hk : 0 < kink) (hf : kink < BASIS_POINTS_SCALE)
    (h : checkedLines overflow divisionByZero base slope jump kink u = .ok r) :
    r = kinked base slope jump kink BASIS_POINTS_SCALE u := by
  rw [checkedLines, if_pos hk] at h
  rw [kinked]
  split at h <;> rename_i hu
  · rw [if_pos hu]
    simp only [except_bind_ok, orErr_ok, I128.checkedMul_eq_some, I128.checkedDiv_eq_some,
      I128.checkedAdd_eq_some] at h
    obtain ⟨_, ⟨-, rfl⟩, _, ⟨-, -, rfl⟩, -, rfl⟩ := h
    rfl
  · rw [if_neg hu]
    simp only [except_bind_ok, orErr_ok, I128.checkedSub_eq_some, I128.checkedAdd_eq_some] at h
    obtain ⟨_, ⟨-, rfl⟩, _, ⟨-, rfl⟩, _, ⟨-, rfl⟩, h⟩ := h
    rw [if_pos (sub_pos.mpr hf)] at h
    simp only [except_bind_ok, orErr_ok, I128.checkedMul_eq_some, I128.checkedDiv_eq_some,
      I128.checkedAdd_eq_some] at h
    obtain ⟨_, ⟨-, rfl⟩, _, ⟨-, -, rfl⟩, -, rfl⟩ := h
    rfl

/-! ## The lending contract -/

section Lending

variable {cfg : Lending.InterestRateConfig}

/-- The moment works with these parameters, whenever they were set. -/
def LendingParameters (cfg : Lending.InterestRateConfig) (m : Lending.Env × Lending.Storage) :
    Prop :=
  ∃ date, cfg = { Lending.getConfig m.1 m.2 with lastUpdate := date }

/-- No less debt under the same ceiling. -/
def MoreDebt (m m' : Lending.Env × Lending.Storage) : Prop :=
  Lending.getDebtCeiling m'.2 = Lending.getDebtCeiling m.2 ∧
    Lending.getTotalDebt m.2 ≤ Lending.getTotalDebt m'.2

/-- More debt, more utilization. -/
theorem MoreDebt.exactUtilization {m m' : Lending.Env × Lending.Storage} (h : MoreDebt m m') :
    Lending.exactUtilization m.2 ≤ Lending.exactUtilization m'.2 := by
  obtain ⟨hceiling, hdebt⟩ := h
  by_cases hzero : Lending.getDebtCeiling m.2 ≤ 0 ∨ Lending.getTotalDebt m.2 ≤ 0
  · rw [Lending.exactUtilization, if_pos hzero]
    exact (Lending.exactUtilization_bounds m'.2).1
  · obtain ⟨hpos, howed⟩ := not_or.mp hzero
    have hzero' : ¬ (Lending.getDebtCeiling m'.2 ≤ 0 ∨ Lending.getTotalDebt m'.2 ≤ 0) :=
      not_or.mpr ⟨hceiling ▸ hpos, fun hle => howed (hdebt.trans hle)⟩
    rw [Lending.exactUtilization, Lending.exactUtilization, if_neg hzero, if_neg hzero', hceiling]
    exact min_le_min_right _ (Int.tdiv_le_tdiv (not_le.mp hpos)
      (mul_le_mul_of_nonneg_right hdebt (by decide)))

/-- **The rates of the lending contract, under valid parameters.** -/
theorem lending_rateCurve (hc : cfg.Valid) :
    RateCurve cfg.rateFloorBps cfg.rateCeilingBps (LendingParameters cfg) MoreDebt
      (fun m => Lending.utilizationBps m.2) (fun m => Lending.borrowRateBps m.1 m.2)
      (fun m => Lending.supplyRateBps m.1 m.2) := by
  have hcurve : Monotone (kinked cfg.baseRateBps cfg.slopeBps cfg.jumpSlopeBps
      cfg.kinkUtilizationBps BASIS_POINTS_SCALE) :=
    kinked_mono hc.slope hc.jump hc.kink.1 hc.kink.2
  refine .of_curve hc.ceiling hc.spread.1 hcurve ?_ ?_ ?_
  · rintro ⟨e, s⟩ r ⟨date, rfl⟩ hr
    simp only [Lending.borrowRateBps, except_bind_ok, except_pure_ok] at hr
    obtain ⟨u, hu, rate, hrate, rfl⟩ := hr
    obtain rfl := checkedLines_ok hc.kink.1 hc.kink.2 hrate
    exact ⟨u, hu, rfl⟩
  · rintro ⟨e, s⟩ r q ⟨date, rfl⟩ hr hq
    simp only [Lending.supplyRateBps, except_bind_ok, except_pure_ok, orErr_ok,
      I128.checkedSub_eq_some] at hq
    obtain ⟨borrow, hborrow, _, ⟨-, rfl⟩, rfl⟩ := hq
    rw [Except.ok.inj (hborrow.symm.trans hr)]
  · rintro m m' u u' hmore hu hu'
    rw [(Lending.utilizationBps_ok.mp hu).2, (Lending.utilizationBps_ok.mp hu').2]
    exact hmore.exactUtilization

end Lending

/-! ## The hello-world contract -/

section HelloWorld

variable {config : InterestRateConfig} {s t s' : Storage}

/-- The store holds these parameters, whenever they were set. -/
def Parameters (config : InterestRateConfig) (s : Storage) : Prop :=
  ∃ date, getInterestRateConfig s = some { config with lastUpdate := date }

/-- No fewer borrows against the same deposits. -/
structure MoreBorrows (s s' : Storage) : Prop where
  deposits : (getProtocolAnalytics s').totalDeposits = (getProtocolAnalytics s).totalDeposits
  nonneg : 0 ≤ (getProtocolAnalytics s).totalDeposits
  borrows : totalBorrows s ≤ totalBorrows s'

theorem calculateUtilization_ok {u : ℤ} (h : calculateUtilization s = .ok u) :
    u = if (getProtocolAnalytics s).totalDeposits = 0 then 0
      else min ((totalBorrows s * BASIS_POINTS_SCALE).tdiv (getProtocolAnalytics s).totalDeposits)
        BASIS_POINTS_SCALE := by
  simp only [calculateUtilization] at h
  split at h <;> rename_i hdeposits
  · rw [if_pos hdeposits]
    exact (Except.ok.inj h).symm
  · rw [if_neg hdeposits]
    simp only [except_bind_ok, orErr_ok, I128.checkedMul_eq_some, I128.checkedDiv_eq_some,
      Except.ok.injEq] at h
    obtain ⟨_, ⟨-, rfl⟩, _, ⟨-, -, rfl⟩, rfl⟩ := h
    rfl

/-- More borrows, more utilization. -/
theorem MoreBorrows.utilization {u u' : ℤ} (h : MoreBorrows s s')
    (hu : calculateUtilization s = .ok u) (hu' : calculateUtilization s' = .ok u') : u ≤ u' := by
  rw [calculateUtilization_ok hu, calculateUtilization_ok hu', h.deposits]
  split
  · rfl
  · rename_i hzero
    have hpos := lt_of_le_of_ne h.nonneg (Ne.symm hzero)
    exact min_le_min_right _ (Int.tdiv_le_tdiv hpos
      (mul_le_mul_of_nonneg_right h.borrows (by decide)))

/-- **The rates of the hello-world contract, under valid parameters**; the adjustment moves the
whole curve. -/
theorem helloWorld_rateCurve (hc : config.Valid) :
    RateCurve config.rateFloorBps config.rateCeilingBps (Parameters config) MoreBorrows
      calculateUtilization calculateBorrowRate calculateSupplyRate := by
  have hcurve : Monotone fun u => kinked config.baseRateBps config.multiplierBps
      config.jumpMultiplierBps config.kinkUtilizationBps BASIS_POINTS_SCALE u +
        config.emergencyAdjustmentBps :=
    (kinked_mono hc.multiplier hc.jump hc.kink.1 hc.kink.2).add_const _
  refine .of_curve hc.ordered hc.spread.1 hcurve ?_ ?_ fun _ _ _ _ hmore => hmore.utilization
  · rintro s r ⟨date, hs⟩ hr
    simp only [calculateBorrowRate, hs, except_bind_ok, orErr_ok, Option.some.injEq,
      exists_eq_left', I128.checkedAdd_eq_some, Except.ok.injEq] at hr
    obtain ⟨u, hu, rate, hrate, _, ⟨-, rfl⟩, rfl⟩ := hr
    obtain rfl := checkedLines_ok hc.kink.1 hc.kink.2 hrate
    exact ⟨u, hu, rfl⟩
  · rintro s r q ⟨date, hs⟩ hr hq
    simp only [calculateSupplyRate, hs, except_bind_ok, orErr_ok, Option.some.injEq,
      exists_eq_left', I128.checkedSub_eq_some, Except.ok.injEq] at hq
    obtain ⟨borrow, hborrow, _, ⟨-, rfl⟩, rfl⟩ := hq
    rw [Except.ok.inj (hborrow.symm.trans hr)]

/-- **The deposits counted are never negative**: they only ever grow. -/
theorem Reachable.deposits_nonneg (h : Reachable s) :
    0 ≤ (getProtocolAnalytics s).totalDeposits := by
  refine h.invariant (I := fun s => 0 ≤ (getProtocolAnalytics s).totalDeposits) le_rfl
    fun s tx s' hstep hs => ?_
  cases hact : tx.op.act s with
  | none => exact (step_aside hstep hact).totals ▸ hs
  | some a =>
    obtain ⟨t, hgate, ha⟩ := step_act hstep hact
    have hs : 0 ≤ (getProtocolAnalytics t).totalDeposits := by
      rw [Gate] at hgate
      rw [hgate]
      exact hs
    cases a <;> obtain ⟨_, ha⟩ := commit_eq_some.mp ha
    case deposit =>
      obtain ⟨hdeposited, htotals, -⟩ := depositCollateral_totals ha
      rw [htotals]
      exact add_nonneg hs hdeposited.amount_pos.le
    case borrow => exact (borrowAsset_totals ha).2.2.1 ▸ hs
    case repay =>
      obtain ⟨-, -, _, _, _, -, -, htotals⟩ := repayDebt_totals ha
      exact htotals ▸ hs
    case withdraw => exact (withdrawCollateral_totals ha).2.1 ▸ hs
    case liquidate =>
      obtain ⟨⟨_, _, _, -, -, htotals⟩, -⟩ := liquidate_totals ha
      exact htotals ▸ hs

end HelloWorld

/-! ## Both contracts -/

/-- **Under every configuration that a run can reach, both contracts keep the laws of a rate
curve.**  The moments of the lending contract and the states of the other need not be reachable
themselves; in those that are, deposits are not negative. -/
theorem rate_curves {e : Lending.Env} {s : Lending.Storage} {t : Storage}
    {config : InterestRateConfig} (hs : Lending.Reachable s) (ht : Reachable t)
    (hconfig : getInterestRateConfig t = some config) :
    RateCurve (Lending.getConfig e s).rateFloorBps (Lending.getConfig e s).rateCeilingBps
        (LendingParameters (Lending.getConfig e s)) MoreDebt (fun m => Lending.utilizationBps m.2)
        (fun m => Lending.borrowRateBps m.1 m.2) (fun m => Lending.supplyRateBps m.1 m.2) ∧
      RateCurve config.rateFloorBps config.rateCeilingBps (Parameters config) MoreBorrows
        calculateUtilization calculateBorrowRate calculateSupplyRate ∧
      0 ≤ (getProtocolAnalytics t).totalDeposits :=
  ⟨lending_rateCurve (Lending.getConfig_valid hs.ratesValid.config),
    helloWorld_rateCurve (ht.rateValid config hconfig), ht.deposits_nonneg⟩

namespace Sample

/-- The admin lowers the curve by more than its base, and Alice deposits. -/
def lowered : List Tx :=
  [deploy, ⟨envAt 2 [admin], .setEmergencyRateAdjustment admin (-3000)⟩,
    ⟨envAt 3 [alice], .depositCollateral alice none 1000⟩]

def loweredConfig : InterestRateConfig := ⟨100, 8000, 2000, 10000, 50, 10000, 200, -3000, 2⟩

theorem lowered_config : getInterestRateConfig (ledger lowered) = some loweredConfig := by
  decide

end Sample

theorem rate_curves_lowered :
    RateCurve 0 10000 (LendingParameters (Lending.defaultConfig (Lending.Sample.envAt 7 [])))
        MoreDebt (fun m => Lending.utilizationBps m.2) (fun m => Lending.borrowRateBps m.1 m.2)
        (fun m => Lending.supplyRateBps m.1 m.2) ∧
      RateCurve 50 10000 (Parameters Sample.loweredConfig) MoreBorrows calculateUtilization
        calculateBorrowRate calculateSupplyRate ∧
      0 ≤ (getProtocolAnalytics (ledger Sample.lowered)).totalDeposits :=
  rate_curves (e := Lending.Sample.envAt 7 []) (s := .empty) ⟨[], rfl⟩ ⟨Sample.lowered, rfl⟩
    Sample.lowered_config

end StellarLend.HelloWorld
