import StellarLend.Lending.Views

/-!
# Lending/Accrual — what accruing interest can do

Accruing interest writes one storage key, the smoothed stable rate, and keeps the stored rate
parameters valid (`RefreshesRate`).  Under valid parameters (`RatesValid`), and where no stablecoin
pays a negative stability fee (`FeesNonneg`), the interest accrued on a nonnegative principal is
nonnegative (`accrued_nonneg`).
-/

namespace StellarLend.Lending

open Foundations Call

variable {e : Env} {s t u : Storage} {p : DebtPosition} {a r : ℤ}

/-! ## Valid rate parameters -/

/-- The stored rate parameters are what the setters and the averaging leave. -/
structure RatesValid (s : Storage) : Prop where
  config : ∀ c, s.borrowInterestRate = some c → c.Valid
  average : ∀ state, s.stableRateState = some state →
    0 ≤ state.avgRateBps ∧ state.avgRateBps ≤ BPS_SCALE
  premium : getStableRatePremiumBps s = DEFAULT_STABLE_PREMIUM_BPS
  switchFee : getRateSwitchFeeBps s = DEFAULT_SWITCH_FEE_BPS

/-- No stablecoin pays a negative stability fee. -/
def FeesNonneg (s : Storage) : Prop :=
  ∀ asset config, s.assetStablecoinConfig asset = some config → 0 ≤ config.stabilityFeeBps

theorem RatesValid.empty : RatesValid Storage.empty :=
  ⟨by simp [Storage.empty], by simp [Storage.empty], rfl, rfl⟩

theorem FeesNonneg.empty : FeesNonneg Storage.empty := by simp [FeesNonneg, Storage.empty]

/-- The variable rate lies between zero and one hundred percent. -/
theorem RatesValid.variableRate (h : RatesValid s) (hr : getCurrentVariableRateBps e s = .ok r) :
    0 ≤ r ∧ r ≤ BPS_SCALE := by
  have hc := getConfig_valid (e := e) h.config
  have hrate : borrowRateBps e s = .ok r := by
    unfold getCurrentVariableRateBps at hr
    cases hb : borrowRateBps e s with
    | ok v =>
      rw [hb] at hr
      cases hr
      rfl
    | error err =>
      rw [hb] at hr
      cases hr
  exact ⟨borrowRateBps_nonneg hc hrate, (borrowRateBps_bounds hc hrate).2.trans hc.ceiling_le⟩

theorem RatesValid.variableRateOr (h : RatesValid s) {d : ℤ} (hd : 0 ≤ d ∧ d ≤ BPS_SCALE) :
    0 ≤ variableRateOr d e s ∧ variableRateOr d e s ≤ BPS_SCALE := by
  unfold Lending.variableRateOr
  split
  · exact h.variableRate ‹_›
  · exact hd

theorem RatesValid.stableRateState (h : RatesValid s) :
    0 ≤ (getStableRateState e s).avgRateBps ∧ (getStableRateState e s).avgRateBps ≤ BPS_SCALE := by
  unfold getStableRateState
  cases hs : s.stableRateState with
  | none => exact h.variableRateOr ⟨le_rfl, by decide⟩
  | some state => exact h.average state hs

/-- The moving average of two rates between zero and one hundred percent lies there too. -/
theorem nextAvg_bounds {avg current : ℤ} (ha : 0 ≤ avg ∧ avg ≤ BPS_SCALE)
    (hc : 0 ≤ current ∧ current ≤ BPS_SCALE) :
    0 ≤ nextAvg avg current ∧ nextAvg avg current ≤ BPS_SCALE := by
  unfold nextAvg
  cases hv : ((I128.checkedMul avg 9).bind fun v => I128.checkedAdd v current).bind
      fun v => I128.checkedDiv v 10 with
  | none => exact hc
  | some x =>
    simp only [Option.bind_eq_some_iff, I128.checkedMul_eq_some, I128.checkedAdd_eq_some,
      I128.checkedDiv_eq_some] at hv
    obtain ⟨_, ⟨_, ⟨_, rfl⟩, _, rfl⟩, _, _, rfl⟩ := hv
    have hsum : 0 ≤ avg * 9 + current := by linarith [ha.1, hc.1]
    rw [Option.getD_some, Int.tdiv_eq_ediv_of_nonneg hsum]
    simp only [BPS_SCALE] at *
    omega

theorem RatesValid.stableStateNow (h : RatesValid s) :
    0 ≤ (stableStateNow e s).avgRateBps ∧ (stableStateNow e s).avgRateBps ≤ BPS_SCALE := by
  unfold Lending.stableStateNow
  split
  · exact nextAvg_bounds h.stableRateState (h.variableRateOr h.stableRateState)
  · exact h.stableRateState

theorem RatesValid.withStableRate {state : StableRateState} (h : RatesValid s)
    (hs : 0 ≤ state.avgRateBps ∧ state.avgRateBps ≤ BPS_SCALE) :
    RatesValid (withStableRate (some state) s) where
  config := h.config
  average := by
    rintro _ ⟨⟩
    exact hs
  premium := h.premium
  switchFee := h.switchFee

/-! ## Refreshing the stable rate -/

/-- The stores agree except for the stable rate state, valid rate parameters stay valid, and no
state is stored where there was none. -/
structure RefreshesRate (s t : Storage) : Prop where
  store : ∃ state, t = withStableRate state s
  rates : RatesValid s → RatesValid t
  dormant : s.stableRateState = none → t.stableRateState = none

theorem RefreshesRate.refl (s : Storage) : RefreshesRate s s := ⟨⟨s.stableRateState, rfl⟩, id, id⟩

theorem RefreshesRate.trans (h : RefreshesRate s t) (k : RefreshesRate t u) :
    RefreshesRate s u := by
  refine ⟨?_, k.rates ∘ h.rates, k.dormant ∘ h.dormant⟩
  obtain ⟨_, rfl⟩ := h.store
  obtain ⟨state, rfl⟩ := k.store
  exact ⟨state, rfl⟩

/-- Without a stored state the smoothed rate is read as of now, and never due. -/
theorem not_refreshDue_of_dormant (h : s.stableRateState = none) : ¬ RefreshDue e s := by
  rintro ⟨hdated, -⟩
  rw [getStableRateState, h, Option.getD_none] at hdated
  exact absurd hdated (lt_irrefl _)

theorem refreshed_of_dormant (h : s.stableRateState = none) : refreshed e s = s := by
  rw [refreshed, if_neg (not_refreshDue_of_dormant h)]

theorem stableStateNow_of_dormant (h : s.stableRateState = none) :
    stableStateNow e s = ⟨variableRateOr 0 e s, e.timestamp⟩ := by
  rw [stableStateNow, if_neg (not_refreshDue_of_dormant h), getStableRateState, h, Option.getD_none]

/-- **A refresh keeps the rate parameters valid.** -/
theorem MayRefresh.refreshes (h : MayRefresh e s t) : RefreshesRate s t := by
  refine ⟨h.store, fun hv => ?_, fun hnone => ?_⟩ <;> obtain rfl | rfl := h
  · exact hv
  · unfold refreshed
    split
    · exact hv.withStableRate hv.stableStateNow
    · exact hv
  · exact hnone
  · rw [refreshed_of_dormant hnone]
    exact hnone

theorem calculateInterest_refreshes (h : calculateInterest p e s = .ok a t) : RefreshesRate s t :=
  (calculateInterest_ok h).2.refreshes

/-! ## Rates are never negative -/

/-- Under valid parameters the stable rate can be computed. -/
theorem RatesValid.currentStableRate_eq (h : RatesValid s) (e : Env) :
    currentStableRate e s =
      .ok ((Lending.stableStateNow e s).avgRateBps + getStableRatePremiumBps s) := by
  have havg := h.stableStateNow (e := e)
  refine orErr_ok.mpr (I128.checkedAdd_eq_some.mpr ⟨?_, rfl⟩)
  rw [h.premium, I128.holds_iff]
  simp only [BPS_SCALE, DEFAULT_STABLE_PREMIUM_BPS] at *
  omega

/-- **The stable rate is positive**: an average rate and the premium. -/
theorem RatesValid.currentStableRate (h : RatesValid s) (hr : currentStableRate e s = .ok r) :
    0 < r := by
  obtain ⟨-, rfl⟩ := I128.checkedAdd_eq_some.mp (orErr_ok.mp hr)
  rw [h.premium]
  exact Int.add_pos_of_nonneg_of_pos h.stableStateNow.1 (by decide)

/-- The stable bucket is saved with the current stable rate, the variable one with the old value. -/
theorem bucketRateBps_ok {rateType : RateType} {old : ℤ}
    (h : bucketRateBps rateType old e s = .ok r t) :
    RefreshesRate s t ∧ (RatesValid s → rateType = .stable → 0 < r) := by
  rcases rateType with _ | _
  · obtain ⟨rfl, rfl⟩ := pure_ok.mp h
    exact ⟨.refl _, by simp⟩
  · obtain ⟨hr, rfl⟩ := ofExcept_ok.mp ((getCurrentStableRateBps_eq e s).symm.trans h)
    exact ⟨MayRefresh.refreshes (.inr rfl), fun hv _ => hv.currentStableRate hr⟩

theorem RatesValid.positionRate (h : RatesValid s) (hr : positionRate e s p = .ok r) : 0 ≤ r := by
  unfold Lending.positionRate at hr
  split at hr
  · exact (h.variableRate hr).1
  · split at hr
    · cases hr
      exact le_of_lt ‹_›
    · exact (h.currentStableRate hr).le

/-! ## Interest is never negative, and none accrues at once -/

/-- No time, no interest. -/
theorem simpleInterest_at_once {principal bps x : ℤ} (h : simpleInterest principal bps 0 = some x) :
    x = 0 := by
  simp only [simpleInterest, Option.bind_eq_some_iff, I256.mul_eq_some, I256.div_eq_some] at h
  obtain ⟨_, ⟨_, ⟨_, ⟨_, rfl⟩, _, rfl⟩, _, _, rfl⟩, _, _, rfl⟩ := h
  simp

theorem accrued_at_once (hp : p.lastUpdate = e.timestamp)
    (h : calculateInterest p e s = .ok a t) : a = 0 := by
  obtain ⟨-, rfl⟩ | ⟨rate, -, hint⟩ := interestOf_ok (calculateInterest_ok h).1
  · rfl
  · have helapsed : p.elapsed e = 0 := by simp [DebtPosition.elapsed, hp]
    simp only [interestAt, helapsed, Option.bind_eq_some_iff] at hint
    obtain ⟨interest, hinterest, fee, -, hadd⟩ := hint
    obtain rfl := simpleInterest_at_once hinterest
    rcases fee with _ | bps
    · cases hadd
      rfl
    · simp only [addStabilityFee, Option.bind_eq_some_iff, I256.add_eq_some] at hadd
      obtain ⟨x, hx, _, rfl⟩ := hadd
      rw [simpleInterest_at_once hx, add_zero]

/-- Interest at a nonnegative rate on a nonnegative principal. -/
theorem simpleInterest_nonneg {principal bps elapsed x : ℤ}
    (h : simpleInterest principal bps elapsed = some x) (hp : 0 ≤ principal) (hb : 0 ≤ bps)
    (he : 0 ≤ elapsed) : 0 ≤ x := by
  simp only [simpleInterest, Option.bind_eq_some_iff, I256.mul_eq_some, I256.div_eq_some] at h
  obtain ⟨_, ⟨_, ⟨_, ⟨_, rfl⟩, _, rfl⟩, _, _, rfl⟩, _, _, rfl⟩ := h
  have hmul : 0 ≤ principal * bps * elapsed := mul_nonneg (mul_nonneg hp hb) he
  exact Int.tdiv_nonneg (Int.tdiv_nonneg hmul (by decide)) (by decide)

theorem FeesNonneg.stabilityFeeBps (h : FeesNonneg s) {asset : Address} {bps : ℤ}
    (hf : stabilityFeeBps e s asset = some (some bps)) : 0 ≤ bps := by
  unfold Lending.stabilityFeeBps at hf
  split at hf
  · rename_i config oracle hconfig _
    obtain ⟨price, _, hp⟩ := Option.map_eq_some_iff.mp hf
    split at hp
    · cases hp
      exact h asset config hconfig
    · cases hp
  · cases hf

/-- **The interest accrued on a nonnegative principal is nonnegative.** -/
theorem accrued_nonneg (hv : RatesValid s) (hf : FeesNonneg s) (hp : 0 ≤ p.borrowedAmount)
    (h : calculateInterest p e s = .ok a t) : 0 ≤ a := by
  obtain ⟨-, rfl⟩ | ⟨rate, hrate, hint⟩ := interestOf_ok (calculateInterest_ok h).1
  · exact le_rfl
  · simp only [interestAt, Option.bind_eq_some_iff] at hint
    obtain ⟨interest, hinterest, fee, hfee, hadd⟩ := hint
    have helapsed : 0 ≤ p.elapsed e := Int.natCast_nonneg _
    have hi := simpleInterest_nonneg hinterest hp (hv.positionRate hrate) helapsed
    rcases fee with _ | bps
    · cases hadd
      exact hi
    · simp only [addStabilityFee, Option.bind_eq_some_iff, I256.add_eq_some] at hadd
      obtain ⟨x, hx, _, rfl⟩ := hadd
      exact add_nonneg hi (simpleInterest_nonneg hx hp (hf.stabilityFeeBps hfee) helapsed)

end StellarLend.Lending
