import StellarLend.Lending.Borrow

/-!
# Lending/Views — values and health of a position, as functions of the store

Valuation of a borrow position at the configured oracle's prices.  A value that cannot be computed
(no oracle, no positive price, overflow at 128 bits) is `0`; `none` is a trap.

Computing interest may store a refreshed stable rate, so accrual and the views are invocations.
What they return is a function of the store all the same (`interestOf`, `withInterest`,
`reportedHealth`), and the store they leave is the one they found or its refresh (`MayRefresh`):
later modules reason about the functions.
-/

namespace StellarLend.Lending

open Foundations Call

def PRICE_SCALE : ℤ := 100000000
def HEALTH_FACTOR_SCALE : ℤ := 10000
def HEALTH_FACTOR_NO_DEBT : ℤ := 100000000

/-- `amount * numerator / denominator` at 256 bits, narrowed to 128; `none` is an overflow at 256
bits, which traps, and an overflow of the narrowing is `0`. -/
def scaled (amount numerator denominator : ℤ) : Option ℤ :=
  ((I256.mul amount numerator).bind fun x => I256.div x denominator).map fun x =>
    (I256.toI128 x).getD 0

/-- A share of a product that is not negative is its floor, or `0` where that is no 128-bit
number. -/
theorem scaled_eq_some {amount numerator denominator v : ℤ} (hprod : 0 ≤ amount * numerator)
    (hd : 0 < denominator) : scaled amount numerator denominator = some v ↔
      I256.Holds (amount * numerator) ∧ v = if amount * numerator / denominator ≤ I128.MAX then
        amount * numerator / denominator else 0 := by
  have hquot : 0 ≤ amount * numerator / denominator := Int.ediv_nonneg hprod hd.le
  have hnarrow : (I256.toI128 (amount * numerator / denominator)).getD 0 =
      if amount * numerator / denominator ≤ I128.MAX then amount * numerator / denominator
      else 0 := by
    rw [I256.toI128, Range.check]
    simp only [I128.holds_of_nonneg hquot]
    split <;> rfl
  simp only [scaled, Option.map_eq_some_iff, Option.bind_eq_some_iff, I256.mul_eq_some,
    I256.div_eq_some]
  constructor
  · rintro ⟨_, ⟨_, ⟨hwide, rfl⟩, -, -, rfl⟩, rfl⟩
    rw [Int.tdiv_eq_ediv_of_nonneg hprod]
    exact ⟨hwide, hnarrow⟩
  · rintro ⟨hwide, rfl⟩
    refine ⟨_, ⟨_, ⟨hwide, rfl⟩, hd.ne', I256.holds_tdiv hwide hd, rfl⟩, ?_⟩
    rw [Int.tdiv_eq_ediv_of_nonneg hprod]
    exact hnarrow

/-- The value of an amount of an asset. -/
def valueOf (e : Env) (s : Storage) (amount : ℤ) (asset : Address) : Option ℤ :=
  if amount ≤ 0 then some 0
  else
    match getOracle s with
    | none => some 0
    | some oracle =>
      (e.price oracle asset).bind fun price =>
        if price ≤ 0 then some 0 else scaled amount price PRICE_SCALE

def collateralValue (e : Env) (s : Storage) (c : BorrowCollateral) : Option ℤ :=
  valueOf e s c.amount c.asset

/-- Principal and interest of a position; an overflow is `0`. -/
def debtBalance (p : DebtPosition) : ℤ :=
  (I128.checkedAdd p.borrowedAmount p.interestAccrued).getD 0

def debtValue (e : Env) (s : Storage) (p : DebtPosition) : Option ℤ :=
  valueOf e s (debtBalance p) p.asset

/-- `collateralValue * threshold / 10000 * 10000 / debtValue`: at least 10000 is healthy. -/
def computeHealthFactor (s : Storage) (collateralValue debtValue : ℤ) (hasDebt : Bool) :
    Option ℤ :=
  if debtValue ≤ 0 then some (if hasDebt then 0 else HEALTH_FACTOR_NO_DEBT)
  else
    match getOracle s with
    | none => some 0
    | some _ =>
      ((I256.mul collateralValue (getLiquidationThresholdBps s)).bind fun x =>
        I256.div x 10000).bind fun weighted => scaled weighted HEALTH_FACTOR_SCALE debtValue

/-! ## Public views -/

def Views.getDebtBalance {ε : Type} (user : Address) : Invocation ε ℤ := do
  let position ← Borrow.getUserDebt user
  pure (debtBalance position)

def Views.getCollateralValue {ε : Type} (user : Address) : Invocation ε ℤ := do
  let value ← look fun e s => collateralValue e s (getCollateralPosition s user)
  orTrap value

def Views.getDebtValue {ε : Type} (user : Address) : Invocation ε ℤ := do
  let position ← Borrow.getUserDebt user
  let value ← look fun e s => debtValue e s position
  orTrap value

def Views.getHealthFactor {ε : Type} (user : Address) : Invocation ε ℤ := do
  let collateral ← view fun s => getCollateralPosition s user
  let position ← Borrow.getUserDebt user
  let cv ← look fun e s => collateralValue e s collateral
  let cv ← orTrap cv
  let dv ← look fun e s => debtValue e s position
  let dv ← orTrap dv
  let health ← view fun s => computeHealthFactor s cv dv (0 < debtBalance position)
  orTrap health

/-- The most debt that can be liquidated in one call: the close factor's share of the debt of a
position whose health factor is known and below one. -/
def Views.getMaxLiquidatableAmount {ε : Type} (user : Address) : Invocation ε ℤ := do
  let position ← Borrow.getUserDebt user
  if debtBalance position ≤ 0 then pure 0
  else do
    let collateral ← view fun s => getCollateralPosition s user
    let cv ← look fun e s => collateralValue e s collateral
    let cv ← orTrap cv
    let dv ← look fun e s => debtValue e s position
    let dv ← orTrap dv
    let health ← view fun s => computeHealthFactor s cv dv true
    let health ← orTrap health
    if health = 0 ∨ HEALTH_FACTOR_SCALE ≤ health then pure 0
    else do
      let amount ← view fun s => scaled (debtBalance position) (getCloseFactorBps s) 10000
      orTrap amount

structure UserPositionSummary where
  collateralBalance : ℤ
  collateralValue : ℤ
  debtBalance : ℤ
  debtValue : ℤ
  healthFactor : ℤ
  deriving DecidableEq, Repr

def Views.getUserPosition {ε : Type} (user : Address) : Invocation ε UserPositionSummary := do
  let collateral ← view fun s => getCollateralPosition s user
  let position ← Borrow.getUserDebt user
  let cv ← look fun e s => collateralValue e s collateral
  let cv ← orTrap cv
  let dv ← look fun e s => debtValue e s position
  let dv ← orTrap dv
  let health ← view fun s => computeHealthFactor s cv dv (0 < debtBalance position)
  let health ← orTrap health
  pure ⟨collateral.amount, cv, debtBalance position, dv, health⟩

/-! ## Accrual and the views -/

section

variable {e : Env} {s t : Storage} {p : DebtPosition}

/-! ## The stable rate as of now -/

/-- The smoothed stable rate is due for a refresh. -/
def RefreshDue (e : Env) (s : Storage) : Prop :=
  (getStableRateState e s).lastUpdate < e.timestamp ∧ getStableRateRecalcIntervalSecs s ≠ 0 ∧
    getStableRateRecalcIntervalSecs s ≤ e.timestamp - (getStableRateState e s).lastUpdate

instance (e : Env) (s : Storage) : Decidable (RefreshDue e s) := inferInstanceAs (Decidable (_ ∧ _))

/-- The smoothed stable rate, refreshed if it is due. -/
def stableStateNow (e : Env) (s : Storage) : StableRateState :=
  if RefreshDue e s then
    ⟨nextAvg (getStableRateState e s).avgRateBps
      (variableRateOr (getStableRateState e s).avgRateBps e s), e.timestamp⟩
  else getStableRateState e s

/-- The store with the stable rate refreshed if it is due. -/
def refreshed (e : Env) (s : Storage) : Storage :=
  if RefreshDue e s then withStableRate (some (stableStateNow e s)) s else s

/-- The stores differ by a refresh at most. -/
def MayRefresh (e : Env) (s t : Storage) : Prop := t = s ∨ t = refreshed e s

theorem MayRefresh.refl (e : Env) (s : Storage) : MayRefresh e s s := .inl rfl

/-- A refresh writes one key. -/
theorem MayRefresh.store (h : MayRefresh e s t) : ∃ state, t = withStableRate state s := by
  obtain rfl | rfl := h
  · exact ⟨t.stableRateState, rfl⟩
  · unfold refreshed
    split
    · exact ⟨_, rfl⟩
    · exact ⟨s.stableRateState, rfl⟩

/-- **A refreshed store is not due again**: refreshing it changes nothing. -/
theorem stableStateNow_refreshed (e : Env) (s : Storage) :
    stableStateNow e (refreshed e s) = stableStateNow e s := by
  by_cases hdue : RefreshDue e s
  · have hstate : getStableRateState e (refreshed e s) = stableStateNow e s := by
      rw [refreshed, if_pos hdue]
      rfl
    have hnow : (stableStateNow e s).lastUpdate = e.timestamp := by rw [stableStateNow, if_pos hdue]
    have hdone : ¬ RefreshDue e (refreshed e s) := by
      rw [RefreshDue, hstate, hnow]
      exact fun h => absurd h.1 (lt_irrefl _)
    rw [stableStateNow, if_neg hdone, hstate]
  · rw [refreshed, if_neg hdue]

theorem MayRefresh.stableStateNow (h : MayRefresh e s t) :
    stableStateNow e t = stableStateNow e s := by
  obtain rfl | rfl := h
  · rfl
  · exact stableStateNow_refreshed e s

theorem updateStableRateStateIfNeeded_eq {ε : Type} (e : Env) (s : Storage) :
    (updateStableRateStateIfNeeded : Invocation ε StableRateState) e s =
      .ok (stableStateNow e s) (refreshed e s) := by
  simp only [updateStableRateStateIfNeeded, bind_ok, look_ok, asks_ok, view_ok]
  refine ⟨_, _, ⟨rfl, rfl⟩, _, _, ⟨rfl, rfl⟩, _, _, ⟨rfl, rfl⟩, ?_⟩
  by_cases hdue : RefreshDue e s
  · rw [if_neg (not_le.mpr hdue.1), if_neg (not_or.mpr ⟨hdue.2.1, not_lt.mpr hdue.2.2⟩), refreshed,
      stableStateNow, if_pos hdue, if_pos hdue]
    rfl
  · rw [refreshed, stableStateNow, if_neg hdue, if_neg hdue]
    split
    · rfl
    · rename_i hlate
      rw [if_pos]
      · rfl
      · by_contra hearly
        obtain ⟨hinterval, hlong⟩ := not_or.mp hearly
        exact hdue ⟨not_le.mp hlate, hinterval, not_lt.mp hlong⟩

/-- The current stable rate: the smoothed rate and the premium. -/
def currentStableRate (e : Env) (s : Storage) : Except BorrowError ℤ :=
  orErr (I128.checkedAdd (stableStateNow e s).avgRateBps (getStableRatePremiumBps s)) .overflow

theorem getCurrentStableRateBps_eq (e : Env) (s : Storage) :
    getCurrentStableRateBps e s = ofExcept (currentStableRate e s) e (refreshed e s) := by
  have hpremium : getStableRatePremiumBps (refreshed e s) = getStableRatePremiumBps s := by
    unfold refreshed
    split <;> rfl
  rw [getCurrentStableRateBps, bind_of_ok (updateStableRateStateIfNeeded_eq e s),
    bind_of_ok (view_ok.mpr ⟨rfl, rfl⟩), hpremium, currentStableRate]
  cases I128.checkedAdd (stableStateNow e s).avgRateBps (getStableRatePremiumBps s) <;> rfl

/-! ## Interest -/

/-- The rate a position accrues at now. -/
def positionRate (e : Env) (s : Storage) (p : DebtPosition) : Except BorrowError ℤ :=
  match p.rateType with
  | .variable => getCurrentVariableRateBps e s
  | .stable => if 0 < p.stableRateBps then .ok p.stableRateBps else currentStableRate e s

theorem positionRateBps_eq (p : DebtPosition) (e : Env) (s : Storage) :
    ∃ t, MayRefresh e s t ∧ positionRateBps p e s = ofExcept (positionRate e s p) e t := by
  unfold positionRateBps positionRate
  rcases p.rateType with _ | _
  · exact ⟨s, .refl e s, bind_of_ok (look_ok.mpr ⟨rfl, rfl⟩)⟩
  · by_cases hlocked : 0 < p.stableRateBps
    · simp only [if_pos hlocked]
      exact ⟨s, .refl e s, rfl⟩
    · simp only [if_neg hlocked]
      exact ⟨refreshed e s, .inr rfl, getCurrentStableRateBps_eq e s⟩

/-- How long the position has gone without an update. -/
def DebtPosition.elapsed (e : Env) (p : DebtPosition) : ℤ := ((e.timestamp - p.lastUpdate : ℕ) : ℤ)

/-- The interest at a rate since the position's last update, with the stability fee; `none` is a
trap. -/
def interestAt (e : Env) (s : Storage) (p : DebtPosition) (rate : ℤ) : Option ℤ :=
  (simpleInterest p.borrowedAmount rate (p.elapsed e)).bind fun interest =>
    (stabilityFeeBps e s p.asset).bind fun fee =>
      addStabilityFee p.borrowedAmount (p.elapsed e) interest fee

/-- The interest since the position's last update; `none` is a trap. -/
def interestOf (e : Env) (s : Storage) (p : DebtPosition) : Option (Except BorrowError ℤ) :=
  if p.borrowedAmount = 0 then some (.ok 0)
  else
    match positionRate e s p with
    | .error err => some (.error err)
    | .ok rate => (interestAt e s p rate).map fun interest => orErr (I256.toI128 interest) .overflow

/-- **Accruing interest returns `interestOf`**, and refreshes the stable rate at most. -/
theorem calculateInterest_eq (p : DebtPosition) (e : Env) (s : Storage) :
    ∃ t, MayRefresh e s t ∧ calculateInterest p e s = ofResult (interestOf e s p) e t := by
  unfold calculateInterest interestOf
  by_cases hp : p.borrowedAmount = 0
  · rw [if_pos hp, if_pos hp]
    exact ⟨s, .refl e s, rfl⟩
  · rw [if_neg hp, if_neg hp]
    obtain ⟨t, ht, hrate⟩ := positionRateBps_eq p e s
    have hfee : stabilityFeeBps e t p.asset = stabilityFeeBps e s p.asset := by
      obtain ⟨_, rfl⟩ := ht.store
      rfl
    refine ⟨t, ht, (bind_of_ok (asks_ok.mpr ⟨rfl, rfl⟩)).trans ?_⟩
    rcases hr : positionRate e s p with err | rate
    · rw [hr] at hrate
      exact bind_of_err hrate
    · rw [hr] at hrate
      rw [bind_of_ok hrate]
      change _ = ofResult ((interestAt e s p rate).map _) e t
      rw [interestAt, ← hfee, DebtPosition.elapsed]
      rcases hi : simpleInterest p.borrowedAmount rate ((e.timestamp - p.lastUpdate : ℕ) : ℤ)
        with _ | interest
      · exact bind_of_trap rfl
      · rw [bind_of_ok (orTrap_ok.mpr ⟨rfl, rfl⟩), bind_of_ok (look_ok.mpr ⟨rfl, rfl⟩)]
        rcases stabilityFeeBps e t p.asset with _ | fee
        · exact bind_of_trap rfl
        · rw [bind_of_ok (orTrap_ok.mpr ⟨rfl, rfl⟩), Option.bind_some, Option.bind_some]
          rcases addStabilityFee p.borrowedAmount ((e.timestamp - p.lastUpdate : ℕ) : ℤ) interest
            fee with _ | total
          · exact bind_of_trap rfl
          · rw [bind_of_ok (orTrap_ok.mpr ⟨rfl, rfl⟩), Option.map_some]
            cases I256.toI128 total <;> rfl

theorem calculateInterest_ok {a : ℤ} (h : calculateInterest p e s = .ok a t) :
    interestOf e s p = some (.ok a) ∧ MayRefresh e s t := by
  obtain ⟨u, hu, hcalc⟩ := calculateInterest_eq p e s
  obtain ⟨hint, rfl⟩ := ofResult_ok.mp (hcalc.symm.trans h)
  exact ⟨hint, hu⟩

/-- What interest that could be computed is. -/
theorem interestOf_ok {a : ℤ} (h : interestOf e s p = some (.ok a)) :
    p.borrowedAmount = 0 ∧ a = 0 ∨
      ∃ rate, positionRate e s p = .ok rate ∧ interestAt e s p rate = some a := by
  unfold interestOf at h
  split at h
  · cases h
    exact .inl ⟨‹_›, rfl⟩
  · split at h
    · cases h
    · obtain ⟨x, hx, hok⟩ := Option.map_eq_some_iff.mp h
      obtain ⟨-, rfl⟩ := I256.toI128_eq_some.mp (orErr_ok.mp hok)
      exact .inr ⟨_, ‹_›, hx⟩

/-! ## The debt views -/

/-- A position with the interest accrued to now; `none` is a trap. -/
def withInterest (e : Env) (s : Storage) (p : DebtPosition) : Option DebtPosition :=
  (interestOf e s p).map fun accrued =>
    match accrued with
    | .ok a => { p with interestAccrued := I128.saturatingAdd p.interestAccrued a }
    | .error .overflow => { p with interestAccrued := I128.MAX }
    | .error _ => p

theorem withPendingInterest_eq {ε : Type} (p : DebtPosition) (e : Env) (s : Storage) :
    ∃ t, MayRefresh e s t ∧ (withPendingInterest p : Invocation ε DebtPosition) e s =
      orTrap (withInterest e s p) e t := by
  obtain ⟨t, ht, hcalc⟩ := calculateInterest_eq p e s
  refine ⟨t, ht, ?_⟩
  unfold withPendingInterest withInterest
  rcases hi : interestOf e s p with _ | err | a <;> rw [hi] at hcalc
  · refine bind_of_trap ?_
    rw [attempt, hcalc]
    rfl
  · rw [bind_of_ok (attempt_ok (r := .error err) |>.mpr hcalc)]
    cases err <;> rfl
  · rw [bind_of_ok (attempt_ok (r := .ok a) |>.mpr hcalc)]
    rfl

/-- The position `getUserDebt` reports on: the variable bucket if it owes anything, else the stable
one. -/
def chosenDebt (e : Env) (s : Storage) (user : Address) : DebtPosition :=
  if (getDebtPosition e s user none .variable).Owing then getDebtPosition e s user none .variable
  else getDebtPosition e s user none .stable

/-- **What `getUserDebt` returns.** -/
theorem getUserDebt_eq {ε : Type} (user : Address) (e : Env) (s : Storage) :
    ∃ t, MayRefresh e s t ∧ (Borrow.getUserDebt user : Invocation ε DebtPosition) e s =
      orTrap (withInterest e s (chosenDebt e s user)) e t := by
  obtain ⟨t, ht, h⟩ := withPendingInterest_eq (ε := ε) (chosenDebt e s user) e s
  refine ⟨t, ht, ?_⟩
  rw [Borrow.getUserDebt, bind_of_ok (look_ok.mpr ⟨rfl, rfl⟩), bind_of_ok (look_ok.mpr ⟨rfl, rfl⟩)]
  exact h

/-- What `getUserDebtWithRate` reports of a bucket; `none` is a trap. -/
def reportedDebt (e : Env) (s : Storage) (user : Address) (rateType : RateType) :
    Option DebtPosition :=
  withInterest e s (getDebtPosition e s user none rateType)

/-- **What `getUserDebtWithRate` returns.** -/
theorem getUserDebtWithRate_eq {ε : Type} (user : Address) (rateType : RateType) (e : Env)
    (s : Storage) :
    ∃ t, MayRefresh e s t ∧
      (Borrow.getUserDebtWithRate user rateType : Invocation ε DebtPosition) e s =
        orTrap (reportedDebt e s user rateType) e t := by
  obtain ⟨t, ht, h⟩ := withPendingInterest_eq (ε := ε) (getDebtPosition e s user none rateType) e s
  refine ⟨t, ht, ?_⟩
  rw [Borrow.getUserDebtWithRate, bind_of_ok (look_ok.mpr ⟨rfl, rfl⟩)]
  exact h

/-! ## The views of value and health -/

/-- What `getDebtBalance` reports; `none` is a trap. -/
def reportedBalance (e : Env) (s : Storage) (user : Address) : Option ℤ :=
  (withInterest e s (chosenDebt e s user)).map debtBalance

/-- What `getDebtValue` reports; `none` is a trap. -/
def reportedDebtValue (e : Env) (s : Storage) (user : Address) : Option ℤ :=
  (withInterest e s (chosenDebt e s user)).bind (debtValue e s)

/-- What `getHealthFactor` reports; `none` is a trap. -/
def reportedHealth (e : Env) (s : Storage) (user : Address) : Option ℤ :=
  (withInterest e s (chosenDebt e s user)).bind fun position =>
    (collateralValue e s (getCollateralPosition s user)).bind fun cv =>
      (debtValue e s position).bind fun dv =>
        computeHealthFactor s cv dv (0 < debtBalance position)

/-- What `getMaxLiquidatableAmount` reports; `none` is a trap. -/
def maxLiquidatable (e : Env) (s : Storage) (user : Address) : Option ℤ :=
  (withInterest e s (chosenDebt e s user)).bind fun position =>
    if debtBalance position ≤ 0 then some 0
    else
      (collateralValue e s (getCollateralPosition s user)).bind fun cv =>
        (debtValue e s position).bind fun dv =>
          (computeHealthFactor s cv dv true).bind fun health =>
            if health = 0 ∨ HEALTH_FACTOR_SCALE ≤ health then some 0
            else scaled (debtBalance position) (getCloseFactorBps s) 10000

/-- The store a refresh leaves values everything as the store it found. -/
theorem MayRefresh.values (h : MayRefresh e s t) :
    debtValue e t = debtValue e s ∧ collateralValue e t = collateralValue e s ∧
      computeHealthFactor t = computeHealthFactor s ∧ getCloseFactorBps t = getCloseFactorBps s ∧
      getCollateralPosition t = getCollateralPosition s ∧
      getDebtPosition e t = getDebtPosition e s := by
  obtain ⟨_, rfl⟩ := h.store
  exact ⟨rfl, rfl, rfl, rfl, rfl, rfl⟩

/-- **What `getDebtBalance` returns.** -/
theorem getDebtBalance_eq {ε : Type} (user : Address) (e : Env) (s : Storage) :
    ∃ t, MayRefresh e s t ∧ (Views.getDebtBalance user : Invocation ε ℤ) e s =
      orTrap (reportedBalance e s user) e t := by
  obtain ⟨t, ht, h⟩ := getUserDebt_eq (ε := ε) user e s
  refine ⟨t, ht, (bind_congr h).trans ?_⟩
  rw [reportedBalance]
  cases withInterest e s (chosenDebt e s user) <;> rfl

/-- **What `getDebtValue` returns.** -/
theorem getDebtValue_eq {ε : Type} (user : Address) (e : Env) (s : Storage) :
    ∃ t, MayRefresh e s t ∧ (Views.getDebtValue user : Invocation ε ℤ) e s =
      orTrap (reportedDebtValue e s user) e t := by
  obtain ⟨t, ht, h⟩ := getUserDebt_eq (ε := ε) user e s
  refine ⟨t, ht, (bind_congr h).trans (orTrap_bind fun position => ?_)⟩
  rw [bind_of_ok (look_ok.mpr ⟨rfl, rfl⟩), ht.values.1]

/-- **What `getHealthFactor` returns.** -/
theorem getHealthFactor_eq {ε : Type} (user : Address) (e : Env) (s : Storage) :
    ∃ t, MayRefresh e s t ∧ (Views.getHealthFactor user : Invocation ε ℤ) e s =
      orTrap (reportedHealth e s user) e t := by
  obtain ⟨t, ht, h⟩ := getUserDebt_eq (ε := ε) user e s
  obtain ⟨hdebt, hcollateral, hhealth, -⟩ := ht.values
  refine ⟨t, ht, ?_⟩
  rw [Views.getHealthFactor, bind_of_ok (view_ok.mpr ⟨rfl, rfl⟩)]
  refine (bind_congr h).trans (orTrap_bind fun position => ?_)
  rw [bind_of_ok (look_ok.mpr ⟨rfl, rfl⟩), hcollateral]
  refine orTrap_bind fun cv => ?_
  rw [bind_of_ok (look_ok.mpr ⟨rfl, rfl⟩), hdebt]
  refine orTrap_bind fun dv => ?_
  rw [bind_of_ok (view_ok.mpr ⟨rfl, rfl⟩), hhealth]

/-- **What `getMaxLiquidatableAmount` returns.** -/
theorem getMaxLiquidatableAmount_eq {ε : Type} (user : Address) (e : Env) (s : Storage) :
    ∃ t, MayRefresh e s t ∧ (Views.getMaxLiquidatableAmount user : Invocation ε ℤ) e s =
      orTrap (maxLiquidatable e s user) e t := by
  obtain ⟨t, ht, h⟩ := getUserDebt_eq (ε := ε) user e s
  obtain ⟨hdebt, hcollateral, hhealth, hclose, hposition, -⟩ := ht.values
  refine ⟨t, ht, (bind_congr h).trans (orTrap_bind fun position => ?_)⟩
  split
  · rfl
  · rw [bind_of_ok (view_ok.mpr ⟨rfl, rfl⟩), hposition, bind_of_ok (look_ok.mpr ⟨rfl, rfl⟩),
      hcollateral]
    refine orTrap_bind fun cv => ?_
    rw [bind_of_ok (look_ok.mpr ⟨rfl, rfl⟩), hdebt]
    refine orTrap_bind fun dv => ?_
    rw [bind_of_ok (view_ok.mpr ⟨rfl, rfl⟩), hhealth]
    refine orTrap_bind fun health => ?_
    split
    · rfl
    · rw [bind_of_ok (view_ok.mpr ⟨rfl, rfl⟩), hclose]

/-! ## Readings after a refresh -/

/-- **A refresh changes no reading.** -/
theorem MayRefresh.withInterest (h : MayRefresh e s t) (p : DebtPosition) :
    withInterest e t p = withInterest e s p := by
  have hstable : currentStableRate e t = currentStableRate e s := by
    rw [currentStableRate, h.stableStateNow]
    obtain ⟨_, rfl⟩ := h.store
    rfl
  have hrate : positionRate e t p = positionRate e s p := by
    rw [positionRate, hstable]
    obtain ⟨_, rfl⟩ := h.store
    rfl
  have hinterest : interestOf e t p = interestOf e s p := by
    rw [interestOf, hrate]
    obtain ⟨_, rfl⟩ := h.store
    rfl
  rw [Lending.withInterest, hinterest, Lending.withInterest]

theorem MayRefresh.reportedHealth (h : MayRefresh e s t) (user : Address) :
    reportedHealth e t user = reportedHealth e s user := by
  obtain ⟨hdebt, hcollateral, hhealth, -, hposition, hread⟩ := h.values
  simp only [Lending.reportedHealth, chosenDebt, h.withInterest, hdebt, hcollateral, hhealth,
    hposition, hread]

end

end StellarLend.Lending
