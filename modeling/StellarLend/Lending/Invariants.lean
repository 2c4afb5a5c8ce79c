import StellarLend.Lending.Conservation
import StellarLend.Lending.Liquidation
import StellarLend.Lending.Reporting

/-!
# Lending/Invariants — the contract's own checks of its invariants

    views ──► check INV-001, 002, 003, 004, 008, 009 ──► violations

`invariants.rs`: six checks read what the views report of a user, and `assertAllForUser` gathers
what they find.  In a reachable state three of them find nothing (`assertAllForUser_eq`): collateral
is not negative, a debt that is not positive has the health factor of no debt, and a position that
is healthy at a threshold of at most one is covered.  What the others find is read off the health
factor and the debt.
-/

namespace StellarLend.Lending

open Foundations Call

/-! ## The checks -/

structure InvariantViolation where
  invariantId : String
  message : String
  detail : String
  deriving DecidableEq, Repr

def Views.getCollateralBalance {ε : Type} (user : Address) : Invocation ε ℤ :=
  view fun s => (getCollateralPosition s user).amount

section

variable {ε : Type}

def checkInv001Solvency (user : Address) : Invocation ε (Except InvariantViolation Unit) := do
  let healthBps ← Views.getHealthFactor user
  if healthBps < 10000 then
    pure (.error ⟨"INV-001",
      "Solvency: health_factor < 1.0 after action — undercollateralised",
      "health_factor: " ++ toString healthBps⟩)
  else pure (.ok ())

def checkInv002CollateralNonNegative (user : Address) :
    Invocation ε (Except InvariantViolation Unit) := do
  let balance ← Views.getCollateralBalance user
  if balance < 0 then
    pure (.error ⟨"INV-002", "Collateral balance < 0 — impossible state",
      "balance: " ++ toString balance⟩)
  else pure (.ok ())

def checkInv003DebtNonNegative (user : Address) :
    Invocation ε (Except InvariantViolation Unit) := do
  let balance ← Views.getDebtBalance user
  if balance < 0 then
    pure (.error ⟨"INV-003", "Debt balance < 0 — impossible state",
      "balance: " ++ toString balance⟩)
  else pure (.ok ())

def checkInv004LiquidationEligible (user : Address) :
    Invocation ε (Except InvariantViolation Unit) := do
  let paused ← view fun s => isPaused s .liquidation
  if paused then pure (.ok ())
  else do
    let healthBps ← Views.getHealthFactor user
    if healthBps < 10000 then do
      let debt ← Views.getDebtBalance user
      if debt ≤ 0 then
        pure (.error ⟨"INV-004",
          "Liquidation: health_factor < 1.0 but debt == 0 — contradictory state",
          "health_factor: " ++ toString healthBps ++ ", debt: " ++ toString debt⟩)
      else pure (.ok ())
    else pure (.ok ())

def checkInv008HealthFactorConsistency (user : Address) :
    Invocation ε (Except InvariantViolation Unit) := do
  let debt ← Views.getDebtBalance user
  let health ← Views.getHealthFactor user
  if debt = 0 ∧ health < 10000 then
    pure (.error ⟨"INV-008",
      "Health factor: debt == 0 but health_factor < 1.0 — contradictory",
      "debt: " ++ toString debt ++ ", health_factor: " ++ toString health⟩)
  else if 0 < debt ∧ health = 0 then
    pure (.error ⟨"INV-008",
      "Health factor: debt > 0 but health_factor == 0 — arithmetic error",
      "debt: " ++ toString debt ++ ", health_factor: " ++ toString health⟩)
  else pure (.ok ())

def checkInv009CollateralCoversDebt (user : Address) :
    Invocation ε (Except InvariantViolation Unit) := do
  let health ← Views.getHealthFactor user
  if 10000 ≤ health then do
    let colVal ← Views.getCollateralValue user
    let debtVal ← Views.getDebtValue user
    if 0 < debtVal ∧ colVal < debtVal then
      pure (.error ⟨"INV-009",
        "Collateral coverage: collateral_value < debt_value on healthy position",
        "collateral_value: " ++ toString colVal ++ ", debt_value: " ++ toString debtVal⟩)
    else pure (.ok ())
  else pure (.ok ())

/-- `if let Err(v) = … { violations.push(v); }` -/
def violation : Except InvariantViolation Unit → List InvariantViolation
  | .error v => [v]
  | .ok _ => []

theorem violation_ok (u : Unit) : violation (.ok u) = [] := rfl

theorem violation_ite (c : Prop) [Decidable c] (v : InvariantViolation) :
    violation (if c then .error v else .ok ()) = if c then [v] else [] := by
  split <;> rfl

def assertAllForUser (user : Address) : Invocation ε (List InvariantViolation) := do
  let solvency ← checkInv001Solvency user
  let collateral ← checkInv002CollateralNonNegative user
  let debt ← checkInv003DebtNonNegative user
  let eligible ← checkInv004LiquidationEligible user
  let consistent ← checkInv008HealthFactorConsistency user
  let covered ← checkInv009CollateralCoversDebt user
  pure (violation solvency ++ violation collateral ++ violation debt ++ violation eligible ++
    violation consistent ++ violation covered)

end

/-! ## Views one after another -/

section

variable {e : Env} {s t s' : Storage} {user : Address}

theorem MayRefresh.trans {u : Storage} (h : MayRefresh e s t) (h' : MayRefresh e t u) :
    MayRefresh e s u := by
  obtain rfl | rfl := h
  · exact h'
  · have hagain : refreshed e (refreshed e s) = refreshed e s := by
      by_cases hdue : RefreshDue e (refreshed e s)
      · rw [refreshed, if_pos hdue, stableStateNow_refreshed]
        by_cases hdue' : RefreshDue e s
        · rw [refreshed, if_pos hdue']
          rfl
        · rw [refreshed, if_neg hdue'] at hdue
          exact absurd hdue hdue'
      · rw [refreshed, if_neg hdue]
    obtain rfl | rfl := h'
    · exact .inr rfl
    · exact .inr hagain

/-- Whatever was read before, the reading ends with the value, or traps where there is none. -/
def Reads {ε α : Type} (e : Env) (s : Storage) (x : Invocation ε α) (o : Option α) : Prop :=
  ∀ t, MayRefresh e s t → ∃ u, MayRefresh e s u ∧ x e t = orTrap o e u

namespace Reads

variable {ε α β : Type} {x : Invocation ε α} {o : Option α}

theorem pure (a : α) : Reads e s (Pure.pure a : Invocation ε α) (some a) :=
  fun t ht => ⟨t, ht, rfl⟩

/-- **A reading and one that goes on from it.** -/
theorem bind {f : α → Invocation ε β} {a : α} {o : Option β} (h : Reads e s x (some a))
    (hf : Reads e s (f a) o) : Reads e s (x >>= f) o := by
  intro t ht
  obtain ⟨u, hu, hx⟩ := h t ht
  obtain ⟨w, hw, hfa⟩ := hf u hu
  exact ⟨w, hw, (bind_of_ok hx).trans hfa⟩

/-- A reading that traps. -/
theorem bind_none {f : α → Invocation ε β} (h : Reads e s x none) :
    Reads e s (x >>= f) none := by
  intro t ht
  obtain ⟨u, hu, hx⟩ := h t ht
  exact ⟨u, hu, bind_of_trap hx⟩

/-- A reading of a value that a refresh does not change. -/
theorem of_eq {r : Storage → Option α} (h : ∀ t, ∃ u, MayRefresh e t u ∧ x e t = orTrap (r t) e u)
    (hr : ∀ t, MayRefresh e s t → r t = r s) : Reads e s x (r s) := by
  intro t ht
  obtain ⟨u, hu, hx⟩ := h t
  exact ⟨u, ht.trans hu, hr t ht ▸ hx⟩

theorem view {f : Storage → α} (hf : ∀ t, MayRefresh e s t → f t = f s) :
    Reads e s (Call.view f : Invocation ε α) (some (f s)) :=
  fun t ht => ⟨t, ht, congrArg (fun a => Outcome.ok a t) (hf t ht)⟩

theorem getCollateralBalance (user : Address) :
    Reads e s (Views.getCollateralBalance user : Invocation ε ℤ)
      (some (getCollateralPosition s user).amount) :=
  view fun t ht => by rw [ht.values.2.2.2.2.1]

theorem isPaused :
    Reads e s (Call.view fun s => Lending.isPaused s .liquidation : Invocation ε Bool)
    (some (Lending.isPaused s .liquidation)) := by
  refine view fun t ht => ?_
  obtain ⟨_, rfl⟩ := ht.store
  rfl

theorem getHealthFactor (user : Address) :
    Reads e s (Views.getHealthFactor user : Invocation ε ℤ) (reportedHealth e s user) :=
  of_eq (fun t => getHealthFactor_eq user e t) fun _ ht => ht.reportedHealth user

theorem getDebtBalance (user : Address) :
    Reads e s (Views.getDebtBalance user : Invocation ε ℤ) (reportedBalance e s user) := by
  refine of_eq (fun t => getDebtBalance_eq user e t) fun t ht => ?_
  obtain ⟨-, -, -, -, -, hread⟩ := ht.values
  simp only [reportedBalance, chosenDebt, ht.withInterest, hread]

theorem getDebtValue (user : Address) :
    Reads e s (Views.getDebtValue user : Invocation ε ℤ) (reportedDebtValue e s user) := by
  refine of_eq (fun t => getDebtValue_eq user e t) fun t ht => ?_
  obtain ⟨hdebt, -, -, -, -, hread⟩ := ht.values
  simp only [reportedDebtValue, chosenDebt, ht.withInterest, hread, hdebt]

theorem getCollateralValue (user : Address) :
    Reads e s (Views.getCollateralValue user : Invocation ε ℤ)
      (collateralValue e s (getCollateralPosition s user)) := by
  intro t ht
  obtain ⟨-, hcollateral, -, -, hposition, -⟩ := ht.values
  refine ⟨t, ht, ?_⟩
  rw [Views.getCollateralValue, bind_of_ok (look_ok.mpr ⟨rfl, rfl⟩), hcollateral, hposition]

end Reads

/-! ## What the checks find -/

/-- The views' reading of a user: the health factor is computed of the two values. -/
structure Reading (e : Env) (s : Storage) (user : Address) (health debt cv dv : ℤ) : Prop where
  healthRead : reportedHealth e s user = some health
  debtRead : reportedBalance e s user = some debt
  collateralRead : collateralValue e s (getCollateralPosition s user) = some cv
  valueRead : reportedDebtValue e s user = some dv
  computed : computeHealthFactor s cv dv (0 < debt) = some health
  worthless : debt ≤ 0 → dv = 0
  priced : 0 < dv → getOracle s ≠ none

/-- A value of an amount that is not positive, or without an oracle. -/
theorem valueOf_pos {amount v : ℤ} {asset : Address} (h : valueOf e s amount asset = some v)
    (hv : v ≠ 0) : 0 < amount ∧ getOracle s ≠ none := by
  unfold valueOf at h
  split at h
  next => exact absurd (Option.some.inj h).symm hv
  next hpos =>
    split at h
    next => exact absurd (Option.some.inj h).symm hv
    next oracle horacle =>
      rw [horacle]
      exact ⟨not_le.mp hpos, Option.some_ne_none oracle⟩

/-- Where the health factor is read, all else is. -/
theorem reading_of_health {health : ℤ} (h : reportedHealth e s user = some health) :
    ∃ debt cv dv, Reading e s user health debt cv dv := by
  obtain ⟨position, hposition, h'⟩ := Option.bind_eq_some_iff.mp h
  obtain ⟨cv, hcv, h'⟩ := Option.bind_eq_some_iff.mp h'
  obtain ⟨dv, hdv, hhealth⟩ := Option.bind_eq_some_iff.mp h'
  refine ⟨debtBalance position, cv, dv, h, ?_, hcv, ?_, hhealth, fun hdebt => ?_, fun hpos => ?_⟩
  · rw [reportedBalance, hposition, Option.map_some]
  · rw [reportedDebtValue, hposition, Option.bind_some, hdv]
  · by_contra hne
    exact absurd (valueOf_pos hdv hne).1 (not_lt.mpr hdebt)
  · exact (valueOf_pos hdv hpos.ne').2

/-- **Who owes nothing has the health factor of no debt.** -/
theorem Reading.no_debt {health debt cv dv : ℤ} (h : Reading e s user health debt cv dv)
    (hdebt : debt ≤ 0) : health = HEALTH_FACTOR_NO_DEBT := by
  have hcomputed := h.computed
  rw [computeHealthFactor, h.worthless hdebt, if_pos le_rfl,
    if_neg (by simpa using hdebt)] at hcomputed
  exact (Option.some.inj hcomputed).symm

theorem valueOf_nonneg {amount v : ℤ} {asset : Address} (h : valueOf e s amount asset = some v) :
    0 ≤ v := by
  obtain ⟨-, rfl⟩ := valueOf_eq_some.mp h
  simp only [worth]
  split
  next hworth => exact Int.ediv_nonneg (mul_pos hworth.1 hworth.2.1).le (by decide)
  next => exact le_rfl

/-- **A healthy position is covered**, at a threshold of at most one. -/
theorem Reading.covered {health debt cv dv : ℤ} (h : Reading e s user health debt cv dv)
    (ht : ThresholdInRange s) (hhealth : 10000 ≤ health) (hdv : 0 < dv) : dv ≤ cv := by
  have hcv : 0 ≤ cv ∧ cv ≤ I128.MAX :=
    ⟨valueOf_nonneg h.collateralRead, valueOf_le_max h.collateralRead⟩
  have hcomputed := h.computed
  rw [computeHealthFactor_eq (h.priced hdv) ht hcv hdv] at hcomputed
  obtain rfl := Option.some.inj hcomputed
  split at hhealth
  next => exact ((scale_le_healthShare hdv).mp hhealth).trans (ht.le_self hcv.1)
  next => exact absurd hhealth (by decide)

/-! ## What a reachable state keeps -/

theorem Frame.threshold (h : Frame s t) :
    getLiquidationThresholdBps t = getLiquidationThresholdBps s := by
  rw [Frame] at h
  rw [h]
  rfl

theorem RefreshesRate.threshold (h : RefreshesRate s t) :
    getLiquidationThresholdBps t = getLiquidationThresholdBps s := by
  obtain ⟨_, rfl⟩ := h.store
  rfl

/-- Acts leave the threshold alone. -/
theorem chain_threshold {acts : List Act} (h : chain (actStep e) s acts = some t) :
    getLiquidationThresholdBps t = getLiquidationThresholdBps s := by
  rw [← run_of_chain h]
  exact run_invariant (I := fun u => getLiquidationThresholdBps u = getLiquidationThresholdBps s)
    (fun _ _ _ ha hu => (actStep_frame ha).threshold.trans hu) acts rfl

/-- **A call keeps the liquidation threshold in range.** -/
theorem ThresholdInRange.call {tx : Tx} (ht : ThresholdInRange s) (h : step tx s = some s') :
    ThresholdInRange s' := by
  have hsame : getLiquidationThresholdBps s' = getLiquidationThresholdBps s →
      ThresholdInRange s' := fun heq => by
    rw [ThresholdInRange, heq]
    exact ht
  rcases hd : tx.op.direct with _ | a
  · by_cases hg : tx.op.Guards
    · rcases (guards_effect h hg).2 with heq | hrange
      · exact hsame heq
      · exact hrange
    · have hviews : tx.op.Views → ThresholdInRange s' := fun hv =>
        hsame (step_views h hv).threshold
      obtain ⟨e, op⟩ := tx
      cases op <;> first | exact absurd trivial hg | skip
      all_goals
        simp only [step, Op.apply, commit_eq_some] at h
        obtain ⟨r, h⟩ := h
      case borrow | borrowWithRate | repay | repayWithRate | switchRateType | deposit
        | depositCollateral | withdraw => cases hd
      case executeDelegated =>
        exact hsame ((chain_threshold (executeDelegated_ok h).store).trans rfl)
      case executeBorrowCommitment =>
        obtain ⟨_, _, -, -, -, ht', rfl⟩ := (executeBorrowCommitment_ok h).store
        exact hsame (actStep_frame ht').threshold
      case receive =>
        obtain ⟨_, -, ht'⟩ := receive_ok h
        exact hsame (actStep_frame ht').threshold
      case createBorrowCommitment =>
        obtain ⟨_, -, -, rfl⟩ := (createBorrowCommitment_ok h).store
        exact ht
      case cancelBorrowCommitment =>
        obtain ⟨_, -, rfl⟩ := cancelBorrowCommitment_ok h
        exact ht
      case initializeProtocol =>
        obtain ⟨-, rfl⟩ := initializeProtocol_ok h
        exact ht
      case initializeBorrowSettings =>
        obtain rfl := initializeBorrowSettings_store.mp h
        exact ht
      case setStablecoinConfig =>
        obtain rfl := setStablecoinConfig_ok h
        exact ht
      case updateInterestRateModel =>
        obtain ⟨_, _, -, rfl⟩ := (updateInterestRateModel_ok h).store
        exact ht
      case setVariableBorrowRateBps =>
        obtain ⟨_, _, -, rfl⟩ := (setVariableBorrowRateBps_ok h).store
        exact ht
      case getUserDebt | getUserDebtWithRate | getDebtBalance | getDebtValue | getHealthFactor
        | getUserPosition => exact hviews trivial
      case addBadDebt =>
        rw [addBadDebt_ok h]
        exact ht
      case liquidate =>
        obtain ⟨_, _, u, -, -, -, hu, ⟨-, rfl⟩ | ⟨-, rfl⟩⟩ := (liquidate_ok h).store
        · exact hsame hu.threshold
        · exact hsame hu.threshold
      case recoverBadDebt =>
        obtain ⟨-, -, -, rfl⟩ := recoverBadDebt_ok h
        exact ht
  · exact hsame (actStep_frame (step_direct h hd).2.2).threshold

/-- No collateral of a borrow position is negative. -/
def CollateralNonneg (s : Storage) : Prop := ∀ user, 0 ≤ (getCollateralPosition s user).amount

theorem CollateralNonneg.call {tx : Tx} (hs : CollateralNonneg s) (h : step tx s = some s') :
    CollateralNonneg s' :=
  step_invariant (C := fun _ _ _ => True)
    (fun _ _ _ ha _ hs user => (hs user).trans (act_collateral ha user).1)
    (fun _ _ hset hs user => by
      rw [getCollateralPosition_congr hset.positions.collateral]
      exact hs user)
    h (meets_of_forall fun _ _ _ => trivial) hs

/-- **In every reachable state the threshold is in range, and no collateral negative.** -/
theorem Reachable.thresholdInRange (h : Reachable s) : ThresholdInRange s :=
  h.invariant ⟨by decide, by decide⟩ fun _ _ _ hstep ht => ht.call hstep

theorem Reachable.collateralNonneg (h : Reachable s) : CollateralNonneg s :=
  h.invariant (fun _ => le_rfl) fun _ _ _ hstep hs => hs.call hstep

/-! ## What the checks find in a reachable state -/

/-- What is found where the views report a health factor and a debt. -/
def found (health debt : ℤ) : List InvariantViolation :=
  (if health < 10000 then
    [⟨"INV-001", "Solvency: health_factor < 1.0 after action — undercollateralised",
      "health_factor: " ++ toString health⟩]
    else []) ++
  (if debt < 0 then
    [⟨"INV-003", "Debt balance < 0 — impossible state", "balance: " ++ toString debt⟩]
    else []) ++
  (if 0 < debt ∧ health = 0 then
    [⟨"INV-008", "Health factor: debt > 0 but health_factor == 0 — arithmetic error",
      "debt: " ++ toString debt ++ ", health_factor: " ++ toString health⟩]
    else [])

variable {ε : Type} {health debt cv dv : ℤ}

/-- A healthy debt and a debt that is not positive are eligible. -/
theorem Reading.eligible (h : Reading e s user health debt cv dv) :
    Reads e s (checkInv004LiquidationEligible user : Invocation ε _) (some (.ok ())) := by
  rw [checkInv004LiquidationEligible]
  refine Reads.isPaused.bind ?_
  split
  · exact .pure _
  · refine (h.healthRead ▸ Reads.getHealthFactor user).bind ?_
    split
    next hlow =>
      refine (h.debtRead ▸ Reads.getDebtBalance user).bind ?_
      have hpos : ¬ debt ≤ 0 := fun hdebt => by
        rw [h.no_debt hdebt] at hlow
        exact absurd hlow (by decide)
      rw [if_neg hpos]
      exact .pure _
    next => exact .pure _

theorem Reading.coveredDebt (h : Reading e s user health debt cv dv) (ht : ThresholdInRange s) :
    Reads e s (checkInv009CollateralCoversDebt user : Invocation ε _) (some (.ok ())) := by
  rw [checkInv009CollateralCoversDebt]
  refine (h.healthRead ▸ Reads.getHealthFactor user).bind ?_
  split
  next hhigh =>
    refine (h.collateralRead ▸ Reads.getCollateralValue user).bind ?_
    refine (h.valueRead ▸ Reads.getDebtValue user).bind ?_
    rw [if_neg fun hcv => absurd (h.covered ht hhigh hcv.1) (not_le.mpr hcv.2)]
    exact .pure _
  next => exact .pure _

theorem Reading.solvency (h : Reading e s user health debt cv dv) :
    Reads e s (checkInv001Solvency user : Invocation ε _) (some (if health < 10000 then
      .error ⟨"INV-001", "Solvency: health_factor < 1.0 after action — undercollateralised",
        "health_factor: " ++ toString health⟩ else .ok ())) := by
  refine (h.healthRead ▸ Reads.getHealthFactor user).bind ?_
  split <;> exact .pure _

theorem Reading.nonneg (h : Reading e s user health debt cv dv) :
    Reads e s (checkInv003DebtNonNegative user : Invocation ε _) (some (if debt < 0 then
      .error ⟨"INV-003", "Debt balance < 0 — impossible state", "balance: " ++ toString debt⟩
      else .ok ())) := by
  refine (h.debtRead ▸ Reads.getDebtBalance user).bind ?_
  split <;> exact .pure _

/-- Without a debt the health factor is not low. -/
theorem Reading.consistent (h : Reading e s user health debt cv dv) :
    Reads e s (checkInv008HealthFactorConsistency user : Invocation ε _)
      (some (if 0 < debt ∧ health = 0 then
        .error ⟨"INV-008", "Health factor: debt > 0 but health_factor == 0 — arithmetic error",
          "debt: " ++ toString debt ++ ", health_factor: " ++ toString health⟩
        else .ok ())) := by
  refine (h.debtRead ▸ Reads.getDebtBalance user).bind ?_
  refine (h.healthRead ▸ Reads.getHealthFactor user).bind ?_
  have hnone : ¬ (debt = 0 ∧ health < 10000) := fun hlow => by
    rw [h.no_debt hlow.1.le] at hlow
    exact absurd hlow.2 (by decide)
  rw [if_neg hnone]
  split <;> exact .pure _

/-- **What the checks find**, where the views report. -/
theorem Reading.assertAllForUser (h : Reading e s user health debt cv dv) (ht : ThresholdInRange s)
    (hc : CollateralNonneg s) :
    Reads e s (assertAllForUser user : Invocation ε _) (some (found health debt)) := by
  have hcollateral : Reads e s (checkInv002CollateralNonNegative user : Invocation ε _)
      (some (.ok ())) := by
    refine (Reads.getCollateralBalance user).bind ?_
    rw [if_neg (not_lt.mpr (hc user))]
    exact .pure _
  refine h.solvency.bind (hcollateral.bind (h.nonneg.bind (h.eligible.bind
    (h.consistent.bind ((h.coveredDebt ht).bind ?_)))))
  simp only [violation_ite, violation_ok, List.append_nil]
  exact .pure _

/-- **In every reachable state the checks find three violations at most, and which, the health
factor and the debt say**: none finds a negative collateral, a debtor without a debt, or a healthy
position that is not covered.  The checks trap where the health factor does. -/
theorem assertAllForUser_eq (txs : List Tx) (e : Env) (user : Address) :
    ∃ t, MayRefresh e (ledger txs) t ∧
      (assertAllForUser user : Invocation BorrowError _) e (ledger txs) =
        orTrap ((reportedHealth e (ledger txs) user).bind fun health =>
          (reportedBalance e (ledger txs) user).map (found health)) e t := by
  have hreachable : Reachable (ledger txs) := ⟨txs, rfl⟩
  cases hhealth : reportedHealth e (ledger txs) user with
  | none =>
    have htrap : Reads e (ledger txs) (checkInv001Solvency user : Invocation BorrowError _) none :=
      (hhealth ▸ Reads.getHealthFactor user).bind_none
    exact htrap.bind_none _ (.refl e _)
  | some health =>
    obtain ⟨debt, cv, dv, h⟩ := reading_of_health hhealth
    rw [h.debtRead]
    exact h.assertAllForUser hreachable.thresholdInRange hreachable.collateralNonneg _ (.refl e _)

end

/-- A debtor whose debt has no price yet. -/
example : ((assertAllForUser Sample.alice : Invocation BorrowError _) (Sample.envAt 6 [])
    (ledger Sample.twoOddBorrows)).value.map (fun vs => vs.map InvariantViolation.invariantId) =
      some ["INV-001", "INV-008"] := by decide

end StellarLend.Lending
