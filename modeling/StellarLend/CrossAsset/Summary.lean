import StellarLend.CrossAsset.Storage

/-!
# CrossAsset/Summary — what a user has and owes, across all assets

    positions ──values at the asset's price──▸ four sums ──▸ health factor, borrow capacity

The summary is a function of the ledger time, the list and the configurations of the assets, and the
positions of the user; the totals of the assets do not enter.  It fails at the first position whose
price is stale, and traps where a sum leaves the range.
-/

namespace StellarLend.CrossAsset

open Foundations Call
open Lending (Address)

/-- The sums the summary adds up. -/
structure ValueSums where
  totalCollateralValue : ℤ
  weightedCollateralValue : ℤ
  totalDebtValue : ℤ
  weightedDebtValue : ℤ
  deriving DecidableEq, Repr

/-- The value of an amount at a price of seven decimals. -/
def valueAt (amount price : ℤ) : Option ℤ :=
  (I128.checkedMul amount price).map (Int.tdiv · 10000000)

/-- A part of a value, in units of 1/10000. -/
def partOf (value factor : ℤ) : Option ℤ := (I128.checkedMul value factor).map (Int.tdiv · 10000)

/-- Collateral counts up to the liquidation threshold, and only where the asset may back debt. -/
def ValueSums.addWeighted (config : AssetConfig) (collateralValue : ℤ) (sums : ValueSums) :
    Option ℤ :=
  if config.canCollateralize = true then
    (partOf collateralValue config.liquidationThreshold).bind fun weighted =>
      I128.checkedAdd sums.weightedCollateralValue weighted
  else some sums.weightedCollateralValue

/-- One asset's position, added to the sums. -/
def ValueSums.add (config : AssetConfig) (position : AssetPosition) (sums : ValueSums) :
    Option ValueSums := do
  let collateralValue ← valueAt position.collateral config.price
  let totalCollateralValue ← I128.checkedAdd sums.totalCollateralValue collateralValue
  let weightedCollateralValue ← sums.addWeighted config collateralValue
  let totalDebt ← I128.checkedAdd position.debtPrincipal position.accruedInterest
  let debtValue ← valueAt totalDebt config.price
  let totalDebtValue ← I128.checkedAdd sums.totalDebtValue debtValue
  let weightedDebtValue ← I128.checkedAdd sums.weightedDebtValue debtValue
  some ⟨totalCollateralValue, weightedCollateralValue, totalDebtValue, weightedDebtValue⟩

/-- Whether a price is more than an hour old. -/
def isPriceStale (now : ℕ) (config : AssetConfig) : Prop :=
  config.priceUpdatedAt < now ∧ 3600 < now - config.priceUpdatedAt

instance (now : ℕ) (config : AssetConfig) : Decidable (isPriceStale now config) :=
  inferInstanceAs (Decidable (_ ∧ _))

/-- The loop over the assets.  `none` is a trap. -/
def summaryLoop (now : ℕ) (configs : AssetKey → Option AssetConfig)
    (position : AssetKey → AssetPosition) :
    List AssetKey → ValueSums → Option (Except CrossAssetError ValueSums)
  | [], sums => some (.ok sums)
  | key :: rest, sums =>
    match configs key with
    | none => summaryLoop now configs position rest sums
    | some config =>
      if (position key).collateral = 0 ∧ (position key).debtPrincipal = 0 then
        summaryLoop now configs position rest sums
      else if isPriceStale now config then some (.error .priceStale)
      else
        (sums.add config (position key)).bind fun sums =>
          summaryLoop now configs position rest sums

/-- Without debt the health factor is the largest there is. -/
def ValueSums.healthFactor (sums : ValueSums) : Option ℤ :=
  if 0 < sums.weightedDebtValue then
    (I128.checkedMul sums.weightedCollateralValue 10000).map (Int.tdiv · sums.weightedDebtValue)
  else some I128.MAX

def ValueSums.borrowCapacity (sums : ValueSums) : Option ℤ :=
  if sums.weightedDebtValue < sums.weightedCollateralValue then
    I128.checkedSub sums.weightedCollateralValue sums.weightedDebtValue
  else some 0

/-- What the summary makes of the sums. -/
def ValueSums.summary (sums : ValueSums) : Option UserPositionSummary := do
  let healthFactor ← sums.healthFactor
  let borrowCapacity ← sums.borrowCapacity
  some {
    totalCollateralValue := sums.totalCollateralValue
    weightedCollateralValue := sums.weightedCollateralValue
    totalDebtValue := sums.totalDebtValue
    weightedDebtValue := sums.weightedDebtValue
    healthFactor := healthFactor
    isLiquidatable := healthFactor < 10000 && 0 < sums.weightedDebtValue
    borrowCapacity := borrowCapacity }

def getUserPositionSummary (now : ℕ) (s : Storage) (user : Address) :
    Option (Except CrossAssetError UserPositionSummary) :=
  (summaryLoop now s.assetConfigs (fun key => getUserAssetPosition now s user key.toOption)
    s.assetList ⟨0, 0, 0, 0⟩).bind fun
    | .ok sums => sums.summary.map .ok
    | .error err => some (.error err)

/-! ## What goes into the sums, and what comes out -/

/-- What an asset adds to the two weighted sums. -/
theorem ValueSums.add_ok {config : AssetConfig} {p : AssetPosition} {sums t : ValueSums}
    (h : sums.add config p = some t) :
    ∃ value, valueAt p.collateral config.price = some value ∧
      sums.addWeighted config value = some t.weightedCollateralValue ∧
      t.weightedDebtValue = sums.weightedDebtValue + (p.debt * config.price).tdiv 10000000 := by
  simp only [add, Option.bind_eq_bind, Option.bind_eq_some_iff, I128.checkedAdd_eq_some,
    Option.some.injEq] at h
  obtain ⟨value, hvalue, _, -, weighted, hweighted, total, ⟨-, rfl⟩, debt, hdebt, _, -, _,
    ⟨-, rfl⟩, rfl⟩ := h
  obtain ⟨scaled, hscaled, rfl⟩ := Option.map_eq_some_iff.mp hdebt
  obtain ⟨-, rfl⟩ := I128.checkedMul_eq_some.mp hscaled
  exact ⟨value, hvalue, hweighted, rfl⟩

theorem ValueSums.addWeighted_ok {config : AssetConfig} {value weighted : ℤ} {sums : ValueSums}
    (h : sums.addWeighted config value = some weighted) :
    config.canCollateralize = true ∧ (∃ part, partOf value config.liquidationThreshold =
        some part ∧ weighted = sums.weightedCollateralValue + part) ∨
      config.canCollateralize = false ∧ weighted = sums.weightedCollateralValue := by
  unfold addWeighted at h
  split at h
  · next hcan =>
    obtain ⟨part, hpart, hsum⟩ := Option.bind_eq_some_iff.mp h
    exact .inl ⟨hcan, part, hpart, (I128.checkedAdd_eq_some.mp hsum).2.symm⟩
  · next hcan => exact .inr ⟨Bool.not_eq_true _ ▸ hcan, (Option.some.inj h).symm⟩

theorem ValueSums.summary_ok {sums : ValueSums} {summary : UserPositionSummary}
    (h : sums.summary = some summary) : sums.healthFactor = some summary.healthFactor ∧
      sums.borrowCapacity = some summary.borrowCapacity := by
  simp only [ValueSums.summary, Option.bind_eq_bind, Option.bind_eq_some_iff,
    Option.some.injEq] at h
  obtain ⟨factor, hfactor, capacity, hcapacity, rfl⟩ := h
  exact ⟨hfactor, hcapacity⟩

/-- The loop that comes through: an asset is passed over, where it is not configured or the position
in it is empty, or its position is added. -/
theorem summaryLoop_induction {now : ℕ} {configs : AssetKey → Option AssetConfig}
    {position : AssetKey → AssetPosition} {C : List AssetKey → ValueSums → Prop}
    {assets : List AssetKey} {sums sums' : ValueSums}
    (h : summaryLoop now configs position assets sums = some (.ok sums')) (hnil : C [] sums')
    (hskip : ∀ key rest sums, (∀ config, configs key = some config →
      (position key).collateral = 0 ∧ (position key).debtPrincipal = 0) →
        C rest sums → C (key :: rest) sums)
    (hadd : ∀ key rest config sums t, configs key = some config →
      sums.add config (position key) = some t → C rest t → C (key :: rest) sums) :
    C assets sums := by
  induction assets generalizing sums with
  | nil =>
    obtain rfl := Except.ok.inj (Option.some.inj h)
    exact hnil
  | cons key rest ih =>
    rw [summaryLoop] at h
    cases hconfig : configs key with
    | none =>
      rw [hconfig] at h
      refine hskip key rest sums (fun config hsome => ?_) (ih h)
      rw [hconfig] at hsome
      cases hsome
    | some config =>
      rw [hconfig] at h
      dsimp only at h
      by_cases hempty : (position key).collateral = 0 ∧ (position key).debtPrincipal = 0
      · rw [if_pos hempty] at h
        exact hskip key rest sums (fun _ _ => hempty) (ih h)
      · rw [if_neg hempty] at h
        by_cases hstale : isPriceStale now config
        · rw [if_pos hstale, Option.some.injEq] at h
          cases h
        · rw [if_neg hstale] at h
          obtain ⟨t, ht, h⟩ := Option.bind_eq_some_iff.mp h
          exact hadd key rest config sums t hconfig ht (ih h)

/-! ## Debt counts in full

Debt is weighted with nothing, so the two debt sums are one. -/

theorem ValueSums.add_debt {config : AssetConfig} {position : AssetPosition}
    {sums sums' : ValueSums} (h : sums.add config position = some sums')
    (heq : sums.weightedDebtValue = sums.totalDebtValue) :
    sums'.weightedDebtValue = sums'.totalDebtValue := by
  simp only [add, Option.bind_eq_bind, Option.bind_eq_some_iff, I128.checkedAdd_eq_some] at h
  obtain ⟨_, -, _, -, _, -, _, -, value, -, total, ⟨-, htotal⟩, weighted, ⟨-, hweighted⟩, h⟩ := h
  obtain rfl := Option.some.inj h
  change weighted = total
  rw [← hweighted, ← htotal, heq]

theorem summaryLoop_debt {now : ℕ} {configs : AssetKey → Option AssetConfig}
    {position : AssetKey → AssetPosition} {assets : List AssetKey} {sums sums' : ValueSums}
    (h : summaryLoop now configs position assets sums = some (.ok sums'))
    (heq : sums.weightedDebtValue = sums.totalDebtValue) :
    sums'.weightedDebtValue = sums'.totalDebtValue := by
  refine summaryLoop_induction (C := fun _ sums =>
    sums.weightedDebtValue = sums.totalDebtValue → sums'.weightedDebtValue = sums'.totalDebtValue)
    h id (fun _ _ _ _ ih => ih) (fun _ _ _ _ _ _ hadd ih heq => ?_) heq
  exact ih (ValueSums.add_debt hadd heq)

/-- What a summary comes from. -/
theorem getUserPositionSummary_ok {now : ℕ} {s : Storage} {user : Address}
    {summary : UserPositionSummary} (h : getUserPositionSummary now s user = some (.ok summary)) :
    ∃ sums : ValueSums, summaryLoop now s.assetConfigs
        (fun key => getUserAssetPosition now s user key.toOption) s.assetList ⟨0, 0, 0, 0⟩ =
          some (.ok sums) ∧
      sums.summary = some summary := by
  obtain ⟨r, hloop, h⟩ := Option.bind_eq_some_iff.mp h
  cases r with
  | error err => cases h
  | ok sums =>
    obtain ⟨summary', hsummary, heq⟩ := Option.map_eq_some_iff.mp h
    obtain rfl := Except.ok.inj heq
    exact ⟨sums, hloop, hsummary⟩

/-- **Without debt of any value the health factor is the largest there is.** -/
theorem healthFactor_of_no_debt {now : ℕ} {s : Storage} {user : Address}
    {summary : UserPositionSummary} (h : getUserPositionSummary now s user = some (.ok summary))
    (hdebt : summary.totalDebtValue ≤ 0) : summary.healthFactor = I128.MAX := by
  obtain ⟨sums, hloop, hsummary⟩ := getUserPositionSummary_ok h
  have heq := summaryLoop_debt hloop rfl
  simp only [ValueSums.summary, Option.bind_eq_bind, Option.bind_eq_some_iff] at hsummary
  obtain ⟨factor, hfactor, _, -, hsummary⟩ := hsummary
  obtain rfl := Option.some.inj hsummary
  rw [ValueSums.healthFactor, if_neg (by rw [heq]; exact not_lt.mpr hdebt)] at hfactor
  exact (Option.some.inj hfactor).symm

end StellarLend.CrossAsset
