import StellarLend.CrossAsset.Ranges

/-!
# CrossAsset/Isolation — what an isolated pool backs

    borrow in the pool      ──▸  the pool's debt against the pool's collateral
    withdrawal from it      ──▸  the summary, over all assets
    borrow of another asset ──▸  the summary, over all assets

The flag is read by the first of the three alone.  A withdrawal is let through by what the user has
elsewhere, and a borrow elsewhere by what the user has in the pool; the collateral in the pool does
nothing elsewhere only where it has no weight in the summary.
-/

namespace StellarLend.CrossAsset

open Foundations Call
open Lending (Address)

variable {e : Env} {s s' : Storage} {user : Address} {asset : Option Address} {key : AssetKey}
  {amount : ℤ} {now : ℕ}

/-! ## Configurations in range -/

/-- A factor that is not negative and a price that is positive. -/
structure AssetConfig.Valid (c : AssetConfig) : Prop where
  factor : 0 ≤ c.collateralFactor
  price : 0 < c.price

def ConfigsValid (s : Storage) : Prop :=
  ∀ key config, s.assetConfigs key = some config → config.Valid

theorem ConfigsInRange.valid (h : ConfigsInRange s) : ConfigsValid s := fun key config hconfig =>
  have hrange := h key config hconfig
  ⟨hrange.factor.1, hrange.price⟩

/-! ## The pool's own limit -/

/-- What an isolated pool lends is at most the part of the collateral that its factor allows. -/
theorem maxPoolDebt_le {collateral factor : ℤ} (hc : 0 ≤ collateral) (hf : 0 ≤ factor) :
    maxPoolDebt collateral factor ≤ collateral * factor / 10000 := by
  have hprod : 0 ≤ collateral * factor := mul_nonneg hc hf
  unfold maxPoolDebt
  by_cases hholds : I128.Holds (collateral * factor)
  · rw [I128.checkedMul_eq_some.mpr ⟨hholds, rfl⟩, Option.getD_some]
    cases hquot : I128.checkedDiv (collateral * factor) 10000 with
    | none => exact Int.ediv_nonneg hprod (by decide)
    | some q =>
      obtain ⟨-, -, rfl⟩ := I128.checkedDiv_eq_some.mp hquot
      rw [Option.getD_some, Int.tdiv_eq_ediv_of_nonneg hprod]
  · have hnone : I128.checkedMul collateral factor = none := by
      rw [Option.eq_none_iff_forall_ne_some]
      exact fun q hq => hholds (I128.checkedMul_eq_some.mp hq).1
    rw [hnone]
    exact Int.ediv_nonneg hprod (by decide)

/-! ## The summary without some collateral -/

/-- The store without the user's collateral in an asset. -/
def withoutCollateral (user : Address) (key : AssetKey) (s : Storage) : Storage :=
  { s with
    userPositions := Function.update s.userPositions ⟨user, key⟩
      ((s.userPositions ⟨user, key⟩).map fun p => { p with collateral := 0 }) }

theorem getUserAssetPosition_withoutCollateral (now : ℕ) (s : Storage) (user : Address)
    (key key' : AssetKey) :
    getUserAssetPosition now (withoutCollateral user key s) user key'.toOption =
      if key' = key then { getUserAssetPosition now s user key'.toOption with collateral := 0 }
      else getUserAssetPosition now s user key'.toOption := by
  unfold getUserAssetPosition withoutCollateral UserAssetKey.new
  dsimp only
  rw [AssetKey.fromOption_toOption]
  by_cases hkey : key' = key
  · rw [if_pos hkey, hkey, Function.update_self]
    cases s.userPositions ⟨user, key⟩ <;> rfl
  · have hne : (⟨user, key'⟩ : UserAssetKey) ≠ ⟨user, key⟩ := fun h =>
      hkey (congrArg UserAssetKey.asset h)
    rw [if_neg hkey, Function.update_of_ne hne]

/-- The weight of some collateral in the summary is not positive. -/
def Weightless (config : AssetConfig) (collateral : ℤ) : Prop :=
  config.canCollateralize = true → ∀ value weighted, valueAt collateral config.price = some value →
    partOf value config.liquidationThreshold = some weighted → weighted ≤ 0

/-- A position, and the same without collateral that had no weight. -/
def Lighter (config : AssetConfig) (p p₀ : AssetPosition) : Prop :=
  p₀ = p ∨ p₀ = { p with collateral := 0 } ∧ 0 ≤ p.accruedInterest ∧ 0 < config.price ∧
    Weightless config p.collateral

/-- No more collateral, and no less debt. -/
structure ValueSums.Below (sums sums₀ : ValueSums) : Prop where
  collateral : sums.weightedCollateralValue ≤ sums₀.weightedCollateralValue
  debt : sums₀.weightedDebtValue ≤ sums.weightedDebtValue

/-- Collateral without weight adds nothing to the weighted collateral. -/
theorem Weightless.addWeighted_le {config : AssetConfig} {collateral value weighted : ℤ}
    {sums : ValueSums} (h : Weightless config collateral)
    (hvalue : valueAt collateral config.price = some value)
    (hadd : sums.addWeighted config value = some weighted) :
    weighted ≤ sums.weightedCollateralValue := by
  obtain ⟨hcan, part, hpart, rfl⟩ | ⟨-, rfl⟩ := ValueSums.addWeighted_ok hadd
  · have := h hcan value part hvalue hpart
    omega
  · exact le_rfl

/-- No collateral has no weight. -/
theorem valueAt_zero {price value : ℤ} (h : valueAt 0 price = some value) : value = 0 := by
  obtain ⟨scaled, hscaled, rfl⟩ := Option.map_eq_some_iff.mp h
  obtain ⟨-, rfl⟩ := I128.checkedMul_eq_some.mp hscaled
  rw [zero_mul]
  rfl

theorem partOf_zero {factor part : ℤ} (h : partOf 0 factor = some part) : part = 0 := by
  obtain ⟨scaled, hscaled, rfl⟩ := Option.map_eq_some_iff.mp h
  obtain ⟨-, rfl⟩ := I128.checkedMul_eq_some.mp hscaled
  rw [zero_mul]
  rfl

/-- Adding a position, and the lighter one. -/
theorem ValueSums.Below.add {config : AssetConfig} {p p₀ : AssetPosition}
    {sums sums₀ t t₀ : ValueSums} (h : sums.Below sums₀) (hp : Lighter config p p₀)
    (hadd : sums.add config p = some t) (hadd₀ : sums₀.add config p₀ = some t₀) : t.Below t₀ := by
  obtain ⟨value, hvalue, hweighted, hdebt⟩ := add_ok hadd
  obtain ⟨value₀, hvalue₀, hweighted₀, hdebt₀⟩ := add_ok hadd₀
  have hle := h.debt
  have hge := h.collateral
  obtain rfl | ⟨rfl, -, -, hweightless⟩ := hp
  · obtain rfl : value = value₀ := Option.some.inj (hvalue.symm.trans hvalue₀)
    refine ⟨?_, by omega⟩
    obtain ⟨hcan, part, hpart, hsum⟩ | ⟨hcan, hsum⟩ := addWeighted_ok hweighted <;>
      obtain ⟨hcan₀, part₀, hpart₀, hsum₀⟩ | ⟨hcan₀, hsum₀⟩ := addWeighted_ok hweighted₀
    · obtain rfl : part = part₀ := Option.some.inj (hpart.symm.trans hpart₀)
      omega
    · rw [hcan] at hcan₀
      cases hcan₀
    · rw [hcan] at hcan₀
      cases hcan₀
    · omega
  · refine ⟨?_, by rw [hdebt, hdebt₀]; exact Int.add_le_add_right hle _⟩
    have hfirst := hweightless.addWeighted_le hvalue hweighted
    obtain rfl := valueAt_zero hvalue₀
    obtain ⟨-, part₀, hpart₀, hsum₀⟩ | ⟨-, hsum₀⟩ := addWeighted_ok hweighted₀
    · have := partOf_zero hpart₀
      omega
    · omega

/-- **The loop over the assets, with and without collateral that has no weight.**  The lighter
position may be empty where the other is not, and then its interest is passed over too. -/
theorem summaryLoop_below {configs : AssetKey → Option AssetConfig}
    {position position₀ : AssetKey → AssetPosition}
    (hlighter : ∀ key config, configs key = some config →
      Lighter config (position key) (position₀ key)) {assets : List AssetKey}
    {sums sums₀ t t₀ : ValueSums} (hbelow : sums.Below sums₀)
    (h : summaryLoop now configs position assets sums = some (.ok t))
    (h₀ : summaryLoop now configs position₀ assets sums₀ = some (.ok t₀)) : t.Below t₀ := by
  induction assets generalizing sums sums₀ with
  | nil =>
    obtain rfl := Except.ok.inj (Option.some.inj h)
    obtain rfl := Except.ok.inj (Option.some.inj h₀)
    exact hbelow
  | cons key rest ih =>
    rw [summaryLoop] at h h₀
    cases hconfig : configs key with
    | none =>
      rw [hconfig] at h h₀
      exact ih hbelow h h₀
    | some config =>
      rw [hconfig] at h h₀
      dsimp only at h h₀
      have hp := hlighter key config hconfig
      have hprincipal : (position₀ key).debtPrincipal = (position key).debtPrincipal := by
        obtain heq | ⟨heq, -⟩ := hp <;> rw [heq]
      by_cases hempty : (position key).collateral = 0 ∧ (position key).debtPrincipal = 0
      · have hempty₀ : (position₀ key).collateral = 0 ∧ (position₀ key).debtPrincipal = 0 := by
          refine ⟨?_, hprincipal.trans hempty.2⟩
          obtain heq | ⟨heq, -⟩ := hp
          · rw [heq]
            exact hempty.1
          · rw [heq]
        rw [if_pos hempty] at h
        rw [if_pos hempty₀] at h₀
        exact ih hbelow h h₀
      · rw [if_neg hempty] at h
        by_cases hstale : isPriceStale now config
        · rw [if_pos hstale, Option.some.injEq] at h
          cases h
        · rw [if_neg hstale] at h
          obtain ⟨sums', hadd, h⟩ := Option.bind_eq_some_iff.mp h
          by_cases hempty₀ : (position₀ key).collateral = 0 ∧ (position₀ key).debtPrincipal = 0
          · rw [if_pos hempty₀] at h₀
            refine ih ?_ h h₀
            obtain heq | ⟨-, hinterest, hprice, hweightless⟩ := hp
            · exact absurd (heq ▸ hempty₀) hempty
            · obtain ⟨value, hvalue, hweighted, hdebt⟩ := ValueSums.add_ok hadd
              have hfirst := hweightless.addWeighted_le hvalue hweighted
              have hnonneg : 0 ≤ ((position key).debt * config.price).tdiv 10000000 := by
                refine Int.tdiv_nonneg (mul_nonneg ?_ hprice.le) (by decide)
                rw [AssetPosition.debt, ← hprincipal, hempty₀.2, zero_add]
                exact hinterest
              have hle := hbelow.debt
              exact ⟨hfirst.trans hbelow.collateral, by omega⟩
          · rw [if_neg hempty₀, if_neg hstale] at h₀
            obtain ⟨sums₀', hadd₀, h₀⟩ := Option.bind_eq_some_iff.mp h₀
            exact ih (hbelow.add hp hadd hadd₀) h h₀

/-! ## What it makes of the two -/

/-- A health factor of at least one is not lowered by more collateral and less debt. -/
theorem ValueSums.Below.healthFactor_le {sums sums₀ : ValueSums} (h : sums.Below sums₀)
    {factor factor₀ : ℤ} (hfactor : sums.healthFactor = some factor)
    (hfactor₀ : sums₀.healthFactor = some factor₀) (hhealthy : 10000 ≤ factor) :
    factor ≤ factor₀ := by
  have hcollateral := h.collateral
  have hdebt := h.debt
  unfold healthFactor at hfactor hfactor₀
  by_cases hpos : 0 < sums.weightedDebtValue
  · rw [if_pos hpos] at hfactor
    obtain ⟨scaled, hscaled, rfl⟩ := Option.map_eq_some_iff.mp hfactor
    obtain ⟨hholds, rfl⟩ := I128.checkedMul_eq_some.mp hscaled
    by_cases hpos₀ : 0 < sums₀.weightedDebtValue
    · rw [if_pos hpos₀] at hfactor₀
      obtain ⟨scaled₀, hscaled₀, rfl⟩ := Option.map_eq_some_iff.mp hfactor₀
      obtain ⟨-, rfl⟩ := I128.checkedMul_eq_some.mp hscaled₀
      refine (le_tdiv_iff (by omega) hpos₀).mpr ?_
      have hcovered := (le_tdiv_iff (by omega) hpos).mp
        (le_refl ((sums.weightedCollateralValue * 10000).tdiv sums.weightedDebtValue))
      calc
        _ ≤ (sums.weightedCollateralValue * 10000).tdiv sums.weightedDebtValue *
            sums.weightedDebtValue := Int.mul_le_mul_of_nonneg_left hdebt (by omega)
        _ ≤ sums.weightedCollateralValue * 10000 := hcovered
        _ ≤ sums₀.weightedCollateralValue * 10000 := by omega
    · rw [if_neg hpos₀, Option.some.injEq] at hfactor₀
      rw [← hfactor₀]
      exact (I128.holds_tdiv hholds hpos).2
  · rw [if_neg hpos, Option.some.injEq] at hfactor
    rw [if_neg (by omega), Option.some.injEq] at hfactor₀
    rw [← hfactor, ← hfactor₀]

theorem ValueSums.Below.borrowCapacity_le {sums sums₀ : ValueSums} (h : sums.Below sums₀)
    {capacity capacity₀ : ℤ} (hcapacity : sums.borrowCapacity = some capacity)
    (hcapacity₀ : sums₀.borrowCapacity = some capacity₀) : capacity ≤ capacity₀ := by
  have hcollateral := h.collateral
  have hdebt := h.debt
  unfold borrowCapacity at hcapacity hcapacity₀
  split at hcapacity <;> split at hcapacity₀ <;>
    simp only [I128.checkedSub_eq_some, Option.some.injEq] at hcapacity hcapacity₀ <;> omega

/-- The user's collateral in an asset raises neither the health factor nor the borrow capacity. -/
def NotRaised (now : ℕ) (s : Storage) (user : Address) (key : AssetKey) : Prop :=
  ∀ summary summary₀, getUserPositionSummary now s user = some (.ok summary) →
    getUserPositionSummary now (withoutCollateral user key s) user = some (.ok summary₀) →
    summary.healthFactor ≤ summary₀.healthFactor ∧
      summary.borrowCapacity ≤ summary₀.borrowCapacity

/-- **Collateral without weight raises nothing** for an account of health factor at least one. -/
theorem notRaised_of_weightless (hvalid : ConfigsValid s) (hinterest : InterestNonneg s)
    (hhealthy : ∀ summary, getUserPositionSummary now s user = some (.ok summary) →
      10000 ≤ summary.healthFactor)
    (hweightless : ∀ config, s.assetConfigs key = some config →
      Weightless config (positionOf s user key).collateral) : NotRaised now s user key := by
  intro summary summary₀ h h₀
  obtain ⟨sums, hloop, hsummary⟩ := getUserPositionSummary_ok h
  obtain ⟨sums₀, hloop₀, hsummary₀⟩ := getUserPositionSummary_ok h₀
  have hlighter : ∀ key' config, s.assetConfigs key' = some config →
      Lighter config (getUserAssetPosition now s user key'.toOption)
        (getUserAssetPosition now (withoutCollateral user key s) user key'.toOption) := by
    intro key' config hconfig
    rw [getUserAssetPosition_withoutCollateral]
    split
    · next hkey =>
      refine .inr ⟨rfl, ?_, (hvalid key' config hconfig).price, ?_⟩
      · rw [getUserAssetPosition_accruedInterest]
        exact hinterest _ _
      · rw [getUserAssetPosition_collateral, AssetKey.fromOption_toOption, hkey]
        exact hweightless config (hkey ▸ hconfig)
    · exact .inl rfl
  have hbelow := summaryLoop_below hlighter ⟨le_rfl, le_rfl⟩ hloop hloop₀
  obtain ⟨hfactor, hcapacity⟩ := ValueSums.summary_ok hsummary
  obtain ⟨hfactor₀, hcapacity₀⟩ := ValueSums.summary_ok hsummary₀
  exact ⟨hbelow.healthFactor_le hfactor hfactor₀ (hhealthy summary h),
    hbelow.borrowCapacity_le hcapacity hcapacity₀⟩

/-! ## Isolation -/

/-- What isolation promises of a call that succeeded.  A borrow or a withdrawal of an isolated asset
leaves the pool's debt backed by the pool's collateral; where a borrow is admitted by the summary,
what the user has in an isolated pool of another asset raised nothing in it. -/
structure IsolationKept (s : Storage) (tx : Tx) (s' : Storage) : Prop where
  backed : ∀ user asset amount config,
    tx.op = .borrow user asset amount ∨ tx.op = .withdraw user asset amount →
    s.assetConfigs (.fromOption asset) = some config → config.isIsolated = true →
      (positionOf s' user (.fromOption asset)).debt ≤
        (positionOf s' user (.fromOption asset)).collateral * config.collateralFactor / 10000
  apart : ∀ user asset amount own key config, tx.op = .borrow user asset amount →
    s.assetConfigs (.fromOption asset) = some own → own.isIsolated = false →
    s.assetConfigs key = some config → config.isIsolated = true →
      NotRaised tx.env.timestamp s' user key

/-- The condition on a call.  In an isolated pool nobody borrows on negative collateral, and nobody
withdraws more than the pool's own limit leaves for the debt; where the summary decides, nobody
borrows who has collateral of weight in an isolated pool. -/
structure IsolationRespected (s : Storage) (tx : Tx) : Prop where
  borrow : ∀ user asset amount config, tx.op = .borrow user asset amount →
    s.assetConfigs (.fromOption asset) = some config → config.isIsolated = true →
      0 ≤ (positionOf s user (.fromOption asset)).collateral
  withdraw : ∀ user asset amount config, tx.op = .withdraw user asset amount →
    s.assetConfigs (.fromOption asset) = some config → config.isIsolated = true →
      (positionOf s user (.fromOption asset)).debt ≤
        maxPoolDebt ((positionOf s user (.fromOption asset)).collateral - amount)
          config.collateralFactor
  elsewhere : ∀ user asset amount own key config, tx.op = .borrow user asset amount →
    s.assetConfigs (.fromOption asset) = some own → own.isIsolated = false →
    s.assetConfigs key = some config → config.isIsolated = true →
      Weightless config (positionOf s user key).collateral

def Op.borrowsOrWithdraws : Op → Bool
  | .borrow .. | .withdraw .. => true
  | _ => false

/-- The condition is about borrows and withdrawals. -/
theorem IsolationRespected.of_other {tx : Tx} (h : tx.op.borrowsOrWithdraws = false) :
    IsolationRespected s tx := by
  refine ⟨fun user asset amount _ hop => ?_, fun user asset amount _ hop => ?_,
    fun user asset amount _ _ _ hop => ?_⟩ <;>
  · rw [hop] at h
    cases h

theorem Borrowed.backed {config : AssetConfig} (h : Borrowed now s user asset amount s')
    (hvalid : config.Valid) (hconfig : s.assetConfigs (.fromOption asset) = some config)
    (hisolated : config.isIsolated = true)
    (hnonneg : 0 ≤ (positionOf s user (.fromOption asset)).collateral) :
    (positionOf s' user (.fromOption asset)).debt ≤
      (positionOf s' user (.fromOption asset)).collateral * config.collateralFactor / 10000 := by
  obtain ⟨config', hconfig', -, -, -, hgate⟩ := h.admitted
  obtain rfl : config = config' := Option.some.inj (hconfig.symm.trans hconfig')
  refine (hgate.isolated hisolated).trans (maxPoolDebt_le ?_ hvalid.factor)
  rw [h.booked.positionOf_self]
  exact hnonneg

theorem Withdrawn.backed {config : AssetConfig} (h : Withdrawn now s user asset amount s')
    (hvalid : config.Valid)
    (hlimit : (positionOf s user (.fromOption asset)).debt ≤
      maxPoolDebt ((positionOf s user (.fromOption asset)).collateral - amount)
        config.collateralFactor) :
    (positionOf s' user (.fromOption asset)).debt ≤
      (positionOf s' user (.fromOption asset)).collateral * config.collateralFactor / 10000 := by
  rw [h.booked.positionOf_self]
  exact hlimit.trans (maxPoolDebt_le (sub_nonneg.mpr h.covered) hvalid.factor)

theorem Borrowed.apart {own config : AssetConfig} (h : Borrowed now s user asset amount s')
    (hvalid : ConfigsValid s') (hinterest : InterestNonneg s')
    (hown : s.assetConfigs (.fromOption asset) = some own) (hpooled : own.isIsolated = false)
    (hconfig : s.assetConfigs key = some config) (hisolated : config.isIsolated = true)
    (hweightless : Weightless config (positionOf s user key).collateral) :
    NotRaised now s' user key := by
  obtain ⟨own', hown', -, -, -, hgate⟩ := h.admitted
  obtain rfl : own = own' := Option.some.inj (hown.symm.trans hown')
  obtain ⟨summary, hsummary, hhealthy⟩ := hgate.pooled hpooled
  refine notRaised_of_weightless hvalid hinterest (fun summary' hsummary' => ?_)
    fun config' hconfig' => ?_
  · obtain rfl : summary = summary' :=
      Except.ok.inj (Option.some.inj (hsummary.symm.trans hsummary'))
    exact hhealthy
  · rw [h.booked.configs] at hconfig'
    obtain rfl : config = config' := Option.some.inj (hconfig.symm.trans hconfig')
    have hne : key ≠ .fromOption asset := by
      rintro rfl
      obtain rfl : own = config := Option.some.inj (hown.symm.trans hconfig)
      rw [hpooled] at hisolated
      cases hisolated
    rw [h.booked.positionOf_of_ne fun heq => hne heq.2]
    exact hweightless

/-- **In a run that respects the isolated pools, every call keeps the promise of isolation.** -/
theorem isolation_kept {txs ys zs : List Tx} {tx : Tx}
    (h : Meets step IsolationRespected Storage.empty txs) (htxs : txs = ys ++ tx :: zs)
    (hstep : step tx (ledger ys) = some s') : IsolationKept (ledger ys) tx s' := by
  have hreachable : Reachable (ledger ys) := ⟨ys, rfl⟩
  have hvalid : ConfigsValid (ledger ys) := hreachable.configsInRange.valid
  have hinterest : InterestNonneg (ledger ys) := hreachable.interestNonneg
  have hcondition := meets_iff.mp h ys tx zs s' htxs hstep
  have heffect := step_effect hstep
  refine ⟨fun user asset amount config hop hconfig hisolated => ?_,
    fun user asset amount own key config hop hown hpooled hconfig hisolated => ?_⟩
  · obtain hop | hop := hop
    · rw [hop] at heffect
      exact Borrowed.backed heffect (hvalid _ _ hconfig) hconfig hisolated
        (hcondition.borrow user asset amount config hop hconfig hisolated)
    · rw [hop] at heffect
      exact Withdrawn.backed heffect (hvalid _ _ hconfig)
        (hcondition.withdraw user asset amount config hop hconfig hisolated)
  · rw [hop] at heffect
    have hvalid' : ConfigsValid s' := (hreachable.configsInRange.step hstep).valid
    exact Borrowed.apart heffect hvalid' (hinterest.step hstep) hown hpooled hconfig hisolated
      (hcondition.elsewhere user asset amount own key config hop hown hpooled hconfig hisolated)

namespace Sample

/-- Alice deposits in an isolated pool and in another. -/
def twoPools : List Tx :=
  deploy true ++ [⟨⟨10, [alice]⟩, .deposit alice (some wbtc) 1000⟩,
    ⟨⟨11, [alice]⟩, .deposit alice (some usdc) 1000⟩]

/-- She borrows in the isolated pool what its limit allows. -/
def borrowIsolated : Tx := ⟨⟨12, [alice]⟩, .borrow alice (some wbtc) 700⟩

/-- She takes most of her collateral out of the isolated pool. -/
def withdrawIsolated : Tx := ⟨⟨13, [alice]⟩, .withdraw alice (some wbtc) 900⟩

end Sample

theorem isolation_kept_borrowIsolated :
    ∃ s', step Sample.borrowIsolated (ledger Sample.twoPools) = some s' ∧
      IsolationKept (ledger Sample.twoPools) Sample.borrowIsolated s' := by
  have hnonneg : 0 ≤ (positionOf (ledger Sample.twoPools) Sample.alice
      (.token Sample.wbtc)).collateral := by decide
  have hisolated : ((ledger Sample.twoPools).assetConfigs (.token Sample.wbtc)).all
      (·.isIsolated = true) := by decide
  have h : Meets step IsolationRespected Storage.empty
      (Sample.twoPools ++ [Sample.borrowIsolated]) := by
    refine meets_append.mpr ⟨meets_of_forall fun x hx s => ?_, fun _ => ⟨?_, ?_, ?_⟩, trivial⟩
    · have hother : x.op.borrowsOrWithdraws = false := by
        revert x
        decide
      exact .of_other hother
    · rintro _ _ _ _ ⟨⟩ - -
      exact hnonneg
    · rintro _ _ _ _ ⟨⟩
    · rintro _ _ _ own _ _ ⟨⟩ hown hpooled - -
      have hget : (ledger Sample.twoPools).assetConfigs (.token Sample.wbtc) = some own := hown
      rw [hget, Option.all_some, hpooled] at hisolated
      cases hisolated
  have hrun : (step Sample.borrowIsolated (ledger Sample.twoPools)).isSome := by decide
  obtain ⟨s', hs'⟩ := Option.isSome_iff_exists.mp hrun
  exact ⟨s', hs', isolation_kept h rfl hs'⟩

/-- What she has in the other pool lets her, and the isolated pool is left with 100 for 700. -/
theorem isolation_broken_withdrawIsolated :
    ¬ ∀ txs tx s', step tx (ledger txs) = some s' →
      (∀ key config, (ledger txs).assetConfigs key = some config →
        s'.assetConfigs key = some config) → IsolationKept (ledger txs) tx s' := by
  intro hall
  have hrun : (step Sample.withdrawIsolated
      (ledger (Sample.twoPools ++ [Sample.borrowIsolated]))).map (fun s' =>
        ((positionOf s' Sample.alice (.token Sample.wbtc)).debt,
          (positionOf s' Sample.alice (.token Sample.wbtc)).collateral)) = some (700, 100) := by
    decide
  have hconfig : ((ledger (Sample.twoPools ++ [Sample.borrowIsolated])).assetConfigs
      (.token Sample.wbtc)).map (fun c => (c.isIsolated, c.collateralFactor)) =
      some (true, 7500) := by decide
  obtain ⟨s', hs', hafter⟩ := Option.map_eq_some_iff.mp hrun
  obtain ⟨hdebt, hcollateral⟩ := Prod.mk.inj hafter
  obtain ⟨config, hget, hvalues⟩ := Option.map_eq_some_iff.mp hconfig
  obtain ⟨hisolated, hfactor⟩ := Prod.mk.inj hvalues
  have hsame : s'.assetConfigs =
      (ledger (Sample.twoPools ++ [Sample.borrowIsolated])).assetConfigs :=
    Written.configs (Booked.toWritten (Withdrawn.booked (step_effect hs')))
  have hkept := hall _ _ s' hs' (fun _ _ h => hsame ▸ h)
  have hbacked := hkept.backed Sample.alice (some Sample.wbtc) 900 config (.inr rfl) hget hisolated
  rw [show AssetKey.fromOption (some Sample.wbtc) = .token Sample.wbtc from rfl, hdebt,
    hcollateral, hfactor] at hbacked
  exact absurd hbacked (by decide)

end StellarLend.CrossAsset
