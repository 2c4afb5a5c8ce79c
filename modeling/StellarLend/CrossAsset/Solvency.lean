import Mathlib.Algebra.BigOperators.Group.List.Basic
import Mathlib.Data.List.Nodup
import StellarLend.CrossAsset.Ranges

/-!
# CrossAsset/Solvency — a withdrawal or a borrow leaves a healthy account

Both are judged by the summary of the account as they leave it, on the provisional write, and
without debt of any value the health factor is the largest there is.  A borrow from an isolated pool
is judged by the collateral in that pool alone: what the account owes elsewhere, and what else that
collateral already backs, does not enter.

The summary counts collateral up to the liquidation threshold, and nothing else holds a borrow to
the collateral factors: one that is admitted stays within them where no collateral of the user has a
threshold above its factor (`Level`).
-/

namespace StellarLend.CrossAsset

open Foundations Call
open Lending (Address)

variable {s s' : Storage} {user : Address} {asset : Option Address} {key : AssetKey} {amount : ℤ}

/-- The account owes nothing in any asset, or its health factor is at least one. -/
def Solvent (now : ℕ) (s : Storage) (user : Address) : Prop :=
  (∀ key, (positionOf s user key).debt = 0) ∨ ∃ summary,
    getUserPositionSummary now s user = some (.ok summary) ∧ 10000 ≤ summary.healthFactor

/-- **A withdrawal leaves a healthy account**, also where no debt has any value. -/
theorem Withdrawn.solvent {now : ℕ} (h : Withdrawn now s user asset amount s') :
    Solvent now s' user := by
  obtain ⟨summary, hsummary, hjudged⟩ := h.judged
  refine .inr ⟨summary, hsummary, ?_⟩
  by_cases hdebt : 0 < summary.totalDebtValue
  · exact hjudged hdebt
  · rw [healthFactor_of_no_debt hsummary (not_lt.mp hdebt)]
    decide

/-- **A borrow from a pool that is not isolated leaves a healthy account.** -/
theorem Borrowed.solvent {now : ℕ} (h : Borrowed now s user asset amount s')
    (hpooled : ∀ config, s.assetConfigs (.fromOption asset) = some config →
      config.isIsolated = false) : Solvent now s' user := by
  obtain ⟨config, hconfig, -, -, -, hgate⟩ := h.admitted
  exact .inr (hgate.pooled (hpooled config hconfig))

/-- The borrows of a call are from pools that are not isolated. -/
def BorrowsPooled (s : Storage) (tx : Tx) : Prop :=
  ∀ user asset amount, tx.op = .borrow user asset amount →
    ∀ config, s.assetConfigs (.fromOption asset) = some config → config.isIsolated = false

/-- **In a run that borrows from pools that are not isolated every borrow and every withdrawal
leaves a healthy account.** -/
theorem borrow_withdraw_solvent {txs ys zs : List Tx} {tx : Tx}
    (h : Meets step BorrowsPooled Storage.empty txs) (htxs : txs = ys ++ tx :: zs)
    (hstep : step tx (ledger ys) = some s')
    (hop : tx.op = .borrow user asset amount ∨ tx.op = .withdraw user asset amount) :
    Solvent tx.env.timestamp s' user := by
  have heffect := step_effect hstep
  obtain hborrow | hwithdraw := hop
  · rw [hborrow] at heffect
    exact Borrowed.solvent heffect (meets_iff.mp h ys tx zs s' htxs hstep user asset amount hborrow)
  · rw [hwithdraw] at heffect
    exact Withdrawn.solvent heffect

namespace Sample

/-- Alice borrows one asset against another. -/
def pooled : List Tx :=
  deploy false ++ [⟨⟨10, [alice]⟩, .deposit alice (some usdc) 1000⟩,
    ⟨⟨11, [alice]⟩, .borrow alice (some wbtc) 700⟩]

/-- Alice borrows against what she has in an isolated pool. -/
def backedTwice : List Tx :=
  deploy true ++ [⟨⟨10, [alice]⟩, .deposit alice (some wbtc) 1000⟩,
    ⟨⟨11, [alice]⟩, .borrow alice (some usdc) 700⟩]

end Sample

theorem borrow_withdraw_solvent_pooled :
    ∃ s', step ⟨⟨11, [Sample.alice]⟩, .borrow Sample.alice (some Sample.wbtc) 700⟩
        (ledger (Sample.pooled.take 4)) = some s' ∧ Solvent 11 s' Sample.alice := by
  have hconfig : ((ledger (Sample.pooled.take 4)).assetConfigs (.token Sample.wbtc)).all
      (·.isIsolated = false) := by decide
  have h : Meets step BorrowsPooled Storage.empty Sample.pooled := by
    refine ⟨fun _ _ _ _ h => ?_, fun _ _ _ _ h => ?_, fun _ _ _ _ h => ?_, fun _ _ _ _ h => ?_,
      fun _ _ _ _ h config hc => ?_, trivial⟩
    · cases h
    · cases h
    · cases h
    · cases h
    · cases h
      rw [show (ledger (Sample.pooled.take 4)).assetConfigs (.token Sample.wbtc) = some config
        from hc] at hconfig
      exact of_decide_eq_true hconfig
  have hrun : (step ⟨⟨11, [Sample.alice]⟩, .borrow Sample.alice (some Sample.wbtc) 700⟩
      (ledger (Sample.pooled.take 4))).isSome := by decide
  obtain ⟨s', hs'⟩ := Option.isSome_iff_exists.mp hrun
  have htxs : Sample.pooled = Sample.pooled.take 4 ++
      ⟨⟨11, [Sample.alice]⟩, .borrow Sample.alice (some Sample.wbtc) 700⟩ :: [] := rfl
  exact ⟨s', hs', borrow_withdraw_solvent h htxs hs' (.inl rfl)⟩

/-- What she has in the isolated pool backs the debt elsewhere, and now backs as much once more. -/
theorem borrow_isolated_insolvent :
    ¬ ∀ txs tx s' user asset amount, step tx (ledger txs) = some s' →
      tx.op = .borrow user asset amount ∨ tx.op = .withdraw user asset amount →
        Solvent tx.env.timestamp s' user := by
  intro hall
  have hrun : (step ⟨⟨12, [Sample.alice]⟩, .borrow Sample.alice (some Sample.wbtc) 700⟩
      (ledger Sample.backedTwice)).map (fun s' =>
        ((positionOf s' Sample.alice (.token Sample.wbtc)).debt,
          (getUserPositionSummary 12 s' Sample.alice).map fun r =>
            r.toOption.map UserPositionSummary.healthFactor)) =
      some (700, some (some 5714)) := by decide
  obtain ⟨s', hs', hafter⟩ := Option.map_eq_some_iff.mp hrun
  obtain ⟨hdebt, hfactor⟩ := Prod.mk.inj hafter
  obtain hnone | ⟨summary, hsummary, hhealthy⟩ := hall _ _ _ _ _ _ hs' (.inl rfl)
  · rw [hnone] at hdebt
    cases hdebt
  · rw [hsummary] at hfactor
    have hlow : summary.healthFactor = 5714 := Option.some.inj (Option.some.inj hfactor)
    rw [hlow] at hhealthy
    exact absurd hhealthy (by decide)

/-! ## Loan to value -/

/-- The value of an amount of an asset; an asset without a configuration has none. -/
def assetValue (s : Storage) (key : AssetKey) (amount : ℤ) : ℤ :=
  match s.assetConfigs key with
  | some config => (amount * config.price).tdiv 10000000
  | none => 0

/-- What the collateral of a user in an asset backs, up to a factor of the asset. -/
def backing (factor : AssetConfig → ℤ) (s : Storage) (user : Address) (key : AssetKey) : ℤ :=
  match s.assetConfigs key with
  | some config =>
    if config.canCollateralize = true then
      (assetValue s key (positionOf s user key).collateral * factor config).tdiv 10000
    else 0
  | none => 0

/-- The value of what a user owes. -/
def debtValue (s : Storage) (user : Address) : ℤ :=
  (s.assetList.map fun key => assetValue s key (positionOf s user key).debt).sum

/-- What all collateral of a user lets borrow. -/
def ltvLimit (s : Storage) (user : Address) : ℤ :=
  (s.assetList.map (backing AssetConfig.collateralFactor s user)).sum

def WithinLtv (s : Storage) (user : Address) : Prop := debtValue s user ≤ ltvLimit s user

/-- No collateral of the user has a threshold above its factor; none of it is negative, and no
interest is on record for the user. -/
structure Level (s : Storage) (user : Address) : Prop where
  threshold : ∀ key config, s.assetConfigs key = some config → config.canCollateralize = true →
    (positionOf s user key).collateral ≠ 0 → config.liquidationThreshold ≤ config.collateralFactor
  held : ∀ key, 0 ≤ (positionOf s user key).collateral
  interest : ∀ key, (positionOf s user key).accruedInterest = 0

/-! ### The assets that the sums run over -/

/-- Every configured asset is listed, once. -/
structure Listed (s : Storage) : Prop where
  nodup : s.assetList.Nodup
  configured : ∀ key config, s.assetConfigs key = some config → key ∈ s.assetList

theorem Listed.empty : Listed .empty :=
  ⟨.nil, fun _ config hconfig => absurd hconfig.symm (Option.some_ne_none config)⟩

theorem mem_listAsset {k key : AssetKey} :
    k ∈ (listAsset key s).assetList ↔ k = key ∨ k ∈ s.assetList := by
  unfold listAsset
  split
  · rename_i hmem
    refine ⟨.inr, ?_⟩
    rintro (rfl | hk)
    · exact hmem
    · exact hk
  · rw [List.mem_append, List.mem_singleton, or_comm]

theorem nodup_listAsset (h : s.assetList.Nodup) (key : AssetKey) :
    (listAsset key s).assetList.Nodup := by
  unfold listAsset
  split
  · exact h
  · rename_i hnew
    exact h.append (List.nodup_singleton key) (List.disjoint_singleton.mpr hnew)

/-- Every step keeps the list. -/
theorem Listed.step {tx : Tx} (hs : Listed s) (hstep : step tx s = some s') : Listed s' := by
  obtain ⟨hconfigs, hlist⟩ | ⟨key, config, hwritten⟩ := step_configs hstep
  · refine ⟨hlist ▸ hs.nodup, fun k c hc => ?_⟩
    rw [hlist]
    exact hs.configured k c (hconfigs ▸ hc)
  · -- an asset that is configured is on the list, so listing it again changes nothing
    have hlist : s'.assetList = (listAsset key s).assetList := by
      obtain ⟨hlist, -⟩ | ⟨old, hold, hlist, -⟩ := hwritten.written
      · exact hlist
      · rw [hlist, listAsset, if_pos (hs.configured key old hold)]
    refine ⟨hlist ▸ nodup_listAsset hs.nodup key, fun k c hc => ?_⟩
    rw [hlist, mem_listAsset]
    rw [hwritten.configs] at hc
    obtain ⟨hk, -⟩ | ⟨-, hold⟩ := update_eq_some.mp hc
    · exact .inl hk
    · exact .inr (hs.configured k c hold)

theorem Reachable.listed (h : Reachable s) : Listed s := by
  obtain ⟨txs, rfl⟩ := h
  exact run_invariant (fun _ _ _ hstep hs => hs.step hstep) txs .empty

/-! ### What the summary adds up -/

/-- Where nothing is held, nothing is backed. -/
theorem backing_of_empty {factor : AssetConfig → ℤ}
    (h : ∀ config, s.assetConfigs key = some config → (positionOf s user key).collateral = 0) :
    backing factor s user key = 0 := by
  unfold backing assetValue
  cases hconfig : s.assetConfigs key with
  | none => rfl
  | some config =>
    dsimp only
    rw [h config hconfig, zero_mul, Int.zero_tdiv, zero_mul, Int.zero_tdiv, ite_self]

theorem assetValue_of_empty {amount : ℤ}
    (h : ∀ config, s.assetConfigs key = some config → amount = 0) :
    assetValue s key amount = 0 := by
  unfold assetValue
  cases hconfig : s.assetConfigs key with
  | none => rfl
  | some config =>
    dsimp only
    rw [h config hconfig, zero_mul, Int.zero_tdiv]

/-- **The two weighted sums of the summary**, where no position consists of interest alone: what the
collateral backs up to the liquidation thresholds, and the value of the debt. -/
theorem summaryLoop_sums {now : ℕ} {assets : List AssetKey} {sums sums' : ValueSums}
    (hinterest : ∀ key, (positionOf s user key).accruedInterest = 0)
    (h : summaryLoop now s.assetConfigs
      (fun key => getUserAssetPosition now s user key.toOption) assets sums = some (.ok sums')) :
    sums'.weightedCollateralValue = sums.weightedCollateralValue +
        (assets.map (backing AssetConfig.liquidationThreshold s user)).sum ∧
      sums'.weightedDebtValue = sums.weightedDebtValue +
        (assets.map fun key => assetValue s key (positionOf s user key).debt).sum := by
  refine summaryLoop_induction (C := fun assets sums =>
    sums'.weightedCollateralValue = sums.weightedCollateralValue +
        (assets.map (backing AssetConfig.liquidationThreshold s user)).sum ∧
      sums'.weightedDebtValue = sums.weightedDebtValue +
        (assets.map fun key => assetValue s key (positionOf s user key).debt).sum)
    h ⟨(add_zero _).symm, (add_zero _).symm⟩ ?_ ?_
  · intro key rest sums hempty ih
    simp only [getUserAssetPosition_collateral, getUserAssetPosition_debtPrincipal,
      AssetKey.fromOption_toOption] at hempty
    have howed : ∀ config, s.assetConfigs key = some config → (positionOf s user key).debt = 0 := by
      intro config hconfig
      rw [AssetPosition.debt, (hempty config hconfig).2, hinterest key, add_zero]
    rw [List.map_cons, List.sum_cons, List.map_cons, List.sum_cons,
      backing_of_empty fun config hconfig => (hempty config hconfig).1,
      assetValue_of_empty howed, zero_add, zero_add]
    exact ih
  · intro key rest config sums t hconfig hadd ih
    obtain ⟨value, hvalue, hweighted, hdebt⟩ := ValueSums.add_ok hadd
    rw [getUserAssetPosition_debt, AssetKey.fromOption_toOption] at hdebt
    rw [getUserAssetPosition_collateral, AssetKey.fromOption_toOption] at hvalue
    obtain ⟨scaled, hscaled, rfl⟩ := Option.map_eq_some_iff.mp hvalue
    obtain ⟨-, rfl⟩ := I128.checkedMul_eq_some.mp hscaled
    have hbacked : t.weightedCollateralValue = sums.weightedCollateralValue +
        backing AssetConfig.liquidationThreshold s user key := by
      rw [backing, assetValue, hconfig]
      dsimp only
      obtain ⟨hcan, part, hpart, hsum⟩ | ⟨hcan, hsum⟩ := ValueSums.addWeighted_ok hweighted
      · obtain ⟨product, hproduct, rfl⟩ := Option.map_eq_some_iff.mp hpart
        obtain ⟨-, rfl⟩ := I128.checkedMul_eq_some.mp hproduct
        rw [if_pos hcan]
        exact hsum
      · rw [if_neg (by simp [hcan]), hsum, add_zero]
    have howed : t.weightedDebtValue = sums.weightedDebtValue +
        assetValue s key (positionOf s user key).debt := by
      rw [assetValue, hconfig]
      exact hdebt
    rw [List.map_cons, List.sum_cons, List.map_cons, List.sum_cons, ← add_assoc, ← add_assoc,
      ← hbacked, ← howed]
    exact ih

/-- A health factor of at least one covers the debt. -/
theorem ValueSums.debt_le {sums : ValueSums} {factor : ℤ} (h : sums.healthFactor = some factor)
    (hhealthy : 10000 ≤ factor) (hheld : 0 ≤ sums.weightedCollateralValue) :
    sums.weightedDebtValue ≤ sums.weightedCollateralValue := by
  unfold healthFactor at h
  by_cases hpos : 0 < sums.weightedDebtValue
  · rw [if_pos hpos] at h
    obtain ⟨scaled, hscaled, rfl⟩ := Option.map_eq_some_iff.mp h
    obtain ⟨-, rfl⟩ := I128.checkedMul_eq_some.mp hscaled
    have hcovered := (le_tdiv_iff (by decide) hpos).mp hhealthy
    omega
  · exact (not_lt.mp hpos).trans hheld

/-- What collateral backs is not negative, and with a higher factor no less. -/
theorem backing_nonneg (hconfigs : ConfigsInRange s)
    (hheld : 0 ≤ (positionOf s user key).collateral) :
    0 ≤ backing AssetConfig.liquidationThreshold s user key := by
  unfold backing assetValue
  cases hconfig : s.assetConfigs key with
  | none => exact le_rfl
  | some config =>
    dsimp only
    have hrange := hconfigs key config hconfig
    have hvalue := Int.tdiv_nonneg (mul_nonneg hheld hrange.price.le) (b := 10000000) (by decide)
    split
    · exact Int.tdiv_nonneg (mul_nonneg hvalue hrange.threshold.1) (by decide)
    · exact le_rfl

/-- Up to the thresholds a level account backs no more than up to the factors. -/
theorem Level.backing_le (h : Level s user) (hconfigs : ConfigsInRange s) (key : AssetKey) :
    backing AssetConfig.liquidationThreshold s user key ≤
      backing AssetConfig.collateralFactor s user key := by
  by_cases hempty : (positionOf s user key).collateral = 0
  · rw [backing_of_empty fun _ _ => hempty, backing_of_empty fun _ _ => hempty]
  · unfold backing assetValue
    cases hconfig : s.assetConfigs key with
    | none => exact le_rfl
    | some config =>
      dsimp only
      have hrange := hconfigs key config hconfig
      have hvalue := Int.tdiv_nonneg (mul_nonneg (h.held key) hrange.price.le) (b := 10000000)
        (by decide)
      split
      · next hcan =>
        have hle := h.threshold key config hconfig hcan hempty
        exact Int.tdiv_le_tdiv (by decide) (mul_le_mul_of_nonneg_left hle hvalue)
      · exact le_rfl

/-- **A level account of health factor at least one is within the collateral factors.** -/
theorem Level.withinLtv {now : ℕ} {summary : UserPositionSummary} (h : Level s user)
    (hconfigs : ConfigsInRange s)
    (hsummary : getUserPositionSummary now s user = some (.ok summary))
    (hhealthy : 10000 ≤ summary.healthFactor) : WithinLtv s user := by
  obtain ⟨sums, hloop, hmade⟩ := getUserPositionSummary_ok hsummary
  obtain ⟨hcollateral, hdebt⟩ := summaryLoop_sums h.interest hloop
  have hheld : 0 ≤ sums.weightedCollateralValue := by
    rw [hcollateral, zero_add]
    refine List.sum_nonneg fun value hvalue => ?_
    obtain ⟨key, -, rfl⟩ := List.mem_map.mp hvalue
    exact backing_nonneg hconfigs (h.held key)
  calc
    debtValue s user = sums.weightedDebtValue := by rw [hdebt, zero_add, debtValue]
    _ ≤ sums.weightedCollateralValue :=
      ValueSums.debt_le (ValueSums.summary_ok hmade).1 hhealthy hheld
    _ = (s.assetList.map (backing AssetConfig.liquidationThreshold s user)).sum := by
      rw [hcollateral, zero_add]
    _ ≤ ltvLimit s user := List.sum_le_sum fun key _ => h.backing_le hconfigs key

/-! ### Borrows -/

/-- A borrow leaves the collateral, the interest and the configurations alone. -/
theorem Borrowed.level {now : ℕ} (h : Borrowed now s user asset amount s') (hs : Level s user) :
    Level s' user := by
  have hkept : ∀ key, (positionOf s' user key).collateral = (positionOf s user key).collateral ∧
      (positionOf s' user key).accruedInterest = (positionOf s user key).accruedInterest := by
    intro key
    by_cases heq : key = .fromOption asset
    · rw [heq, h.booked.positionOf_self]
      exact ⟨rfl, rfl⟩
    · rw [h.booked.positionOf_of_ne fun hkey => heq hkey.2]
      exact ⟨rfl, rfl⟩
  refine ⟨fun key config hconfig hcan hne => ?_, fun key => ?_, fun key => ?_⟩
  · rw [h.booked.configs] at hconfig
    rw [(hkept key).1] at hne
    exact hs.threshold key config hconfig hcan hne
  · rw [(hkept key).1]
    exact hs.held key
  · rw [(hkept key).2]
    exact hs.interest key

/-- Where no amount was negative an account is level if its thresholds are. -/
theorem Level.of_sound (hs : PositionsSound s)
    (hthreshold : ∀ key ∈ s.assetList, ∀ config, s.assetConfigs key = some config →
      config.liquidationThreshold ≤ config.collateralFactor) (hlisted : Listed s) : Level s user :=
  ⟨fun key config hconfig _ _ =>
      hthreshold key (hlisted.configured key config hconfig) config hconfig,
    fun key => (hs user key).collateral, fun key => (hs user key).interest⟩

/-- The account of a borrow from a pool that is not isolated is level. -/
def BorrowsLevel (s : Storage) (tx : Tx) : Prop :=
  ∀ user asset amount config, tx.op = .borrow user asset amount →
    s.assetConfigs (.fromOption asset) = some config → config.isIsolated = false → Level s user

/-- **In a run whose borrows are from level accounts every borrow from a pool that is not isolated
leaves the account within the collateral factors.** -/
theorem borrow_within_ltv {txs ys zs : List Tx} {tx : Tx} {config : AssetConfig}
    (h : Meets step BorrowsLevel Storage.empty txs) (htxs : txs = ys ++ tx :: zs)
    (hstep : step tx (ledger ys) = some s') (hop : tx.op = .borrow user asset amount)
    (hconfig : (ledger ys).assetConfigs (.fromOption asset) = some config)
    (hpooled : config.isIsolated = false) : WithinLtv s' user := by
  have hlevel := meets_iff.mp h ys tx zs s' htxs hstep user asset amount config hop hconfig hpooled
  have hconfigs : ConfigsInRange s' := (Reachable.configsInRange ⟨ys, rfl⟩).step hstep
  have heffect := step_effect hstep
  rw [hop] at heffect
  obtain ⟨own, hown, -, -, -, hgate⟩ := Borrowed.admitted heffect
  obtain rfl : config = own := Option.some.inj (hconfig.symm.trans hown)
  obtain ⟨summary, hsummary, hhealthy⟩ := hgate.pooled hpooled
  exact (Borrowed.level heffect hlevel).withinLtv hconfigs hsummary hhealthy

namespace Sample

/-- Alice deposits 1000, which lets her borrow 750 and is liquidated above 800. -/
def collateralised : List Tx :=
  deploy false ++ [⟨⟨10, [alice]⟩, .deposit alice (some usdc) 1000⟩]

def borrowing (amount : ℤ) : Tx := ⟨⟨11, [alice]⟩, .borrow alice (some wbtc) amount⟩

/-- Both assets with the threshold at the factor. -/
def levelled : List Tx :=
  deploy false ++ [usdc, wbtc].map (fun token =>
    ⟨⟨4, [admin]⟩, .updateAssetConfig (some token) none (some 7500) none none none none⟩) ++
    [⟨⟨10, [alice]⟩, .deposit alice (some usdc) 1000⟩]

end Sample

theorem borrow_within_ltv_levelled :
    ∃ s', step (Sample.borrowing 750) (ledger Sample.levelled) = some s' ∧
      WithinLtv s' Sample.alice := by
  have hamounts : Meets step AmountNonneg Storage.empty Sample.levelled := by
    refine meets_of_forall fun tx htx _ user key amount hnamed => ?_
    have hnonneg : ∀ tx ∈ Sample.levelled, tx.op.named.all fun named => 0 ≤ named.2.2 := by decide
    have hall := hnonneg tx htx
    rw [hnamed] at hall
    exact of_decide_eq_true hall
  have hthresholds : ∀ key ∈ (ledger Sample.levelled).assetList,
      ((ledger Sample.levelled).assetConfigs key).all
        fun config => config.liquidationThreshold ≤ config.collateralFactor := by decide
  have hlevel : Level (ledger Sample.levelled) Sample.alice := by
    refine .of_sound (positionsSound_of_amountNonneg hamounts) (fun key hkey config hconfig => ?_)
      (Reachable.listed ⟨_, rfl⟩)
    have hall := hthresholds key hkey
    rw [hconfig] at hall
    exact of_decide_eq_true hall
  have hpooled : ((ledger Sample.levelled).assetConfigs (.token Sample.wbtc)).map
      AssetConfig.isIsolated = some false := by decide
  obtain ⟨config, hconfig, hisolated⟩ := Option.map_eq_some_iff.mp hpooled
  have hmeets : Meets step BorrowsLevel Storage.empty
      (Sample.levelled ++ [Sample.borrowing 750]) := by
    refine meets_append.mpr ⟨meets_of_forall fun tx htx s => ?_, fun _ => ?_, trivial⟩
    · intro user asset amount config hop
      have hborrow : ∀ tx ∈ Sample.levelled, tx.op ≠ .borrow user asset amount := by
        simp [Sample.levelled, Sample.deploy]
      exact absurd hop (hborrow tx htx)
    · rintro _ _ _ _ ⟨⟩ - -
      exact hlevel
  have hrun : (step (Sample.borrowing 750) (ledger Sample.levelled)).isSome := by decide
  obtain ⟨s', hs'⟩ := Option.isSome_iff_exists.mp hrun
  exact ⟨s', hs', borrow_within_ltv hmeets rfl hs' rfl hconfig hisolated⟩

/-- Of 1000 at a factor of 75 percent she borrows 800. -/
theorem not_borrow_within_ltv :
    ¬ ∀ txs tx s' user asset amount, step tx (ledger txs) = some s' →
      tx.op = .borrow user asset amount →
        (∀ key config, (ledger txs).assetConfigs key = some config →
          config.collateralFactor ≤ config.liquidationThreshold) →
        (∀ config, (ledger txs).assetConfigs (.fromOption asset) = some config →
          config.isIsolated = false) → WithinLtv s' user := by
  intro hall
  have hrun : (step (Sample.borrowing 800) (ledger Sample.collateralised)).map (fun s' =>
      (debtValue s' Sample.alice, ltvLimit s' Sample.alice)) = some (800, 750) := by decide
  obtain ⟨s', hs', hafter⟩ := Option.map_eq_some_iff.mp hrun
  obtain ⟨hdebt, hlimit⟩ := Prod.mk.inj hafter
  have hlist : (ledger Sample.collateralised).assetList =
      [.token Sample.usdc, .token Sample.wbtc] := by decide
  have hfactors : ∀ key ∈ [AssetKey.token Sample.usdc, .token Sample.wbtc],
      ((ledger Sample.collateralised).assetConfigs key).all
        (fun config => config.collateralFactor ≤ config.liquidationThreshold) := by decide
  have hpooled : ((ledger Sample.collateralised).assetConfigs (.token Sample.wbtc)).all
      (·.isIsolated = false) := by decide
  have hwithin := hall _ _ s' _ _ _ hs' rfl (fun key config hconfig => ?_) fun config hconfig => ?_
  · rw [WithinLtv, hdebt, hlimit] at hwithin
    exact absurd hwithin (by decide)
  · have hkey := (Reachable.listed ⟨_, rfl⟩).configured key config hconfig
    rw [hlist] at hkey
    have hfactor := hfactors key hkey
    rw [hconfig] at hfactor
    exact of_decide_eq_true hfactor
  · rw [show (ledger Sample.collateralised).assetConfigs (.token Sample.wbtc) = some config
      from hconfig] at hpooled
    exact of_decide_eq_true hpooled

end StellarLend.CrossAsset
