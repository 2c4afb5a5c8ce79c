import StellarLend.CrossAsset.Ranges
import Mathlib.Algebra.Order.Field.Rat
import Mathlib.Tactic.FieldSimp

/-!
# CrossAsset/Liquidation — what a liquidator takes for what it repays

    asked for  ──(10000 − incentive) / 10000──▸  seized  ≤  what there is
    repaid     ─────────────────────────────────────────  ≤  what is owed

The two amounts are the liquidator's to name, and nothing compares them: no price is read, and the
incentive takes off what is asked for instead of adding to what is repaid.  What is repaid is taken
off the principal alone, and not at all where the two assets are one.  `liquidation_fair_iff` says
of every liquidation of every run whether it is fair.
-/

namespace StellarLend.CrossAsset

open Foundations Call
open Lending (Address)

variable {s s' : Storage} {user liquidator : Address} {debtAsset collateralAsset : Option Address}
  {debtToRepay collateralToReceive actual : ℤ} {now : ℕ}

/-! ## A fair liquidation -/

/-- The value of an amount at a price of seven decimals, unrounded. -/
def worth (amount price : ℤ) : ℚ := amount * price / 10 ^ 7

/-- The incentive of an asset, in units of 1/10000. -/
def AssetConfig.incentive (c : AssetConfig) : ℤ := c.liquidationThreshold - c.collateralFactor

/-- What is seized is worth no more than what is repaid with the incentive, the debt falls by what
is repaid, and nothing falls short. -/
structure FairLiquidation (s : Storage) (user : Address)
    (debtAsset collateralAsset : Option Address) (debtToRepay : ℤ) (s' : Storage) : Prop where
  worth : ∀ debtConfig collateralConfig,
    s.assetConfigs (.fromOption debtAsset) = some debtConfig →
    s.assetConfigs (.fromOption collateralAsset) = some collateralConfig →
      worth ((positionOf s user (.fromOption collateralAsset)).collateral -
          (positionOf s' user (.fromOption collateralAsset)).collateral) collateralConfig.price ≤
        worth debtToRepay debtConfig.price * (10000 + collateralConfig.incentive) / 10000
  principal : 0 ≤ (positionOf s' user (.fromOption debtAsset)).debtPrincipal
  interest : 0 ≤ (positionOf s' user (.fromOption debtAsset)).accruedInterest
  debt : (positionOf s' user (.fromOption debtAsset)).debt =
    (positionOf s user (.fromOption debtAsset)).debt - debtToRepay
  collateral : 0 ≤ (positionOf s' user (.fromOption collateralAsset)).collateral

/-- The collateral that a repaid debt buys, with the incentive. -/
def fairCollateral (debtConfig collateralConfig : AssetConfig) (debtToRepay : ℤ) : ℤ :=
  debtToRepay * debtConfig.price * (10000 + collateralConfig.incentive) /
    (10000 * collateralConfig.price)

/-- A liquidation across two assets that repays principal, and asks for no more than that buys. -/
structure Moderate (s : Storage) (user : Address) (debtAsset collateralAsset : Option Address)
    (debtToRepay collateralToReceive : ℤ) : Prop where
  distinct : debtAsset ≠ collateralAsset
  principal : debtToRepay ≤ (positionOf s user (.fromOption debtAsset)).debtPrincipal
  asked : ∀ debtConfig collateralConfig,
    s.assetConfigs (.fromOption debtAsset) = some debtConfig →
    s.assetConfigs (.fromOption collateralAsset) = some collateralConfig →
      collateralToReceive * (10000 - collateralConfig.incentive) <
        (fairCollateral debtConfig collateralConfig debtToRepay + 1) * 10000

/-! ## What is seized is worth -/

theorem worth_le_iff {debtConfig collateralConfig : AssetConfig} {seized : ℤ}
    (hprice : 0 < collateralConfig.price) :
    worth seized collateralConfig.price ≤
        worth debtToRepay debtConfig.price * (10000 + collateralConfig.incentive) / 10000 ↔
      seized ≤ fairCollateral debtConfig collateralConfig debtToRepay := by
  rw [fairCollateral, Int.le_ediv_iff_mul_le (by omega)]
  have hscaled : worth seized collateralConfig.price ≤
        worth debtToRepay debtConfig.price * (10000 + collateralConfig.incentive) / 10000 ↔
      (seized : ℚ) * (10000 * collateralConfig.price) ≤
        debtToRepay * debtConfig.price * (10000 + collateralConfig.incentive) := by
    unfold worth
    constructor <;> intro h <;> linarith
  rw [hscaled]
  exact_mod_cast Iff.rfl

/-- What is taken of the amount asked for. -/
theorem actualCollateral_eq {config : AssetConfig}
    (h : actualCollateral config collateralToReceive = some actual) :
    actual = (collateralToReceive * (10000 - config.incentive)).tdiv 10000 := by
  simp only [actualCollateral, partOf, Option.bind_eq_bind, Option.bind_eq_some_iff,
    Option.map_eq_some_iff, I128.checkedSub_eq_some, I128.checkedMul_eq_some, and_assoc,
    exists_and_left, exists_eq_left'] at h
  obtain ⟨-, -, -, rfl⟩ := h
  rfl

/-- **What is seized is worth what is repaid exactly if no more is asked for than that buys.** -/
theorem actualCollateral_fair_iff {debtConfig collateralConfig : AssetConfig}
    (hdebt : debtConfig.InRange) (hcollateral : collateralConfig.InRange) (hpos : 0 < debtToRepay)
    (h : actualCollateral collateralConfig collateralToReceive = some actual) :
    actual ≤ fairCollateral debtConfig collateralConfig debtToRepay ↔
      collateralToReceive * (10000 - collateralConfig.incentive) <
        (fairCollateral debtConfig collateralConfig debtToRepay + 1) * 10000 := by
  have hrate : 0 ≤ 10000 + collateralConfig.incentive := by
    have hlow := hcollateral.threshold.1
    have hhigh := hcollateral.factor.2
    unfold AssetConfig.incentive
    omega
  have hbuys : 0 ≤ fairCollateral debtConfig collateralConfig debtToRepay :=
    Int.ediv_nonneg (mul_nonneg (mul_nonneg hpos.le hdebt.price.le) hrate)
      (mul_nonneg (by decide) hcollateral.price.le)
  rw [actualCollateral_eq h, ← Int.lt_add_one_iff, ← not_le, ← not_le]
  exact not_congr (le_tdiv_iff (by omega) (by decide))

/-! ## What a liquidation leaves -/

section Liquidated

variable (h : Liquidated now s user debtAsset collateralAsset debtToRepay collateralToReceive actual
  s')
include h

/-- The collateral falls by what is seized. -/
theorem Liquidated.collateral_eq :
    (positionOf s' user (.fromOption collateralAsset)).collateral =
      (positionOf s user (.fromOption collateralAsset)).collateral - actual := by
  by_cases heq : debtAsset = collateralAsset
  · rw [(h.same heq).1.positionOf_self]
    rfl
  · obtain ⟨t, -, hsecond⟩ := h.distinct heq
    rw [hsecond.positionOf_self]
    rfl

/-- Across two assets the principal falls by what is repaid. -/
theorem Liquidated.debt_of_ne (hne : debtAsset ≠ collateralAsset) :
    positionOf s' user (.fromOption debtAsset) =
      (positionOf s user (.fromOption debtAsset)).owing
        ((positionOf s user (.fromOption debtAsset)).debtPrincipal - debtToRepay) now := by
  obtain ⟨t, hfirst, hsecond⟩ := h.distinct hne
  rw [hsecond.positionOf_of_ne fun heq => hne (AssetKey.fromOption_injective heq.2),
    hfirst.positionOf_self]

/-- Within one asset the debt stays. -/
theorem Liquidated.debt_of_eq (heq : debtAsset = collateralAsset) :
    (positionOf s' user (.fromOption debtAsset)).debt =
      (positionOf s user (.fromOption debtAsset)).debt := by
  rw [heq, (h.same heq).1.positionOf_self]
  rfl

/-- **A liquidation is fair exactly if it is moderate.** -/
theorem Liquidated.fair_iff (hconfigs : ConfigsInRange s) (hinterest : InterestNonneg s) :
    FairLiquidation s user debtAsset collateralAsset debtToRepay s' ↔
      Moderate s user debtAsset collateralAsset debtToRepay collateralToReceive := by
  obtain ⟨config, hconfig, hactual⟩ := h.taken
  have hseized : (positionOf s user (.fromOption collateralAsset)).collateral -
      (positionOf s' user (.fromOption collateralAsset)).collateral = actual := by
    rw [h.collateral_eq, sub_sub_cancel]
  have hworth : ∀ debtConfig collateralConfig,
      s.assetConfigs (.fromOption debtAsset) = some debtConfig →
      s.assetConfigs (.fromOption collateralAsset) = some collateralConfig →
        (worth actual collateralConfig.price ≤
            worth debtToRepay debtConfig.price * (10000 + collateralConfig.incentive) / 10000 ↔
          collateralToReceive * (10000 - collateralConfig.incentive) <
            (fairCollateral debtConfig collateralConfig debtToRepay + 1) * 10000) := by
    intro debtConfig collateralConfig hdebt hcollateral
    obtain rfl := Option.some.inj (hconfig.symm.trans hcollateral)
    rw [worth_le_iff (hconfigs _ _ hconfig).price]
    exact actualCollateral_fair_iff (hconfigs _ _ hdebt) (hconfigs _ _ hconfig) h.debt_pos hactual
  constructor
  · intro hfair
    have hne : debtAsset ≠ collateralAsset := by
      intro heq
      have hfalls := hfair.debt
      rw [h.debt_of_eq heq] at hfalls
      have hpos := h.debt_pos
      omega
    refine ⟨hne, ?_, fun debtConfig collateralConfig hdebt hcollateral => ?_⟩
    · have hprincipal := hfair.principal
      rw [h.debt_of_ne hne] at hprincipal
      exact sub_nonneg.mp hprincipal
    · have hbuys := hfair.worth debtConfig collateralConfig hdebt hcollateral
      rw [hseized] at hbuys
      exact (hworth _ _ hdebt hcollateral).mp hbuys
  · intro hmoderate
    refine ⟨fun debtConfig collateralConfig hdebt hcollateral => ?_, ?_, ?_, ?_, ?_⟩
    · rw [hseized]
      exact (hworth _ _ hdebt hcollateral).mpr (hmoderate.asked _ _ hdebt hcollateral)
    · rw [h.debt_of_ne hmoderate.distinct]
      exact sub_nonneg.mpr hmoderate.principal
    · rw [h.debt_of_ne hmoderate.distinct]
      exact hinterest user _
    · rw [h.debt_of_ne hmoderate.distinct]
      exact sub_add_eq_add_sub ..
    · rw [h.collateral_eq]
      exact sub_nonneg.mpr h.covered

end Liquidated

/-! ## Runs -/

/-- **A liquidation of any run is fair exactly if it goes across two assets, repays principal, and
asks for no more than that buys.** -/
theorem liquidation_fair_iff {txs : List Tx} {tx : Tx} (hstep : step tx (ledger txs) = some s')
    (hop : tx.op =
      .liquidate liquidator user debtAsset collateralAsset debtToRepay collateralToReceive) :
    FairLiquidation (ledger txs) user debtAsset collateralAsset debtToRepay s' ↔
      Moderate (ledger txs) user debtAsset collateralAsset debtToRepay collateralToReceive := by
  have hreachable : Reachable (ledger txs) := ⟨txs, rfl⟩
  have heffect := step_effect hstep
  rw [hop] at heffect
  obtain ⟨actual, heffect⟩ := heffect
  exact heffect.fair_iff hreachable.configsInRange hreachable.interestNonneg

namespace Sample

/-- Alice borrows one asset against another, which then loses a fifth of its value. -/
def underwater : List Tx :=
  deploy false ++ [⟨⟨10, [alice]⟩, .deposit alice (some usdc) 1000⟩,
    ⟨⟨11, [alice]⟩, .borrow alice (some wbtc) 700⟩,
    ⟨⟨12, [admin]⟩, .updateAssetPrice (some usdc) 8000000⟩]

/-- Bob repays some of her debt, and asks for some of her collateral. -/
def liquidateFor (debtToRepay collateralToReceive : ℤ) : Tx :=
  ⟨⟨13, [bob]⟩,
    .liquidate bob alice (some wbtc) (some usdc) debtToRepay collateralToReceive⟩

theorem liquidation_fair_iff_hundred :
    ∃ s', step (liquidateFor 100 120) (ledger underwater) = some s' ∧
      (FairLiquidation (ledger underwater) alice (some wbtc) (some usdc) 100 s' ↔
        Moderate (ledger underwater) alice (some wbtc) (some usdc) 100 120) := by
  have hrun : (step (liquidateFor 100 120) (ledger underwater)).isSome := by decide
  obtain ⟨s', hs'⟩ := Option.isSome_iff_exists.mp hrun
  exact ⟨s', hs', liquidation_fair_iff hs' rfl⟩

/-- **For one unit of debt bob takes 950 of alice's 1000 units of collateral.** -/
theorem seized_for_one :
    ¬ ∀ txs tx s' liquidator user debtAsset collateralAsset debtToRepay collateralToReceive,
      step tx (ledger txs) = some s' →
      tx.op = .liquidate liquidator user debtAsset collateralAsset debtToRepay
        collateralToReceive →
      FairLiquidation (ledger txs) user debtAsset collateralAsset debtToRepay s' := by
  intro hall
  have hrun : (step (liquidateFor 1 1000) (ledger underwater)).map
      (fun s' => (positionOf s' alice (.token usdc)).collateral) = some 50 := by decide
  obtain ⟨s', hs', hafter⟩ := Option.map_eq_some_iff.mp hrun
  have hbefore : (positionOf (ledger underwater) alice (.token usdc)).collateral = 1000 := by
    decide
  have hdebt : (ledger underwater).assetConfigs (.token wbtc) = some (asset (some wbtc)) := by
    decide
  have hcollateral : (ledger underwater).assetConfigs (.token usdc) =
      some { asset (some usdc) with price := 8000000, priceUpdatedAt := 12 } := by decide
  have hworth := (hall _ _ s' _ _ _ _ _ _ hs' rfl).worth _ _ hdebt hcollateral
  rw [AssetKey.fromOption, hafter, hbefore] at hworth
  norm_num [worth, asset, AssetConfig.incentive] at hworth

end Sample

end StellarLend.CrossAsset
