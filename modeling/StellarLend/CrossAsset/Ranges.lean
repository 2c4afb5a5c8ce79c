import StellarLend.Foundations.IndexedMap
import StellarLend.CrossAsset.Effects

/-!
# CrossAsset/Ranges — what the numbers on record are

The factors of an asset are parts of 10000 and its price is positive: the admin's calls check what
they are given, one number at a time.  The interest of a position is not negative, whatever the
amounts of the calls: the one call that writes it, the repayment, pays off no more than there is.

The caps, the balances and the health factor bound an amount from above, and nothing bounds it from
below: a negative amount turns a deposit into a withdrawal that nothing judges, and a repayment into
a borrow.  With amounts that are not negative the positions never are, and no interest is on record.
-/

namespace StellarLend.CrossAsset

open Foundations Call
open Lending (Address)

/-! ## Configurations -/

section

variable {e : Env} {s s' : Storage} {asset : Option Address}

/-- A part of 10000. -/
def IsPart (value : ℤ) : Prop := 0 ≤ value ∧ value ≤ 10000

/-- Factors that are parts, and a price that is positive. -/
structure AssetConfig.InRange (c : AssetConfig) : Prop where
  factor : IsPart c.collateralFactor
  threshold : IsPart c.liquidationThreshold
  price : 0 < c.price

def ConfigsInRange (s : Storage) : Prop :=
  ∀ key config, s.assetConfigs key = some config → config.InRange

theorem ConfigsInRange.empty : ConfigsInRange .empty := by
  intro key config h
  cases h

theorem requireValidFactor_isPart {factor : Option ℤ} {current : ℤ} {u : Unit}
    (hcurrent : IsPart current) (h : requireValidFactor factor e s = .ok u s') :
    IsPart (factor.getD current) := by
  cases factor with
  | none => exact hcurrent
  | some value =>
    rw [requireValidFactor, requireValidBasisPoints, failIf_ok, not_not] at h
    exact h.1

/-- An asset is listed with a configuration in range, or one that has a configuration gets another,
in range if that one was. -/
structure ConfigWritten (s : Storage) (key : AssetKey) (config : AssetConfig) (s' : Storage) :
    Prop where
  configs : s'.assetConfigs = Function.update s.assetConfigs key (some config)
  written : (s'.assetList = (listAsset key s).assetList ∧ config.InRange) ∨ ∃ old,
    s.assetConfigs key = some old ∧ s'.assetList = s.assetList ∧ (old.InRange → config.InRange)

theorem initializeAsset_written {config : AssetConfig} {u : Unit}
    (h : initializeAsset asset config e s = .ok u s') :
    ConfigWritten s (.fromOption asset) config s' := by
  simp only [initializeAsset, requireValidConfig, requireValidBasisPoints, bind_ok, ↓failIf_seq,
    ↓store_seq, store_ok, not_not, and_assoc, ↓seq_assoc] at h
  obtain ⟨_, t, hadmin, hfactor, hfactor', hthreshold, hthreshold', -, -, hprice, -, rfl⟩ := h
  obtain rfl := requireAdmin_ok hadmin
  have hrange : config.InRange :=
    ⟨⟨hfactor, hfactor'⟩, ⟨hthreshold, hthreshold'⟩, not_le.mp hprice⟩
  by_cases hmem : AssetKey.fromOption asset ∈ s.assetList
  · have hlist : listAsset (.fromOption asset) (withAssetConfig (.fromOption asset) config s) =
        withAssetConfig (.fromOption asset) config s := if_pos hmem
    rw [hlist]
    exact ⟨rfl, .inl ⟨by rw [listAsset, if_pos hmem, withAssetConfig], hrange⟩⟩
  · have hlist : listAsset (.fromOption asset) (withAssetConfig (.fromOption asset) config s) =
        { withAssetConfig (.fromOption asset) config s with
          assetList := s.assetList ++ [.fromOption asset] } := if_neg hmem
    rw [hlist]
    exact ⟨rfl, .inl ⟨by rw [listAsset, if_neg hmem], hrange⟩⟩

theorem updateAssetConfig_written {cf lt ms mb : Option ℤ} {cc cb : Option Bool} {u : Unit}
    (h : updateAssetConfig asset cf lt ms mb cc cb e s = .ok u s') :
    ∃ config, ConfigWritten s (.fromOption asset) config s' := by
  simp only [updateAssetConfig, bind_ok, ↓getAssetConfig_seq, store_ok] at h
  obtain ⟨_, t, hadmin, old, hold, _, v, hcf, _, w, hlt, rfl⟩ := h
  obtain rfl := requireAdmin_ok hadmin
  obtain rfl := requireValidFactor_ok hcf
  obtain rfl := requireValidFactor_ok hlt
  refine ⟨_, rfl, .inr ⟨old, hold, rfl, fun hrange => ?_⟩⟩
  exact ⟨requireValidFactor_isPart hrange.factor hcf,
    requireValidFactor_isPart hrange.threshold hlt, hrange.price⟩

theorem updateAssetPrice_written {price : ℤ} {u : Unit}
    (h : updateAssetPrice asset price e s = .ok u s') :
    ∃ config, ConfigWritten s (.fromOption asset) config s' := by
  simp only [updateAssetPrice, bind_ok, ↓failIf_seq, ↓getAssetConfig_seq, ↓asks_seq, store_ok] at h
  obtain ⟨_, t, hadmin, hprice, old, hold, rfl⟩ := h
  obtain rfl := requireAdmin_ok hadmin
  exact ⟨_, rfl, .inr ⟨old, hold, rfl, fun hrange =>
    ⟨hrange.factor, hrange.threshold, not_le.mp hprice⟩⟩⟩

theorem freezePool_written {admin : Address} {freeze : Bool} {u : Unit}
    (h : freezePool admin asset freeze e s = .ok u s') :
    ∃ config, ConfigWritten s (.fromOption asset) config s' := by
  simp only [freezePool, view_seq, okOr_seq, failIf_seq, requireAuth_seq, getAssetConfig_seq,
    store_ok] at h
  obtain ⟨_, -, -, -, old, hold, rfl⟩ := h
  exact ⟨_, rfl, .inr ⟨old, hold, rfl, fun hrange =>
    ⟨hrange.factor, hrange.threshold, hrange.price⟩⟩⟩

/-- **A step leaves the configurations and the list of assets alone, or writes one
configuration.** -/
theorem step_configs {tx : Tx} (hstep : step tx s = some s') :
    (s'.assetConfigs = s.assetConfigs ∧ s'.assetList = s.assetList) ∨
      ∃ key config, ConfigWritten s key config s' := by
  have heffect := step_effect hstep
  obtain ⟨e, op⟩ := tx
  cases op
  case initializeCa =>
    obtain ⟨_, h⟩ := commit_eq_some.mp hstep
    simp only [initializeCa, view_seq, failIf_seq, requireAuth_seq, store_ok] at h
    obtain ⟨-, -, rfl⟩ := h
    exact .inl ⟨rfl, rfl⟩
  case initializeAsset =>
    obtain ⟨_, h⟩ := commit_eq_some.mp hstep
    exact .inr ⟨_, _, initializeAsset_written h⟩
  case updateAssetConfig =>
    obtain ⟨_, h⟩ := commit_eq_some.mp hstep
    exact .inr ⟨_, updateAssetConfig_written h⟩
  case updateAssetPrice =>
    obtain ⟨_, h⟩ := commit_eq_some.mp hstep
    exact .inr ⟨_, updateAssetPrice_written h⟩
  case freezePool =>
    obtain ⟨_, h⟩ := commit_eq_some.mp hstep
    exact .inr ⟨_, freezePool_written h⟩
  case deposit => exact .inl ⟨heffect.booked.configs, heffect.booked.list⟩
  case withdraw => exact .inl ⟨heffect.booked.configs, heffect.booked.list⟩
  case borrow => exact .inl ⟨heffect.booked.configs, heffect.booked.list⟩
  case repay =>
    obtain ⟨_, -, hbooked⟩ := heffect.booked
    exact .inl ⟨hbooked.configs, hbooked.list⟩
  case liquidate liquidator user debtAsset collateralAsset repaid received =>
    obtain ⟨actual, heffect⟩ := heffect
    by_cases heq : debtAsset = collateralAsset
    · exact .inl ⟨(heffect.same heq).1.configs, (heffect.same heq).1.list⟩
    · obtain ⟨t, hfirst, hsecond⟩ := heffect.distinct heq
      exact .inl ⟨hsecond.configs.trans hfirst.configs, hsecond.list.trans hfirst.list⟩

/-- Every step leaves the configurations in range. -/
theorem ConfigsInRange.step {tx : Tx} (hs : ConfigsInRange s) (hstep : step tx s = some s') :
    ConfigsInRange s' := by
  obtain ⟨hconfigs, -⟩ | ⟨key, config, hwritten⟩ := step_configs hstep
  · rw [ConfigsInRange, hconfigs]
    exact hs
  · have hrange : config.InRange := by
      obtain ⟨-, hrange⟩ | ⟨old, hold, -, hkeeps⟩ := hwritten.written
      · exact hrange
      · exact hkeeps (hs key old hold)
    rw [ConfigsInRange, hwritten.configs]
    exact forall_update hs hrange

theorem Reachable.configsInRange (h : Reachable s) : ConfigsInRange s := by
  obtain ⟨txs, rfl⟩ := h
  exact run_invariant (fun _ _ _ hstep hs => hs.step hstep) txs .empty

/-! ## Interest -/

def InterestNonneg (s : Storage) : Prop := ∀ user key, 0 ≤ (positionOf s user key).accruedInterest

theorem InterestNonneg.empty : InterestNonneg .empty := fun _ _ => le_rfl

/-- Paying off leaves no negative interest, whatever is paid. -/
theorem AssetPosition.payOff_interest_nonneg {p p' : AssetPosition} {paid : ℤ}
    (h : p.payOff paid = some p') : 0 ≤ p'.accruedInterest := by
  unfold payOff at h
  split at h
  · next hcovered =>
    obtain ⟨interest, hinterest, rfl⟩ := Option.map_eq_some_iff.mp h
    obtain ⟨-, rfl⟩ := I128.checkedSub_eq_some.mp hinterest
    exact sub_nonneg.mpr hcovered
  · simp only [Option.bind_eq_bind, Option.bind_eq_some_iff, Option.pure_def, Option.some.injEq]
      at h
    obtain ⟨_, -, _, -, rfl⟩ := h
    exact le_rfl

/-- Every step leaves the interest not negative. -/
theorem InterestNonneg.step {tx : Tx} (hs : InterestNonneg s) (hstep : step tx s = some s') :
    InterestNonneg s' := by
  have heffect := step_effect hstep
  obtain ⟨e, op⟩ := tx
  cases op
  case deposit => exact heffect.booked.forall (P := fun p => 0 ≤ p.accruedInterest) (hs _ _) hs
  case withdraw => exact heffect.booked.forall (P := fun p => 0 ≤ p.accruedInterest) (hs _ _) hs
  case borrow => exact heffect.booked.forall (P := fun p => 0 ≤ p.accruedInterest) (hs _ _) hs
  case repay =>
    obtain ⟨p, hpaid, hbooked⟩ := heffect.booked
    have hp : 0 ≤ p.accruedInterest := AssetPosition.payOff_interest_nonneg hpaid
    exact hbooked.forall (P := fun p => 0 ≤ p.accruedInterest) hp hs
  case liquidate liquidator user debtAsset collateralAsset repaid received =>
    obtain ⟨actual, heffect⟩ := heffect
    by_cases heq : debtAsset = collateralAsset
    · exact (heffect.same heq).1.forall (P := fun p => 0 ≤ p.accruedInterest) (hs _ _) hs
    · obtain ⟨t, hfirst, hsecond⟩ := heffect.distinct heq
      exact hsecond.forall (P := fun p => 0 ≤ p.accruedInterest) (hs _ _)
        (hfirst.forall (P := fun p => 0 ≤ p.accruedInterest) (hs _ _) hs)
  all_goals
    intro user key
    rw [positionOf, heffect.positions]
    exact hs user key

theorem Reachable.interestNonneg (h : Reachable s) : InterestNonneg s := by
  obtain ⟨txs, rfl⟩ := h
  exact run_invariant (fun _ _ _ hstep hs => hs.step hstep) txs .empty

end

variable {now : ℕ} {s s' : Storage} {user : Address} {key : AssetKey} {amount : ℤ} {op : Op}

/-! ## Amounts of either sign -/

/-- Nothing on record is negative. -/
structure AssetPosition.Nonneg (p : AssetPosition) : Prop where
  collateral : 0 ≤ p.collateral
  principal : 0 ≤ p.debtPrincipal
  interest : 0 ≤ p.accruedInterest

/-- The user and the asset that a call with an amount names, and the amount. -/
def Op.named : Op → Option (Address × AssetKey × ℤ)
  | .deposit user asset amount => some (user, .fromOption asset, amount)
  | .withdraw user asset amount => some (user, .fromOption asset, amount)
  | .borrow user asset amount => some (user, .fromOption asset, amount)
  | .repay user asset amount => some (user, .fromOption asset, amount)
  | _ => none

/-- The position moves the way of the operation, or stays. -/
def Op.MovesItsWay (p p' : AssetPosition) : Op → Prop
  | .deposit .. => p.collateral ≤ p'.collateral
  | .withdraw .. => p'.collateral ≤ p.collateral
  | .borrow .. => p.debt ≤ p'.debt
  | .repay .. => p'.debt ≤ p.debt
  | _ => True

/-- A call with an amount leaves nothing negative, and moves the position it names its way. -/
structure AmountSafe (s : Storage) (op : Op) (s' : Storage) : Prop where
  nonneg : op.named.isSome → ∀ user key, (positionOf s' user key).Nonneg
  way : ∀ user key amount, op.named = some (user, key, amount) →
    op.MovesItsWay (positionOf s user key) (positionOf s' user key)

/-- The amount of a call is not negative. -/
def AmountNonneg (_ : Storage) (tx : Tx) : Prop :=
  ∀ user key amount, tx.op.named = some (user, key, amount) → 0 ≤ amount

/-! ## Which way a position moves -/

/-- **A position that owes nothing negative moves the way of the operation exactly if the amount is
not negative.** -/
theorem Op.Effect.movesItsWay_iff (h : op.Effect now s s')
    (hop : op.named = some (user, key, amount)) (hdebt : 0 ≤ (positionOf s user key).debt) :
    op.MovesItsWay (positionOf s user key) (positionOf s' user key) ↔ 0 ≤ amount := by
  cases op <;> simp only [Op.named, reduceCtorEq, Option.some.injEq, Prod.mk.injEq] at hop
  case deposit =>
    obtain ⟨rfl, rfl, rfl⟩ := hop
    rw [MovesItsWay, h.booked.positionOf_self]
    exact le_add_iff_nonneg_right _
  case withdraw =>
    obtain ⟨rfl, rfl, rfl⟩ := hop
    rw [MovesItsWay, h.booked.positionOf_self]
    exact sub_le_self_iff _
  case borrow =>
    obtain ⟨rfl, rfl, rfl⟩ := hop
    rw [MovesItsWay, h.booked.positionOf_self]
    simp only [AssetPosition.debt, AssetPosition.owing]
    omega
  case repay =>
    obtain ⟨rfl, rfl, rfl⟩ := hop
    obtain ⟨p, hpaid, hbooked⟩ := h.booked
    have hless := (AssetPosition.payOff_ok hpaid).2
    rw [getUserAssetPosition_debt] at hless
    rw [MovesItsWay, hbooked.positionOf_self]
    change p.debt ≤ _ ↔ _
    omega

/-! ## Sound positions -/

/-- What is held and owed is not negative, and no interest is on record. -/
structure AssetPosition.Sound (p : AssetPosition) : Prop where
  collateral : 0 ≤ p.collateral
  principal : 0 ≤ p.debtPrincipal
  interest : p.accruedInterest = 0

theorem AssetPosition.Sound.nonneg {p : AssetPosition} (h : p.Sound) : p.Nonneg :=
  ⟨h.collateral, h.principal, h.interest.ge⟩

theorem AssetPosition.Sound.debt_eq {p : AssetPosition} (h : p.Sound) :
    p.debt = p.debtPrincipal := by
  rw [debt, h.interest, add_zero]

/-- Paying off at most what is owed leaves a sound position sound. -/
theorem AssetPosition.Sound.payOff {p p' : AssetPosition} {paid : ℤ} (hp : p.Sound)
    (h : p.payOff paid = some p') (hnonneg : 0 ≤ paid) (hle : paid ≤ p.debt) : p'.Sound := by
  rw [hp.debt_eq] at hle
  unfold AssetPosition.payOff at h
  split at h
  · next hcovered =>
    obtain ⟨interest, hinterest, rfl⟩ := Option.map_eq_some_iff.mp h
    obtain ⟨-, rfl⟩ := I128.checkedSub_eq_some.mp hinterest
    rw [hp.interest] at hcovered ⊢
    exact ⟨hp.collateral, hp.principal, by change 0 - paid = 0; omega⟩
  · simp only [Option.bind_eq_bind, Option.bind_eq_some_iff, I128.checkedSub_eq_some, and_assoc,
      exists_and_left, exists_eq_left', Option.pure_def, Option.some.injEq, hp.interest, sub_zero]
      at h
    obtain ⟨-, -, rfl⟩ := h
    exact ⟨hp.collateral, sub_nonneg.mpr hle, rfl⟩

/-- Every position is sound. -/
def PositionsSound (s : Storage) : Prop := ∀ user key, (positionOf s user key).Sound

theorem PositionsSound.empty : PositionsSound Storage.empty := fun _ _ => ⟨le_rfl, le_rfl, rfl⟩

/-- **An amount that is not negative leaves every position sound.** -/
theorem PositionsSound.effect (hs : PositionsSound s) (h : op.Effect now s s')
    (hamount : ∀ user key amount, op.named = some (user, key, amount) → 0 ≤ amount) :
    PositionsSound s' := by
  cases op
  case deposit user asset amount =>
    have hp := hs user (.fromOption asset)
    have hsum := add_nonneg hp.collateral (hamount _ _ _ rfl)
    exact h.booked.forall ⟨hsum, hp.principal, hp.interest⟩ hs
  case withdraw user asset amount =>
    have hp := hs user (.fromOption asset)
    exact h.booked.forall ⟨sub_nonneg.mpr h.covered, hp.principal, hp.interest⟩ hs
  case borrow user asset amount =>
    have hp := hs user (.fromOption asset)
    have hsum := add_nonneg hp.principal (hamount _ _ _ rfl)
    exact h.booked.forall ⟨hp.collateral, hsum, hp.interest⟩ hs
  case repay user asset amount =>
    obtain ⟨p, hpaid, hbooked⟩ := h.booked
    have hp := hs user (.fromOption asset)
    have hread : (getUserAssetPosition now s user asset).Sound := by
      rw [getUserAssetPosition_eq]
      exact ⟨hp.collateral, hp.principal, hp.interest⟩
    have hpaidOff : p.Sound := hread.payOff hpaid
      (le_min (hamount _ _ _ rfl) (hp.debt_eq.symm ▸ hp.principal))
      ((min_le_right ..).trans_eq (getUserAssetPosition_debt ..).symm)
    exact hbooked.forall ⟨hpaidOff.collateral, hpaidOff.principal, hpaidOff.interest⟩ hs
  case liquidate liquidator user debtAsset collateralAsset repaid received =>
    obtain ⟨actual, h⟩ := h
    have hd := hs user (.fromOption debtAsset)
    have hc := hs user (.fromOption collateralAsset)
    have howed := h.owed
    rw [hd.debt_eq] at howed
    by_cases heq : debtAsset = collateralAsset
    · exact (h.same heq).1.forall ⟨sub_nonneg.mpr h.covered, hc.principal, hc.interest⟩ hs
    · obtain ⟨t, hfirst, hsecond⟩ := h.distinct heq
      refine hsecond.forall ⟨sub_nonneg.mpr h.covered, hc.principal, hc.interest⟩ ?_
      exact hfirst.forall ⟨hd.collateral, sub_nonneg.mpr howed, hd.interest⟩ hs
  all_goals
    intro user key
    rw [positionOf, h.positions]
    exact hs user key

theorem PositionsSound.step {tx : Tx} (hs : PositionsSound s) (hstep : step tx s = some s')
    (hamount : AmountNonneg s tx) : PositionsSound s' := hs.effect (step_effect hstep) hamount

/-! ## Runs -/

/-- Where no amount is negative every position is sound. -/
theorem positionsSound_of_amountNonneg {txs : List Tx}
    (h : Meets step AmountNonneg Storage.empty txs) :
    PositionsSound (ledger txs) :=
  h.invariant (fun _ _ _ hstep hamount hs => hs.step hstep hamount) .empty

/-- **Every call with an amount leaves nothing negative and moves the position its way if and only
if no call of the run succeeds with a negative amount.** -/
theorem amounts_safe_iff (txs : List Tx) :
    (∀ ys tx zs s', txs = ys ++ tx :: zs → step tx (ledger ys) = some s' →
      AmountSafe (ledger ys) tx.op s') ↔ Meets step AmountNonneg Storage.empty txs := by
  refine Iff.symm (meets_iff_steps (P := fun s (tx : Tx) s' => AmountSafe s tx.op s')
    (I := PositionsSound) (fun s tx s' hstep hs => ?_)
    (fun _ _ _ hstep hamount hs => hs.step hstep hamount) .empty)
  have hway : ∀ {user key amount}, tx.op.named = some (user, key, amount) →
      (tx.op.MovesItsWay (positionOf s user key) (positionOf s' user key) ↔ 0 ≤ amount) :=
    fun {user key _} hop => (step_effect hstep).movesItsWay_iff hop
      ((hs user key).debt_eq.symm ▸ (hs user key).principal)
  constructor
  · intro hamount
    refine ⟨fun _ user key => ?_, fun user key amount hop => (hway hop).mpr (hamount _ _ _ hop)⟩
    exact (hs.effect (step_effect hstep) hamount user key).nonneg
  · exact fun hsafe user key amount hop => (hway hop).mp (hsafe.way user key amount hop)

namespace Sample

/-- Alice, who has nothing, deposits less than nothing. -/
def depositNegative : Tx := ⟨⟨10, [alice]⟩, .deposit alice (some usdc) (-5)⟩

end Sample

/-- Her collateral is negative afterwards. -/
theorem amount_unsafe_depositNegative :
    ¬ ∀ txs tx s', step tx (ledger txs) = some s' → AmountSafe (ledger txs) tx.op s' := by
  intro hall
  have hrun : (step Sample.depositNegative (ledger (Sample.deploy false))).map
      (fun s' => (positionOf s' Sample.alice (.token Sample.usdc)).collateral) = some (-5) := by
    decide
  obtain ⟨s', hs', hafter⟩ := Option.map_eq_some_iff.mp hrun
  have hnonneg := ((hall _ _ s' hs').nonneg rfl Sample.alice (.token Sample.usdc)).collateral
  rw [hafter] at hnonneg
  exact absurd hnonneg (by decide)

end StellarLend.CrossAsset
