import StellarLend.Foundations.Total
import StellarLend.CrossAsset.Contract

/-!
# CrossAsset/Effects — what a successful call did, and what it does to the totals

    deposit, withdraw, borrow, repay  ──▸  one position `Booked`
    liquidate, two assets             ──▸  two positions booked, one after the other
    liquidate, one asset              ──▸  one position `Written`, the totals moved apart from it

To book a position is to write it and to move the totals of its asset by as much.  The admin's calls
write no position at all.  Booking keeps the totals at the sums over all users, and every call books
what it changes, except for a liquidation that names one asset twice.  That one writes the debt it
read over the debt it paid: the total falls, and nobody owes less.
-/

namespace StellarLend.CrossAsset

open Foundations Call
open Lending (Address)

section

variable {e : Env} {s s' t : Storage} {user liquidator : Address}
  {asset debtAsset collateralAsset : Option Address} {amount debtToRepay collateralToReceive : ℤ}
  {p : AssetPosition} {u : Unit} {key : AssetKey}

/-! ## What a position is -/

/-- The position of a user in an asset.  Without an entry it is empty. -/
def positionOf (s : Storage) (user : Address) (key : AssetKey) : AssetPosition :=
  (s.userPositions ⟨user, key⟩).getD ⟨0, 0, 0, 0⟩

/-- A position is read as it is, its time of update aside. -/
theorem getUserAssetPosition_eq (now : ℕ) (s : Storage) (user : Address) (asset : Option Address) :
    getUserAssetPosition now s user asset =
      { positionOf s user (.fromOption asset) with
        lastUpdated := (getUserAssetPosition now s user asset).lastUpdated } := by
  unfold getUserAssetPosition positionOf UserAssetKey.new
  cases s.userPositions ⟨user, .fromOption asset⟩ <;> rfl

@[simp] theorem getUserAssetPosition_collateral (now : ℕ) (s : Storage) (user : Address)
    (asset : Option Address) : (getUserAssetPosition now s user asset).collateral =
      (positionOf s user (.fromOption asset)).collateral := by
  rw [getUserAssetPosition_eq]

@[simp] theorem getUserAssetPosition_debtPrincipal (now : ℕ) (s : Storage) (user : Address)
    (asset : Option Address) : (getUserAssetPosition now s user asset).debtPrincipal =
      (positionOf s user (.fromOption asset)).debtPrincipal := by
  rw [getUserAssetPosition_eq]

@[simp] theorem getUserAssetPosition_accruedInterest (now : ℕ) (s : Storage) (user : Address)
    (asset : Option Address) : (getUserAssetPosition now s user asset).accruedInterest =
      (positionOf s user (.fromOption asset)).accruedInterest := by
  rw [getUserAssetPosition_eq]

@[simp] theorem getUserAssetPosition_debt (now : ℕ) (s : Storage) (user : Address)
    (asset : Option Address) : (getUserAssetPosition now s user asset).debt =
      (positionOf s user (.fromOption asset)).debt := by
  rw [getUserAssetPosition_eq]
  rfl

/-- The position with other collateral. -/
def AssetPosition.holding (p : AssetPosition) (collateral : ℤ) (now : ℕ) : AssetPosition :=
  { p with collateral := collateral, lastUpdated := now }

/-- The position with other principal. -/
def AssetPosition.owing (p : AssetPosition) (principal : ℤ) (now : ℕ) : AssetPosition :=
  { p with debtPrincipal := principal, lastUpdated := now }

/-! ## Writing and booking -/

/-- The position becomes `p`; the other positions and the configurations stay. -/
structure Written (s : Storage) (user : Address) (asset : Option Address) (p : AssetPosition)
    (s' : Storage) : Prop where
  positions : s'.userPositions = Function.update s.userPositions (.new user asset) (some p)
  configs : s'.assetConfigs = s.assetConfigs
  list : s'.assetList = s.assetList

/-- The position becomes `p`, and the totals of its asset move by as much. -/
structure Booked (s : Storage) (user : Address) (asset : Option Address) (p : AssetPosition)
    (s' : Storage) : Prop extends Written s user asset p s' where
  supply : ∀ key, getTotalSupply s' key = getTotalSupply s key +
    if key = .fromOption asset then p.collateral - (positionOf s user key).collateral else 0
  borrow : ∀ key, getTotalBorrow s' key = getTotalBorrow s key +
    if key = .fromOption asset then p.debt - (positionOf s user key).debt else 0

theorem Written.positionOf_self (h : Written s user asset p s') :
    positionOf s' user (.fromOption asset) = p := by
  rw [positionOf, h.positions, UserAssetKey.new, Function.update_self]
  rfl

theorem Written.positionOf_of_ne (h : Written s user asset p s') {user' : Address}
    (hne : ¬ (user' = user ∧ key = .fromOption asset)) :
    positionOf s' user' key = positionOf s user' key := by
  have hkey : (⟨user', key⟩ : UserAssetKey) ≠ .new user asset := fun heq =>
    hne ⟨congrArg UserAssetKey.user heq, congrArg UserAssetKey.asset heq⟩
  rw [positionOf, h.positions, Function.update_of_ne hkey, positionOf]

/-- What holds of the position written and of every position before holds of every position. -/
theorem Written.forall {P : AssetPosition → Prop} (h : Written s user asset p s') (hp : P p)
    (hs : ∀ user key, P (positionOf s user key)) (user' : Address) (key : AssetKey) :
    P (positionOf s' user' key) := by
  by_cases heq : user' = user ∧ key = .fromOption asset
  · rw [heq.1, heq.2, h.positionOf_self]
    exact hp
  · rw [h.positionOf_of_ne heq]
    exact hs user' key

/-- A position written with other collateral, and the supply moved by as much. -/
theorem booked_collateral {delta : ℤ}
    (hcollateral : p.collateral = (positionOf s user (.fromOption asset)).collateral + delta)
    (hdebt : p.debt = (positionOf s user (.fromOption asset)).debt) :
    Booked s user asset p (withTotalSupply (.fromOption asset)
      (getTotalSupply s (.fromOption asset) + delta) (setUserAssetPosition user asset p s)) := by
  refine ⟨⟨rfl, rfl, rfl⟩, fun key => ?_, fun key => ?_⟩
  · rw [getTotalSupply_withTotalSupply]
    split
    · next heq => rw [heq, hcollateral, add_sub_cancel_left]
    · exact (add_zero _).symm
  · split
    · next heq => rw [heq, hdebt, sub_self, add_zero]; rfl
    · exact (add_zero _).symm

/-- A position written with other debt, and the borrows moved by as much. -/
theorem booked_debt {delta : ℤ}
    (hcollateral : p.collateral = (positionOf s user (.fromOption asset)).collateral)
    (hdebt : p.debt = (positionOf s user (.fromOption asset)).debt + delta) :
    Booked s user asset p (withTotalBorrow (.fromOption asset)
      (getTotalBorrow s (.fromOption asset) + delta) (setUserAssetPosition user asset p s)) := by
  refine ⟨⟨rfl, rfl, rfl⟩, fun key => ?_, fun key => ?_⟩
  · split
    · next heq => rw [heq, hcollateral, sub_self, add_zero]; rfl
    · exact (add_zero _).symm
  · rw [getTotalBorrow_withTotalBorrow]
    split
    · next heq => rw [heq, hdebt, add_sub_cancel_left]
    · exact (add_zero _).symm

/-! ## The parts of a call -/

theorem getAssetConfig_ok {config : AssetConfig} :
    getAssetConfig key e s = .ok config s' ↔ s.assetConfigs key = some config ∧ s = s' := by
  simp only [getAssetConfig, view_seq, okOr_ok]

@[simp ↓] theorem getAssetConfig_seq {β : Type} {b : β} {g : AssetConfig → Invocation β} :
    (getAssetConfig key >>= g) e s = .ok b s' ↔
      ∃ config, s.assetConfigs key = some config ∧ g config e s = .ok b s' :=
  read_seq fun _ _ => getAssetConfig_ok

theorem readPosition_ok :
    readPosition user asset e s = .ok p s' ↔
      getUserAssetPosition e.timestamp s user asset = p ∧ s = s' := look_ok

theorem readSummary_ok {summary : UserPositionSummary} :
    readSummary user e s = .ok summary s' ↔
      getUserPositionSummary e.timestamp s user = some (.ok summary) ∧ s = s' := by
  simp only [readSummary, look_seq, ofResult_ok]

theorem checkCap_ok {cap : ℤ} {total : Storage → ℤ} {err : CrossAssetError}
    (h : checkCap cap total amount err e s = .ok u s') :
    (0 < cap → total s + amount ≤ cap) ∧ s = s' := by
  simp only [checkCap, onlyIf_ok, view_seq, orTrap_seq, failIf_ok, I128.checkedAdd_eq_some,
    and_assoc, exists_and_left, exists_eq_left'] at h
  by_cases hcap : 0 < cap
  · obtain ⟨-, hle, hs⟩ := h.1 hcap
    exact ⟨fun _ => not_lt.mp hle, hs⟩
  · exact ⟨fun hpos => absurd hpos hcap, h.2 hcap⟩

theorem updateTotalSupply_ok {delta : ℤ} :
    updateTotalSupply key delta e s = .ok u s' ↔ I128.Holds (getTotalSupply s key + delta) ∧
      withTotalSupply key (getTotalSupply s key + delta) s = s' := by
  simp only [updateTotalSupply, view_seq, orTrap_seq, store_ok, I128.checkedAdd_eq_some, and_assoc,
    exists_and_left, exists_eq_left']

theorem updateTotalBorrow_ok {delta : ℤ} :
    updateTotalBorrow key delta e s = .ok u s' ↔ I128.Holds (getTotalBorrow s key + delta) ∧
      withTotalBorrow key (getTotalBorrow s key + delta) s = s' := by
  simp only [updateTotalBorrow, view_seq, orTrap_seq, store_ok, I128.checkedAdd_eq_some, and_assoc,
    exists_and_left, exists_eq_left']

theorem undoBorrow_ok :
    ¬ undoBorrow user asset amount p e s = .ok u s' := by
  simp only [undoBorrow, bind_ok, fail_ok, and_false, exists_false, not_false_eq_true]

/-- What the gate of a borrow lets through. -/
structure GatePassed (now : ℕ) (s : Storage) (user : Address) (config : AssetConfig)
    (p : AssetPosition) : Prop where
  isolated : config.isIsolated = true → p.debt ≤ maxPoolDebt p.collateral config.collateralFactor
  pooled : config.isIsolated = false → ∃ summary,
    getUserPositionSummary now s user = some (.ok summary) ∧ 10000 ≤ summary.healthFactor

theorem borrowGate_ok {config : AssetConfig}
    (h : borrowGate user asset amount config p e s = .ok u s') :
    GatePassed e.timestamp s user config p ∧ s = s' := by
  unfold borrowGate at h
  by_cases hisolated : config.isIsolated = true
  · simp only [if_pos hisolated, orTrap_seq, I128.checkedAdd_eq_some, onlyIf_ok, undoBorrow_ok,
      and_assoc, exists_and_left, exists_eq_left', imp_false, not_lt] at h
    obtain ⟨-, hdebt, hs⟩ := h
    exact ⟨⟨fun _ => hdebt, fun hpooled => absurd hisolated (by rw [hpooled]; decide)⟩, hs hdebt⟩
  · simp only [if_neg hisolated, bind_ok, readSummary_ok, onlyIf_ok, undoBorrow_ok, and_assoc,
      exists_and_left, exists_eq_left', imp_false, not_lt] at h
    obtain ⟨summary, hsummary, hfactor, hs⟩ := h
    exact ⟨⟨fun h => absurd h hisolated, fun _ => ⟨summary, hsummary, hfactor⟩⟩, hs hfactor⟩

/-! ## The calls -/

/-- A deposit books the collateral of an asset that takes it, up to the supply cap. -/
structure Deposited (now : ℕ) (s : Storage) (user : Address) (asset : Option Address) (amount : ℤ)
    (s' : Storage) : Prop where
  admitted : ∃ config, s.assetConfigs (.fromOption asset) = some config ∧
    config.isFrozen = false ∧ config.canCollateralize = true ∧
    (0 < config.maxSupply → getTotalSupply s (.fromOption asset) + amount ≤ config.maxSupply)
  booked : Booked s user asset ((positionOf s user (.fromOption asset)).holding
    ((positionOf s user (.fromOption asset)).collateral + amount) now) s'

theorem crossAssetDeposit_ok {r : AssetPosition}
    (h : crossAssetDeposit user asset amount e s = .ok r s') :
    Deposited e.timestamp s user asset amount s' := by
  simp only [crossAssetDeposit, bind_ok, requireAuth_ok, ↓getAssetConfig_seq, ↓failIf_seq,
    readPosition_ok, ↓orTrap_seq, ↓asks_seq, ↓store_seq, pure_ok, updateTotalSupply_ok,
    I128.checkedAdd_eq_some, getUserAssetPosition_collateral, getUserAssetPosition_debtPrincipal,
    getUserAssetPosition_accruedInterest, and_assoc, exists_and_left, exists_eq_left', exists_const,
    Bool.not_eq_true, Bool.not_eq_false] at h
  obtain ⟨-, config, hconfig, hfrozen, hcollateral, _, t, hcap, -, -, -, rfl⟩ := h
  obtain ⟨hlimit, rfl⟩ := checkCap_ok hcap
  exact ⟨⟨config, hconfig, hfrozen, hcollateral, hlimit⟩, booked_collateral rfl rfl⟩

/-- A withdrawal books collateral that is there, and leaves no debt of value or enough health. -/
structure Withdrawn (now : ℕ) (s : Storage) (user : Address) (asset : Option Address) (amount : ℤ)
    (s' : Storage) : Prop where
  covered : amount ≤ (positionOf s user (.fromOption asset)).collateral
  booked : Booked s user asset ((positionOf s user (.fromOption asset)).holding
    ((positionOf s user (.fromOption asset)).collateral - amount) now) s'
  judged : ∃ summary, getUserPositionSummary now s' user = some (.ok summary) ∧
    (0 < summary.totalDebtValue → 10000 ≤ summary.healthFactor)

theorem crossAssetWithdraw_ok {r : AssetPosition}
    (h : crossAssetWithdraw user asset amount e s = .ok r s') :
    Withdrawn e.timestamp s user asset amount s' := by
  simp only [crossAssetWithdraw, bind_ok, requireAuth_ok, ↓failIf_seq, readPosition_ok,
    readSummary_ok, ↓orTrap_seq, ↓asks_seq, ↓store_seq, pure_ok, onlyIf_ok, fail_ok,
    updateTotalSupply_ok, I128.checkedSub_eq_some, getUserAssetPosition_collateral,
    getUserAssetPosition_debtPrincipal, getUserAssetPosition_accruedInterest, and_assoc,
    exists_and_left, exists_eq_left', exists_const, and_false, imp_false, not_lt] at h
  obtain ⟨-, hcovered, -, summary, hsummary, hjudged, _, hkept, -, -, -, rfl⟩ := h
  obtain rfl := hkept hjudged
  refine ⟨hcovered, booked_collateral ?_ rfl, summary, hsummary, fun hdebt => ?_⟩
  · rw [zero_sub, ← sub_eq_add_neg]
    rfl
  · exact not_lt.mp fun hfactor => hjudged ⟨hdebt, hfactor⟩

/-- A borrow books debt of an asset that lends it, up to the borrow cap and past the gate. -/
structure Borrowed (now : ℕ) (s : Storage) (user : Address) (asset : Option Address) (amount : ℤ)
    (s' : Storage) : Prop where
  admitted : ∃ config, s.assetConfigs (.fromOption asset) = some config ∧
    config.isFrozen = false ∧ config.canBorrow = true ∧
    (0 < config.maxBorrow → getTotalBorrow s (.fromOption asset) + amount ≤ config.maxBorrow) ∧
    GatePassed now s' user config (positionOf s' user (.fromOption asset))
  booked : Booked s user asset ((positionOf s user (.fromOption asset)).owing
    ((positionOf s user (.fromOption asset)).debtPrincipal + amount) now) s'

theorem crossAssetBorrow_ok {r : AssetPosition}
    (h : crossAssetBorrow user asset amount e s = .ok r s') :
    Borrowed e.timestamp s user asset amount s' := by
  simp only [crossAssetBorrow, bind_ok, requireAuth_ok, ↓getAssetConfig_seq, ↓failIf_seq,
    readPosition_ok, ↓orTrap_seq, ↓asks_seq, ↓store_seq, pure_ok, updateTotalBorrow_ok,
    I128.checkedAdd_eq_some, getUserAssetPosition_collateral, getUserAssetPosition_debtPrincipal,
    getUserAssetPosition_accruedInterest, and_assoc, exists_and_left, exists_eq_left', exists_const,
    Bool.not_eq_true, Bool.not_eq_false] at h
  obtain ⟨-, config, hconfig, hfrozen, hborrow, _, t, hcap, -, _, u, hgate, -, -, hs'⟩ := h
  obtain ⟨hlimit, rfl⟩ := checkCap_ok hcap
  obtain ⟨hpassed, rfl⟩ := borrowGate_ok hgate
  have hbooked : Booked s user asset ((positionOf s user (.fromOption asset)).owing
      ((positionOf s user (.fromOption asset)).debtPrincipal + amount) e.timestamp) s' := by
    rw [← hs']
    exact booked_debt rfl (add_right_comm ..)
  refine ⟨⟨config, hconfig, hfrozen, hborrow, hlimit, ?_⟩, hbooked⟩
  rw [hbooked.positionOf_self, ← hs']
  exact ⟨hpassed.isolated, hpassed.pooled⟩

/-- A repayment books less debt, by the amount or by all of it, interest first. -/
structure Repaid (now : ℕ) (s : Storage) (user : Address) (asset : Option Address) (amount : ℤ)
    (s' : Storage) : Prop where
  booked : ∃ p, (getUserAssetPosition now s user asset).payOff
      (min amount (positionOf s user (.fromOption asset)).debt) = some p ∧
    Booked s user asset { p with lastUpdated := now } s'

/-- Paying off takes the amount off the debt and leaves the collateral. -/
theorem AssetPosition.payOff_ok {p' : AssetPosition} {paid : ℤ} (h : p.payOff paid = some p') :
    p'.collateral = p.collateral ∧ p'.debt = p.debt - paid := by
  unfold payOff at h
  split at h
  · obtain ⟨interest, hinterest, rfl⟩ := Option.map_eq_some_iff.mp h
    obtain ⟨-, rfl⟩ := I128.checkedSub_eq_some.mp hinterest
    exact ⟨rfl, (add_sub_assoc ..).symm⟩
  · simp only [Option.bind_eq_bind, Option.bind_eq_some_iff, I128.checkedSub_eq_some, and_assoc,
      exists_and_left, exists_eq_left', Option.pure_def, Option.some.injEq] at h
    obtain ⟨-, -, rfl⟩ := h
    refine ⟨rfl, ?_⟩
    simp only [AssetPosition.debt]
    omega

theorem crossAssetRepay_ok {r : AssetPosition}
    (h : crossAssetRepay user asset amount e s = .ok r s') :
    Repaid e.timestamp s user asset amount s' := by
  simp only [crossAssetRepay, bind_ok, requireAuth_ok, readPosition_ok, ↓orTrap_seq, ↓asks_seq,
    ↓store_seq, pure_ok, updateTotalBorrow_ok, I128.checkedAdd_eq_some, I128.checkedSub_eq_some,
    getUserAssetPosition_debtPrincipal, getUserAssetPosition_accruedInterest, and_assoc,
    exists_and_left, exists_eq_left', exists_const] at h
  obtain ⟨-, -, p, hpaid, -, -, -, rfl⟩ := h
  obtain ⟨hcollateral, hdebt⟩ := AssetPosition.payOff_ok hpaid
  refine ⟨p, hpaid, booked_debt ?_ ?_⟩
  · rw [← getUserAssetPosition_collateral e.timestamp]
    exact hcollateral
  · rw [zero_sub, ← sub_eq_add_neg]
    rw [getUserAssetPosition_debt] at hdebt
    exact hdebt

/-- A liquidation of an unhealthy user takes collateral that is there for debt that is owed.  Of two
assets it books both positions; of one it writes back the debt it read, and moves the borrows all
the same. -/
structure Liquidated (now : ℕ) (s : Storage) (user : Address)
    (debtAsset collateralAsset : Option Address) (debtToRepay collateralToReceive actual : ℤ)
    (s' : Storage) : Prop where
  judged : ∃ summary, getUserPositionSummary now s user = some (.ok summary) ∧
    summary.isLiquidatable = true
  debt_pos : 0 < debtToRepay
  owed : debtToRepay ≤ (positionOf s user (.fromOption debtAsset)).debt
  taken : ∃ config, s.assetConfigs (.fromOption collateralAsset) = some config ∧
    actualCollateral config collateralToReceive = some actual
  covered : actual ≤ (positionOf s user (.fromOption collateralAsset)).collateral
  distinct : debtAsset ≠ collateralAsset → ∃ t,
    Booked s user debtAsset ((positionOf s user (.fromOption debtAsset)).owing
      ((positionOf s user (.fromOption debtAsset)).debtPrincipal - debtToRepay) now) t ∧
    Booked t user collateralAsset ((positionOf s user (.fromOption collateralAsset)).holding
      ((positionOf s user (.fromOption collateralAsset)).collateral - actual) now) s'
  same : debtAsset = collateralAsset →
    Written s user collateralAsset ((positionOf s user (.fromOption collateralAsset)).holding
      ((positionOf s user (.fromOption collateralAsset)).collateral - actual) now) s' ∧
    getTotalBorrow s' (.fromOption collateralAsset) =
      getTotalBorrow s (.fromOption collateralAsset) - debtToRepay

theorem crossAssetLiquidate_ok {actual : ℤ}
    (h : crossAssetLiquidate liquidator user debtAsset collateralAsset debtToRepay
      collateralToReceive e s = .ok actual s') :
    Liquidated e.timestamp s user debtAsset collateralAsset debtToRepay collateralToReceive actual
      s' := by
  simp only [crossAssetLiquidate, bind_ok, requireAuth_ok, ↓getAssetConfig_seq, ↓failIf_seq,
    readPosition_ok, readSummary_ok, ↓orTrap_seq, ↓asks_seq, ↓store_seq, pure_ok,
    updateTotalBorrow_ok, updateTotalSupply_ok, I128.checkedAdd_eq_some, I128.checkedSub_eq_some,
    getUserAssetPosition_collateral, getUserAssetPosition_debtPrincipal,
    getUserAssetPosition_accruedInterest, and_assoc, exists_and_left, exists_eq_left', exists_const,
    not_lt, not_or, not_le, zero_sub, ← sub_eq_add_neg, Bool.not_eq_false] at h
  obtain ⟨-, _, -, config, hconfig, summary, hsummary, hjudged, hpos, -, actual', hactual, hcovered,
    -, howed, -, -, -, -, -, -, rfl, rfl⟩ := h
  refine ⟨⟨summary, hsummary, hjudged⟩, hpos, howed, ⟨config, hconfig, hactual⟩, hcovered, ?_, ?_⟩
  · intro hne
    have hfirst : Booked s user debtAsset _ (withTotalBorrow (.fromOption debtAsset)
        (getTotalBorrow s (.fromOption debtAsset) + -debtToRepay)
        (setUserAssetPosition user debtAsset ((positionOf s user (.fromOption debtAsset)).owing
          ((positionOf s user (.fromOption debtAsset)).debtPrincipal - debtToRepay)
          e.timestamp) s)) := booked_debt rfl (sub_add_eq_add_sub ..)
    have hkept : positionOf _ user (.fromOption collateralAsset) =
        positionOf s user (.fromOption collateralAsset) :=
      hfirst.positionOf_of_ne fun h => hne (AssetKey.fromOption_injective h.2.symm)
    refine ⟨_, hfirst, ?_⟩
    rw [← hkept]
    exact booked_collateral rfl rfl
  · rintro rfl
    refine ⟨⟨?_, rfl, rfl⟩, ?_⟩
    · exact Function.update_idem ..
    · exact (getTotalBorrow_withTotalBorrow ..).trans (if_pos rfl)

/-! ## The admin's calls -/

/-- A call of the admin writes no position and no total. -/
structure Configured (s s' : Storage) : Prop where
  positions : s'.userPositions = s.userPositions
  supplies : s'.totalSupplies = s.totalSupplies
  borrows : s'.totalBorrows = s.totalBorrows

theorem initializeCa_ok {admin : Address} (h : initializeCa admin e s = .ok u s') :
    Configured s s' := by
  simp only [initializeCa, view_seq, failIf_seq, requireAuth_seq, store_ok] at h
  obtain ⟨-, -, rfl⟩ := h
  exact ⟨rfl, rfl, rfl⟩

theorem requireAdmin_ok (h : requireAdmin e s = .ok u s') : s = s' := by
  simp only [requireAdmin, view_seq, okOr_seq, requireAuth_ok] at h
  obtain ⟨_, -, -, hs⟩ := h
  exact hs

theorem initializeAsset_ok {config : AssetConfig}
    (h : initializeAsset asset config e s = .ok u s') : Configured s s' := by
  simp only [initializeAsset, requireValidConfig, requireValidBasisPoints, bind_ok, ↓failIf_seq,
    ↓store_seq, store_ok, ↓seq_assoc] at h
  obtain ⟨_, t, hadmin, -, -, -, -, -, rfl⟩ := h
  obtain rfl := requireAdmin_ok hadmin
  unfold listAsset
  split
  · exact ⟨rfl, rfl, rfl⟩
  · exact ⟨rfl, rfl, rfl⟩

theorem requireValidFactor_ok {factor : Option ℤ} (h : requireValidFactor factor e s = .ok u s') :
    s = s' := by
  cases factor with
  | none => exact (pure_ok.mp h).2
  | some value =>
    rw [requireValidFactor, requireValidBasisPoints, failIf_ok] at h
    exact h.2

theorem updateAssetConfig_ok {cf lt ms mb : Option ℤ} {cc cb : Option Bool}
    (h : updateAssetConfig asset cf lt ms mb cc cb e s = .ok u s') : Configured s s' := by
  simp only [updateAssetConfig, bind_ok, ↓getAssetConfig_seq, store_ok] at h
  obtain ⟨_, t, hadmin, config, -, _, v, hcf, _, w, hlt, rfl⟩ := h
  obtain rfl := requireAdmin_ok hadmin
  obtain rfl := requireValidFactor_ok hcf
  obtain rfl := requireValidFactor_ok hlt
  exact ⟨rfl, rfl, rfl⟩

theorem updateAssetPrice_ok {price : ℤ} (h : updateAssetPrice asset price e s = .ok u s') :
    Configured s s' := by
  simp only [updateAssetPrice, bind_ok, ↓failIf_seq, ↓getAssetConfig_seq, ↓asks_seq, store_ok] at h
  obtain ⟨_, t, hadmin, -, config, -, rfl⟩ := h
  obtain rfl := requireAdmin_ok hadmin
  exact ⟨rfl, rfl, rfl⟩

theorem freezePool_ok {admin : Address} {freeze : Bool}
    (h : freezePool admin asset freeze e s = .ok u s') : Configured s s' := by
  simp only [freezePool, view_seq, okOr_seq, failIf_seq, requireAuth_seq, getAssetConfig_seq,
    store_ok] at h
  obtain ⟨_, -, -, -, config, -, rfl⟩ := h
  exact ⟨rfl, rfl, rfl⟩

/-- The effect of a call that succeeded. -/
def Op.Effect (now : ℕ) (s s' : Storage) : Op → Prop
  | .deposit user asset amount => Deposited now s user asset amount s'
  | .withdraw user asset amount => Withdrawn now s user asset amount s'
  | .borrow user asset amount => Borrowed now s user asset amount s'
  | .repay user asset amount => Repaid now s user asset amount s'
  | .liquidate _ user debtAsset collateralAsset repaid received => ∃ actual,
    Liquidated now s user debtAsset collateralAsset repaid received actual s'
  | _ => Configured s s'

/-- **A step has the effect of its call.** -/
theorem step_effect {tx : Tx} (h : step tx s = some s') :
    tx.op.Effect tx.env.timestamp s s' := by
  obtain ⟨e, op⟩ := tx
  cases op <;> obtain ⟨r, h⟩ := commit_eq_some.mp h
  case initializeCa => exact initializeCa_ok h
  case initializeAsset => exact initializeAsset_ok h
  case updateAssetConfig => exact updateAssetConfig_ok h
  case updateAssetPrice => exact updateAssetPrice_ok h
  case freezePool => exact freezePool_ok h
  case deposit => exact crossAssetDeposit_ok h
  case withdraw => exact crossAssetWithdraw_ok h
  case borrow => exact crossAssetBorrow_ok h
  case repay => exact crossAssetRepay_ok h
  case liquidate => exact ⟨r, crossAssetLiquidate_ok h⟩

end

/-! ## The totals are the sums of the positions -/

section

variable {s s' t : Storage} {user : Address} {asset : Option Address}

/-- The totals of every asset are the sums over all users of what they hold and of what they owe. -/
structure TotalsAgree (s : Storage) : Prop where
  supply : ∀ key, TotalsTo (fun user => (positionOf s user key).collateral) (getTotalSupply s key)
  borrow : ∀ key, TotalsTo (fun user => (positionOf s user key).debt) (getTotalBorrow s key)

theorem TotalsAgree.empty : TotalsAgree Storage.empty :=
  ⟨fun _ => TotalsTo.zero, fun _ => TotalsTo.zero⟩

/-- One column of positions after one of them was written. -/
theorem Written.totalsTo (h : Written s user asset p s') (f : AssetPosition → ℤ) {total total' : ℤ}
    (hs : TotalsTo (fun u => f (positionOf s u key)) total)
    (htotal : total' = total +
      if key = .fromOption asset then f p - f (positionOf s user key) else 0) :
    TotalsTo (fun u => f (positionOf s' u key)) total' := by
  by_cases hkey : key = .fromOption asset
  · rw [if_pos hkey] at htotal
    refine hs.change_eq user (fun u hu => ?_) ?_
    · rw [h.positionOf_of_ne fun heq => hu heq.1]
    · rw [htotal, hkey, h.positionOf_self]
  · rw [if_neg hkey, add_zero] at htotal
    rw [htotal]
    refine hs.congr fun u => ?_
    rw [h.positionOf_of_ne fun heq => hkey heq.2]

/-- **Booking keeps the totals.** -/
theorem TotalsAgree.booked (hs : TotalsAgree s) (h : Booked s user asset p s') :
    TotalsAgree s' where
  supply key := h.totalsTo AssetPosition.collateral (hs.supply key) (h.supply key)
  borrow key := h.totalsTo AssetPosition.debt (hs.borrow key) (h.borrow key)

theorem TotalsAgree.configured (hs : TotalsAgree s) (h : Configured s s') : TotalsAgree s' := by
  refine ⟨fun key => ?_, fun key => ?_⟩
  · rw [getTotalSupply, h.supplies]
    refine (hs.supply key).congr fun u => ?_
    rw [positionOf, h.positions, positionOf]
  · rw [getTotalBorrow, h.borrows]
    refine (hs.borrow key).congr fun u => ?_
    rw [positionOf, h.positions, positionOf]

/-- A liquidation names two assets. -/
def LiquidatesTwoAssets (_ : Storage) (tx : Tx) : Prop :=
  ∀ liquidator user debtAsset collateralAsset repaid received,
    tx.op = .liquidate liquidator user debtAsset collateralAsset repaid received →
      debtAsset ≠ collateralAsset

/-- **Every step keeps the totals**, if a liquidation names two assets. -/
theorem TotalsAgree.step {tx : Tx} (hs : TotalsAgree s) (hstep : step tx s = some s')
    (htwo : LiquidatesTwoAssets s tx) : TotalsAgree s' := by
  have heffect := step_effect hstep
  obtain ⟨e, op⟩ := tx
  cases op
  case deposit => exact hs.booked heffect.booked
  case withdraw => exact hs.booked heffect.booked
  case borrow => exact hs.booked heffect.booked
  case repay =>
    obtain ⟨p, -, hbooked⟩ := heffect.booked
    exact hs.booked hbooked
  case liquidate =>
    obtain ⟨actual, h⟩ := heffect
    obtain ⟨t, hfirst, hsecond⟩ := h.distinct (htwo _ _ _ _ _ _ rfl)
    exact (hs.booked hfirst).booked hsecond
  all_goals exact hs.configured heffect

/-- **A liquidation that names one asset twice parts the totals from the positions.** -/
theorem Liquidated.parts {now : ℕ} {repaid received actual : ℤ}
    (h : Liquidated now s user asset asset repaid received actual s') (hs : TotalsAgree s) :
    ¬ TotalsAgree s' := by
  intro hs'
  obtain ⟨hwritten, htotal⟩ := h.same rfl
  have hkept : TotalsTo (fun u => (positionOf s' u (.fromOption asset)).debt)
      (getTotalBorrow s (.fromOption asset)) := by
    refine hwritten.totalsTo AssetPosition.debt (hs.borrow (.fromOption asset)) ?_
    rw [if_pos rfl]
    exact (add_eq_left.mpr (sub_self _)).symm
  have hfallen := hkept.unique (hs'.borrow (.fromOption asset))
  rw [htotal] at hfallen
  have := h.debt_pos
  omega

/-- **The totals are the sums of the positions in every state of a run if and only if no liquidation
of the run names one asset twice.** -/
theorem totals_agree_iff (txs : List Tx) :
    (∀ ys, ys <+: txs → TotalsAgree (ledger ys)) ↔
      Meets step LiquidatesTwoAssets Storage.empty txs := by
  refine (meets_iff_throughout (fun s tx s' hstep hs => ⟨hs.step hstep, fun hs' => ?_⟩)
    TotalsAgree.empty).symm
  rintro liquidator user debtAsset collateralAsset repaid received hop rfl
  have heffect := step_effect hstep
  rw [hop] at heffect
  obtain ⟨actual, h⟩ := heffect
  exact h.parts hs hs'

namespace Sample

/-- Alice's collateral comes to count less than what she owes in the same asset. -/
def underwaterInOne : List Tx :=
  deploy false ++ [⟨⟨10, [alice]⟩, .deposit alice (some usdc) 1000⟩,
    ⟨⟨11, [alice]⟩, .borrow alice (some usdc) 700⟩,
    ⟨⟨12, [admin]⟩, .updateAssetConfig (some usdc) (some 5000) (some 5000) none none none none⟩]

/-- Bob liquidates some of it. -/
def liquidateInOne : Tx := ⟨⟨13, [bob]⟩, .liquidate bob alice (some usdc) (some usdc) 100 100⟩

end Sample

/-- Alice owes 700 before and after, and the total falls from 700 to 600. -/
theorem totals_disagree_liquidateInOne :
    ¬ ∀ txs, TotalsAgree (ledger txs) := by
  intro hall
  have hrun : (step Sample.liquidateInOne (ledger Sample.underwaterInOne)).isSome := by
    decide
  obtain ⟨s', hs'⟩ := Option.isSome_iff_exists.mp hrun
  obtain ⟨actual, h⟩ := step_effect hs'
  have hafter : ledger (Sample.underwaterInOne ++ [Sample.liquidateInOne]) = s' := by
    rw [ledger, run_append, run_cons, run_nil]
    exact exec_of_some hs'
  exact h.parts (hall _) (hafter ▸ hall _)

end

end StellarLend.CrossAsset
