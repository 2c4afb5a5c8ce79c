import StellarLend.Lending.Accrual
import StellarLend.Lending.Vault

/-!
# Lending/Effects — what each operation on a position does

One structure an operation, with what a success has checked and what it leaves behind
(`Borrowed`, `Repaid`, `Switched`, `CollateralAdded`, `VaultDeposited`, `VaultWithdrawn`), and one
inversion lemma that produces it.  Nothing above this module unfolds an operation again.

`Frame` is what all of them leave alone: every key outside the positions, the smoothed stable rate
and the alert latch.
-/

namespace StellarLend.Lending

open Foundations Call

variable {e : Env} {s t s' : Storage} {user asset : Address} {amount : ℤ}

/-! ## Agreement of stores -/

/-- The stores hold the same debt records. -/
structure SameDebts (s t : Storage) : Prop where
  variableDebt : t.borrowUserVariableDebt = s.borrowUserVariableDebt
  stableDebt : t.borrowUserStableDebt = s.borrowUserStableDebt
  legacyDebt : t.borrowUserDebt = s.borrowUserDebt

theorem SameDebts.refl (s : Storage) : SameDebts s s := ⟨rfl, rfl, rfl⟩

theorem SameDebts.debtRecord (h : SameDebts s t) (r : RateType) (u : Address) :
    debtRecord t r u = debtRecord s r u := by
  rcases r with _ | _
  · exact congrFun h.variableDebt u
  · exact congrFun h.stableDebt u

theorem SameDebts.getDebtPosition (h : SameDebts s t) (u : Address) (d : Option Address)
    (r : RateType) : getDebtPosition e t u d r = getDebtPosition e s u d r := by
  simp only [Lending.getDebtPosition, h.debtRecord, h.legacyDebt]

/-- Saving the same bucket keeps the debt records the same. -/
theorem SameDebts.savedDebt (h : SameDebts s t) (now : ℕ) (user : Address) (p : DebtPosition) :
    SameDebts (savedDebt now user p s) (savedDebt now user p t) := by
  constructor <;>
    simp only [Lending.savedDebt, updateCompatUserDebt, compatUserDebt, setDebtRecord,
      h.variableDebt, h.stableDebt, h.legacyDebt]

/-- The stores agree outside the positions, the smoothed stable rate and the alert latch. -/
def Frame (s t : Storage) : Prop :=
  t = { s with
    borrowUserDebt := t.borrowUserDebt
    borrowUserVariableDebt := t.borrowUserVariableDebt
    borrowUserStableDebt := t.borrowUserStableDebt
    borrowUserCollateral := t.borrowUserCollateral
    borrowTotalDebt := t.borrowTotalDebt
    stableRateState := t.stableRateState
    userCollateral := t.userCollateral
    totalAmount := t.totalAmount
    lastEmittedTier := t.lastEmittedTier }

theorem Frame.pauseState (h : Frame s t) : t.pauseState = s.pauseState := by
  rw [Frame] at h
  rw [h]

theorem Frame.commitment (h : Frame s t) : t.commitment = s.commitment := by
  rw [Frame] at h
  rw [h]

theorem Frame.feesNonneg (h : Frame s t) (hf : FeesNonneg s) : FeesNonneg t := by
  have hc : t.assetStablecoinConfig = s.assetStablecoinConfig := by
    rw [Frame] at h
    rw [h]
  rwa [FeesNonneg, hc]

/-- The stored admin is named, and signed. -/
@[simp] theorem requireAdmin_ok {admin : Address} {r : Unit} :
    requireAdmin admin e s = .ok r s' ↔ getAdmin s = some admin ∧ admin ∈ e.auths ∧ s = s' := by
  simp [requireAdmin]

@[simp ↓] theorem requireAdmin_seq {admin : Address} {β : Type} {b : β}
    {k : Unit → Invocation BorrowError β} :
    (requireAdmin admin >>= k) e s = .ok b s' ↔
      getAdmin s = some admin ∧ admin ∈ e.auths ∧ k () e s = .ok b s' :=
  (check_seq fun _ _ => requireAdmin_ok.trans and_assoc.symm).trans and_assoc

/-! ## Reading after a save -/

/-- A save of a bucket is read back from that bucket, and no other. -/
theorem debtRecord_savedDebt (now : ℕ) (user : Address) (p : DebtPosition) (s : Storage)
    (r : RateType) (u : Address) :
    debtRecord (savedDebt now user p s) r u =
      if u = user ∧ r = p.rateType then some p else debtRecord s r u := by
  have hset : debtRecord (savedDebt now user p s) r u = debtRecord (setDebtRecord user p s) r u :=
    by rcases r with _ | _ <;> rfl
  rw [hset]
  rcases r with _ | _ <;> rcases hp : p.rateType with _ | _ <;>
    simp [debtRecord, setDebtRecord, hp, Function.update_apply]

theorem debtRecord_savedDebt_self (now : ℕ) (user : Address) (p : DebtPosition) (s : Storage) :
    debtRecord (savedDebt now user p s) p.rateType user = some p := by
  rw [debtRecord_savedDebt, if_pos ⟨rfl, rfl⟩]

/-- The legacy record after a save is rewritten from the buckets. -/
theorem borrowUserDebt_savedDebt (now : ℕ) (user : Address) (p : DebtPosition) (s : Storage)
    (u : Address) :
    (savedDebt now user p s).borrowUserDebt u =
      if u = user then some (compatUserDebt (savedDebt now user p s) user now)
      else s.borrowUserDebt u :=
  Function.update_apply ..

/-- A collateral record that is written is read back. -/
theorem getCollateralPosition_of_update {c : BorrowCollateral}
    (h : s'.borrowUserCollateral = Function.update s.borrowUserCollateral user (some c))
    (u : Address) :
    getCollateralPosition s' u = if u = user then c else getCollateralPosition s u := by
  unfold getCollateralPosition
  rw [h, Function.update_apply]
  split <;> rfl

theorem getCollateralPosition_congr (h : s'.borrowUserCollateral = s.borrowUserCollateral)
    (u : Address) : getCollateralPosition s' u = getCollateralPosition s u := by
  rw [getCollateralPosition, h, getCollateralPosition]

/-! ## Borrowing -/

/-- What a successful borrow has checked and what it leaves behind. -/
structure Borrowed (e : Env) (s : Storage) (user asset : Address) (amount : ℤ)
    (collateralAsset : Address) (collateralAmount : ℤ) (rateType : RateType) (s' : Storage) :
    Prop where
  unpaused : isPaused s .borrow = false
  amount_pos : 0 < amount
  collateral_pos : 0 < collateralAmount
  covered : minCollateral amount ≤ collateralAmount
  ceiling : getTotalDebt s + amount ≤ getDebtCeiling s
  debts : ∃ accrued rate t u, calculateInterest (bucketOf e s user asset rateType) e s =
      .ok accrued t ∧
    bucketRateBps rateType (bucketOf e s user asset rateType).stableRateBps e t = .ok rate u ∧
    s'.stableRateState = u.stableRateState ∧
    SameDebts (savedDebt e.timestamp user
      ⟨(bucketOf e s user asset rateType).borrowedAmount + amount,
        (bucketOf e s user asset rateType).interestAccrued + accrued, e.timestamp, asset, rateType,
        rate⟩ s) s'
  collateral : s'.borrowUserCollateral = Function.update s.borrowUserCollateral user
    (some ⟨(getCollateralPosition s user).amount + collateralAmount, collateralAsset⟩)
  total : s'.borrowTotalDebt = some (getTotalDebt s + amount)
  vault : s'.userCollateral = s.userCollateral
  frame : Frame s s'

theorem validateCollateralRatio_ok {collateral borrow : ℤ} {u : Unit} :
    validateCollateralRatio collateral borrow = .ok u ↔
      I128.Holds (borrow * COLLATERAL_RATIO_MIN) ∧ minCollateral borrow ≤ collateral := by
  simp only [validateCollateralRatio, except_bind_ok, orErr_ok, I128.checkedMul_eq_some,
    I128.checkedDiv_eq_some]
  constructor
  · rintro ⟨_, ⟨hfits, rfl⟩, _, ⟨-, -, rfl⟩, h⟩
    split at h <;> rename_i hless
    · cases h
    · exact ⟨hfits, not_lt.mp hless⟩
  · rintro ⟨hfits, hcovered⟩
    refine ⟨_, ⟨hfits, rfl⟩, _, ⟨by decide, I128.holds_tdiv hfits (by decide), rfl⟩, ?_⟩
    exact if_neg (not_lt.mpr hcovered)

/-- What a borrow runs through, step by step. -/
theorem borrowInner_steps {casset : Address} {camount : ℤ} {rateType : RateType} {auth : BorrowAuth}
    {r : Unit} (h : borrowInner user asset amount casset camount rateType auth e s = .ok r s') :
    (auth = .requireUserSignature → user ∈ e.auths) ∧ isPaused s .borrow = false ∧
      (0 < amount ∧ 0 < camount) ∧ minCollateral amount ≤ camount ∧
      getTotalDebt s + amount ≤ getDebtCeiling s ∧
      I128.Holds ((bucketOf e s user asset rateType).borrowedAmount + amount) ∧
      ∃ accrued t rate w tier,
        calculateInterest (bucketOf e s user asset rateType) e s = .ok accrued t ∧
        bucketRateBps rateType (bucketOf e s user asset rateType).stableRateBps e t =
          .ok rate (withStableRate w s) ∧
        s' = withTier tier (withTotalDebt (getTotalDebt s + amount) (withCollateral user
          ⟨(getCollateralPosition s user).amount + camount, casset⟩ (savedDebt e.timestamp user
            ⟨(bucketOf e s user asset rateType).borrowedAmount + amount,
              (bucketOf e s user asset rateType).interestAccrued + accrued, e.timestamp, asset,
              rateType, rate⟩ (withStableRate w s)))) := by
  simp only [borrowInner, saveDebtPosition, saveCollateralPosition, setTotalDebt,
    onUtilizationChanged, bind_ok, onlyIf_ok, requireAuth_ok, ↓view_seq, ↓failIf_seq, ↓look_seq,
    ↓asks_seq, ↓okOr_seq, ↓ofExcept_seq, validateCollateralRatio_ok, ↓store_seq, store_ok,
    I128.checkedAdd_eq_some, and_assoc, exists_and_left, exists_eq_left', exists_const, ↓seq_assoc]
    at h
  obtain ⟨t, hsigned, htrusted, hpaused, hamounts, -, -, hratio, -, hceil, accrued, u, hcalc,
    hholds, -, rate, v, hrate, -, hs'⟩ := h
  obtain rfl := eq_of_onlyIf hsigned htrusted
  obtain ⟨w, rfl⟩ := ((calculateInterest_refreshes hcalc).trans (bucketRateBps_ok hrate).1).store
  exact ⟨fun hr => (hsigned hr).1, by simpa using hpaused, by omega, hratio, by omega, hholds,
    accrued, u, rate, w, _, hcalc, hrate, hs'.symm⟩

/-- **What a borrow does.** -/
theorem borrowInner_ok {casset : Address} {camount : ℤ} {rateType : RateType} {auth : BorrowAuth}
    {r : Unit} (h : borrowInner user asset amount casset camount rateType auth e s = .ok r s') :
    (auth = .requireUserSignature → user ∈ e.auths) ∧
      Borrowed e s user asset amount casset camount rateType s' := by
  obtain ⟨hauth, hpaused, ⟨hamount, hcamount⟩, hcov, hceil, -, accrued, t, rate, w, tier, hcalc,
    hrate, rfl⟩ := borrowInner_steps h
  exact ⟨hauth, hpaused, hamount, hcamount, hcov, hceil,
    ⟨accrued, rate, t, _, hcalc, hrate, rfl, rfl, rfl, rfl⟩, rfl, rfl, rfl, rfl⟩

/-! ## Repaying -/

/-- What a successful repayment has checked and what it leaves behind: `paid` is the part of the
payment that goes to the principal. -/
structure Repaid (e : Env) (s : Storage) (user asset : Address) (amount : ℤ) (rateType : RateType)
    (s' : Storage) : Prop where
  amount_pos : 0 < amount
  owing : ¬ ((bucketOf e s user asset rateType).borrowedAmount = 0 ∧
    (bucketOf e s user asset rateType).interestAccrued = 0)
  asset_eq : (bucketOf e s user asset rateType).asset = asset
  debts : ∃ accrued paid t, calculateInterest (bucketOf e s user asset rateType) e s =
      .ok accrued t ∧
    s'.stableRateState = t.stableRateState ∧
    paid = max 0 (amount - ((bucketOf e s user asset rateType).interestAccrued + accrued)) ∧
    (0 < paid → paid ≤ (bucketOf e s user asset rateType).borrowedAmount) ∧
    getTotalDebt s' = getTotalDebt s - paid ∧
    SameDebts (savedDebt e.timestamp user
      ⟨(bucketOf e s user asset rateType).borrowedAmount - paid,
        max 0 ((bucketOf e s user asset rateType).interestAccrued + accrued - amount), e.timestamp,
        asset, rateType, (bucketOf e s user asset rateType).stableRateBps⟩ s) s'
  collateral : s'.borrowUserCollateral = s.borrowUserCollateral
  vault : s'.userCollateral = s.userCollateral
  frame : Frame s s'

/-- Interest is paid first, and the rest of the payment goes to the principal. -/
theorem payInterest_ok {interest remaining left : ℤ}
    (h : payInterest amount interest = some (remaining, left)) :
    remaining = max 0 (amount - interest) ∧ left = max 0 (interest - amount) := by
  unfold payInterest at h
  split at h <;> simp at h <;> omega

theorem payPrincipal_ok {borrowed remaining left : ℤ} (hr : 0 ≤ remaining)
    (h : payPrincipal borrowed remaining e s = .ok left t) :
    left = borrowed - remaining ∧ (0 < remaining → remaining ≤ borrowed) ∧
      getTotalDebt t = getTotalDebt s - remaining ∧
      ∃ total, t = { s with borrowTotalDebt := total } := by
  unfold payPrincipal at h
  split at h
  · simp only [setTotalDebt, failIf_seq, not_lt, view_seq, okOr_seq, I128.checkedSub_eq_some,
      store_seq, pure_ok, ↓existsAndEq, and_true] at h
    obtain ⟨hle, -, rfl, rfl⟩ := h
    exact ⟨rfl, fun _ => hle, rfl, _, rfl⟩
  · rename_i hpos
    obtain rfl : remaining = 0 := by omega
    obtain ⟨rfl, rfl⟩ := pure_ok.mp h
    exact ⟨by simp, by simp, by simp, _, rfl⟩

/-- What a repayment runs through, step by step. -/
theorem repayWithRate_steps {rateType : RateType} {r : Unit}
    (h : Borrow.repayWithRate user asset amount rateType e s = .ok r s') :
    0 < amount ∧ ¬ ((bucketOf e s user asset rateType).borrowedAmount = 0 ∧
        (bucketOf e s user asset rateType).interestAccrued = 0) ∧
      (bucketOf e s user asset rateType).asset = asset ∧
      ∃ accrued t remaining left principal u,
        calculateInterest (bucketOf e s user asset rateType) e s = .ok accrued t ∧
        I128.Holds ((bucketOf e s user asset rateType).interestAccrued + accrued) ∧
        payInterest amount ((bucketOf e s user asset rateType).interestAccrued + accrued) =
          some (remaining, left) ∧
        payPrincipal (bucketOf e s user asset rateType).borrowedAmount remaining e t =
          .ok principal u ∧
        s' = savedDebt e.timestamp user ⟨principal, left, e.timestamp,
          (bucketOf e s user asset rateType).asset, rateType,
          (bucketOf e s user asset rateType).stableRateBps⟩ u := by
  simp only [Borrow.repayWithRate, saveDebtPosition, bind_ok, ↓failIf_seq, failIf_ok, ↓look_seq,
    ↓asks_seq, ↓okOr_seq, ↓orTrap_seq, store_ok, I128.checkedAdd_eq_some, Prod.exists, and_assoc,
    exists_and_left, exists_eq_left', exists_const] at h
  obtain ⟨hamount, howing, hasset, accrued, t, hcalc, hholds, remaining, left, hpay, principal, u,
    hprin, hs'⟩ := h
  exact ⟨not_le.mp hamount, howing, not_ne_iff.mp hasset, accrued, t, remaining, left, principal, u,
    hcalc, hholds, hpay, hprin, hs'.symm⟩

/-- **What a repayment does.** -/
theorem repayWithRate_ok {rateType : RateType} {r : Unit}
    (h : Borrow.repayWithRate user asset amount rateType e s = .ok r s') :
    Repaid e s user asset amount rateType s' := by
  obtain ⟨hamount, howing, hasset, a, t, remaining, left, principal, u, hcalc, -, hpay, hprin,
    hs'⟩ := repayWithRate_steps h
  obtain ⟨hrem, hleft⟩ := payInterest_ok hpay
  have hrem0 : 0 ≤ remaining := hrem ▸ le_max_left _ _
  obtain ⟨hprincipal, hle, htotal, _, hu⟩ := payPrincipal_ok hrem0 hprin
  obtain ⟨_, ht⟩ := (calculateInterest_refreshes hcalc).store
  have hst : getTotalDebt t = getTotalDebt s := by
    rw [ht]
    rfl
  rw [hst] at htotal
  refine ⟨hamount, howing, hasset, ⟨a, remaining, t, hcalc, ?_, hrem, hle, ?_, ?_⟩, ?_, ?_,
    ?_⟩
  · rw [hs', hu]
    rfl
  · rw [hs', ← htotal]
    rfl
  · rw [hs', hprincipal, hleft, hasset, hu, ht]
    exact ⟨rfl, rfl, rfl⟩
  all_goals
    rw [hs', hu, ht]
    rfl

/-! ## Switching the rate type -/

/-- What a successful switch has checked and what it leaves behind. -/
structure Switched (e : Env) (s : Storage) (user asset : Address) (toRateType : RateType)
    (s' : Storage) : Prop where
  authorized : user ∈ e.auths
  owing : ¬ ((bucketOf e s user asset toRateType.other).borrowedAmount = 0 ∧
    (bucketOf e s user asset toRateType.other).interestAccrued = 0)
  targetEmpty : (bucketOf e s user asset toRateType).borrowedAmount = 0 ∧
    (bucketOf e s user asset toRateType).interestAccrued = 0
  debts : ∃ accrued rate t u, calculateInterest (bucketOf e s user asset toRateType.other) e s =
      .ok accrued t ∧
    bucketRateBps toRateType (bucketOf e s user asset toRateType).stableRateBps e t = .ok rate u ∧
    s'.stableRateState = u.stableRateState ∧
    SameDebts (savedDebt e.timestamp user
      ⟨(bucketOf e s user asset toRateType.other).borrowedAmount,
        (bucketOf e s user asset toRateType.other).interestAccrued + accrued +
          ((bucketOf e s user asset toRateType.other).borrowedAmount *
            getRateSwitchFeeBps s).tdiv 10000, e.timestamp, asset, toRateType, rate⟩
      (savedDebt e.timestamp user
        ⟨0, 0, e.timestamp, (bucketOf e s user asset toRateType.other).asset, toRateType.other, 0⟩
        s)) s'
  collateral : s'.borrowUserCollateral = s.borrowUserCollateral
  total : s'.borrowTotalDebt = s.borrowTotalDebt
  vault : s'.userCollateral = s.userCollateral
  frame : Frame s s'

/-- What a switch of the rate type runs through, step by step. -/
theorem switchRateType_steps {toRateType : RateType} {r : Unit}
    (h : Borrow.switchRateType user asset toRateType e s = .ok r s') :
    user ∈ e.auths ∧ ¬ ((bucketOf e s user asset toRateType.other).borrowedAmount = 0 ∧
        (bucketOf e s user asset toRateType.other).interestAccrued = 0) ∧
      ((bucketOf e s user asset toRateType).borrowedAmount = 0 ∧
        (bucketOf e s user asset toRateType).interestAccrued = 0) ∧
      ∃ accrued t rate u,
        calculateInterest (bucketOf e s user asset toRateType.other) e s = .ok accrued t ∧
        bucketRateBps toRateType (bucketOf e s user asset toRateType).stableRateBps e t =
          .ok rate u ∧
        s' = savedDebt e.timestamp user ⟨(bucketOf e s user asset toRateType.other).borrowedAmount,
            (bucketOf e s user asset toRateType.other).interestAccrued + accrued +
              ((bucketOf e s user asset toRateType.other).borrowedAmount *
                getRateSwitchFeeBps t).tdiv 10000, e.timestamp, asset, toRateType, rate⟩
          (savedDebt e.timestamp user ⟨0, 0, e.timestamp,
            (bucketOf e s user asset toRateType.other).asset, toRateType.other, 0⟩ u) := by
  simp only [Borrow.switchRateType, saveDebtPosition, bind_ok, requireAuth_ok, ↓failIf_seq,
    ↓look_seq, ↓view_seq, ↓asks_seq, ↓okOr_seq, ↓store_seq, store_ok, I128.checkedAdd_eq_some,
    I128.checkedMul_eq_some, I128.checkedDiv_eq_some, and_assoc, exists_and_left, exists_eq_left',
    exists_const, ↓seq_assoc] at h
  obtain ⟨hauth, howing, hempty, accrued, t, hcalc, -, -, -, -, -, rate, u, hrate, hs'⟩ := h
  exact ⟨hauth, howing, by simpa using hempty, accrued, t, rate, u, hcalc, hrate, hs'.symm⟩

/-- **What a switch of the rate type does.** -/
theorem switchRateType_ok {toRateType : RateType} {r : Unit}
    (h : Borrow.switchRateType user asset toRateType e s = .ok r s') :
    Switched e s user asset toRateType s' := by
  obtain ⟨hauth, howing, hempty, a, t, rate, u, hcalc, hrate, hs'⟩ := switchRateType_steps h
  obtain ⟨_, ht⟩ := (calculateInterest_refreshes hcalc).store
  obtain ⟨_, hu⟩ := (bucketRateBps_ok hrate).1.store
  have hfee : getRateSwitchFeeBps t = getRateSwitchFeeBps s := by
    rw [ht]
    rfl
  rw [hfee] at hs'
  refine ⟨hauth, howing, hempty, ⟨a, rate, t, u, hcalc, hrate, ?_, ?_⟩, ?_, ?_, ?_, ?_⟩
  · rw [hs', hu]
    rfl
  · rw [hs', hu, ht]
    have hsame : ∀ w w', SameDebts s (withStableRate w (withStableRate w' s)) :=
      fun _ _ => ⟨rfl, rfl, rfl⟩
    exact ((hsame _ _).savedDebt e.timestamp user _).savedDebt e.timestamp user _
  all_goals
    rw [hs', hu, ht]
    rfl

/-! ## Adding collateral -/

/-- What a successful deposit of borrow collateral has checked and what it leaves behind. -/
structure CollateralAdded (s : Storage) (user asset : Address) (amount : ℤ) (s' : Storage) :
    Prop where
  amount_pos : 0 < amount
  asset_eq : (getCollateralPosition s user).amount ≠ 0 →
    (getCollateralPosition s user).asset = asset
  store : s' = withCollateral user ⟨(getCollateralPosition s user).amount + amount, asset⟩ s

/-- **What a deposit of borrow collateral does.** -/
theorem borrowDeposit_ok {r : Unit} (h : Borrow.deposit user asset amount e s = .ok r s') :
    CollateralAdded s user asset amount s' := by
  simp only [Borrow.deposit, ne_eq, saveCollateralPosition, failIf_seq, not_le, view_seq, not_and,
    Decidable.not_not, okOr_seq, I128.checkedAdd_eq_some, store_ok, ↓existsAndEq, and_true] at h
  obtain ⟨hamount, hasset, _, rfl⟩ := h
  refine ⟨hamount, hasset, ?_⟩
  split
  · rfl
  · rename_i hne
    rw [hasset hne]

theorem CollateralAdded.debts (h : CollateralAdded s user asset amount s') :
    SameDebts s s' ∧ s'.borrowTotalDebt = s.borrowTotalDebt := by
  rw [h.store]
  exact ⟨⟨rfl, rfl, rfl⟩, rfl⟩

theorem CollateralAdded.frame (h : CollateralAdded s user asset amount s') : Frame s s' := by
  rw [h.store]
  rfl

/-! ## The vault -/

/-- The amount of a user's vault position. -/
def vaultBalance (s : Storage) (user : Address) : ℤ :=
  ((s.userCollateral user).map DepositCollateral.amount).getD 0

theorem getDepositPosition_amount (e : Env) (s : Storage) (user asset : Address) :
    (getDepositPosition e s user asset).amount = vaultBalance s user := by
  unfold getDepositPosition vaultBalance
  cases s.userCollateral user <;> rfl

/-- What a successful deposit has checked and what it leaves behind. -/
structure VaultDeposited (e : Env) (s : Storage) (user asset : Address) (amount : ℤ)
    (s' : Storage) : Prop where
  unpaused : isPaused s .deposit = false
  amount_pos : 0 < amount
  cap : getTotalDeposits s + amount ≤ getDepositCap s
  store : s' = withTotalDeposits (getTotalDeposits s + amount)
    (withVault user ⟨vaultBalance s user + amount, asset, e.timestamp⟩ s)

/-- What a deposit runs through, step by step. -/
theorem depositWithAuth_steps {balance : ℤ} {authenticate : Bool}
    (h : depositWithAuth user asset amount authenticate e s = .ok balance s') :
    (authenticate = true → user ∈ e.auths) ∧ isPaused s .deposit = false ∧ 0 < amount ∧
      I128.Holds (getTotalDeposits s + amount) ∧ getTotalDeposits s + amount ≤ getDepositCap s ∧
      s' = withTotalDeposits (getTotalDeposits s + amount)
        (withVault user ⟨vaultBalance s user + amount, asset, e.timestamp⟩ s) := by
  simp only [depositWithAuth, saveDepositPosition, setTotalDeposits, getDepositPosition_amount,
    onlyIf_seq, requireAuth_ok, view_seq, failIf_seq, okOr_seq, look_seq, asks_seq, store_seq,
    pure_ok, I128.checkedAdd_eq_some, and_assoc, exists_and_left, exists_eq_left', exists_const]
    at h
  obtain ⟨t, hsigned, htrusted, hpaused, hamount, -, hholds, hcap, -, -, hs'⟩ := h
  obtain rfl := eq_of_onlyIf hsigned htrusted
  exact ⟨fun ha => (hsigned ha).1, by simpa using hpaused, not_le.mp hamount, hholds,
    not_lt.mp hcap, hs'.symm⟩

/-- **What a deposit does.** -/
theorem depositWithAuth_ok {balance : ℤ} {authenticate : Bool}
    (h : depositWithAuth user asset amount authenticate e s = .ok balance s') :
    (authenticate = true → user ∈ e.auths) ∧ VaultDeposited e s user asset amount s' := by
  obtain ⟨hauth, hpaused, hamount, -, hcap, hs'⟩ := depositWithAuth_steps h
  exact ⟨hauth, hpaused, hamount, hcap, hs'⟩

theorem VaultDeposited.debts (h : VaultDeposited e s user asset amount s') :
    SameDebts s s' ∧ s'.borrowTotalDebt = s.borrowTotalDebt := by
  rw [h.store]
  exact ⟨⟨rfl, rfl, rfl⟩, rfl⟩

theorem VaultDeposited.frame (h : VaultDeposited e s user asset amount s') : Frame s s' := by
  rw [h.store]
  rfl

/-- What a successful withdrawal has checked and what it leaves behind. -/
structure VaultWithdrawn (e : Env) (s : Storage) (user asset : Address) (amount : ℤ)
    (s' : Storage) : Prop where
  unpaused : isWithdrawPaused s = false ∧ isPaused s .withdraw = false
  amount_pos : 0 < amount
  minimum : getMinWithdrawAmount s ≤ amount
  balance : amount ≤ vaultBalance s user
  ratio : validateCollateralRatioAfterWithdraw s user (vaultBalance s user - amount) = .ok ()
  store : ∃ total, s' = withTotalDeposits total
    (withVault user ⟨vaultBalance s user - amount, asset,
      (getDepositPosition e s user asset).lastDepositTime⟩ s)

/-- What a withdrawal runs through, step by step. -/
theorem withdrawWithAuth_steps {balance : ℤ} {authenticate : Bool}
    (h : withdrawWithAuth user asset amount authenticate e s = .ok balance s') :
    (authenticate = true → user ∈ e.auths) ∧
      (isWithdrawPaused s = false ∧ isPaused s .withdraw = false) ∧ 0 < amount ∧
      getMinWithdrawAmount s ≤ amount ∧ amount ≤ vaultBalance s user ∧
      validateCollateralRatioAfterWithdraw s user (vaultBalance s user - amount) = .ok () ∧
      s' = withTotalDeposits ((I128.checkedSub (getTotalDeposits s) amount).getD 0)
        (withVault user ⟨vaultBalance s user - amount, asset,
          (getDepositPosition e s user asset).lastDepositTime⟩ s) := by
  simp only [withdrawWithAuth, saveDepositPosition, setTotalDeposits, getDepositPosition_amount,
    onlyIf_seq, requireAuth_ok, view_seq, failIf_seq, okOr_seq, look_seq, ofExcept_seq, store_seq,
    pure_ok, I128.checkedSub_eq_some, and_assoc, exists_and_left, exists_eq_left', exists_const]
    at h
  obtain ⟨t, hsigned, htrusted, hpaused, hamount, hmin, hbalance, -, _, hratio, -, hs'⟩ := h
  obtain rfl := eq_of_onlyIf hsigned htrusted
  exact ⟨fun ha => (hsigned ha).1, by simpa using hpaused, not_le.mp hamount, not_lt.mp hmin,
    not_lt.mp hbalance, hratio, hs'.symm⟩

/-- **What a withdrawal does.** -/
theorem withdrawWithAuth_ok {balance : ℤ} {authenticate : Bool}
    (h : withdrawWithAuth user asset amount authenticate e s = .ok balance s') :
    (authenticate = true → user ∈ e.auths) ∧ VaultWithdrawn e s user asset amount s' := by
  obtain ⟨hauth, hpaused, hamount, hmin, hbalance, hratio, hs'⟩ := withdrawWithAuth_steps h
  exact ⟨hauth, hpaused, hamount, hmin, hbalance, hratio, _, hs'⟩

theorem VaultWithdrawn.debts (h : VaultWithdrawn e s user asset amount s') :
    SameDebts s s' ∧ s'.borrowTotalDebt = s.borrowTotalDebt := by
  obtain ⟨_, rfl⟩ := h.store
  exact ⟨⟨rfl, rfl, rfl⟩, rfl⟩

theorem VaultWithdrawn.frame (h : VaultWithdrawn e s user asset amount s') : Frame s s' := by
  obtain ⟨_, rfl⟩ := h.store
  rfl

end StellarLend.Lending
