import StellarLend.HelloWorld.Quiet

/-!
# HelloWorld/Health — what a position is worth against what it owes

A borrow counts collateral by the oracle where there is a list of assets and by the factor of the
borrowed asset where there is none (`CollateralWorth`), and a position is `Healthy` while that
covers the debt and the interest accrued to now at the minimum ratio.  Both are functions of the
records, the oracle and the parameters; gateways and an operation's approach do not change them.

    no index stored ──▸ read as of now ──▸ not behind the ledger time ──▸ returned, not stored

An update of the lending index stores one only if it finds one behind the ledger time, and what it
finds without a stored one is dated now.  So none is ever stored: every update returns the index
that starts now, whatever the rate, and nobody is charged.
-/

namespace StellarLend.HelloWorld

open Foundations Call
open Lending (Address)

section

variable {ε : Type} {e : Env} {s t s' : Storage} {user : Address} {asset : Option Address}

/-- What a borrow of an asset counts the collateral of a user at. -/
def CollateralWorth (e : Env) (s : Storage) (user : Address) (asset : Option Address) (value : ℤ) :
    Prop :=
  if hasMultiAssetCollateral s user = true then
    ∃ t, calculateTotalCollateralValue user e s = .ok value t
  else value = (getCollateralBalance s user * collateralFactorOf s asset).tdiv 10000

/-- The collateral covers the debt and the interest accrued to now at the minimum ratio. -/
def Healthy (e : Env) (s : Storage) (user : Address) (asset : Option Address) : Prop :=
  ∃ p interest value, s.books.position user = some p ∧ interestNow e s user p = some interest ∧
    CollateralWorth e s user asset value ∧
    minCollateralRatioOr s * (p.debt + interest) ≤ value * 10000

/-! ## Reading the oracle -/

/-- What the oracle answers depends on its own keys. -/
theorem ofOracle_congr {α : Type} {x : Call ℕ OracleStore ε α} {a : α}
    (horacle : t.oracle = s.oracle) (h : (ofOracle x : Invocation ε α) e t = .ok a s') :
    (ofOracle x : Invocation ε α) e s = .ok a { s with oracle := s'.oracle } := by
  obtain ⟨o, hx, rfl⟩ := ofOracle_ok.mp h
  exact ofOracle_ok.mpr ⟨o, horacle ▸ hx, rfl⟩

theorem namedPrice_congr {named : Option Address} {price : ℤ} (horacle : t.oracle = s.oracle)
    (h : (namedPrice named : Invocation ε ℤ) e t = .ok price s') :
    (namedPrice named : Invocation ε ℤ) e s = .ok price { s with oracle := s'.oracle } := by
  cases named with
  | none =>
    obtain ⟨rfl, rfl⟩ := pure_ok.mp h
    rw [horacle]
    rfl
  | some token => exact ofOracle_congr horacle h

/-! ## Congruence -/

/-- The stores agree on all that collateral is valued by. -/
structure SameCollateral (s t : Storage) : Prop where
  oracle : t.oracle = s.oracle
  assetParams : t.assetParams = s.assetParams
  balance : t.books.collateralBalance = s.books.collateralBalance
  assets : t.books.userAssetList = s.books.userAssetList
  held : t.books.userAssetCollateral = s.books.userAssetCollateral

theorem SameCollateral.symm (h : SameCollateral s t) : SameCollateral t s :=
  ⟨h.oracle.symm, h.assetParams.symm, h.balance.symm, h.assets.symm, h.held.symm⟩

theorem Gate.sameCollateral (h : Gate s t) : SameCollateral s t := by
  rw [Gate] at h
  rw [h]
  exact ⟨rfl, rfl, rfl, rfl, rfl⟩

theorem Approach.sameCollateral (h : Approach s t) (horacle : t.oracle = s.oracle) :
    SameCollateral s t := by
  refine ⟨horacle, ?_, ?_, ?_, ?_⟩ <;> rw [Approach] at h <;> rw [h]

theorem SameCollateral.multi (h : SameCollateral s t) (user : Address) :
    hasMultiAssetCollateral t user = hasMultiAssetCollateral s user := by
  rw [hasMultiAssetCollateral, getUserAssetList, h.assets, hasMultiAssetCollateral,
    getUserAssetList]

theorem SameCollateral.factor (h : SameCollateral s t) (asset : Option Address) :
    collateralFactorOf t asset = collateralFactorOf s asset := by
  rw [collateralFactorOf, h.assetParams, collateralFactorOf]

theorem SameCollateral.value {value : ℤ} (h : SameCollateral s t)
    (hvalue : calculateTotalCollateralValue user e s = .ok value s') :
    calculateTotalCollateralValue user e t = .ok value { t with oracle := s'.oracle } := by
  rw [calculateTotalCollateralValue_eq] at hvalue ⊢
  have hheld : getUserAssetCollateral t user = getUserAssetCollateral s user := by
    funext a
    rw [getUserAssetCollateral, h.held, getUserAssetCollateral]
  have hassets : getUserAssetList t user = getUserAssetList s user := by
    rw [getUserAssetList, h.assets, getUserAssetList]
  have hfactor : getCollateralFactor t = getCollateralFactor s := by
    funext a
    rw [getCollateralFactor, h.assetParams, getCollateralFactor]
  rw [hheld, hassets, hfactor]
  exact ofOracle_congr h.oracle.symm hvalue

/-- The worth of collateral depends on what it is valued by. -/
theorem CollateralWorth.congr {value : ℤ} (h : CollateralWorth e s user asset value)
    (hsame : SameCollateral s t) : CollateralWorth e t user asset value := by
  unfold CollateralWorth at h ⊢
  rw [hsame.multi]
  by_cases hlisted : hasMultiAssetCollateral s user = true
  · rw [if_pos hlisted] at h ⊢
    obtain ⟨u, hu⟩ := h
    exact ⟨_, hsame.value hu⟩
  · rw [if_neg hlisted] at h ⊢
    rw [getCollateralBalance, hsame.balance, hsame.factor]
    exact h

/-! ## Interest -/

/-- In a settled state nothing accrues. -/
theorem Settled.indexInterest (h : Settled s) (e : Env) (user : Address) (debt : ℤ) :
    indexInterest e s user debt = some 0 := by
  have hindex : (s.books.userBorrowIndex user).getD INDEX_SCALE = INDEX_SCALE := by
    cases hi : s.books.userBorrowIndex user with
    | none => rfl
    | some i => exact h.index user i hi
  have hnext : nextLendingIndex e s = .ok ⟨INDEX_SCALE, INDEX_SCALE, e.timestamp⟩ := by
    rw [nextLendingIndex, getLendingIndex, h.dormant, Option.getD_none, if_pos le_rfl]
  rw [HelloWorld.indexInterest, hnext]
  simp only [hindex, computeIndexInterest, le_refl, or_true, if_true]
  rfl

/-- Accruing interest on a position charges nothing, and drops what is recorded without
principal. -/
theorem Settled.accrued {p p' : Position} (h : Settled s) (haccrued : Accrued e s user p p' t) :
    p' = { p with
      borrowInterest := if p.debt = 0 then 0 else p.borrowInterest
      lastAccrualTime := e.timestamp } := by
  obtain ⟨i, hi, -, hp'⟩ := haccrued.charged
  rw [h.indexInterest, Option.some.injEq] at hi
  rw [hp', ← hi, add_zero]

theorem Settled.interestNow (h : Settled s) (e : Env) (user : Address) (p : Position) :
    interestNow e s user p = some p.borrowInterest := by
  rw [HelloWorld.interestNow, h.indexInterest, Option.map_some, add_zero]

/-- A gateway changes nobody's health. -/
theorem Healthy.gate (h : Healthy e s user asset) (hs : Settled s) (hgate : Gate s t) :
    Healthy e t user asset := by
  obtain ⟨p, interest, value, hp, hinterest, hworth, hcovers⟩ := h
  rw [hs.interestNow] at hinterest
  have ht := hs.gate hgate
  refine ⟨p, interest, value, hgate.books ▸ hp, by rw [ht.interestNow]; exact hinterest, ?_, ?_⟩
  · exact hworth.congr hgate.sameCollateral
  · rw [Gate] at hgate
    rw [hgate]
    exact hcovers

end

/-! ## The index that never leaves its start -/

section

variable {e e₁ e₂ : Env} {s s₁ s₂ t : Storage}

/-- The rate an update of the index works with. -/
def borrowRateOf (s : Storage) : ℤ := rateOrZero (calculateBorrowRate s)

/-- What an index should grow by in a time at a rate. -/
def indexGrowth (index rate : ℤ) (elapsed : ℕ) : ℤ :=
  index * rate * elapsed / (BASIS_POINTS_SCALE * SECONDS_PER_YEAR)

/-- Interest from one update of the index to the next. -/
structure Accrues (e₁ e₂ : Env) (s₁ s₂ : Storage) : Prop where
  /-- The index grows at the borrow rate. -/
  index : ∀ idx₁ idx₂ t₁ t₂, updateLendingIndex e₁ s₁ = .ok idx₁ t₁ →
    updateLendingIndex e₂ s₂ = .ok idx₂ t₂ → idx₂.borrowIndex = idx₁.borrowIndex +
      indexGrowth idx₁.borrowIndex (borrowRateOf s₂) (e₂.timestamp - e₁.timestamp)
  /-- A borrower touched at the first is charged for the growth of the index at the second. -/
  charge : ∀ {ε : Type} (overflow : ε) user p p' t idx₁ idx₂ t₁ t₂,
    updateLendingIndex e₁ s₁ = .ok idx₁ t₁ → updateLendingIndex e₂ s₂ = .ok idx₂ t₂ →
      s₂.books.position user = some p → p.debt ≠ 0 → p.lastAccrualTime = e₁.timestamp →
        accrueInterest overflow user p e₂ s₂ = .ok p' t → p'.borrowInterest =
          p.borrowInterest + p.debt * (idx₂.borrowIndex - idx₁.borrowIndex) / idx₁.borrowIndex

/-- **An update finds no index and returns one that starts now.** -/
theorem Settled.updateLendingIndex (h : Settled s) (e : Env) :
    updateLendingIndex e s = .ok ⟨INDEX_SCALE, INDEX_SCALE, e.timestamp⟩ s := by
  have hstart : getLendingIndex e s = ⟨INDEX_SCALE, INDEX_SCALE, e.timestamp⟩ := by
    rw [getLendingIndex, h.dormant, Option.getD_none]
  simp only [HelloWorld.updateLendingIndex, bind_ok, look_ok, asks_ok]
  refine ⟨_, s, ⟨hstart, rfl⟩, e.timestamp, s, ⟨rfl, rfl⟩, ?_⟩
  rw [if_pos le_rfl]
  rfl

/-- Nobody is charged. -/
theorem Settled.uncharged {ε : Type} {overflow : ε} {user : Address} {p p' : Position}
    (h : Settled s) (hdebt : p.debt ≠ 0)
    (haccrue : accrueInterest overflow user p e s = .ok p' t) :
    p'.borrowInterest = p.borrowInterest := by
  rw [h.accrued (accrueInterest_ok haccrue), if_neg hdebt]

/-- An index where indexes start grows by the second at every rate but zero. -/
theorem indexGrowth_eq_zero {rate : ℤ} {elapsed : ℕ} (helapsed : 0 < elapsed) :
    indexGrowth INDEX_SCALE rate elapsed = 0 ↔ rate = 0 := by
  have hdenom : (0 : ℤ) < BASIS_POINTS_SCALE * SECONDS_PER_YEAR := by decide
  have hsecond : (1 : ℤ) ≤ elapsed := by exact_mod_cast helapsed
  rw [indexGrowth]
  constructor
  · intro hzero
    rcases lt_trichotomy rate 0 with hneg | rfl | hpos
    · have hproduct : INDEX_SCALE * rate * elapsed < 0 :=
        mul_neg_of_neg_of_pos (mul_neg_of_pos_of_neg (by decide) hneg) (by omega)
      exact absurd hzero (Int.ediv_neg_of_neg_of_pos hproduct hdenom).ne
    · rfl
    · have hunits : 1 ≤ rate * elapsed := one_le_mul_of_one_le_of_one_le hpos hsecond
      have hproduct : INDEX_SCALE ≤ INDEX_SCALE * rate * elapsed := by
        rw [mul_assoc]
        exact le_mul_of_one_le_right (by decide) hunits
      have hone : 1 ≤ INDEX_SCALE * rate * elapsed / (BASIS_POINTS_SCALE * SECONDS_PER_YEAR) := by
        rw [Int.le_ediv_iff_mul_le hdenom, one_mul]
        exact le_trans (by decide) hproduct
      omega
  · rintro rfl
    rw [mul_zero, zero_mul, Int.zero_ediv]

/-- Between two updates of settled states interest accrues as it should exactly where the index
should not grow. -/
theorem Settled.accrues_iff (hs₁ : Settled s₁) (hs₂ : Settled s₂)
    (h : e₁.timestamp < e₂.timestamp) : Accrues e₁ e₂ s₁ s₂ ↔ borrowRateOf s₂ = 0 := by
  have hupdate₁ := hs₁.updateLendingIndex e₁
  have hupdate₂ := hs₂.updateLendingIndex e₂
  rw [← indexGrowth_eq_zero (Nat.sub_pos_of_lt h)]
  constructor
  · intro haccrues
    have hindex := haccrues.index _ _ _ _ hupdate₁ hupdate₂
    exact left_eq_add.mp hindex
  · intro hgrowth
    refine ⟨fun idx₁ idx₂ t₁ t₂ h₁ h₂ => ?_,
      fun overflow user p p' t idx₁ idx₂ t₁ t₂ h₁ h₂ _ hdebt _ haccrue => ?_⟩
    all_goals
      obtain ⟨rfl, -⟩ := Outcome.ok.inj (hupdate₁.symm.trans h₁)
      obtain ⟨rfl, -⟩ := Outcome.ok.inj (hupdate₂.symm.trans h₂)
    · rw [hgrowth, add_zero]
    · rw [hs₂.uncharged hdebt haccrue, sub_self, mul_zero, Int.zero_ediv, add_zero]

/-- **Between two updates of a run interest accrues as it should if and only if the borrow rate is
zero.** -/
theorem accrues_ledger_iff (txs ys : List Tx) (h : e₁.timestamp < e₂.timestamp) :
    Accrues e₁ e₂ (ledger txs) (ledger (txs ++ ys)) ↔ borrowRateOf (ledger (txs ++ ys)) = 0 :=
  Settled.accrues_iff (Reachable.settled ⟨_, rfl⟩) (Reachable.settled ⟨_, rfl⟩) h

namespace Sample

/-- The admin sets the base rate and the floor to nothing. -/
def freeOfInterest : List Tx :=
  [deploy, ⟨envAt 2 [admin], .updateInterestRateConfig admin (some 0) none none none (some 0) none
    none⟩]

/-- Alice has collateral, and borrows a part of it at time 4. -/
def depositNative : List Tx := [deploy, ⟨envAt 2 [alice], .depositCollateral alice none 1000⟩]

def borrowNative : Tx := ⟨envAt 4 [alice], .borrowAsset alice none 100⟩

end Sample

theorem accrues_freeOfInterest :
    Accrues (Sample.envAt 3 []) (Sample.envAt 40 []) (ledger Sample.freeOfInterest)
      (ledger (Sample.freeOfInterest ++ [])) :=
  (accrues_ledger_iff Sample.freeOfInterest [] (by decide)).mpr (by decide)

/-- A year after Alice borrowed at three and a half percent, the index is where it was. -/
theorem not_accrues_borrowNative :
    ¬ ∀ e₁ e₂ txs ys, e₁.timestamp < e₂.timestamp →
      Accrues e₁ e₂ (ledger txs) (ledger (txs ++ ys)) := by
  intro hall
  have hs : ∀ txs, Settled (ledger txs) := fun txs => Reachable.settled ⟨txs, rfl⟩
  have hrate : borrowRateOf (ledger (Sample.depositNative ++ [Sample.borrowNative])) ≠ 0 := by
    decide
  have hlater : Sample.borrowNative.env.timestamp <
      (Sample.envAt 31536004 [Sample.alice]).timestamp := by decide
  exact hrate (((hs _).accrues_iff (hs _) hlater).mp (hall _ _ _ _ hlater))

end

end StellarLend.HelloWorld
