import StellarLend.HelloWorld.Health

/-!
# HelloWorld/BorrowGates — the two gates of a borrow

    max borrowable, on the accrued position   ─┐
                                               ├─  min ratio * (debt + amount + interest) ≤ worth
    ratio after the borrow, on the stored one ─┘

The first gate rounds the largest debt down and subtracts, the second divides the worth by the
debt, and either comes to one inequality.  They differ in the interest: the accrual drops the
interest of a position without principal, the stored position still has it.  So it is the second
gate that covers it there, and the worth it covers it with is the second one the call takes, after
the prices were read for the first.
-/

namespace StellarLend.HelloWorld

open Foundations Call
open Lending (Address)

variable {e : Env} {s t u s' : Storage} {user : Address} {asset : Option Address} {amount : ℤ}
  {err : BorrowError}

/-- The worth of the collateral, taken once more after it was taken. -/
def RecountedWorth (e : Env) (s : Storage) (user : Address) (asset : Option Address) (value : ℤ) :
    Prop :=
  if hasMultiAssetCollateral s user = true then
    ∃ first t, calculateTotalCollateralValue user e s = .ok first t ∧
      CollateralWorth e t user asset value
  else CollateralWorth e s user asset value

/-- With one asset there is nothing to take once more. -/
theorem recountedWorth_iff_of_single {value : ℤ} (h : hasMultiAssetCollateral s user = false) :
    RecountedWorth e s user asset value ↔ CollateralWorth e s user asset value := by
  rw [RecountedWorth, h, if_neg Bool.false_ne_true]

theorem RecountedWorth.congr {value : ℤ} (h : RecountedWorth e s user asset value)
    (hsame : SameCollateral s t) : RecountedWorth e t user asset value := by
  cases hlisted : hasMultiAssetCollateral s user with
  | true =>
    rw [RecountedWorth, if_pos hlisted] at h
    obtain ⟨first, u, hfirst, hworth⟩ := h
    rw [RecountedWorth, hsame.multi, if_pos hlisted]
    refine ⟨first, _, hsame.value hfirst, hworth.congr ?_⟩
    rw [(calculateTotalCollateralValue_quoted hfirst).keys]
    exact ⟨rfl, hsame.assetParams, hsame.balance, hsame.assets, hsame.held⟩
  | false =>
    have hworth := (recountedWorth_iff_of_single hlisted).mp h
    exact (recountedWorth_iff_of_single ((hsame.multi user).trans hlisted)).mpr (hworth.congr hsame)

/-! ## What the gates count -/

/-- The collateral a gate reads, at the factor it reads it with, is the worth of the collateral. -/
theorem effectiveCollateral_worth {collateral : ℤ} {applyFactor : Bool}
    (h : effectiveCollateral user e s = .ok (collateral, applyFactor) t) :
    CollateralWorth e s user asset
      ((collateral * if applyFactor = true then collateralFactorOf s asset else 10000).tdiv
        10000) := by
  unfold CollateralWorth
  obtain ⟨-, ⟨hmulti, rfl, hvalue⟩ | ⟨hsingle, rfl, rfl, -⟩⟩ := effectiveCollateral_ok h
  · rw [if_pos hmulti, if_neg Bool.false_ne_true, Int.mul_tdiv_cancel _ (by decide)]
    exact ⟨t, hvalue⟩
  · rw [hsingle, if_neg Bool.false_ne_true, if_pos rfl]

/-- After the first gate's reading the second one's is of the worth once more. -/
theorem effectiveCollateral_recount {c : ℤ × Bool} {value : ℤ}
    (h : effectiveCollateral user e s = .ok c t) (hworth : CollateralWorth e t user asset value) :
    RecountedWorth e s user asset value := by
  obtain ⟨-, ⟨hmulti, -, hvalue⟩ | ⟨hsingle, -, -, rfl⟩⟩ := effectiveCollateral_ok h
  · rw [RecountedWorth, if_pos hmulti]
    exact ⟨c.1, t, hvalue, hworth⟩
  · exact (recountedWorth_iff_of_single hsingle).mpr hworth

/-- Reading the collateral fails by overflow alone. -/
theorem effectiveCollateral_err (h : effectiveCollateral user e s = .err err t) :
    err = .overflow := by
  simp only [effectiveCollateral, bind_err, view_ok, view_err, false_or, and_assoc, exists_and_left,
    exists_eq_left'] at h
  split at h
  · simp only [bind_err, mapErr_err, pure_err, and_false, exists_false, or_false] at h
    obtain ⟨_, -, herr⟩ := h
    exact herr.symm
  · simp only [bind_err, view_err, pure_err, and_false, exists_false, or_false] at h

/-! ## The first gate -/

/-- **What can be borrowed is what the worth of the collateral still covers.** -/
theorem maxBorrowable_iff {worth total minRatio : ℤ} (hmin : 0 < minRatio) (htotal : 0 ≤ total)
    (hamount : 0 < amount) :
    (amount ≤ if total < (worth * 10000).tdiv minRatio then (worth * 10000).tdiv minRatio - total
      else 0) ↔ (total + amount) * minRatio ≤ worth * 10000 := by
  rw [← le_tdiv_iff (by omega) hmin]
  split <;> omega

theorem calculateMaxBorrowable_ok {collateral debt interest factor minRatio max : ℤ}
    (h : calculateMaxBorrowable collateral debt interest factor minRatio = .ok max) :
    max = if debt + interest < ((collateral * factor).tdiv 10000 * 10000).tdiv minRatio then
      ((collateral * factor).tdiv 10000 * 10000).tdiv minRatio - (debt + interest) else 0 := by
  simp only [calculateMaxBorrowable, except_bind_ok, orErr_ok, I128.checkedMul_eq_some,
    I128.checkedDiv_eq_some, I128.checkedAdd_eq_some, and_assoc, exists_and_left, exists_eq_left']
    at h
  obtain ⟨-, -, -, -, -, -, -, h⟩ := h
  split at h
  · next hless =>
    rw [if_pos hless]
    exact (I128.checkedSub_eq_some.mp (orErr_ok.mp h)).2.symm
  · next hmore =>
    rw [if_neg hmore]
    exact (Except.ok.inj h).symm

theorem calculateMaxBorrowable_error {collateral debt interest factor minRatio : ℤ}
    (h : calculateMaxBorrowable collateral debt interest factor minRatio = .error err) :
    err = .overflow := by
  simp only [calculateMaxBorrowable, except_bind_error, orErr_error] at h
  obtain ⟨-, rfl⟩ | ⟨_, -, h⟩ := h
  · rfl
  obtain ⟨-, rfl⟩ | ⟨_, -, h⟩ := h
  · rfl
  obtain ⟨-, rfl⟩ | ⟨_, -, h⟩ := h
  · rfl
  obtain ⟨-, rfl⟩ | ⟨_, -, h⟩ := h
  · rfl
  obtain ⟨-, rfl⟩ | ⟨_, -, h⟩ := h
  · rfl
  split at h
  · exact (orErr_error.mp h).2.symm
  · cases h

/-! ## The second gate -/

theorem minCollateralRatioOr_priced (h : Priced s t) :
    minCollateralRatioOr t = minCollateralRatioOr s := by
  rw [h.keys]
  rfl

/-- The comparison at the end of the second gate. -/
theorem ratioGate_ok {value total : ℤ} {r : Unit}
    (h : (do
      let ratio ← okOr
        ((I128.checkedMul value 10000).bind fun scaled => I128.checkedDiv scaled total) .overflow
      let minRatio ← view minCollateralRatioOr
      failIf (ratio < minRatio) .insufficientCollateralRatio : Invocation BorrowError Unit) e s =
        .ok r s') : minCollateralRatioOr s ≤ (value * 10000).tdiv total := by
  simp only [okOr_seq, view_seq, failIf_ok, Option.bind_eq_some_iff, I128.checkedMul_eq_some,
    I128.checkedDiv_eq_some, and_assoc, exists_and_left, exists_eq_left'] at h
  obtain ⟨-, -, -, hratio, -⟩ := h
  exact not_lt.mp hratio

theorem ratioGate_err {value total : ℤ} {err : BorrowError} (herr : err ≠ .overflow)
    (h : (do
      let ratio ← okOr
        ((I128.checkedMul value 10000).bind fun scaled => I128.checkedDiv scaled total) .overflow
      let minRatio ← view minCollateralRatioOr
      failIf (ratio < minRatio) .insufficientCollateralRatio : Invocation BorrowError Unit) e s =
        .err err s') : (value * 10000).tdiv total < minCollateralRatioOr s := by
  simp only [bind_err, okOr_err, okOr_ok, view_err, view_ok, failIf_err, false_or,
    Option.bind_eq_some_iff, I128.checkedMul_eq_some, I128.checkedDiv_eq_some, and_assoc,
    exists_and_left, exists_eq_left'] at h
  obtain ⟨-, hoverflow, -⟩ | ⟨-, -, -, hratio, -⟩ := h
  · exact absurd hoverflow.symm herr
  · exact hratio

/-- **What the second gate lets through is covered**, with the interest on record. -/
theorem validateCollateralRatioAfterBorrow_ok {p : Position} {r : Unit}
    (hp : s.books.position user = some p) (hmin : 0 < minCollateralRatioOr s)
    (hdebt : 0 < p.debt + amount + p.borrowInterest)
    (h : validateCollateralRatioAfterBorrow user amount (collateralFactorOf s asset) e s =
      .ok r s') :
    ∃ value, CollateralWorth e s user asset value ∧
      minCollateralRatioOr s * (p.debt + amount + p.borrowInterest) ≤ value * 10000 := by
  simp only [validateCollateralRatioAfterBorrow, bind_ok, view_ok, ↓okOr_seq, ↓failIf_seq,
    I128.checkedAdd_eq_some, hp, Option.some.injEq, and_assoc, exists_and_left, exists_eq_left']
    at h
  obtain ⟨⟨collateral, applyFactor⟩, t, heffective, -, -, -, h⟩ := h
  have hmin' := minCollateralRatioOr_priced (effectiveCollateral_ok heffective).1.toPriced
  refine ⟨_, effectiveCollateral_worth heffective, ?_⟩
  rw [if_neg hdebt.ne'] at h
  rw [← le_tdiv_iff hmin hdebt, ← hmin']
  cases applyFactor with
  | true =>
    obtain ⟨value, u, hvalue, h⟩ := bind_ok.mp h
    simp only [okOr_ok, Option.bind_eq_some_iff, I128.checkedMul_eq_some, I128.checkedDiv_eq_some,
      and_assoc, exists_and_left, exists_eq_left'] at hvalue
    obtain ⟨-, -, -, rfl, rfl⟩ := hvalue
    exact ratioGate_ok h
  | false =>
    rw [if_neg Bool.false_ne_true, Int.mul_tdiv_cancel _ (by decide)]
    exact ratioGate_ok h

/-- **What it turns away, other than by overflow, is not covered**, or there is nothing to cover it
with. -/
theorem validateCollateralRatioAfterBorrow_err {p : Position} (hp : s.books.position user = some p)
    (hmin : 0 < minCollateralRatioOr s) (hdebt : 0 < p.debt + amount + p.borrowInterest)
    (herr : err ≠ .overflow)
    (h : validateCollateralRatioAfterBorrow user amount (collateralFactorOf s asset) e s =
      .err err s') :
    ∃ value, CollateralWorth e s user asset value ∧ (value = 0 ∨
      value * 10000 < minCollateralRatioOr s * (p.debt + amount + p.borrowInterest)) := by
  simp only [validateCollateralRatioAfterBorrow, bind_err, view_err, view_ok, okOr_err, okOr_ok, hp,
    Option.some.injEq, reduceCtorEq, false_and, false_or, and_assoc, exists_and_left,
    exists_eq_left'] at h
  obtain h | ⟨⟨collateral, applyFactor⟩, t, heffective, h⟩ := h
  · exact absurd (effectiveCollateral_err h) herr
  have hmin' := minCollateralRatioOr_priced (effectiveCollateral_ok heffective).1.toPriced
  refine ⟨_, effectiveCollateral_worth heffective, ?_⟩
  simp only [failIf_err, failIf_ok, I128.checkedAdd_eq_some, and_assoc, exists_and_left,
    exists_eq_left', exists_const] at h
  obtain ⟨hzero, -⟩ | ⟨-, ⟨-, hoverflow, -⟩ | ⟨-, ⟨-, hoverflow, -⟩ | ⟨-, h⟩⟩⟩ := h
  · rw [hzero, zero_mul]
    exact .inl rfl
  · exact absurd hoverflow.symm herr
  · exact absurd hoverflow.symm herr
  · right
    rw [if_neg hdebt.ne'] at h
    rw [← not_le, ← le_tdiv_iff hmin hdebt, ← hmin', not_le]
    cases applyFactor with
    | true =>
      obtain h | ⟨value, u, hvalue, h⟩ := bind_err.mp h
      · exact absurd (okOr_err.mp h).2.1.symm herr
      · simp only [okOr_ok, Option.bind_eq_some_iff, I128.checkedMul_eq_some,
          I128.checkedDiv_eq_some, and_assoc, exists_and_left, exists_eq_left'] at hvalue
        obtain ⟨-, -, -, rfl, rfl⟩ := hvalue
        exact ratioGate_err herr h
    | false =>
      rw [if_neg Bool.false_ne_true, Int.mul_tdiv_cancel _ (by decide)]
      exact ratioGate_err herr h

/-! ## Both gates -/

/-- **What both gates let through is covered twice**: with the interest accrued, and with the
interest on record. -/
theorem borrowGates_ok {p q : Position} {r : Unit} (hp : s.books.position user = some p)
    (hmin : 0 < minCollateralRatioOr s) (htotal : 0 ≤ q.debt + q.borrowInterest)
    (hdebt : 0 < p.debt + amount + p.borrowInterest) (hamount : 0 < amount)
    (h : borrowGates user asset amount q e s = .ok r s') :
    (∃ value, CollateralWorth e s user asset value ∧
      minCollateralRatioOr s * (q.debt + amount + q.borrowInterest) ≤ value * 10000) ∧
    ∃ value, RecountedWorth e s user asset value ∧
      minCollateralRatioOr s * (p.debt + amount + p.borrowInterest) ≤ value * 10000 := by
  simp only [borrowGates, bind_ok, ↓view_seq, ↓ofExcept_seq, ↓failIf_seq] at h
  obtain ⟨⟨collateral, applyFactor⟩, t, heffective, -, max, hmax, hle, hvalid⟩ := h
  obtain ⟨hpriced, -⟩ := effectiveCollateral_ok heffective
  have hmin' := minCollateralRatioOr_priced hpriced.toPriced
  have hfactor : collateralFactorOf t asset = collateralFactorOf s asset := by
    rw [collateralFactorOf, hpriced.keys, collateralFactorOf]
  refine ⟨⟨_, effectiveCollateral_worth heffective, ?_⟩, ?_⟩
  · rw [calculateMaxBorrowable_ok hmax, not_lt, hmin', hfactor,
      maxBorrowable_iff hmin htotal hamount] at hle
    linarith
  · obtain ⟨value, hworth, hcovers⟩ := validateCollateralRatioAfterBorrow_ok
      (hpriced.books ▸ hp) (hmin'.symm ▸ hmin) hdebt hvalid
    rw [hmin'] at hcovers
    exact ⟨value, effectiveCollateral_recount heffective hworth, hcovers⟩

/-- **What either turns away, other than by overflow, is not covered.** -/
theorem borrowGates_err {p q : Position} (hp : s.books.position user = some p)
    (hmin : 0 < minCollateralRatioOr s) (htotal : 0 ≤ q.debt + q.borrowInterest)
    (hdebt : 0 < p.debt + amount + p.borrowInterest) (hamount : 0 < amount) (herr : err ≠ .overflow)
    (h : borrowGates user asset amount q e s = .err err s') :
    (∃ value, CollateralWorth e s user asset value ∧ (value = 0 ∨
      value * 10000 < minCollateralRatioOr s * (q.debt + amount + q.borrowInterest))) ∨
    ∃ value, RecountedWorth e s user asset value ∧ (value = 0 ∨
      value * 10000 < minCollateralRatioOr s * (p.debt + amount + p.borrowInterest)) := by
  simp only [borrowGates, bind_err, view_err, view_ok, ofExcept_err, ofExcept_ok, failIf_err,
    failIf_ok, false_or, and_assoc, exists_and_left, exists_eq_left', exists_const] at h
  obtain h | ⟨⟨collateral, applyFactor⟩, t, heffective, h⟩ := h
  · exact absurd (effectiveCollateral_err h) herr
  obtain ⟨hpriced, -⟩ := effectiveCollateral_ok heffective
  have hmin' := minCollateralRatioOr_priced hpriced.toPriced
  have hfactor : collateralFactorOf t asset = collateralFactorOf s asset := by
    rw [collateralFactorOf, hpriced.keys, collateralFactorOf]
  obtain ⟨hzero, -⟩ | ⟨-, ⟨hmax, -⟩ | ⟨max, hmax, ⟨hless, -⟩ | ⟨-, hvalid⟩⟩⟩ := h
  · refine .inl ⟨_, effectiveCollateral_worth heffective, .inl ?_⟩
    have hzero : collateral = 0 := hzero
    rw [hzero, zero_mul]
    rfl
  · exact absurd (calculateMaxBorrowable_error hmax) herr
  · refine .inl ⟨_, effectiveCollateral_worth heffective, .inr ?_⟩
    rw [calculateMaxBorrowable_ok hmax, hmin', hfactor, ← not_le,
      maxBorrowable_iff hmin htotal hamount] at hless
    linarith [not_le.mp hless]
  · obtain ⟨value, hworth, hfails⟩ := validateCollateralRatioAfterBorrow_err
      (hpriced.books ▸ hp) (hmin'.symm ▸ hmin) hdebt herr hvalid
    rw [hmin'] at hfails
    exact .inr ⟨value, effectiveCollateral_recount heffective hworth, hfails⟩

/-! ## A borrow -/

/-- The worth a borrow is covered with: as it stands, or, for a position that has interest on record
without principal, taken once more. -/
def CountedWorth (e : Env) (s : Storage) (user : Address) (asset : Option Address) (p : Position)
    (value : ℤ) : Prop :=
  if p.debt = 0 ∧ p.borrowInterest ≠ 0 then RecountedWorth e s user asset value
  else CollateralWorth e s user asset value

/-- **With one asset the worth counted is the worth as it stands**, however often it is taken. -/
theorem countedWorth_iff_of_single {p : Position} {value : ℤ}
    (h : hasMultiAssetCollateral s user = false) :
    CountedWorth e s user asset p value ↔ CollateralWorth e s user asset value := by
  rw [CountedWorth, recountedWorth_iff_of_single h, ite_self]

/-- A borrow on a position with its interest passes covered, stores the interest it accrued, and is
turned away by the gates, other than by overflow, for want of cover alone. -/
structure BorrowExact (e : Env) (s : Storage) (user : Address) (asset : Option Address) (amount : ℤ)
    (p : Position) (interest : ℤ) : Prop where
  covered : ∀ s', commit (borrowAsset user asset amount) e s = some s' →
    ∃ value, CountedWorth e s user asset p value ∧
      minCollateralRatioOr s * (p.debt + amount + interest) ≤ value * 10000
  stored : ∀ s', commit (borrowAsset user asset amount) e s = some s' →
    ∃ p', s'.books.position user = some p' ∧ p'.debt = p.debt + amount ∧
      p'.borrowInterest = if p.debt = 0 then 0 else interest
  exact : ∀ q t err u, Borrow.accrueInterest user p e s = .ok q t →
    borrowGates user asset amount q e t = .err err u → err ≠ .overflow →
      ∃ value, (CollateralWorth e s user asset value ∨ RecountedWorth e s user asset value) ∧
        (value = 0 ∨ value * 10000 < minCollateralRatioOr s * (p.debt + amount + interest))

/-- An index that is not negative charges nothing negative. -/
theorem indexInterest_nonneg {debt i : ℤ} (hdebt : 0 ≤ debt)
    (hindex : ∀ j, s.books.userBorrowIndex user = some j → 0 ≤ j)
    (h : indexInterest e s user debt = some i) : 0 ≤ i := by
  unfold indexInterest at h
  split at h
  · next idx hidx =>
    generalize hown : (s.books.userBorrowIndex user).getD idx.borrowIndex = own at h
    unfold computeIndexInterest at h
    split at h
    · exact (Option.some.inj h).le
    · next hcharge =>
      obtain ⟨-, hne, hless⟩ := not_or.mp hcharge |>.imp_right not_or.mp
      have hpos : 0 ≤ own := by
        cases hstored : s.books.userBorrowIndex user with
        | none =>
          rw [hstored, Option.getD_none] at hown
          omega
        | some j =>
          rw [hstored, Option.getD_some] at hown
          exact hown ▸ hindex j hstored
      generalize hcharged : (do
        let delta ← orErr (I128.checkedSub idx.borrowIndex own) InterestRateError.overflow
        let scaled ← orErr (I128.checkedMul debt delta) .overflow
        orErr (I128.checkedDiv scaled own) .divisionByZero) = charge at h
      cases charge with
      | error _ => cases h
      | ok charge =>
        obtain rfl : charge = i := Option.some.inj h
        simp only [except_bind_ok, orErr_ok, I128.checkedSub_eq_some, I128.checkedMul_eq_some,
          I128.checkedDiv_eq_some, and_assoc, exists_and_left, exists_eq_left'] at hcharged
        obtain ⟨-, -, -, -, rfl⟩ := hcharged
        exact Int.tdiv_nonneg (mul_nonneg hdebt (by omega)) hpos
  · cases h

theorem Accrued.sameCollateral {p q : Position} (h : Accrued e s user p q t) :
    SameCollateral s t := by
  obtain ⟨index, hbooks, -⟩ := h.books
  refine ⟨?_, ?_, ?_, ?_, ?_⟩
  · rw [h.keys]
  · rw [h.keys]
  · rw [hbooks]
    rfl
  · rw [hbooks]
    rfl
  · rw [hbooks]
    rfl

/-- **The two gates of a borrow come to one inequality**: the minimum ratio times the debt after the
borrow and the interest accrued to now is covered by the worth of the collateral. -/
theorem borrow_gates_exact {p : Position} {interest : ℤ} (hp : s.books.position user = some p)
    (hinterest : interestNow e s user p = some interest) (hdebt : 0 ≤ p.debt)
    (hrecorded : 0 ≤ p.borrowInterest)
    (hindex : ∀ i, s.books.userBorrowIndex user = some i → 0 ≤ i)
    (hmin : 0 < minCollateralRatioOr s) (hamount : 0 < amount) :
    BorrowExact e s user asset amount p interest := by
  obtain ⟨i, hi, rfl⟩ := Option.map_eq_some_iff.mp hinterest
  have hnonneg := indexInterest_nonneg hdebt hindex hi
  have haccrual : ∀ {q t}, Accrued e s user p q t → t.books.position user = some p ∧
      minCollateralRatioOr t = minCollateralRatioOr s ∧ q.debt = p.debt ∧
      q.borrowInterest = if p.debt = 0 then 0 else p.borrowInterest + i := by
    intro q t h
    obtain ⟨j, hj, -, hq⟩ := h.charged
    obtain rfl : i = j := Option.some.inj (hi.symm.trans hj)
    obtain ⟨index, hbooks, -⟩ := h.books
    refine ⟨by rw [hbooks]; exact hp, ?_, by rw [hq], by rw [hq]⟩
    rw [h.keys]
    rfl
  have hfree : p.debt = 0 → i = 0 := fun hzero => indexInterest_zero (hzero ▸ hi)
  refine ⟨fun s' h => ?_, fun s' h => ?_, fun q t err u haccrue hgates herr => ?_⟩
  · obtain ⟨r, h⟩ := commit_eq_some.mp h
    obtain ⟨q, t, u, haccrued, hgates, -⟩ := (borrowAsset_ok h).moved
    rw [hp, Option.getD_some] at haccrued
    obtain ⟨hposition, hratio, hprincipal, hcharged⟩ := haccrual haccrued
    have hinterest' : 0 ≤ q.borrowInterest := by
      rw [hcharged]
      split <;> omega
    obtain ⟨⟨value, hworth, hcovers⟩, value', hworth', hcovers'⟩ := borrowGates_ok hposition
      (hratio ▸ hmin) (by omega) (by omega) hamount hgates
    rw [hratio] at hcovers hcovers'
    unfold CountedWorth
    by_cases hbare : p.debt = 0 ∧ p.borrowInterest ≠ 0
    · refine ⟨value', ?_, ?_⟩
      · rw [if_pos hbare]
        exact hworth'.congr haccrued.sameCollateral.symm
      · rw [hfree hbare.1, add_zero]
        exact hcovers'
    · refine ⟨value, ?_, ?_⟩
      · rw [if_neg hbare]
        exact hworth.congr haccrued.sameCollateral.symm
      · rw [hprincipal, hcharged] at hcovers
        by_cases hzero : p.debt = 0
        · have hnone : p.borrowInterest = 0 := not_not.mp fun hne => hbare ⟨hzero, hne⟩
          rw [if_pos hzero] at hcovers
          rw [hnone, hfree hzero]
          exact hcovers
        · rw [if_neg hzero] at hcovers
          exact hcovers
  · obtain ⟨r, h⟩ := commit_eq_some.mp h
    obtain ⟨q, t, u, haccrued, -, hbooks⟩ := (borrowAsset_ok h).moved
    rw [hp, Option.getD_some] at haccrued
    obtain ⟨-, -, hprincipal, hcharged⟩ := haccrual haccrued
    have hstored := congrFun (congrArg Books.position hbooks) user
    exact ⟨_, hstored.trans (Function.update_self ..), by rw [← hprincipal], hcharged⟩
  · have haccrued : Accrued e s user p q t := accrueInterest_ok haccrue
    obtain ⟨hposition, hratio, hprincipal, hcharged⟩ := haccrual haccrued
    have hsame := haccrued.sameCollateral.symm
    have hinterest' : 0 ≤ q.borrowInterest ∧ q.borrowInterest ≤ p.borrowInterest + i := by
      rw [hcharged]
      split <;> omega
    have hbound : ∀ {debt}, debt ≤ p.debt + amount + (p.borrowInterest + i) →
        minCollateralRatioOr s * debt ≤
          minCollateralRatioOr s * (p.debt + amount + (p.borrowInterest + i)) :=
      fun hle => mul_le_mul_of_nonneg_left hle hmin.le
    obtain ⟨value, hworth, hfails⟩ | ⟨value, hworth, hfails⟩ := borrowGates_err hposition
      (hratio ▸ hmin) (by omega) (by omega) hamount herr hgates
    · refine ⟨value, .inl (hworth.congr hsame), hfails.imp_right fun hless => ?_⟩
      rw [hratio] at hless
      exact hless.trans_le (hbound (by omega))
    · refine ⟨value, .inr (hworth.congr hsame), hfails.imp_right fun hless => ?_⟩
      rw [hratio] at hless
      exact hless.trans_le (hbound (by omega))

namespace Sample

/-- Alice owes 500 against 1000, and could borrow 200 more. -/
def halfBorrowed : List Tx :=
  [deploy, ⟨envAt 5 [alice], .depositCollateral alice none 1000⟩,
    ⟨envAt 6 [alice], .borrowAsset alice none 500⟩]

end Sample

theorem borrow_gates_exact_halfBorrowed :
    (∃ s', commit (borrowAsset Sample.alice none 200) (Sample.envAt 7 [Sample.alice])
        (ledger Sample.halfBorrowed) = some s') ∧
      BorrowExact (Sample.envAt 7 [Sample.alice]) (ledger Sample.halfBorrowed) Sample.alice none 200
        ⟨1000, 500, 0, 6⟩ 0 := by
  have hrun : (commit (borrowAsset Sample.alice none 200) (Sample.envAt 7 [Sample.alice])
      (ledger Sample.halfBorrowed)).isSome := by decide
  have hindex : ∀ i, (ledger Sample.halfBorrowed).books.userBorrowIndex Sample.alice = some i →
      0 ≤ i := by
    intro i hi
    rw [(Reachable.settled ⟨Sample.halfBorrowed, rfl⟩).index Sample.alice i hi]
    decide
  exact ⟨Option.isSome_iff_exists.mp hrun, borrow_gates_exact (by decide)
    (by decide) (by decide) (by decide) hindex (by decide) (by decide)⟩

end StellarLend.HelloWorld
