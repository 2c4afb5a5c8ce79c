import StellarLend.Lending.Commitments

/-!
# Lending/PartialFills — a scheduled borrow under a debt ceiling that leaves less room

    committed    1001 for 1501                 1001 · 3/2 is 1501, rounded down
    room         1000
    used         1501 · 1000 / 1001 = 1499     1000 · 3/2 is 1500

Where the room is less than the amount, the collateral is scaled down with the fill.  The scaled
collateral is rounded down, and so are the requirement it is compared with and the least fill.  So
a commitment that was accepted with not quite three halves is refused at the even fills, and a fill
just short of the least one passes (`partial_fills_iff`).
-/

namespace StellarLend.Lending

open Foundations Call

variable {e : Env} {s t s' : Storage} {c : BorrowCommitment} {id : ℕ}

/-! ## What was accepted -/

/-- What the creation of a commitment has checked of its amounts. -/
structure BorrowCommitment.Accepted (c : BorrowCommitment) : Prop where
  borrow_pos : 0 < c.borrowAmount
  minFill_pos : c.minFillBps ≠ 0
  minFill : c.minFillBps ≤ 10000
  fits : I128.Holds (c.borrowAmount * COLLATERAL_RATIO_MIN)
  covered : minCollateral c.borrowAmount ≤ c.collateralAmount

theorem accepted_of_create {tx : Tx} (h : step tx s = some s') (hop : tx.op.commitment = some c) :
    c.Accepted := by
  obtain ⟨e, op⟩ := tx
  cases op <;> cases hop
  simp only [step, Op.apply, commit_eq_some] at h
  obtain ⟨id, h⟩ := h
  simp only [Commitments.createBorrowCommitment, bind_ok, failIf_ok, mapErr_ok, ofExcept_ok,
    validateCollateralRatio_ok, not_or] at h
  obtain ⟨_, _, -, _, _, -, _, _, -, _, _, ⟨⟨hborrow, -, hfillPos, hfill⟩, -⟩, _, _,
    ⟨⟨hfits, hcovered⟩, -⟩, -⟩ := h
  exact ⟨not_le.mp hborrow, hfillPos, not_lt.mp hfill, hfits, hcovered⟩

/-- **Every commitment on record was accepted.** -/
theorem Reachable.accepted (h : Reachable s) : ∀ id c, s.commitment id = some c → c.Accepted := by
  refine h.invariant (I := fun s => ∀ id c, s.commitment id = some c → c.Accepted) nofun
    fun s tx s' hstep hs => ?_
  rcases step_moves hstep with ⟨c₀, hop, -, -, -, hs'⟩ | ⟨id₀, c₀, status, -, -, hc₀, -, -, hs'⟩ |
    ⟨-, -, hs'⟩
  · intro id c hc
    rw [hs', Function.update_apply] at hc
    split at hc
    · cases hc
      exact accepted_of_create hstep hop
    · exact hs id c hc
  · intro id c hc
    rw [hs', Function.update_apply] at hc
    split at hc
    · cases hc
      obtain ⟨h1, h2, h3, h4, h5⟩ := hs id₀ c₀ hc₀
      exact ⟨h1, h2, h3, h4, h5⟩
    · exact hs id c hc
  · rw [hs']
    exact hs

/-! ## The scaled collateral -/

/-- The collateral that goes with a fill, rounded down. -/
def scaledCollateral (c : BorrowCommitment) (fill : ℤ) : ℤ :=
  c.collateralAmount * fill / c.borrowAmount

/-- The collateral falls short of three halves of the amount, and the fill is a smaller and even
one. -/
def RoundedShort (c : BorrowCommitment) (fill : ℤ) : Prop :=
  fill < c.borrowAmount ∧ 2 * c.collateralAmount < 3 * c.borrowAmount ∧ fill % 2 = 0

/-- The requirement is three halves, rounded down. -/
theorem minCollateral_eq {debt : ℤ} (h : 0 ≤ debt) : minCollateral debt = debt * 3 / 2 := by
  rw [minCollateral, COLLATERAL_RATIO_MIN, Int.tdiv_eq_ediv_of_nonneg (by omega)]
  omega

section Fill

variable {fill : ℤ}

theorem BorrowCommitment.Accepted.collateral_ge (h : c.Accepted) :
    c.borrowAmount ≤ c.collateralAmount := by
  have hcovered := h.covered
  have hpos := h.borrow_pos
  rw [minCollateral_eq hpos.le] at hcovered
  omega

/-- The whole amount takes the whole collateral. -/
theorem BorrowCommitment.Accepted.scaled_whole (h : c.Accepted) :
    scaledCollateral c c.borrowAmount = c.collateralAmount :=
  Int.mul_ediv_cancel _ h.borrow_pos.ne'

theorem BorrowCommitment.Accepted.scaled_le (h : c.Accepted) (hle : fill ≤ c.borrowAmount) :
    scaledCollateral c fill ≤ c.collateralAmount := by
  have hnonneg : 0 ≤ c.collateralAmount := h.borrow_pos.le.trans h.collateral_ge
  exact Int.ediv_le_of_le_mul h.borrow_pos (mul_le_mul_of_nonneg_left hle hnonneg)

/-- A fill takes at least as much collateral as it borrows. -/
theorem BorrowCommitment.Accepted.fill_le_scaled (h : c.Accepted) (hfill : 0 ≤ fill) :
    fill ≤ scaledCollateral c fill := by
  rw [scaledCollateral, Int.le_ediv_iff_mul_le h.borrow_pos, mul_comm]
  exact mul_le_mul_of_nonneg_right h.collateral_ge hfill

/-- **The scaled collateral covers a fill unless it is rounded short.**  An odd fill has half a unit
to spare, since its requirement is rounded down as well. -/
theorem BorrowCommitment.Accepted.covered_iff (h : c.Accepted) (hfill : 0 < fill)
    (hle : fill ≤ c.borrowAmount) :
    minCollateral fill ≤ scaledCollateral c fill ↔ ¬ RoundedShort c fill := by
  have hB := h.borrow_pos
  have hcovered := h.covered
  rw [minCollateral_eq hB.le] at hcovered
  rw [minCollateral_eq hfill.le, scaledCollateral, Int.le_ediv_iff_mul_le hB, RoundedShort]
  rcases Int.emod_two_eq_zero_or_one fill with heven | hodd
  · -- an even fill requires exactly three halves
    have hexact : fill * 3 / 2 * 2 = fill * 3 := by omega
    constructor
    · rintro hscaled ⟨-, hshort, -⟩
      nlinarith
    · intro hnot
      rcases hle.lt_or_eq with hless | rfl
      · have henough : 3 * c.borrowAmount ≤ 2 * c.collateralAmount := by omega
        nlinarith
      · exact mul_le_mul_of_nonneg_right hcovered hB.le
  · -- an odd fill requires half a unit less
    have hexact : fill * 3 / 2 * 2 = fill * 3 - 1 := by omega
    have hhalf : 3 * c.borrowAmount - 1 ≤ 2 * c.collateralAmount := by omega
    refine iff_of_true ?_ fun hshort => by omega
    nlinarith

end Fill

/-! ## The fill -/

/-- What of the commitment the debt ceiling leaves room for. -/
def roomyFill (s : Storage) (c : BorrowCommitment) : ℤ :=
  min c.borrowAmount (getDebtCeiling s - getTotalDebt s)

/-- The room does not saturate where the fill is a 128-bit number. -/
theorem BorrowCommitment.Accepted.fillAmount (h : c.Accepted) (hlo : I128.lo ≤ roomyFill s c) :
    fillAmount s c = roomyFill s c := by
  have hmax : c.borrowAmount ≤ I128.hi :=
    (le_mul_of_one_le_right h.borrow_pos.le (by decide)).trans h.fits.2
  have hroom : I128.lo ≤ getDebtCeiling s - getTotalDebt s := hlo.trans (min_le_right _ _)
  rw [Lending.fillAmount, roomyFill, I128.saturatingSub, Range.clamp,
    max_eq_right (le_min (by decide) hroom), ← min_assoc, min_eq_left hmax]

/-- The least fill, rounded down. -/
theorem BorrowCommitment.Accepted.minAllowed (h : c.Accepted) :
    I128.saturatingDiv (I128.saturatingMul c.borrowAmount c.minFillBps) 10000 =
      c.borrowAmount * c.minFillBps / 10000 := by
  have hbps : (c.minFillBps : ℤ) ≤ COLLATERAL_RATIO_MIN := by
    have := h.minFill
    rw [COLLATERAL_RATIO_MIN]
    omega
  have hprod : 0 ≤ c.borrowAmount * (c.minFillBps : ℤ) :=
    mul_nonneg h.borrow_pos.le (Int.natCast_nonneg _)
  have hfits : I128.Holds (c.borrowAmount * c.minFillBps) := by
    refine (I128.holds_of_nonneg hprod).mpr ?_
    exact (mul_le_mul_of_nonneg_left hbps h.borrow_pos.le).trans h.fits.2
  rw [I128.saturatingMul, Range.clamp_of_holds hfits, I128.saturatingDiv,
    Range.clamp_of_holds (I128.holds_tdiv hfits (by decide)), Int.tdiv_eq_ediv_of_nonneg hprod]

theorem BorrowCommitment.Accepted.collateralFill (h : c.Accepted) {fill : ℤ} (hfill : 0 ≤ fill)
    (hfits : I128.Holds (c.collateralAmount * fill)) :
    collateralFill c fill = some (scaledCollateral c fill) := by
  have hB := h.borrow_pos
  have hprod : 0 ≤ c.collateralAmount * fill := mul_nonneg (hB.le.trans h.collateral_ge) hfill
  rw [Lending.collateralFill, if_neg hB.ne', I128.saturatingMul, Range.clamp_of_holds hfits,
    I128.saturatingDiv, Range.clamp_of_holds (I128.holds_tdiv hfits hB),
    Int.tdiv_eq_ediv_of_nonneg hprod, scaledCollateral]

/-! ## Executing -/

/-- Nothing but its amounts keeps the fill from being borrowed: borrowing is not paused, the
interest of the owner is computed, and the product and the sums are 128-bit numbers. -/
structure Unhindered (e : Env) (s : Storage) (c : BorrowCommitment) (fill : ℤ) : Prop where
  unpaused : isPaused s .borrow = false
  product : I128.Holds (c.collateralAmount * fill)
  total : I128.Holds (getTotalDebt s + fill)
  principal :
    I128.Holds ((bucketOf e s c.owner c.borrowAsset .variable).borrowedAmount + fill)
  interest : ∃ accrued,
    interestOf e s (bucketOf e s c.owner c.borrowAsset .variable) = some (.ok accrued) ∧
      I128.Holds ((bucketOf e s c.owner c.borrowAsset .variable).interestAccrued + accrued)
  collateral :
    I128.Holds ((getCollateralPosition s c.owner).amount + scaledCollateral c fill)

/-- **A borrow that nothing hinders succeeds.** -/
theorem borrowFromCommitment_succeeds {fill : ℤ} (hfree : Unhindered e s c fill) (hfill : 0 < fill)
    (hmin : getMinBorrowAmount s ≤ fill) (hroom : fill ≤ getDebtCeiling s - getTotalDebt s)
    (hpos : 0 < scaledCollateral c fill) (hfits : I128.Holds (fill * COLLATERAL_RATIO_MIN))
    (hcovered : minCollateral fill ≤ scaledCollateral c fill) :
    ∃ t, borrowFromCommitment c.owner c.borrowAsset fill c.collateralAsset
      (scaledCollateral c fill) e s = .ok () t := by
  obtain ⟨accrued, haccrued, hinterest⟩ := hfree.interest
  obtain ⟨u, hu, hcalc⟩ := calculateInterest_eq
    (bucketOf e s c.owner c.borrowAsset .variable) e s
  rw [haccrued] at hcalc
  have hcollateral :
      I128.Holds ((getCollateralPosition u c.owner).amount + scaledCollateral c fill) := by
    rw [hu.values.2.2.2.2.1]
    exact hfree.collateral
  simp only [borrowFromCommitment, borrowInner]
  rw [bind_of_ok ((onlyIf_ok (u := ())).mpr
      ⟨fun hfalse => absurd hfalse (by decide), fun _ => rfl⟩),
    bind_of_ok (view_ok.mpr ⟨rfl, rfl⟩),
    bind_of_ok ((failIf_ok (u := ())).mpr ⟨by simp [hfree.unpaused], rfl⟩),
    bind_of_ok ((failIf_ok (u := ())).mpr ⟨by omega, rfl⟩), bind_of_ok (view_ok.mpr ⟨rfl, rfl⟩),
    bind_of_ok ((failIf_ok (u := ())).mpr ⟨not_lt.mpr hmin, rfl⟩),
    bind_of_ok (ofExcept_ok.mpr
      ⟨(validateCollateralRatio_ok (u := ())).mpr ⟨hfits, hcovered⟩, rfl⟩),
    bind_of_ok (view_ok.mpr ⟨rfl, rfl⟩), bind_of_ok (view_ok.mpr ⟨rfl, rfl⟩),
    bind_of_ok (okOr_ok.mpr ⟨I128.checkedAdd_eq_some.mpr ⟨hfree.total, rfl⟩, rfl⟩),
    bind_of_ok ((failIf_ok (u := ())).mpr ⟨by omega, rfl⟩), bind_of_ok (look_ok.mpr ⟨rfl, rfl⟩),
    bind_of_ok hcalc,
    bind_of_ok (okOr_ok.mpr ⟨I128.checkedAdd_eq_some.mpr ⟨hfree.principal, rfl⟩, rfl⟩),
    bind_of_ok (okOr_ok.mpr ⟨I128.checkedAdd_eq_some.mpr ⟨hinterest, rfl⟩, rfl⟩),
    bind_of_ok (asks_ok.mpr ⟨rfl, rfl⟩), bucketRateBps, bind_of_ok (pure_ok.mpr ⟨rfl, rfl⟩),
    bind_of_ok (view_ok.mpr ⟨rfl, rfl⟩),
    bind_of_ok (okOr_ok.mpr ⟨I128.checkedAdd_eq_some.mpr ⟨hcollateral, rfl⟩, rfl⟩)]
  exact ⟨_, rfl⟩

/-- The commitment is pending, its triggers hold, and the fill is at least the minimum borrow, a
128-bit number, and not hindered. -/
structure Due (e : Env) (s : Storage) (id : ℕ) (c : BorrowCommitment) : Prop where
  recorded : s.commitment id = some c
  pending : c.status = .pending
  triggered : triggersSatisfied c.triggers c.combiner e s = .ok true s
  minimum : getMinBorrowAmount s ≤ roomyFill s c
  range : I128.lo ≤ getMinBorrowAmount s
  unhindered : Unhindered e s c (roomyFill s c)

/-- An execution finds a fill no less than the least one. -/
theorem least_of_execute {r : Unit} (h : Commitments.executeBorrowCommitment id e s = .ok r s')
    (hc : s.commitment id = some c) :
    I128.saturatingDiv (I128.saturatingMul c.borrowAmount c.minFillBps) 10000 ≤ fillAmount s c := by
  obtain ⟨c', _, _, hc', -, -, -, hleast, -⟩ := executeBorrowCommitment_steps h
  obtain rfl := Option.some.inj (hc.symm.trans hc')
  exact hleast

/-- A fill that is as large as the least one and covered by its part of the collateral succeeds. -/
theorem Due.executes (h : Due e s id c) (ha : c.Accepted) (hlive : e.timestamp ≤ c.expiryTimestamp)
    (hpos : 0 < roomyFill s c)
    (hleast : c.borrowAmount * c.minFillBps / 10000 ≤ roomyFill s c)
    (hshort : ¬ RoundedShort c (roomyFill s c)) :
    ∃ s', step ⟨e, .executeBorrowCommitment id⟩ s = some s' := by
  have hfill : fillAmount s c = roomyFill s c := ha.fillAmount (h.range.trans h.minimum)
  have hle : roomyFill s c ≤ c.borrowAmount := min_le_left _ _
  have hscaled := hpos.trans_le (ha.fill_le_scaled hpos.le)
  have hcovered := (ha.covered_iff hpos hle).mpr hshort
  have hfits : I128.Holds (roomyFill s c * COLLATERAL_RATIO_MIN) := by
    refine (I128.holds_of_nonneg (mul_nonneg hpos.le (by decide))).mpr ?_
    exact (mul_le_mul_of_nonneg_right hle (by decide)).trans ha.fits.2
  obtain ⟨t, ht⟩ := borrowFromCommitment_succeeds h.unhindered hpos h.minimum (min_le_right _ _)
    hscaled hfits hcovered
  refine ⟨withCommitment id { c with status := .executed } t, commit_eq_some.mpr ⟨(), ?_⟩⟩
  rw [Commitments.executeBorrowCommitment, bind_of_ok (view_ok.mpr ⟨rfl, rfl⟩),
    bind_of_ok (okOr_ok.mpr ⟨h.recorded, rfl⟩),
    bind_of_ok ((failIf_ok (u := ())).mpr ⟨not_not.mpr h.pending, rfl⟩),
    bind_of_ok (asks_ok.mpr ⟨rfl, rfl⟩),
    bind_of_ok ((onlyIf_ok (u := ())).mpr ⟨fun hlate => absurd hlive (not_le.mpr hlate),
      fun _ => rfl⟩), bind_of_ok h.triggered,
    bind_of_ok ((failIf_ok (u := ())).mpr ⟨by decide, rfl⟩),
    bind_of_ok (view_ok.mpr ⟨rfl, rfl⟩), hfill,
    bind_of_ok ((failIf_ok (u := ())).mpr ⟨not_lt.mpr (ha.minAllowed.trans_le hleast), rfl⟩),
    bind_of_ok (view_ok.mpr ⟨rfl, rfl⟩),
    bind_of_ok ((failIf_ok (u := ())).mpr ⟨not_lt.mpr h.minimum, rfl⟩),
    bind_of_ok (orTrap_ok.mpr ⟨ha.collateralFill hpos.le h.unhindered.product, rfl⟩),
    bind_of_ok ((failIf_ok (u := ())).mpr ⟨not_le.mpr hscaled, rfl⟩),
    bind_of_ok (mapErr_ok.mpr (ofExcept_ok.mpr
      ⟨(validateCollateralRatio_ok (u := ())).mpr ⟨hfits, hcovered⟩, rfl⟩)),
    bind_of_ok (mapErr_ok.mpr ht)]
  rfl

/-- What an execution that succeeded has found. -/
theorem Due.of_execute (h : Due e s id c) (ha : c.Accepted)
    (hstep : step ⟨e, .executeBorrowCommitment id⟩ s = some s') :
    e.timestamp ≤ c.expiryTimestamp ∧ 0 < roomyFill s c ∧
      c.borrowAmount * c.minFillBps / 10000 ≤ roomyFill s c ∧
      ¬ RoundedShort c (roomyFill s c) := by
  have hfill : fillAmount s c = roomyFill s c := ha.fillAmount (h.range.trans h.minimum)
  obtain ⟨r, hr⟩ := commit_eq_some.mp hstep
  obtain ⟨c', t, hc', -, hlive, hact, -⟩ := (executeBorrowCommitment_ok hr).store
  obtain rfl : c' = c := Option.some.inj (hc'.symm.trans h.recorded)
  have hb : Borrowed e s c'.owner c'.borrowAsset (fillAmount s c') c'.collateralAsset
      ((collateralFill c' (fillAmount s c')).getD 0) .variable t := actStep_effect hact
  rw [hfill] at hb
  have hpos := hb.amount_pos
  have hcovered := hb.covered
  rw [ha.collateralFill hpos.le h.unhindered.product, Option.getD_some,
    ha.covered_iff hpos (min_le_left _ _)] at hcovered
  refine ⟨hlive, hpos, ?_, hcovered⟩
  exact (hfill ▸ ha.minAllowed ▸ least_of_execute hr h.recorded)

/-- **An execution succeeds exactly if the commitment has not expired and the fill is positive, no
less than the least fill and not rounded short.** -/
theorem Due.execute_iff (h : Due e s id c) (ha : c.Accepted) :
    (∃ s', step ⟨e, .executeBorrowCommitment id⟩ s = some s') ↔
      e.timestamp ≤ c.expiryTimestamp ∧ 0 < roomyFill s c ∧
        c.borrowAmount * c.minFillBps / 10000 ≤ roomyFill s c ∧
        ¬ RoundedShort c (roomyFill s c) :=
  ⟨fun ⟨_, hstep⟩ => h.of_execute ha hstep,
    fun ⟨hlive, hpos, hleast, hshort⟩ => h.executes ha hlive hpos hleast hshort⟩

/-- A partial fill as it is meant: from the least fill on it is borrowed, all the collateral going
with the whole amount and between the requirement and all of it with a part; below the least fill it
is refused. -/
structure FillsAsScheduled (e : Env) (s : Storage) (id : ℕ) (c : BorrowCommitment) : Prop where
  fills : c.borrowAmount * c.minFillBps ≤ roomyFill s c * 10000 →
    ∃ s' used, step ⟨e, .executeBorrowCommitment id⟩ s = some s' ∧
      BorrowRecorded e s c.owner c.borrowAsset (roomyFill s c) c.collateralAsset used s' ∧
      (roomyFill s c = c.borrowAmount → used = c.collateralAmount) ∧
      minCollateral (roomyFill s c) ≤ used ∧ used ≤ c.collateralAmount
  refuses : roomyFill s c * 10000 < c.borrowAmount * c.minFillBps →
    step ⟨e, .executeBorrowCommitment id⟩ s = none

/-- What has to hold for it: from the least fill on, the commitment has not expired and the fill is
not rounded short; below, one of what refuses a fill does. -/
def FillCondition (e : Env) (c : BorrowCommitment) (fill : ℤ) : Prop :=
  if c.borrowAmount * c.minFillBps ≤ fill * 10000 then
    e.timestamp ≤ c.expiryTimestamp ∧ ¬ RoundedShort c fill
  else c.expiryTimestamp < e.timestamp ∨ fill ≤ 0 ∨ fill < c.borrowAmount * c.minFillBps / 10000 ∨
    RoundedShort c fill

/-- **Partial fills are as meant exactly under that condition.** -/
theorem partial_fills_iff (hs : Reachable s) (h : Due e s id c) :
    FillsAsScheduled e s id c ↔ FillCondition e c (roomyFill s c) := by
  have ha := hs.accepted id c h.recorded
  have hle : roomyFill s c ≤ c.borrowAmount := min_le_left _ _
  have hexecute := h.execute_iff ha
  unfold FillCondition
  split <;> rename_i hleast
  · -- from the least fill on: the fill is positive, so all that is left is expiry and rounding
    have hproduct : 0 < c.borrowAmount * (c.minFillBps : ℤ) :=
      mul_pos ha.borrow_pos (by exact_mod_cast Nat.pos_of_ne_zero ha.minFill_pos)
    have hpos : 0 < roomyFill s c := by omega
    have hfloor : c.borrowAmount * c.minFillBps / 10000 ≤ roomyFill s c :=
      Int.ediv_le_of_le_mul (by decide) hleast
    constructor
    · rintro ⟨hfills, -⟩
      obtain ⟨s', -, hstep, -⟩ := hfills hleast
      obtain ⟨hlive, -, -, hshort⟩ := hexecute.mp ⟨s', hstep⟩
      exact ⟨hlive, hshort⟩
    · rintro ⟨hlive, hshort⟩
      refine ⟨fun _ => ?_, fun hless => absurd hleast (not_le.mpr hless)⟩
      obtain ⟨s', hstep⟩ := hexecute.mpr ⟨hlive, hpos, hfloor, hshort⟩
      obtain ⟨r, hr⟩ := commit_eq_some.mp hstep
      have hrecorded := recorded_of_execute hr h.recorded
      rw [ha.fillAmount (h.range.trans h.minimum),
        ha.collateralFill hpos.le h.unhindered.product, Option.getD_some] at hrecorded
      refine ⟨s', _, hstep, hrecorded, fun hwhole => ?_, (ha.covered_iff hpos hle).mpr hshort,
        ha.scaled_le hle⟩
      rw [hwhole, ha.scaled_whole]
  · -- below the least fill: it is refused unless nothing refuses it
    have hless := not_le.mp hleast
    have hnone : step ⟨e, .executeBorrowCommitment id⟩ s = none ↔
        ¬ ∃ s', step ⟨e, .executeBorrowCommitment id⟩ s = some s' := by
      rw [← Option.isSome_iff_exists]
      simp
    have hrefuses : FillsAsScheduled e s id c ↔ step ⟨e, .executeBorrowCommitment id⟩ s = none :=
      ⟨fun hfills => hfills.refuses hless,
        fun hnone => ⟨fun hge => absurd hge hleast, fun _ => hnone⟩⟩
    rw [hrefuses, hnone, hexecute]
    by_cases hshort : RoundedShort c (roomyFill s c)
    · simp [hshort]
    · simp only [hshort, not_false_eq_true, and_true, or_false]
      omega

namespace Sample

/-- Alice schedules a borrow of 1001 against 1501, for when the price is at most 50; the debt
ceiling is 1000. -/
def tightlyScheduled (ceiling : ℤ) : List Tx :=
  [⟨envAt 0 [admin], .initializeProtocol admin ceiling 1000⟩,
    ⟨envAt 0 [admin], .setOracle admin oracle⟩,
    ⟨envAt 1 [alice], .createBorrowCommitment alice [⟨xlm, 50, false⟩] .all usdc xlm 1001 1501
      5000 100⟩]

def tightCommitment : BorrowCommitment :=
  ⟨alice, [⟨xlm, 50, false⟩], .all, usdc, xlm, 1001, 1501, 5000, 100, .pending⟩

/-- Triggers that are found to hold leave the store as it is. -/
theorem triggersSatisfied_of_value {triggers : List PriceTrigger} {combiner : TriggerCombiner}
    (h : (triggersSatisfied triggers combiner e s).value = some true) :
    triggersSatisfied triggers combiner e s = .ok true s := by
  obtain ⟨t, ht⟩ := Outcome.value_eq_some.mp h
  rw [ht, triggersSatisfied_ok ht]

/-- Under either ceiling it is due at the price of 50. -/
theorem due_tightlyScheduled {ceiling : ℤ} (h : ceiling = 1000 ∨ ceiling = 2000) :
    Due (envPriced 4 [bob] 50) (ledger (tightlyScheduled ceiling)) 0 tightCommitment := by
  obtain rfl | rfl := h
  all_goals exact
    { recorded := by decide
      pending := rfl
      triggered := triggersSatisfied_of_value (by decide)
      minimum := by decide
      range := by decide
      unhindered := ⟨by decide, by decide, by decide, by decide, ⟨0, rfl, by decide⟩, by decide⟩ }

end Sample

/-- Under a ceiling of 2000 the whole commitment is filled. -/
theorem partial_fills_roomy : FillsAsScheduled (Sample.envPriced 4 [Sample.bob] 50)
    (ledger (Sample.tightlyScheduled 2000)) 0 Sample.tightCommitment := by
  have hfill : roomyFill (ledger (Sample.tightlyScheduled 2000)) Sample.tightCommitment = 1001 := by
    decide
  refine (partial_fills_iff ⟨_, rfl⟩ (Sample.due_tightlyScheduled (.inr rfl))).mpr ?_
  rw [hfill, FillCondition, if_pos (by decide), RoundedShort]
  exact ⟨by decide, by decide⟩

/-- Under a ceiling of 1000 the commitment has room for almost all of it, and is refused. -/
theorem not_partial_fills_tight : ¬ ∀ e s id c, Reachable s → Due e s id c →
    e.timestamp ≤ c.expiryTimestamp → FillsAsScheduled e s id c := by
  intro hall
  have hdue := Sample.due_tightlyScheduled (.inl rfl)
  have hfill : roomyFill (ledger (Sample.tightlyScheduled 1000)) Sample.tightCommitment = 1000 := by
    decide
  obtain ⟨s', -, hstep, -⟩ := (hall _ _ _ _ ⟨_, rfl⟩ hdue (by decide)).fills
    (by rw [hfill]; decide)
  have hrefused : (step ⟨Sample.envPriced 4 [Sample.bob] 50, .executeBorrowCommitment 0⟩
      (ledger (Sample.tightlyScheduled 1000))).isSome = false := by decide
  rw [hstep] at hrefused
  cases hrefused

end StellarLend.Lending
