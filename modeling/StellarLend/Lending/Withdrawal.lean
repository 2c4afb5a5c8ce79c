import StellarLend.Lending.Buckets

/-!
# Lending/Withdrawal — what a withdrawal leaves behind as cover for the debt

A withdrawal must leave 150% of the debt in the vault, but it reads the debt from the legacy record:
one bucket's, as of its last save.  `withdrawal_safe_iff` says when that is enough: exactly when the
legacy record holds the whole debt (and one unit more where it is odd, since the requirement is
rounded down), or no withdrawal can pass at all.
-/

namespace StellarLend.Lending

open Foundations Call

variable {e : Env} {s s' : Storage} {user : Address}

/-! ## The debt and the cover -/

/-- Principal and interest on the legacy record. -/
def legacyDebt (s : Storage) (user : Address) : ℤ :=
  ((s.borrowUserDebt user).map fun p => p.borrowedAmount + p.interestAccrued).getD 0

/-- Principal and interest accrued to now, of both buckets as `getUserDebtWithRate` reports them;
`none` is a trap. -/
def wholeDebt (e : Env) (s : Storage) (user : Address) : Option ℤ :=
  (reportedDebt e s user .variable).bind fun p =>
    (reportedDebt e s user .stable).map fun q =>
      p.borrowedAmount + p.interestAccrued + (q.borrowedAmount + q.interestAccrued)

/-- The vault balance a withdrawal has to leave; `none` is an overflow, which refuses it. -/
def requiredCollateral (s : Storage) (user : Address) : Option ℤ :=
  match s.borrowUserDebt user with
  | none => some 0
  | some debt =>
    (I128.checkedAdd debt.borrowedAmount debt.interestAccrued).bind fun total =>
      if 0 < total then
        (I128.checkedMul total MIN_COLLATERAL_RATIO_BPS).bind fun x => I128.checkedDiv x 10000
      else some 0

/-- **The ratio check compares what remains with the required collateral.** -/
theorem validateCollateralRatioAfterWithdraw_ok {remaining : ℤ} (h0 : 0 ≤ remaining) :
    validateCollateralRatioAfterWithdraw s user remaining = .ok () ↔
      ∃ required, requiredCollateral s user = some required ∧ required ≤ remaining := by
  unfold validateCollateralRatioAfterWithdraw requiredCollateral
  rcases s.borrowUserDebt user with _ | debt
  · exact ⟨fun _ => ⟨0, rfl, h0⟩, fun _ => rfl⟩
  · rcases hadd : I128.checkedAdd debt.borrowedAmount debt.interestAccrued with _ | total
    · simp [hadd, orErr]
    · by_cases hpos : 0 < total
      · simp [hadd, hpos, Option.bind_eq_some_iff]
        rw [and_assoc]
        refine and_congr_right fun _ => and_congr_right fun _ => ?_
        split
        · rename_i hless
          exact ⟨fun h => (by cases h), fun hle => absurd hle (not_le.mpr hless)⟩
        · rename_i hmore
          exact ⟨fun _ => not_lt.mp hmore, fun _ => rfl⟩
      · simp [hadd, hpos, h0]

/-- The required collateral is 150% of the legacy debt, rounded down. -/
theorem requiredCollateral_ok {required : ℤ} (h : requiredCollateral s user = some required) :
    I128.Holds required ∧ 0 ≤ required ∧
      (0 < legacyDebt s user → 2 * required = 3 * legacyDebt s user - legacyDebt s user % 2) ∧
      (legacyDebt s user ≤ 0 → required = 0) := by
  unfold requiredCollateral at h
  unfold legacyDebt
  rcases hdebt : s.borrowUserDebt user with _ | debt <;> simp only [hdebt] at h
  · cases h
    simp
  · obtain ⟨total, htotal, h⟩ := Option.bind_eq_some_iff.mp h
    obtain ⟨-, rfl⟩ := I128.checkedAdd_eq_some.mp htotal
    rw [Option.map_some, Option.getD_some]
    split at h
    · rename_i hpos
      obtain ⟨scaled, hscaled, h⟩ := Option.bind_eq_some_iff.mp h
      obtain ⟨-, rfl⟩ := I128.checkedMul_eq_some.mp hscaled
      obtain ⟨-, hholds, rfl⟩ := I128.checkedDiv_eq_some.mp h
      refine ⟨hholds, ?_⟩
      rw [MIN_COLLATERAL_RATIO_BPS, Int.tdiv_eq_ediv_of_nonneg (by omega)]
      omega
    · rename_i hneg
      cases h
      exact ⟨I128.holds_zero, le_rfl, fun h => absurd h hneg, fun _ => rfl⟩

/-! ## Withdrawals that pass -/

/-- Some withdrawal of the user passes every check. -/
structure CanWithdraw (e : Env) (s : Storage) (user : Address) : Prop where
  signed : user ∈ e.auths
  unpaused : isWithdrawPaused s = false ∧ isPaused s .withdraw = false
  spare : ∃ required, requiredCollateral s user = some required ∧
    required + max 1 (getMinWithdrawAmount s) ≤ vaultBalance s user

/-- A withdrawal that succeeds. -/
theorem withdraw_ok {asset : Address} {amount : ℤ}
    (h : step ⟨e, .withdraw user asset amount⟩ s = some s') :
    CanWithdraw e s user ∧ vaultBalance s' user = vaultBalance s user - amount ∧
      wholeDebt e s' user = wholeDebt e s user ∧
      ∃ required, requiredCollateral s user = some required ∧ required ≤ vaultBalance s' user := by
  obtain ⟨hsigned, -, hact⟩ := step_direct h rfl
  have he := actStep_effect hact
  obtain ⟨required, hreq, hle⟩ :=
    (validateCollateralRatioAfterWithdraw_ok (sub_nonneg.mpr he.balance)).mp he.ratio
  have hafter : vaultBalance s' user = vaultBalance s user - amount := by
    obtain ⟨_, hs'⟩ := he.store
    simp [hs', vaultBalance, withTotalDeposits, withVault]
  have hspare : required + max 1 (getMinWithdrawAmount s) ≤ vaultBalance s user := by
    have hmax : max 1 (getMinWithdrawAmount s) ≤ amount := max_le he.amount_pos he.minimum
    omega
  refine ⟨⟨hsigned, he.unpaused, required, hreq, hspare⟩, hafter, ?_, required, hreq, ?_⟩
  · obtain ⟨_, hs'⟩ := he.store
    rw [hs']
    rfl
  · rw [hafter]
    exact hle

/-- **Where any withdrawal passes, one passes that leaves no more than is required.** -/
theorem CanWithdraw.lowest (h : CanWithdraw e s user) (asset : Address) :
    ∃ amount s', step ⟨e, .withdraw user asset amount⟩ s = some s' ∧
      requiredCollateral s user = some (vaultBalance s' user) := by
  obtain ⟨hsigned, ⟨hown, hpaused⟩, required, hreq, hspare⟩ := h
  obtain ⟨hholds, h0, -⟩ := requiredCollateral_ok hreq
  have hamount : max 1 (getMinWithdrawAmount s) ≤ vaultBalance s user - required := by omega
  have hrest : vaultBalance s user - (vaultBalance s user - required) = required := by omega
  obtain ⟨s', hs'⟩ : ∃ s', step ⟨e, .withdraw user asset (vaultBalance s user - required)⟩ s =
      some s' := by
    have hratio := (validateCollateralRatioAfterWithdraw_ok h0).mpr ⟨required, hreq, le_rfl⟩
    simp only [step, Op.apply, commit_eq_some]
    simp only [LendingContract.withdraw, Withdraw.withdraw, withdrawWithAuth, saveDepositPosition,
      setTotalDeposits, bind_ok, ↓view_seq, view_ok, hpaused, Bool.false_eq, ↓failIf_seq,
      Bool.not_eq_true, onlyIf_ok, requireAuth_ok, hsigned, true_and, forall_const,
      not_true_eq_false, IsEmpty.forall_iff, and_true, tsub_le_iff_right, zero_add, not_le, not_lt,
      ↓look_seq, ↓okOr_seq, I128.checkedSub_eq_some, ↓ofExcept_seq, ↓store_seq, pure_ok,
      exists_eq_left', exists_const, ↓existsAndEq, exists_and_right, getDepositPosition_amount,
      Bool.or_eq_false_iff, hown, and_self, le_add_iff_nonneg_right, hrest, hholds, hratio,
      and_self_left, exists_and_left]
    omega
  refine ⟨_, s', hs', ?_⟩
  rw [(withdraw_ok hs').2.1, hrest]
  exact hreq

/-! ## Safety -/

/-- A withdrawal of the user that leaves debt leaves 150% of it in the vault, and without debt the
ratio check refuses nothing. -/
structure WithdrawalSafe (e : Env) (s : Storage) (user : Address) : Prop where
  covered : ∀ asset amount s', step ⟨e, .withdraw user asset amount⟩ s = some s' →
    ∀ debt, wholeDebt e s' user = some debt → 0 < debt → 3 * debt ≤ 2 * vaultBalance s' user
  unrefused : (∀ r, (getDebtPosition e s user none r).borrowedAmount = 0 ∧
    (getDebtPosition e s user none r).interestAccrued = 0) →
      ∀ remaining, validateCollateralRatioAfterWithdraw s user remaining = .ok ()

/-- A legacy record that follows buckets without debt holds none. -/
theorem LegacyFollows.no_debt (h : LegacyFollows s)
    (hempty : ∀ r, (getDebtPosition e s user none r).borrowedAmount = 0 ∧
      (getDebtPosition e s user none r).interestAccrued = 0) {debt : DebtPosition}
    (hdebt : s.borrowUserDebt user = some debt) :
    debt.borrowedAmount = 0 ∧ debt.interestAccrued = 0 := by
  have hrecord : ∀ r p, debtRecord s r user = some p →
      p.borrowedAmount = 0 ∧ p.interestAccrued = 0 := by
    intro r p hp
    rw [← getDebtPosition_of_record (e := e) hp none]
    exact hempty r
  obtain ⟨-, now, hl⟩ | ⟨-, hl⟩ := h user
  · obtain rfl := Option.some.inj (hdebt.symm.trans hl)
    have hstable : ∀ p, p = (s.borrowUserStableDebt user).getD (emptyPosition now user .variable) →
        p.borrowedAmount = 0 ∧ p.interestAccrued = 0 := by
      rintro _ rfl
      cases hst : s.borrowUserStableDebt user with
      | none => exact ⟨rfl, rfl⟩
      | some p => exact hrecord .stable p hst
    unfold compatUserDebt
    cases hv : s.borrowUserVariableDebt user with
    | none => exact hstable _ rfl
    | some p =>
      obtain ⟨hprincipal, hinterest⟩ := hrecord .variable p hv
      have howing : ¬ p.Owing := by
        rw [DebtPosition.Owing, hprincipal, hinterest]
        simp
      simp only [if_neg howing]
      exact hstable _ rfl
  · rw [hl] at hdebt
    cases hdebt

/-- **Withdrawals of a user are safe exactly when the legacy record holds the user's whole debt**,
wherever there is debt and a withdrawal can pass. -/
theorem withdrawal_safe_iff (h : Reachable s) (e : Env) (user : Address) :
    WithdrawalSafe e s user ↔ ∀ debt, wholeDebt e s user = some debt → 0 < debt →
      CanWithdraw e s user → debt + legacyDebt s user % 2 ≤ legacyDebt s user := by
  constructor
  · intro hsafe debt hdebt hpos hcan
    obtain ⟨amount, s', hstep, hreq⟩ := hcan.lowest user
    obtain ⟨-, -, hsame, -⟩ := withdraw_ok hstep
    have hcovered := hsafe.covered _ _ _ hstep debt (hsame.trans hdebt) hpos
    obtain ⟨-, -, hless, hnone⟩ := requiredCollateral_ok hreq
    by_cases hlegacy : 0 < legacyDebt s user
    · have := hless hlegacy
      omega
    · have := hnone (not_lt.mp hlegacy)
      omega
  · intro hcond
    refine ⟨fun asset amount s' hstep debt hdebt hpos => ?_, fun hempty remaining => ?_⟩
    · obtain ⟨hcan, -, hsame, required, hreq, hle⟩ := withdraw_ok hstep
      have hlegacy := hcond debt (hsame.symm.trans hdebt) hpos hcan
      obtain ⟨-, -, hless, -⟩ := requiredCollateral_ok hreq
      have := hless (by omega)
      omega
    · unfold validateCollateralRatioAfterWithdraw
      cases hdebt : s.borrowUserDebt user with
      | none => rfl
      | some debt =>
        obtain ⟨hprincipal, hinterest⟩ := h.legacyFollows.no_debt hempty hdebt
        simp [hprincipal, hinterest, I128.checkedAdd, orErr, Range.check]

namespace Sample

/-- Alice borrows at the variable rate and deposits in the vault. -/
def oneBucket : List Tx :=
  [deploy, ⟨envAt 5 [alice], .borrow alice usdc 1000 xlm 1500⟩,
    ⟨envAt 5 [alice], .deposit alice xlm 3000⟩]

/-- Alice borrows at both rates and deposits in the vault. -/
def twoBuckets : List Tx :=
  oneBucket ++ [⟨envAt 5 [alice], .borrowWithRate alice usdc 1000 xlm 1500 .stable⟩]

end Sample

theorem withdrawal_safe_oneBucket :
    WithdrawalSafe (Sample.envAt 5 [Sample.alice]) (ledger Sample.oneBucket) Sample.alice := by
  refine (withdrawal_safe_iff ⟨Sample.oneBucket, rfl⟩ _ _).mpr fun debt hdebt _ _ => ?_
  have hwhole : wholeDebt (Sample.envAt 5 [Sample.alice]) (ledger Sample.oneBucket) Sample.alice =
      some 1000 := by decide
  have hlegacy : legacyDebt (ledger Sample.oneBucket) Sample.alice = 1000 := by decide
  rw [hwhole] at hdebt
  cases hdebt
  rw [hlegacy]
  decide

/-- With 1000 owed in either bucket, 1500 may stay in the vault: 150% of one of them. -/
theorem withdrawal_unsafe_twoBuckets :
    ¬ WithdrawalSafe (Sample.envAt 5 [Sample.alice]) (ledger Sample.twoBuckets) Sample.alice := by
  intro hsafe
  have hrun : ((step ⟨Sample.envAt 5 [Sample.alice], .withdraw Sample.alice Sample.xlm 1500⟩
      (ledger Sample.twoBuckets)).map fun s' =>
        (wholeDebt (Sample.envAt 5 [Sample.alice]) s' Sample.alice, vaultBalance s' Sample.alice)) =
      some (some 2000, 1500) := by decide
  obtain ⟨s', hstep, hs'⟩ := Option.map_eq_some_iff.mp hrun
  obtain ⟨hdebt, hbalance⟩ := Prod.mk.inj hs'
  have := hsafe.covered _ _ s' hstep 2000 hdebt (by decide)
  omega

end StellarLend.Lending
