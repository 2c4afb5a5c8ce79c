import StellarLend.HelloWorld.Quiet
import StellarLend.HelloWorld.Conservation

/-!
# HelloWorld/Treasury — what goes into the reserves, and what comes out

Three acts credit a fee, each to the reserve of one asset: a borrow a share of what is borrowed, a
repayment a share of the interest it pays, a liquidation a share of its incentive.  A flash loan
credits its whole fee, a claim takes out what it pays, and no other call writes a reserve
(`step_reserve`).

The fees are written out over the store they are charged in (`Act.fee`), the incentive of a
liquidation with the penalty at the health the borrower is judged to have.
-/

namespace StellarLend.HelloWorld

open Foundations Call
open Lending (Address)

variable {e : Env} {s t u s' : Storage} {asset : Option Address} {user : Address}

/-! ## Fees -/

/-- The position of a user with its interest accrued. -/
def accruedPosition (e : Env) (s : Storage) (user : Address) : Position :=
  let p := (s.books.position user).getD (.new e.timestamp)
  { p with
    borrowInterest :=
      if p.debt = 0 then 0 else p.borrowInterest + (indexInterest e s user p.debt).getD 0
    lastAccrualTime := e.timestamp }

/-- What a user owes with its interest accrued. -/
def dueNow (e : Env) (s : Storage) (user : Address) : ℤ :=
  (accruedPosition e s user).debt + (accruedPosition e s user).borrowInterest

/-- The fee of a borrow. -/
def borrowFee (s : Storage) (asset : Option Address) (amount : ℤ) : ℤ :=
  (amount * borrowFeeBpsOf s asset).tdiv 10000

/-- The interest a repayment pays. -/
def interestPart (e : Env) (s : Storage) (user : Address) (amount : ℤ) : ℤ :=
  min (min (dueNow e s user) amount) (accruedPosition e s user).borrowInterest

/-- The protocol's part of the interest a repayment pays. -/
def interestFee (e : Env) (s : Storage) (user : Address) (amount : ℤ) : ℤ :=
  (interestPart e s user amount * (getFeeConfig s).interestFeeBps).tdiv 10000

/-- The penalty on a borrower with a debt, by its collateral's value. -/
def penaltyAt (config : RiskParams) (value totalDebt : ℤ) : ℤ :=
  let health := (value * 10000).tdiv totalDebt
  if config.liquidationThreshold ≤ health then config.liquidationIncentive
  else
    min (config.liquidationIncentive + ((config.liquidationThreshold - health) *
      (MAX_PENALTY_BPS - config.liquidationIncentive)).tdiv config.liquidationThreshold)
      MAX_PENALTY_BPS

/-- The value a borrower's collateral is judged to have. -/
def judgedValue (e : Env) (s : Storage) (borrower : Address)
    (debtAsset collateralAsset : Option Address) : Option ℤ :=
  (collateralValueForCheck borrower debtAsset collateralAsset
    (seizableBalance s borrower collateralAsset) e s).value

/-- What an amount of the debt is worth in the collateral, at the prices that are read once the
borrower is judged. -/
def worthFor (e : Env) (s : Storage) (borrower : Address)
    (debtAsset collateralAsset : Option Address) (amount : ℤ) : Option ℤ :=
  Outcome.value ((do
    let _ ← collateralValueForCheck borrower debtAsset collateralAsset
      (seizableBalance s borrower collateralAsset)
    collateralFor debtAsset collateralAsset amount : Invocation LiquidationError ℤ) e s)

/-- The incentive of a liquidation, counted in the debt. -/
def incentiveFor (e : Env) (s : Storage) (borrower : Address)
    (debtAsset collateralAsset : Option Address) (debtAmount : ℤ) : ℤ :=
  match getRiskParams s, judgedValue e s borrower debtAsset collateralAsset with
  | some config, some value =>
    (min (dueNow e s borrower) debtAmount *
      penaltyAt config value (dueNow e s borrower)).tdiv 10000
  | _, _ => 0

/-- The protocol's part of the incentive of a liquidation. -/
def liquidationFee (e : Env) (s : Storage) (borrower : Address)
    (debtAsset collateralAsset : Option Address) (debtAmount : ℤ) : ℤ :=
  (incentiveFor e s borrower debtAsset collateralAsset debtAmount *
    (getFeeConfig s).liquidationFeeBps).tdiv 10000

/-- The fee of a flash loan. -/
def flashLoanFee (s : Storage) (amount : ℤ) : ℤ :=
  (amount * (getFlashLoanConfig s).feeBps).tdiv 10000

/-- The asset whose reserve an act credits. -/
def Act.feeAsset : Act → Option Address
  | .borrow _ asset _ | .repay _ asset _ => asset
  | .liquidate _ _ _ collateralAsset _ => collateralAsset
  | .deposit .. | .withdraw .. => none

/-- The fee of an act. -/
def Act.fee (e : Env) (s : Storage) : Act → ℤ
  | .borrow _ asset amount => borrowFee s asset amount
  | .repay user _ amount => interestFee e s user amount
  | .liquidate _ borrower debtAsset collateralAsset debtAmount =>
    liquidationFee e s borrower debtAsset collateralAsset debtAmount
  | .deposit .. | .withdraw .. => 0

/-- What a call credits to the reserve of an asset. -/
def Op.credited (e : Env) (s : Storage) (op : Op) (asset : Option Address) : ℤ :=
  match op.act s with
  | some a => if asset = a.feeAsset then max (a.fee e s) 0 else 0
  | none =>
    match op with
    | .executeFlashLoan _ token amount _ =>
      if asset = some token then max (flashLoanFee s amount) 0 else 0
    | _ => 0

/-- What a call claims from the reserve of an asset. -/
def Op.claimed (op : Op) (asset : Option Address) : ℤ :=
  match op with
  | .claimReserves _ claimedAsset _ amount => if asset = claimedAsset then amount else 0
  | _ => 0

/-! ## Reading the fees -/

theorem Accrued.position_eq {p p' : Position} (h : Accrued e s user p p' s')
    (hp : p = (s.books.position user).getD (.new e.timestamp)) : p' = accruedPosition e s user := by
  obtain ⟨i, hi, -, hp'⟩ := h.charged
  rw [hp', accruedPosition, ← hp, hi, Option.getD_some]

/-- The penalty that is charged is the one at the borrower's health. -/
theorem calculateDynamicPenalty_eq {value totalDebt penalty : ℤ} (hdebt : totalDebt ≠ 0)
    (h : calculateDynamicPenalty value totalDebt e s = .ok penalty s') :
    ∃ config, getRiskParams s = some config ∧ penalty = penaltyAt config value totalDebt := by
  simp only [calculateDynamicPenalty, if_neg hdebt, view_seq, okOr_seq, Option.bind_eq_some_iff,
    I128.checkedMul_eq_some, I128.checkedDiv_eq_some, and_assoc, exists_and_left, exists_eq_left']
    at h
  obtain ⟨config, hconfig, -, -, -, h⟩ := h
  refine ⟨config, hconfig, ?_⟩
  unfold penaltyAt
  dsimp only
  split at h
  next hsafe =>
    rw [if_pos hsafe]
    exact (pure_ok.mp h).1.symm
  next hdue =>
    simp only [orTrap_seq, okOr_seq, pure_ok, Option.bind_eq_some_iff, I128.checkedAdd_eq_some,
      I128.checkedSub_eq_some, I128.checkedMul_eq_some, I128.checkedDiv_eq_some, and_assoc,
      exists_and_left, exists_eq_left'] at h
    obtain ⟨-, -, -, -, -, -, hpenalty, -⟩ := h
    rw [if_neg hdue, hpenalty]

theorem SameCollateral.seizableBalance (h : SameCollateral s t) (borrower : Address)
    (collateralAsset : Option Address) : seizableBalance t borrower collateralAsset =
      HelloWorld.seizableBalance s borrower collateralAsset := by
  unfold HelloWorld.seizableBalance getCollateralBalance getUserAssetCollateral
  rw [h.multi, h.balance, h.held]

/-- The collateral is judged alike where it is the same. -/
theorem SameCollateral.judgedValue (h : SameCollateral s t) (borrower : Address)
    (debtAsset collateralAsset : Option Address) :
    judgedValue e t borrower debtAsset collateralAsset =
      judgedValue e s borrower debtAsset collateralAsset := by
  rw [HelloWorld.judgedValue, h.seizableBalance, HelloWorld.judgedValue]
  generalize HelloWorld.seizableBalance s borrower collateralAsset = balance
  ext value
  rw [Outcome.value_eq_some, Outcome.value_eq_some]
  exact ⟨fun ⟨_, hu⟩ => ⟨_, collateralValueForCheck_congr h.symm hu⟩,
    fun ⟨_, hu⟩ => ⟨_, collateralValueForCheck_congr h hu⟩⟩

theorem Gate.incentiveFor (h : Gate s t) (borrower : Address)
    (debtAsset collateralAsset : Option Address) (debtAmount : ℤ) :
    incentiveFor e t borrower debtAsset collateralAsset debtAmount =
      HelloWorld.incentiveFor e s borrower debtAsset collateralAsset debtAmount := by
  unfold HelloWorld.incentiveFor
  rw [h.sameCollateral.judgedValue]
  rw [Gate] at h
  rw [h]
  rfl

/-- A gateway changes no fee. -/
theorem Gate.fee (h : Gate s t) (a : Act) : a.fee e t = a.fee e s := by
  have hincentive := h.incentiveFor (e := e)
  rw [Gate] at h
  cases a with
  | liquidate liquidator borrower debtAsset collateralAsset debtAmount =>
    rw [Act.fee, liquidationFee, hincentive, h]
    rfl
  | _ =>
    rw [h]
    rfl

/-! ## What an act credits -/

/-- The token a repayment is pulled from. -/
def repaymentToken (s : Storage) (asset : Option Address) : Option Address :=
  asset.or s.nativeAssetAddress

theorem depositCollateral_treasury {amount r : ℤ}
    (h : depositCollateral user asset amount e s = .ok r s') : s'.treasury = s.treasury := by
  simp only [depositCollateral, bind_ok, ↓failIf_seq, failIf_ok, ↓view_seq, ↓asks_seq, ↓okOr_seq,
    I128.checkedAdd_eq_some, ↓store_seq, pure_ok, and_assoc, exists_and_left, exists_eq_left',
    exists_const] at h
  obtain ⟨-, -, -, _, t, hreceive, -, _, u, hasset, _, _, huser, _, _, htotals, _, _, hlog, -,
    rfl⟩ := h
  have hafter := ((touchUserAnalytics_ok huser).recorded.trans
    (touchProtocolAnalytics_ok htotals).1).trans (addActivityLog_ok hlog).recorded
  have hassets : AssetsOnly (withCollateralBalance user (getCollateralBalance t user + amount) t)
      u := by
    cases asset with
    | none =>
      obtain ⟨-, rfl⟩ := pure_ok.mp hasset
      rfl
    | some token =>
      rw [recordAssetDeposit_ok hasset]
      exact withAssetDeposit_assets ..
  exact hafter.treasury.trans
    (hassets.treasury.trans (receiveDeposit_ok hreceive).recorded.treasury)

theorem withdrawCollateral_treasury {amount r : ℤ}
    (h : withdrawCollateral user asset amount e s = .ok r s') : s'.treasury = s.treasury := by
  simp only [withdrawCollateral, bind_ok, ↓failIf_seq, failIf_ok, ↓view_seq, ↓asks_seq, ↓okOr_seq,
    I128.checkedSub_eq_some, ↓store_seq, pure_ok, and_assoc, exists_and_left, exists_eq_left',
    exists_const] at h
  obtain ⟨-, -, -, -, _, t, hvalid, -, _, u, hasset, _, v, hsend, _, _, huser, _, _, htotals, _, _,
    hlog, -, rfl⟩ := h
  obtain ⟨rfl, -⟩ := validateCollateralRatioAfterWithdraw_ok hvalid
  obtain rfl := recordAssetWithdrawal_ok hasset
  have hsent := (sendToken_ok hsend).trans (touchUserAnalytics_ok huser).toNoted
  have hafter := (hsent.recorded.trans (touchProtocolAnalytics_ok htotals).1).trans
    (addActivityLog_ok hlog).recorded
  have hassets := onAsset_assets (withAssetWithdrawal_assets user · amount) asset
    (withCollateralBalance user (getCollateralBalance s user - amount) s)
  exact hafter.treasury.trans hassets.treasury

theorem sendBorrowed_paid {amount received fee : ℤ} {r : Unit} (hfee : asset = none → fee = 0)
    (h : sendBorrowed user asset amount received fee e s = .ok r s') :
    s'.transfers = s.transfers ++ paymentOut e user asset received ∧
      ∀ b, reserveOf s' b = reserveOf s b + if b = asset then max fee 0 else 0 := by
  cases asset with
  | none =>
    obtain ⟨-, rfl⟩ := pure_ok.mp h
    simp [paymentOut, hfee rfl]
  | some token =>
    simp only [sendBorrowed, bind_ok, asks_ok, ↓failIf_seq, and_assoc, exists_and_left,
      exists_eq_left'] at h
    obtain ⟨_, t, hbalance, -, _, u, htransfer, hcredit⟩ := h
    obtain rfl := tokenBalance_ok hbalance
    obtain rfl := transferOut_ok htransfer
    have hcredited := creditFee_reserve hcredit
    exact ⟨creditFee_transfers hcredit, hcredited⟩

/-- What a borrow pays out and credits. -/
theorem borrowAsset_paid {amount r : ℤ} (h : borrowAsset user asset amount e s = .ok r s') :
    0 < amount - borrowFee s asset amount ∧
      s'.transfers = s.transfers ++ paymentOut e user asset (amount - borrowFee s asset amount) ∧
      ∀ b, reserveOf s' b =
        reserveOf s b + if b = asset then max (borrowFee s asset amount) 0 else 0 := by
  simp only [borrowAsset, bind_ok, ↓failIf_seq, failIf_ok, ↓view_seq, ↓asks_seq, ↓okOr_seq, okOr_ok,
    ↓store_seq, Option.bind_eq_some_iff, I128.checkedAdd_eq_some, I128.checkedSub_eq_some,
    I128.checkedMul_eq_some, I128.checkedDiv_eq_some, and_assoc, exists_and_left, exists_eq_left',
    exists_const] at h
  obtain ⟨-, -, -, -, p, t, haccrued, _, u, hgates, -, -, -, -, -, hreceived, _, v, hsend, _, _,
    huser, _, _, htotals, _, _, hlog, -, -, rfl⟩ := h
  have haccrued : Accrued e s user _ p t := accrueInterest_ok haccrued
  have hgated := borrowGates_quoted hgates
  have hbefore : u.assetParams = s.assetParams ∧ u.transfers = s.transfers ∧
      u.treasury = s.treasury := by
    rw [hgated.keys, haccrued.keys]
    exact ⟨rfl, rfl, rfl⟩
  have hfee : (amount * borrowFeeBpsOf u asset).tdiv 10000 = borrowFee s asset amount := by
    rw [borrowFee, borrowFeeBpsOf, hbefore.1, borrowFeeBpsOf]
  rw [hfee] at hreceived hsend
  have hnative : asset = none → borrowFee s asset amount = 0 := by
    rintro rfl
    simp [borrowFee, borrowFeeBpsOf]
  obtain ⟨hsent, hcredited⟩ := sendBorrowed_paid hnative hsend
  obtain ⟨hrecorded, -, hstill⟩ := touchProtocolAnalytics_ok htotals
  have hlogged := addActivityLog_ok hlog
  refine ⟨by omega, ?_, fun b => ?_⟩
  · rw [hlogged.transfers, hstill, (touchUserAnalytics_ok huser).transfers, hsent, ← hbefore.2.1]
    rfl
  · have hafter := ((touchUserAnalytics_ok huser).recorded.trans hrecorded).trans hlogged.recorded
    rw [reserveOf, hafter.treasury, ← reserveOf, hcredited, reserveOf, reserveOf, ← hbefore.2.2]
    rfl

/-- A token that lets a movement through has accepted it. -/
theorem receiveRepayment_paid {token : Address} {amount : ℤ} {r : Unit}
    (h : receiveRepayment token user amount e s = .ok r s') :
    s' = { s with transfers := s.transfers ++ paymentIn e user (some token) amount } ∧
      e.accepts s.transfers
        ⟨token, some e.currentContractAddress, user, e.currentContractAddress, amount⟩ = true := by
  simp only [receiveRepayment, bind_ok, ↓failIf_seq] at h
  obtain ⟨_, t, hbalance, -, h⟩ := h
  obtain rfl := tokenBalance_ok hbalance
  refine ⟨transferIn_ok h, ?_⟩
  simp [transferIn, moveTokens] at h
  exact h.1

/-- The interest fee of an interest that is paid. -/
theorem creditInterestFee_paid {interestPaid bps : ℤ} {r : Unit} (hbps : 0 ≤ bps)
    (h : onlyIf (0 < interestPaid) (creditInterestFee asset interestPaid bps) e s = .ok r s') :
    s'.transfers = s.transfers ∧ ∀ b, reserveOf s' b =
      reserveOf s b + if b = asset then max ((interestPaid * bps).tdiv 10000) 0 else 0 := by
  by_cases hpaid : 0 < interestPaid
  · have hcredit := (onlyIf_ok.mp h).1 hpaid
    simp only [creditInterestFee, okOr_seq, Option.bind_eq_some_iff, I128.checkedMul_eq_some,
      I128.checkedDiv_eq_some, and_assoc, exists_and_left, exists_eq_left'] at hcredit
    obtain ⟨-, -, -, hcredit⟩ := hcredit
    exact ⟨creditFee_transfers hcredit, creditFee_reserve hcredit⟩
  · obtain rfl := (onlyIf_ok.mp h).2 hpaid
    have hnone : (interestPaid * bps).tdiv 10000 ≤ 0 := by
      have hproduct : interestPaid * bps ≤ 0 := mul_nonpos_of_nonpos_of_nonneg (by omega) hbps
      have hneg := Int.tdiv_nonneg (a := -(interestPaid * bps)) (b := 10000) (by omega) (by decide)
      rw [Int.neg_tdiv] at hneg
      omega
    refine ⟨rfl, fun b => ?_⟩
    rw [max_eq_right hnone, ite_self, add_zero]

theorem recordRepayment_transfers {repaid : ℤ} {r : Unit}
    (h : recordRepayment user asset repaid e s = .ok r s') : s'.transfers = s.transfers := by
  simp only [recordRepayment, bind_ok] at h
  obtain ⟨_, _, huser, _, _, htotals, _, _, hlog, h⟩ := h
  rw [((addActivityLog_ok hlog).trans (addActivityLog_ok h)).transfers,
    (touchProtocolAnalytics_ok htotals).2.2, (touchUserAnalytics_ok huser).transfers]

/-- What a repayment pulls in and credits. -/
theorem repayDebt_paid {amount : ℤ} {r : ℤ × ℤ × ℤ} (hfees : 0 ≤ (getFeeConfig s).interestFeeBps)
    (h : repayDebt user asset amount e s = .ok r s') :
    ∃ token, repaymentToken s asset = some token ∧
      s'.transfers = s.transfers ++ paymentIn e user asset (min (dueNow e s user) amount) ++
        paymentIn e user (some token) (min (dueNow e s user) amount) ∧
      (∃ ts, e.accepts ts ⟨token, some e.currentContractAddress, user, e.currentContractAddress,
        min (dueNow e s user) amount⟩ = true) ∧
      ∀ b, reserveOf s' b =
        reserveOf s b + if b = asset then max (interestFee e s user amount) 0 else 0 := by
  simp only [repayDebt, bind_ok, ↓failIf_seq, failIf_ok, ↓view_seq, ↓asks_seq, ↓okOr_seq,
    ↓store_seq, ↓ofExcept_seq, I128.checkedAdd_eq_some, I128.checkedSub_eq_some, and_assoc,
    exists_and_left, exists_eq_left', exists_const, pure_ok, ← min_def] at h
  obtain ⟨-, -, -, token, htoken, p, hp, -, q, t, haccrued, -, _, t₁, hfirst, -, _, t₂, hsecond, _,
    t₃, hfee, _, t₄, hrecorded, _, t₅, hscore, _, t₆, hborrow, -, rfl⟩ := h
  have haccrued : Accrued e s user p q t := accrueInterest_ok haccrued
  obtain rfl := haccrued.position_eq (by rw [hp]; rfl)
  have hbefore : t.transfers = s.transfers ∧ t.treasury = s.treasury := by
    rw [haccrued.keys]
    exact ⟨rfl, rfl⟩
  have htoken : repaymentToken s asset = some token := by
    cases asset with
    | none => exact orErr_ok.mp htoken
    | some _ => exact congrArg some (Except.ok.inj htoken)
  have hpulled : t₁.transfers = s.transfers ++
        paymentIn e user asset (min (dueNow e s user) amount) ∧ t₁.treasury = s.treasury := by
    cases asset with
    | none =>
      obtain ⟨-, rfl⟩ := pure_ok.mp hfirst
      exact ⟨by simpa [paymentIn] using hbefore.1, hbefore.2⟩
    | some token =>
      rw [(receiveRepayment_paid hfirst).1]
      exact ⟨by rw [hbefore.1]; rfl, hbefore.2⟩
  obtain ⟨rfl, haccepts⟩ := receiveRepayment_paid hsecond
  obtain ⟨hkept, hcredited⟩ := creditInterestFee_paid hfees hfee
  have hscored := (updateScoreOnRepayment_tallied hscore).trans (recordBorrow_tallied hborrow)
  have hafter := (recordRepayment_ok hrecorded).1.trans hscored.recorded
  refine ⟨token, htoken, ?_, ⟨_, haccepts⟩, fun b => ?_⟩
  · rw [hscored.transfers, recordRepayment_transfers hrecorded, hkept, ← hpulled.1]
    rfl
  · rw [reserveOf, hafter.treasury, ← reserveOf, hcredited, reserveOf, reserveOf, ← hpulled.2]
    rfl

/-- What an amount is converted to depends on the feed alone. -/
theorem collateralFor_congr {debtAsset collateralAsset : Option Address} {repaid worth : ℤ}
    (horacle : t.oracle = s.oracle)
    (h : collateralFor debtAsset collateralAsset repaid e t = .ok worth s') :
    collateralFor debtAsset collateralAsset repaid e s =
      .ok worth { s with oracle := s'.oracle } := by
  unfold collateralFor at h ⊢
  by_cases hnative : debtAsset = none ∧ collateralAsset = none
  · rw [if_pos hnative] at h ⊢
    obtain ⟨rfl, rfl⟩ := pure_ok.mp h
    rw [horacle]
    rfl
  · simp only [if_neg hnative, bind_ok, okOr_ok] at h ⊢
    obtain ⟨debtPrice, u, hdebt, price, v, hprice, hworth, rfl⟩ := h
    exact ⟨debtPrice, _, namedPrice_congr horacle hdebt, price, _,
      namedPrice_congr (t := u) rfl hprice, hworth, rfl⟩

/-- **A liquidation settles at the value, the conversion and the configuration of the store before
it.** -/
theorem Paid.settled {liquidator borrower : Address} {debtAsset collateralAsset : Option Address}
    {debtAmount totalDebt value : ℤ} {amounts : Settlement}
    (h : Paid e s liquidator borrower debtAsset collateralAsset debtAmount totalDebt value amounts
      s') (howing : totalDebt ≠ 0) :
    judgedValue e s borrower debtAsset collateralAsset = some value ∧ ∃ config worth,
      getRiskParams s = some config ∧
        worthFor e s borrower debtAsset collateralAsset amounts.repaid = some worth ∧
        amounts.repaid = min totalDebt debtAmount ∧
        amounts.seized = min (seizableBalance s borrower collateralAsset)
          ((worth * (10000 + penaltyAt config value totalDebt)).tdiv 10000) ∧
        amounts.fee = ((amounts.repaid * penaltyAt config value totalDebt).tdiv 10000 *
          (getFeeConfig s).liquidationFeeBps).tdiv 10000 ∧
        amounts.received = amounts.seized - amounts.fee := by
  obtain ⟨t, u, w, happroach, horacle, hjudged, hsettled⟩ := h.quoted
  have hhere := collateralValueForCheck_congr (happroach.sameCollateral horacle).symm hjudged
  obtain ⟨hrepaid, hreceived, penalty, worth, hpenalty, hworth, hseized, hfee⟩ :=
    settlement_ok hsettled
  obtain ⟨config, hconfig, rfl⟩ := calculateDynamicPenalty_eq howing hpenalty
  have hu := happroach.trans (collateralValueForCheck_quoted hjudged).approach
  have hfees : getFeeConfig u = getFeeConfig s := by
    rw [Approach] at hu
    rw [hu]
    rfl
  have hvalue : judgedValue e s borrower debtAsset collateralAsset = some value := by
    rw [judgedValue, hhere]
    rfl
  have hconverted : worthFor e s borrower debtAsset collateralAsset amounts.repaid = some worth :=
    Outcome.value_eq_some.mpr ⟨_, bind_ok.mpr ⟨value, _, hhere,
      collateralFor_congr (t := u) rfl hworth⟩⟩
  exact ⟨hvalue, config, worth, hu.getRiskParams ▸ hconfig, hconverted, hrepaid, hseized,
    hfees ▸ hfee, hreceived⟩

/-- The fee of a liquidation is the protocol's part of its incentive. -/
theorem Liquidated.fee_eq {liquidator borrower : Address}
    {debtAsset collateralAsset : Option Address} {debtAmount value : ℤ} {p : Position}
    {amounts : Settlement}
    (h : Liquidated e s borrower debtAsset collateralAsset debtAmount p value amounts s')
    (hpaid : Paid e s liquidator borrower debtAsset collateralAsset debtAmount
      (p.debt + p.borrowInterest) value amounts s') :
    amounts.fee = liquidationFee e s borrower debtAsset collateralAsset debtAmount ∧
      amounts.received = amounts.seized - amounts.fee ∧
      amounts.seized ≤ seizableBalance s borrower collateralAsset := by
  obtain ⟨p₀, i, hp₀, hi, hp⟩ := h.accrued
  obtain ⟨_, _, -, hcheck⟩ := h.checked
  obtain ⟨-, -, -, howing, -, -⟩ := liquidationCheck_ok hcheck
  obtain ⟨hvalue, config, worth, hrisk, -, hrepaid, hseized, hfee, hreceived⟩ :=
    hpaid.settled howing
  have hdue : dueNow e s borrower = p.debt + p.borrowInterest := by
    rw [dueNow, accruedPosition, hp₀, Option.getD_some, hi, hp]
    rfl
  refine ⟨?_, hreceived, by omega⟩
  rw [hfee, liquidationFee, incentiveFor, hrisk, hvalue, hdue, hrepaid]

/-- **What an act credits**: its fee, to the reserve of one asset. -/
theorem Act.reserve {a : Act} (hfees : 0 ≤ (getFeeConfig s).interestFeeBps)
    (h : a.apply e s = some s') (b : Option Address) :
    reserveOf s' b = reserveOf s b + if b = a.feeAsset then max (a.fee e s) 0 else 0 := by
  cases a <;> obtain ⟨_, h⟩ := commit_eq_some.mp h
  case deposit =>
    rw [reserveOf, depositCollateral_treasury h, fee, max_self, ite_self, add_zero, reserveOf]
  case borrow => exact (borrowAsset_paid h).2.2 b
  case repay =>
    obtain ⟨_, -, -, -, hcredited⟩ := repayDebt_paid hfees h
    exact hcredited b
  case withdraw =>
    rw [reserveOf, withdrawCollateral_treasury h, fee, max_self, ite_self, add_zero, reserveOf]
  case liquidate =>
    obtain ⟨⟨p, value, amounts, hliquidated, hpaid⟩, -⟩ := liquidate_counted h
    rw [hpaid.reserve, (hliquidated.fee_eq hpaid).1]
    rfl

/-! ## The other calls -/

theorem claimReserves_ok {caller recipient : Address} {amount : ℤ} {r : Unit}
    (h : claimReserves caller asset recipient amount e s = .ok r s') :
    amount ≤ reserveOf s asset ∧
      s'.treasury = (withReserve asset (reserveOf s asset - amount) s).treasury := by
  simp only [claimReserves, requireTreasuryAdmin_seq, view_seq, okOr_seq, failIf_seq, not_le,
    not_lt, I128.checkedSub_eq_some, store_seq] at h
  obtain ⟨-, -, -, hcovered, _, ⟨-, rfl⟩, h⟩ := h
  refine ⟨hcovered, ?_⟩
  cases asset with
  | none =>
    obtain ⟨-, rfl⟩ := pure_ok.mp h
    rfl
  | some token => exact (transferOut_tuned h).treasury

theorem executeFlashLoan_reserve {asset callback : Address} {amount r : ℤ}
    (h : executeFlashLoan user asset amount callback e s = .ok r s') :
    getFeeConfig s' = getFeeConfig s ∧ ∀ b, reserveOf s' b =
      reserveOf s b + if b = some asset then max (flashLoanFee s amount) 0 else 0 := by
  simp only [executeFlashLoan, bind_ok, ↓failIf_seq, failIf_ok, ↓view_seq, ↓okOr_seq, ↓asks_seq,
    ↓look_seq, ↓require_seq, pure_ok, Option.bind_eq_some_iff, I128.checkedMul_eq_some,
    I128.checkedDiv_eq_some, and_assoc, exists_and_left, exists_eq_left', exists_const] at h
  obtain ⟨-, -, -, -, -, -, _, -, _, t, hbalance, -, _, u, hout, -, _, v, hin, _, w, hfee, -,
    rfl⟩ := h
  obtain rfl := tokenBalance_ok hbalance
  have hmoved : v.treasury = s.treasury := by
    rw [transferIn_ok hin]
    exact (transferOut_tuned hout).treasury
  have hcredit := onlyIf_credits (fun _ => creditReserve_ok) hfee
  refine ⟨?_, fun b => ?_⟩
  · rw [hcredit.setup.fees, getFeeConfig, hmoved, getFeeConfig]
  · rw [creditFee_reserve hfee, reserveOf, hmoved, reserveOf, flashLoanFee]

/-! ## The reserves along a run -/

/-- The protocol's part of the interest is a part of it. -/
def InterestFeeValid (s : Storage) : Prop :=
  0 ≤ (getFeeConfig s).interestFeeBps ∧ (getFeeConfig s).interestFeeBps ≤ 10000

/-- What a step makes of the reserves and the fees. -/
structure Booked (s s' : Storage) (credited claimed : Option Address → ℤ) : Prop where
  reserve : ∀ b, reserveOf s' b = reserveOf s b + credited b - claimed b
  covered : ∀ b, claimed b = 0 ∨ claimed b ≤ reserveOf s b
  fees : InterestFeeValid s → InterestFeeValid s'

theorem Booked.of_kept (hreserve : s'.treasury.protocolReserve = s.treasury.protocolReserve)
    (hfees : InterestFeeValid s → InterestFeeValid s') : Booked s s' 0 0 := by
  refine ⟨fun b => ?_, fun _ => .inl rfl, hfees⟩
  simp [reserveOf, hreserve]

theorem Booked.of_treasury (h : s'.treasury = s.treasury) : Booked s s' 0 0 := by
  refine .of_kept (by rw [h]) fun hvalid => ?_
  rwa [InterestFeeValid, getFeeConfig, h]

theorem credited_nonneg (op : Op) (b : Option Address) : 0 ≤ op.credited e s b := by
  unfold Op.credited
  split
  · split
    · exact le_max_right ..
    · rfl
  · split
    · split
      · exact le_max_right ..
      · rfl
    · rfl

theorem credited_of_act {op : Op} {a : Act} (h : op.act s = some a) (b : Option Address) :
    op.credited e s b = if b = a.feeAsset then max (a.fee e s) 0 else 0 := by
  simp only [Op.credited, h]

theorem claimed_of_act {op : Op} {a : Act} (h : op.act s = some a) (b : Option Address) :
    op.claimed b = 0 := by
  cases op <;> first | rfl | cases h

/-- A call on the treasury books what it credits and claims. -/
theorem treasury_booked {op : Op} (h : step ⟨e, op⟩ s = some s') (hop : op.onTreasury = true) :
    Booked s s' (op.credited e s) op.claimed := by
  cases op <;>
    first | exact absurd hop Bool.false_ne_true | obtain ⟨_, h⟩ := commit_eq_some.mp h
  case setTreasury =>
    simp only [setTreasury, requireTreasuryAdmin_seq, store_ok] at h
    obtain ⟨-, -, rfl⟩ := h
    exact .of_kept rfl id
  case setFeeConfig =>
    simp only [setFeeConfig, requireTreasuryAdmin_seq, failIf_seq, not_or, not_lt, store_ok] at h
    obtain ⟨-, -, hinterest, -, rfl⟩ := h
    exact .of_kept rfl fun _ => hinterest
  case claimReserves =>
    obtain ⟨hcovered, htreasury⟩ := claimReserves_ok h
    refine ⟨fun b => ?_, fun b => ?_, fun hvalid => ?_⟩
    · rw [reserveOf, htreasury, withReserve, Op.claimed]
      dsimp only
      rw [Function.update_apply]
      split
      next hb => simp [hb, Op.credited, Op.act]
      next hb => simp [reserveOf, Op.credited, Op.act]
    · rw [Op.claimed]
      split
      next hb => exact .inr (hb ▸ hcovered)
      next => exact .inl rfl
    · rwa [InterestFeeValid, getFeeConfig, htreasury]
  case configureFlashLoan | setFlashLoanFee =>
    simp [setFlashLoanFee, setFlashLoanConfig, requireAdmin] at h
    obtain ⟨-, -, rfl⟩ := h
    exact .of_kept rfl id
  case executeFlashLoan =>
    obtain ⟨hfees, hreserve⟩ := executeFlashLoan_reserve h
    refine ⟨fun b => ?_, fun _ => .inl rfl, fun hvalid => ?_⟩
    · rw [hreserve]
      exact (sub_zero _).symm
    · rwa [InterestFeeValid, hfees]

/-- **What a step makes of the reserves.** -/
theorem step_booked {tx : Tx} (h : step tx s = some s') (hvalid : InterestFeeValid s) :
    Booked s s' (tx.op.credited tx.env s) tx.op.claimed := by
  obtain ⟨e, op⟩ := tx
  rcases hact : op.act s with _ | a
  · by_cases htreasury : op.onTreasury = true
    · exact treasury_booked h htreasury
    have hnothing : op.credited e s = 0 ∧ op.claimed = 0 := by
      constructor <;> funext b
      · simp only [Op.credited, hact]
        cases op <;> first | rfl | exact absurd rfl htreasury
      · cases op <;> first | rfl | exact absurd rfl htreasury
    rw [hnothing.1, hnothing.2]
    by_cases hop : op.onCommits = true
    · exact .of_treasury (commits_aside h hop).2
    · exact .of_treasury
        (step_configured h hact (by simpa using hop) (by simpa using htreasury)).treasury
  · obtain ⟨t, hgate, ha⟩ := step_act h hact
    have hkept : t.treasury = s.treasury := by
      rw [Gate] at hgate
      rw [hgate]
    have hfees : getFeeConfig t = getFeeConfig s := by rw [getFeeConfig, hkept, getFeeConfig]
    refine ⟨fun b => ?_, fun b => .inl (claimed_of_act hact b), fun _ => ?_⟩
    · rw [claimed_of_act hact, credited_of_act hact, a.reserve (hfees ▸ hvalid.1) ha, hgate.fee,
        reserveOf, hkept, reserveOf, sub_zero]
    · rwa [InterestFeeValid, (a.sameSetup ha).fees, hfees]

/-- **The share of interest is valid in every reachable state.** -/
theorem Reachable.interestFeeValid (h : Reachable s) : InterestFeeValid s :=
  h.invariant ⟨by decide, by decide⟩ fun _ _ _ hstep hs => (step_booked hstep hs).fees hs

end StellarLend.HelloWorld
