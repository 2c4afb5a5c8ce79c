import StellarLend.HelloWorld.Collateral
import StellarLend.HelloWorld.Health
import Mathlib.Tactic.Ring

/-!
# HelloWorld/Conservation — where the collateral of a liquidation goes

    seized  =  liquidator's share  +  fee,        0  ≤  fee  ≤  seized  ≤  balance

The fee is a share of the incentive, and the incentive is counted in the debt.  The seizure it comes
out of is counted in the collateral and cut off at the balance, and nothing compares the two: of a
borrower with no collateral left nothing is seized, and a fee is set aside all the same.  What is
seized leaves the aggregate in any case, and an asset only where the borrower has a list of them.
`liquidation_conserved` is about the liquidations of collateral that is recorded where it is taken
from, with a fee that fits (`Conservable`).
-/

namespace StellarLend.HelloWorld

open Foundations Call
open Lending (Address)

variable {ε : Type} {e : Env} {s t s' : Storage} {liquidator borrower : Address}
  {debtAsset collateralAsset : Option Address} {debtAmount totalDebt balance value : ℤ}
  {amounts : Settlement}

/-! ## The fee -/

/-- The most a liquidation can be charged for a repaid unit, in parts of `10^8`. -/
def maxFeeRate (s : Storage) : ℤ := MAX_PENALTY_BPS * (getFeeConfig s).liquidationFeeBps

/-- A share of a penalty within its cap is not negative, and within the same share of the cap. -/
theorem fee_le {repaid penalty bps : ℤ} (hrepaid : 0 ≤ repaid) (hpenalty : 0 ≤ penalty)
    (hcap : penalty ≤ MAX_PENALTY_BPS) (hbps : 0 ≤ bps) :
    0 ≤ ((repaid * penalty).tdiv 10000 * bps).tdiv 10000 ∧
      ((repaid * penalty).tdiv 10000 * bps).tdiv 10000 * 10 ^ 8 ≤
        repaid * (MAX_PENALTY_BPS * bps) := by
  have hproduct : 0 ≤ repaid * penalty := mul_nonneg hrepaid hpenalty
  set incentive := (repaid * penalty).tdiv 10000 with hincentive
  have hnonneg : 0 ≤ incentive := Int.tdiv_nonneg hproduct (by decide)
  have hround : incentive * 10000 ≤ repaid * penalty := by
    rw [hincentive, Int.tdiv_eq_ediv_of_nonneg hproduct]
    exact Int.ediv_mul_le _ (by decide)
  have hfee : 0 ≤ incentive * bps := mul_nonneg hnonneg hbps
  refine ⟨Int.tdiv_nonneg hfee (by decide), ?_⟩
  rw [Int.tdiv_eq_ediv_of_nonneg hfee]
  calc incentive * bps / 10000 * 10 ^ 8
      = incentive * bps / 10000 * 10000 * 10000 := by ring
    _ ≤ incentive * bps * 10000 :=
        mul_le_mul_of_nonneg_right (Int.ediv_mul_le _ (by decide)) (by decide)
    _ = incentive * 10000 * bps := by ring
    _ ≤ repaid * penalty * bps := mul_le_mul_of_nonneg_right hround hbps
    _ = repaid * (penalty * bps) := by ring
    _ ≤ repaid * (MAX_PENALTY_BPS * bps) :=
        mul_le_mul_of_nonneg_left (mul_le_mul_of_nonneg_right hcap hbps) hrepaid

/-- The penalty on a borrower below the threshold is within its cap. -/
theorem calculateDynamicPenalty_le {config : RiskParams} {penalty : ℤ}
    (hconfig : getRiskParams s = some config) (hdebt : totalDebt ≠ 0)
    (hbelow : (value * BASIS_POINTS_SCALE).tdiv totalDebt < config.liquidationThreshold)
    (h : calculateDynamicPenalty value totalDebt e s = .ok penalty s') :
    penalty ≤ MAX_PENALTY_BPS := by
  simp only [calculateDynamicPenalty, view_seq, okOr_seq, hconfig, Option.some.injEq,
    exists_eq_left', if_neg hdebt] at h
  obtain ⟨health, hhealth, h⟩ := h
  simp only [Option.bind_eq_some_iff, I128.checkedMul_eq_some, I128.checkedDiv_eq_some, and_assoc,
    exists_and_left, exists_eq_left'] at hhealth
  obtain ⟨-, -, -, rfl⟩ := hhealth
  have hdue : ¬ config.liquidationThreshold ≤ (value * 10000).tdiv totalDebt := not_le.mpr hbelow
  simp only [if_neg hdue, orTrap_seq, okOr_seq, pure_ok] at h
  obtain ⟨_, -, _, -, _, -, _, -, hmin, -⟩ := h
  rw [← hmin]
  exact min_le_right _ _

/-- What a repaid debt is worth in collateral, by the prices read for it. -/
theorem collateralFor_priced {repaid worth : ℤ}
    (h : collateralFor debtAsset collateralAsset repaid e s = .ok worth s') :
    ∃ debtPrice t price u,
      (namedPrice debtAsset : Invocation LiquidationError ℤ) e s = .ok debtPrice t ∧
      (namedPrice collateralAsset : Invocation LiquidationError ℤ) e t = .ok price u ∧
      worth = (repaid * debtPrice).tdiv price := by
  unfold collateralFor at h
  by_cases hnative : debtAsset = none ∧ collateralAsset = none
  · obtain ⟨rfl, rfl⟩ := hnative
    rw [if_pos ⟨rfl, rfl⟩] at h
    obtain ⟨rfl, -⟩ := pure_ok.mp h
    exact ⟨1, s, 1, s, rfl, rfl, by rw [mul_one, Int.tdiv_one]⟩
  · simp only [if_neg hnative, bind_ok, okOr_ok, Option.bind_eq_some_iff, I128.checkedMul_eq_some,
      I128.checkedDiv_eq_some, and_assoc, exists_and_left, exists_eq_left'] at h
    obtain ⟨debtPrice, t, hdebt, price, u, hprice, -, -, -, hworth, -⟩ := h
    exact ⟨debtPrice, t, price, u, hdebt, hprice, hworth.symm⟩

/-- At the prices read from here, a repaid unit is worth the most it can be charged. -/
def FeeWorth (e : Env) (s : Storage) (debtAsset collateralAsset : Option Address) : Prop :=
  ∀ debtPrice t price u,
    (namedPrice debtAsset : Invocation LiquidationError ℤ) e s = .ok debtPrice t →
    (namedPrice collateralAsset : Invocation LiquidationError ℤ) e t = .ok price u →
      maxFeeRate s * price ≤ 10 ^ 8 * debtPrice

/-- What is worth its fee is worth it in collateral. -/
theorem FeeWorth.le_worth {repaid worth fee : ℤ} (h : FeeWorth e s debtAsset collateralAsset)
    (hprices : PricesPositive s.oracle) (hrepaid : 0 ≤ repaid)
    (hfee : fee * 10 ^ 8 ≤ repaid * maxFeeRate s)
    (hworth : collateralFor debtAsset collateralAsset repaid e s = .ok worth s') : fee ≤ worth := by
  obtain ⟨debtPrice, t, price, u, hdebt, hprice, rfl⟩ := collateralFor_priced hworth
  have hratio := h debtPrice t price u hdebt hprice
  obtain ⟨hpriced, -⟩ := namedPrice_ok hdebt
  have hpricePos : 0 < price := (namedPrice_ok hprice).2 (hpriced.positive hprices)
  refine Int.le_tdiv_of_mul_le hpricePos ?_
  have hscaled : fee * price * 10 ^ 8 ≤ repaid * debtPrice * 10 ^ 8 :=
    calc fee * price * 10 ^ 8
        = fee * 10 ^ 8 * price := by ring
      _ ≤ repaid * maxFeeRate s * price := mul_le_mul_of_nonneg_right hfee hpricePos.le
      _ = repaid * (maxFeeRate s * price) := by ring
      _ ≤ repaid * (10 ^ 8 * debtPrice) := mul_le_mul_of_nonneg_left hratio hrepaid
      _ = repaid * debtPrice * 10 ^ 8 := by ring
  exact le_of_mul_le_mul_right hscaled (by decide)

/-- **The fee of a settlement** is within its rate of what is repaid, comes out of what is seized,
and is covered by it unless that is cut off. -/
theorem settlement_fee {config : RiskParams} (hvalid : RiskValid s)
    (hconfig : getRiskParams s = some config) (hprices : PricesPositive s.oracle)
    (hfees : FeesValid s) (hamount : 0 < debtAmount) (hdebt : 0 < totalDebt)
    (hbelow : (value * BASIS_POINTS_SCALE).tdiv totalDebt < config.liquidationThreshold)
    (hsign : config.liquidationIncentive ≤ MAX_PENALTY_BPS ∨ 0 ≤ value)
    (h : settlement debtAsset collateralAsset debtAmount totalDebt balance value e s =
      .ok amounts s') :
    amounts.received = amounts.seized - amounts.fee ∧ 0 ≤ amounts.fee ∧
      amounts.fee * 10 ^ 8 ≤ debtAmount * maxFeeRate s ∧
      (FeeWorth e s debtAsset collateralAsset →
        amounts.seized = balance ∨ amounts.fee ≤ amounts.seized) := by
  obtain ⟨hrepaid, hreceived, penalty, worth, hpenalty, hworth, hseized, hfee⟩ := settlement_ok h
  have hnonneg := calculateDynamicPenalty_nonneg hvalid hconfig hdebt hsign hpenalty
  have hcap := calculateDynamicPenalty_le hconfig hdebt.ne' hbelow hpenalty
  have hrepaidPos : 0 ≤ amounts.repaid := by omega
  obtain ⟨hfeePos, hwithin⟩ := fee_le hrepaidPos hnonneg hcap hfees.1
  rw [← hfee] at hfeePos hwithin
  refine ⟨hreceived, hfeePos, hwithin.trans ?_, fun hprice => ?_⟩
  · exact mul_le_mul_of_nonneg_right (by omega) (mul_nonneg (by decide) hfees.1)
  · have hle := hprice.le_worth hprices hrepaidPos hwithin hworth
    have hbonus : worth ≤ (worth * (10000 + penalty)).tdiv 10000 :=
      Int.le_tdiv_of_mul_le (by decide)
        (mul_le_mul_of_nonneg_left (by omega) (hfeePos.trans hle))
    rw [hseized]
    omega

/-! ## Numbers in range -/

/-- The balances and the debts on record are numbers the code can hold. -/
structure InRange (s : Storage) : Prop where
  balance : ∀ user, I128.Holds (getCollateralBalance s user)
  debt : ∀ user p, s.books.position user = some p → I128.Holds p.debt
  interest : ∀ user p, s.books.position user = some p → I128.Holds p.borrowInterest

theorem InRange.empty : InRange .empty := ⟨fun _ => I128.holds_zero, nofun, nofun⟩

theorem holds_subOrZero (a b : ℤ) : I128.Holds (subOrZero a b) := by
  rw [subOrZero_eq]
  split
  · assumption
  · exact I128.holds_zero

theorem InRange.congr (h : InRange s) (hbooks : s'.books = s.books) : InRange s' := by
  refine ⟨fun user => ?_, ?_, ?_⟩
  · rw [getCollateralBalance_congr hbooks]
    exact h.balance user
  · rw [hbooks]
    exact h.debt
  · rw [hbooks]
    exact h.interest

/-- One position is written, and with it the balances. -/
theorem InRange.write {user : Address} {q : Position} (h : InRange s)
    (hbooks : s'.books = (withPosition user q t).books)
    (hposition : t.books.position = s.books.position)
    (hbalance : ∀ v, I128.Holds (getCollateralBalance t v)) (hdebt : I128.Holds q.debt)
    (hinterest : I128.Holds q.borrowInterest) : InRange s' := by
  have hpositions := (congrArg Books.position hbooks).trans (withPosition_position hposition user q)
  refine ⟨fun v => ?_, fun v p hp => ?_, fun v p hp => ?_⟩
  · rw [getCollateralBalance, hbooks]
    exact hbalance v
  all_goals
    rw [hpositions, Function.update_apply] at hp
    split at hp
  · rwa [← Option.some.inj hp]
  · exact h.debt v p hp
  · rwa [← Option.some.inj hp]
  · exact h.interest v p hp

/-- A new balance of one user. -/
theorem InRange.withBalance {user : Address} {b : ℤ} (h : InRange s) (hb : I128.Holds b)
    (hassets : AssetsOnly (withCollateralBalance user b s) t) (v : Address) :
    I128.Holds (getCollateralBalance t v) := by
  rw [getCollateralBalance, hassets.collateralBalance]
  by_cases hv : v = user
  · simpa [withCollateralBalance, hv] using hb
  · simpa [withCollateralBalance, hv, getCollateralBalance] using h.balance v

/-- The position of a user, or a new one. -/
theorem InRange.position (h : InRange s) (user : Address) (now : ℕ) :
    I128.Holds ((s.books.position user).getD (.new now)).debt ∧
      I128.Holds ((s.books.position user).getD (.new now)).borrowInterest := by
  cases hp : s.books.position user with
  | none => exact ⟨I128.holds_zero, I128.holds_zero⟩
  | some p => exact ⟨h.debt user p hp, h.interest user p hp⟩

theorem InRange.act {a : Act} (h : InRange s) (ha : a.apply e s = some s') : InRange s' := by
  have heffect := a.effect ha
  cases a with
  | deposit user asset amount =>
    obtain ⟨hdebt, hinterest⟩ := h.position user e.timestamp
    have hassets := onAsset_assets (withAssetDeposit_assets user · amount) asset
      (withCollateralBalance user (getCollateralBalance s user + amount) s)
    exact h.write heffect.books hassets.position (h.withBalance heffect.holds hassets) hdebt
      hinterest
  | withdraw user asset amount =>
    obtain ⟨hdebt, hinterest⟩ := h.position user e.timestamp
    have hassets := onAsset_assets (withAssetWithdrawal_assets user · amount) asset
      (withCollateralBalance user (getCollateralBalance s user - amount) s)
    refine h.write heffect.books hassets.position (h.withBalance ?_ hassets) hdebt hinterest
    have hbefore := h.balance user
    have hpos := heffect.amount_pos
    have hcovered := heffect.covered
    rw [I128.holds_iff] at hbefore ⊢
    omega
  | borrow user asset amount =>
    obtain ⟨_, hborrow⟩ := commit_eq_some.mp ha
    obtain ⟨p, t, u, haccrued, -, hbooks⟩ := heffect.moved
    obtain ⟨i, -, hholds, hp⟩ := haccrued.charged
    obtain ⟨index, hindex, -⟩ := haccrued.books
    have hstored := congrFun (congrArg Books.position hbooks) user
    rw [withPosition_position rfl, Function.update_self] at hstored
    refine h.write hbooks (by rw [hindex]; rfl) ?_ ?_ ?_
    · intro v
      rw [getCollateralBalance, hindex]
      exact h.balance v
    · exact (borrowAsset_counted hborrow).2.2.2.2 _ hstored
    · rw [hp]
      dsimp only
      split
      · exact I128.holds_zero
      · exact hholds ‹_›
  | repay user asset amount =>
    obtain ⟨p, q, t, -, haccrued, -, -, hbooks⟩ := heffect.moved
    obtain ⟨index, hindex, -⟩ := haccrued.books
    refine h.write hbooks (by rw [hindex]; rfl) (fun v => ?_) (holds_subOrZero ..)
      (holds_subOrZero ..)
    rw [getCollateralBalance, hindex]
    exact h.balance v
  | liquidate liquidator borrower dasset casset amount =>
    obtain ⟨p, value, amounts, heffect⟩ := heffect
    obtain ⟨index, -, hbooks⟩ := heffect.books
    have hassets := withSeizure_assets borrower casset amounts.seized
      (withCollateralBalance borrower (subOrZero (getCollateralBalance s borrower) amounts.seized)
        (withUserBorrowIndex borrower index s))
    exact h.write hbooks hassets.position
      (InRange.withBalance (s := withUserBorrowIndex borrower index s)
        ⟨h.balance, h.debt, h.interest⟩ (holds_subOrZero ..) hassets)
      (holds_subOrZero ..) (holds_subOrZero ..)

/-- **The numbers on record are in range in every reachable state.** -/
theorem Reachable.inRange (h : Reachable s) : InRange s := by
  refine h.invariant .empty fun s tx s' hstep hs => ?_
  cases hact : tx.op.act s with
  | none => exact hs.congr (step_quiet hstep hact).books
  | some a =>
    obtain ⟨t, hgate, ha⟩ := step_act hstep hact
    exact (hs.congr hgate.books).act ha

/-! ## Readings of stores that agree -/

theorem FeeWorth.congr (h : FeeWorth e s debtAsset collateralAsset) (horacle : t.oracle = s.oracle)
    (hfees : getFeeConfig t = getFeeConfig s) : FeeWorth e t debtAsset collateralAsset := by
  intro debtPrice u price v hdebt hprice
  rw [maxFeeRate, hfees]
  exact h debtPrice _ price _ (namedPrice_congr horacle hdebt)
    (namedPrice_congr (t := u) rfl hprice)

theorem collateralValueForCheck_congr (h : SameCollateral s t)
    (hjudged : collateralValueForCheck borrower debtAsset collateralAsset balance e s =
      .ok value s') :
    collateralValueForCheck borrower debtAsset collateralAsset balance e t =
      .ok value { t with oracle := s'.oracle } := by
  simp only [collateralValueForCheck, view_seq, h.multi] at hjudged ⊢
  by_cases hmulti : hasMultiAssetCollateral s borrower = true
  · rw [if_pos hmulti, mapErr_ok] at hjudged ⊢
    exact h.value hjudged
  · rw [if_neg hmulti] at hjudged ⊢
    by_cases hnative : debtAsset = none ∧ collateralAsset = none
    · rw [if_pos hnative] at hjudged ⊢
      obtain ⟨rfl, rfl⟩ := pure_ok.mp hjudged
      rw [← h.oracle]
      rfl
    · simp only [if_neg hnative, bind_ok, ofExcept_ok] at hjudged ⊢
      obtain ⟨debtPrice, u, hdebt, price, v, hprice, hvalue, rfl⟩ := hjudged
      exact ⟨debtPrice, _, namedPrice_congr h.oracle.symm hdebt, price, _,
        namedPrice_congr (t := u) rfl hprice, hvalue, rfl⟩

/-! ## What is conserved -/

/-- What a user owes. -/
def owed (s : Storage) (user : Address) : ℤ :=
  ((s.books.position user).map fun p => p.debt + p.borrowInterest).getD 0

/-- The collateral a liquidation takes is what the liquidator and the protocol get, it was there,
and the borrower's records fall by it; the debt falls by what the liquidator pays. -/
structure Conserved (e : Env) (s : Storage) (liquidator borrower : Address)
    (debtAsset collateralAsset : Option Address) (amounts : Settlement) (s' : Storage) : Prop where
  transfers : s'.transfers = s.transfers ++ paymentIn e liquidator debtAsset amounts.repaid ++
    paymentOut e liquidator collateralAsset amounts.received
  reserve : reserveOf s' collateralAsset = reserveOf s collateralAsset + amounts.fee
  split : amounts.seized = amounts.received + amounts.fee
  received_nonneg : 0 ≤ amounts.received
  fee_nonneg : 0 ≤ amounts.fee
  covered : amounts.seized ≤ (portfolio s borrower).share collateralAsset
  debt : owed s' borrower = owed s borrower - amounts.repaid
  limit : ∃ config, getRiskParams s = some config ∧
    amounts.repaid ≤ (owed s borrower * config.closeFactor).tdiv BASIS_POINTS_SCALE
  aggregate : getCollateralBalance s' borrower = getCollateralBalance s borrower - amounts.seized
  share : (portfolio s' borrower).share collateralAsset =
    (portfolio s borrower).share collateralAsset - amounts.seized

/-- The collateral is a token, and the token refuses to move less than nothing. -/
def RefusesDebits (e : Env) (collateralAsset : Option Address) : Prop :=
  collateralAsset.isSome ∧
    ∀ ts m, some m.token = collateralAsset → e.accepts ts m = true → 0 ≤ m.amount

/-- The most a liquidation of an amount can be charged fits the balance it names, and what the debt
is worth at the prices read once the borrower is judged. -/
def FeeCovered (e : Env) (s : Storage) (borrower : Address)
    (debtAsset collateralAsset : Option Address) (debtAmount : ℤ) : Prop :=
  debtAmount * maxFeeRate s / 10 ^ 8 ≤ (portfolio s borrower).share collateralAsset ∧
    ∀ value t, collateralValueForCheck borrower debtAsset collateralAsset
      (seizableBalance s borrower collateralAsset) e s = .ok value t →
        FeeWorth e t debtAsset collateralAsset

/-- The collateral named is recorded where it is taken from, it is there, and the fee fits. -/
structure Conservable (e : Env) (s : Storage) (borrower : Address)
    (debtAsset collateralAsset : Option Address) (debtAmount : ℤ) : Prop where
  kind : NamesKind s borrower collateralAsset
  share_nonneg : 0 ≤ (portfolio s borrower).share collateralAsset
  share_le : (portfolio s borrower).share collateralAsset ≤ getCollateralBalance s borrower
  bounded : PenaltyBounded s borrower
  fee : RefusesDebits e collateralAsset ∨
    FeeCovered e s borrower debtAsset collateralAsset debtAmount

section Liquidated

variable {p : Position}

/-- A position with a payment taken off, the interest first, owes that much less. -/
theorem Position.settleWith_owed (paid : ℤ) (hdebt : I128.Holds p.debt)
    (hinterest : I128.Holds p.borrowInterest) (htotal : I128.Holds (p.debt + p.borrowInterest))
    (hpos : 0 ≤ paid) (hle : paid ≤ p.debt + p.borrowInterest) :
    (p.settleWith paid).debt + (p.settleWith paid).borrowInterest =
      p.debt + p.borrowInterest - paid := by
  simp only [Position.settleWith, Position.settle, subOrZero_eq, I128.holds_iff] at *
  split_ifs <;> omega

/-- **The debt falls by what is repaid.** -/
theorem Liquidated.debt_falls
    (h : Liquidated e s borrower debtAsset collateralAsset debtAmount p value amounts s')
    (hs : Settled s) (hrange : InRange s) (htotal : I128.Holds (p.debt + p.borrowInterest)) :
    owed s borrower = p.debt + p.borrowInterest ∧
      owed s' borrower = owed s borrower - amounts.repaid := by
  have hdebt := h.debt_pos hs.risk
  have hpos := h.amount_pos
  have hrepaid := h.repaid
  obtain ⟨p₀, i, hp₀, hi, hp⟩ := h.accrued
  obtain ⟨index, -, hbooks⟩ := h.books
  rw [hs.indexInterest, Option.some.injEq] at hi
  have howing : p₀.debt ≠ 0 := by
    intro hzero
    rw [hp, ← hi, hzero] at hdebt
    simp at hdebt
  rw [if_neg howing, ← hi, add_zero] at hp
  have hbefore : owed s borrower = p.debt + p.borrowInterest := by
    rw [owed, hp₀, hp]
    rfl
  have hfalls := Position.settleWith_owed amounts.repaid
    (by rw [hp]; exact hrange.debt borrower p₀ hp₀)
    (by rw [hp]; exact hrange.interest borrower p₀ hp₀) htotal (by omega) (by omega)
  refine ⟨hbefore, ?_⟩
  rw [hbefore, ← hfalls, owed, hbooks, withPosition_position rfl, Function.update_self]
  rfl

/-- **The shares of what is seized are not negative.** -/
theorem Liquidated.shares
    (h : Liquidated e s borrower debtAsset collateralAsset debtAmount p value amounts s')
    (hpaid : Paid e s liquidator borrower debtAsset collateralAsset debtAmount
      (p.debt + p.borrowInterest) value amounts s')
    (hs : Settled s) (hfees : FeesValid s)
    (hc : Conservable e s borrower debtAsset collateralAsset debtAmount) :
    amounts.received = amounts.seized - amounts.fee ∧ 0 ≤ amounts.fee ∧ 0 ≤ amounts.received := by
  have hseizable := hc.kind.seizable
  have hbalance : 0 ≤ seizableBalance s borrower collateralAsset := hseizable ▸ hc.share_nonneg
  obtain ⟨config, hconfig, hbelow, -⟩ := h.judgement
  obtain ⟨t, u, w, ht, htoracle, hjudged, hsettled⟩ := hpaid.quoted
  have hquoted := collateralValueForCheck_quoted hjudged
  have hu := ht.trans hquoted.approach
  have hufees : getFeeConfig u = getFeeConfig s := by
    rw [Approach] at hu
    rw [hu]
    rfl
  have hurisk : RiskValid u := by
    rw [RiskValid, hu.getRiskParams]
    exact hs.risk
  obtain ⟨hreceived, hfee, hrate, hworth⟩ := settlement_fee hurisk
    (by rwa [hu.getRiskParams]) (hquoted.positive (htoracle ▸ hs.positive))
    (by rwa [FeesValid, hufees]) h.amount_pos (h.debt_pos hs.risk) hbelow
    (h.sign hs.positive hbalance hc.bounded hconfig) hsettled
  refine ⟨hreceived, hfee, ?_⟩
  obtain ⟨hsome, hrefuses⟩ | ⟨hfits, hfair⟩ := hc.fee
  · obtain ⟨token, rfl⟩ := Option.isSome_iff_exists.mp hsome
    have hmoved : ⟨token, none, e.currentContractAddress, liquidator, amounts.received⟩ ∈
        paymentOut e liquidator (some token) amounts.received := by simp [paymentOut]
    exact hrefuses _ _ rfl (hpaid.accepted _ hmoved)
  · have hjudgedHere := collateralValueForCheck_congr (ht.sameCollateral htoracle).symm hjudged
    have hfairThere : FeeWorth e u debtAsset collateralAsset :=
      (hfair value _ hjudgedHere).congr (s := { s with oracle := u.oracle }) rfl hufees
    have hmax : amounts.fee ≤ debtAmount * maxFeeRate s / 10 ^ 8 := by
      rw [Int.le_ediv_iff_mul_le (by decide)]
      rwa [maxFeeRate, hufees, ← maxFeeRate] at hrate
    have hcut := hworth hfairThere
    omega

/-- **Under that condition a liquidation conserves.** -/
theorem Liquidated.conserved
    (h : Liquidated e s borrower debtAsset collateralAsset debtAmount p value amounts s')
    (hpaid : Paid e s liquidator borrower debtAsset collateralAsset debtAmount
      (p.debt + p.borrowInterest) value amounts s')
    (hs : Settled s) (hfees : FeesValid s) (hrange : InRange s)
    (hc : Conservable e s borrower debtAsset collateralAsset debtAmount) :
    Conserved e s liquidator borrower debtAsset collateralAsset amounts s' := by
  have hseizable := hc.kind.seizable
  have hbalance : 0 ≤ seizableBalance s borrower collateralAsset := hseizable ▸ hc.share_nonneg
  obtain ⟨config, hconfig, -, hlimit⟩ := h.judgement
  obtain ⟨hseized, hcovered⟩ := h.seized_bounds hs.risk hs.positive hbalance hc.bounded
  obtain ⟨howed, hfalls⟩ := h.debt_falls hs hrange hpaid.holds
  obtain ⟨hreceived, hfee, hreceivedPos⟩ := h.shares hpaid hs hfees hc
  have hrepaid := h.repaid
  have hwithin := hc.share_le
  have htotal := hrange.balance borrower
  have hmoved := h.moved hc.kind
    (by rw [I128.holds_iff] at htotal ⊢; omega) (by rw [I128.holds_iff] at htotal ⊢; omega)
  have hafter := congrFun hmoved.becomes borrower
  rw [Function.update_self] at hafter
  refine ⟨hpaid.transfers, ?_, by omega, hreceivedPos, hfee, hseizable ▸ hcovered, hfalls,
    ⟨config, hconfig, ?_⟩, ?_, ?_⟩
  · rw [hpaid.reserve, if_pos rfl, max_eq_left hfee]
  · rw [howed]
    omega
  · have hfall := congrArg Portfolio.total hafter
    cases collateralAsset <;> exact hfall
  · rw [hafter, Portfolio.share_take_self]

end Liquidated

/-! ## Runs -/

theorem FeeCovered.gate (h : FeeCovered e s borrower debtAsset collateralAsset debtAmount)
    (hgate : Gate s t) : FeeCovered e t borrower debtAsset collateralAsset debtAmount := by
  obtain ⟨hfits, hfair⟩ := h
  have hsame := hgate.sameCollateral.symm
  rw [Gate] at hgate
  rw [hgate] at hsame ⊢
  refine ⟨hfits, fun value u hjudged => ?_⟩
  have hquoted := collateralValueForCheck_quoted hjudged
  refine (hfair value _ (collateralValueForCheck_congr hsame hjudged)).congr rfl ?_
  exact hquoted.sameSetup.fees

theorem Conservable.gate (h : Conservable e s borrower debtAsset collateralAsset debtAmount)
    (hgate : Gate s t) : Conservable e t borrower debtAsset collateralAsset debtAmount := by
  have hfee := h.fee.imp_right fun hcovered => hcovered.gate hgate
  rw [Gate] at hgate
  rw [hgate] at hfee ⊢
  exact ⟨h.kind, h.share_nonneg, h.share_le, h.bounded, hfee⟩

theorem Conserved.gate
    (h : Conserved e t liquidator borrower debtAsset collateralAsset amounts s')
    (hgate : Gate s t) :
    Conserved e s liquidator borrower debtAsset collateralAsset amounts s' := by
  rw [Gate] at hgate
  rw [hgate] at h
  exact ⟨h.transfers, h.reserve, h.split, h.received_nonneg, h.fee_nonneg, h.covered, h.debt,
    h.limit, h.aggregate, h.share⟩

/-- The liquidations of a call can be conserved. -/
def CallConservable (s : Storage) (tx : Tx) : Prop :=
  ∀ liquidator borrower debtAsset collateralAsset debtAmount,
    tx.op.act s = some (.liquidate liquidator borrower debtAsset collateralAsset debtAmount) →
      Conservable tx.env s borrower debtAsset collateralAsset debtAmount

/-- **Every liquidation conserves**, in the runs whose liquidations name collateral that is recorded
where it is taken from, with a fee that fits. -/
theorem liquidation_conserved {txs ys zs : List Tx} {tx : Tx}
    (h : Meets step CallConservable Storage.empty txs) (htxs : txs = ys ++ tx :: zs)
    (hstep : step tx (ledger ys) = some s')
    (hact : tx.op.act (ledger ys) =
      some (.liquidate liquidator borrower debtAsset collateralAsset debtAmount)) :
    ∃ amounts, Conserved tx.env (ledger ys) liquidator borrower debtAsset collateralAsset amounts
      s' := by
  have hc := (meets_iff.mp h) ys tx zs s' htxs hstep _ _ _ _ _ hact
  have hreachable : Reachable (ledger ys) := ⟨ys, rfl⟩
  obtain ⟨t, hgate, ha⟩ := step_act hstep hact
  obtain ⟨_, hliquidate⟩ := commit_eq_some.mp ha
  obtain ⟨⟨p, value, amounts, hliquidated, hpaid⟩, -⟩ := liquidate_counted hliquidate
  have hfees : FeesValid t := by
    have := hreachable.feesValid
    rw [Gate] at hgate
    rw [hgate]
    exact this
  have hconserved := hliquidated.conserved hpaid (hreachable.settled.gate hgate) hfees
    (hreachable.inRange.congr hgate.books) (hc.gate hgate)
  exact ⟨amounts, hconserved.gate hgate⟩

namespace Sample

/-- Alice owes more native than she may, and has native collateral. -/
def strained : List Tx :=
  [deploy, ⟨envAt 5 [alice], .depositCollateral alice none 1000⟩,
    ⟨envAt 6 [alice], .borrowAsset alice none 900⟩,
    ⟨envAt 7 [admin], .setRiskParams admin (some 12000) (some 11500) none none⟩]

/-- Alice owes native, and her collateral is a token whose factor is halved. -/
def devalued : List Tx :=
  [deploy, ⟨envAt 5 [alice], .depositCollateral alice (some usdc) 1000⟩,
    ⟨envAt 6 [alice], .borrowAsset alice none 600⟩,
    ⟨envAt 7 [admin], .updateAssetConfig usdc ⟨true, 5000, 0, 0⟩⟩]

/-- Bob repays 100 native of it for native collateral. -/
def liquidateNative : Tx := ⟨envAt 8 [bob], .liquidate bob alice none none 100⟩

end Sample

theorem liquidation_conserved_strained :
    ∃ s' amounts, Conserved Sample.liquidateNative.env (ledger Sample.strained) Sample.bob
      Sample.alice none none amounts s' := by
  have hkind : NamesKind (ledger Sample.strained) Sample.alice none := by
    show (none : Option Address).isSome = _
    decide
  have hbounded : PenaltyBounded (ledger Sample.strained) Sample.alice := by
    refine .inl fun config hconfig => ?_
    have hincentive : (getRiskParams (ledger Sample.strained)).map RiskParams.liquidationIncentive =
        some 1000 := by decide
    rw [hconfig, Option.map_some, Option.some.injEq] at hincentive
    rw [hincentive]
    decide
  have hfee : FeeCovered Sample.liquidateNative.env (ledger Sample.strained) Sample.alice none none
      100 := by
    refine ⟨by decide, fun value t hjudged debtPrice u price v hdebt hprice => ?_⟩
    obtain ⟨rfl, -⟩ := pure_ok.mp hdebt
    obtain ⟨rfl, -⟩ := pure_ok.mp hprice
    rw [maxFeeRate, (collateralValueForCheck_quoted hjudged).sameSetup.fees]
    decide
  have hmeets : Meets step CallConservable Storage.empty
      (Sample.strained ++ [Sample.liquidateNative]) := by
    refine meets_append.mpr ⟨⟨?_, ?_, ?_, ?_, trivial⟩, fun _ _ _ _ _ _ ha => ?_, trivial⟩
    iterate 4 exact fun _ _ _ _ _ _ ha => by cases ha
    cases ha
    exact ⟨hkind, by decide, by decide, hbounded, .inr hfee⟩
  have hrun : (step Sample.liquidateNative (ledger Sample.strained)).isSome := by decide
  obtain ⟨s', hs'⟩ := Option.isSome_iff_exists.mp hrun
  exact ⟨s', liquidation_conserved hmeets rfl hs' rfl⟩

/-- Of alice's tokens 112 leave her aggregate as native collateral, of which she has none, and all
of them are still on record. -/
theorem liquidation_not_conserved_devalued :
    ¬ ∀ txs tx s' liquidator borrower debtAsset collateralAsset debtAmount,
      step tx (ledger txs) = some s' →
      tx.op.act (ledger txs) =
        some (.liquidate liquidator borrower debtAsset collateralAsset debtAmount) →
      ∃ amounts, Conserved tx.env (ledger txs) liquidator borrower debtAsset collateralAsset amounts
        s' := by
  intro hall
  have hrun : (step Sample.liquidateNative (ledger Sample.devalued)).map
      (fun s' => getCollateralBalance s' Sample.alice) = some 888 := by decide
  obtain ⟨s', hs', hafter⟩ := Option.map_eq_some_iff.mp hrun
  have hbefore : getCollateralBalance (ledger Sample.devalued) Sample.alice = 1000 := by
    decide
  have hnative : (portfolio (ledger Sample.devalued) Sample.alice).share none = 0 := by
    decide
  obtain ⟨amounts, hconserved⟩ := hall _ _ s' _ _ _ _ _ hs' rfl
  have haggregate := hconserved.aggregate
  have hcovered := hconserved.covered
  rw [hafter, hbefore] at haggregate
  rw [hnative] at hcovered
  omega

end StellarLend.HelloWorld
