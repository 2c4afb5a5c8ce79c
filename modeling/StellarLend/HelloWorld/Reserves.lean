import StellarLend.HelloWorld.Treasury

/-!
# HelloWorld/Reserves — what the reserves say, and what stands behind them

    reserve  =  Σ credited  −  Σ claimed  ≥  0

The sum is kept by every run.  What is credited is withheld from the tokens that move: a borrower
gets less than the borrow, a repayment stays here, a liquidator gets less than what is seized.  A
liquidation of native collateral moves none of it, and credits its fee all the same, also where
nothing was left to seize.  Those are the steps that credit what they did not withhold
(`fees_withheld`).
-/

namespace StellarLend.HelloWorld

open Foundations Call
open Lending (Address)

variable {e : Env} {s t s' : Storage} {a : Act}

/-! ## The sum -/

/-- What a run has credited to the reserve of an asset. -/
def creditedIn (txs : List Tx) (asset : Option Address) : ℤ :=
  tally step (fun s tx => tx.op.credited tx.env s asset) Storage.empty txs

/-- What a run has claimed from the reserve of an asset. -/
def claimedIn (txs : List Tx) (asset : Option Address) : ℤ :=
  tally step (fun _ tx => tx.op.claimed asset) Storage.empty txs

/-- **A reserve is what was credited less what was claimed, and is never short.** -/
theorem reserve_eq_sum (txs : List Tx) (asset : Option Address) :
    reserveOf (ledger txs) asset = creditedIn txs asset - claimedIn txs asset ∧
      0 ≤ reserveOf (ledger txs) asset := by
  induction txs using List.reverseRecOn with
  | nil => exact ⟨rfl, le_rfl⟩
  | append_singleton txs tx ih =>
    obtain ⟨hsum, hnonneg⟩ := ih
    have hreachable : Reachable (ledger txs) := ⟨txs, rfl⟩
    rw [ledger, run_snoc, ← ledger, creditedIn, claimedIn, tally_append, tally_append, ← creditedIn,
      ← claimedIn, ← ledger]
    simp only [tally_cons, tally_nil, add_zero]
    cases hstep : step tx (ledger txs) with
    | none =>
      rw [exec_of_none hstep]
      simpa using ⟨hsum, hnonneg⟩
    | some s' =>
      have hbooked := step_booked hstep hreachable.interestFeeValid
      have hcredited := credited_nonneg (e := tx.env) (s := ledger txs) tx.op asset
      have hreserve := hbooked.reserve asset
      rw [exec_of_some hstep]
      simp only [Option.isSome_some, if_true]
      refine ⟨by omega, ?_⟩
      rcases hbooked.covered asset with hzero | hcovered <;> omega

/-! ## What is withheld -/

/-- The tokens refuse to move less than nothing. -/
def RefusesNegative (e : Env) : Prop := ∀ ts m, e.accepts ts m = true → 0 ≤ m.amount

/-- What an operation that deals in an amount of an asset withholds, if it sends `paid` tokens of it
on: the rest of them, and nothing of an asset it moves no tokens of. -/
def keptOf (asset : Option Address) (amount paid : ℤ) : ℤ :=
  if asset.isSome then max (amount - paid) 0 else 0

/-- An act that leaves `s'` withheld `w` of the asset its fee is in, from the tokens it moved. -/
def Act.Withholds (e : Env) (s s' : Storage) (w : ℤ) : Act → Prop
  | .deposit .. | .withdraw .. => w = 0
  | .borrow user asset amount => ∃ paid, 0 ≤ paid ∧
    s'.transfers = s.transfers ++ paymentOut e user asset paid ∧ w = keptOf asset amount paid
  | .repay user asset amount => ∃ token repaid, 0 ≤ repaid ∧ repaid ≤ amount ∧
    repaymentToken s asset = some token ∧
    s'.transfers = s.transfers ++ paymentIn e user asset repaid ++
      paymentIn e user (some token) repaid ∧ w = repaid
  | .liquidate liquidator borrower debtAsset collateralAsset _ => ∃ repaid seized paid, 0 ≤ paid ∧
    seized ≤ seizableBalance s borrower collateralAsset ∧
    getCollateralBalance s' borrower = subOrZero (getCollateralBalance s borrower) seized ∧
    s'.transfers = s.transfers ++ paymentIn e liquidator debtAsset repaid ++
      paymentOut e liquidator collateralAsset paid ∧ w = keptOf collateralAsset seized paid

/-- An act credits at most what it has withheld, and in the asset it withheld it of. -/
def Act.CreditsWithheld (e : Env) (s s' : Storage) (a : Act) : Prop :=
  ∃ w, a.Withholds e s s' w ∧
    ∀ asset, reserveOf s' asset - reserveOf s asset ≤ if asset = a.feeAsset then w else 0

/-- A liquidation of native collateral has no fee: its incentive, shared, is less than a unit. -/
def Act.SparesNative (e : Env) (s : Storage) : Act → Prop
  | .liquidate _ borrower debtAsset none debtAmount =>
    incentiveFor e s borrower debtAsset none debtAmount * (getFeeConfig s).liquidationFeeBps < 10000
  | _ => True

/-- A share that is not more than the whole, of a part of it. -/
theorem share_le {part whole bps : ℤ} (hpart : part ≤ whole) (hwhole : 0 ≤ whole) (hbps : 0 ≤ bps)
    (hcap : bps ≤ 10000) : max ((part * bps).tdiv 10000) 0 ≤ whole := by
  refine max_le ?_ hwhole
  rcases lt_or_ge ((part * bps).tdiv 10000) 1 with hsmall | hlarge
  · omega
  · have hscaled := (le_tdiv_iff (by omega) (by decide)).mp (le_refl ((part * bps).tdiv 10000))
    have hwithin : part * bps ≤ whole * 10000 :=
      calc part * bps ≤ whole * bps := mul_le_mul_of_nonneg_right hpart hbps
        _ ≤ whole * 10000 := mul_le_mul_of_nonneg_left hcap hwhole
    omega

theorem tdiv_nonpos_iff {x : ℤ} : x.tdiv 10000 ≤ 0 ↔ x < 10000 := by
  have hone := le_tdiv_iff (a := 1) (b := x) (c := 10000) (by decide) (by decide)
  omega

/-- What is seized leaves the aggregate. -/
theorem Liquidated.aggregate {borrower : Address} {debtAsset collateralAsset : Option Address}
    {debtAmount value : ℤ} {p : Position} {amounts : Settlement}
    (h : Liquidated e s borrower debtAsset collateralAsset debtAmount p value amounts s') :
    getCollateralBalance s' borrower =
      subOrZero (getCollateralBalance s borrower) amounts.seized := by
  obtain ⟨index, -, hbooks⟩ := h.books
  have hassets := withSeizure_assets borrower collateralAsset amounts.seized
    (withCollateralBalance borrower (subOrZero (getCollateralBalance s borrower) amounts.seized)
      (withUserBorrowIndex borrower index s))
  rw [getCollateralBalance, hbooks, withPosition]
  dsimp only
  rw [hassets.collateralBalance]
  simp [withCollateralBalance]

/-- A borrow withholds its fee. -/
theorem borrowAsset_withholds {user : Address} {asset : Option Address} {amount r : ℤ}
    (h : borrowAsset user asset amount e s = .ok r s') :
    (Act.borrow user asset amount).Withholds e s s' (max (borrowFee s asset amount) 0) := by
  obtain ⟨hpaid, htransfers, -⟩ := borrowAsset_paid h
  refine ⟨_, hpaid.le, htransfers, ?_⟩
  cases asset with
  | none => simp [keptOf, borrowFee, borrowFeeBpsOf]
  | some token => simp [keptOf]

/-- A repayment withholds all it pulls in, of which its fee is a part. -/
theorem repayDebt_withholds {user : Address} {asset : Option Address} {amount : ℤ}
    {r : ℤ × ℤ × ℤ} (hstandard : RefusesNegative e) (hvalid : InterestFeeValid s)
    (h : repayDebt user asset amount e s = .ok r s') :
    ∃ w, (Act.repay user asset amount).Withholds e s s' w ∧
      max (interestFee e s user amount) 0 ≤ w := by
  obtain ⟨token, htoken, htransfers, ⟨_, haccepts⟩, -⟩ := repayDebt_paid hvalid.1 h
  have hrepaid := hstandard _ _ haccepts
  exact ⟨_, ⟨token, _, hrepaid, min_le_right .., htoken, htransfers, rfl⟩,
    share_le (min_le_left ..) hrepaid hvalid.1 hvalid.2⟩

/-- A liquidation withholds its fee from tokens, and nothing from native collateral. -/
theorem liquidate_withholds {liquidator borrower : Address}
    {debtAsset collateralAsset : Option Address} {debtAmount : ℤ} {r : ℤ × ℤ × ℤ}
    (hstandard : RefusesNegative e)
    (h : liquidate liquidator borrower debtAsset collateralAsset debtAmount e s = .ok r s') :
    (Act.liquidate liquidator borrower debtAsset collateralAsset debtAmount).Withholds e s s'
      (if collateralAsset.isSome then
        max (liquidationFee e s borrower debtAsset collateralAsset debtAmount) 0 else 0) := by
  obtain ⟨⟨p, value, amounts, hliquidated, hpaid⟩, -⟩ := liquidate_counted h
  obtain ⟨hfee, hreceived, hseizable⟩ := hliquidated.fee_eq hpaid
  cases collateralAsset with
  | none =>
    exact ⟨_, amounts.seized, 0, le_rfl, hseizable, hliquidated.aggregate, hpaid.transfers, rfl⟩
  | some token =>
    have hnonneg : 0 ≤ amounts.received := by
      have haccepted := hpaid.accepted
      simp only [paymentOut, Option.map_some, Option.toList_some, List.mem_singleton,
        forall_eq] at haccepted
      exact hstandard _ _ haccepted
    refine ⟨_, amounts.seized, amounts.received, hnonneg, hseizable, hliquidated.aggregate,
      hpaid.transfers, ?_⟩
    rw [← hfee, hreceived]
    simp [keptOf]

/-- **An act credits what it withheld exactly if it does not charge for native collateral.** -/
theorem Act.creditsWithheld_iff (hstandard : RefusesNegative e) (hvalid : InterestFeeValid s)
    (h : a.apply e s = some s') : a.CreditsWithheld e s s' ↔ a.SparesNative e s := by
  have hcredit (b : Option Address) : reserveOf s' b - reserveOf s b =
      if b = a.feeAsset then max (a.fee e s) 0 else 0 := by
    rw [a.reserve hvalid.1 h b, add_sub_cancel_left]
  have hiff : a.CreditsWithheld e s s' ↔ ∃ w, a.Withholds e s s' w ∧ max (a.fee e s) 0 ≤ w := by
    refine exists_congr fun w => and_congr_right fun _ => ?_
    simp only [hcredit]
    refine ⟨fun hall => by simpa using hall a.feeAsset, fun hw b => ?_⟩
    split
    · exact hw
    · rfl
  rw [hiff]
  cases a with
  | deposit | withdraw => exact iff_of_true ⟨0, rfl, le_of_eq (max_self 0)⟩ trivial
  | borrow =>
    obtain ⟨_, h⟩ := commit_eq_some.mp h
    exact iff_of_true ⟨_, borrowAsset_withholds h, le_rfl⟩ trivial
  | repay =>
    obtain ⟨_, h⟩ := commit_eq_some.mp h
    exact iff_of_true (repayDebt_withholds hstandard hvalid h) trivial
  | liquidate liquidator borrower debtAsset collateralAsset debtAmount =>
    obtain ⟨_, h⟩ := commit_eq_some.mp h
    have hwithheld := liquidate_withholds hstandard h
    cases collateralAsset with
    | some token => exact iff_of_true ⟨_, hwithheld, le_rfl⟩ trivial
    | none =>
      rw [SparesNative, ← tdiv_nonpos_iff, ← liquidationFee]
      constructor
      · rintro ⟨w, ⟨_, _, _, -, -, -, -, rfl⟩, hle⟩
        exact (le_max_left _ _).trans hle
      · intro hfree
        exact ⟨0, hwithheld, max_le hfree le_rfl⟩

/-! ## Runs -/

theorem Gate.sparesNative (h : Gate s t) (a : Act) : a.SparesNative e t ↔ a.SparesNative e s := by
  have hincentive := h.incentiveFor (e := e)
  rw [Gate] at h
  cases a with
  | liquidate liquidator borrower debtAsset collateralAsset debtAmount =>
    cases collateralAsset with
    | some token => rfl
    | none =>
      rw [Act.SparesNative, hincentive, h]
      rfl
  | _ => rfl

theorem Gate.creditsWithheld (h : Gate s t) (a : Act) :
    a.CreditsWithheld e t s' ↔ a.CreditsWithheld e s s' := by
  rw [Gate] at h
  rw [h]
  cases a <;> rfl

/-- **Every reserve is what was credited to it less what was claimed from it, and never short; and
an act credits what it withheld exactly if it does not charge for native collateral.** -/
theorem fees_withheld {txs : List Tx} (hstandard : ∀ tx ∈ txs, RefusesNegative tx.env) :
    (∀ asset, reserveOf (ledger txs) asset = creditedIn txs asset - claimedIn txs asset ∧
      0 ≤ reserveOf (ledger txs) asset) ∧
    ∀ ys tx zs s' a, txs = ys ++ tx :: zs → step tx (ledger ys) = some s' →
      tx.op.act (ledger ys) = some a →
        (a.CreditsWithheld tx.env (ledger ys) s' ↔ a.SparesNative tx.env (ledger ys)) := by
  refine ⟨reserve_eq_sum txs, fun ys tx zs s' a htxs hstep hact => ?_⟩
  have hreachable : Reachable (ledger ys) := ⟨ys, rfl⟩
  obtain ⟨t, hgate, ha⟩ := step_act hstep hact
  have hfees : InterestFeeValid t := by
    have hvalid := hreachable.interestFeeValid
    rw [Gate] at hgate
    rw [hgate]
    exact hvalid
  rw [← hgate.creditsWithheld, ← hgate.sparesNative]
  exact Act.creditsWithheld_iff (hstandard tx (by simp [htxs])) hfees ha

namespace Sample

/-- The same call among tokens that refuse to move less than nothing. -/
def standard (tx : Tx) : Tx :=
  ⟨{ tx.env with accepts := fun _ m => decide (0 ≤ m.amount) }, tx.op⟩

theorem standard_refuses (tx : Tx) : RefusesNegative (standard tx).env :=
  fun _ _ h => of_decide_eq_true h

/-- Bob takes all of alice's native collateral for 100 tokens. -/
def drained : List Tx :=
  (strained ++ [(⟨envAt 8 [bob], .liquidate bob alice (some usdc) none 100⟩ : Tx)]).map standard

/-- He repays 100 native more. -/
def repayForNothing : Tx := standard ⟨envAt 9 [bob], .liquidate bob alice none none 100⟩

theorem fees_withheld_drained :
    (reserveOf (ledger drained) none = creditedIn drained none - claimedIn drained none ∧
      0 ≤ reserveOf (ledger drained) none) ∧
    ∃ s', step (standard ⟨envAt 6 [alice], .borrowAsset alice none 900⟩)
        (ledger (drained.take 2)) = some s' ∧
      (Act.borrow alice none 900).CreditsWithheld
        (standard ⟨envAt 6 [alice], .borrowAsset alice none 900⟩).env (ledger (drained.take 2))
        s' := by
  have hstandard : ∀ tx ∈ drained, RefusesNegative tx.env := by
    intro tx htx
    obtain ⟨tx', -, rfl⟩ := List.mem_map.mp htx
    exact standard_refuses tx'
  have h := fees_withheld hstandard
  have hrun : (step (standard ⟨envAt 6 [alice], .borrowAsset alice none 900⟩)
      (ledger (drained.take 2))).isSome := by decide
  obtain ⟨s', hs'⟩ := Option.isSome_iff_exists.mp hrun
  exact ⟨h.1 none, s', hs', (h.2 _ _ _ s' _ rfl hs' rfl).mpr trivial⟩

/-- **Alice has no collateral left, no token moves, and two units go to the reserve of native
assets.** -/
theorem credited_from_nothing :
    ¬ ∀ txs, (∀ tx ∈ txs, RefusesNegative tx.env) → ∀ ys tx zs s' a, txs = ys ++ tx :: zs →
      step tx (ledger ys) = some s' → tx.op.act (ledger ys) = some a →
        a.CreditsWithheld tx.env (ledger ys) s' := by
  intro hall
  have hrun : (step repayForNothing (ledger drained)).map
      (fun s' => reserveOf s' none - reserveOf (ledger drained) none) = some 2 := by decide
  obtain ⟨s', hs', hcredited⟩ := Option.map_eq_some_iff.mp hrun
  have hstandard : ∀ tx ∈ drained ++ [repayForNothing], RefusesNegative tx.env := by
    intro tx htx
    rcases List.mem_append.mp htx with hbefore | hlast
    · obtain ⟨tx', -, rfl⟩ := List.mem_map.mp hbefore
      exact standard_refuses tx'
    · rw [List.mem_singleton.mp hlast]
      exact standard_refuses _
  obtain ⟨w, ⟨_, _, _, -, -, -, -, rfl⟩, hle⟩ := hall _ hstandard drained _ [] s' _ rfl hs' rfl
  have hnone := hle none
  rw [hcredited] at hnone
  simp [Act.feeAsset, keptOf] at hnone

end Sample

end StellarLend.HelloWorld
