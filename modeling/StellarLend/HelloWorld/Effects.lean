import StellarLend.HelloWorld.Readings

/-!
# HelloWorld/Effects — what each operation on a position does

One structure an operation, with what a success has checked and what it leaves behind
(`Deposited`, `Withdrawn`, `Borrowed`, `Repaid`, `Liquidated`), and one inversion lemma that
produces it, with what becomes of the protocol's borrows (`totalBorrows`) and of what is set
up (`SameSetup`).  Nothing above this module takes an operation apart again to see what it writes.

What becomes of the records of a position is an equation for `books`; `Frame` is what an operation
leaves alone.
-/

namespace StellarLend.HelloWorld

open Foundations Call
open Lending (Address)

variable {e : Env} {s t u s' : Storage} {user : Address} {asset : Option Address} {amount : ℤ}
  {debtAsset collateralAsset : Option Address}

/-! ## What an operation leaves alone -/

/-- Admin, parameters, pausing and gateways are as before; an index that was never stored still is
not, and prices that were positive still are. -/
structure Frame (s t : Storage) : Prop where
  keys : t = { s with
    books := t.books, stats := t.stats, interest := t.interest, treasury := t.treasury
    breaker := t.breaker, oracle := t.oracle, transfers := t.transfers }
  dormant : s.interest.lendingIndex = none → t.interest = s.interest
  positive : PricesPositive s.oracle → PricesPositive t.oracle

theorem Frame.trans (h : Frame s t) (h' : Frame t u) : Frame s u := by
  refine ⟨?_, fun hs => ?_, h'.positive ∘ h.positive⟩
  · rw [h'.keys, h.keys]
  · rw [h'.dormant (by rw [h.dormant hs]; exact hs), h.dormant hs]

theorem Frame.risk (h : Frame s t) : t.risk = s.risk := by rw [h.keys]

theorem Frame.assetParams (h : Frame s t) : t.assetParams = s.assetParams := by rw [h.keys]

theorem Recorded.treasury (h : Recorded s t) : t.treasury = s.treasury := by
  rw [Recorded] at h
  rw [h]

theorem Recorded.frame (h : Recorded s t) : Frame s t := by
  rw [Recorded] at h
  rw [h]
  exact ⟨rfl, fun _ => rfl, id⟩

theorem Noted.frame (h : Noted s t) : Frame s t := h.recorded.frame

theorem Priced.frame (h : Priced s t) : Frame s t := by
  refine ⟨?_, fun _ => ?_, h.positive⟩
  · rw [h.keys]
  · rw [h.keys]

theorem Accrued.frame {p p' : Position} (h : Accrued e s user p p' t) :
    Frame s t := by
  refine ⟨?_, h.dormant, ?_⟩
  · rw [h.keys]
  · rw [h.keys]
    exact id

/-- A change of the records alone. -/
theorem Frame.of_books (h : t = { s with books := t.books }) : Frame s t := by
  refine ⟨?_, fun _ => ?_, ?_⟩
  · rw [h]
  · rw [h]
  · rw [h]
    exact id

/-- What the protocol has lent out, by its own count. -/
def totalBorrows (s : Storage) : ℤ := (getProtocolAnalytics s).totalBorrows

/-- The stores agree on what is set up of the oracle, and on the fees. -/
structure SameSetup (s t : Storage) : Prop where
  oracle : t.oracle.setup = s.oracle.setup
  fees : getFeeConfig t = getFeeConfig s

theorem SameSetup.trans (h : SameSetup s t) (h' : SameSetup t u) : SameSetup s u :=
  ⟨h'.oracle.trans h.oracle, h'.fees.trans h.fees⟩

/-- A change of the records alone. -/
theorem SameSetup.of_books (h : t = { s with books := t.books }) : SameSetup s t := by
  rw [h]
  exact ⟨rfl, rfl⟩

theorem Recorded.sameSetup (h : Recorded s t) : SameSetup s t := by
  rw [Recorded] at h
  rw [h]
  exact ⟨rfl, rfl⟩

theorem Accrued.sameSetup {p p' : Position} (h : Accrued e s user p p' t) :
    SameSetup s t := by
  rw [h.keys]
  exact ⟨rfl, rfl⟩

theorem Quoted.sameSetup (h : Quoted s t) : SameSetup s t := by
  refine ⟨h.setup, ?_⟩
  rw [h.keys]
  rfl

/-- A reserve may have been credited, and tokens moved. -/
structure Credited (s t : Storage) : Prop where
  frame : Frame s t
  books : t.books = s.books
  totals : getProtocolAnalytics t = getProtocolAnalytics s
  setup : SameSetup s t

theorem Noted.credited (h : Noted s t) : Credited s t :=
  ⟨h.frame, h.books, h.totals, h.recorded.sameSetup⟩

theorem Credited.trans (h : Credited s t) (h' : Credited t u) : Credited s u :=
  ⟨h.frame.trans h'.frame, h'.books.trans h.books, h'.totals.trans h.totals,
    h.setup.trans h'.setup⟩

theorem creditReserve_ok {ε : Type} {overflow : ε} {fee : ℤ} {r : Unit}
    (h : creditReserve overflow asset fee e s = .ok r s') : Credited s s' := by
  simp [creditReserve] at h
  obtain ⟨_, -, rfl⟩ := h
  exact ⟨⟨rfl, fun _ => rfl, id⟩, rfl, rfl, rfl, rfl⟩

/-- A credit that is made only if there is something to credit. -/
theorem onlyIf_credits {ε : Type} {c : Prop} [Decidable c] {x : Invocation ε Unit} {r : Unit}
    (hx : ∀ r, x e s = .ok r s' → Credited s s') (h : onlyIf c x e s = .ok r s') :
    Credited s s' := by
  by_cases hc : c
  · exact hx r ((onlyIf_ok.mp h).1 hc)
  · obtain rfl := (onlyIf_ok.mp h).2 hc
    exact (Noted.refl s).credited

/-! ## Writing the records

What a write makes of the records depends on the records alone. -/

/-- The store after a deposit is recorded under an asset. -/
def withAssetDeposit (user asset : Address) (amount : ℤ) (s : Storage) : Storage :=
  let s := withAssetCollateral user asset (getUserAssetCollateral s user asset + amount) s
  if asset ∉ getUserAssetList s user then
    withAssetList user (getUserAssetList s user ++ [asset]) s
  else s

/-- Record a movement under its asset, if it has one. -/
def onAsset (record : Address → Storage → Storage) (asset : Option Address) (s : Storage) :
    Storage :=
  match asset with
  | some token => record token s
  | none => s

theorem getCollateralBalance_congr (h : t.books = s.books) (user : Address) :
    getCollateralBalance t user = getCollateralBalance s user := by
  rw [getCollateralBalance, h, getCollateralBalance]

theorem withPosition_congr (h : t.books = s.books) (user : Address) (p : Position) :
    (withPosition user p t).books = (withPosition user p s).books := by
  rw [withPosition, withPosition, h]

/-- A position is written over those of a store that agrees on them. -/
theorem withPosition_position (h : t.books.position = s.books.position) (user : Address)
    (p : Position) : (withPosition user p t).books.position =
      Function.update s.books.position user (some p) := by
  rw [← h]
  rfl

theorem withCollateralBalance_congr (h : t.books = s.books) (user : Address) (amount : ℤ) :
    (withCollateralBalance user amount t).books = (withCollateralBalance user amount s).books := by
  rw [withCollateralBalance, withCollateralBalance, h]

theorem withAssetDeposit_congr (h : t.books = s.books) (user asset : Address) (amount : ℤ) :
    (withAssetDeposit user asset amount t).books =
      (withAssetDeposit user asset amount s).books := by
  by_cases hnew : asset ∈ (s.books.userAssetList user).getD [] <;>
    simp [withAssetDeposit, withAssetCollateral, withAssetList, getUserAssetList,
      getUserAssetCollateral, h, hnew]

theorem withAssetWithdrawal_congr (h : t.books = s.books) (user asset : Address) (amount : ℤ) :
    (withAssetWithdrawal user asset amount t).books =
      (withAssetWithdrawal user asset amount s).books := by
  by_cases hgone : subOrZero ((s.books.userAssetCollateral user asset).getD 0) amount = 0 <;>
    simp [withAssetWithdrawal, withAssetCollateral, withAssetList, getUserAssetList,
      getUserAssetCollateral, h, hgone]

/-- The stores differ in what users hold by asset only. -/
def AssetsOnly (s t : Storage) : Prop :=
  t = { s with books := { s.books with
    userAssetCollateral := t.books.userAssetCollateral, userAssetList := t.books.userAssetList } }

theorem AssetsOnly.frame (h : AssetsOnly s t) : Frame s t := by
  rw [AssetsOnly] at h
  rw [h]
  exact .of_books rfl

theorem AssetsOnly.position (h : AssetsOnly s t) : t.books.position = s.books.position := by
  rw [AssetsOnly] at h
  rw [h]

theorem AssetsOnly.oracle (h : AssetsOnly s t) : t.oracle = s.oracle := by
  rw [AssetsOnly] at h
  rw [h]

theorem AssetsOnly.transfers (h : AssetsOnly s t) : t.transfers = s.transfers := by
  rw [AssetsOnly] at h
  rw [h]

theorem AssetsOnly.treasury (h : AssetsOnly s t) : t.treasury = s.treasury := by
  rw [AssetsOnly] at h
  rw [h]

theorem AssetsOnly.sameSetup (h : AssetsOnly s t) : SameSetup s t := by
  rw [AssetsOnly] at h
  rw [h]
  exact ⟨rfl, rfl⟩

theorem AssetsOnly.totals (h : AssetsOnly s t) :
    getProtocolAnalytics t = getProtocolAnalytics s := by
  rw [AssetsOnly] at h
  rw [h]
  rfl

theorem AssetsOnly.assetParams (h : AssetsOnly s t) : t.assetParams = s.assetParams := by
  rw [AssetsOnly] at h
  rw [h]

theorem AssetsOnly.collateralBalance (h : AssetsOnly s t) :
    t.books.collateralBalance = s.books.collateralBalance := by
  rw [AssetsOnly] at h
  rw [h]

theorem AssetsOnly.userBorrowIndex (h : AssetsOnly s t) :
    t.books.userBorrowIndex = s.books.userBorrowIndex := by
  rw [AssetsOnly] at h
  rw [h]

theorem withAssetDeposit_assets (user asset : Address) (amount : ℤ) (s : Storage) :
    AssetsOnly s (withAssetDeposit user asset amount s) := by
  unfold withAssetDeposit
  dsimp only
  split <;> rfl

theorem withAssetWithdrawal_assets (user asset : Address) (amount : ℤ) (s : Storage) :
    AssetsOnly s (withAssetWithdrawal user asset amount s) := by
  unfold withAssetWithdrawal
  dsimp only
  split <;> rfl

theorem onAsset_assets {record : Address → Storage → Storage}
    (h : ∀ token s, AssetsOnly s (record token s)) (asset : Option Address) (s : Storage) :
    AssetsOnly s (onAsset record asset s) := by
  cases asset with
  | none => rfl
  | some token => exact h token s

theorem onAsset_congr {record : Address → Storage → Storage}
    (hrecord : ∀ token, (record token t).books = (record token s).books) (h : t.books = s.books)
    (asset : Option Address) : (onAsset record asset t).books = (onAsset record asset s).books := by
  cases asset with
  | none => exact h
  | some token => exact hrecord token

/-! ## Deposit -/

/-- What a successful deposit has checked and what it leaves behind. -/
structure Deposited (e : Env) (s : Storage) (user : Address) (asset : Option Address) (amount : ℤ)
    (s' : Storage) : Prop where
  amount_pos : 0 < amount
  holds : I128.Holds (getCollateralBalance s user + amount)
  frame : Frame s s'
  books : s'.books = (withPosition user
    { (s.books.position user).getD (.new e.timestamp) with
      collateral := getCollateralBalance s user + amount, lastAccrualTime := e.timestamp }
    (onAsset (withAssetDeposit user · amount) asset
      (withCollateralBalance user (getCollateralBalance s user + amount) s))).books

theorem receiveDeposit_ok {r : Unit} (h : receiveDeposit user asset amount e s = .ok r s') :
    Noted s s' := by
  cases asset with
  | none =>
    obtain ⟨-, rfl⟩ := pure_ok.mp h
    exact .refl s
  | some token =>
    simp only [receiveDeposit, bind_ok, asks_ok, ↓failIf_seq, ↓view_seq, and_assoc, exists_and_left,
      exists_eq_left'] at h
    obtain ⟨-, -, -, balance, t, hbalance, -, h⟩ := h
    obtain rfl := tokenBalance_ok hbalance
    rw [transferIn_ok h]
    exact ⟨rfl, rfl⟩

theorem recordAssetDeposit_ok {asset : Address} {r : Unit}
    (h : recordAssetDeposit user asset amount e s = .ok r s') :
    s' = withAssetDeposit user asset amount s := by
  simp only [recordAssetDeposit, view_seq, okOr_seq, I128.checkedAdd_eq_some, store_seq, store_ok,
    onlyIf_ok, and_assoc, exists_and_left, exists_eq_left'] at h
  unfold withAssetDeposit
  dsimp only
  split
  · next hnew => exact (h.2.1 hnew).symm
  · next hknown => exact (h.2.2 hknown).symm

/-- A deposit adds to the protocol's deposits and to the value locked. -/
theorem depositCollateral_totals {r : ℤ} (h : depositCollateral user asset amount e s = .ok r s') :
    Deposited e s user asset amount s' ∧ getProtocolAnalytics s' = { getProtocolAnalytics s with
        totalDeposits := (getProtocolAnalytics s).totalDeposits + amount
        totalValueLocked := (getProtocolAnalytics s).totalValueLocked + amount } ∧
      SameSetup s s' := by
  simp only [depositCollateral, bind_ok, ↓failIf_seq, failIf_ok, ↓view_seq, ↓asks_seq, ↓okOr_seq,
    I128.checkedAdd_eq_some, ↓store_seq, pure_ok, and_assoc, exists_and_left, exists_eq_left',
    exists_const] at h
  obtain ⟨hpos, -, -, _, t, hreceive, hholds, _, u, hasset, _, _, huser, _, _, htotals, _, _, hlog,
    -, rfl⟩ := h
  have hbefore := receiveDeposit_ok hreceive
  obtain ⟨hrecorded, hcounted, -⟩ := touchProtocolAnalytics_ok htotals
  have hafter := ((touchUserAnalytics_ok huser).recorded.trans hrecorded).trans
    (addActivityLog_ok hlog).recorded
  have hbalance := getCollateralBalance_congr hbefore.books user
  have hu : u = onAsset (withAssetDeposit user · amount) asset
      (withCollateralBalance user (getCollateralBalance t user + amount) t) := by
    cases asset with
    | none => exact (pure_ok.mp hasset).2.symm
    | some token => exact recordAssetDeposit_ok hasset
  have hframe : Frame (withCollateralBalance user (getCollateralBalance t user + amount) t) u :=
    hu ▸ (onAsset_assets (withAssetDeposit_assets user · amount) asset _).frame
  have hstart : (withCollateralBalance user (getCollateralBalance t user + amount) t).books =
      (withCollateralBalance user (getCollateralBalance s user + amount) s).books := by
    rw [hbalance]
    exact withCollateralBalance_congr hbefore.books ..
  have hassets := onAsset_assets (withAssetDeposit_assets user · amount) asset
    (withCollateralBalance user (getCollateralBalance t user + amount) t)
  rw [← hu] at hassets
  refine ⟨⟨by omega, hbalance ▸ hholds, ?_, ?_⟩, ?_, ?_⟩
  · exact (hbefore.frame.trans (.of_books rfl)).trans
      (hframe.trans (.trans (.of_books rfl) hafter.frame))
  · rw [hafter.books, hbalance, hbefore.books]
    rw [hu]
    exact withPosition_congr
      (onAsset_congr (withAssetDeposit_congr hstart user · amount) hstart asset) ..
  · have htotals : getProtocolAnalytics u = getProtocolAnalytics s :=
      hassets.totals.trans hbefore.totals
    simp only [depositedTotals, except_bind_ok, orErr_ok, I128.checkedAdd_eq_some, Except.ok.injEq,
      (touchUserAnalytics_ok huser).totals, and_assoc, exists_and_left, exists_eq_left'] at hcounted
    rw [(addActivityLog_ok hlog).totals, ← hcounted.2.2, ← htotals]
    rfl
  · exact (hbefore.recorded.sameSetup.trans (.of_books rfl)).trans
      (hassets.sameSetup.trans (.trans (.of_books rfl) hafter.sameSetup))

/-- A deposit leaves the protocol's borrows alone. -/
theorem depositCollateral_counted {r : ℤ} (h : depositCollateral user asset amount e s = .ok r s') :
    Deposited e s user asset amount s' ∧ totalBorrows s' = totalBorrows s ∧
      SameSetup s s' := by
  obtain ⟨hdeposited, htotals, hsetup⟩ := depositCollateral_totals h
  exact ⟨hdeposited, by rw [totalBorrows, htotals]; rfl, hsetup⟩

theorem depositCollateral_ok {r : ℤ} (h : depositCollateral user asset amount e s = .ok r s') :
    Deposited e s user asset amount s' := (depositCollateral_counted h).1

/-! ## Withdrawal -/

/-- What a successful withdrawal has checked and what it leaves behind. -/
structure Withdrawn (e : Env) (s : Storage) (user : Address) (asset : Option Address) (amount : ℤ)
    (s' : Storage) : Prop where
  amount_pos : 0 < amount
  covered : amount ≤ getCollateralBalance s user
  validated : ∃ p, s.books.position user = some p ∧
    (¬ (p.debt = 0 ∧ p.borrowInterest = 0) → I128.Holds (p.debt + p.borrowInterest) ∧ ∀ ratio,
      calculateCollateralRatio (getCollateralBalance s user - amount) p.debt p.borrowInterest
        (collateralFactorOf s asset) = some ratio → minCollateralRatioOr s ≤ ratio)
  frame : Frame s s'
  oracle : s'.oracle = s.oracle
  books : s'.books = (withPosition user
    { (s.books.position user).getD (.new e.timestamp) with
      collateral := getCollateralBalance s user - amount, lastAccrualTime := e.timestamp }
    (onAsset (withAssetWithdrawal user · amount) asset
      (withCollateralBalance user (getCollateralBalance s user - amount) s))).books

theorem validateCollateralRatioAfterWithdraw_ok {r : Unit}
    (h : validateCollateralRatioAfterWithdraw user amount asset e s = .ok r s') :
    s = s' ∧ ∃ p, s.books.position user = some p ∧
      (¬ (p.debt = 0 ∧ p.borrowInterest = 0) → I128.Holds (p.debt + p.borrowInterest) ∧ ∀ ratio,
        calculateCollateralRatio (getCollateralBalance s user - amount) p.debt p.borrowInterest
          (collateralFactorOf s asset) = some ratio → minCollateralRatioOr s ≤ ratio) := by
  simp only [validateCollateralRatioAfterWithdraw, view_seq, okOr_seq] at h
  obtain ⟨p, hp, h⟩ := h
  by_cases hfree : p.debt = 0 ∧ p.borrowInterest = 0
  · rw [if_pos hfree] at h
    exact ⟨(pure_ok.mp h).2, p, hp, fun howing => absurd hfree howing⟩
  · simp only [if_neg hfree, okOr_seq, view_seq, I128.checkedSub_eq_some, I128.checkedAdd_eq_some,
      and_assoc, exists_and_left, exists_eq_left'] at h
    obtain ⟨-, hholds, h⟩ := h
    cases hratio : calculateCollateralRatio (getCollateralBalance s user - amount) p.debt
      p.borrowInterest (collateralFactorOf s asset) with
    | none =>
      rw [hratio] at h
      refine ⟨(pure_ok.mp h).2, p, hp, fun _ => ⟨hholds, fun ratio hsome => ?_⟩⟩
      rw [hratio] at hsome
      cases hsome
    | some ratio =>
      rw [hratio] at h
      obtain ⟨hmin, rfl⟩ := failIf_ok.mp h
      refine ⟨rfl, p, hp, fun _ => ⟨hholds, fun ratio' hsome => ?_⟩⟩
      rw [hratio, Option.some.injEq] at hsome
      omega

theorem sendToken_ok {r : Unit}
    (h : (match asset with
      | some token => transferOut token user amount
      | none => pure () : Invocation WithdrawError Unit) e s = .ok r s') : Noted s s' := by
  cases asset with
  | none =>
    obtain ⟨-, rfl⟩ := pure_ok.mp h
    exact .refl s
  | some token =>
    rw [transferOut_ok h]
    exact ⟨rfl, rfl⟩

theorem recordAssetWithdrawal_ok {ε : Type} {r : Unit}
    (h : (match asset with
      | some token => recordAssetWithdrawal user token amount
      | none => pure () : Invocation ε Unit) e s = .ok r s') :
    s' = onAsset (withAssetWithdrawal user · amount) asset s := by
  cases asset with
  | none => exact (pure_ok.mp h).2.symm
  | some token => exact (store_ok.mp h).symm

/-- A withdrawal takes off the value locked. -/
theorem withdrawCollateral_totals {r : ℤ}
    (h : withdrawCollateral user asset amount e s = .ok r s') :
    Withdrawn e s user asset amount s' ∧ getProtocolAnalytics s' = { getProtocolAnalytics s with
        totalValueLocked := subOrZero (getProtocolAnalytics s).totalValueLocked amount } ∧
      SameSetup s s' := by
  simp only [withdrawCollateral, bind_ok, ↓failIf_seq, failIf_ok, ↓view_seq, ↓asks_seq, ↓okOr_seq,
    I128.checkedSub_eq_some, ↓store_seq, pure_ok, and_assoc, exists_and_left, exists_eq_left',
    exists_const] at h
  obtain ⟨hpos, -, -, hcovered, _, t, hvalid, -, _, u, hasset, _, v, hsend, _, _, huser, _, _,
    htotals, _, _, hlog, -, rfl⟩ := h
  obtain ⟨rfl, hvalidated⟩ := validateCollateralRatioAfterWithdraw_ok hvalid
  obtain rfl := recordAssetWithdrawal_ok hasset
  obtain ⟨hrecorded, hcounted, -⟩ := touchProtocolAnalytics_ok htotals
  have hsent := (sendToken_ok hsend).trans (touchUserAnalytics_ok huser).toNoted
  have hafter := (hsent.recorded.trans hrecorded).trans (addActivityLog_ok hlog).recorded
  have hassets := onAsset_assets (withAssetWithdrawal_assets user · amount) asset
    (withCollateralBalance user (getCollateralBalance s user - amount) s)
  have horacle := hafter.oracle.trans hassets.oracle
  refine ⟨⟨by omega, by omega, hvalidated, ?_, horacle, ?_⟩, ?_, ?_⟩
  · exact .trans (.of_books rfl) (hassets.frame.trans (.trans (.of_books rfl) hafter.frame))
  · rw [hafter.books, hassets.position]
    rfl
  · have hbefore := hsent.totals.trans hassets.totals
    rw [(addActivityLog_ok hlog).totals, ← Except.ok.inj hcounted, hbefore]
    rfl
  · exact .trans (.of_books rfl)
      (hassets.sameSetup.trans (.trans (.of_books rfl) hafter.sameSetup))

/-- A withdrawal leaves the protocol's borrows alone. -/
theorem withdrawCollateral_counted {r : ℤ}
    (h : withdrawCollateral user asset amount e s = .ok r s') :
    Withdrawn e s user asset amount s' ∧ totalBorrows s' = totalBorrows s ∧
      SameSetup s s' := by
  obtain ⟨hwithdrawn, htotals, hsetup⟩ := withdrawCollateral_totals h
  exact ⟨hwithdrawn, by rw [totalBorrows, htotals]; rfl, hsetup⟩

theorem withdrawCollateral_ok {r : ℤ} (h : withdrawCollateral user asset amount e s = .ok r s') :
    Withdrawn e s user asset amount s' := (withdrawCollateral_counted h).1

/-! ## Before a position is moved -/

/-- An operation before it moves a position: it may have closed the breaker, accrued interest and
read prices. -/
def Approach (s t : Storage) : Prop :=
  t = { s with
    breaker := t.breaker, interest := t.interest, oracle := t.oracle
    books := { s.books with userBorrowIndex := t.books.userBorrowIndex } }

theorem Approach.trans (h : Approach s t) (h' : Approach t u) : Approach s u := by
  unfold Approach at h h' ⊢
  rw [h', h]

theorem Priced.approach (h : Priced s t) : Approach s t := by
  rw [Approach, h.keys]

theorem Accrued.approach {p p' : Position} (h : Accrued e s user p p' t) :
    Approach s t := by
  obtain ⟨index, hbooks, -⟩ := h.books
  rw [Approach, h.keys, hbooks]
  rfl

theorem Approach.getCollateralBalance (h : Approach s t) (user : Address) :
    getCollateralBalance t user = HelloWorld.getCollateralBalance s user := by
  rw [Approach] at h
  rw [h]
  rfl

theorem Approach.getUserAssetCollateral (h : Approach s t) (user : Address) :
    getUserAssetCollateral t user = HelloWorld.getUserAssetCollateral s user := by
  rw [Approach] at h
  rw [h]
  rfl

theorem Approach.getUserAssetList (h : Approach s t) (user : Address) :
    getUserAssetList t user = HelloWorld.getUserAssetList s user := by
  rw [Approach] at h
  rw [h]
  rfl

theorem Approach.hasMultiAssetCollateral (h : Approach s t) (user : Address) :
    hasMultiAssetCollateral t user = HelloWorld.hasMultiAssetCollateral s user := by
  rw [HelloWorld.hasMultiAssetCollateral, h.getUserAssetList, HelloWorld.hasMultiAssetCollateral]

theorem Approach.seizableBalance (h : Approach s t) (borrower : Address)
    (collateralAsset : Option Address) : seizableBalance t borrower collateralAsset =
      HelloWorld.seizableBalance s borrower collateralAsset := by
  unfold HelloWorld.seizableBalance
  rw [h.hasMultiAssetCollateral, h.getCollateralBalance]
  cases collateralAsset with
  | none => rfl
  | some token => simp only [h.getUserAssetCollateral]

theorem Approach.risk (h : Approach s t) : t.risk = s.risk := by
  rw [Approach] at h
  rw [h]

theorem Approach.assetParams (h : Approach s t) : t.assetParams = s.assetParams := by
  rw [Approach] at h
  rw [h]

/-! ## Borrowing -/

/-- What a successful borrow has checked and what it leaves behind. -/
structure Borrowed (e : Env) (s : Storage) (user : Address) (asset : Option Address) (amount : ℤ)
    (s' : Storage) : Prop where
  amount_pos : 0 < amount
  frame : Frame s s'
  moved : ∃ p t u, Accrued e s user ((s.books.position user).getD (.new e.timestamp)) p t ∧
    borrowGates user asset amount p e t = .ok () u ∧
    s'.books = (withPosition user
      { p with debt := p.debt + amount, lastAccrualTime := e.timestamp } t).books

theorem effectiveCollateral_ok {collateral : ℤ} {applyFactor : Bool}
    (h : effectiveCollateral user e s = .ok (collateral, applyFactor) s') :
    Quoted s s' ∧ (hasMultiAssetCollateral s user = true ∧ applyFactor = false ∧
        calculateTotalCollateralValue user e s = .ok collateral s' ∨
      hasMultiAssetCollateral s user = false ∧ applyFactor = true ∧
        collateral = getCollateralBalance s user ∧ s' = s) := by
  simp only [effectiveCollateral, view_seq] at h
  cases hmulti : hasMultiAssetCollateral s user with
  | true =>
    simp only [hmulti, if_true, mapErr_seq, pure_ok, Prod.mk.injEq] at h
    obtain ⟨_, _, hvalue, ⟨rfl, rfl⟩, rfl⟩ := h
    exact ⟨calculateTotalCollateralValue_quoted hvalue, .inl ⟨rfl, rfl, hvalue⟩⟩
  | false =>
    simp only [hmulti, Bool.false_eq_true, if_false, view_seq, pure_ok, Prod.mk.injEq, and_assoc]
      at h
    obtain ⟨rfl, rfl, rfl⟩ := h
    exact ⟨.refl s, .inr ⟨rfl, rfl, rfl, rfl⟩⟩

theorem validateCollateralRatioAfterBorrow_quoted {factor : ℤ} {r : Unit}
    (h : validateCollateralRatioAfterBorrow user amount factor e s = .ok r s') : Quoted s s' := by
  simp only [validateCollateralRatioAfterBorrow, bind_ok, view_ok, ↓okOr_seq, ↓failIf_seq,
    and_assoc, exists_and_left, exists_eq_left'] at h
  obtain ⟨p, -, ⟨collateral, applyFactor⟩, t, heffective, -, _, -, total, -, h⟩ := h
  obtain ⟨hpriced, -⟩ := effectiveCollateral_ok heffective
  by_cases hzero : total = 0
  · rw [if_pos hzero] at h
    obtain ⟨-, rfl⟩ := pure_ok.mp h
    exact hpriced
  · rw [if_neg hzero] at h
    cases applyFactor <;>
      simp only [if_true, if_false, Bool.false_eq_true, okOr_seq, pure_seq, view_seq, failIf_ok]
        at h <;>
      obtain ⟨_, _, _, _, -, -, rfl⟩ := h <;>
      exact hpriced

theorem borrowGates_quoted {p : Position} {r : Unit}
    (h : borrowGates user asset amount p e s = .ok r s') : Quoted s s' := by
  simp only [borrowGates, bind_ok, ↓view_seq, ↓ofExcept_seq, ↓failIf_seq] at h
  obtain ⟨⟨collateral, useRawFactor⟩, t, heffective, -, _, -, -, hvalid⟩ := h
  exact (effectiveCollateral_ok heffective).1.trans
    (validateCollateralRatioAfterBorrow_quoted hvalid)

theorem sendBorrowed_ok {received fee : ℤ} {r : Unit}
    (h : sendBorrowed user asset amount received fee e s = .ok r s') :
    Credited s s' := by
  cases asset with
  | none =>
    obtain ⟨-, rfl⟩ := pure_ok.mp h
    exact (Noted.refl s).credited
  | some token =>
    simp only [sendBorrowed, bind_ok, asks_ok, ↓failIf_seq, and_assoc, exists_and_left,
      exists_eq_left'] at h
    obtain ⟨_, t, hbalance, -, _, u, htransfer, hfee⟩ := h
    obtain rfl := tokenBalance_ok hbalance
    have hsent : Noted s u := by
      rw [transferOut_ok htransfer]
      exact ⟨rfl, rfl⟩
    exact hsent.credited.trans (onlyIf_credits (fun _ => creditReserve_ok) hfee)

/-- A borrow adds what is borrowed to the protocol's borrows. -/
theorem borrowAsset_totals {r : ℤ} (h : borrowAsset user asset amount e s = .ok r s') :
    Borrowed e s user asset amount s' ∧ I128.Holds (totalBorrows s + amount) ∧
      getProtocolAnalytics s' =
        { getProtocolAnalytics s with totalBorrows := totalBorrows s + amount } ∧
      SameSetup s s' ∧ ∀ q, s'.books.position user = some q → I128.Holds q.debt := by
  simp only [borrowAsset, bind_ok, ↓failIf_seq, failIf_ok, ↓view_seq, ↓asks_seq, ↓okOr_seq, okOr_ok,
    ↓store_seq, I128.checkedAdd_eq_some, I128.checkedSub_eq_some, and_assoc, exists_and_left,
    exists_eq_left', exists_const] at h
  obtain ⟨hpos, -, -, -, p, t, haccrued, _, u, hgates, hholds, _, _, -, -, _, v, hsend, _, _, huser,
    _, _, htotals, _, _, hlog, -, -, rfl⟩ := h
  have haccrued : Accrued e s user _ p t := accrueInterest_ok haccrued
  have hgated := borrowGates_quoted hgates
  have hsent := sendBorrowed_ok hsend
  obtain ⟨hrecorded, hcounted, -⟩ := touchProtocolAnalytics_ok htotals
  have hafter := ((touchUserAnalytics_ok huser).recorded.trans hrecorded).trans
    (addActivityLog_ok hlog).recorded
  have hbefore : getProtocolAnalytics v = getProtocolAnalytics s :=
    hsent.totals.trans (hgated.totals.trans haccrued.totals)
  simp only [borrowedTotals, except_bind_ok, orErr_ok, I128.checkedAdd_eq_some, Except.ok.injEq,
    (touchUserAnalytics_ok huser).totals, hbefore, and_assoc, exists_and_left, exists_eq_left']
    at hcounted
  refine ⟨⟨by omega, ?_, p, t, u, haccrued, hgates, ?_⟩, hcounted.1, ?_, ?_, fun q hq => ?_⟩
  · exact haccrued.frame.trans (hgated.frame.trans (.trans (.of_books rfl)
      (hsent.frame.trans hafter.frame)))
  · rw [hafter.books, hsent.books]
    exact withPosition_congr hgated.books ..
  · rw [(addActivityLog_ok hlog).totals, ← hcounted.2]
    rfl
  · exact haccrued.sameSetup.trans (hgated.sameSetup.trans (.trans (.of_books rfl)
      (hsent.setup.trans hafter.sameSetup)))
  · rw [hafter.books, hsent.books, withPosition_position rfl, Function.update_self,
      Option.some.injEq] at hq
    rw [← hq]
    exact hholds

theorem borrowAsset_counted {r : ℤ} (h : borrowAsset user asset amount e s = .ok r s') :
    Borrowed e s user asset amount s' ∧ I128.Holds (totalBorrows s + amount) ∧
      totalBorrows s' = totalBorrows s + amount ∧ SameSetup s s' ∧
      ∀ q, s'.books.position user = some q → I128.Holds q.debt := by
  obtain ⟨hborrowed, hrange, htotals, hrest⟩ := borrowAsset_totals h
  exact ⟨hborrowed, hrange, congrArg ProtocolAnalytics.totalBorrows htotals, hrest⟩

theorem borrowAsset_ok {r : ℤ} (h : borrowAsset user asset amount e s = .ok r s') :
    Borrowed e s user asset amount s' := (borrowAsset_counted h).1

/-! ## Repaying -/

/-- A position settled with a payment: the interest first, the rest from the principal. -/
def Position.settleWith (p : Position) (paid : ℤ) : Position :=
  p.settle (min paid p.borrowInterest) (paid - min paid p.borrowInterest)

/-- The same split taken out of a position once more. -/
def Position.settleTwice (p : Position) (paid : ℤ) : Position :=
  (p.settleWith paid).settle (min paid p.borrowInterest) (paid - min paid p.borrowInterest)

/-- What a successful repayment has checked and what it leaves behind. -/
structure Repaid (e : Env) (s : Storage) (user : Address) (amount : ℤ) (s' : Storage) : Prop where
  amount_pos : 0 < amount
  frame : Frame s s'
  moved : ∃ p q t, s.books.position user = some p ∧ Accrued e s user p q t ∧
    ¬ (p.debt = 0 ∧ p.borrowInterest = 0) ∧ I128.Holds (q.debt + q.borrowInterest) ∧
    s'.books = (withPosition user
      { q.settleTwice (min (q.debt + q.borrowInterest) amount) with
        lastAccrualTime := e.timestamp } t).books

theorem receiveRepayment_ok {token : Address} {r : Unit}
    (h : receiveRepayment token user amount e s = .ok r s') : Noted s s' := by
  simp only [receiveRepayment, bind_ok, ↓failIf_seq] at h
  obtain ⟨balance, t, hbalance, -, h⟩ := h
  obtain rfl := tokenBalance_ok hbalance
  rw [transferIn_ok h]
  exact ⟨rfl, rfl⟩

theorem creditInterestFee_ok {interestPaid reserveFactor : ℤ} {r : Unit}
    (h : creditInterestFee asset interestPaid reserveFactor e s = .ok r s') : Credited s s' := by
  simp only [creditInterestFee, okOr_seq] at h
  obtain ⟨fee, -, h⟩ := h
  exact onlyIf_credits (fun _ => creditReserve_ok) h

theorem recordRepayment_ok {repaid : ℤ} {r : Unit}
    (h : recordRepayment user asset repaid e s = .ok r s') :
    Recorded s s' ∧ getProtocolAnalytics s' =
      { getProtocolAnalytics s with totalBorrows := subOrZero (totalBorrows s) repaid } := by
  simp only [recordRepayment, bind_ok] at h
  obtain ⟨_, _, huser, _, _, htotals, _, _, hlog, h⟩ := h
  obtain ⟨hrecorded, hcounted, -⟩ := touchProtocolAnalytics_ok htotals
  have huser := touchUserAnalytics_ok huser
  have hlogged := (addActivityLog_ok hlog).trans (addActivityLog_ok h)
  refine ⟨(huser.recorded.trans hrecorded).trans hlogged.recorded, ?_⟩
  rw [hlogged.totals, ← Except.ok.inj hcounted, huser.totals]
  rfl

/-- A repayment takes what is paid off the protocol's borrows, and that once. -/
theorem repayDebt_totals {r : ℤ × ℤ × ℤ} (h : repayDebt user asset amount e s = .ok r s') :
    Repaid e s user amount s' ∧ SameSetup s s' ∧
      ∃ p q t, s.books.position user = some p ∧ Accrued e s user p q t ∧
        getProtocolAnalytics s' = { getProtocolAnalytics s with
          totalBorrows :=
            subOrZero (totalBorrows s) (min (q.debt + q.borrowInterest) amount) } := by
  simp only [repayDebt, bind_ok, ↓failIf_seq, failIf_ok, ↓view_seq, ↓asks_seq, ↓okOr_seq,
    ↓store_seq, ↓ofExcept_seq, I128.checkedAdd_eq_some, I128.checkedSub_eq_some, and_assoc,
    exists_and_left, exists_eq_left', exists_const, pure_ok, ← min_def] at h
  obtain ⟨hpos, -, -, token, -, p, hp, howing, q, t, haccrued, hholds, _, t₁, hfirst, -, _, t₂,
    hsecond, _, t₃, hfee, _, t₄, hrecorded, _, t₅, hscore, _, t₆, hborrow, -, rfl⟩ := h
  have haccrued : Accrued e s user p q t := accrueInterest_ok haccrued
  have hpaid : Noted t t₁ := by
    cases asset with
    | none =>
      obtain ⟨-, rfl⟩ := pure_ok.mp hfirst
      exact .refl t
    | some token => exact receiveRepayment_ok hfirst
  have hpaid : Noted t t₂ := hpaid.trans (receiveRepayment_ok hsecond)
  obtain ⟨hrecorded, hcounted⟩ := recordRepayment_ok hrecorded
  have hscored := (updateScoreOnRepayment_tallied hscore).trans (recordBorrow_tallied hborrow)
  have hafter := hrecorded.trans hscored.recorded
  have hcredit := onlyIf_credits (fun _ => creditInterestFee_ok) hfee
  refine ⟨⟨by omega, ?_, p, q, t, hp, haccrued, howing, hholds, ?_⟩, ?_, p, q, t, hp, haccrued, ?_⟩
  · exact haccrued.frame.trans (hpaid.frame.trans (.trans (.of_books rfl)
      (hcredit.frame.trans hafter.frame)))
  · rw [hafter.books, hcredit.books]
    exact withPosition_congr hpaid.books ..
  · exact haccrued.sameSetup.trans (hpaid.recorded.sameSetup.trans (.trans (.of_books rfl)
      (hcredit.setup.trans hafter.sameSetup)))
  · have hbefore : getProtocolAnalytics t₃ = getProtocolAnalytics s := by
      rw [hcredit.totals]
      exact hpaid.totals.trans haccrued.totals
    rw [hscored.totals, hcounted, totalBorrows, hbefore, ← totalBorrows]

theorem repayDebt_counted {r : ℤ × ℤ × ℤ} (h : repayDebt user asset amount e s = .ok r s') :
    Repaid e s user amount s' ∧ SameSetup s s' ∧
      ∃ p q t, s.books.position user = some p ∧ Accrued e s user p q t ∧ totalBorrows s' =
        subOrZero (totalBorrows s) (min (q.debt + q.borrowInterest) amount) := by
  obtain ⟨hrepaid, hsetup, p, q, t, hp, haccrued, htotals⟩ := repayDebt_totals h
  exact ⟨hrepaid, hsetup, p, q, t, hp, haccrued, congrArg ProtocolAnalytics.totalBorrows htotals⟩

theorem repayDebt_ok {r : ℤ × ℤ × ℤ} (h : repayDebt user asset amount e s = .ok r s') :
    Repaid e s user amount s' :=
  (repayDebt_counted h).1

/-! ## Liquidation -/

/-- Record a seizure under its asset, for a borrower with an asset list. -/
def withSeizure (borrower : Address) (collateralAsset : Option Address) (seized : ℤ) (s : Storage) :
    Storage :=
  if hasMultiAssetCollateral s borrower = true then
    onAsset (withAssetWithdrawal borrower · seized) collateralAsset s
  else s

/-- What a successful liquidation has checked and what it leaves behind.  `p` is the borrower's
accrued position, `value` what the collateral is judged at. -/
structure Liquidated (e : Env) (s : Storage) (borrower : Address)
    (debtAsset collateralAsset : Option Address) (debtAmount : ℤ) (p : Position) (value : ℤ)
    (amounts : Settlement) (s' : Storage) : Prop where
  amount_pos : 0 < debtAmount
  frame : Frame s s'
  accrued : ∃ p₀ i, s.books.position borrower = some p₀ ∧
    indexInterest e s borrower p₀.debt = some i ∧
    p = { p₀ with
      borrowInterest := if p₀.debt = 0 then 0 else p₀.borrowInterest + i
      lastAccrualTime := e.timestamp }
  judged : ∃ t u, Approach s t ∧ t.oracle = s.oracle ∧
    collateralValueForCheck borrower debtAsset collateralAsset
      (seizableBalance s borrower collateralAsset) e t = .ok value u
  checked : ∃ t u, Approach s t ∧
    liquidationCheck debtAmount value (p.debt + p.borrowInterest) e t = .ok () u
  settled : ∃ t u, Approach s t ∧ (PricesPositive s.oracle → PricesPositive t.oracle) ∧
    settlement debtAsset collateralAsset debtAmount (p.debt + p.borrowInterest)
      (seizableBalance s borrower collateralAsset) value e t = .ok amounts u
  books :
    let collateral := subOrZero (getCollateralBalance s borrower) amounts.seized
    ∃ index, (s.interest.lendingIndex = none → index = INDEX_SCALE) ∧
      s'.books = (withPosition borrower
        { p.settleWith amounts.repaid with collateral, lastAccrualTime := e.timestamp }
        (withSeizure borrower collateralAsset amounts.seized
          (withCollateralBalance borrower collateral
            (withUserBorrowIndex borrower index s)))).books

/-- What the protocol has set aside of an asset. -/
def reserveOf (s : Storage) (asset : Option Address) : ℤ :=
  (s.treasury.protocolReserve asset).getD 0

/-- The movement of the repaid debt.  Native debt moves nothing. -/
def paymentIn (e : Env) (liquidator : Address) (debtAsset : Option Address) (repaid : ℤ) :
    List Transfer :=
  (debtAsset.map fun token =>
    ⟨token, some e.currentContractAddress, liquidator, e.currentContractAddress, repaid⟩).toList

/-- The movement of the liquidator's share.  Native collateral moves nothing. -/
def paymentOut (e : Env) (liquidator : Address) (collateralAsset : Option Address)
    (received : ℤ) : List Transfer :=
  (collateralAsset.map fun token =>
    ⟨token, none, e.currentContractAddress, liquidator, received⟩).toList

/-- What a successful liquidation reads of the oracle, and what it pays: the tokens that move and
the fee that is set aside.  `total` is what the borrower owes, `value` what its collateral is judged
at. -/
structure Paid (e : Env) (s : Storage) (liquidator borrower : Address)
    (debtAsset collateralAsset : Option Address) (debtAmount total value : ℤ) (amounts : Settlement)
    (s' : Storage) : Prop where
  holds : I128.Holds total
  quoted : ∃ t u w, Approach s t ∧ t.oracle = s.oracle ∧
    collateralValueForCheck borrower debtAsset collateralAsset
      (seizableBalance s borrower collateralAsset) e t = .ok value u ∧
    settlement debtAsset collateralAsset debtAmount total
      (seizableBalance s borrower collateralAsset) value e u = .ok amounts w
  transfers : s'.transfers = s.transfers ++ paymentIn e liquidator debtAsset amounts.repaid ++
    paymentOut e liquidator collateralAsset amounts.received
  accepted : ∀ m ∈ paymentOut e liquidator collateralAsset amounts.received,
    e.accepts (s.transfers ++ paymentIn e liquidator debtAsset amounts.repaid) m = true
  reserve : ∀ asset, reserveOf s' asset =
    reserveOf s asset + if asset = collateralAsset then max amounts.fee 0 else 0

/-- Asking the breaker may close it, and writes nothing else. -/
theorem isLiquidationAllowed_keeps (s : Storage) (liquidator : Address) :
    Keeps (fun t => t = { s with breaker := t.breaker }) (isLiquidationAllowed liquidator)
      fun _ => True := by
  refine Keeps.bind (P := fun _ => True) (Keeps.view fun _ _ => trivial) fun state _ => ?_
  refine Keeps.bind Keeps.okOr fun state _ => ?_
  refine Keeps.bind (P := fun _ => True) (Keeps.asks fun _ => trivial) fun now _ => ?_
  by_cases hdue : (state.autoDeactivateAt.any fun due => due ≤ now) = true
  · rw [if_pos hdue]
    refine Keeps.bind (Keeps.store fun t ht => ?_) fun _ _ => Keeps.pure trivial
    rw [ht]
  · rw [if_neg hdue]
    cases state.status with
    | active => exact Keeps.pure trivial
    | paused => exact Keeps.pure trivial
    | emergency => exact Keeps.view fun _ _ => trivial

theorem liquidationGate_ok {liquidator : Address} {debtAmount : ℤ} {r : Unit}
    (h : liquidationGate liquidator debtAsset collateralAsset debtAmount e s = .ok r s') :
    0 < debtAmount ∧ s' = { s with breaker := s'.breaker } := by
  simp only [liquidationGate, requireOperationNotPaused, bind_ok, ↓failIf_seq, failIf_ok, ↓view_seq,
    ↓asks_seq, mapErr_ok, and_assoc, exists_and_left, exists_eq_left', exists_const] at h
  obtain ⟨hpos, allowed, t, hallowed, -, -, -, -, -, rfl⟩ := h
  have hkeeps : Keeps (fun t => t = { s with breaker := t.breaker }) (breakerAllows liquidator)
      fun _ => True :=
    Keeps.bind (Keeps.attempt (isLiquidationAllowed_keeps s liquidator)) fun _ _ =>
      Keeps.pure trivial
  exact ⟨by omega, (hkeeps.ok rfl hallowed).1⟩

theorem collateralValueForCheck_quoted {borrower : Address} {balance value : ℤ}
    (h : collateralValueForCheck borrower debtAsset collateralAsset balance e s = .ok value s') :
    Quoted s s' := by
  simp only [collateralValueForCheck, view_seq] at h
  by_cases hmulti : hasMultiAssetCollateral s borrower = true
  · rw [if_pos hmulti, mapErr_ok] at h
    exact calculateTotalCollateralValue_quoted h
  · rw [if_neg hmulti] at h
    by_cases hnative : debtAsset = none ∧ collateralAsset = none
    · rw [if_pos hnative] at h
      obtain ⟨-, rfl⟩ := pure_ok.mp h
      exact .refl s
    · simp only [if_neg hnative, bind_ok, ofExcept_ok] at h
      obtain ⟨_, _, hdebt, _, _, hcollateral, -, rfl⟩ := h
      exact (namedPrice_ok hdebt).1.trans (namedPrice_ok hcollateral).1

theorem liquidationCheck_ok {debtAmount value totalDebt : ℤ} {r : Unit}
    (h : liquidationCheck debtAmount value totalDebt e s = .ok r s') :
    s = s' ∧ ∃ config, getRiskParams s = some config ∧ totalDebt ≠ 0 ∧
      (value * BASIS_POINTS_SCALE).tdiv totalDebt < config.liquidationThreshold ∧
      debtAmount ≤ (totalDebt * config.closeFactor).tdiv BASIS_POINTS_SCALE := by
  simp only [liquidationCheck, canBeLiquidated, getMaxLiquidatableAmount, view_seq, okOr_seq,
    mapErr_seq, failIf_seq, failIf_ok, orTrap_seq, pure_ok, I128.checkedMul_eq_some, and_assoc,
    exists_and_left, exists_eq_left'] at h
  obtain ⟨canLiquidate, t, ⟨config, hconfig, hcan⟩, hyes, max, u, ⟨config', hconfig', -, hmax, rfl⟩,
    hamount, rfl⟩ := h
  by_cases hzero : totalDebt = 0
  · rw [if_pos hzero] at hcan
    exact absurd (pure_ok.mp hcan).1.symm hyes
  · simp only [if_neg hzero, orTrap_seq, okOr_seq, pure_ok, I128.checkedMul_eq_some,
      I128.checkedDiv_eq_some, and_assoc, exists_and_left, exists_eq_left'] at hcan
    obtain ⟨-, -, -, rfl, rfl⟩ := hcan
    obtain rfl : config = config' := Option.some.inj (hconfig.symm.trans hconfig')
    refine ⟨rfl, config, hconfig, hzero, ?_, ?_⟩
    · simpa using hyes
    · rw [hmax]
      exact not_lt.mp hamount

theorem receiveLiquidation_ok {liquidator : Address} {repaid : ℤ} {r : Unit}
    (h : receiveLiquidation liquidator debtAsset repaid e s = .ok r s') :
    s' = { s with transfers := s.transfers ++ paymentIn e liquidator debtAsset repaid } := by
  cases debtAsset with
  | none =>
    obtain ⟨-, rfl⟩ := pure_ok.mp h
    simp [paymentIn]
  | some token =>
    simp only [receiveLiquidation, bind_ok, ↓failIf_seq] at h
    obtain ⟨balance, t, hbalance, -, h⟩ := h
    obtain rfl := tokenBalance_ok hbalance
    exact transferIn_ok h

theorem sendSeized_ok {liquidator : Address} {seized received : ℤ} {r : Unit}
    (h : sendSeized liquidator collateralAsset seized received e s = .ok r s') :
    s' = { s with transfers := s.transfers ++ paymentOut e liquidator collateralAsset received } ∧
      ∀ m ∈ paymentOut e liquidator collateralAsset received, e.accepts s.transfers m = true := by
  cases collateralAsset with
  | none =>
    obtain ⟨-, rfl⟩ := pure_ok.mp h
    simp [paymentOut]
  | some token =>
    simp only [sendSeized, bind_ok, asks_ok, ↓failIf_seq, and_assoc, exists_and_left,
      exists_eq_left'] at h
    obtain ⟨balance, t, hbalance, -, h⟩ := h
    obtain rfl := tokenBalance_ok hbalance
    exact ⟨transferOut_ok h, by simpa [paymentOut] using transferOut_accepted h⟩

/-- A fee that is there is set aside. -/
theorem creditFee_reserve {ε : Type} {overflow : ε} {fee : ℤ} {r : Unit}
    (h : onlyIf (0 < fee) (creditReserve overflow asset fee) e s = .ok r s') (a : Option Address) :
    reserveOf s' a = reserveOf s a + if a = asset then max fee 0 else 0 := by
  by_cases hfee : 0 < fee
  · have hcredit := (onlyIf_ok.mp h).1 hfee
    simp only [creditReserve, view_seq, okOr_seq, I128.checkedAdd_eq_some, store_ok, ↓existsAndEq,
      and_true] at hcredit
    obtain ⟨_, -, rfl⟩ := hcredit
    by_cases ha : a = asset
    · rw [if_pos ha, max_eq_left hfee.le, ha]
      simp [reserveOf, withReserve]
    · rw [if_neg ha, add_zero]
      simp [reserveOf, withReserve, ha]
  · obtain rfl := (onlyIf_ok.mp h).2 hfee
    rw [max_eq_right (not_lt.mp hfee), ite_self, add_zero]

theorem creditFee_transfers {ε : Type} {overflow : ε} {fee : ℤ} {r : Unit}
    (h : onlyIf (0 < fee) (creditReserve overflow asset fee) e s = .ok r s') :
    s'.transfers = s.transfers := by
  by_cases hfee : 0 < fee
  · have hcredit := (onlyIf_ok.mp h).1 hfee
    simp [creditReserve] at hcredit
    obtain ⟨_, -, rfl⟩ := hcredit
    rfl
  · rw [(onlyIf_ok.mp h).2 hfee]

theorem calculateDynamicPenalty_keys {value totalDebt penalty : ℤ}
    (h : calculateDynamicPenalty value totalDebt e s = .ok penalty s') : s = s' := by
  simp only [calculateDynamicPenalty, view_seq, okOr_seq] at h
  obtain ⟨params, -, h⟩ := h
  split at h
  · exact (pure_ok.mp h).2
  · simp only [okOr_seq] at h
    obtain ⟨health, -, h⟩ := h
    split at h
    · exact (pure_ok.mp h).2
    · simp only [orTrap_seq, okOr_seq, pure_ok] at h
      obtain ⟨_, -, _, -, _, -, _, -, -, rfl⟩ := h
      rfl

theorem collateralFor_quoted {repaid worth : ℤ}
    (h : collateralFor debtAsset collateralAsset repaid e s = .ok worth s') : Quoted s s' := by
  unfold collateralFor at h
  by_cases hnative : debtAsset = none ∧ collateralAsset = none
  · rw [if_pos hnative] at h
    obtain ⟨-, rfl⟩ := pure_ok.mp h
    exact .refl s
  · simp only [if_neg hnative, bind_ok, okOr_ok] at h
    obtain ⟨_, _, hdebt, _, _, hcollateral, -, rfl⟩ := h
    exact (namedPrice_ok hdebt).1.trans (namedPrice_ok hcollateral).1

/-- The amounts of a settlement, from the penalty and what the repaid debt is worth. -/
theorem settlement_ok {debtAmount totalDebt balance value : ℤ} {amounts : Settlement}
    (h : settlement debtAsset collateralAsset debtAmount totalDebt balance value e s =
      .ok amounts s') :
    amounts.repaid = min totalDebt debtAmount ∧
      amounts.received = amounts.seized - amounts.fee ∧
      ∃ penalty worth, calculateDynamicPenalty value totalDebt e s = .ok penalty s ∧
        collateralFor debtAsset collateralAsset amounts.repaid e s = .ok worth s' ∧
        amounts.seized = min balance ((worth * (10000 + penalty)).tdiv 10000) ∧
        amounts.fee = ((amounts.repaid * penalty).tdiv 10000 *
          (getFeeConfig s).liquidationFeeBps).tdiv 10000 := by
  have hmin : ∀ a b : ℤ, (if a < b then a else b) = min a b := fun a b => by
    rw [min_def]
    split_ifs <;> omega
  simp only [settlement, bind_ok, ↓okOr_seq, ↓orTrap_seq, ↓view_seq, pure_ok,
    Option.bind_eq_some_iff, I128.checkedAdd_eq_some, I128.checkedSub_eq_some,
    I128.checkedMul_eq_some, I128.checkedDiv_eq_some, hmin, and_assoc, exists_and_left,
    exists_eq_left'] at h
  obtain ⟨penalty, t, hpenalty, -, -, -, worth, u, hworth, -, -, -, -, -, -, -, -, rfl, rfl⟩ := h
  obtain rfl := calculateDynamicPenalty_keys hpenalty
  rw [(collateralFor_quoted hworth).sameSetup.fees]
  exact ⟨rfl, rfl, penalty, worth, hpenalty, hworth, rfl, rfl⟩

theorem settlement_quoted {debtAmount totalDebt balance value : ℤ} {amounts : Settlement}
    (h : settlement debtAsset collateralAsset debtAmount totalDebt balance value e s =
      .ok amounts s') : Quoted s s' := by
  obtain ⟨-, -, penalty, worth, -, hworth, -⟩ := settlement_ok h
  exact collateralFor_quoted hworth

theorem seize_ok {borrower : Address} {p : Position} {seized : ℤ} {r : Unit}
    (h : seize borrower collateralAsset p seized e s = .ok r s') :
    s' = withPosition borrower
      { p with collateral := subOrZero (getCollateralBalance s borrower) seized }
      (withSeizure borrower collateralAsset seized
        (withCollateralBalance borrower
          (subOrZero (getCollateralBalance s borrower) seized) s)) := by
  simp only [seize, bind_ok, ↓view_seq, view_ok, ↓store_seq, store_ok, and_assoc, exists_and_left,
    exists_eq_left'] at h
  obtain ⟨_, t, hrecord, rfl⟩ := h
  unfold withSeizure
  cases collateralAsset with
  | none =>
    obtain ⟨-, rfl⟩ := pure_ok.mp hrecord
    split <;> rfl
  | some token =>
    rw [onlyIf_ok] at hrecord
    split
    · next hmulti =>
      have hstored := hrecord.1 hmulti
      rw [recordAssetWithdrawal, store_ok] at hstored
      rw [← hstored]
      rfl
    · next hsingle => rw [← hrecord.2 hsingle]

theorem withSeizure_assets (borrower : Address) (collateralAsset : Option Address) (seized : ℤ)
    (s : Storage) : AssetsOnly s (withSeizure borrower collateralAsset seized s) := by
  unfold withSeizure
  split
  · exact onAsset_assets (withAssetWithdrawal_assets borrower · seized) collateralAsset s
  · rfl

theorem withSeizure_congr (h : t.books = s.books) (borrower : Address)
    (collateralAsset : Option Address) (seized : ℤ) :
    (withSeizure borrower collateralAsset seized t).books =
      (withSeizure borrower collateralAsset seized s).books := by
  have hmulti : hasMultiAssetCollateral t borrower = hasMultiAssetCollateral s borrower := by
    rw [hasMultiAssetCollateral, getUserAssetList, h]
    rfl
  unfold withSeizure
  rw [hmulti]
  split
  · exact onAsset_congr (withAssetWithdrawal_congr h borrower · seized) h collateralAsset
  · exact h

/-- A liquidation takes what is seized off the value locked, and leaves the protocol's borrows
alone, whatever debt it repays. -/
theorem liquidate_totals {liquidator borrower : Address} {debtAmount : ℤ} {r : ℤ × ℤ × ℤ}
    (h : liquidate liquidator borrower debtAsset collateralAsset debtAmount e s = .ok r s') :
    (∃ p value amounts,
      Liquidated e s borrower debtAsset collateralAsset debtAmount p value amounts s' ∧
        Paid e s liquidator borrower debtAsset collateralAsset debtAmount
          (p.debt + p.borrowInterest) value amounts s' ∧
        getProtocolAnalytics s' = { getProtocolAnalytics s with
          totalValueLocked :=
            subOrZero (getProtocolAnalytics s).totalValueLocked amounts.seized }) ∧
      SameSetup s s' := by
  simp only [liquidate, bind_ok, ↓view_seq, ↓asks_seq, ↓okOr_seq, I128.checkedAdd_eq_some,
    I128.checkedSub_eq_some, pure_ok, ← min_def, and_assoc, exists_and_left, exists_eq_left'] at h
  obtain ⟨_, t₀, hgate, p₀, hp₀, p, t, haccrued, hholds, value, u, hvalue, _, v, hcheck, amounts, w,
    hsettled, _, w₁, hreceive, _, w₂, hsend, _, w₃, hfee, -, _, w₄, hseize, _, _, huser, _, _,
    htotals, _, _, hlog, _, v', hscore, -, rfl⟩ := h
  obtain ⟨hpos, hgate⟩ := liquidationGate_ok hgate
  have haccrued : Accrued e t₀ borrower p₀ p t := accrueInterest_ok haccrued
  have hopen : Frame s t₀ := by
    rw [hgate]
    exact ⟨rfl, fun _ => rfl, id⟩
  have hopenA : Approach s t₀ := by
    rw [hgate]
    rfl
  have hst : Approach s t := hopenA.trans haccrued.approach
  have hpriced := collateralValueForCheck_quoted hvalue
  obtain ⟨rfl, -⟩ := liquidationCheck_ok hcheck
  have hpriced' := settlement_quoted hsettled
  obtain rfl := receiveLiquidation_ok hreceive
  obtain ⟨rfl, haccepted⟩ := sendSeized_ok hsend
  have hpaid : Noted w { w with
      transfers := w.transfers ++ paymentIn e liquidator debtAsset amounts.repaid ++
        paymentOut e liquidator collateralAsset amounts.received } := ⟨rfl, rfl⟩
  have hmoved := hpaid.credited.trans (onlyIf_credits (fun _ => creditReserve_ok) hfee)
  have hbooks : w₃.books = t.books := by
    rw [hmoved.books, hpriced'.books, hpriced.books]
  obtain rfl := seize_ok hseize
  obtain ⟨hrecorded, hcounted, hstill⟩ := touchProtocolAnalytics_ok htotals
  have hlogged := (addActivityLog_ok hlog).trans (updateScoreOnLiquidation_tallied hscore)
  have hafter := ((touchUserAnalytics_ok huser).recorded.trans hrecorded).trans hlogged.recorded
  rw [hst.seizableBalance] at hvalue hsettled
  have hseized := withSeizure_assets borrower collateralAsset amounts.seized
    (withCollateralBalance borrower
      (subOrZero (getCollateralBalance w₃ borrower) amounts.seized) w₃)
  refine ⟨⟨p, value, amounts, ⟨hpos, ?_, ?_, ?_, ?_, ?_, ?_⟩, ?_, ?_⟩, ?_⟩
  · exact hopen.trans (haccrued.frame.trans (hpriced.frame.trans (hpriced'.frame.trans
      (hmoved.frame.trans (.trans (.of_books rfl)
        ((withSeizure_assets ..).frame.trans (.trans (.of_books rfl) hafter.frame)))))))
  · obtain ⟨i, hi, -, hp⟩ := haccrued.charged
    refine ⟨p₀, i, ?_, ?_, hp⟩
    · rw [← hp₀, hgate]
    · rw [← hi, hgate]
      rfl
  · exact ⟨t, u, hst, by rw [haccrued.keys, hgate], hvalue⟩
  · exact ⟨u, u, hst.trans hpriced.approach, hcheck⟩
  · refine ⟨u, w, hst.trans hpriced.approach, fun hs => ?_, hsettled⟩
    exact hpriced.positive (haccrued.frame.positive (hopen.positive hs))
  · obtain ⟨index, hindex, hscale⟩ := haccrued.books
    refine ⟨index, fun hs => hscale (by rw [hgate]; exact hs), ?_⟩
    have hstart : w₃.books = (withUserBorrowIndex borrower index s).books := by
      rw [hbooks, hindex, hgate]
      rfl
    rw [hafter.books, getCollateralBalance_congr hbooks, hst.getCollateralBalance]
    exact withPosition_congr (withSeizure_congr (withCollateralBalance_congr hstart ..) ..) ..
  · have hbefore : w.transfers = s.transfers ∧ w.treasury = s.treasury := by
      rw [hpriced'.keys, hpriced.keys, haccrued.keys, hgate]
      exact ⟨rfl, rfl⟩
    have hend : v'.transfers = w₃.transfers ∧ v'.treasury = w₃.treasury := by
      rw [hlogged.transfers, hstill, (touchUserAnalytics_ok huser).transfers, hafter.treasury]
      exact ⟨hseized.transfers, hseized.treasury⟩
    refine ⟨hholds, ⟨t, u, w, hst, ?_, hvalue, hsettled⟩, ?_, ?_, fun asset => ?_⟩
    · rw [haccrued.keys, hgate]
    · rw [hend.1, creditFee_transfers hfee, ← hbefore.1]
    · rwa [← hbefore.1]
    · rw [reserveOf, hend.2, ← reserveOf, creditFee_reserve hfee, reserveOf, reserveOf, ← hbefore.2]
  · have hgated : getProtocolAnalytics t₀ = getProtocolAnalytics s := by
      rw [hgate]
      rfl
    have hbefore : getProtocolAnalytics w₃ = getProtocolAnalytics s := by
      rw [hmoved.totals, hpriced'.totals, hpriced.totals, haccrued.totals, hgated]
    have htotal := hseized.totals.trans hbefore
    rw [hlogged.totals, ← Except.ok.inj hcounted, (touchUserAnalytics_ok huser).totals, ← htotal]
    rfl
  · have hopenS : SameSetup s t₀ := by
      rw [hgate]
      exact ⟨rfl, rfl⟩
    exact hopenS.trans (haccrued.sameSetup.trans (hpriced.sameSetup.trans (hpriced'.sameSetup.trans
      (hmoved.setup.trans (.trans (.of_books rfl)
        (hseized.sameSetup.trans (.trans (.of_books rfl) hafter.sameSetup)))))))

theorem liquidate_counted {liquidator borrower : Address} {debtAmount : ℤ} {r : ℤ × ℤ × ℤ}
    (h : liquidate liquidator borrower debtAsset collateralAsset debtAmount e s = .ok r s') :
    (∃ p value amounts,
      Liquidated e s borrower debtAsset collateralAsset debtAmount p value amounts s' ∧
        Paid e s liquidator borrower debtAsset collateralAsset debtAmount
          (p.debt + p.borrowInterest) value amounts s') ∧
      totalBorrows s' = totalBorrows s ∧ SameSetup s s' := by
  obtain ⟨⟨p, value, amounts, hliquidated, hpaid, htotals⟩, hsetup⟩ := liquidate_totals h
  exact ⟨⟨p, value, amounts, hliquidated, hpaid⟩, by rw [totalBorrows, htotals]; rfl, hsetup⟩

theorem liquidate_ok {liquidator borrower : Address} {debtAmount : ℤ} {r : ℤ × ℤ × ℤ}
    (h : liquidate liquidator borrower debtAsset collateralAsset debtAmount e s = .ok r s') :
    ∃ p value amounts,
      Liquidated e s borrower debtAsset collateralAsset debtAmount p value amounts s' :=
  let ⟨p, value, amounts, hliquidated, _⟩ := (liquidate_counted h).1
  ⟨p, value, amounts, hliquidated⟩

end StellarLend.HelloWorld
