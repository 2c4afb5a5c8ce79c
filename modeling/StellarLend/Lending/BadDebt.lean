import StellarLend.Lending.Settlement
import StellarLend.Foundations.Total

/-!
# Lending/BadDebt — the ledger of bad debt

A liquidation books what its payment leaves uncovered of the debt's value, and consumes nothing of
the debt; a recovery takes reserves and total down together.  `bad_debt_sound_iff` says when the
ledger stays sound along a run: exactly when no recovery is of a negative amount, and no liquidation
pays less than what is already booked for its borrower.
-/

namespace StellarLend.Lending

open Foundations Call LendingContract

variable {e : Env} {s s' : Storage} {u : Address}

/-! ## What a step may do -/

/-- The total is the sum of the users' entries, and not negative. -/
structure BadDebtBalanced (s : Storage) : Prop where
  total : TotalsTo (getUserBadDebt s) (getTotalBadDebt s)
  nonneg : 0 ≤ getTotalBadDebt s

/-- An entry that the call changes is at most the value of the user's debt, and a recovery raises
neither the reserves nor the total. -/
structure BadDebtStep (tx : Tx) (s s' : Storage) : Prop where
  booked : ∀ u, getUserBadDebt s' u ≠ getUserBadDebt s u →
    ∃ value, reportedDebtValue tx.env s u = some value ∧ getUserBadDebt s' u ≤ value
  recovered : ∀ admin amount, tx.op = .recoverBadDebt admin amount →
    getReserves s' ≤ getReserves s ∧ getTotalBadDebt s' ≤ getTotalBadDebt s

/-- Every state of the run is balanced, and every successful step is within bounds. -/
structure BadDebtSound (txs : List Tx) : Prop where
  states : ∀ ys zs, txs = ys ++ zs → BadDebtBalanced (ledger ys)
  steps : ∀ ys tx zs s', txs = ys ++ tx :: zs → step tx (ledger ys) = some s' →
    BadDebtStep tx (ledger ys) s'

/-- A recovery is of no negative amount, and a liquidation that books anything pays at least what is
booked for the borrower already. -/
def BooksWithin (s : Storage) (tx : Tx) : Prop :=
  match tx.op with
  | .recoverBadDebt _ amount => 0 ≤ amount
  | .liquidate _ borrower _ _ repayAmount =>
    ∀ value, reportedDebtValue tx.env s borrower = some value → repayAmount < value →
      getUserBadDebt s borrower ≤ repayAmount
  | _ => True

/-! ## Calls that move bad debt -/

/-- A call that books and recovers nothing leaves the ledger of bad debt alone. -/
theorem step_keeps_badDebt {tx : Tx} (h : step tx s = some s') (hop : ¬ tx.op.MovesBadDebt) :
    s'.badDebtTotal = s.badDebtTotal ∧ s'.badDebtUser = s.badDebtUser ∧
      s'.protocolReserves = s.protocolReserves := by
  refine step_invariant (C := fun _ _ _ => True) (I := fun t => t.badDebtTotal = s.badDebtTotal ∧
    t.badDebtUser = s.badDebtUser ∧ t.protocolReserves = s.protocolReserves) ?_ ?_ h
    (meets_of_forall fun _ _ _ => trivial) ⟨rfl, rfl, rfl⟩
  · intro a s₁ s₂ ha _ hs
    have hf := actStep_frame ha
    rw [Frame] at hf
    rw [hf]
    exact hs
  · rintro s₁ s₂ hset ⟨htotal, huser, hreserves⟩
    obtain ⟨kt, ku, kr⟩ := hset.badDebt hop
    exact ⟨kt.trans htotal, ku.trans huser, kr.trans hreserves⟩

theorem getUserBadDebt_booked (user : Address) (amount : ℤ) (s : Storage) (u : Address) :
    getUserBadDebt (booked user amount s) u =
      if u = user then getUserBadDebt s user + amount else getUserBadDebt s u := by
  simp only [getUserBadDebt, booked, withBadDebtUser, withBadDebtTotal, Function.update_apply]
  split <;> rfl

/-- What a liquidation does to the ledger of bad debt: nothing, or it books the uncovered part. -/
theorem Liquidated.ledger {liquidator borrower : Address} {repayAmount : ℤ}
    (h : Liquidated e s liquidator borrower repayAmount s') :
    getReserves s' = getReserves s ∧ ∃ value, reportedDebtValue e s borrower = some value ∧
      getTotalBadDebt s' = getTotalBadDebt s + max 0 (value - repayAmount) ∧
      ∀ u, getUserBadDebt s' u = if u = borrower then
        getUserBadDebt s borrower + max 0 (value - repayAmount) else getUserBadDebt s u := by
  obtain ⟨value, _, t, hvalue, -, -, ht, ⟨hless, rfl⟩ | ⟨hmore, rfl⟩⟩ := h.store
  · obtain ⟨_, rfl⟩ := ht.store
    refine ⟨rfl, value, hvalue, ?_⟩
    rw [max_eq_right (sub_nonneg.mpr hless.le)]
    exact ⟨rfl, getUserBadDebt_booked borrower _ _⟩
  · obtain ⟨_, rfl⟩ := ht.store
    refine ⟨rfl, value, hvalue, ?_⟩
    rw [max_eq_left (sub_nonpos.mpr hmore)]
    refine ⟨(add_zero _).symm, fun u => ?_⟩
    split
    · rename_i hu
      rw [hu, add_zero]
      rfl
    · rfl

/-! ## Runs -/

/-- What is proved of every state of a run within bounds: entries are not negative and sum to the
total, and nothing has ever been paid into the reserves. -/
structure BadDebtBooks (s : Storage) : Prop where
  total : TotalsTo (getUserBadDebt s) (getTotalBadDebt s)
  entries : ∀ u, 0 ≤ getUserBadDebt s u
  reserves : getReserves s = 0

theorem BadDebtBooks.nonneg (h : BadDebtBooks s) : 0 ≤ getTotalBadDebt s := h.total.nonneg h.entries

theorem BadDebtBooks.empty : BadDebtBooks Storage.empty := ⟨.zero, fun _ => le_rfl, rfl⟩

/-- A recovery within bounds recovers nothing: there are no reserves. -/
theorem BadDebtBooks.recover (h : BadDebtBooks s) {admin : Address} {amount : ℤ} {r : Unit}
    (hr : recoverBadDebt admin amount e s = .ok r s') (h0 : 0 ≤ amount) :
    getTotalBadDebt s' = getTotalBadDebt s ∧ getUserBadDebt s' = getUserBadDebt s ∧
      getReserves s' = getReserves s := by
  obtain ⟨-, -, hle, rfl⟩ := recoverBadDebt_ok hr
  rw [h.reserves] at hle
  obtain rfl : amount = 0 := le_antisymm hle h0
  have hnone : Lending.recovered s 0 = 0 := min_eq_right h.nonneg
  rw [hnone, sub_zero, sub_zero]
  exact ⟨rfl, rfl, rfl⟩

/-- **A call within bounds keeps the books, and moves bad debt within bounds.** -/
theorem BadDebtBooks.call {tx : Tx} (h : BadDebtBooks s) (hC : BooksWithin s tx)
    (hop : ∀ user amount, tx.op ≠ .addBadDebt user amount) (hstep : step tx s = some s') :
    BadDebtBooks s' ∧ BadDebtStep tx s s' := by
  by_cases hmoves : tx.op.MovesBadDebt
  · obtain ⟨e, op⟩ := tx
    cases op <;> first | exact hmoves.elim | skip
    all_goals
      simp only [step, Op.apply, commit_eq_some] at hstep
      obtain ⟨r, hstep⟩ := hstep
    case addBadDebt user amount => exact absurd rfl (hop user amount)
    case liquidate liquidator borrower debtAsset casset repayAmount =>
      obtain ⟨hreserves, value, hvalue, htotal, huser⟩ := (liquidate_ok hstep).ledger
      have hown := huser borrower
      rw [if_pos rfl] at hown
      have hothers : ∀ u, u ≠ borrower → getUserBadDebt s' u = getUserBadDebt s u :=
        fun u hu => (huser u).trans (if_neg hu)
      refine ⟨⟨h.total.change_eq borrower hothers ?_, fun u => ?_, ?_⟩, fun u hu => ?_,
        fun _ _ hrec => by cases hrec⟩
      · rw [htotal, hown, add_sub_cancel_left]
      · rw [huser]
        split
        · exact add_nonneg (h.entries borrower) (le_max_left _ _)
        · exact h.entries u
      · rw [hreserves, h.reserves]
      · obtain rfl : u = borrower := by
          by_contra hne
          exact hu ((huser u).trans (if_neg hne))
        refine ⟨value, hvalue, ?_⟩
        rw [hown] at hu ⊢
        have hless : repayAmount < value := by omega
        have hpaid := hC value hvalue hless
        omega
    case recoverBadDebt admin amount =>
      obtain ⟨htotal, huser, hreserves⟩ := h.recover hstep hC
      refine ⟨⟨?_, ?_, ?_⟩, fun u hu => absurd (congrFun huser u) hu, fun _ _ _ => ?_⟩
      · rw [htotal, huser]
        exact h.total
      · rw [huser]
        exact h.entries
      · rw [hreserves, h.reserves]
      · exact ⟨hreserves.le, htotal.le⟩
  · obtain ⟨htotal, huser, hreserves⟩ := step_keeps_badDebt hstep hmoves
    have hsame : getUserBadDebt s' = getUserBadDebt s := by
      funext u
      rw [getUserBadDebt, huser, getUserBadDebt]
    refine ⟨⟨?_, ?_, ?_⟩, fun u hu => absurd (congrFun hsame u) hu, fun _ _ hrec => ?_⟩
    · rw [hsame, getTotalBadDebt, htotal]
      exact h.total
    · rw [hsame]
      exact h.entries
    · rw [getReserves, hreserves]
      exact h.reserves
    · rw [hrec] at hmoves
      exact absurd trivial hmoves

/-- The books of a run. -/
theorem badDebtBooks_of_meets {txs : List Tx}
    (hops : ∀ tx ∈ txs, ∀ user amount, tx.op ≠ .addBadDebt user amount)
    (h : Meets step BooksWithin Storage.empty txs) : BadDebtBooks (ledger txs) :=
  (h.and (meets_of_forall fun tx htx _ => hops tx htx)).invariant
    (fun _ _ _ hstep hC hs => (hs.call hC.1 hC.2 hstep).1) .empty

/-- **A step out of bounds breaks the ledger**: it books more than the debt is worth, or raises the
reserves. -/
theorem BadDebtBooks.breaks {tx : Tx} (h : BadDebtBooks s) (hC : ¬ BooksWithin s tx)
    (hstep : step tx s = some s') : ¬ BadDebtStep tx s s' := by
  rintro ⟨hbooked, hrecovered⟩
  obtain ⟨e, op⟩ := tx
  unfold BooksWithin at hC
  split at hC
  · rename_i admin amount hop
    obtain rfl : op = _ := hop
    obtain ⟨r, hr⟩ := commit_eq_some.mp hstep
    obtain ⟨-, -, -, rfl⟩ := recoverBadDebt_ok hr
    have htaken : Lending.recovered s amount = amount :=
      min_eq_right ((not_le.mp hC).le.trans h.nonneg)
    have hreserves : getReserves s - Lending.recovered s amount ≤ getReserves s :=
      (hrecovered admin amount rfl).1
    rw [htaken] at hreserves
    omega
  · rename_i liquidator borrower debtAsset casset repayAmount hop
    obtain rfl : op = _ := hop
    obtain ⟨r, hr⟩ := commit_eq_some.mp hstep
    simp only [not_forall, not_le] at hC
    obtain ⟨value, hvalue, hless, hpaid⟩ := hC
    obtain ⟨-, value', hvalue', -, huser⟩ := (liquidate_ok hr).ledger
    obtain rfl : value' = value := Option.some.inj (hvalue'.symm.trans hvalue)
    have hown := huser borrower
    rw [if_pos rfl, max_eq_right (sub_nonneg.mpr hless.le)] at hown
    obtain ⟨bound, hbound, hle⟩ := hbooked borrower (by omega)
    obtain rfl : value' = bound := Option.some.inj (hvalue'.symm.trans hbound)
    omega
  · exact hC trivial

/-- **The ledger of bad debt stays sound along a run exactly when every liquidation and every
recovery is within bounds.** -/
theorem bad_debt_sound_iff {txs : List Tx}
    (hops : ∀ tx ∈ txs, ∀ user amount, tx.op ≠ .addBadDebt user amount) :
    BadDebtSound txs ↔ Meets step BooksWithin Storage.empty txs := by
  constructor
  · rintro ⟨-, hsteps⟩
    refine (meets_or_first Storage.empty txs).resolve_right ?_
    rintro ⟨ys, tx, zs, s', rfl, hys, hstep, hC⟩
    have hbooks := badDebtBooks_of_meets (fun x hx => hops x (List.mem_append_left _ hx)) hys
    exact hbooks.breaks hC hstep (hsteps ys tx zs s' rfl hstep)
  · intro hmeets
    refine ⟨?_, ?_⟩
    · rintro ys zs rfl
      have hbooks := badDebtBooks_of_meets (fun x hx => hops x (List.mem_append_left _ hx))
        (meets_append.mp hmeets).1
      exact ⟨hbooks.total, hbooks.nonneg⟩
    · rintro ys tx zs s' rfl hstep
      have hbooks := badDebtBooks_of_meets (fun x hx => hops x (List.mem_append_left _ hx))
        (meets_append.mp hmeets).1
      exact (hbooks.call (meets_iff.mp hmeets ys tx zs s' rfl hstep) (hops tx (by simp)) hstep).2

namespace Sample

/-- A call that finds an oracle: one xlm is worth half a usdc. -/
def pricedAt (now : ℕ) (auths : List Address) : Env :=
  { envAt now auths with
    price := fun _ asset => some (if asset = xlm then 50000000 else 100000000) }

/-- Alice's collateral covers three quarters of her debt, and Bob pays a tenth of it. -/
def liquidatedOnce : List Tx :=
  [deploy, ⟨envAt 1 [admin], .setOracle admin oracle⟩,
    ⟨envAt 5 [alice], .borrow alice usdc 10000 xlm 15000⟩,
    ⟨pricedAt 5 [bob], .liquidate bob alice usdc xlm 1000⟩]

/-- Bob pays once more. -/
def liquidateAgain : Tx := ⟨pricedAt 5 [bob], .liquidate bob alice usdc xlm 1000⟩

end Sample

theorem bad_debt_sound_liquidatedOnce : BadDebtSound Sample.liquidatedOnce := by
  have hops : ∀ tx ∈ Sample.liquidatedOnce, ∀ user amount, tx.op ≠ .addBadDebt user amount := by
    simp [Sample.liquidatedOnce, Sample.deploy]
  have hbooked : getUserBadDebt (ledger (Sample.liquidatedOnce.take 3)) Sample.alice ≤ 1000 := by
    decide
  exact (bad_debt_sound_iff hops).mpr ⟨fun _ => trivial, fun _ => trivial, fun _ => trivial,
    fun _ _ _ _ => hbooked, trivial⟩

/-- For a debt worth 10000, two payments of 1000 book 18000. -/
theorem bad_debt_unsound_liquidatedTwice :
    ¬ BadDebtSound (Sample.liquidatedOnce ++ [Sample.liquidateAgain]) := by
  rintro ⟨-, hsteps⟩
  have hrun : ((step Sample.liquidateAgain (ledger Sample.liquidatedOnce)).map fun s' =>
      (getUserBadDebt (ledger Sample.liquidatedOnce) Sample.alice,
        getUserBadDebt s' Sample.alice)) = some (9000, 18000) := by decide
  have hvalue : reportedDebtValue Sample.liquidateAgain.env (ledger Sample.liquidatedOnce)
      Sample.alice = some 10000 := by decide
  obtain ⟨s', hstep, hs'⟩ := Option.map_eq_some_iff.mp hrun
  obtain ⟨hbefore, hafter⟩ := Prod.mk.inj hs'
  obtain ⟨value, hval, hle⟩ :=
    (hsteps _ _ [] s' rfl hstep).booked Sample.alice (by rw [hbefore, hafter]; decide)
  rw [hvalue] at hval
  cases hval
  omega

end StellarLend.Lending
