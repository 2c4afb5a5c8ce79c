import StellarLend.Foundations.Total
import StellarLend.HelloWorld.Health
import StellarLend.HelloWorld.Repayment
import StellarLend.HelloWorld.Seizure

/-!
# HelloWorld/Utilization — the protocol's count of what it has lent out

                         total_borrows     Position.debt
    borrow                + amount           + amount
    repay                 − paid             − 2 · paid
    liquidate               —                − repaid

Every other call leaves both alone.  So the count is the sum of the principals exactly while nobody
repays and nobody is liquidated (`borrows_counted_iff`).
-/

namespace StellarLend.HelloWorld

open Foundations Call
open Lending (Address)

variable {e : Env} {s t s' : Storage} {user : Address}

/-- The principal a user owes. -/
def debtOf (s : Storage) (user : Address) : ℤ := ((s.books.position user).map Position.debt).getD 0

/-- The count is the sum of the principals, and the utilization computed from it is one. -/
structure BorrowsCounted (s : Storage) : Prop where
  total : TotalsTo (debtOf s) (totalBorrows s)
  utilization : 0 ≤ (getProtocolAnalytics s).totalDeposits →
    ∀ u, calculateUtilization s = .ok u → 0 ≤ u ∧ u ≤ BASIS_POINTS_SCALE

/-- An act that reduces nobody's debt. -/
def Act.leavesDebts : Act → Prop
  | .repay .. => False
  | .liquidate .. => False
  | _ => True

/-- The call performs no act that reduces a debt. -/
def LeavesDebts (s : Storage) (tx : Tx) : Prop := ∀ a, tx.op.act s = some a → a.leavesDebts

/-! ## One position changes -/

theorem debtOf_self {p' : Position}
    (h : s'.books.position = Function.update s.books.position user (some p')) :
    debtOf s' user = p'.debt := by
  rw [debtOf, h, Function.update_self, Option.map_some, Option.getD_some]

/-- **Where one position changes, the count stays right exactly if it changes as the principal
does.** -/
theorem totals_iff {p' : Position} (h : TotalsTo (debtOf s) (totalBorrows s))
    (hposition : s'.books.position = Function.update s.books.position user (some p')) :
    TotalsTo (debtOf s') (totalBorrows s') ↔
      totalBorrows s' = totalBorrows s + (p'.debt - debtOf s user) := by
  have hother : ∀ v, v ≠ user → debtOf s' v = debtOf s v := fun v hv => by
    rw [debtOf, hposition, Function.update_of_ne hv, debtOf]
  have hchange := h.change user hother
  rw [debtOf_self hposition] at hchange
  exact ⟨fun h' => h'.unique hchange, fun heq => heq ▸ hchange⟩

/-! ## While nobody repays -/

/-- What holds while nobody repays and nobody is liquidated. -/
structure OnlyBorrowed (s : Storage) : Prop where
  settled : Settled s
  owed : ∀ user p, s.books.position user = some p → 0 ≤ p.debt ∧ p.borrowInterest = 0
  range : I128.Holds (totalBorrows s)
  total : TotalsTo (debtOf s) (totalBorrows s)

theorem OnlyBorrowed.empty : OnlyBorrowed .empty where
  settled := .empty
  owed := nofun
  range := by decide
  total := .zero

theorem OnlyBorrowed.nonneg (h : OnlyBorrowed s) (user : Address) : 0 ≤ debtOf s user := by
  rw [debtOf]
  cases hp : s.books.position user with
  | none => exact le_rfl
  | some p => exact (h.owed user p hp).1

/-- The position of a user, or a new one. -/
theorem OnlyBorrowed.position (h : OnlyBorrowed s) (user : Address) (now : ℕ) :
    ((s.books.position user).getD (.new now)).debt = debtOf s user ∧
      ((s.books.position user).getD (.new now)).borrowInterest = 0 := by
  rw [debtOf]
  cases hp : s.books.position user with
  | none => exact ⟨rfl, rfl⟩
  | some p => exact ⟨rfl, (h.owed user p hp).2⟩

/-- A principal is within the count, and so within the range of numbers. -/
theorem OnlyBorrowed.le_total (h : OnlyBorrowed s) (user : Address) :
    debtOf s user ≤ totalBorrows s := h.total.le_of_nonneg h.nonneg user

theorem OnlyBorrowed.counted (h : OnlyBorrowed s) : BorrowsCounted s := by
  refine ⟨h.total, fun hdeposits u hu => ?_⟩
  have hnonneg : 0 ≤ totalBorrows s := h.total.nonneg h.nonneg
  unfold calculateUtilization at hu
  dsimp only at hu
  split at hu
  · rw [← Except.ok.inj hu]
    decide
  · simp only [except_bind_ok, orErr_ok, I128.checkedMul_eq_some, I128.checkedDiv_eq_some,
      Except.ok.injEq, and_assoc, exists_and_left, exists_eq_left'] at hu
    obtain ⟨-, -, -, rfl⟩ := hu
    refine ⟨le_min (Int.tdiv_nonneg (mul_nonneg hnonneg (by decide)) hdeposits) (by decide),
      min_le_right _ _⟩

/-- A call that leaves the positions, the count and the parameters alone. -/
theorem OnlyBorrowed.congr (h : OnlyBorrowed s) (hs : Settled s')
    (hposition : s'.books.position = s.books.position) (htotal : totalBorrows s' = totalBorrows s) :
    OnlyBorrowed s' := by
  refine ⟨hs, ?_, htotal ▸ h.range, ?_⟩
  · rw [hposition]
    exact h.owed
  · rw [htotal]
    exact h.total.congr fun v => by rw [debtOf, hposition, debtOf]

/-- One position grows, and the count with it. -/
theorem OnlyBorrowed.grow {p' : Position} (h : OnlyBorrowed s) (hs : Settled s')
    (hposition : s'.books.position = Function.update s.books.position user (some p'))
    (hgrows : debtOf s user ≤ p'.debt) (hinterest : p'.borrowInterest = 0)
    (hrange : I128.Holds (totalBorrows s'))
    (htotal : totalBorrows s' = totalBorrows s + (p'.debt - debtOf s user)) : OnlyBorrowed s' := by
  refine ⟨hs, fun v p hp => ?_, hrange, (totals_iff h.total hposition).mpr htotal⟩
  rw [hposition, Function.update_apply] at hp
  split at hp
  · rw [← Option.some.inj hp]
    exact ⟨(h.nonneg user).trans hgrows, hinterest⟩
  · exact h.owed v p hp

/-- **Deposits, borrows and withdrawals keep the count right.** -/
theorem OnlyBorrowed.act {a : Act} (h : OnlyBorrowed s) (ha : a.apply e s = some s')
    (hleaves : a.leavesDebts) : OnlyBorrowed s' := by
  have hs := h.settled.act ha
  cases a with
  | deposit user asset amount =>
    obtain ⟨_, ha⟩ := commit_eq_some.mp ha
    obtain ⟨hdeposited, htotal, -⟩ := depositCollateral_counted ha
    have hassets := onAsset_assets (withAssetDeposit_assets user · amount) asset
      (withCollateralBalance user (getCollateralBalance s user + amount) s)
    obtain ⟨hdebt, hinterest⟩ := h.position user e.timestamp
    refine h.grow hs ((congrArg Books.position hdeposited.books).trans
      (withPosition_position hassets.position ..)) hdebt.ge hinterest (htotal ▸ h.range) ?_
    rw [htotal]
    dsimp only
    omega
  | withdraw user asset amount =>
    obtain ⟨_, ha⟩ := commit_eq_some.mp ha
    obtain ⟨hwithdrawn, htotal, -⟩ := withdrawCollateral_counted ha
    have hassets := onAsset_assets (withAssetWithdrawal_assets user · amount) asset
      (withCollateralBalance user (getCollateralBalance s user - amount) s)
    obtain ⟨hdebt, hinterest⟩ := h.position user e.timestamp
    refine h.grow hs ((congrArg Books.position hwithdrawn.books).trans
      (withPosition_position hassets.position ..)) hdebt.ge hinterest (htotal ▸ h.range) ?_
    rw [htotal]
    dsimp only
    omega
  | borrow user asset amount =>
    obtain ⟨_, ha⟩ := commit_eq_some.mp ha
    obtain ⟨hborrowed, hrange, htotal, -⟩ := borrowAsset_counted ha
    obtain ⟨p, t, u, haccrued, -, hbooks⟩ := hborrowed.moved
    obtain ⟨index, hindex, -⟩ := haccrued.books
    obtain ⟨hdebt, hinterest⟩ := h.position user e.timestamp
    have hp := h.settled.accrued haccrued
    have hpos := hborrowed.amount_pos
    refine h.grow hs ((congrArg Books.position hbooks).trans
      (withPosition_position (congrArg Books.position hindex) ..)) ?_ ?_ (htotal ▸ hrange) ?_
    · rw [hp]
      dsimp only
      omega
    · rw [hp]
      dsimp only
      rw [hinterest, ite_self]
    · rw [htotal, hp]
      dsimp only
      omega
  | repay user asset amount => exact hleaves.elim
  | liquidate liquidator borrower dasset casset amount => exact hleaves.elim

/-! ## Who repays breaks it -/

/-- A repayment takes what is paid out of the principal twice. -/
theorem OnlyBorrowed.repay_breaks {asset : Option Address} {amount : ℤ} (h : OnlyBorrowed s)
    (ha : Act.apply (.repay user asset amount) e s = some s') :
    ¬ TotalsTo (debtOf s') (totalBorrows s') := by
  obtain ⟨_, ha⟩ := commit_eq_some.mp ha
  obtain ⟨hrepaid, -, p₁, q₁, t₁, hp₁, haccrued₁, htotal⟩ := repayDebt_counted ha
  obtain ⟨p, q, t, hp, haccrued, howing, -, hbooks⟩ := hrepaid.moved
  obtain rfl : p = p₁ := Option.some.inj (hp.symm.trans hp₁)
  obtain ⟨index, hindex, -⟩ := haccrued.books
  obtain ⟨hnonneg, hinterest⟩ := h.owed user p hp
  have hdebt : debtOf s user = p.debt := by
    rw [debtOf, hp, Option.map_some, Option.getD_some]
  have hle := h.le_total user
  have hpos := hrepaid.amount_pos
  have hrange := h.range
  rw [totals_iff h.total ((congrArg Books.position hbooks).trans
    (withPosition_position (congrArg Books.position hindex) ..)), htotal,
    h.settled.accrued haccrued, h.settled.accrued haccrued₁]
  simp only [Position.settleTwice, Position.settleWith, Position.settle, hinterest, ite_self,
    and_true, subOrZero_eq, hdebt, I128.holds_iff] at howing hrange hle ⊢
  split_ifs <;> omega

/-- A liquidation takes what is repaid out of the principal, and nothing out of the count. -/
theorem OnlyBorrowed.liquidate_breaks {liquidator borrower : Address}
    {dasset casset : Option Address} {amount : ℤ} (h : OnlyBorrowed s)
    (ha : Act.apply (.liquidate liquidator borrower dasset casset amount) e s = some s') :
    ¬ TotalsTo (debtOf s') (totalBorrows s') := by
  obtain ⟨_, ha⟩ := commit_eq_some.mp ha
  obtain ⟨⟨p, value, amounts, hliquidated, -⟩, htotal, -⟩ := liquidate_counted ha
  obtain ⟨p₀, i, hp₀, hi, hp⟩ := hliquidated.accrued
  obtain ⟨index, -, hbooks⟩ := hliquidated.books
  rw [h.settled.indexInterest, Option.some.injEq] at hi
  obtain ⟨hnonneg, hinterest⟩ := h.owed borrower p₀ hp₀
  have hdebt : debtOf s borrower = p₀.debt := by
    rw [debtOf, hp₀, Option.map_some, Option.getD_some]
  have hle := h.le_total borrower
  have howing := hliquidated.debt_pos h.settled.risk
  have hrepaid := hliquidated.repaid
  have hpos := hliquidated.amount_pos
  have hrange := h.range
  have hassets := withSeizure_assets borrower casset amounts.seized
    (withCollateralBalance borrower (subOrZero (getCollateralBalance s borrower) amounts.seized)
      (withUserBorrowIndex borrower index s))
  rw [totals_iff h.total ((congrArg Books.position hbooks).trans
    (withPosition_position hassets.position ..)), htotal]
  simp only [Position.settleWith, Position.settle, hp, ← hi, hinterest, ite_self, add_zero,
    subOrZero_eq, hdebt, I128.holds_iff] at howing hrepaid hrange hle ⊢
  split_ifs <;> omega

/-! ## Runs -/

theorem OnlyBorrowed.gate (h : OnlyBorrowed s) (hgate : Gate s t) : OnlyBorrowed t := by
  refine h.congr (h.settled.gate hgate) (by rw [hgate.books]) ?_
  rw [Gate] at hgate
  rw [hgate]
  rfl

theorem OnlyBorrowed.step {tx : Tx} (h : OnlyBorrowed s) (hstep : step tx s = some s')
    (hleaves : LeavesDebts s tx) : OnlyBorrowed s' := by
  cases hact : tx.op.act s with
  | none =>
    have haside := step_aside hstep hact
    exact h.congr (h.settled.step hstep) (by rw [haside.books])
      (congrArg ProtocolAnalytics.totalBorrows haside.totals)
  | some a =>
    obtain ⟨t, hgate, ha⟩ := step_act hstep hact
    exact (h.gate hgate).act ha (hleaves a hact)

theorem OnlyBorrowed.breaks {tx : Tx} (h : OnlyBorrowed s) (hstep : HelloWorld.step tx s = some s')
    (hreduces : ¬ LeavesDebts s tx) : ¬ TotalsTo (debtOf s') (totalBorrows s') := by
  simp only [LeavesDebts, not_forall] at hreduces
  obtain ⟨a, hact, hkind⟩ := hreduces
  obtain ⟨t, hgate, ha⟩ := step_act hstep hact
  cases a with
  | repay user asset amount => exact (h.gate hgate).repay_breaks ha
  | liquidate liquidator borrower dasset casset amount => exact (h.gate hgate).liquidate_breaks ha
  | deposit user asset amount => exact absurd trivial hkind
  | borrow user asset amount => exact absurd trivial hkind
  | withdraw user asset amount => exact absurd trivial hkind

theorem onlyBorrowed_of_meets {txs : List Tx} (h : Meets step LeavesDebts Storage.empty txs) :
    OnlyBorrowed (ledger txs) :=
  h.invariant (fun _ _ _ hstep hleaves hs => hs.step hstep hleaves) .empty

/-- **All along a run the protocol's count is the sum of the principals, and the utilization within
its bounds, if and only if nobody repays and nobody is liquidated.** -/
theorem borrows_counted_iff {txs : List Tx} :
    (∀ ys, ys <+: txs → BorrowsCounted (ledger ys)) ↔
      Meets step LeavesDebts Storage.empty txs := by
  constructor
  · intro hall
    refine (meets_or_first Storage.empty txs).resolve_right ?_
    rintro ⟨ys, tx, zs, s', rfl, hys, hstep, hreduces⟩
    have hafter := (hall (ys ++ [tx]) ⟨zs, by simp⟩).total
    rw [ledger, run_append, run_cons, run_nil, exec_of_some hstep] at hafter
    exact (onlyBorrowed_of_meets hys).breaks hstep hreduces hafter
  · rintro hmeets ys ⟨zs, rfl⟩
    exact (onlyBorrowed_of_meets (meets_append.mp hmeets).1).counted

namespace Sample

/-- Alice, who owes 100, repays 60. -/
def repaySixty : Tx := ⟨envAt 7 [alice], .repayDebt alice (some usdc) 60⟩

end Sample

/-- The count goes down to 40 where the principal goes down to 20 below zero. -/
theorem borrows_miscounted_repaySixty :
    ¬ ∀ txs ys, ys <+: txs → BorrowsCounted (ledger ys) := by
  intro hall
  have hleaves : Meets step LeavesDebts Storage.empty Sample.indebted := by
    refine meets_of_forall fun tx htx s a ha => ?_
    simp only [Sample.indebted, Sample.deploy, List.mem_cons, List.not_mem_nil, or_false] at htx
    rcases htx with rfl | rfl | rfl <;>
      simp only [Op.act, reduceCtorEq, Option.some.injEq] at ha <;> subst ha <;> trivial
  have hrun : (step Sample.repaySixty (ledger Sample.indebted)).isSome := by decide
  obtain ⟨s', hstep⟩ := Option.isSome_iff_exists.mp hrun
  have hend : ledger (Sample.indebted ++ [Sample.repaySixty]) = s' := by
    rw [ledger_snoc, exec_of_some hstep]
  have hafter := (hall _ _ (List.prefix_refl (Sample.indebted ++ [Sample.repaySixty]))).total
  rw [hend] at hafter
  exact (onlyBorrowed_of_meets hleaves).breaks hstep (fun h => h _ rfl) hafter

end StellarLend.HelloWorld
