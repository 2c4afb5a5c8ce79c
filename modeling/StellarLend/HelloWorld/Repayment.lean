import StellarLend.HelloWorld.Acts

/-!
# HelloWorld/Repayment — what a repayment takes off a position

`repayDebt` splits what is paid into interest and principal and writes the position from the split.
The block that writes it stands there twice, so every payment comes off twice: a position ends up
with `total - 2 * paid` where `total - paid` is owed, below zero or at zero as the case may be.
`repaid_once_iff` says that this is so of every payment on a principal.
-/

namespace StellarLend.HelloWorld

open Foundations Call
open Lending (Address)

variable {e : Env} {s s' : Storage} {user : Address} {asset : Option Address} {amount : ℤ}

/-- A payment of `amount` on a debt with its interest, as the position `p'` should show it. -/
structure RepaidOnce (debt interest amount : ℤ) (p' : Position) : Prop where
  owed : p'.debt + p'.borrowInterest = debt + interest - min amount (debt + interest)
  interest_first :
    p'.borrowInterest = interest - min (min amount (debt + interest)) interest
  debt_nonneg : 0 ≤ p'.debt
  interest_nonneg : 0 ≤ p'.borrowInterest
  /-- Who still owes is not recorded as debt free. -/
  recorded : 0 < debt + interest - min amount (debt + interest) →
    ¬ (p'.debt = 0 ∧ p'.borrowInterest = 0)

/-- **The position a repayment stores**: without principal the interest is dropped, with it the
split is taken out twice. -/
theorem repayDebt_position {p : Position} {interest : ℤ}
    (h : commit (repayDebt user asset amount) e s = some s')
    (hp : s.books.position user = some p) (hinterest : interestNow e s user p = some interest) :
    0 < amount ∧ ∃ p', s'.books.position user = some p' ∧
      (p.debt = 0 → interest = p.borrowInterest ∧ p'.debt = 0 ∧ p'.borrowInterest = 0) ∧
      (p.debt ≠ 0 → I128.Holds interest ∧ I128.Holds (p.debt + interest) ∧
        let q := Position.settleTwice { p with borrowInterest := interest }
          (min (p.debt + interest) amount)
        p'.debt = q.debt ∧ p'.borrowInterest = q.borrowInterest) := by
  obtain ⟨_, h⟩ := commit_eq_some.mp h
  have hrepaid := repayDebt_ok h
  obtain ⟨p₀, q, t, hp₀, haccrued, -, hholds, hbooks⟩ := hrepaid.moved
  obtain rfl : p = p₀ := Option.some.inj (hp.symm.trans hp₀)
  obtain ⟨i, hi, hrange, hq⟩ := haccrued.charged
  rw [interestNow, hi, Option.map_some, Option.some.injEq] at hinterest
  have hstored := congrFun (congrArg Books.position hbooks) user
  refine ⟨hrepaid.amount_pos, _, hstored.trans (Function.update_self ..), fun hfree => ?_,
    fun howing => ?_⟩
  · rw [hfree] at hi
    rw [indexInterest_zero hi, add_zero] at hinterest
    refine ⟨hinterest.symm, ?_⟩
    rw [hq, if_pos hfree]
    simp [Position.settleTwice, Position.settleWith, Position.settle, hfree, subOrZero_eq,
      hrepaid.amount_pos.le]
  · rw [hq, if_neg howing] at hholds ⊢
    rw [hinterest] at hholds hrange ⊢
    exact ⟨hrange howing, hholds, rfl, rfl⟩

/-- **A repayment takes exactly what is paid off the position if and only if there is no principal
and the payment covers the interest.** -/
theorem repaid_once_iff {p : Position} {interest : ℤ}
    (h : commit (repayDebt user asset amount) e s = some s')
    (hp : s.books.position user = some p) (hinterest : interestNow e s user p = some interest)
    (hdebt : 0 ≤ p.debt) (hrange : I128.Holds p.debt) :
    (∃ p', s'.books.position user = some p' ∧ RepaidOnce p.debt interest amount p') ↔
      p.debt = 0 ∧ p.borrowInterest ≤ amount := by
  obtain ⟨hpos, p', hp', hfree, howing⟩ := repayDebt_position h hp hinterest
  constructor
  · rintro ⟨p'', hp'', hpaid⟩
    obtain rfl : p' = p'' := Option.some.inj (hp'.symm.trans hp'')
    obtain ⟨howed, hfirst, hdebt', hinterest', -⟩ := hpaid
    by_cases hzero : p.debt = 0
    · obtain ⟨rfl, hd, hi⟩ := hfree hzero
      refine ⟨hzero, ?_⟩
      omega
    · obtain ⟨hi, hholds, hd', hi'⟩ := howing hzero
      exfalso
      rw [I128.holds_iff] at hi hholds hrange
      simp only [Position.settleTwice, Position.settleWith, Position.settle, subOrZero_eq,
        I128.holds_iff] at hd' hi'
      split_ifs at hd' hi' <;> omega
  · rintro ⟨hzero, hcovers⟩
    obtain ⟨rfl, hd, hi⟩ := hfree hzero
    refine ⟨p', hp', ?_, ?_, hd.ge, hi.ge, fun hleft => ?_⟩ <;> omega

namespace Sample

/-- Alice deposits 1000 and borrows 100. -/
def indebted : List Tx :=
  [deploy, ⟨envAt 5 [alice], .depositCollateral alice none 1000⟩,
    ⟨envAt 6 [alice], .borrowAsset alice none 100⟩]

end Sample

theorem repaid_once_sixty :
    ∃ s', commit (repayDebt Sample.alice (some Sample.usdc) 60) (Sample.envAt 7 [Sample.alice])
        (ledger Sample.indebted) = some s' ∧
      ((∃ p', s'.books.position Sample.alice = some p' ∧ RepaidOnce 100 0 60 p') ↔
        (100 : ℤ) = 0 ∧ (0 : ℤ) ≤ 60) := by
  have hrun : (commit (repayDebt Sample.alice (some Sample.usdc) 60)
      (Sample.envAt 7 [Sample.alice]) (ledger Sample.indebted)).isSome := by decide
  have hp : (ledger Sample.indebted).books.position Sample.alice = some ⟨1000, 100, 0, 6⟩ := by
    decide
  have hinterest : interestNow (Sample.envAt 7 [Sample.alice]) (ledger Sample.indebted)
      Sample.alice ⟨1000, 100, 0, 6⟩ = some 0 := by decide
  obtain ⟨s', hs'⟩ := Option.isSome_iff_exists.mp hrun
  exact ⟨s', hs', repaid_once_iff hs' hp hinterest (by decide) (by decide)⟩

/-- Of a debt of 100, 60 are repaid, and the debt recorded is 20 below zero. -/
theorem repaid_below_zero :
    ¬ ∀ txs e user asset amount s' p interest,
      commit (repayDebt user asset amount) e (ledger txs) = some s' →
      (ledger txs).books.position user = some p →
      interestNow e (ledger txs) user p = some interest → 0 ≤ p.debt → 0 ≤ p.borrowInterest →
      ∃ p', s'.books.position user = some p' ∧ RepaidOnce p.debt interest amount p' := by
  intro hall
  have hrun : (commit (repayDebt Sample.alice (some Sample.usdc) 60)
      (Sample.envAt 7 [Sample.alice]) (ledger Sample.indebted)).map
        (fun s' => s'.books.position Sample.alice) = some (some ⟨1000, -20, 0, 7⟩) := by
    decide
  obtain ⟨s', hs', hafter⟩ := Option.map_eq_some_iff.mp hrun
  obtain ⟨p', hp', hpaid⟩ := hall Sample.indebted (Sample.envAt 7 [Sample.alice]) Sample.alice
    (some Sample.usdc) 60 s' ⟨1000, 100, 0, 6⟩ 0 hs' (by decide) (by decide)
    (by decide) (by decide)
  rw [hafter, Option.some.injEq] at hp'
  have hneg := hpaid.debt_nonneg
  rw [← hp'] at hneg
  exact absurd hneg (by decide)

end StellarLend.HelloWorld
