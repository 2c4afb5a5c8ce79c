import Mathlib.Tactic.Ring
import StellarLend.Foundations.Total
import StellarLend.Lending.Buckets

/-!
# Lending/Conservation — the total debt is the sum of the principals, and what covers them

Every act moves the principal of its user and the protocol's total debt by the same amount
(`Grounded.act_principal`), so the two agree (`DebtConserved`) as long as a bucket is read as it
is recorded.  One operation breaks that: a stable borrow of a user without a variable record is
saved to the legacy record as well, which is then read back as a variable debt of the same amount.
`debt_conserved_iff` says that this is the only way.

A borrow brings 150% of its own amount as collateral, rounded down.  Each borrow of an odd amount
may lose half a unit (`act_shortfall`), and a position of many borrows is short of the 150% of its
principal by no more than these halves (`collateral_covers`).
-/

namespace StellarLend.Lending

open Foundations Call

variable {e : Env} {s t s' : Storage}

/-! ## How acts move the principal -/

/-- The principal of a user, as the two buckets report it. -/
def principal (e : Env) (s : Storage) (u : Address) : ℤ :=
  (getDebtPosition e s u none .variable).borrowedAmount +
    (getDebtPosition e s u none .stable).borrowedAmount

theorem SameDebts.principal (h : SameDebts s t) (u : Address) :
    principal e t u = principal e s u := by
  simp only [Lending.principal, h.getDebtPosition]

/-- What touches neither the debts nor the total moves nothing. -/
theorem SameDebts.principal_idle (h : SameDebts s s') (ht : s'.borrowTotalDebt = s.borrowTotalDebt)
    (u : Address) : ∃ delta, delta ≤ 0 ∧
      Lending.principal e s' u = Lending.principal e s u + delta ∧
      getTotalDebt s' = getTotalDebt s + delta := by
  refine ⟨0, le_rfl, ?_, ?_⟩
  · rw [h.principal, add_zero]
  · rw [add_zero, getTotalDebt, ht, getTotalDebt]

/-- **A save moves the principal by what it changes of the bucket's.** -/
theorem Grounded.principal_save {user : Address} (h : Grounded s user) (now : ℕ) {p : DebtPosition}
    (hp : p.rateType = .stable → s.borrowUserVariableDebt user ≠ none)
    (hd : SameDebts (savedDebt now user p s) s') :
    principal e s' user = principal e s user +
      (p.borrowedAmount - (Lending.getDebtPosition e s user none p.rateType).borrowedAmount) := by
  have hread := h.reading_savedDebt (e := e) now hp
  rw [hd.principal]
  simp only [principal, hread]
  rcases p.rateType with _ | _ <;> simp only [reduceCtorEq, if_true, if_false] <;> ring

/-- An act leaves the principal of the other users alone. -/
theorem act_principal_other {e' : Env} {a : Act} {u : Address} (ha : actStep e' a s = some s')
    (hu : u ≠ a.user) : principal e s' u = principal e s u := by
  simp only [principal, (actStep_records_other ha hu).getDebtPosition]

/-- What an act adds to the principal: a borrow its amount, the others nothing. -/
def Act.Adds (a : Act) (delta : ℤ) : Prop :=
  match a with
  | .borrow _ _ amount _ _ _ => delta = amount
  | _ => delta ≤ 0

/-- **An act moves the principal of its user and the total debt alike.** -/
theorem Grounded.act_principal {e' : Env} {a : Act} (h : Grounded s a.user)
    (hC : VariableFirst a.user e' s a) (ha : actStep e' a s = some s') :
    ∃ delta, a.Adds delta ∧ principal e s' a.user = principal e s a.user + delta ∧
      getTotalDebt s' = getTotalDebt s + delta := by
  have he := actStep_effect ha
  rcases a with ⟨user, asset, amount, casset, camount, rate⟩ | ⟨user, asset, amount, rate⟩ |
    ⟨user, asset, rate⟩ | _ | _ | _
  · replace h : Grounded s user := h
    obtain ⟨_, _, _, _, _, _, _, hd⟩ := he.debts
    have hm := h.principal_save (e := e) _ (fun hr => by obtain rfl := hr; exact hC rfl) hd
    rw [← (h.bucketOf_amounts e e' asset rate).1, add_sub_cancel_left] at hm
    refine ⟨amount, rfl, hm, ?_⟩
    rw [getTotalDebt, he.total]
    rfl
  · replace h : Grounded s user := h
    obtain ⟨_, paid, _, _, _, hpaid, _, htotal, hd⟩ := he.debts
    have hvar := h.variable_of_record (h.recorded_of_owing he.owing)
    have hm := h.principal_save (e := e) _ (fun _ => hvar) hd
    rw [← (h.bucketOf_amounts e e' asset _).1, sub_sub_cancel_left] at hm
    have hpaid0 : 0 ≤ paid := hpaid ▸ le_max_left _ _
    exact ⟨-paid, neg_nonpos.mpr hpaid0, hm, htotal⟩
  · replace h : Grounded s user := h
    obtain ⟨_, _, _, _, _, _, _, hd⟩ := he.debts
    have hvar := h.variable_of_record (h.recorded_of_owing he.owing)
    have hclear := h.principal_save (e := e) e'.timestamp
      (p := ⟨0, 0, e'.timestamp, (bucketOf e' s user asset rate.other).asset, rate.other, 0⟩)
      (fun _ => hvar) (.refl _)
    have hfill := (grounded_savedDebt fun _ => hvar).principal_save (e := e) _
      (fun _ => recorded_savedDebt (r := .variable) hvar) hd
    have htarget := h.reading_savedDebt (e := e) e'.timestamp
      (p := ⟨0, 0, e'.timestamp, (bucketOf e' s user asset rate.other).asset, rate.other, 0⟩)
      (fun _ => hvar) none rate
    rw [if_neg rate.ne_other] at htarget
    have hsource := (h.bucketOf_amounts e e' asset rate.other).1
    have hempty := (h.bucketOf_amounts e e' asset rate).1
    rw [he.targetEmpty.1] at hempty
    refine ⟨0, le_rfl, ?_, ?_⟩
    · rw [Act.user, hfill, hclear, htarget, ← hempty, hsource]
      ring
    · rw [add_zero, getTotalDebt, he.total, getTotalDebt]
  · exact (CollateralAdded.debts he).1.principal_idle (CollateralAdded.debts he).2 _
  · exact (VaultDeposited.debts he).1.principal_idle (VaultDeposited.debts he).2 _
  · exact (VaultWithdrawn.debts he).1.principal_idle (VaultWithdrawn.debts he).2 _

/-! ## No amount is negative -/

/-- No bucket reports a negative amount. -/
def AmountsNonneg (e : Env) (s : Storage) : Prop :=
  ∀ u r, 0 ≤ (getDebtPosition e s u none r).borrowedAmount ∧
    0 ≤ (getDebtPosition e s u none r).interestAccrued

theorem AmountsNonneg.congr (hd : SameDebts s t) (h : AmountsNonneg e s) : AmountsNonneg e t := by
  intro u r
  rw [hd.getDebtPosition]
  exact h u r

theorem AmountsNonneg.save (h : AmountsNonneg e s) (now : ℕ) {user : Address} {p : DebtPosition}
    (hg : Grounded s user) (hp : p.rateType = .stable → s.borrowUserVariableDebt user ≠ none)
    (h0 : 0 ≤ p.borrowedAmount ∧ 0 ≤ p.interestAccrued) :
    AmountsNonneg e (savedDebt now user p s) := by
  intro u r
  by_cases hu : u = user
  · rw [hu, hg.reading_savedDebt now hp]
    split
    · exact h0
    · exact h user r
  · rw [(sameRecords_savedDebt _ p hu).getDebtPosition]
    exact h u r

/-- **An act leaves no negative amount**, where rates and fees are not negative. -/
theorem AmountsNonneg.act {e' : Env} {a : Act} (h : AmountsNonneg e s) (hg : Grounded s a.user)
    (hv : RatesValid s) (hf : FeesNonneg s) (hC : VariableFirst a.user e' s a)
    (ha : actStep e' a s = some s') : AmountsNonneg e s' := by
  have he := actStep_effect ha
  rcases a with ⟨user, asset, amount, casset, camount, rate⟩ | ⟨user, asset, amount, rate⟩ |
    ⟨user, asset, rate⟩ | _ | _ | _
  · replace hg : Grounded s user := hg
    obtain ⟨_, _, _, _, hcalc, _, _, hd⟩ := he.debts
    obtain ⟨hprin, hint⟩ := hg.bucketOf_amounts e e' asset rate
    obtain ⟨hprin0, hint0⟩ := h user rate
    rw [← hprin] at hprin0
    rw [← hint] at hint0
    refine (h.save _ hg (fun hr => by obtain rfl := hr; exact hC rfl) ⟨?_, ?_⟩).congr hd
    · exact add_nonneg hprin0 he.amount_pos.le
    · exact add_nonneg hint0 (accrued_nonneg hv hf hprin0 hcalc)
  · replace hg : Grounded s user := hg
    obtain ⟨_, paid, _, _, _, _, hle, _, hd⟩ := he.debts
    have hvar := hg.variable_of_record (hg.recorded_of_owing he.owing)
    have hprin := (hg.bucketOf_amounts e e' asset (rate.getD (repayBucket e' s user asset))).1
    refine (h.save _ hg (fun _ => hvar) ⟨?_, le_max_left 0 _⟩).congr hd
    by_cases hp : 0 < paid
    · exact sub_nonneg.mpr (hle hp)
    · linarith [(h user (rate.getD (repayBucket e' s user asset))).1]
  · replace hg : Grounded s user := hg
    obtain ⟨_, _, _, _, hcalc, _, _, hd⟩ := he.debts
    have hvar := hg.variable_of_record (hg.recorded_of_owing he.owing)
    obtain ⟨hprin, hint⟩ := hg.bucketOf_amounts e e' asset rate.other
    obtain ⟨hprin0, hint0⟩ := h user rate.other
    rw [← hprin] at hprin0
    rw [← hint] at hint0
    have hfee : 0 ≤ ((bucketOf e' s user asset rate.other).borrowedAmount *
        getRateSwitchFeeBps s).tdiv 10000 := by
      rw [hv.switchFee]
      exact Int.tdiv_nonneg (mul_nonneg hprin0 (by decide)) (by decide)
    have hclear := h.save e'.timestamp hg
      (p := ⟨0, 0, e'.timestamp, (bucketOf e' s user asset rate.other).asset, rate.other, 0⟩)
      (fun _ => hvar) ⟨le_rfl, le_rfl⟩
    refine .congr hd (.save hclear _ (grounded_savedDebt fun _ => hvar)
      (fun _ => recorded_savedDebt (r := .variable) hvar) ⟨hprin0, ?_⟩)
    exact add_nonneg (add_nonneg hint0 (accrued_nonneg hv hf hprin0 hcalc)) hfee
  · exact h.congr (CollateralAdded.debts he).1
  · exact h.congr (VaultDeposited.debts he).1
  · exact h.congr (VaultWithdrawn.debts he).1

/-! ## Conservation -/

/-- The total debt is the sum of the reported principals, and no amount is negative. -/
structure DebtConserved (e : Env) (s : Storage) : Prop where
  total : TotalsTo (principal e s) (getTotalDebt s)
  nonneg : AmountsNonneg e s

/-- What is proved of every state of a run in which stable borrows come after variable ones. -/
structure Books (e : Env) (s : Storage) : Prop where
  rates : RatesValid s
  fees : FeesNonneg s
  grounded : ∀ u, Grounded s u
  conserved : DebtConserved e s

theorem Books.empty : Books e Storage.empty :=
  ⟨.empty, .empty, .empty, .zero, fun _ r => by rcases r with _ | _ <;> exact ⟨le_rfl, le_rfl⟩⟩

theorem Books.act {e' : Env} {a : Act} (h : Books e s) (hC : ∀ u, VariableFirst u e' s a)
    (ha : actStep e' a s = some s') : Books e s' where
  rates := h.rates.act ha
  fees := (actStep_frame ha).feesNonneg h.fees
  grounded u := (h.grounded u).act (hC u) ha
  conserved := by
    obtain ⟨delta, -, hown, htotal⟩ := (h.grounded a.user).act_principal (e := e) (hC a.user) ha
    refine ⟨h.conserved.total.change_eq a.user (fun u hu => act_principal_other ha hu) ?_,
      h.conserved.nonneg.act (h.grounded a.user) h.rates h.fees (hC a.user) ha⟩
    rw [htotal, hown]
    ring

theorem Books.settles {op : Op} (h : Books e s) (hfee : op.FeeNonneg) (hset : Settles op s s') :
    Books e s' where
  rates := hset.rates h.rates
  fees := hset.fees hfee h.fees
  grounded u := (h.grounded u).congr hset.positions.debts
  conserved := by
    have ht : getTotalDebt s' = getTotalDebt s := by
      rw [getTotalDebt, hset.positions.total, getTotalDebt]
    refine ⟨?_, h.conserved.nonneg.congr hset.positions.debts⟩
    rw [ht]
    exact h.conserved.total.congr hset.positions.debts.principal

/-- The books of a run. -/
theorem books_of_meets {txs : List Tx} (hfee : ∀ tx ∈ txs, tx.op.FeeNonneg)
    (h : Meets step (fun s tx => ∀ u, StableAfterVariable u s tx) Storage.empty txs) :
    Books e (ledger txs) := by
  refine (h.and (meets_of_forall fun tx htx _ => hfee tx htx)).invariant ?_ .empty
  intro s tx s' hstep hC hs
  have hacts : EachAct (fun e s a => ∀ u, VariableFirst u e s a) s tx :=
    meets_forall fun u => (hC.1 u).eachAct
  exact step_invariant (fun _ _ _ ha hca hb => hb.act hca ha)
    (fun _ _ hset hb => hb.settles hC.2 hset) hstep hacts hs

/-- **A stable borrow of a user without a variable record breaks conservation**: it is counted
twice. -/
theorem stable_first_breaks {e' : Env} {user asset casset : Address} {amount camount : ℤ}
    (hs : Books e s) (hl : LegacyFollows s) (hvar : s.borrowUserVariableDebt user = none)
    (h : step ⟨e', .borrowWithRate user asset amount casset camount .stable⟩ s = some s') :
    ¬ DebtConserved e s' := by
  intro hcon
  have hb : Borrowed e' s user asset amount casset camount .stable s' :=
    actStep_effect (step_direct h rfl).2.2
  obtain ⟨accrued, rate, t, u, -, -, -, hd⟩ := hb.debts
  have hbucket : (bucketOf e' s user asset .stable).borrowedAmount = 0 := by
    rw [((hs.grounded user).bucketOf_amounts e e' asset .stable).1,
      (hs.grounded user).getDebtPosition, debtRecord, (hs.grounded user hvar).1]
    rfl
  have hstable : (getDebtPosition e s' user none .stable).borrowedAmount = amount := by
    have hrec := hd.debtRecord .stable user
    rw [debtRecord_savedDebt, if_pos ⟨rfl, rfl⟩, hbucket, zero_add] at hrec
    rw [getDebtPosition_of_record hrec]
  have hvar' : s'.borrowUserVariableDebt user = none := by
    have hrec := hd.debtRecord .variable user
    rw [debtRecord_savedDebt, if_neg (by simp)] at hrec
    exact hrec.trans hvar
  have hvariable := ((hl.savedDebt e'.timestamp user _).congr hd).variable_reads_stable
    (e := e) hvar' none none
  have hprincipal : principal e s' user = amount + amount := by
    rw [principal, hvariable.1, hstable]
  have hzero : principal e s user = 0 := by
    simp [principal, (hs.grounded user).getDebtPosition, debtRecord, hvar,
      (hs.grounded user hvar).1, emptyPosition]
  have hchange : TotalsTo (principal e s') (getTotalDebt s + (amount + amount)) := by
    refine hs.conserved.total.change_eq user (fun u hu => ?_) (by rw [hprincipal, hzero, sub_zero])
    simp only [principal, hd.getDebtPosition, (sameRecords_savedDebt _ _ hu).getDebtPosition]
  have htotal : getTotalDebt s' = getTotalDebt s + amount := by rw [getTotalDebt, hb.total]; rfl
  have := hcon.total.unique hchange
  have := hb.amount_pos
  omega

/-- **Debt is conserved along a run exactly when no user borrows at the stable rate without a
variable record.** -/
theorem debt_conserved_iff {txs : List Tx} (hfee : ∀ tx ∈ txs, tx.op.FeeNonneg) :
    (∀ ys zs, txs = ys ++ zs → ∀ e, DebtConserved e (ledger ys)) ↔
      Meets step (fun s tx => ∀ u, StableAfterVariable u s tx) Storage.empty txs := by
  constructor
  · intro hcon
    refine (meets_or_first Storage.empty txs).resolve_right ?_
    rintro ⟨ys, ⟨e, op⟩, zs, s', rfl, hys, hstep, hC⟩
    have hbooks : Books e (ledger ys) :=
      books_of_meets (fun tx htx => hfee tx (List.mem_append_left _ htx)) hys
    have hs' : ledger (ys ++ [⟨e, op⟩]) = s' := (ledger_snoc ys _).trans (exec_of_some hstep)
    obtain ⟨u, hC⟩ := Classical.not_forall.mp hC
    unfold StableAfterVariable at hC
    split at hC
    · rename_i user asset amount casset camount hop
      obtain ⟨hu, hvar⟩ := Classical.not_imp.mp hC
      obtain rfl : op = _ := hop
      obtain rfl := hu
      refine stable_first_breaks hbooks (Reachable.legacyFollows ⟨ys, rfl⟩) (not_not.mp hvar)
        hstep ?_
      rw [← hs']
      exact hcon _ zs (by simp) e
    · exact hC trivial
  · rintro hmeets ys zs rfl e
    exact (books_of_meets (fun tx htx => hfee tx (List.mem_append_left _ htx))
      (meets_append.mp hmeets).1).conserved

namespace Sample

/-- Alice borrows at both rates, at the variable rate first. -/
def bothRates : List Tx :=
  [deploy, ⟨envAt 5 [alice], .borrow alice usdc 10000 xlm 20000⟩,
    ⟨envAt 6 [alice], .borrowWithRate alice usdc 5000 xlm 10000 .stable⟩]

/-- Alice borrows at the stable rate only. -/
def stableOnly : List Tx :=
  [deploy, ⟨envAt 5 [alice], .borrowWithRate alice usdc 10000 xlm 20000 .stable⟩]

end Sample

theorem debt_conserved_bothRates :
    DebtConserved (Sample.envAt 6 []) (ledger Sample.bothRates) := by
  have hfee : ∀ tx ∈ Sample.bothRates, tx.op.FeeNonneg := by
    simp [Sample.bothRates, Sample.deploy, Op.FeeNonneg]
  have hvar : (run step Storage.empty (Sample.bothRates.take 2)).borrowUserVariableDebt
      Sample.alice ≠ none := by decide
  exact (debt_conserved_iff hfee).mpr
    ⟨fun _ _ => trivial, fun _ _ => trivial, fun _ _ hu => hu ▸ hvar, trivial⟩ _ [] (by simp) _

/-- One stable borrow of 10000 by a new user is reported as 20000 owed, of a total debt of 10000. -/
theorem debt_not_conserved_stableOnly :
    ¬ DebtConserved (Sample.envAt 5 []) (ledger Sample.stableOnly) := by
  intro h
  have hle := h.total.le_of_nonneg
    (fun u => add_nonneg (h.nonneg u .variable).1 (h.nonneg u .stable).1) Sample.alice
  revert hle
  decide

/-! ## One act -/

/-- An odd amount needs half a unit less than it is asked for. -/
theorem minCollateral_half {amount camount : ℤ} (h0 : 0 < amount)
    (h : minCollateral amount ≤ camount) : 3 * amount ≤ 2 * camount + amount % 2 := by
  rw [minCollateral, COLLATERAL_RATIO_MIN, Int.tdiv_eq_ediv_of_nonneg (by omega)] at h
  omega

/-- How much twice the collateral of a user is short of three times the principal. -/
def shortfall (e : Env) (s : Storage) (u : Address) : ℤ :=
  3 * principal e s u - 2 * (getCollateralPosition s u).amount

/-- Whether the act is a borrow of an odd amount by the user. -/
def Act.oddBorrow (user : Address) (a : Act) : ℕ :=
  match a with
  | .borrow u _ amount _ _ _ => if u = user ∧ amount % 2 = 1 then 1 else 0
  | _ => 0

theorem oddBorrow_own (user asset casset : Address) (amount camount : ℤ) (rate : RateType) :
    ((Act.borrow user asset amount casset camount rate).oddBorrow user : ℤ) = amount % 2 := by
  simp only [Act.oddBorrow, true_and]
  split <;> omega

/-- No act lowers the collateral of a borrow position, and a borrow adds its own. -/
theorem act_collateral {a : Act} (ha : actStep e a s = some s') (u : Address) :
    (getCollateralPosition s u).amount ≤ (getCollateralPosition s' u).amount ∧
      ∀ asset amount casset camount rate, a = .borrow u asset amount casset camount rate →
        (getCollateralPosition s' u).amount = (getCollateralPosition s u).amount + camount := by
  have he := actStep_effect ha
  rcases a with ⟨user, asset, amount, casset, camount, rate⟩ | _ | _ | ⟨user, asset, amount⟩ | _ | _
  · have hc := getCollateralPosition_of_update he.collateral u
    by_cases hu : u = user
    · rw [if_pos hu, ← hu] at hc
      have hpos := he.collateral_pos
      refine ⟨by rw [hc]; exact (lt_add_of_pos_right _ hpos).le, ?_⟩
      rintro _ _ _ _ _ ⟨⟩
      rw [hc]
    · rw [if_neg hu] at hc
      refine ⟨by rw [hc], ?_⟩
      rintro _ _ _ _ _ ⟨⟩
      exact absurd rfl hu
  · rw [getCollateralPosition_congr he.collateral]
    exact ⟨le_rfl, nofun⟩
  · rw [getCollateralPosition_congr he.collateral]
    exact ⟨le_rfl, nofun⟩
  · have hc : (getCollateralPosition s' u) = if u = user then _ else getCollateralPosition s u :=
      getCollateralPosition_of_update (congrArg Storage.borrowUserCollateral he.store) u
    refine ⟨?_, nofun⟩
    rw [hc]
    split
    · rename_i hu
      rw [hu]
      exact (lt_add_of_pos_right _ he.amount_pos).le
    · exact le_rfl
  · rw [he.store]
    exact ⟨le_rfl, nofun⟩
  · obtain ⟨_, hs⟩ := he.store
    rw [hs]
    exact ⟨le_rfl, nofun⟩

/-- **An act worsens the coverage of a user by half a unit at most**, and only if it is a borrow of
an odd amount. -/
theorem act_shortfall {e' : Env} {u : Address} {a : Act} (hg : Grounded s u)
    (hC : VariableFirst u e' s a) (ha : actStep e' a s = some s') :
    shortfall e s' u ≤ shortfall e s u + a.oddBorrow u := by
  obtain ⟨hle, hborrow⟩ := act_collateral ha u
  have hodd : (0 : ℤ) ≤ a.oddBorrow u := Int.natCast_nonneg _
  unfold shortfall
  by_cases hu : u = a.user
  · subst hu
    obtain ⟨delta, hadds, hown, -⟩ := hg.act_principal (e := e) hC ha
    rw [hown]
    rcases a with ⟨user, asset, amount, casset, camount, rate⟩ | _ | _ | _ | _ | _
    · obtain rfl : delta = amount := hadds
      have he := actStep_effect ha
      have hcov := minCollateral_half he.amount_pos he.covered
      rw [hborrow _ _ _ _ _ rfl, Act.user, oddBorrow_own]
      linarith
    all_goals
      have hdelta : delta ≤ 0 := hadds
      linarith
  · rw [act_principal_other ha hu]
    linarith

/-! ## Runs -/

/-- How many odd amounts the user has borrowed in a run. -/
def oddBorrows (user : Address) (txs : List Tx) : ℕ :=
  tally step (actTally fun _ _ a => a.oddBorrow user) Storage.empty txs

/-- Collateral is never negative, and twice the collateral is short of three times the principal by
`n` at most. -/
structure Covered (e : Env) (u : Address) (n : ℕ) (s : Storage) : Prop where
  grounded : Grounded s u
  nonneg : 0 ≤ (getCollateralPosition s u).amount
  shortfall_le : shortfall e s u ≤ n

theorem Covered.act {e' : Env} {u : Address} {n : ℕ} {a : Act} (h : Covered e u n s)
    (hC : VariableFirst u e' s a) (ha : actStep e' a s = some s') :
    Covered e u (n + a.oddBorrow u) s' where
  grounded := h.grounded.act hC ha
  nonneg := h.nonneg.trans (act_collateral ha u).1
  shortfall_le := by
    push_cast
    exact (act_shortfall h.grounded hC ha).trans (by linarith [h.shortfall_le])

theorem Covered.settles {op : Op} {u : Address} {n : ℕ} (h : Covered e u n s)
    (hset : Settles op s s') : Covered e u n s' where
  grounded := h.grounded.congr hset.positions.debts
  nonneg := by
    rw [getCollateralPosition_congr hset.positions.collateral]
    exact h.nonneg
  shortfall_le := by
    rw [shortfall, hset.positions.debts.principal,
      getCollateralPosition_congr hset.positions.collateral]
    exact h.shortfall_le

/-- The coverage of a run. -/
theorem covered_of_meets {u : Address} {txs : List Tx}
    (h : Meets step (StableAfterVariable u) Storage.empty txs) :
    Covered e u (oddBorrows u txs) (ledger txs) := by
  have hempty : Covered e u 0 Storage.empty := ⟨.empty u, le_rfl, le_rfl⟩
  have hrun := h.tally_invariant (f := actTally fun _ _ a => a.oddBorrow u) (I := Covered e u)
    (fun n s tx s' hstep hC hs => step_tally (fun n s a s' ha hca hs => hs.act hca ha)
      (fun n s s' hset hs => hs.settles hset) hstep hC.eachAct hs) hempty
  rwa [zero_add] at hrun

/-- **Borrow collateral covers 150% of the whole principal**, up to half a unit for every odd amount
the user has borrowed. -/
theorem collateral_covers {u : Address} {txs : List Tx}
    (h : Meets step (StableAfterVariable u) Storage.empty txs) (e : Env) :
    minCollateral (principal e (ledger txs) u) ≤
      (getCollateralPosition (ledger txs) u).amount + oddBorrows u txs / 2 := by
  obtain ⟨-, hnonneg, hle⟩ := covered_of_meets (e := e) h
  unfold shortfall at hle
  rw [minCollateral, COLLATERAL_RATIO_MIN]
  by_cases hp : 0 ≤ principal e (ledger txs) u
  · rw [Int.tdiv_eq_ediv_of_nonneg (by omega)]
    omega
  · have hneg : 0 ≤ (-(principal e (ledger txs) u * 15000)).tdiv 10000 :=
      Int.tdiv_nonneg (by omega) (by omega)
    rw [Int.neg_tdiv] at hneg
    omega

namespace Sample

/-- Alice borrows an odd amount twice, with the least collateral each time. -/
def twoOddBorrows : List Tx :=
  [deploy, ⟨envAt 5 [alice], .borrow alice usdc 1001 xlm 1501⟩,
    ⟨envAt 6 [alice], .borrow alice usdc 1001 xlm 1501⟩]

end Sample

theorem collateral_covers_twoOddBorrows :
    minCollateral (principal (Sample.envAt 6 []) (ledger Sample.twoOddBorrows) Sample.alice) ≤
      (getCollateralPosition (ledger Sample.twoOddBorrows) Sample.alice).amount +
        oddBorrows Sample.alice Sample.twoOddBorrows / 2 := by
  have h : Meets step (StableAfterVariable Sample.alice) Storage.empty Sample.twoOddBorrows :=
    ⟨fun _ => trivial, fun _ => trivial, fun _ => trivial, trivial⟩
  exact collateral_covers h _

/-- Two borrows of 1001 are covered by 3002, where 150% of 2002 is 3003. -/
theorem collateral_short_twoOddBorrows :
    ¬ minCollateral (principal (Sample.envAt 6 []) (ledger Sample.twoOddBorrows) Sample.alice) ≤
      (getCollateralPosition (ledger Sample.twoOddBorrows) Sample.alice).amount := by
  decide

end StellarLend.Lending
