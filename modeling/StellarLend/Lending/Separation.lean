import StellarLend.Lending.Buckets

/-!
# Lending/Separation — an operation on one bucket leaves the other alone

A save of a bucket is seen through that bucket only, as long as buckets are read as they are
recorded.  What is *reported* of the other bucket is another matter: a stable bucket carries its
rate and reports the same, while the pending interest of a variable bucket is priced at the rate of
the moment, which moves with the total debt.  `buckets_separate` says both, and what a switch of
the rate type moves from one bucket to the other.
-/

namespace StellarLend.Lending

open Foundations Call

variable {e : Env} {s t s' : Storage} {u : Address} {r : RateType}

/-! ## Records that belong in their bucket -/

/-- The record is marked with its bucket, its principal is not negative, and a principal in the
stable bucket carries its rate. -/
structure DebtPosition.Fits (p : DebtPosition) (r : RateType) : Prop where
  rateType : p.rateType = r
  principal : 0 ≤ p.borrowedAmount
  locked : r = .stable → p.borrowedAmount = 0 ∨ 0 < p.stableRateBps

theorem emptyPosition_fits (now : ℕ) (asset : Address) (r : RateType) :
    (emptyPosition now asset r).Fits r :=
  ⟨rfl, le_rfl, fun _ => .inl rfl⟩

/-- Every record of the user belongs in its bucket. -/
def RecordsFit (s : Storage) (u : Address) : Prop := ∀ r p, debtRecord s r u = some p → p.Fits r

/-- Every bucket of the user is read as a position that belongs in it. -/
def ReadingsFit (e : Env) (s : Storage) (u : Address) : Prop :=
  ∀ d r, (getDebtPosition e s u d r).Fits r

/-- An operation starts from the bucket as it is read. -/
theorem ReadingsFit.bucketOf_eq (h : ReadingsFit e s u) (asset : Address) (r : RateType) :
    bucketOf e s u asset r = getDebtPosition e s u (some asset) r := by
  have hr := (h (some asset) r).rateType
  rw [bucketOf]
  generalize getDebtPosition e s u (some asset) r = p at hr ⊢
  subst hr
  rfl

theorem RecordsFit.congr (hd : SameDebts s t) (h : RecordsFit s u) : RecordsFit t u := by
  intro r p hp
  rw [hd.debtRecord] at hp
  exact h r p hp

theorem RecordsFit.save (h : RecordsFit s u) (now : ℕ) {p : DebtPosition} (hp : p.Fits r) :
    RecordsFit (savedDebt now u p s) u := by
  intro r' q hq
  rw [debtRecord_savedDebt] at hq
  split at hq
  · obtain ⟨-, rfl⟩ := ‹u = u ∧ r' = p.rateType›
    cases hq
    rw [hp.rateType]
    exact hp
  · exact h r' q hq

/-- **Every act that starts from readings that fit leaves records that fit.** -/
theorem RecordsFit.act {a : Act} (h : RecordsFit s u) (hrates : RatesValid s)
    (hread : ReadingsFit e s u) (ha : actStep e a s = some s') : RecordsFit s' u := by
  by_cases hu : u = a.user
  · have he := actStep_effect ha
    rcases a with ⟨user, asset, amount, casset, camount, rate⟩ | ⟨user, asset, amount, rate⟩ |
      ⟨user, asset, rate⟩ | _ | _ | _
    · obtain rfl : u = user := hu
      obtain ⟨_, bps, t, _, hcalc, hbps, _, hd⟩ := he.debts
      have hfits := hread (some asset) rate
      rw [← hread.bucketOf_eq] at hfits
      refine (h.save _ (r := rate) ⟨rfl, ?_, fun hr => .inr ?_⟩).congr hd
      · exact add_nonneg hfits.principal he.amount_pos.le
      · exact (bucketRateBps_ok hbps).2 ((calculateInterest_refreshes hcalc).rates hrates) hr
    · obtain rfl : u = user := hu
      obtain ⟨_, paid, _, _, _, hpaid, hle, _, hd⟩ := he.debts
      have hfits := hread (some asset) (rate.getD (repayBucket e s u asset))
      rw [← hread.bucketOf_eq] at hfits
      have hpaid0 : 0 ≤ paid := hpaid ▸ le_max_left _ _
      refine (h.save _ ⟨rfl, ?_, fun hr => ?_⟩).congr hd
      · have := hfits.principal
        rcases lt_or_eq_of_le hpaid0 with hpos | hzero
        · exact sub_nonneg.mpr (hle hpos)
        · rwa [← hzero, sub_zero]
      · refine (hfits.locked hr).imp (fun hzero => ?_) id
        have hnone : ¬ 0 < paid := fun hpos => by
          have := hle hpos
          omega
        rw [hzero, le_antisymm (not_lt.mp hnone) hpaid0, sub_zero]
    · obtain rfl : u = user := hu
      obtain ⟨_, bps, t, _, hcalc, hbps, _, hd⟩ := he.debts
      have hfits := hread (some asset) rate.other
      rw [← hread.bucketOf_eq] at hfits
      have hclear := h.save e.timestamp (r := rate.other)
        (p := ⟨0, 0, e.timestamp, (bucketOf e s u asset rate.other).asset, rate.other, 0⟩)
        ⟨rfl, le_rfl, fun _ => .inl rfl⟩
      refine (hclear.save _ (r := rate) ⟨rfl, ?_, fun hr => .inr ?_⟩).congr hd
      · exact hfits.principal
      · exact (bucketRateBps_ok hbps).2 ((calculateInterest_refreshes hcalc).rates hrates) hr
    · exact h.congr (CollateralAdded.debts he).1
    · exact h.congr (VaultDeposited.debts he).1
    · exact h.congr (VaultWithdrawn.debts he).1
  · have hrec := actStep_records_other ha hu
    intro r p hp
    refine h r p ?_
    rw [← hp]
    rcases r with _ | _
    · exact hrec.variableDebt.symm
    · exact hrec.stableDebt.symm

/-- The user's buckets are read as recorded, and the records belong in them. -/
structure WellKept (s : Storage) (u : Address) : Prop where
  rates : RatesValid s
  grounded : Grounded s u
  fits : ∀ r p, debtRecord s r u = some p → p.Fits r

theorem WellKept.empty (u : Address) : WellKept Storage.empty u := by
  refine ⟨.empty, .empty u, fun r p hp => ?_⟩
  rcases r with _ | _ <;> cases hp

theorem WellKept.congr (hd : SameDebts s t) (ht : RatesValid t) (h : WellKept s u) :
    WellKept t u :=
  ⟨ht, h.grounded.congr hd, RecordsFit.congr hd h.fits⟩

/-- A bucket that is well kept is read as a record that belongs in it. -/
theorem WellKept.reading_fits (h : WellKept s u) (e : Env) : ReadingsFit e s u := by
  intro d r
  rw [h.grounded.getDebtPosition]
  cases hp : debtRecord s r u with
  | none => exact emptyPosition_fits ..
  | some p => exact h.fits r p hp

theorem WellKept.bucketOf_eq (h : WellKept s u) (e : Env) (asset : Address) (r : RateType) :
    bucketOf e s u asset r = getDebtPosition e s u (some asset) r :=
  (h.reading_fits e).bucketOf_eq asset r

/-- **Every act keeps a user's buckets well**, unless it is the user's stable borrow without a
variable record. -/
theorem WellKept.act {a : Act} (h : WellKept s u) (hC : VariableFirst u e s a)
    (ha : actStep e a s = some s') : WellKept s' u :=
  ⟨h.rates.act ha, h.grounded.act hC ha, RecordsFit.act h.fits h.rates (h.reading_fits e) ha⟩

/-- **In a run whose stable borrows by a user are made with a variable record, the user's buckets
are well kept.** -/
theorem wellKept_of_meets {txs : List Tx}
    (h : Meets step (StableAfterVariable u) Storage.empty txs) : WellKept (ledger txs) u := by
  refine h.invariant (I := (WellKept · u)) (fun s tx s' hstep hC hs => ?_) (.empty u)
  exact step_invariant (I := (WellKept · u)) (fun _ _ _ ha hca hs => hs.act hca ha)
    (fun _ _ hset hs => hs.congr hset.positions.debts (hset.rates hs.rates)) hstep hC.eachAct hs

/-! ## The other bucket -/

/-- The call borrows into a bucket of the user or repays from it. -/
def Op.OnBucket (u : Address) (r : RateType) : Op → Prop
  | .borrowWithRate user _ _ _ _ rate => user = u ∧ rate = r
  | .repayWithRate user _ _ rate => user = u ∧ rate = r
  | _ => False

/-- A call on a bucket saves that bucket. -/
theorem Grounded.onBucket (h : Grounded s u) {tx : Tx} (hop : tx.op.OnBucket u r)
    (hC : StableAfterVariable u s tx) (hstep : step tx s = some s') :
    ∃ p, p.rateType = r ∧ (p.rateType = .stable → s.borrowUserVariableDebt u ≠ none) ∧
      SameDebts (savedDebt tx.env.timestamp u p s) s' ∧ Frame s s' := by
  obtain ⟨e, op⟩ := tx
  cases op <;> first | exact hop.elim | skip
  case borrowWithRate user asset amount casset camount rate =>
    obtain ⟨rfl, rfl⟩ := hop
    have ha := (step_direct hstep rfl).2.2
    obtain ⟨_, _, _, _, _, _, _, hd⟩ := (actStep_effect ha).debts
    refine ⟨_, rfl, ?_, hd, actStep_frame ha⟩
    rintro rfl
    exact hC rfl
  case repayWithRate user asset amount rate =>
    obtain ⟨rfl, rfl⟩ := hop
    have ha := (step_direct hstep rfl).2.2
    have he := actStep_effect ha
    obtain ⟨_, _, _, _, _, _, _, _, hd⟩ := he.debts
    exact ⟨_, rfl, fun _ => h.variable_of_record (h.recorded_of_owing he.owing), hd,
      actStep_frame ha⟩

theorem Frame.stabilityFeeBps (h : Frame s t) (asset : Address) :
    stabilityFeeBps e t asset = stabilityFeeBps e s asset := by
  rw [Frame] at h
  rw [h]
  rfl

/-- **A record that belongs in its bucket accrues as before**, a variable one if the variable rate
is as before. -/
theorem DebtPosition.Fits.withInterest {p : DebtPosition} (hp : p.Fits r) (hf : Frame s t)
    (hr : r = .stable ∨ getCurrentVariableRateBps e t = getCurrentVariableRateBps e s) :
    Lending.withInterest e t p = Lending.withInterest e s p := by
  have hinterest : interestOf e t p = interestOf e s p := by
    by_cases hzero : p.borrowedAmount = 0
    · rw [interestOf, if_pos hzero, interestOf, if_pos hzero]
    · have hrate : positionRate e t p = positionRate e s p := by
        rw [positionRate, positionRate, hp.rateType]
        rcases r with _ | _
        · exact hr.resolve_left (by decide)
        · have hlocked := (hp.locked rfl).resolve_left hzero
          simp only [if_pos hlocked]
      have hat : ∀ rate, interestAt e t p rate = interestAt e s p rate := by
        intro rate
        rw [interestAt, hf.stabilityFeeBps, interestAt]
      simp only [interestOf, hrate, hat]
  rw [Lending.withInterest, hinterest, Lending.withInterest]

/-! ## Buckets that read zero -/

/-- The bucket is reported as empty. -/
def ReadsZero (e : Env) (s : Storage) (u : Address) (r : RateType) : Prop :=
  ∃ p, reportedDebt e s u r = some p ∧ p.borrowedAmount = 0 ∧ p.interestAccrued = 0

/-- **A bucket is reported as empty exactly if it is stored as empty.** -/
theorem readsZero_iff :
    ReadsZero e s u r ↔ (getDebtPosition e s u none r).borrowedAmount = 0 ∧
      (getDebtPosition e s u none r).interestAccrued = 0 := by
  have hzero : ∀ p : DebtPosition, p.borrowedAmount = 0 → withInterest e s p =
      some { p with interestAccrued := I128.saturatingAdd p.interestAccrued 0 } := by
    intro p hp
    rw [withInterest, interestOf, if_pos hp]
    rfl
  constructor
  · rintro ⟨q, hq, hprincipal, hinterest⟩
    have hp : (getDebtPosition e s u none r).borrowedAmount = 0 := by
      rw [← hprincipal]
      obtain ⟨x, -, rfl⟩ := Option.map_eq_some_iff.mp hq
      split <;> rfl
    rw [reportedDebt, hzero _ hp] at hq
    cases hq
    refine ⟨hp, ?_⟩
    simp only [I128.saturatingAdd, Range.clamp, I128, add_zero] at hinterest
    omega
  · rintro ⟨hprincipal, hinterest⟩
    refine ⟨_, hzero _ hprincipal, hprincipal, ?_⟩
    change I128.saturatingAdd _ 0 = 0
    rw [hinterest]
    decide

/-- The act borrows into the user's bucket or switches a debt into it. -/
def Act.Fills (u : Address) (r : RateType) : Act → Prop
  | .borrow user _ _ _ _ rate => user = u ∧ rate = r
  | .switchRateType user _ rate => user = u ∧ rate = r
  | _ => False

/-- An act that does not fill a bucket creates no record in it. -/
theorem Grounded.act_unrecorded {a : Act} (h : Grounded s u) (hnone : debtRecord s r u = none)
    (hC : ¬ a.Fills u r) (ha : actStep e a s = some s') :
    debtRecord s' r u = none := by
  have hsame : SameDebts s s' → debtRecord s' r u = none :=
    fun hd => (hd.debtRecord r u).trans hnone
  by_cases hu : u = a.user
  · have he := actStep_effect ha
    rcases a with ⟨user, asset, amount, casset, camount, rate⟩ | ⟨user, asset, amount, rate⟩ |
      ⟨user, asset, rate⟩ | _ | _ | _
    · obtain ⟨_, _, _, _, _, _, _, hd⟩ := he.debts
      rw [hd.debtRecord, debtRecord_savedDebt, if_neg fun hr => hC ⟨hu.symm, hr.2.symm⟩]
      exact hnone
    · obtain rfl : u = user := hu
      obtain ⟨_, _, _, _, _, _, _, _, hd⟩ := he.debts
      rw [hd.debtRecord, debtRecord_savedDebt, if_neg]
      · exact hnone
      · rintro ⟨-, rfl⟩
        exact h.recorded_of_owing he.owing hnone
    · obtain rfl : u = user := hu
      obtain ⟨_, _, _, _, _, _, _, hd⟩ := he.debts
      rw [hd.debtRecord, debtRecord_savedDebt, if_neg fun hr => hC ⟨rfl, hr.2.symm⟩,
        debtRecord_savedDebt, if_neg]
      · exact hnone
      · rintro ⟨-, rfl⟩
        exact h.recorded_of_owing he.owing hnone
    · exact hsame (CollateralAdded.debts he).1
    · exact hsame (VaultDeposited.debts he).1
    · exact hsame (VaultWithdrawn.debts he).1
  · have hrec := actStep_records_other ha hu
    rw [← hnone]
    rcases r with _ | _
    · exact hrec.variableDebt
    · exact hrec.stableDebt

/-- **A bucket no act fills has no record.** -/
theorem unrecorded_of_meets {txs : List Tx}
    (h : Meets step (StableAfterVariable u) Storage.empty txs)
    (hC : Meets step (EachAct fun _ _ a => ¬ a.Fills u r) Storage.empty txs) :
    debtRecord (ledger txs) r u = none := by
  have hboth := h.and hC
  refine (hboth.invariant (I := fun s => Grounded s u ∧ debtRecord s r u = none)
    (fun s tx s' hstep hC hs => ?_) ⟨.empty u, by rcases r with _ | _ <;> rfl⟩).2
  refine step_invariant (C := fun e s a => VariableFirst u e s a ∧ ¬ a.Fills u r)
    (I := fun s => Grounded s u ∧ debtRecord s r u = none)
    (fun a s s' ha hca hs => ⟨hs.1.act hca.1 ha, hs.1.act_unrecorded hs.2 hca.2 ha⟩)
    (fun s s' hset hs => ?_) hstep (hC.1.eachAct.and hC.2) hs
  refine ⟨hs.1.congr hset.positions.debts, ?_⟩
  rw [hset.positions.debts.debtRecord]
  exact hs.2

/-! ## Separation -/

/-- After a run, an operation on one bucket of the user leaves the other alone, a bucket nothing was
put into is empty, and a switch that succeeds moves one bucket into the other. -/
structure BucketsSeparate (txs : List Tx) (u : Address) : Prop where
  stored : ∀ tx r s', tx.op.OnBucket u r → StableAfterVariable u (ledger txs) tx →
    step tx (ledger txs) = some s' → ∀ e,
      getDebtPosition e s' u none r.other = getDebtPosition e (ledger txs) u none r.other
  reported : ∀ tx r s', tx.op.OnBucket u r → StableAfterVariable u (ledger txs) tx →
    step tx (ledger txs) = some s' → ∀ e,
      r.other = .stable ∨
          getCurrentVariableRateBps e s' = getCurrentVariableRateBps e (ledger txs) →
        reportedDebt e s' u r.other = reportedDebt e (ledger txs) u r.other
  unfilled : ∀ r, Meets step (EachAct fun _ _ a => ¬ a.Fills u r) Storage.empty txs →
    ∀ e, ReadsZero e (ledger txs) u r
  moves : ∀ e asset r s', step ⟨e, .switchRateType u asset r⟩ (ledger txs) = some s' →
    (getDebtPosition e s' u none r).borrowedAmount =
        (getDebtPosition e (ledger txs) u none r.other).borrowedAmount ∧
      (∃ accrued,
        interestOf e (ledger txs) (getDebtPosition e (ledger txs) u none r.other) =
          some (.ok accrued) ∧
        (getDebtPosition e s' u none r).interestAccrued =
          (getDebtPosition e (ledger txs) u none r.other).interestAccrued + accrued +
            (getDebtPosition e (ledger txs) u none r.other).borrowedAmount *
              getRateSwitchFeeBps (ledger txs) / 10000) ∧
      ReadsZero e s' u r.other

/-- A bucket that is not empty is read the same whatever the default asset. -/
theorem WellKept.bucketOf_owing (h : WellKept s u) {asset : Address}
    (ho : ¬ ((bucketOf e s u asset r).borrowedAmount = 0 ∧
      (bucketOf e s u asset r).interestAccrued = 0)) :
    bucketOf e s u asset r = getDebtPosition e s u none r := by
  obtain ⟨p, hp⟩ := Option.ne_none_iff_exists'.mp (h.grounded.recorded_of_owing ho)
  rw [h.bucketOf_eq, getDebtPosition_of_record hp, getDebtPosition_of_record hp]

/-- **The buckets of a user are separate** in every run whose stable borrows by the user are made
with a variable record. -/
theorem buckets_separate {txs : List Tx}
    (h : Meets step (StableAfterVariable u) Storage.empty txs) : BucketsSeparate txs u := by
  have hw := wellKept_of_meets h
  have hstored : ∀ tx r s', tx.op.OnBucket u r → StableAfterVariable u (ledger txs) tx →
      step tx (ledger txs) = some s' → ∀ e,
        getDebtPosition e s' u none r.other = getDebtPosition e (ledger txs) u none r.other := by
    intro tx r s' hop hC hstep e
    obtain ⟨p, hp, hvar, hd, -⟩ := hw.grounded.onBucket hop hC hstep
    rw [hd.getDebtPosition, hw.grounded.reading_savedDebt _ hvar, if_neg]
    rw [hp]
    exact r.ne_other.symm
  refine ⟨hstored, fun tx r s' hop hC hstep e hr => ?_, fun r hnone e => ?_,
    fun e asset r s' hstep => ?_⟩
  · obtain ⟨_, _, _, _, hf⟩ := hw.grounded.onBucket hop hC hstep
    rw [reportedDebt, hstored tx r s' hop hC hstep, reportedDebt]
    exact (hw.reading_fits e none r.other).withInterest hf hr
  · rw [readsZero_iff, hw.grounded.getDebtPosition, unrecorded_of_meets h hnone]
    exact ⟨rfl, rfl⟩
  · have he := actStep_effect (step_direct hstep rfl).2.2
    obtain ⟨⟨accrued, hfilled, t, hcalc⟩, hcleared⟩ := Switched.readings he
    have hsource := hw.bucketOf_owing he.owing
    have hfee : 0 ≤ getRateSwitchFeeBps (ledger txs) := by
      rw [hw.rates.switchFee]
      decide
    rw [hsource] at hcalc hfilled
    refine ⟨by rw [hfilled], ⟨accrued, (calculateInterest_ok hcalc).1, ?_⟩, ?_⟩
    · rw [hfilled, Int.tdiv_eq_ediv_of_nonneg]
      exact mul_nonneg (hw.reading_fits e none r.other).principal hfee
    · rw [readsZero_iff, hcleared]
      exact ⟨rfl, rfl⟩

namespace Sample

/-- Alice borrows at both rates. -/
def atBothRates : List Tx :=
  [deploy, ⟨envAt 5 [alice], .borrow alice usdc 10000 xlm 15000⟩,
    ⟨envAt 6 [alice], .borrowWithRate alice usdc 10000 xlm 15000 .stable⟩]

end Sample

theorem buckets_separate_atBothRates : BucketsSeparate Sample.atBothRates Sample.alice := by
  have hvar : (run step Storage.empty (Sample.atBothRates.take 2)).borrowUserVariableDebt
      Sample.alice ≠ none := by decide
  exact buckets_separate ⟨fun _ => trivial, fun _ => trivial, fun _ _ => hvar, trivial⟩

namespace Sample

/-- Alice borrows at the variable rate. -/
def variableOnly : List Tx := [deploy, ⟨envAt 5 [alice], .borrow alice usdc 10000 xlm 15000⟩]

/-- A year later. -/
def aYearLater : Env := envAt (5 + 31536000) [alice]

/-- Alice borrows at the variable rate where there is no debt ceiling. -/
def hugeDebt : List Tx :=
  [⟨envAt 0 [admin], .initializeProtocol admin I128.MAX 1000⟩,
    ⟨envAt 5 [alice], .borrow alice usdc (10 ^ 34) xlm (2 * 10 ^ 34)⟩]

/-- So late that the interest on the debt overflows.  Alice authorises both requirements. -/
def tooLate : Env := envAt (10 ^ 19) [alice, alice]

end Sample

/-- A stable borrow raises the utilization, and with it the interest reported of the variable bucket
for the year that went by.  And a switch fails where the interest overflows. -/
theorem buckets_not_separate :
    (∃ s', step ⟨Sample.aYearLater, .borrowWithRate Sample.alice Sample.usdc 900000 Sample.xlm
        1350000 .stable⟩ (ledger Sample.variableOnly) = some s' ∧
      reportedDebt Sample.aYearLater s' Sample.alice .variable ≠
        reportedDebt Sample.aYearLater (ledger Sample.variableOnly) Sample.alice .variable) ∧
    (¬ ReadsZero Sample.tooLate (ledger Sample.hugeDebt) Sample.alice .variable ∧
      ReadsZero Sample.tooLate (ledger Sample.hugeDebt) Sample.alice .stable ∧
      step ⟨Sample.tooLate, .switchRateType Sample.alice Sample.usdc .stable⟩
        (ledger Sample.hugeDebt) = none) := by
  refine ⟨?_, ?_, ?_, ?_⟩
  · have hrun : ((step ⟨Sample.aYearLater, .borrowWithRate Sample.alice Sample.usdc 900000
        Sample.xlm 1350000 .stable⟩ (ledger Sample.variableOnly)).map fun s' =>
          (reportedDebt Sample.aYearLater s' Sample.alice .variable).map
            DebtPosition.interestAccrued) = some (some 7600) := by decide
    have hbefore : (reportedDebt Sample.aYearLater (ledger Sample.variableOnly) Sample.alice
        .variable).map DebtPosition.interestAccrued = some 125 := by decide
    obtain ⟨s', hstep, hafter⟩ := Option.map_eq_some_iff.mp hrun
    refine ⟨s', hstep, fun hsame => ?_⟩
    rw [hsame, hbefore] at hafter
    exact absurd hafter (by decide)
  · rw [readsZero_iff]
    decide
  · rw [readsZero_iff]
    decide
  · decide

end StellarLend.Lending
