import StellarLend.Lending.Reporting

/-!
# Lending/Repayment — a repayment lowers what is owed by what is paid

A repayment moves the total debt, and with it the variable rate; the pending interest of the bucket
that is not repaid could move too.  It does not: a stable bucket carries its own rate, and the
stable bucket is repaid only while no principal is owed in the variable one.  In every reachable
state records belong in their bucket (`Reachable.wellRecorded`), and from that `repay_settles`.
-/

namespace StellarLend.Lending

open Foundations Call

variable {e : Env} {s t s' : Storage} {p : DebtPosition} {user asset : Address} {amount : ℤ}

/-! ## Records belong in their bucket -/

/-- Records of every user belong in their bucket, and the legacy records follow them. -/
structure WellRecorded (s : Storage) : Prop where
  rates : RatesValid s
  legacy : LegacyFollows s
  fits : ∀ u, RecordsFit s u

theorem WellRecorded.empty : WellRecorded Storage.empty :=
  ⟨.empty, .empty, fun u => (WellKept.empty u).fits⟩

/-- Every bucket reads as a position that belongs in it, the legacy record being one of the
buckets. -/
theorem WellRecorded.readings (h : WellRecorded s) (e : Env) (u : Address) : ReadingsFit e s u := by
  intro d r
  unfold getDebtPosition
  cases hrecord : debtRecord s r u with
  | some q => cases r <;> exact h.fits u _ q hrecord
  | none =>
    rcases r with _ | _
    · cases hlegacy : s.borrowUserDebt u with
      | none => exact emptyPosition_fits ..
      | some q =>
        rw [h.legacy.legacy_eq_stable hrecord] at hlegacy
        exact ⟨rfl, (h.fits u .stable q hlegacy).principal, nofun⟩
    · exact emptyPosition_fits ..

theorem WellRecorded.congr (hd : SameDebts s t) (ht : RatesValid t) (h : WellRecorded s) :
    WellRecorded t :=
  ⟨ht, h.legacy.congr hd, fun u => (h.fits u).congr hd⟩

/-- **Every act keeps the records in their buckets.** -/
theorem WellRecorded.act {a : Act} (h : WellRecorded s) (ha : actStep e a s = some s') :
    WellRecorded s' :=
  ⟨h.rates.act ha, h.legacy.act ha, fun u => (h.fits u).act h.rates (h.readings e u) ha⟩

theorem WellRecorded.call {tx : Tx} (h : WellRecorded s) (hstep : step tx s = some s') :
    WellRecorded s' :=
  step_invariant (C := fun _ _ _ => True) (fun _ _ _ ha _ hs => hs.act ha)
    (fun _ _ hset hs => hs.congr hset.positions.debts (hset.rates hs.rates)) hstep
    (meets_of_forall fun _ _ _ => trivial) h

theorem Reachable.wellRecorded (h : Reachable s) : WellRecorded s :=
  h.invariant .empty fun _ _ _ hstep hs => hs.call hstep

/-! ## What is owed beside the repaid bucket -/

/-- **Interest that is computed is the unbounded one.** -/
theorem RatesValid.accrued_eq_pending (h : RatesValid s) {a : ℤ}
    (hcalc : calculateInterest p e s = .ok a t) : a = pending e s p := by
  obtain ⟨hp, rfl⟩ | ⟨rate, hrate, hat⟩ := interestOf_ok (calculateInterest_ok hcalc).1
  · rw [pending_of_no_principal hp]
  · obtain ⟨-, rfl⟩ := h.positionRate_ok.mp hrate
    obtain ⟨-, -, -, -, rfl⟩ := interestAt_exact.mp hat
    rfl

/-- Nothing is pending on a position that was updated just now. -/
theorem pending_at_once (hp : p.lastUpdate = e.timestamp) : pending e s p = 0 := by
  have helapsed : p.elapsed e = 0 := by simp [DebtPosition.elapsed, hp]
  simp [pending, exactInterest, helapsed]

theorem Frame.feeDueBps (h : Frame s t) (asset : Address) :
    feeDueBps e t asset = feeDueBps e s asset := by
  rw [Frame] at h
  rw [h]
  rfl

/-- **What is owed in the stable bucket does not depend on the total debt**: its rate is its own. -/
theorem DebtPosition.Fits.owedNow_frame (hp : p.Fits .stable) (h : Frame s t) :
    owedNow e t p = owedNow e s p := by
  have hpending : pending e t p = pending e s p := by
    obtain hzero | hlocked := hp.locked rfl
    · rw [pending_of_no_principal hzero, pending_of_no_principal hzero]
    · have hrate : exactPositionRate e t p = exactPositionRate e s p := by
        simp only [exactPositionRate, hp.rateType, if_pos hlocked]
      rw [pending, pending, hrate, h.feeDueBps]
  rw [owedNow, owedNow, hpending]

theorem owedNow_of_no_principal (hp : p.borrowedAmount = 0) :
    owedNow e s p = max I128.lo p.interestAccrued := by
  rw [owedNow, pending_of_no_principal hp, hp, zero_add, add_zero]

/-- The stable bucket is read as recorded. -/
theorem getDebtPosition_stable (e : Env) (s : Storage) (u : Address) (d : Option Address) :
    getDebtPosition e s u d .stable =
      (debtRecord s .stable u).getD (emptyPosition e.timestamp (d.getD u) .stable) := by
  unfold getDebtPosition
  cases debtRecord s .stable u <;> rfl

/-- The other bucket's record is not touched by a repayment. -/
theorem Repaid.record_other {r : RateType} (h : Repaid e s user asset amount r s') :
    debtRecord s' r.other user = debtRecord s r.other user := by
  obtain ⟨_, _, _, _, _, _, _, _, hd⟩ := h.debts
  rw [hd.debtRecord, debtRecord_savedDebt, if_neg fun hc => r.ne_other hc.2.symm]

/-- A repayment of the stable bucket pays a user with a variable record: without one, the two
buckets read alike, and nothing is owed in the variable one. -/
theorem Repaid.variable_record (h : Repaid e s user asset amount .stable s')
    (hw : WellRecorded s) (howing : ¬ (getDebtPosition e s user (some asset) .variable).Owing) :
    ∃ v, debtRecord s .variable user = some v := by
  refine Option.ne_none_iff_exists'.mp fun hnone => ?_
  obtain ⟨hamounts, hinterests⟩ :=
    hw.legacy.variable_reads_stable (e := e) hnone (some asset) (some asset)
  rw [DebtPosition.Owing, hamounts, hinterests, not_or, not_lt, not_lt] at howing
  have hread := (hw.readings e user (some asset) .stable).principal
  rw [← (hw.readings e user).bucketOf_eq] at howing hread
  obtain ⟨accrued, paid, t, hcalc, -, hpaid, hle, -⟩ := h.debts
  have hzero := le_antisymm howing.1 hread
  have haccrued : accrued = 0 := by
    rw [hw.rates.accrued_eq_pending hcalc, pending_of_no_principal hzero]
  have hamount := h.amount_pos
  have hpos : 0 < paid := by
    rw [hpaid, haccrued]
    exact lt_max_of_lt_right (by omega)
  exact absurd (hle hpos) (by omega)

/-- **What is owed in the other bucket stays.** -/
theorem Repaid.owed_other (h : Repaid e s user asset amount (repayBucket e s user asset) s')
    (hw : WellRecorded s) :
    owedNow e s' (getDebtPosition e s' user none (repayBucket e s user asset).other) =
      owedNow e s (getDebtPosition e s user none (repayBucket e s user asset).other) := by
  have hrecord := h.record_other
  unfold repayBucket at h hrecord ⊢
  split at h <;> rename_i howing
  · rw [if_pos howing] at hrecord ⊢
    have hread : getDebtPosition e s' user none .stable =
        getDebtPosition e s user none .stable := by
      rw [RateType.other] at hrecord
      rw [getDebtPosition_stable, getDebtPosition_stable, hrecord]
    rw [RateType.other, hread]
    exact (hw.readings e user none .stable).owedNow_frame h.frame
  · rw [if_neg howing] at hrecord ⊢
    obtain ⟨v, hv⟩ := h.variable_record hw howing
    rw [RateType.other] at hrecord ⊢
    rw [getDebtPosition_of_record hv, DebtPosition.Owing, not_or, not_lt, not_lt] at howing
    have hzero : v.borrowedAmount = 0 := le_antisymm howing.1 (hw.fits user _ v hv).principal
    rw [getDebtPosition_of_record (hrecord.trans hv), getDebtPosition_of_record hv,
      owedNow_of_no_principal hzero, owedNow_of_no_principal hzero]

/-! ## The repaid bucket -/

/-- The bucket a repayment that names none goes to, as it is read. -/
def repaidBucket (e : Env) (s : Storage) (user asset : Address) : DebtPosition :=
  bucketOf e s user asset (repayBucket e s user asset)

/-- The interest in a bucket, stored and pending. -/
def interestDue (e : Env) (s : Storage) (p : DebtPosition) : ℤ := p.interestAccrued + pending e s p

/-- The bucket that is repaid is read whatever asset it is asked for. -/
theorem Repaid.bucketOf_eq {r : RateType} (h : Repaid e s user asset amount r s')
    (hw : WellRecorded s) : getDebtPosition e s user none r = bucketOf e s user asset r := by
  have howing := h.owing
  rw [(hw.readings e user).bucketOf_eq] at howing ⊢
  unfold getDebtPosition at howing ⊢
  cases hrecord : debtRecord s r user with
  | some q => cases r <;> rfl
  | none =>
    rw [hrecord] at howing
    rcases r with _ | _
    · cases hlegacy : s.borrowUserDebt user with
      | none =>
        rw [hlegacy] at howing
        exact absurd ⟨rfl, rfl⟩ howing
      | some q => rfl
    · exact absurd ⟨rfl, rfl⟩ howing

theorem totalOwed_split (e : Env) (s : Storage) (user : Address) (r : RateType) :
    totalOwed e s user = owedNow e s (getDebtPosition e s user none r) +
      owedNow e s (getDebtPosition e s user none r.other) := by
  rcases r with _ | _
  · rfl
  · exact add_comm _ _

/-- **The repaid bucket after the repayment**: the interest is paid first, the rest is principal,
and no more than what is owed. -/
theorem Repaid.reads {r : RateType} (h : Repaid e s user asset amount r s')
    (hw : WellRecorded s) :
    let p := bucketOf e s user asset r
    let paid := max 0 (amount - interestDue e s p)
    getDebtPosition e s' user none r = ⟨p.borrowedAmount - paid,
        max 0 (interestDue e s p - amount), e.timestamp, asset, r, p.stableRateBps⟩ ∧
      getTotalDebt s' = getTotalDebt s - paid ∧ (0 < paid → paid ≤ p.borrowedAmount) := by
  obtain ⟨accrued, paid, t, hcalc, -, hpaid, hle, htotal, hd⟩ := h.debts
  obtain rfl := hw.rates.accrued_eq_pending hcalc
  have hrecord := hd.debtRecord r user
  rw [debtRecord_savedDebt, if_pos ⟨rfl, rfl⟩] at hrecord
  subst hpaid
  exact ⟨getDebtPosition_of_record hrecord none, htotal, hle⟩

/-- The interest that a repayment adds up is a 128-bit number. -/
theorem repay_interest (hw : WellRecorded s) {r : Unit}
    (h : Borrow.repay user asset amount e s = .ok r s') :
    I128.lo ≤ interestDue e s (repaidBucket e s user asset) := by
  have hadds : ∀ rate, Borrow.repayWithRate user asset amount rate e s = .ok r s' →
      I128.lo ≤ interestDue e s (bucketOf e s user asset rate) := by
    intro rate hr
    obtain ⟨-, -, -, a, t, _, _, _, _, hcalc, hholds, -⟩ := repayWithRate_steps hr
    obtain rfl := hw.rates.accrued_eq_pending hcalc
    exact hholds.1
  simp only [Borrow.repay, look_seq] at h
  rw [repaidBucket, repayBucket]
  split at h <;> rename_i howing
  · rw [if_pos howing]
    exact hadds .variable h
  · rw [if_neg howing]
    exact hadds .stable h

/-! ## A repayment settles what is paid -/

/-- What a repayment of `amount` does to the store: `p` is the repaid bucket before it, and `q` is
that bucket after it. -/
structure RepaidExactly (e : Env) (s : Storage) (user : Address) (amount : ℤ) (s' : Storage)
    (p q : DebtPosition) : Prop where
  total : totalOwed e s' user = totalOwed e s user - amount
  interestFirst : amount < interestDue e s p →
    q.interestAccrued = interestDue e s p - amount ∧ q.borrowedAmount = p.borrowedAmount
  thenPrincipal : interestDue e s p ≤ amount → q.interestAccrued = 0 ∧
    q.borrowedAmount = p.borrowedAmount - (amount - interestDue e s p)
  debt : getTotalDebt s' = getTotalDebt s - (p.borrowedAmount - q.borrowedAmount)
  cleared : amount = owedNow e s p →
    q.borrowedAmount = 0 ∧ q.interestAccrued = 0 ∧ owedNow e s' q = 0

/-- A payment that succeeds pays no more than the bucket owes. -/
theorem repay_settles_of_ok (hw : WellRecorded s) {r : Unit}
    (h : Borrow.repay user asset amount e s = .ok r s') :
    RepaidExactly e s user amount s' (repaidBucket e s user asset)
        (getDebtPosition e s' user none (repayBucket e s user asset)) ∧
      amount ≤ owedNow e s (repaidBucket e s user asset) := by
  have hr := repay_ok h
  have hlo := repay_interest hw h
  have hprincipal := (hw.readings e user (some asset) (repayBucket e s user asset)).principal
  rw [← (hw.readings e user).bucketOf_eq] at hprincipal
  have hsplit := totalOwed_split e s user (repayBucket e s user asset)
  have hsplit' := totalOwed_split e s' user (repayBucket e s user asset)
  rw [hr.owed_other hw] at hsplit'
  rw [hr.bucketOf_eq hw] at hsplit
  obtain ⟨hq, htotal, hle⟩ := hr.reads hw
  have hafter : owedNow e s' (getDebtPosition e s' user none (repayBucket e s user asset)) =
      (getDebtPosition e s' user none (repayBucket e s user asset)).borrowedAmount + max I128.lo
        (getDebtPosition e s' user none (repayBucket e s user asset)).interestAccrued := by
    rw [owedNow, pending_at_once (by rw [hq]), add_zero]
  have hbefore : owedNow e s (repaidBucket e s user asset) =
      (repaidBucket e s user asset).borrowedAmount +
        interestDue e s (repaidBucket e s user asset) := by
    rw [owedNow, ← interestDue, max_eq_right hlo]
  have hlo0 : I128.lo ≤ 0 := by decide
  rw [hq] at hafter hsplit' ⊢
  rw [← repaidBucket] at hsplit hq htotal hle hprincipal hafter hsplit' ⊢
  refine ⟨⟨?_, fun hlt => ⟨?_, ?_⟩, fun hge => ⟨?_, ?_⟩, ?_, fun hall => ⟨?_, ?_, ?_⟩⟩, ?_⟩
  all_goals
    dsimp only at *
    omega

theorem step_repay (h : step ⟨e, .repay user asset amount⟩ s = some s') :
    Borrow.repay user asset amount e s = .ok () s' := by
  simp only [step, Op.apply, commit_eq_some] at h
  obtain ⟨_, h⟩ := h
  simp [LendingContract.repay] at h
  exact h.2.2

/-- **In every reachable state, a repayment that succeeds lowers what the user owes by exactly what
is paid, interest first, and the total debt by the principal that is paid; and a payment of more
than the bucket owes is rejected.** -/
theorem repay_settles (txs : List Tx) (e : Env) (user asset : Address) (amount : ℤ) :
    (∀ s', step ⟨e, .repay user asset amount⟩ (ledger txs) = some s' →
      RepaidExactly e (ledger txs) user amount s' (repaidBucket e (ledger txs) user asset)
        (getDebtPosition e s' user none (repayBucket e (ledger txs) user asset))) ∧
    (owedNow e (ledger txs) (repaidBucket e (ledger txs) user asset) < amount →
      step ⟨e, .repay user asset amount⟩ (ledger txs) = none) := by
  have hw : WellRecorded (ledger txs) := Reachable.wellRecorded ⟨txs, rfl⟩
  refine ⟨fun s' hstep => (repay_settles_of_ok hw (step_repay hstep)).1, fun hmore => ?_⟩
  cases hstep : step ⟨e, .repay user asset amount⟩ (ledger txs) with
  | none => rfl
  | some s' => exact absurd (repay_settles_of_ok hw (step_repay hstep)).2 (not_le.mpr hmore)

namespace Sample

/-- A year on, 125 of what Alice pays are interest, and the rest is principal. -/
theorem repay_settles_indebted : ∃ s', step ⟨nextYear, .repay alice usdc 2125⟩ (ledger indebted) =
    some s' ∧ totalOwed nextYear s' alice = totalOwed nextYear (ledger indebted) alice - 2125 ∧
      getTotalDebt s' = 8000 := by
  have hpays : ((step ⟨nextYear, .repay alice usdc 2125⟩ (ledger indebted)).map getTotalDebt) =
      some 8000 := by decide
  obtain ⟨s', hstep, htotal⟩ := Option.map_eq_some_iff.mp hpays
  exact ⟨s', hstep, ((repay_settles indebted nextYear alice usdc 2125).1 s' hstep).total, htotal⟩

end Sample

end StellarLend.Lending
