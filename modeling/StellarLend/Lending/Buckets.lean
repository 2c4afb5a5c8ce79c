import StellarLend.Lending.Settlement

/-!
# Lending/Buckets — the two rate buckets and the legacy record beside them

Two facts about how the buckets are stored.  In every reachable state the legacy record is the one
`compatUserDebt` chooses (`Reachable.legacyFollows`).  And as long as nobody borrows at the stable
rate without a variable record (`StableAfterVariable`), a bucket is read as it is recorded: the
fallback to the legacy record never fires (`grounded_of_meets`).
-/

namespace StellarLend.Lending

open Foundations Call

variable {e : Env} {s t s' : Storage}

/-! ## The records of one user -/

/-- The stores hold the same debt records of a user. -/
structure SameRecords (s t : Storage) (u : Address) : Prop where
  variableDebt : t.borrowUserVariableDebt u = s.borrowUserVariableDebt u
  stableDebt : t.borrowUserStableDebt u = s.borrowUserStableDebt u
  legacyDebt : t.borrowUserDebt u = s.borrowUserDebt u

theorem SameDebts.records (h : SameDebts s t) (u : Address) : SameRecords s t u :=
  ⟨congrFun h.variableDebt u, congrFun h.stableDebt u, congrFun h.legacyDebt u⟩

theorem SameRecords.trans {u : Address} {w : Storage} (h : SameRecords s t u)
    (k : SameRecords t w u) : SameRecords s w u :=
  ⟨k.variableDebt.trans h.variableDebt, k.stableDebt.trans h.stableDebt,
    k.legacyDebt.trans h.legacyDebt⟩

/-- Equal records are read alike. -/
theorem SameRecords.getDebtPosition {u : Address} (h : SameRecords s t u) (d : Option Address)
    (r : RateType) : getDebtPosition e t u d r = getDebtPosition e s u d r := by
  rcases r with _ | _ <;>
    simp only [Lending.getDebtPosition, debtRecord, h.variableDebt, h.stableDebt, h.legacyDebt]

/-- The records of other users are not touched by a save. -/
theorem sameRecords_savedDebt (now : ℕ) {user u : Address} (p : DebtPosition) (hu : u ≠ user) :
    SameRecords s (savedDebt now user p s) u := by
  have hr := fun r => debtRecord_savedDebt now user p s r u
  refine ⟨?_, ?_, ?_⟩
  · exact (hr .variable).trans (if_neg fun h => hu h.1)
  · exact (hr .stable).trans (if_neg fun h => hu h.1)
  · rw [borrowUserDebt_savedDebt, if_neg hu]

/-! ## Acts save buckets -/

/-- The store after buckets of a user are saved one after the other. -/
def savedDebts (now : ℕ) (user : Address) (ps : List DebtPosition) (s : Storage) : Storage :=
  ps.foldl (fun s p => savedDebt now user p s) s

/-- An act leaves the debt records as they are, or saves buckets of its user. -/
theorem actStep_saves {a : Act} (h : actStep e a s = some s') :
    ∃ ps, SameDebts (savedDebts e.timestamp a.user ps s) s' := by
  have he := actStep_effect h
  rcases a with _ | _ | _ | _ | _ | _
  · obtain ⟨_, _, _, _, _, _, _, hd⟩ := he.debts
    exact ⟨[_], hd⟩
  · obtain ⟨_, _, _, _, _, _, _, _, hd⟩ := he.debts
    exact ⟨[_], hd⟩
  · obtain ⟨_, _, _, _, _, _, _, hd⟩ := he.debts
    exact ⟨[_, _], hd⟩
  · exact ⟨[], (CollateralAdded.debts he).1⟩
  · exact ⟨[], (VaultDeposited.debts he).1⟩
  · exact ⟨[], (VaultWithdrawn.debts he).1⟩

/-- **An act leaves the records of other users alone.** -/
theorem actStep_records_other {a : Act} {u : Address} (h : actStep e a s = some s')
    (hu : u ≠ a.user) : SameRecords s s' u := by
  obtain ⟨ps, hd⟩ := actStep_saves h
  have hfold : ∀ ps s, SameRecords s (savedDebts e.timestamp a.user ps s) u := by
    intro ps
    induction ps with
    | nil => exact fun s => ⟨rfl, rfl, rfl⟩
    | cons p ps ih => exact fun s => (sameRecords_savedDebt _ p hu).trans (ih _)
  exact (hfold ps s).trans (hd.records u)

/-- What every save of a bucket keeps, every act keeps. -/
theorem actStep_keeps_debts {I : Storage → Prop} {a : Act}
    (hsave : ∀ now user p s, I s → I (savedDebt now user p s))
    (hsame : ∀ s t, SameDebts s t → I s → I t) (h : actStep e a s = some s') (hs : I s) : I s' := by
  obtain ⟨ps, hd⟩ := actStep_saves h
  have hfold : ∀ ps s, I s → I (savedDebts e.timestamp a.user ps s) := by
    intro ps
    induction ps with
    | nil => exact fun _ hs => hs
    | cons p ps ih => exact fun s hs => ih _ (hsave _ _ p s hs)
  exact hsame _ _ hd (hfold ps s hs)

/-! ## The legacy record -/

/-- The user has a record in one of the buckets. -/
def HasRecord (s : Storage) (u : Address) : Prop :=
  s.borrowUserVariableDebt u ≠ none ∨ s.borrowUserStableDebt u ≠ none

/-- The legacy record of every user is the one chosen from the buckets, and absent where there are
none. -/
def LegacyFollows (s : Storage) : Prop :=
  ∀ u, HasRecord s u ∧ (∃ now, s.borrowUserDebt u = some (compatUserDebt s u now)) ∨
    ¬ HasRecord s u ∧ s.borrowUserDebt u = none

theorem compatUserDebt_congr {u : Address}
    (hv : t.borrowUserVariableDebt u = s.borrowUserVariableDebt u)
    (hs : t.borrowUserStableDebt u = s.borrowUserStableDebt u) (now : ℕ) :
    compatUserDebt t u now = compatUserDebt s u now := by
  simp only [compatUserDebt, hv, hs]

theorem hasRecord_savedDebt {now : ℕ} {user : Address} {p : DebtPosition} :
    HasRecord (savedDebt now user p s) user := by
  have hr := debtRecord_savedDebt_self now user p s
  rcases hp : p.rateType with _ | _ <;> rw [hp] at hr
  · exact .inl fun h => Option.some_ne_none p (hr.symm.trans h)
  · exact .inr fun h => Option.some_ne_none p (hr.symm.trans h)

theorem LegacyFollows.savedDebt (h : LegacyFollows s) (now : ℕ) (user : Address)
    (p : DebtPosition) : LegacyFollows (savedDebt now user p s) := by
  intro u
  by_cases hu : u = user
  · refine .inl ⟨hu ▸ hasRecord_savedDebt, now, ?_⟩
    rw [borrowUserDebt_savedDebt, if_pos hu, hu]
  · obtain ⟨hv, hst, hl⟩ := sameRecords_savedDebt (s := s) now p hu
    simp only [HasRecord, hv, hst, hl, compatUserDebt_congr hv hst]
    exact h u

theorem LegacyFollows.congr (hd : SameDebts s t) (h : LegacyFollows s) : LegacyFollows t := by
  intro u
  have hv := congrFun hd.variableDebt u
  have hst := congrFun hd.stableDebt u
  simp only [HasRecord, hv, hst, congrFun hd.legacyDebt u, compatUserDebt_congr hv hst]
  exact h u

theorem LegacyFollows.empty : LegacyFollows Storage.empty := by
  intro u
  exact .inr ⟨by simp [HasRecord, Storage.empty], rfl⟩

theorem LegacyFollows.act {a : Act} (h : LegacyFollows s) (ha : actStep e a s = some s') :
    LegacyFollows s' :=
  actStep_keeps_debts (fun now user p _ hs => hs.savedDebt now user p)
    (fun _ _ hd hs => hs.congr hd) ha h

theorem LegacyFollows.call {tx : Tx} (h : LegacyFollows s) (hstep : step tx s = some s') :
    LegacyFollows s' :=
  step_invariant (C := fun _ _ _ => True) (fun _ _ _ ha _ hs => hs.act ha)
    (fun _ _ hset hs => hs.congr hset.positions.debts) hstep
    (meets_of_forall fun _ _ _ => trivial) h

/-- **In every reachable state the legacy record follows the buckets.** -/
theorem Reachable.legacyFollows (h : Reachable s) : LegacyFollows s :=
  h.invariant .empty fun _ _ _ hstep hs => hs.call hstep

/-- Without a variable record, the legacy record is the stable one. -/
theorem LegacyFollows.legacy_eq_stable (h : LegacyFollows s) {u : Address}
    (hv : s.borrowUserVariableDebt u = none) : s.borrowUserDebt u = s.borrowUserStableDebt u := by
  obtain ⟨hr, now, hl⟩ | ⟨hr, hl⟩ := h u
  · have hst : s.borrowUserStableDebt u ≠ none := hr.resolve_left (not_not.mpr hv)
    obtain ⟨p, hp⟩ := Option.ne_none_iff_exists'.mp hst
    rw [hl, hp]
    simp [compatUserDebt, hv, hp]
  · rw [hl]
    simp only [HasRecord, not_or, not_not] at hr
    exact hr.2.symm

/-- A recorded bucket is read as recorded. -/
theorem getDebtPosition_of_record {u : Address} {r : RateType} {p : DebtPosition}
    (h : debtRecord s r u = some p) (d : Option Address) : getDebtPosition e s u d r = p := by
  rcases r with _ | _ <;> simp only [getDebtPosition, h]

/-- What a switch leaves in the buckets. -/
theorem Switched.readings {user asset : Address} {rate : RateType}
    (h : Switched e s user asset rate s') :
    (∃ accrued, getDebtPosition e s' user none rate =
      ⟨(bucketOf e s user asset rate.other).borrowedAmount,
        (bucketOf e s user asset rate.other).interestAccrued + accrued +
          ((bucketOf e s user asset rate.other).borrowedAmount *
            getRateSwitchFeeBps s).tdiv 10000, e.timestamp, asset, rate,
        (getDebtPosition e s' user none rate).stableRateBps⟩ ∧
      ∃ t, calculateInterest (bucketOf e s user asset rate.other) e s = .ok accrued t) ∧
    getDebtPosition e s' user none rate.other =
      ⟨0, 0, e.timestamp, (bucketOf e s user asset rate.other).asset, rate.other, 0⟩ := by
  obtain ⟨accrued, r, t, _, hcalc, _, _, hd⟩ := h.debts
  refine ⟨⟨accrued, ?_, t, hcalc⟩, ?_⟩
  · have hrec := hd.debtRecord rate user
    rw [debtRecord_savedDebt, if_pos ⟨rfl, rfl⟩] at hrec
    rw [getDebtPosition_of_record hrec]
  · have hrec := hd.debtRecord rate.other user
    rw [debtRecord_savedDebt, if_neg fun hc => rate.ne_other hc.2.symm, debtRecord_savedDebt,
      if_pos ⟨rfl, rfl⟩] at hrec
    rw [getDebtPosition_of_record hrec]

/-- **Without a variable record, the variable bucket reads as the stable one.** -/
theorem LegacyFollows.variable_reads_stable (h : LegacyFollows s) {u : Address}
    (hv : s.borrowUserVariableDebt u = none) (d d' : Option Address) :
    (getDebtPosition e s u d .variable).borrowedAmount =
        (getDebtPosition e s u d' .stable).borrowedAmount ∧
      (getDebtPosition e s u d .variable).interestAccrued =
        (getDebtPosition e s u d' .stable).interestAccrued := by
  have hl := h.legacy_eq_stable hv
  rcases hst : s.borrowUserStableDebt u with _ | p <;>
    simp [getDebtPosition, debtRecord, hv, hl, hst, emptyPosition]

/-! ## Buckets read as recorded -/

/-- The user has a variable record, or no debt record at all. -/
def Grounded (s : Storage) (u : Address) : Prop :=
  s.borrowUserVariableDebt u = none → s.borrowUserStableDebt u = none ∧ s.borrowUserDebt u = none

variable {u : Address}

theorem Grounded.empty (u : Address) : Grounded Storage.empty u := fun _ => ⟨rfl, rfl⟩

/-- **Grounded buckets are read as recorded**: without a record, as empty. -/
theorem Grounded.getDebtPosition (h : Grounded s u) (d : Option Address) (r : RateType) :
    getDebtPosition e s u d r =
      (debtRecord s r u).getD (emptyPosition e.timestamp (d.getD u) r) := by
  unfold Lending.getDebtPosition
  rcases r with _ | _
  · cases hv : s.borrowUserVariableDebt u with
    | none => simp [debtRecord, hv, (h hv).2]
    | some p => simp [debtRecord, hv]
  · cases hst : s.borrowUserStableDebt u <;> simp [debtRecord, hst]

/-- Groundedness depends on the user's own records. -/
theorem Grounded.of_records (h : Grounded s u) (hd : SameRecords s t u) : Grounded t u := by
  intro hv
  rw [hd.variableDebt] at hv
  rw [hd.stableDebt, hd.legacyDebt]
  exact h hv

theorem Grounded.congr (hd : SameDebts s t) (h : Grounded s u) : Grounded t u :=
  h.of_records (hd.records u)

/-- A save leaves its user's buckets grounded if it is of the variable bucket, or the user has a
record there. -/
theorem grounded_savedDebt {now : ℕ} {p : DebtPosition}
    (hp : p.rateType = .stable → s.borrowUserVariableDebt u ≠ none) :
    Grounded (savedDebt now u p s) u := by
  intro hv
  have hr : debtRecord (savedDebt now u p s) .variable u = none := hv
  rw [debtRecord_savedDebt] at hr
  rcases hpr : p.rateType with _ | _
  · rw [if_pos ⟨rfl, hpr.symm⟩] at hr
    cases hr
  · rw [if_neg (by simp [hpr])] at hr
    exact absurd hr (hp hpr)

/-- **A save of a grounded bucket is read back from that bucket, and no other.** -/
theorem Grounded.reading_savedDebt (h : Grounded s u) (now : ℕ) {p : DebtPosition}
    (hp : p.rateType = .stable → s.borrowUserVariableDebt u ≠ none) (d : Option Address)
    (r : RateType) :
    Lending.getDebtPosition e (savedDebt now u p s) u d r =
      if r = p.rateType then p else Lending.getDebtPosition e s u d r := by
  rw [(grounded_savedDebt hp).getDebtPosition, debtRecord_savedDebt, h.getDebtPosition]
  by_cases hr : r = p.rateType
  · rw [if_pos ⟨rfl, hr⟩, if_pos hr, Option.getD_some]
  · rw [if_neg fun hc => hr hc.2, if_neg hr]

/-- The amounts read from a grounded bucket depend on nothing but its record. -/
theorem Grounded.bucketOf_amounts (h : Grounded s u) (e e' : Env) (asset : Address)
    (r : RateType) :
    (bucketOf e' s u asset r).borrowedAmount =
        (Lending.getDebtPosition e s u none r).borrowedAmount ∧
      (bucketOf e' s u asset r).interestAccrued =
        (Lending.getDebtPosition e s u none r).interestAccrued := by
  rw [bucketOf, h.getDebtPosition, h.getDebtPosition]
  cases debtRecord s r u <;> exact ⟨rfl, rfl⟩

/-- A grounded bucket that owes anything has a record. -/
theorem Grounded.recorded_of_owing (h : Grounded s u) {asset : Address} {r : RateType}
    (ho : ¬ ((bucketOf e s u asset r).borrowedAmount = 0 ∧
      (bucketOf e s u asset r).interestAccrued = 0)) : debtRecord s r u ≠ none := by
  intro hr
  rw [bucketOf, h.getDebtPosition, hr] at ho
  exact ho ⟨rfl, rfl⟩

/-- A user with a record in any bucket has a variable one. -/
theorem Grounded.variable_of_record (h : Grounded s u) {r : RateType}
    (hr : debtRecord s r u ≠ none) : s.borrowUserVariableDebt u ≠ none := by
  rcases r with _ | _
  · exact hr
  · exact fun hv => hr (h hv).1

/-- A save removes no record. -/
theorem recorded_savedDebt {now : ℕ} {user : Address} {p : DebtPosition} {r : RateType}
    (h : debtRecord s r u ≠ none) : debtRecord (savedDebt now user p s) r u ≠ none := by
  rw [debtRecord_savedDebt]
  split
  · exact Option.some_ne_none p
  · exact h

/-! ## Runs in which stable borrows come after variable ones -/

/-- If the act is a stable borrow of the user, then the user has a variable record. -/
def VariableFirst (u : Address) (_ : Env) (s : Storage) (a : Act) : Prop :=
  match a with
  | .borrow user _ _ _ _ .stable => user = u → s.borrowUserVariableDebt u ≠ none
  | _ => True

/-- **An act keeps a user's buckets grounded**, unless it is the user's stable borrow without a
variable record. -/
theorem Grounded.act {a : Act} (h : Grounded s u) (hC : VariableFirst u e s a)
    (ha : actStep e a s = some s') : Grounded s' u := by
  by_cases hu : u = a.user
  · subst hu
    have he := actStep_effect ha
    rcases a with ⟨user, asset, amount, casset, camount, rate⟩ | _ | _ | _ | _ | _
    · obtain ⟨_, _, _, _, _, _, _, hd⟩ := he.debts
      refine (grounded_savedDebt ?_).congr hd
      rintro rfl
      exact hC rfl
    · obtain ⟨_, _, _, _, _, _, _, _, hd⟩ := he.debts
      exact (grounded_savedDebt fun _ =>
        h.variable_of_record (h.recorded_of_owing he.owing)).congr hd
    · obtain ⟨_, _, _, _, _, _, _, hd⟩ := he.debts
      have hvar := h.variable_of_record (h.recorded_of_owing he.owing)
      exact (grounded_savedDebt fun _ => recorded_savedDebt (r := .variable) hvar).congr hd
    · exact h.congr (CollateralAdded.debts he).1
    · exact h.congr (VaultDeposited.debts he).1
    · exact h.congr (VaultWithdrawn.debts he).1
  · exact h.of_records (actStep_records_other ha hu)

/-- If the call is a stable borrow of the user, then the user has a variable record. -/
def StableAfterVariable (u : Address) (s : Storage) (tx : Tx) : Prop :=
  match tx.op with
  | .borrowWithRate user _ _ _ _ .stable => user = u → s.borrowUserVariableDebt u ≠ none
  | _ => True

theorem StableAfterVariable.eachAct {tx : Tx} (h : StableAfterVariable u s tx) :
    EachAct (VariableFirst u) s tx := by
  by_cases hop : ∃ user asset amount casset camount,
      tx.op = .borrowWithRate user asset amount casset camount .stable
  · obtain ⟨user, asset, amount, casset, camount, hop⟩ := hop
    simp only [StableAfterVariable, hop] at h
    simp only [EachAct, hop]
    exact ⟨fun _ => h, trivial⟩
  · refine meets_of_forall fun a ha t => ?_
    unfold VariableFirst
    split
    · exact absurd ⟨_, _, _, _, _, Op.mem_acts_stable ha⟩ hop
    · trivial

theorem Grounded.call {tx : Tx} (hC : StableAfterVariable u s tx) (hstep : step tx s = some s')
    (h : Grounded s u) : Grounded s' u :=
  step_invariant (I := (Grounded · u)) (fun _ _ _ ha hca hs => hs.act hca ha)
    (fun _ _ hset hs => hs.congr hset.positions.debts) hstep hC.eachAct h

/-- **In a run whose stable borrows by a user are made with a variable record, the user's buckets
are read as recorded.** -/
theorem grounded_of_meets {txs : List Tx}
    (h : Meets step (StableAfterVariable u) Storage.empty txs) : Grounded (ledger txs) u :=
  h.invariant (I := (Grounded · u)) (fun _ _ _ hstep hC hs => hs.call hC hstep) (.empty u)

end StellarLend.Lending
