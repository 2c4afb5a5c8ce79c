import StellarLend.Lending.Authority

/-!
# Lending/Denomination — the assets that amounts are recorded in

A debt bucket and a collateral record are an amount and one asset.  A borrow writes the assets it
names over both, and a switch of the rate type the asset it names over the debt it moves; a
repayment and an addition of collateral check instead.  `assets_kept_iff` says when every amount of
a run stays in its asset: exactly when each borrow and each switch names the assets on record.
-/

namespace StellarLend.Lending

open Foundations Call

variable {e : Env} {s s' : Storage} {u : Address}

/-! ## Nonzero buckets -/

/-- Principal or interest is recorded. -/
def DebtPosition.Nonzero (p : DebtPosition) : Prop :=
  ¬ (p.borrowedAmount = 0 ∧ p.interestAccrued = 0)

/-- A bucket that is not zero is read the same with any default asset. -/
theorem getDebtPosition_of_nonzero {d : Option Address} {r : RateType}
    (h : (getDebtPosition e s u d r).Nonzero) (d' : Option Address) :
    getDebtPosition e s u d' r = getDebtPosition e s u d r := by
  cases hp : debtRecord s r u with
  | some p => rw [getDebtPosition_of_record hp, getDebtPosition_of_record hp]
  | none =>
    rcases r with _ | _
    · cases hl : s.borrowUserDebt u with
      | some l => simp only [getDebtPosition, hp, hl]
      | none =>
        simp only [getDebtPosition, hp, hl] at h
        exact absurd ⟨rfl, rfl⟩ h
    · simp only [getDebtPosition, hp] at h
      exact absurd ⟨rfl, rfl⟩ h

/-- The bucket an operation starts from, where it is not zero, is the bucket as read. -/
theorem bucketOf_nonzero {asset : Address} {r : RateType} :
    (bucketOf e s u asset r).Nonzero ↔ (getDebtPosition e s u none r).Nonzero := by
  have hread : (bucketOf e s u asset r).Nonzero ↔ (getDebtPosition e s u (some asset) r).Nonzero :=
    Iff.rfl
  rw [hread]
  refine ⟨fun h => ?_, fun h => ?_⟩
  · rw [getDebtPosition_of_nonzero h none]
    exact h
  · rw [getDebtPosition_of_nonzero h (some asset)]
    exact h

theorem bucketOf_asset (asset : Address) {r : RateType}
    (h : (getDebtPosition e s u none r).Nonzero) :
    (bucketOf e s u asset r).asset = (getDebtPosition e s u none r).asset := by
  rw [bucketOf, getDebtPosition_of_nonzero h (some asset)]

/-! ## Keeping the assets -/

/-- What is recorded stays in its asset, and a user comes to owe an asset only by borrowing it. -/
structure AssetsKept (e : Env) (s : Storage) (a : Act) (s' : Storage) : Prop where
  debt : ∀ u r, (getDebtPosition e s u none r).Nonzero →
    (getDebtPosition e s' u none r).asset = (getDebtPosition e s u none r).asset
  collateral : ∀ u, 0 < (getCollateralPosition s u).amount →
    (getCollateralPosition s' u).asset = (getCollateralPosition s u).asset
  owed : ∀ u r, (getDebtPosition e s' u none r).Nonzero →
    (∃ r₀, (getDebtPosition e s u none r₀).Nonzero ∧
      (getDebtPosition e s u none r₀).asset = (getDebtPosition e s' u none r).asset) ∨
    ∃ amount casset camount rate,
      a = .borrow u (getDebtPosition e s' u none r).asset amount casset camount rate

/-- The act keeps the assets if it succeeds. -/
def KeepsAssets (e : Env) (s : Storage) (a : Act) : Prop :=
  ∀ s', actStep e a s = some s' → AssetsKept e s a s'

/-- A borrow names the asset of the debt it adds to and of the collateral it adds to, and a switch
of the rate type the asset of the debt it moves. -/
def NamesAssets (e : Env) (s : Storage) (a : Act) : Prop :=
  match a with
  | .borrow user asset _ casset _ rate =>
    ((getDebtPosition e s user none rate).Nonzero →
        (getDebtPosition e s user none rate).asset = asset) ∧
      (0 < (getCollateralPosition s user).amount → (getCollateralPosition s user).asset = casset)
  | .switchRateType user asset rate => (getDebtPosition e s user none rate.other).asset = asset
  | _ => True

/-! ## One bucket is saved -/

/-- **A save in the asset of its bucket keeps the debts of its user in their assets.**  The variable
bucket may be read from the legacy record, which a save of the stable one rewrites. -/
theorem debt_kept_of_save (hl : LegacyFollows s) {now : ℕ} {p : DebtPosition}
    (hd : SameDebts (savedDebt now u p s) s')
    (hp : (getDebtPosition e s u none p.rateType).Nonzero →
      (getDebtPosition e s u none p.rateType).asset = p.asset) {r : RateType} :
    ((getDebtPosition e s u none r).Nonzero →
      (getDebtPosition e s' u none r).asset = (getDebtPosition e s u none r).asset) ∧
    ((getDebtPosition e s' u none r).asset = p.asset ∨
      getDebtPosition e s' u none r = getDebtPosition e s u none r) := by
  have hrec := hd.debtRecord r u
  rw [debtRecord_savedDebt] at hrec
  by_cases hr : r = p.rateType
  · rw [if_pos ⟨rfl, hr⟩] at hrec
    rw [getDebtPosition_of_record hrec]
    exact ⟨fun h => by rw [hr] at h ⊢; exact (hp h).symm, .inl rfl⟩
  · rw [if_neg fun hc => hr hc.2] at hrec
    cases hq : debtRecord s r u with
    | some q =>
      rw [hq] at hrec
      rw [getDebtPosition_of_record hrec, getDebtPosition_of_record hq]
      exact ⟨fun _ => rfl, .inr rfl⟩
    | none =>
      rw [hq] at hrec
      rcases r with _ | _
      · -- the variable bucket is read from the legacy record, that is from the stable one
        have hstable : p.rateType = .stable := by
          rcases hpr : p.rateType with _ | _
          · exact absurd hpr.symm hr
          · rfl
        have hafter : s'.borrowUserDebt u = some p := by
          rw [((hl.savedDebt now u p).congr hd).legacy_eq_stable hrec]
          have hs' := hd.debtRecord .stable u
          rw [debtRecord_savedDebt, if_pos ⟨rfl, hstable.symm⟩] at hs'
          exact hs'
        have hread : (getDebtPosition e s' u none .variable).asset = p.asset := by
          simp only [getDebtPosition, hrec, hafter]
        refine ⟨fun h => ?_, .inl hread⟩
        have hbefore := hl.legacy_eq_stable hq
        cases hst : s.borrowUserStableDebt u with
        | none =>
          rw [hst] at hbefore
          simp only [getDebtPosition, hq, hbefore] at h
          exact absurd ⟨rfl, rfl⟩ h
        | some q =>
          rw [hst] at hbefore
          rw [hstable, getDebtPosition_of_record (r := .stable) hst] at hp
          simp only [getDebtPosition, hq, hbefore] at h ⊢
          simp only [hrec, hafter]
          exact (hp h).symm
      · simp only [getDebtPosition, hq, hrec]
        exact ⟨fun _ => trivial, .inr trivial⟩

/-! ## Acts -/

/-- An act keeps the assets of the records of users other than its own. -/
theorem AssetsKept.of_own {a : Act} (ha : actStep e a s = some s') (hu : a.user = u)
    (hdebt : ∀ r, (getDebtPosition e s u none r).Nonzero →
      (getDebtPosition e s' u none r).asset = (getDebtPosition e s u none r).asset)
    (hcollateral : 0 < (getCollateralPosition s u).amount →
      (getCollateralPosition s' u).asset = (getCollateralPosition s u).asset)
    (howed : ∀ r, (getDebtPosition e s' u none r).Nonzero →
      (∃ r₀, (getDebtPosition e s u none r₀).Nonzero ∧
        (getDebtPosition e s u none r₀).asset = (getDebtPosition e s' u none r).asset) ∨
      ∃ amount casset camount rate,
        a = .borrow u (getDebtPosition e s' u none r).asset amount casset camount rate) :
    AssetsKept e s a s' := by
  refine ⟨fun v r h => ?_, fun v h => ?_, fun v r h => ?_⟩ <;> by_cases hv : a.user = v
  · obtain rfl := hu.symm.trans hv
    exact hdebt r h
  · rw [(actStep_other ha hv).debts.getDebtPosition]
  · obtain rfl := hu.symm.trans hv
    exact hcollateral h
  · rw [getCollateralPosition, (actStep_other ha hv).collateral, getCollateralPosition]
  · obtain rfl := hu.symm.trans hv
    exact howed r h
  · rw [(actStep_other ha hv).debts.getDebtPosition] at h ⊢
    exact .inl ⟨r, h, rfl⟩

/-- An act that touches no debt record keeps the debts in their assets. -/
theorem AssetsKept.of_sameDebts {a : Act} (ha : actStep e a s = some s') (hu : a.user = u)
    (hd : SameDebts s s') (hcollateral : 0 < (getCollateralPosition s u).amount →
      (getCollateralPosition s' u).asset = (getCollateralPosition s u).asset) :
    AssetsKept e s a s' := by
  refine .of_own ha hu (fun r _ => ?_) hcollateral fun r h => ?_
  · rw [hd.getDebtPosition]
  · rw [hd.getDebtPosition] at h ⊢
    exact .inl ⟨r, h, rfl⟩

/-- **An act that names the assets on record keeps them.** -/
theorem AssetsKept.of_names {a : Act} (hl : LegacyFollows s) (hC : NamesAssets e s a)
    (ha : actStep e a s = some s') : AssetsKept e s a s' := by
  have he := actStep_effect ha
  rcases a with ⟨user, asset, amount, casset, camount, rate⟩ | ⟨user, asset, amount, rate⟩ |
    ⟨user, asset, rate⟩ | ⟨user, asset, amount⟩ | ⟨user, asset, amount⟩ | ⟨user, asset, amount⟩
  · obtain ⟨hdebt, hcollateral⟩ := hC
    obtain ⟨_, _, _, _, _, _, _, hd⟩ := he.debts
    have hkept := fun r => debt_kept_of_save (e := e) (r := r) hl hd hdebt
    refine .of_own (u := user) ha rfl (fun r => (hkept r).1) (fun h => ?_) fun r h => ?_
    · rw [getCollateralPosition_of_update he.collateral, if_pos rfl]
      exact (hcollateral h).symm
    · obtain hasset | hsame := (hkept r).2
      · rw [hasset]
        exact .inr ⟨amount, casset, camount, rate, rfl⟩
      · rw [hsame] at h ⊢
        exact .inl ⟨r, h, rfl⟩
  · have howing :
        (getDebtPosition e s user none (rate.getD (repayBucket e s user asset))).Nonzero :=
      bucketOf_nonzero.mp he.owing
    have hasset := (bucketOf_asset asset howing).symm.trans he.asset_eq
    obtain ⟨_, _, _, _, _, _, _, _, hd⟩ := he.debts
    have hkept := fun r => debt_kept_of_save (e := e) (r := r) hl hd fun _ => hasset
    refine .of_own (u := user) ha rfl (fun r => (hkept r).1) (fun _ => ?_) fun r h => ?_
    · rw [getCollateralPosition_congr he.collateral]
    · obtain hafter | hsame := (hkept r).2
      · exact .inl ⟨_, howing, hasset.trans hafter.symm⟩
      · rw [hsame] at h ⊢
        exact .inl ⟨r, h, rfl⟩
  · have howing : (getDebtPosition e s user none rate.other).Nonzero := bucketOf_nonzero.mp he.owing
    have hsource := bucketOf_asset asset howing
    obtain ⟨⟨_, htarget, -⟩, hcleared⟩ := Switched.readings he
    have hcases : ∀ r, r = rate ∨ r = rate.other := by
      intro r
      rcases r with _ | _ <;> rcases rate with _ | _ <;> simp [RateType.other]
    refine .of_own (u := user) ha rfl (fun r h => ?_) (fun _ => ?_) fun r h => ?_
    · obtain rfl | rfl := hcases r
      · exact absurd he.targetEmpty (bucketOf_nonzero.mpr h)
      · rw [hcleared]
        exact hsource
    · rw [getCollateralPosition_congr he.collateral]
    · obtain rfl | rfl := hcases r
      · rw [htarget]
        exact .inl ⟨_, howing, hC⟩
      · rw [hcleared] at h
        exact absurd ⟨rfl, rfl⟩ h
  · refine .of_sameDebts (u := user) ha rfl (CollateralAdded.debts he).1 fun h => ?_
    have hread := getCollateralPosition_of_update
      (congrArg Storage.borrowUserCollateral he.store) user
    rw [if_pos rfl] at hread
    rw [hread]
    exact (he.asset_eq (ne_of_gt h)).symm
  · refine .of_sameDebts (u := user) ha rfl (VaultDeposited.debts he).1 fun _ => ?_
    rw [he.store]
    rfl
  · refine .of_sameDebts (u := user) ha rfl (VaultWithdrawn.debts he).1 fun _ => ?_
    obtain ⟨_, hs'⟩ := he.store
    rw [hs']
    rfl

/-- **An act that keeps the assets has named those on record.** -/
theorem AssetsKept.names {a : Act} (h : AssetsKept e s a s') (ha : actStep e a s = some s') :
    NamesAssets e s a := by
  have he := actStep_effect ha
  rcases a with ⟨user, asset, amount, casset, camount, rate⟩ | _ | ⟨user, asset, rate⟩ | _ | _ | _
  · obtain ⟨_, _, _, _, _, _, _, hd⟩ := he.debts
    refine ⟨fun hdebt => ?_, fun hcollateral => ?_⟩
    · have hrec := hd.debtRecord rate user
      rw [debtRecord_savedDebt, if_pos ⟨rfl, rfl⟩] at hrec
      rw [← h.debt user rate hdebt, getDebtPosition_of_record hrec]
    · rw [← h.collateral user hcollateral, getCollateralPosition_of_update he.collateral,
        if_pos rfl]
  · trivial
  · obtain ⟨⟨accrued, htarget, t, hcalc⟩, -⟩ := Switched.readings he
    have hmoved : (getDebtPosition e s' user none rate).Nonzero := by
      rintro ⟨hprincipal, hinterest⟩
      rw [htarget] at hprincipal hinterest
      simp only at hprincipal hinterest
      have haccrued : accrued = 0 := by
        have hint := (calculateInterest_ok hcalc).1
        rw [interestOf, if_pos hprincipal] at hint
        cases hint
        rfl
      rw [hprincipal, haccrued] at hinterest
      exact he.owing ⟨hprincipal, by simpa using hinterest⟩
    obtain ⟨r₀, howing, hasset⟩ | ⟨_, _, _, _, hc⟩ := h.owed user rate hmoved
    · have hsource : r₀ = rate.other := by
        by_contra hne
        obtain rfl : r₀ = rate := by
          rcases r₀ with _ | _ <;> rcases rate with _ | _ <;> first | rfl | exact absurd rfl hne
        exact absurd he.targetEmpty (bucketOf_nonzero.mpr howing)
      rw [hsource, htarget] at hasset
      exact hasset
    · cases hc
  · trivial
  · trivial
  · trivial

/-! ## Runs -/

/-- Every operation of the call keeps the assets, and the rest of the call touches no position. -/
structure CallKeepsAssets (s : Storage) (tx : Tx) : Prop where
  acts : EachAct KeepsAssets s tx
  rest : ∀ s', step tx s = some s' → ∃ t,
    chain (actStep tx.env) (tx.op.start s) (tx.op.acts s) = some t ∧
      SamePositions s (tx.op.start s) ∧ SamePositions t s'

theorem callKeepsAssets_iff {tx : Tx} : CallKeepsAssets s tx ↔ EachAct KeepsAssets s tx := by
  refine ⟨CallKeepsAssets.acts, fun h => ⟨h, fun s' hstep => ?_⟩⟩
  obtain ⟨t, hchain, hset⟩ := step_acts hstep
  exact ⟨t, hchain, (start_settles _ s).positions, hset.positions⟩

/-- **Every amount on record stays in its asset exactly when each borrow and each switch of the rate
type names the assets on record.** -/
theorem assets_kept_iff {txs : List Tx} :
    Meets step CallKeepsAssets Storage.empty txs ↔
      Meets step (EachAct NamesAssets) Storage.empty txs := by
  refine meets_congr (I := LegacyFollows) (fun _ _ _ hstep hs => hs.call hstep)
    (fun s tx hs _ => ?_) .empty
  rw [callKeepsAssets_iff]
  refine meets_congr (I := LegacyFollows) (fun _ _ _ ha hs => hs.act ha) (fun s a hs ha => ?_)
    (hs.congr (start_settles _ s).positions.debts)
  obtain ⟨s', hs'⟩ := Option.isSome_iff_exists.mp ha
  refine ⟨fun h => (h s' hs').names hs', fun h s'' hs'' => .of_names hs h hs''⟩

namespace Sample

/-- Alice borrows one asset against another, and then the second against the first. -/
def mixedAssets : List Tx :=
  [deploy, ⟨envAt 5 [alice], .borrow alice usdc 1000 xlm 1500⟩,
    ⟨envAt 5 [alice], .borrow alice xlm 1000 usdc 1500⟩]

end Sample

/-- A debt of 1000 in one asset becomes a debt of 2000 in another. -/
theorem assets_mixed : ¬ Meets step CallKeepsAssets Storage.empty Sample.mixedAssets := by
  intro h
  have hrun : ((actStep (Sample.envAt 5 [Sample.alice])
      (.borrow Sample.alice Sample.xlm 1000 Sample.usdc 1500 .variable)
      (ledger (Sample.mixedAssets.take 2))).map fun s' =>
        getDebtPosition (Sample.envAt 5 [Sample.alice]) s' Sample.alice none .variable) =
      some ⟨2000, 0, 5, Sample.xlm, .variable, 0⟩ := by decide
  have hbefore : getDebtPosition (Sample.envAt 5 [Sample.alice])
      (ledger (Sample.mixedAssets.take 2)) Sample.alice none .variable =
        ⟨1000, 0, 5, Sample.usdc, .variable, 0⟩ := by decide
  obtain ⟨s', ha, hafter⟩ := Option.map_eq_some_iff.mp hrun
  have hkeeps := (h.2.2.1 (by decide)).acts.1 (by decide)
  have hasset := (hkeeps s' ha).debt Sample.alice .variable fun hzero => by
    have hprincipal := hzero.1.symm.trans (congrArg DebtPosition.borrowedAmount hbefore)
    exact absurd hprincipal (by decide)
  have hboth := (congrArg DebtPosition.asset hafter).symm.trans
    (hasset.trans (congrArg DebtPosition.asset hbefore))
  exact absurd hboth (by decide)

end StellarLend.Lending
