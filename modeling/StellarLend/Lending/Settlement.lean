import StellarLend.Foundations.IndexedMap
import StellarLend.Lending.Paths

/-!
# Lending/Settlement — calls of the contract as sequences of acts

**The theorem of the module is `step_acts`**: a successful call performs the acts `Op.acts` lists,
one after the other, and what else it does (`Settles`) leaves every position alone.  A property of
positions is therefore proved once per act and carried to calls by `step_invariant`, under a
condition on each act where it needs one (`EachAct`).
-/

namespace StellarLend.Lending

open Foundations Call

variable {e : Env} {s t s' : Storage} {op : Op}

/-! ## What a call does besides its acts -/

/-- The stores hold the same positions. -/
structure SamePositions (s t : Storage) : Prop where
  debts : SameDebts s t
  collateral : t.borrowUserCollateral = s.borrowUserCollateral
  total : t.borrowTotalDebt = s.borrowTotalDebt
  vault : t.userCollateral = s.userCollateral

/-- The stores agree outside the keys that only guard or configure operations. -/
def Quiet (s t : Storage) : Prop :=
  t = { s with
    protocolAdmin := t.protocolAdmin
    borrowDebtCeiling := t.borrowDebtCeiling
    borrowMinAmount := t.borrowMinAmount
    oracleAddress := t.oracleAddress
    liquidationThresholdBps := t.liquidationThresholdBps
    capAmount := t.capAmount
    minAmount := t.minAmount
    withdrawPaused := t.withdrawPaused
    minWithdrawAmount := t.minWithdrawAmount
    pauseState := t.pauseState
    delegationRegistry := t.delegationRegistry
    riskAlertThresholds := t.riskAlertThresholds
    lastEmittedTier := t.lastEmittedTier
    flashLoanFeeBps := t.flashLoanFeeBps }

/-- The call sets no negative stability fee. -/
def Op.FeeNonneg : Op → Prop
  | .setStablecoinConfig _ _ config => 0 ≤ config.stabilityFeeBps
  | _ => True

/-- The call is one that books or recovers bad debt. -/
def Op.MovesBadDebt : Op → Prop
  | .addBadDebt .. => True
  | .liquidate .. => True
  | .recoverBadDebt .. => True
  | _ => False

/-- The call is one that creates, cancels or executes a commitment. -/
def Op.MovesCommitments : Op → Prop
  | .createBorrowCommitment .. => True
  | .cancelBorrowCommitment .. => True
  | .executeBorrowCommitment .. => True
  | _ => False

/-- What a call does besides its acts. -/
structure Settles (op : Op) (s t : Storage) : Prop where
  positions : SamePositions s t
  rates : RatesValid s → RatesValid t
  fees : op.FeeNonneg → FeesNonneg s → FeesNonneg t
  closeFactor : t.closeFactorBps = s.closeFactorBps
  badDebt : ¬ op.MovesBadDebt → t.badDebtTotal = s.badDebtTotal ∧ t.badDebtUser = s.badDebtUser ∧
    t.protocolReserves = s.protocolReserves
  commitments : ¬ op.MovesCommitments → t.commitment = s.commitment
  dormant : s.stableRateState = none → t.stableRateState = none

theorem Quiet.settles (h : Quiet s t) : Settles op s t := by
  rw [Quiet] at h
  rw [h]
  exact ⟨⟨⟨rfl, rfl, rfl⟩, rfl, rfl, rfl⟩, fun hv => ⟨hv.config, hv.average, hv.premium,
    hv.switchFee⟩, fun _ => id, rfl, fun _ => ⟨rfl, rfl, rfl⟩,
    fun _ => rfl, id⟩

theorem RefreshesRate.settles (h : RefreshesRate s t) : Settles op s t := by
  refine ⟨?_, h.rates, ?_, ?_, ?_, ?_, h.dormant⟩ <;> obtain ⟨_, rfl⟩ := h.store
  · exact ⟨⟨rfl, rfl, rfl⟩, rfl, rfl, rfl⟩
  · exact fun _ => id
  · rfl
  · exact fun _ => ⟨rfl, rfl, rfl⟩
  · exact fun _ => rfl

theorem SamePositions.trans {u : Storage} (h : SamePositions s t) (k : SamePositions t u) :
    SamePositions s u where
  debts := ⟨k.debts.variableDebt.trans h.debts.variableDebt,
    k.debts.stableDebt.trans h.debts.stableDebt, k.debts.legacyDebt.trans h.debts.legacyDebt⟩
  collateral := k.collateral.trans h.collateral
  total := k.total.trans h.total
  vault := k.vault.trans h.vault

theorem Settles.trans {u : Storage} (h : Settles op s t) (k : Settles op t u) :
    Settles op s u where
  positions := h.positions.trans k.positions
  rates := k.rates ∘ h.rates
  fees hop := k.fees hop ∘ h.fees hop
  closeFactor := k.closeFactor.trans h.closeFactor
  badDebt hop := by
    obtain ⟨ht, hu, hr⟩ := h.badDebt hop
    obtain ⟨kt, ku, kr⟩ := k.badDebt hop
    exact ⟨kt.trans ht, ku.trans hu, kr.trans hr⟩
  commitments hop := (k.commitments hop).trans (h.commitments hop)
  dormant := k.dormant ∘ h.dormant

theorem Settles.refl (op : Op) (s : Storage) : Settles op s s := (RefreshesRate.refl s).settles

/-! ## Bad debt -/

theorem booked_settles (hop : op.MovesBadDebt) (user : Address) (amount : ℤ) (s : Storage) :
    Settles op s (booked user amount s) :=
  ⟨⟨⟨rfl, rfl, rfl⟩, rfl, rfl, rfl⟩, fun hv => ⟨hv.config, hv.average, hv.premium, hv.switchFee⟩,
    fun _ => id, rfl, fun h => absurd hop h, fun _ => rfl, id⟩

theorem Liquidated.settles {liquidator borrower : Address} {amount : ℤ} (hop : op.MovesBadDebt)
    (h : Liquidated e s liquidator borrower amount s') :
    Settles op s s' := by
  obtain ⟨dv, _, u, _, _, _, hu, ⟨_, rfl⟩ | ⟨_, rfl⟩⟩ := h.store
  · exact hu.settles.trans (booked_settles hop borrower (dv - amount) u)
  · exact hu.settles

theorem recoverBadDebt_settles {admin : Address} {amount : ℤ} {r : Unit} (hop : op.MovesBadDebt)
    (h : LendingContract.recoverBadDebt admin amount e s = .ok r s') : Settles op s s' := by
  obtain ⟨-, -, -, rfl⟩ := recoverBadDebt_ok h
  exact ⟨⟨⟨rfl, rfl, rfl⟩, rfl, rfl, rfl⟩,
    fun hv => ⟨hv.config, hv.average, hv.premium, hv.switchFee⟩, fun _ => id, rfl,
    fun hn => absurd hop hn, fun _ => rfl, id⟩

/-! ## Commitments -/

/-- Writing a commitment leaves the positions alone. -/
theorem commitment_settles (hop : op.MovesCommitments) (id : ℕ) (c : BorrowCommitment)
    (next : Option ℕ) (s : Storage) :
    Settles op s { withCommitment id c s with nextId := next } :=
  ⟨⟨⟨rfl, rfl, rfl⟩, rfl, rfl, rfl⟩, fun hv => ⟨hv.config, hv.average, hv.premium, hv.switchFee⟩,
    fun _ hf => hf, rfl, fun _ => ⟨rfl, rfl, rfl⟩, fun hn => absurd hop hn,
    fun hnone => hnone⟩

/-! ## Configuration -/

/-- An update of the rate model keeps the rate parameters valid. -/
theorem RateModelUpdated.settles (h : RateModelUpdated e s s') : Settles op s s' := by
  obtain ⟨update, next, hnext, rfl⟩ := h.store
  refine ⟨⟨⟨rfl, rfl, rfl⟩, rfl, rfl, rfl⟩, fun hv => ⟨?_, hv.average, hv.premium, hv.switchFee⟩,
    fun _ => id, rfl, fun _ => ⟨rfl, rfl, rfl⟩, fun _ => rfl, id⟩
  rintro _ ⟨⟩
  exact nextConfig_valid hnext (getConfig_valid hv.config)

theorem withBorrowSettings_settles {ceiling minBorrow : ℤ} :
    Settles op s (withBorrowSettings e ceiling minBorrow s) := by
  refine ⟨⟨⟨rfl, rfl, rfl⟩, rfl, rfl, rfl⟩, fun hv => ⟨?_, hv.average, hv.premium, hv.switchFee⟩,
    fun _ => id, rfl, fun _ => ⟨rfl, rfl, rfl⟩, fun _ => rfl, id⟩
  rintro _ ⟨⟩
  exact getConfig_valid hv.config

theorem initializeProtocol_settles {admin : Address} {ceiling minBorrow : ℤ} {r : Unit}
    (h : LendingContract.initializeProtocol admin ceiling minBorrow e s = .ok r s') :
    Settles op s s' := by
  obtain ⟨-, rfl⟩ := initializeProtocol_ok h
  have hadmin : Settles op s { s with protocolAdmin := some admin } := Quiet.settles rfl
  exact hadmin.trans withBorrowSettings_settles

/-- A stablecoin configuration sets one stability fee. -/
theorem setStablecoinConfig_settles {admin asset : Address} {config : StablecoinConfig} {r : Unit}
    (h : Borrow.setStablecoinConfig admin asset config e s = .ok r s') :
    Settles (.setStablecoinConfig admin asset config) s s' := by
  obtain rfl := setStablecoinConfig_ok h
  refine ⟨⟨⟨rfl, rfl, rfl⟩, rfl, rfl, rfl⟩,
    fun hv => ⟨hv.config, hv.average, hv.premium, hv.switchFee⟩,
    fun hfee hf => forall_update hf hfee, rfl, fun _ => ⟨rfl, rfl, rfl⟩, fun _ => rfl, id⟩

/-! ## Every call -/

/-- A call whose only act is a run of an inner function. -/
theorem performs_one {a : Act} (hacts : op.acts s = [a]) (hstart : op.start s = s)
    (h : actStep e a s = some s') :
    ∃ t, chain (actStep e) (op.start s) (op.acts s) = some t ∧ Settles op t s' := by
  refine ⟨s', ?_, .refl op s'⟩
  rw [hacts, hstart, chain_single, h]

/-- A call that performs no act. -/
theorem performs_none (hacts : op.acts s = []) (hstart : op.start s = s) (h : Settles op s s') :
    ∃ t, chain (actStep e) (op.start s) (op.acts s) = some t ∧ Settles op t s' := by
  refine ⟨s, ?_, h⟩
  rw [hacts, hstart, chain_nil]

/-- The calls that only guard or configure operations. -/
def Op.Guards : Op → Prop
  | .setDelegationRegistry .. => True
  | .setPause .. => True
  | .setOracle .. => True
  | .setLiquidationThresholdBps .. => True
  | .initializeDepositSettings .. => True
  | .setDepositPaused .. => True
  | .initializeWithdrawSettings .. => True
  | .setWithdrawPaused .. => True
  | .flashLoan .. => True
  | .setFlashLoanFeeBps .. => True
  | .setRiskAlertThresholds .. => True
  | _ => False

/-- What a guarding or configuring call writes, no operation on positions has written, and the
liquidation threshold it sets is in its range. -/
theorem guards_effect {tx : Tx} (h : step tx s = some s') (hop : tx.op.Guards) :
    Quiet s s' ∧ (getLiquidationThresholdBps s' = getLiquidationThresholdBps s ∨
      0 < getLiquidationThresholdBps s' ∧ getLiquidationThresholdBps s' ≤ 10000) := by
  obtain ⟨e, op⟩ := tx
  cases op <;> first | exact absurd hop id | skip
  all_goals
    simp only [step, Op.apply, commit_eq_some] at h
    obtain ⟨r, h⟩ := h
  case setDelegationRegistry | setPause | setOracle =>
    obtain rfl := store_ok.mp (requireAdmin_seq.mp h).2.2
    exact ⟨rfl, .inl rfl⟩
  case setLiquidationThresholdBps =>
    obtain ⟨_, _, hrange, hs⟩ := bind_ok.mp (requireAdmin_seq.mp h).2.2
    obtain ⟨hin, rfl⟩ := failIf_ok.mp hrange
    rw [not_or, not_le, not_lt] at hin
    obtain rfl := store_ok.mp hs
    exact ⟨rfl, .inr hin⟩
  case initializeDepositSettings | initializeWithdrawSettings | setWithdrawPaused =>
    obtain rfl := store_ok.mp h
    exact ⟨rfl, .inl rfl⟩
  case setDepositPaused =>
    simp only [LendingContract.setDepositPaused, Pause.setPause, store_ok] at h
    subst h
    exact ⟨rfl, .inl rfl⟩
  case flashLoan =>
    obtain rfl := flashLoan_ok h
    exact ⟨rfl, .inl rfl⟩
  case setFlashLoanFeeBps =>
    obtain ⟨-, rfl⟩ := setFlashLoanFeeBps_ok h
    exact ⟨rfl, .inl rfl⟩
  case setRiskAlertThresholds =>
    obtain rfl := setRiskAlertThresholds_ok h
    exact ⟨rfl, .inl rfl⟩

theorem guards_quiet {tx : Tx} (h : step tx s = some s') (hop : tx.op.Guards) : Quiet s s' :=
  (guards_effect h hop).1

/-- **A successful call performs its acts, and leaves the positions alone besides.** -/
theorem step_acts {tx : Tx} (h : step tx s = some s') :
    ∃ t, chain (actStep tx.env) (tx.op.start s) (tx.op.acts s) = some t ∧
      Settles tx.op t s' := by
  have hviews : tx.op.Views → Settles tx.op s s' := fun hv => (step_views h hv).settles
  rcases hd : tx.op.direct with _ | a
  · by_cases hg : tx.op.Guards
    · have hq : Settles tx.op s s' := (guards_quiet h hg).settles
      obtain ⟨e, op⟩ := tx
      cases op <;> first | exact absurd hg id | exact performs_none rfl rfl hq
    · obtain ⟨e, op⟩ := tx
      cases op <;> first | exact absurd trivial hg | skip
      all_goals
        simp only [step, Op.apply, commit_eq_some] at h
        obtain ⟨r, h⟩ := h
      case borrow | borrowWithRate | repay | repayWithRate | switchRateType | deposit
        | depositCollateral | withdraw => cases hd
      case executeDelegated => exact ⟨s', (executeDelegated_ok h).store, .refl _ _⟩
      case executeBorrowCommitment id =>
        obtain ⟨c, t, hc, -, -, ht, rfl⟩ := (executeBorrowCommitment_ok h).store
        refine ⟨t, ?_, commitment_settles (by exact trivial) id _ _ t⟩
        simp only [Op.acts, Op.start, hc, Option.map_some, Option.toList_some, chain_single, ht]
      case receive =>
        obtain ⟨a, ha, ht⟩ := receive_ok h
        exact performs_one ha rfl ht
      all_goals refine performs_none rfl rfl ?_
      case createBorrowCommitment =>
        obtain ⟨c, -, -, rfl⟩ := (createBorrowCommitment_ok h).store
        exact commitment_settles (by exact trivial) _ c _ s
      case cancelBorrowCommitment =>
        obtain ⟨c, -, rfl⟩ := cancelBorrowCommitment_ok h
        exact commitment_settles (by exact trivial) _ _ _ s
      case initializeProtocol => exact initializeProtocol_settles h
      case initializeBorrowSettings =>
        obtain rfl := initializeBorrowSettings_store.mp h
        exact withBorrowSettings_settles
      case setStablecoinConfig => exact setStablecoinConfig_settles h
      case updateInterestRateModel => exact (updateInterestRateModel_ok h).settles
      case setVariableBorrowRateBps => exact (setVariableBorrowRateBps_ok h).settles
      case getUserDebt | getUserDebtWithRate | getDebtBalance | getDebtValue | getHealthFactor
        | getUserPosition => exact hviews trivial
      case addBadDebt =>
        rw [addBadDebt_ok h]
        exact booked_settles (by exact trivial) _ _ s
      case liquidate => exact (liquidate_ok h).settles (by exact trivial)
      case recoverBadDebt => exact recoverBadDebt_settles (by exact trivial) h
  · obtain ⟨hacts, hstart⟩ := Op.direct_acts hd s
    exact performs_one hacts hstart (step_direct h hd).2.2

/-! ## Invariants -/

/-- Every act of the call is taken under the condition. -/
def EachAct (C : Env → Storage → Act → Prop) (s : Storage) (tx : Tx) : Prop :=
  Meets (actStep tx.env) (C tx.env) (tx.op.start s) (tx.op.acts s)

theorem start_settles (op : Op) (s : Storage) : Settles op s (op.start s) := by
  cases op <;> first | exact .refl _ s | skip
  exact ⟨⟨⟨rfl, rfl, rfl⟩, rfl, rfl, rfl⟩,
    fun hv => ⟨hv.config, hv.average, hv.premium, hv.switchFee⟩, fun _ => id, rfl,
    fun _ => ⟨rfl, rfl, rfl⟩, fun _ => rfl, id⟩

/-- The call keeps what its acts and its settlement keep. -/
theorem step_invariant {C : Env → Storage → Act → Prop} {I : Storage → Prop} {tx : Tx}
    (hact : ∀ a s s', actStep tx.env a s = some s' → C tx.env s a → I s → I s')
    (hsettle : ∀ s s', Settles tx.op s s' → I s → I s')
    (h : step tx s = some s') (hC : EachAct C s tx) (hs : I s) : I s' := by
  obtain ⟨t, hchain, hset⟩ := step_acts h
  have ht : I (run (actStep tx.env) (tx.op.start s) (tx.op.acts s)) :=
    hC.invariant (fun s a s' ha hca => hact a s s' ha hca) (hsettle _ _ (start_settles _ s) hs)
  rw [run_of_chain hchain] at ht
  exact hsettle t s' hset ht

/-- The sum of a quantity over the acts of a call. -/
def actTally {M : Type} [AddCommMonoid M] (f : Env → Storage → Act → M) (s : Storage) (tx : Tx) :
    M :=
  tally (actStep tx.env) (f tx.env) (tx.op.start s) (tx.op.acts s)

/-- The call keeps a relation between a running sum and the store that its acts and its settlement
keep. -/
theorem step_tally {M : Type} [AddCommMonoid M] {C : Env → Storage → Act → Prop}
    {f : Env → Storage → Act → M} {I : M → Storage → Prop} {tx : Tx} {m : M}
    (hact : ∀ m s a s', actStep tx.env a s = some s' → C tx.env s a → I m s →
      I (m + f tx.env s a) s')
    (hsettle : ∀ m s s', Settles tx.op s s' → I m s → I m s')
    (h : step tx s = some s') (hC : EachAct C s tx) (hs : I m s) :
    I (m + actTally f s tx) s' := by
  obtain ⟨t, hchain, hset⟩ := step_acts h
  have ht := hC.tally_invariant (f := f tx.env) hact (hsettle m _ _ (start_settles _ s) hs)
  rw [run_of_chain hchain] at ht
  exact hsettle _ t s' hset ht

/-- **Every call keeps the rate parameters valid.** -/
theorem RatesValid.call {tx : Tx} (h : RatesValid s) (hstep : step tx s = some s') :
    RatesValid s' :=
  step_invariant (C := fun _ _ _ => True) (fun _ _ _ ha _ hv => hv.act ha)
    (fun _ _ hset => hset.rates) hstep (meets_of_forall fun _ _ _ => trivial) h

end StellarLend.Lending
