import StellarLend.HelloWorld.Acts

/-!
# HelloWorld/Quiet — the calls that perform no act

A call beside the five operations leaves the records of the positions alone, never stores a lending
index, and keeps the risk parameters valid and the prices positive.  With `Frame`, which says the
same of the acts, these are invariants of every run.  What the gateways record is written by the
calls that make and cancel commits and by no other (`step_sameGates`).
-/

namespace StellarLend.HelloWorld

open Foundations Call
open Lending (Address)

variable {e : Env} {s t u s' : Storage} {r : Unit}

/-- The stored risk parameters pass their own check. -/
def RiskValid (s : Storage) : Prop :=
  ∀ config, getRiskParams s = some config → validateRiskParams config = .ok ()

/-- What a call without an act leaves alone. -/
structure Quiet (s s' : Storage) : Prop where
  books : s'.books = s.books
  interest : s'.interest.lendingIndex = s.interest.lendingIndex
  risk : RiskValid s → RiskValid s'
  positive : PricesPositive s.oracle → PricesPositive s'.oracle

theorem Quiet.refl (s : Storage) : Quiet s s := ⟨rfl, rfl, id, id⟩

theorem Quiet.trans (h : Quiet s t) (h' : Quiet t u) : Quiet s u :=
  ⟨h'.books.trans h.books, h'.interest.trans h.interest, h'.risk ∘ h.risk,
    h'.positive ∘ h.positive⟩

/-- The protocol's share of a liquidation's incentive is a share of it. -/
def FeesValid (s : Storage) : Prop :=
  0 ≤ (getFeeConfig s).liquidationFeeBps ∧ (getFeeConfig s).liquidationFeeBps ≤ 10000

/-- A quiet call leaves the protocol's totals and the oracle's switches alone as well, and fees that
were valid are. -/
structure Aside (s s' : Storage) : Prop extends Quiet s s' where
  totals : getProtocolAnalytics s' = getProtocolAnalytics s
  switches : s'.oracle.pauseSwitches = s.oracle.pauseSwitches
  fees : FeesValid s → FeesValid s'

theorem Aside.refl (s : Storage) : Aside s s := ⟨.refl s, rfl, rfl, id⟩

theorem Aside.trans (h : Aside s t) (h' : Aside t u) : Aside s u :=
  ⟨h.toQuiet.trans h'.toQuiet, h'.totals.trans h.totals, h'.switches.trans h.switches,
    h'.fees ∘ h.fees⟩

/-! ## Frames of the gateways -/

/-- Nonces, commits and fees are as they were. -/
structure SameGates (s t : Storage) : Prop where
  nextNonce : t.nextNonce = s.nextNonce
  commit : t.mev.commit = s.mev.commit
  nextCommitId : t.mev.nextCommitId = s.mev.nextCommitId
  smoothedFee : t.mev.smoothedFee = s.mev.smoothedFee

theorem SameGates.refl (s : Storage) : SameGates s s := ⟨rfl, rfl, rfl, rfl⟩

theorem SameGates.trans (h : SameGates s t) (h' : SameGates t u) : SameGates s u :=
  ⟨h'.nextNonce.trans h.nextNonce, h'.commit.trans h.commit,
    h'.nextCommitId.trans h.nextCommitId, h'.smoothedFee.trans h.smoothedFee⟩

/-- A call on the treasury leaves alone what the gateways record, and the rates' parameters. -/
structure Apart (s t : Storage) : Prop extends Aside s t, SameGates s t where
  rates : RateValid s → RateValid t

theorem Apart.refl (s : Storage) : Apart s s := ⟨.refl s, .refl s, id⟩

theorem Apart.trans (h : Apart s t) (h' : Apart t u) : Apart s u :=
  ⟨h.toAside.trans h'.toAside, h.toSameGates.trans h'.toSameGates, h'.rates ∘ h.rates⟩

/-- What the gateways record is as it was, and so is the treasury. -/
structure Beside (s t : Storage) : Prop extends SameGates s t where
  treasury : t.treasury = s.treasury

theorem Beside.refl (s : Storage) : Beside s s := ⟨.refl s, rfl⟩

theorem Beside.trans (h : Beside s t) (h' : Beside t u) : Beside s u :=
  ⟨h.toSameGates.trans h'.toSameGates, h'.treasury.trans h.treasury⟩

/-- A call that only configures leaves positions, gateways and the treasury alone. -/
structure Configured (s t : Storage) : Prop extends Aside s t, Beside s t

theorem Configured.refl (s : Storage) : Configured s s := ⟨.refl s, .refl s⟩

theorem Configured.trans (h : Configured s t) (h' : Configured t u) : Configured s u :=
  ⟨h.toAside.trans h'.toAside, h.toBeside.trans h'.toBeside⟩

/-- A call that only configures keeps the parameters of the interest rates valid, too. -/
structure Tuned (s t : Storage) : Prop extends Configured s t where
  rates : RateValid s → RateValid t

theorem Tuned.refl (s : Storage) : Tuned s s := ⟨.refl s, id⟩

theorem Tuned.trans (h : Tuned s t) (h' : Tuned t u) : Tuned s u :=
  ⟨h.toConfigured.trans h'.toConfigured, h'.rates ∘ h.rates⟩

theorem Tuned.apart (h : Tuned s t) : Apart s t := ⟨h.toAside, h.toSameGates, h.rates⟩

/-- The stores differ in settings that no valid parameter and no price rests on. -/
def Adjusted (s t : Storage) : Prop :=
  t = { s with
    admin := t.admin, role := t.role, assetParams := t.assetParams
    nativeAssetAddress := t.nativeAssetAddress, breaker := t.breaker, rateLimits := t.rateLimits
    risk := { t.risk with riskParamsConfig := s.risk.riskParamsConfig }
    interest := { t.interest with lendingIndex := s.interest.lendingIndex }
    oracle := { s.oracle with
      fallbackOracle := t.oracle.fallbackOracle, primaryOracle := t.oracle.primaryOracle
      oracleConfig := t.oracle.oracleConfig, oracleSources := t.oracle.oracleSources
      circuitBreaker := t.oracle.circuitBreaker }
    mev := { s.mev with config := t.mev.config }, transfers := t.transfers }

theorem Adjusted.configured (h : Adjusted s t) : Configured s t := by
  rw [Adjusted] at h
  rw [h]
  exact ⟨⟨⟨rfl, rfl, id, fun hs => ⟨hs.feed, hs.fallback, hs.source, hs.cache, hs.history⟩⟩, rfl,
    rfl, id⟩, ⟨rfl, rfl, rfl, rfl⟩, rfl⟩

theorem Adjusted.tuned (h : Adjusted s t) (hrates : RateValid s → RateValid t) : Tuned s t :=
  ⟨h.configured, hrates⟩

theorem Noted.tuned (h : Noted s t) : Tuned s t := by
  have htotals := h.totals
  have hkeys := h.recorded
  rw [Recorded] at hkeys
  rw [hkeys] at htotals ⊢
  exact ⟨⟨⟨⟨rfl, rfl, id, id⟩, htotals, rfl, id⟩, ⟨rfl, rfl, rfl, rfl⟩, rfl⟩, id⟩

/-! ## Risk parameters -/

theorem RiskValid.of_stored {config : RiskParams} (h : getRiskParams s = some config)
    (hvalid : validateRiskParams config = .ok ()) : RiskValid s := by
  intro config' h'
  rw [h, Option.some.injEq] at h'
  rw [← h']
  exact hvalid

theorem changeParameter_keys {old new : ℤ} {value : Option ℤ}
    (h : changeParameter old value e s = .ok new s') : s = s' := by
  cases value with
  | none => exact (pure_ok.mp h).2
  | some v =>
    simp only [changeParameter, validateParameterChange, bind_ok, ↓orTrap_seq, failIf_ok, pure_ok,
      exists_const] at h
    obtain ⟨_, ⟨_, -, _, -, -, rfl⟩, -, rfl⟩ := h
    rfl

theorem setRiskParams_tuned {mcr lt cf li : Option ℤ}
    (h : setRiskParams mcr lt cf li e s = .ok r s') : Tuned s s' := by
  simp only [setRiskParams, bind_ok, view_ok, ↓okOr_seq, ↓ofExcept_seq, ↓asks_seq, store_ok,
    and_assoc, exists_and_left, exists_eq_left'] at h
  obtain ⟨config, -, mcr', t₁, h₁, lt', t₂, h₂, cf', t₃, h₃, li', t₄, h₄, _, hvalid, rfl⟩ := h
  obtain rfl := changeParameter_keys h₁
  obtain rfl := changeParameter_keys h₂
  obtain rfl := changeParameter_keys h₃
  obtain rfl := changeParameter_keys h₄
  exact ⟨⟨⟨⟨rfl, rfl, fun _ => .of_stored rfl hvalid, id⟩, rfl, rfl, id⟩, ⟨rfl, rfl, rfl, rfl⟩,
    rfl⟩, id⟩

/-! ## Oracle -/

/-- A computation of the oracle that keeps prices positive and the set-up leaves all else alone. -/
theorem ofOracle_tuned {ε α : Type} {x : Call ℕ OracleStore ε α} {P : α → Prop}
    (hx : Keeps PricesPositive x P) (hsetup : ∀ c, Keeps (fun o => o.setup = c) x fun _ => True) :
    Keeps (Tuned s) (ofOracle x : Invocation ε α) fun _ => True := by
  intro e t hst
  unfold ofOracle zoom
  cases h : x e.timestamp t.oracle with
  | trap => trivial
  | err err o =>
    have hswitches := congrArg OracleStore.pauseSwitches ((hsetup _).err rfl h)
    exact hst.trans ⟨⟨⟨⟨rfl, rfl, id, fun hs => hx.err hs h⟩, rfl, hswitches, id⟩,
      ⟨rfl, rfl, rfl, rfl⟩, rfl⟩, id⟩
  | ok a o =>
    have hswitches := congrArg OracleStore.pauseSwitches ((hsetup _).ok rfl h).1
    exact ⟨hst.trans ⟨⟨⟨⟨rfl, rfl, id, fun hs => (hx.ok hs h).1⟩, rfl, hswitches, id⟩,
      ⟨rfl, rfl, rfl, rfl⟩, rfl⟩, id⟩, trivial⟩

theorem validatePrice_ok {o : OracleStore} {price : ℤ} (h : validatePrice o price = .ok ()) :
    0 < price := by
  unfold validatePrice at h
  split at h
  · cases h
  · omega

/-- A positive feed is recorded where feeds go, and cached. -/
theorem PricesPositive.withFeed {o : OracleStore} (h : PricesPositive o) {now : ℕ}
    {fallback isAdmin : Bool} {asset : Address} {feed : PriceFeed} (hfeed : 0 < feed.price) :
    PricesPositive (withFeed now fallback isAdmin asset feed o) := by
  have hupdate : ∀ {f : Address → Option PriceFeed} (k : Address),
      (∀ a g, f a = some g → 0 < g.price) →
        ∀ a g, Function.update f k (some feed) a = some g → 0 < g.price :=
    fun _ hf => forall_update hf hfeed
  unfold HelloWorld.withFeed
  refine PricesPositive.cachePrice ?_ hfeed
  refine ⟨?_, ?_, ?_, h.cache, h.history⟩
  · cases fallback
    · exact hupdate asset h.feed
    · exact h.feed
  · cases fallback
    · exact h.fallback
    · exact hupdate asset h.fallback
  · intro a source g hg
    dsimp only at hg
    by_cases ha : a = asset
    · rw [ha, Function.update_self] at hg
      exact hupdate feed.oracle (h.source asset) source g hg
    · rw [Function.update_of_ne ha] at hg
      exact h.source a source g hg

theorem updatePriceFeed_tuned {caller asset oracle : Address} {price r : ℤ} {decimals : ℕ}
    (h : updatePriceFeed caller asset price decimals oracle e s = .ok r s') : Tuned s s' := by
  simp only [updatePriceFeed, storeOracle, view_seq, failIf_seq, ofExcept_seq, asks_seq, store_seq,
    pure_ok] at h
  obtain ⟨-, -, -, _, hvalid, _, -, -, rfl⟩ := h
  exact ⟨⟨⟨⟨rfl, rfl, id, fun hs => hs.withFeed (validatePrice_ok hvalid)⟩, rfl, rfl, id⟩,
    ⟨rfl, rfl, rfl, rfl⟩, rfl⟩, id⟩

/-! ## Setup, treasury and flash loans -/

theorem initializeRiskManagement_tuned (h : initializeRiskManagement e s = .ok r s') :
    Tuned s s' := by
  simp only [initializeRiskManagement, view_seq] at h
  split at h
  · obtain ⟨-, rfl⟩ := pure_ok.mp h
    exact .refl s
  · simp only [asks_seq, view_seq, store_seq, store_ok] at h
    subst h
    exact Adjusted.tuned rfl id

theorem initializeContract_tuned {admin : Address}
    (h : HelloContract.initializeContract admin e s = .ok r s') : Tuned s s' := by
  simp only [HelloContract.initializeContract, setAdmin, initializeRiskParams,
    initializeInterestRateConfig, view_seq, failIf_seq, mapErr_seq, mapErr_ok, store_ok, asks_seq,
    ofExcept_seq, and_assoc, exists_and_left, exists_eq_left', exists_const] at h
  obtain ⟨-, -, _, t, hmanagement, _, ⟨_, hvalid, rfl⟩, -, rfl⟩ := h
  have hstart : Tuned s { s with admin := some admin } := Adjusted.tuned rfl id
  have hopened := hstart.trans (initializeRiskManagement_tuned hmanagement)
  exact ⟨⟨⟨⟨hopened.books, hopened.interest, fun _ => .of_stored rfl hvalid, hopened.positive⟩,
    hopened.totals, hopened.switches, hopened.fees⟩, ⟨hopened.nextNonce, hopened.commit,
    hopened.nextCommitId, hopened.smoothedFee⟩, hopened.treasury⟩,
    fun _ => .with InterestRateConfig.default_valid _⟩

/-- Setting the rates' parameters touches nothing else. -/
theorem updateInterestRateConfig_tuned {caller : Address}
    {baseRate kink multiplier jumpMultiplier rateFloor rateCeiling spread : Option ℤ}
    (h : updateInterestRateConfig caller baseRate kink multiplier jumpMultiplier rateFloor
      rateCeiling spread e s = .ok r s') : Tuned s s' := by
  have hrates := updateInterestRateConfig_rates h
  simp only [updateInterestRateConfig, requireAdmin_ok, view_seq, asks_seq, okOr_seq, mapErr_seq,
    ofExcept_seq, store_ok, and_assoc, exists_and_left, exists_eq_left', exists_const] at h
  obtain ⟨-, _, -, _, -, rfl⟩ := h
  exact Adjusted.tuned rfl hrates

theorem executeProposalType_tuned {admin : Address} {proposal : ProposalType}
    (h : executeProposalType admin proposal e s = .ok r s') : Tuned s s' := by
  cases proposal <;> simp only [executeProposalType, mapErr_ok] at h
  case minCollateralRatio => exact setRiskParams_tuned h
  case riskParams => exact setRiskParams_tuned h
  case interestRateConfig => exact updateInterestRateConfig_tuned h
  case pauseSwitch =>
    simp only [setPauseSwitch, setPauseSwitches, requireRiskAdmin_seq, view_seq, asks_seq, okOr_seq,
      store_ok] at h
    obtain ⟨-, _, -, rfl⟩ := h
    exact Adjusted.tuned rfl id
  case emergencyPause =>
    simp only [setEmergencyPause, requireRiskAdmin_seq, store_ok] at h
    obtain ⟨-, rfl⟩ := h
    exact Adjusted.tuned rfl id

theorem transferOut_tuned {ε : Type} {token recipient : Address} {amount : ℤ}
    (h : (transferOut token recipient amount : Invocation ε Unit) e s = .ok r s') :
    Tuned s s' := by
  rw [transferOut_ok h]
  exact Adjusted.tuned rfl id

theorem creditReserve_apart {ε : Type} {overflow : ε} {asset : Option Address} {fee : ℤ}
    (h : creditReserve overflow asset fee e s = .ok r s') : Apart s s' := by
  simp [creditReserve] at h
  obtain ⟨_, -, rfl⟩ := h
  exact ⟨⟨⟨rfl, rfl, id, id⟩, rfl, rfl, id⟩, ⟨rfl, rfl, rfl, rfl⟩, id⟩

theorem claimReserves_apart {caller recipient : Address} {asset : Option Address} {amount : ℤ}
    (h : claimReserves caller asset recipient amount e s = .ok r s') : Apart s s' := by
  simp only [claimReserves, requireTreasuryAdmin_seq, view_seq, okOr_seq, failIf_seq, not_le,
    not_lt, I128.checkedSub_eq_some, store_seq] at h
  obtain ⟨-, -, -, -, _, ⟨-, rfl⟩, h⟩ := h
  have hbooked : Apart s
      (withReserve asset ((s.treasury.protocolReserve asset).getD 0 - amount) s) :=
    ⟨⟨⟨rfl, rfl, id, id⟩, rfl, rfl, id⟩, ⟨rfl, rfl, rfl, rfl⟩, id⟩
  cases asset with
  | none =>
    obtain ⟨-, rfl⟩ := pure_ok.mp h
    exact hbooked
  | some token => exact hbooked.trans (transferOut_tuned h).apart

theorem executeFlashLoan_apart {user asset callback : Address} {amount r : ℤ}
    (h : executeFlashLoan user asset amount callback e s = .ok r s') : Apart s s' := by
  simp only [executeFlashLoan, bind_ok, ↓failIf_seq, failIf_ok, ↓view_seq, ↓okOr_seq, ↓asks_seq,
    ↓look_seq, ↓require_seq, pure_ok, and_assoc, exists_and_left, exists_eq_left', exists_const]
    at h
  obtain ⟨-, -, -, fee, -, _, -, _, t, hbalance, -, _, u, hout, -, _, v, hin, _, w, hfee, -,
    rfl⟩ := h
  obtain rfl := tokenBalance_ok hbalance
  have hback : Tuned u v := by
    rw [transferIn_ok hin]
    exact Adjusted.tuned rfl id
  have hlent := (transferOut_tuned hout).trans hback
  by_cases hpositive : 0 < fee
  · exact hlent.apart.trans (creditReserve_apart ((onlyIf_ok.mp hfee).1 hpositive))
  · obtain rfl := (onlyIf_ok.mp hfee).2 hpositive
    exact hlent.apart

/-! ## Every call -/

/-- The calls that make and cancel commits. -/
def Op.onCommits : Op → Bool
  | .commitBorrowProtected .. | .commitWithdrawProtected .. | .commitLiquidationProtected ..
  | .cancelMevCommit .. => true
  | _ => false

/-- The calls that set up the treasury, claim from it, or lend from it. -/
def Op.onTreasury : Op → Bool
  | .setTreasury .. | .setFeeConfig .. | .claimReserves .. | .configureFlashLoan ..
  | .setFlashLoanFee .. | .executeFlashLoan .. => true
  | _ => false

/-- The calls that reveal commits. -/
def Op.onReveals : Op → Bool
  | .revealBorrowProtected .. | .revealWithdrawProtected .. | .revealLiquidationProtected .. => true
  | _ => false

/-- A reveal that succeeds found its commit, and performs an act. -/
theorem reveal_acts {op : Op} (h : step ⟨e, op⟩ s = some s') (hop : op.onReveals = true) :
    op.act s ≠ none := by
  intro ha
  cases op <;> try cases hop
  all_goals
    simp only [Op.act, Option.map_eq_none_iff] at ha
    simp only [step, Op.apply, commit_eq_some] at h
    obtain ⟨r, h⟩ := h
    obtain ⟨_, _, hreveal, -⟩ := bind_ok.mp h
    obtain ⟨-, -, c, hc, hresult⟩ := reveal_ok (mapErr_ok.mp hreveal)
  case revealBorrowProtected | revealWithdrawProtected =>
    rw [ha] at hc
    cases hc
  case revealLiquidationProtected =>
    rw [hc, Option.bind_some, Option.map_eq_none_iff] at ha
    rw [ha] at hresult
    cases hresult

/-- **A call on the treasury leaves the positions and what the gateways record.** -/
theorem treasury_apart {op : Op} (h : step ⟨e, op⟩ s = some s') (hop : op.onTreasury = true) :
    Apart s s' := by
  cases op <;> try cases hop
  all_goals
    simp only [step, Op.apply, commit_eq_some] at h
    obtain ⟨r, h⟩ := h
  case setTreasury =>
    simp only [setTreasury, requireTreasuryAdmin_seq, store_ok] at h
    obtain ⟨-, -, rfl⟩ := h
    exact ⟨⟨⟨rfl, rfl, id, id⟩, rfl, rfl, id⟩, ⟨rfl, rfl, rfl, rfl⟩, id⟩
  case setFeeConfig =>
    simp only [setFeeConfig, requireTreasuryAdmin_seq, failIf_seq, not_or, not_lt, store_ok] at h
    obtain ⟨-, -, -, hfees, rfl⟩ := h
    exact ⟨⟨⟨rfl, rfl, id, id⟩, rfl, rfl, fun _ => hfees⟩, ⟨rfl, rfl, rfl, rfl⟩, id⟩
  case claimReserves => exact claimReserves_apart h
  case configureFlashLoan | setFlashLoanFee =>
    simp only [setFlashLoanFee, setFlashLoanConfig, mapErr_requireAdmin_seq, view_seq, failIf_seq,
      store_ok] at h
    obtain ⟨-, -, rfl⟩ := h
    exact ⟨⟨⟨rfl, rfl, id, id⟩, rfl, rfl, id⟩, ⟨rfl, rfl, rfl, rfl⟩, id⟩
  case executeFlashLoan => exact executeFlashLoan_apart h

theorem treasury_aside {op : Op} (h : step ⟨e, op⟩ s = some s') (hop : op.onTreasury = true) :
    Aside s s' ∧ SameGates s s' :=
  ⟨(treasury_apart h hop).toAside, (treasury_apart h hop).toSameGates⟩

/-- **A call on commits leaves the positions, the treasury and the rates' parameters.** -/
theorem commits_apart {op : Op} (h : step ⟨e, op⟩ s = some s') (hop : op.onCommits = true) :
    Aside s s' ∧ s'.treasury = s.treasury ∧ s'.interest = s.interest := by
  cases op <;> try cases hop
  all_goals
    simp only [step, Op.apply, commit_eq_some] at h
    obtain ⟨r, h⟩ := h
  case commitBorrowProtected | commitWithdrawProtected | commitLiquidationProtected =>
    simp only [HelloContract.commitWithdrawProtected, createCommit, nextCommitId,
      HelloContract.commitLiquidationProtected, HelloContract.commitBorrowProtected,
      requireAuth_seq, view_seq, asks_seq, failIf_seq, mapErr_ok, store_seq, pure_seq, pure_ok,
      seq_assoc] at h
    obtain ⟨-, -, -, -, rfl⟩ := h
    exact ⟨⟨⟨rfl, rfl, id, id⟩, rfl, rfl, id⟩, rfl, rfl⟩
  case cancelMevCommit =>
    simp only [cancelCommit, loadCommit, requireAuth_seq, view_seq, failIf_seq, okOr_seq, store_ok,
      seq_assoc] at h
    obtain ⟨-, _, -, -, rfl⟩ := h
    exact ⟨⟨⟨rfl, rfl, id, id⟩, rfl, rfl, id⟩, rfl, rfl⟩

theorem commits_aside {op : Op} (h : step ⟨e, op⟩ s = some s') (hop : op.onCommits = true) :
    Aside s s' ∧ s'.treasury = s.treasury :=
  ⟨(commits_apart h hop).1, (commits_apart h hop).2.1⟩

/-- **A call without an act that is not on commits and not on the treasury only configures.** -/
theorem step_tuned {tx : Tx} (h : step tx s = some s') (ha : tx.op.act s = none)
    (hop : tx.op.onCommits = false) (htreasury : tx.op.onTreasury = false) : Tuned s s' := by
  obtain ⟨e, op⟩ := tx
  have hreveals : ¬ op.onReveals = true := fun hreveals => reveal_acts h hreveals ha
  cases op <;> first | exact absurd rfl hreveals | cases ha <;> cases hop <;> cases htreasury
  all_goals
    simp only [step, Op.apply, commit_eq_some] at h
    obtain ⟨r, h⟩ := h
  case initializeContract => exact initializeContract_tuned h
  case transferAdmin =>
    simp only [HelloContract.transferAdmin, setAdmin, view_seq, failIf_seq, mapErr_ok, store_ok]
      at h
    obtain ⟨-, rfl⟩ := h
    exact Adjusted.tuned rfl id
  case setRiskParams =>
    obtain ⟨_, _, hadmin, h⟩ := bind_ok.mp h
    obtain ⟨-, rfl⟩ := requireRiskAdmin_ok.mp (mapErr_ok.mp hadmin)
    exact setRiskParams_tuned (mapErr_ok.mp h)
  case setEmergencyPause =>
    simp only [HelloContract.setEmergencyPause, setEmergencyPause, requireRiskAdmin_seq,
      requireRiskAdmin_ok, mapErr_seq, mapErr_ok, store_ok, and_assoc, exists_and_left,
      exists_eq_left', exists_const] at h
    obtain ⟨-, -, rfl⟩ := h
    exact Adjusted.tuned rfl id
  case updateAssetConfig =>
    simp only [HelloContract.updateAssetConfig, setAssetParams, requireAuth_seq, view_seq, okOr_seq,
      store_ok] at h
    obtain ⟨_, -, -, rfl⟩ := h
    exact Adjusted.tuned rfl id
  case updateInterestRateConfig => exact updateInterestRateConfig_tuned h
  case configureMevProtection =>
    simp only [configureMevProtection, requireRiskAdmin_ok, mapErr_seq, ofExcept_seq, store_ok,
      and_assoc, exists_and_left, exists_eq_left', exists_const] at h
    obtain ⟨-, _, -, rfl⟩ := h
    exact Adjusted.tuned rfl id
  case configureRateLimitOperation | configureRateLimitPool =>
    simp only [configurePoolLimit, configureOperationLimit, mapErr_requireAdmin_seq, ofExcept_seq,
      store_ok] at h
    obtain ⟨-, _, -, rfl⟩ := h
    exact Adjusted.tuned rfl id
  case setUserRateLimitGrace =>
    simp only [setUserGrace, mapErr_requireAdmin_seq, store_ok] at h
    obtain ⟨-, rfl⟩ := h
    exact Adjusted.tuned rfl id
  case initializeCircuitBreaker =>
    simp only [initializeCircuitBreaker, asks_seq, failIf_seq, store_ok] at h
    obtain ⟨-, rfl⟩ := h
    exact Adjusted.tuned rfl id
  case activateCircuitBreaker =>
    simp only [activateCircuitBreaker, U64.checkedAdd_eq_some, requireSignedAdmin_seq, view_seq,
      asks_seq, orTrap_seq, store_ok, and_assoc, exists_and_left, exists_eq_left'] at h
    obtain ⟨-, -, -, rfl⟩ := h
    exact Adjusted.tuned rfl id
  case deactivateCircuitBreaker =>
    simp only [deactivateCircuitBreaker, requireSignedAdmin_seq, view_seq, failIf_seq, okOr_seq,
      store_ok] at h
    obtain ⟨-, -, _, -, -, rfl⟩ := h
    exact Adjusted.tuned rfl id
  case addToWhitelist =>
    simp only [addToWhitelist, requireSignedAdmin_seq, view_seq, failIf_seq, store_ok] at h
    obtain ⟨-, -, -, rfl⟩ := h
    exact Adjusted.tuned rfl id
  case removeFromWhitelist =>
    simp only [removeFromWhitelist, decide_not, requireSignedAdmin_seq, view_seq, failIf_seq,
      okOr_seq, store_ok] at h
    obtain ⟨-, -, _, -, -, rfl⟩ := h
    exact Adjusted.tuned rfl id
  case updateCircuitBreakerConfig =>
    simp only [updateCircuitBreakerConfig, requireSignedAdmin_seq, failIf_seq, store_ok] at h
    obtain ⟨-, -, -, rfl⟩ := h
    exact Adjusted.tuned rfl id
  case govExecuteProposal => exact executeProposalType_tuned h
  case initializeCreditScore => exact (initializeCreditScore_ok h).toNoted.tuned
  case getUserTotalCollateralValue user =>
    have hkeeps : Keeps (Tuned s) (calculateTotalCollateralValue user) fun _ => True := by
      intro e t hst
      rw [calculateTotalCollateralValue_eq]
      exact ofOracle_tuned (valueOn_keeps _ _ _ _) (fun c => valueOn_setup c _ _ _ _) e t hst
    exact (hkeeps.attempt.ok (.refl s) h).1
  case isLiquidationAllowed liquidator =>
    rw [((isLiquidationAllowed_keeps s liquidator).ok rfl h).1]
    exact Adjusted.tuned rfl id
  case getPrice asset =>
    exact ((ofOracle_tuned (getPrice_keeps PricesPositive.kept asset) fun c =>
      getPrice_keeps (setup_kept c) asset).ok (.refl s) h).1
  case grantRole | revokeRole =>
    simp only [grantRole, revokeRole, requireAdmin_seq, store_ok] at h
    obtain ⟨-, rfl⟩ := h
    exact Adjusted.tuned rfl id
  case setPauseSwitches =>
    simp only [setPauseSwitches, requireRiskAdmin_seq, view_seq, asks_seq, okOr_seq, store_ok] at h
    obtain ⟨-, _, -, rfl⟩ := h
    exact Adjusted.tuned rfl id
  case setEmergencyRateAdjustment =>
    have hrates := setEmergencyRateAdjustment_rates h
    simp only [setEmergencyRateAdjustment, Range.check_eq_some, mapErr_requireAdmin_seq, view_seq,
      asks_seq, failIf_seq, okOr_seq, orTrap_seq, store_ok] at h
    obtain ⟨-, _, -, -, _, -, rfl⟩ := h
    exact Adjusted.tuned rfl hrates
  case setNativeAssetAddress =>
    simp only [setNativeAssetAddress, requireAuth_seq, view_seq, asks_seq, failIf_seq, okOr_seq,
      store_ok] at h
    obtain ⟨_, -, -, -, -, rfl⟩ := h
    exact Adjusted.tuned rfl id
  case updatePriceFeed => exact updatePriceFeed_tuned h
  case setPrimaryOracle | setOracleSources =>
    simp only [setPrimaryOracle, storeOracle, setOracleSources, requireOracleAdmin_seq, store_ok]
      at h
    obtain ⟨-, rfl⟩ := h
    exact Adjusted.tuned rfl id
  case setFallbackOracle =>
    simp only [setFallbackOracle, storeOracle, requireOracleAdmin_seq, asks_seq, failIf_seq,
      store_ok] at h
    obtain ⟨-, -, rfl⟩ := h
    exact Adjusted.tuned rfl id
  case configureOracle =>
    simp only [configureOracle, storeOracle, requireOracleAdmin_seq, failIf_seq, store_ok] at h
    obtain ⟨-, -, -, -, -, -, -, rfl⟩ := h
    exact Adjusted.tuned rfl id
  case emergencyPauseAssetOracle =>
    simp only [emergencyPauseAssetOracle, storeOracle, requireOracleAdmin_seq, asks_seq, store_ok]
      at h
    obtain ⟨-, rfl⟩ := h
    exact Adjusted.tuned rfl id

theorem step_configured {tx : Tx} (h : step tx s = some s') (ha : tx.op.act s = none)
    (hop : tx.op.onCommits = false) (htreasury : tx.op.onTreasury = false) : Configured s s' :=
  (step_tuned h ha hop htreasury).toConfigured

/-- **A call that performs no act keeps the rates' parameters valid.** -/
theorem step_rates {tx : Tx} (h : step tx s = some s') (ha : tx.op.act s = none)
    (hs : RateValid s) : RateValid s' := by
  by_cases hop : tx.op.onCommits = true
  · rw [RateValid, getInterestRateConfig, (commits_apart h hop).2.2]
    exact hs
  by_cases htreasury : tx.op.onTreasury = true
  · exact (treasury_apart h htreasury).rates hs
  · exact (step_tuned h ha (by simpa using hop) (by simpa using htreasury)).rates hs

/-- **A call that performs no act is quiet, and leaves the totals alone.** -/
theorem step_aside {tx : Tx} (h : step tx s = some s') (ha : tx.op.act s = none) : Aside s s' := by
  by_cases hop : tx.op.onCommits = true
  · exact (commits_aside h hop).1
  by_cases htreasury : tx.op.onTreasury = true
  · exact (treasury_aside h htreasury).1
  · exact (step_configured h ha (by simpa using hop) (by simpa using htreasury)).toAside

theorem step_quiet {tx : Tx} (h : step tx s = some s') (ha : tx.op.act s = none) : Quiet s s' :=
  (step_aside h ha).toQuiet

/-! ## Invariants of every run -/

/-- What holds of the parameters in every reachable state: the risk parameters are valid, prices are
positive, and the lending index was never stored, so that every user's copy of it is where an index
starts. -/
structure Settled (s : Storage) : Prop where
  risk : RiskValid s
  positive : PricesPositive s.oracle
  dormant : s.interest.lendingIndex = none
  index : ∀ user i, s.books.userBorrowIndex user = some i → i = INDEX_SCALE

theorem Settled.empty : Settled .empty := ⟨nofun, .empty, rfl, nofun⟩

/-- Nobody's copy of the index but the user's own changes, and that to where an index starts. -/
theorem Settled.act {a : Act} (h : Settled s) (ha : a.apply e s = some s') : Settled s' := by
  have hframe := a.frame ha
  refine ⟨?_, hframe.positive h.positive, by rw [hframe.dormant h.dormant]; exact h.dormant, ?_⟩
  · rw [RiskValid, getRiskParams, hframe.risk]
    exact h.risk
  · have hkept : s'.books.userBorrowIndex = s.books.userBorrowIndex ∨ ∃ user,
        s'.books.userBorrowIndex =
          Function.update s.books.userBorrowIndex user (some INDEX_SCALE) := by
      have heffect := a.effect ha
      cases a with
      | deposit user asset amount =>
        rw [heffect.books]
        exact .inl (onAsset_assets (withAssetDeposit_assets user · amount) asset _).userBorrowIndex
      | withdraw user asset amount =>
        rw [heffect.books]
        exact .inl
          (onAsset_assets (withAssetWithdrawal_assets user · amount) asset _).userBorrowIndex
      | borrow user asset amount =>
        obtain ⟨p, t, u, haccrued, -, hbooks⟩ := heffect.moved
        obtain ⟨index, hindex, hscale⟩ := haccrued.books
        rw [hbooks]
        refine .inr ⟨user, ?_⟩
        rw [← hscale h.dormant]
        exact congrArg Books.userBorrowIndex hindex
      | repay user asset amount =>
        obtain ⟨p, q, t, -, haccrued, -, -, hbooks⟩ := heffect.moved
        obtain ⟨index, hindex, hscale⟩ := haccrued.books
        rw [hbooks]
        refine .inr ⟨user, ?_⟩
        rw [← hscale h.dormant]
        exact congrArg Books.userBorrowIndex hindex
      | liquidate liquidator borrower dasset casset amount =>
        obtain ⟨p, value, amounts, heffect⟩ := heffect
        obtain ⟨index, hscale, hbooks⟩ := heffect.books
        rw [hbooks]
        refine .inr ⟨borrower, ?_⟩
        rw [← hscale h.dormant]
        exact (withSeizure_assets ..).userBorrowIndex
    intro user i hi
    obtain hsame | ⟨moved, hmoved⟩ := hkept
    · rw [hsame] at hi
      exact h.index user i hi
    · rw [hmoved, Function.update_apply] at hi
      split at hi
      · exact (Option.some.inj hi).symm
      · exact h.index user i hi

theorem Settled.gate (h : Settled s) (hgate : Gate s t) : Settled t := by
  rw [Gate] at hgate
  rw [hgate]
  exact ⟨h.risk, h.positive, h.dormant, h.index⟩

theorem Settled.step {tx : Tx} (h : Settled s) (hstep : step tx s = some s') : Settled s' := by
  cases hact : tx.op.act s with
  | none =>
    have hquiet := step_quiet hstep hact
    refine ⟨hquiet.risk h.risk, hquiet.positive h.positive, ?_, ?_⟩
    · rw [hquiet.interest]
      exact h.dormant
    · rw [hquiet.books]
      exact h.index
  | some a =>
    obtain ⟨t, hgate, ha⟩ := step_act hstep hact
    exact (h.gate hgate).act ha

/-- **Every reachable state is settled.** -/
theorem Reachable.settled (h : Reachable s) : Settled s :=
  h.invariant .empty fun _ _ _ hstep hs => hs.step hstep

/-- **Nothing ever sets the oracle's own pause switches.** -/
theorem Reachable.unswitched (h : Reachable s) : s.oracle.pauseSwitches = none := by
  refine Reachable.invariant (I := fun s => s.oracle.pauseSwitches = none) rfl
    (fun s tx s' hstep hs => ?_) h
  cases hact : tx.op.act s with
  | none => exact (step_aside hstep hact).switches.trans hs
  | some a =>
    obtain ⟨t, hgate, ha⟩ := step_act hstep hact
    have hswitches := congrArg OracleStore.pauseSwitches (a.sameSetup ha).oracle
    rw [hgate.oracle] at hswitches
    exact hswitches.trans hs

/-- **The parameters of the interest rates are valid in every reachable state.** -/
theorem Reachable.rateValid (h : Reachable s) : RateValid s := by
  refine (h.invariant (I := fun s => Settled s ∧ RateValid s) ⟨.empty, nofun⟩
    fun s tx s' hstep hs => ⟨hs.1.step hstep, ?_⟩).2
  cases hact : tx.op.act s with
  | none => exact step_rates hstep hact hs.2
  | some a =>
    obtain ⟨t, hgate, ha⟩ := step_act hstep hact
    have hdormant : t.interest.lendingIndex = none := (hs.1.gate hgate).dormant
    rw [RateValid, getInterestRateConfig, (a.frame ha).dormant hdormant]
    rw [Gate] at hgate
    rw [hgate]
    exact hs.2

/-- **Fees are valid in every reachable state.** -/
theorem Reachable.feesValid (h : Reachable s) : FeesValid s := by
  refine h.invariant ⟨by decide, by decide⟩ fun s tx s' hstep hs => ?_
  cases hact : tx.op.act s with
  | none => exact (step_aside hstep hact).fees hs
  | some a =>
    obtain ⟨t, hgate, ha⟩ := step_act hstep hact
    rw [FeesValid, (a.sameSetup ha).fees]
    rw [Gate] at hgate
    rw [hgate]
    exact hs

/-! ## Who writes the records of the gateways -/

theorem Frame.sameGates (h : Frame s t) : SameGates s t := by
  rw [h.keys]
  exact ⟨rfl, rfl, rfl, rfl⟩

theorem Frame.rateLimits (h : Frame s t) : t.rateLimits = s.rateLimits := by rw [h.keys]

/-! ### The limiter -/

theorem consume_sameGates {caller user pool : Address} {op : String}
    (h : consume caller user op pool e s = .ok r s') : SameGates s s' := by
  obtain ⟨-, rfl⟩ | ⟨-, bucket, shared, -, -, rfl⟩ := consume_ok h
  · exact .refl _
  · exact ⟨rfl, rfl, rfl, rfl⟩

theorem limited_ok {caller user : Address} {op : String} {asset : Option Address} :
    limited caller user op asset e s = .ok r s' ↔
      consume caller user op (poolOf e asset) e s = .ok r s' := by
  simp only [limited, asks_seq, mapErr_ok]

/-! ### The calls without an act -/

/-- **A call without an act that makes or cancels no commit leaves what the gateways record.** -/
theorem step_sameGates {tx : Tx} (h : step tx s = some s') (ha : tx.op.act s = none)
    (hop : tx.op.onCommits = false) : SameGates s s' := by
  by_cases htreasury : tx.op.onTreasury = true
  · exact (treasury_aside h htreasury).2
  · exact (step_configured h ha hop (by simpa using htreasury)).toSameGates

end StellarLend.HelloWorld
