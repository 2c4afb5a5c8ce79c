import StellarLend.Foundations.History
import StellarLend.Foundations.Quorum
import StellarLend.Lending.Authority

/-!
# Lending/Delegation — identifiers and nonces used up, and delegated batches over a run

Two kinds of counter keep what was used once from being used again: the next commitment
identifier, and a nonce for each delegator.  Only the creation of a commitment moves the first and
only a delegated batch the second, and each by one (`step_counters`, `created_counters`).

A delegate acts for a delegator in batches, each under the delegator's next nonce.  The nonce is
advanced before the calls, and lost again with them if one of them fails, so the nonces used are
the first numbers, each once (`NoncesUsed`), and a batch is either all of its calls or none
(`batches_safe`).
-/

namespace StellarLend.Lending

open Foundations Call

section

variable {e : Env} {s t s' : Storage}

/-- The next commitment identifier and the nonces. -/
def Storage.counters (s : Storage) : Option ℕ × (Address → Option ℕ) := (s.nextId, s.nonce)

theorem Frame.counters (h : Frame s t) : t.counters = s.counters := by
  rw [Frame] at h
  rw [h]
  rfl

theorem Quiet.counters (h : Quiet s t) : t.counters = s.counters := by
  rw [Quiet] at h
  rw [h]
  rfl

theorem RefreshesRate.counters (h : RefreshesRate s t) : t.counters = s.counters := by
  obtain ⟨_, rfl⟩ := h.store
  rfl

/-- Acts leave the counters alone. -/
theorem chain_counters {acts : List Act} (h : chain (actStep e) s acts = some t) :
    t.counters = s.counters := by
  rw [← run_of_chain h]
  exact run_invariant (I := fun u => u.counters = s.counters)
    (fun _ _ _ ha hu => (actStep_frame ha).counters.trans hu) acts rfl

/-! ## Configuration -/

theorem RateModelUpdated.counters (h : RateModelUpdated e s s') : s'.counters = s.counters := by
  obtain ⟨_, _, -, rfl⟩ := h.store
  rfl

theorem Liquidated.counters {liquidator borrower : Address} {amount : ℤ}
    (h : Liquidated e s liquidator borrower amount s') : s'.counters = s.counters := by
  obtain ⟨_, _, u, -, -, -, hu, ⟨-, rfl⟩ | ⟨-, rfl⟩⟩ := h.store
  · exact hu.counters
  · exact hu.counters

/-! ## Every call -/

/-- **Only a creation of a commitment moves the next identifier, and only a batch a nonce.** -/
theorem step_counters {tx : Tx} (h : step tx s = some s') (hop : tx.op.creates = none) :
    s'.counters = (tx.op.start s).counters := by
  have hviews : tx.op.Views → s'.counters = s.counters := fun hv => (step_views h hv).counters
  rcases hd : tx.op.direct with _ | a
  · by_cases hg : tx.op.Guards
    · have hq : s'.counters = s.counters := (guards_quiet h hg).counters
      obtain ⟨e, op⟩ := tx
      cases op <;> first | exact absurd hg id | exact hq
    · obtain ⟨e, op⟩ := tx
      cases op <;> first | exact absurd trivial hg | skip
      all_goals
        simp only [step, Op.apply, commit_eq_some] at h
        obtain ⟨r, h⟩ := h
      case borrow | borrowWithRate | repay | repayWithRate | switchRateType | deposit
        | depositCollateral | withdraw => cases hd
      case executeDelegated => exact chain_counters (executeDelegated_ok h).store
      case executeBorrowCommitment =>
        obtain ⟨_, _, -, -, -, ht, rfl⟩ := (executeBorrowCommitment_ok h).store
        exact (actStep_frame ht).counters
      case receive =>
        obtain ⟨_, -, ht⟩ := receive_ok h
        exact (actStep_frame ht).counters
      case createBorrowCommitment => cases hop
      case cancelBorrowCommitment =>
        obtain ⟨_, -, rfl⟩ := cancelBorrowCommitment_ok h
        rfl
      case initializeProtocol =>
        obtain ⟨-, rfl⟩ := initializeProtocol_ok h
        rfl
      case initializeBorrowSettings =>
        obtain rfl := initializeBorrowSettings_store.mp h
        rfl
      case setStablecoinConfig =>
        obtain rfl := setStablecoinConfig_ok h
        rfl
      case updateInterestRateModel => exact (updateInterestRateModel_ok h).counters
      case setVariableBorrowRateBps => exact (setVariableBorrowRateBps_ok h).counters
      case getUserDebt | getUserDebtWithRate | getDebtBalance | getDebtValue | getHealthFactor
        | getUserPosition => exact hviews trivial
      case addBadDebt =>
        rw [addBadDebt_ok h]
        rfl
      case liquidate => exact (liquidate_ok h).counters
      case recoverBadDebt =>
        obtain ⟨-, -, -, rfl⟩ := recoverBadDebt_ok h
        rfl
  · obtain ⟨-, hstart⟩ := Op.direct_acts hd s
    rw [hstart]
    exact (actStep_frame (step_direct h hd).2.2).counters

/-- A creation takes the next identifier and leaves the nonces alone. -/
theorem CommitmentCreated.counters {owner : Address} (h : CommitmentCreated e s owner s') :
    s'.counters = (some (s.nextId.getD 0 + 1), s.nonce) := by
  obtain ⟨_, -, -, rfl⟩ := h.store
  rfl

end

/-! ## Delegated batches -/

section

variable {e : Env} {s t s' : Storage} {registry delegator delegate : Address}

/-! ## Batches -/

/-- A batch is its calls one after the other. -/
theorem executeCalls_append_ok {cs ds : List MetaCall} :
    executeCalls registry delegator delegate (cs ++ ds) e s = .ok () s' ↔
      ∃ t, executeCalls registry delegator delegate cs e s = .ok () t ∧
        executeCalls registry delegator delegate ds e t = .ok () s' := by
  induction cs generalizing s with
  | nil => simp [executeCalls]
  | cons c cs ih =>
    simp only [List.cons_append, executeCalls, bind_ok, ih]
    constructor
    · rintro ⟨a, u, hvalid, b, v, hact, t, hcs, hds⟩
      exact ⟨t, ⟨a, u, hvalid, b, v, hact, hcs⟩, hds⟩
    · rintro ⟨t, ⟨a, u, hvalid, b, v, hact, hcs⟩, hds⟩
      exact ⟨a, u, hvalid, b, v, hact, t, hcs, hds⟩

/-- **A call that fails makes its batch fail**, whatever the calls before it did. -/
theorem step_of_failed_call {tx : Tx} {nonce deadline : ℕ} {cs ds : List MetaCall} {c : MetaCall}
    (hop : tx.op = .executeDelegated delegator delegate nonce deadline (cs ++ c :: ds))
    (hregistry : s.delegationRegistry = some registry)
    (hcs : commit (executeCalls registry delegator delegate cs) tx.env
      (withNonce delegator (getNonce s delegator + 1) s) = some t)
    (hc : commit (executeCalls registry delegator delegate [c]) tx.env t = none) :
    step tx s = none := by
  rw [Option.eq_none_iff_forall_ne_some]
  intro s' hstep
  obtain ⟨e, op⟩ := tx
  obtain rfl : op = _ := hop
  obtain ⟨_, h⟩ := commit_eq_some.mp hstep
  obtain ⟨-, -, -, registry', hregistry', hcalls⟩ := executeDelegated_steps h
  obtain rfl : registry' = registry := Option.some.inj (hregistry'.symm.trans hregistry)
  obtain ⟨u, hfirst, hrest⟩ := executeCalls_append_ok.mp hcalls
  rw [← List.singleton_append, executeCalls_append_ok] at hrest
  obtain ⟨v, hlast, -⟩ := hrest
  obtain rfl : u = t := Option.some.inj ((commit_eq_some.mpr ⟨(), hfirst⟩).symm.trans hcs)
  rw [commit_eq_some.mpr ⟨(), hlast⟩] at hc
  cases hc

/-! ## Nonces -/

/-- The delegator and the nonce of a batch. -/
def Op.batchNonce : Op → Option (Address × ℕ)
  | .executeDelegated delegator _ nonce _ _ => some (delegator, nonce)
  | _ => none

/-- The nonces that the successful batches of a run used, first to last. -/
def usedNonces (txs : List Tx) : List (Address × ℕ) :=
  history step (fun _ tx => tx.op.batchNonce.toList) Storage.empty txs

/-- The nonces used for a delegator. -/
def noncesOf (delegator : Address) (used : List (Address × ℕ)) : List ℕ :=
  (used.filter fun p => p.1 = delegator).map Prod.snd

theorem mem_noncesOf {used : List (Address × ℕ)} {n : ℕ} :
    n ∈ noncesOf delegator used ↔ (delegator, n) ∈ used := by
  simp [noncesOf]

theorem noncesOf_snoc (d : Address) (used : List (Address × ℕ)) (p : Address × ℕ) :
    noncesOf d (used ++ [p]) = noncesOf d used ++ if p.1 = d then [p.2] else [] := by
  by_cases hp : p.1 = d <;> simp [noncesOf, hp]

/-- What a call does to the nonces: it uses the next one of a delegator, or it uses none. -/
theorem step_nonces {tx : Tx} (h : step tx s = some s') :
    (∃ d, tx.op.batchNonce = some (d, getNonce s d) ∧
      ∀ d', getNonce s' d' = if d' = d then getNonce s d + 1 else getNonce s d') ∨
    tx.op.batchNonce = none ∧ ∀ d, getNonce s' d = getNonce s d := by
  by_cases hcreates : tx.op.creates = none
  · have hnonce : s'.nonce = (tx.op.start s).nonce := congrArg Prod.snd (step_counters h hcreates)
    obtain ⟨e, op⟩ := tx
    cases op
    case executeDelegated d delegate nonce deadline calls =>
      obtain ⟨_, hbatch⟩ := commit_eq_some.mp h
      refine .inl ⟨d, ?_, fun d' => ?_⟩
      · rw [← (executeDelegated_ok hbatch).nonce_eq]
        rfl
      · rw [getNonce, hnonce]
        change (Function.update s.nonce d _ d').getD 0 = _
        rw [Function.update_apply]
        split <;> rfl
    all_goals exact .inr ⟨rfl, fun d => by rw [getNonce, hnonce]; rfl⟩
  · obtain ⟨e, op⟩ := tx
    cases op <;> first | exact absurd rfl hcreates | skip
    obtain ⟨_, hcreated⟩ := commit_eq_some.mp h
    have hnonce : s'.nonce = s.nonce :=
      congrArg Prod.snd (createBorrowCommitment_ok hcreated).counters
    exact .inr ⟨rfl, fun d => by rw [getNonce, hnonce]; rfl⟩

/-- The nonces used are the numbers below the next one, in order. -/
structure NoncesUsed (used : List (Address × ℕ)) (s : Storage) : Prop where
  range : ∀ d, noncesOf d used = List.range (getNonce s d)
  once : used.Nodup

theorem NoncesUsed.call {used : List (Address × ℕ)} {tx : Tx} (hu : NoncesUsed used s)
    (h : step tx s = some s') : NoncesUsed (used ++ tx.op.batchNonce.toList) s' := by
  rcases step_nonces h with ⟨d, hop, hnonce⟩ | ⟨hop, hnonce⟩
  · rw [hop, Option.toList_some]
    refine ⟨fun d' => ?_, nodup_snoc hu.once fun hmem => ?_⟩
    · rw [noncesOf_snoc, hu.range, hnonce]
      by_cases hd : d = d'
      · subst hd
        rw [if_pos rfl, if_pos rfl, List.range_succ]
      · rw [if_neg hd, if_neg (Ne.symm hd), List.append_nil]
    · -- a nonce used before is below the next one
      have hlt := mem_noncesOf.mpr hmem
      rw [hu.range, List.mem_range] at hlt
      exact absurd hlt (lt_irrefl _)
  · rw [hop, Option.toList_none, List.append_nil]
    exact ⟨fun d => by rw [hu.range, hnonce], hu.once⟩

theorem noncesUsed (txs : List Tx) : NoncesUsed (usedNonces txs) (ledger txs) :=
  history_invariant (h := []) (fun _ _ _ _ hx hu => hu.call hx) txs
    ⟨fun _ => rfl, List.nodup_nil⟩

/-! ## Every run -/

/-- In the run, every nonce of a delegator is used once and in order, and a batch is either
validated in full and all of its calls, or changes nothing. -/
structure BatchesSafe (txs : List Tx) : Prop where
  once : (usedNonces txs).Nodup
  in_order : ∀ delegator,
    noncesOf delegator (usedNonces txs) = List.range (getNonce (ledger txs) delegator)
  all_or_none : ∀ ys tx zs delegator delegate nonce deadline calls, txs = ys ++ tx :: zs →
    tx.op = .executeDelegated delegator delegate nonce deadline calls →
    BatchExecuted tx.env (ledger ys) delegator delegate nonce deadline calls
      (ledger (ys ++ [tx])) ∨
    step tx (ledger ys) = none ∧ ledger (ys ++ [tx]) = ledger ys
  failed : ∀ ys tx zs delegator delegate nonce deadline cs c ds registry t, txs = ys ++ tx :: zs →
    tx.op = .executeDelegated delegator delegate nonce deadline (cs ++ c :: ds) →
    (ledger ys).delegationRegistry = some registry →
    commit (executeCalls registry delegator delegate cs) tx.env
      (withNonce delegator (getNonce (ledger ys) delegator + 1) (ledger ys)) = some t →
    commit (executeCalls registry delegator delegate [c]) tx.env t = none →
    ledger (ys ++ [tx]) = ledger ys

/-- **Delegated batches are safe in every run.** -/
theorem batches_safe (txs : List Tx) : BatchesSafe txs where
  once := (noncesUsed txs).once
  in_order := (noncesUsed txs).range
  all_or_none := by
    rintro ys ⟨e, op⟩ zs delegator delegate nonce deadline calls - hop
    obtain rfl : op = _ := hop
    rw [ledger_snoc]
    cases hstep : step _ (ledger ys) with
    | none => exact .inr ⟨rfl, exec_of_none hstep⟩
    | some s' =>
      obtain ⟨_, hbatch⟩ := commit_eq_some.mp hstep
      rw [exec_of_some hstep]
      exact .inl (executeDelegated_ok hbatch)
  failed := by
    rintro ys tx zs delegator delegate nonce deadline cs c ds registry t - hop hregistry hcs hc
    rw [ledger_snoc]
    exact exec_of_none (step_of_failed_call hop hregistry hcs hc)

namespace Sample

def delegationRegistry : Address := ⟨30⟩

/-- A call at a time that finds a registry where Alice has delegated to Bob some actions. -/
def envDelegated (now : ℕ) (auths : List Address) (permissions : List ℕ) : Env :=
  { envAt now auths with
    validate := fun _ delegator delegate permission =>
      some (delegator = alice ∧ delegate = bob ∧ permission ∈ permissions) }

/-- Bob may deposit for Alice but not borrow.  He sends a batch that does both, one that only
deposits, and that one again. -/
def delegated : List Tx :=
  [deploy, ⟨envAt 0 [admin], .setDelegationRegistry admin
      delegationRegistry⟩,
    ⟨envDelegated 1 [bob] [16], .executeDelegated alice bob 0 0
      [⟨.depositCollateral, xlm, 50000, none, none⟩,
        ⟨.borrow, usdc, 10000, some xlm, some 20000⟩]⟩,
    ⟨envDelegated 2 [bob] [16], .executeDelegated alice bob 0 0
      [⟨.depositCollateral, xlm, 50000, none, none⟩]⟩,
    ⟨envDelegated 3 [bob] [16], .executeDelegated alice bob 0 0
      [⟨.depositCollateral, xlm, 50000, none, none⟩]⟩]

end Sample

example : usedNonces Sample.delegated = [(Sample.alice, 0)] ∧
    getCollateralPosition (ledger Sample.delegated) Sample.alice = ⟨50000, Sample.xlm⟩ := by
  decide

end

end StellarLend.Lending
