import Mathlib.Data.Sym.Sym2
import StellarLend.Bridge.Accounting
import StellarLend.Bridge.Registry
import StellarLend.Foundations.History

/-!
# Bridge/Slashing — a pair of messages reported again

    register ──▸ stake ──slash──▸ slashedTotal

Slashing moves stake into the total slashed and loses nothing of it (`staked_ledger`).  A report
invalidates the two messages and the next report does not look: whoever approved both is slashed
again at every report of the pair, in whichever order it names them.
-/

namespace StellarLend.Bridge

open Foundations Call
open Lending (Address)

variable {e : Env} {s s' t : Storage} {tx : Tx} {txs : List Tx} {v : Address} {pair : Sym2 ℕ}

/-! ## What a run should keep -/

/-- The stake a transaction names. -/
def Op.stake : Op → ℤ
  | .registerValidator _ _ stake => stake
  | _ => 0

/-- The stake is an `i128`. -/
def Op.Typed (op : Op) : Prop := I128.Holds op.stake

instance : DecidablePred Op.Typed := fun op => inferInstanceAs (Decidable (I128.Holds op.stake))

/-- The stake a transaction registers a validator with. -/
def Op.registration (v : Address) : Op → ℤ
  | .registerValidator _ u stake => if u = v then stake else 0
  | _ => 0

/-- The stake a validator was registered with. -/
def registeredStake (v : Address) (txs : List Tx) : ℤ :=
  tally step (fun _ tx => tx.op.registration v) Storage.empty txs

/-- How often a transaction slashes a validator for a pair of messages. -/
def slashingsBy (v : Address) (pair : Sym2 ℕ) (s : Storage) (tx : Tx) : ℕ :=
  match tx.op with
  | .slashConflictingMessages caller first second =>
    if s(first, second) = pair then
      ((slashConflictingMessages caller first second tx.env s).value.getD []).count v
    else 0
  | _ => 0

/-- How often a validator is slashed for a pair of messages along a run. -/
def slashings (v : Address) (pair : Sym2 ℕ) (txs : List Tx) : ℕ :=
  tally step (slashingsBy v pair) Storage.empty txs

/-- The pair of messages a transaction reports. -/
def reportedBy (_ : Storage) (tx : Tx) : List (Sym2 ℕ) :=
  match tx.op with
  | .slashConflictingMessages _ first second => [s(first, second)]
  | _ => []

/-- The pairs of messages reported along a run, one for each report that succeeded. -/
def reports (txs : List Tx) : List (Sym2 ℕ) := history step reportedBy Storage.empty txs

/-- What a validator has and what it lost are what it was registered with. -/
structure Staked (txs : List Tx) : Prop where
  total : ∀ v record, (ledger txs).validator v = some record →
    record.stake + record.slashedTotal = registeredStake v txs
  nonneg : ∀ v record, (ledger txs).validator v = some record → 0 ≤ record.stake

/-- No stake is lost, and no validator is slashed twice for one pair. -/
structure SlashingSound (txs : List Tx) : Prop extends Staked txs where
  once : ∀ v pair, slashings v pair txs ≤ 1

/-! ## What is slashed of a stake -/

/-- **A slashing takes no more than there is.** -/
theorem slashAmount_le {stake : ℤ} {slashBps : ℕ} (hstake : 0 ≤ stake) (hbps : slashBps ≤ 10000) :
    0 ≤ slashAmount stake slashBps ∧ slashAmount stake slashBps ≤ stake := by
  have hproduct : 0 ≤ stake * slashBps := mul_nonneg hstake (Int.natCast_nonneg slashBps)
  have hclamp : 0 ≤ I128.saturatingMul stake slashBps ∧
      I128.saturatingMul stake slashBps ≤ stake * slashBps :=
    ⟨le_max_of_le_right (le_min (by decide) hproduct),
      max_le (hproduct.trans' (by decide)) (min_le_right _ _)⟩
  have hquotient : 0 ≤ (I128.saturatingMul stake slashBps).tdiv 10000 ∧
      (I128.saturatingMul stake slashBps).tdiv 10000 ≤ stake := by
    have hrate : stake * slashBps ≤ stake * 10000 :=
      mul_le_mul_of_nonneg_left (by exact_mod_cast hbps) hstake
    rw [Int.tdiv_eq_ediv_of_nonneg hclamp.1]
    exact ⟨Int.ediv_nonneg hclamp.1 (by decide),
      Int.ediv_le_of_le_mul (by decide) (hclamp.2.trans hrate)⟩
  simp only [slashAmount]
  split
  case isTrue hsmall => exact ⟨zero_le_one, hsmall.2⟩
  case isFalse => exact hquotient

/-- What a validator has and what it lost, neither negative, are so much together. -/
structure ValidatorRecord.Holds (r : ValidatorRecord) (m : ℤ) : Prop where
  stake : 0 ≤ r.stake
  slashed : 0 ≤ r.slashedTotal
  total : r.stake + r.slashedTotal = m

/-- **A slashing moves stake and loses none of it.** -/
theorem ValidatorRecord.Holds.of_slashed {r : ValidatorRecord} {m : ℤ} {slashBps : ℕ}
    (h : r.Holds m) (hmax : m ≤ I128.MAX) (hbps : slashBps ≤ 10000) :
    (r.slashed slashBps).Holds m := by
  obtain ⟨hstake, htotal, hm⟩ := h
  obtain ⟨hnonneg, hle⟩ := slashAmount_le hstake hbps
  have hlo : I128.lo ≤ 0 := by decide
  have hMAX : I128.MAX = I128.hi := rfl
  have hleft : (r.slashed slashBps).stake = r.stake - slashAmount r.stake slashBps :=
    (congrArg (max _) (min_eq_right (by omega))).trans (max_eq_right (by omega))
  have hlost : (r.slashed slashBps).slashedTotal =
      r.slashedTotal + slashAmount r.stake slashBps :=
    (congrArg (max _) (min_eq_right (by omega))).trans (max_eq_right (by omega))
  exact ⟨by omega, by omega, by omega⟩

/-! ## The rate of slashing -/

/-- The rate of slashing is one the contract admits. -/
def RateBounded (s : Storage) : Prop := (loadSecurityConfig s).slashBps ≤ 10000

theorem RateBounded.of_same (hs : RateBounded s) (h : s'.securityConfig = s.securityConfig) :
    RateBounded s' := by
  rw [RateBounded, loadSecurityConfig, h]
  exact hs

theorem securityConfig_recordChannelAnomaly (channelId reason : String) (s : Storage) :
    (recordChannelAnomaly channelId reason s).securityConfig = s.securityConfig := by
  obtain ⟨stats, hafter⟩ := recordChannelAnomaly_eq channelId reason s
  rw [hafter]
  rfl

section Configured

variable {caller sender recipient admin newAdmin : Address} {bridgeId networkId channelId : String}
  {reason : String} {feeBps : ℕ} {minAmount amount net : ℤ} {active paused : Bool} {u : Unit}

theorem init_rateBounded (h : init admin e s = .ok u s') : RateBounded s' := by
  simp only [init, view_seq, failIf_seq, store_ok] at h
  obtain ⟨_, _, -, _, _, -, rfl⟩ := h
  exact (by decide : DEFAULT_SLASH_BPS ≤ 10000)

theorem setBridgeSecurityConfig_rateBounded {cfg : SecurityConfig}
    (h : setBridgeSecurityConfig caller cfg e s = .ok u s') : RateBounded s' := by
  simp only [setBridgeSecurityConfig, validateSecurityConfig, bind_ok, requireAdmin_ok, failIf_ok,
    store_ok, not_or, not_lt] at h
  obtain ⟨_, _, -, _, _, ⟨⟨-, -, -, -, hrate, -⟩, -⟩, rfl⟩ := h
  exact hrate

theorem registerBridge_securityConfig
    (h : registerBridge caller bridgeId feeBps minAmount e s = .ok u s') :
    s'.securityConfig = s.securityConfig := by
  simp only [registerBridge, validateId, requireAdmin_seq, failIf_seq, view_seq, store_seq,
    store_ok] at h
  obtain ⟨-, -, -, -, -, -, rfl⟩ := h
  rfl

theorem setBridgeFee_securityConfig (h : setBridgeFee caller bridgeId feeBps e s = .ok u s') :
    s'.securityConfig = s.securityConfig := by
  simp only [setBridgeFee, requireAdmin_seq, failIf_seq, loadBridge_seq, store_ok] at h
  obtain ⟨-, -, -, _, -, rfl⟩ := h
  rfl

theorem setBridgeActive_securityConfig
    (h : setBridgeActive caller bridgeId active e s = .ok u s') :
    s'.securityConfig = s.securityConfig := by
  simp only [setBridgeActive, requireAdmin_seq, loadBridge_seq, store_ok] at h
  obtain ⟨-, -, _, -, rfl⟩ := h
  rfl

theorem bridgeDeposit_securityConfig
    (h : bridgeDeposit sender bridgeId amount e s = .ok net s') :
    s'.securityConfig = s.securityConfig := by
  simp only [bridgeDeposit, requireAuth_seq, view_seq, failIf_seq, loadBridge_seq, orTrap_seq,
    okOr_seq, store_seq, pure_ok] at h
  obtain ⟨-, -, -, _, -, -, -, _, -, _, -, _, -, -, rfl⟩ := h
  rfl

theorem bridgeWithdraw_securityConfig
    (h : bridgeWithdraw caller bridgeId recipient amount e s = .ok u s') :
    s'.securityConfig = s.securityConfig := by
  simp only [bridgeWithdraw, requireAdmin_seq, failIf_seq, loadBridge_seq, okOr_seq, store_ok] at h
  obtain ⟨-, -, -, _, -, -, _, -, rfl⟩ := h
  rfl

theorem setBridgeAcceptancePaused_securityConfig
    (h : setBridgeAcceptancePaused caller paused e s = .ok u s') :
    s'.securityConfig = s.securityConfig := by
  simp only [setBridgeAcceptancePaused, requireAdmin_seq, store_ok] at h
  obtain ⟨_, _, ⟨-, -, rfl⟩, rfl⟩ := h
  rfl

theorem closeChannelEmergency_securityConfig
    (h : closeChannelEmergency caller channelId reason e s = .ok u s') :
    s'.securityConfig = s.securityConfig := by
  simp only [closeChannelEmergency, requireAdmin_seq, view_seq, store_seq, store_ok] at h
  obtain ⟨_, _, ⟨-, -, rfl⟩, _, _, ⟨-, rfl⟩, _, _, rfl, rfl⟩ := h
  rfl

theorem reopenChannel_securityConfig (h : reopenChannel caller channelId e s = .ok u s') :
    s'.securityConfig = s.securityConfig := by
  simp only [reopenChannel, requireAdmin_seq, view_seq, store_ok] at h
  obtain ⟨_, _, ⟨-, -, rfl⟩, _, _, ⟨-, rfl⟩, rfl⟩ := h
  rfl

theorem transferAdmin_securityConfig (h : transferAdmin caller newAdmin e s = .ok u s') :
    s'.securityConfig = s.securityConfig := by
  simp only [transferAdmin, requireAdmin_seq, store_ok] at h
  obtain ⟨_, _, ⟨-, -, rfl⟩, rfl⟩ := h
  rfl

end Configured

/-- **Every step keeps the rate in bounds.** -/
theorem RateBounded.step (hs : RateBounded s) (hstep : step tx s = some s') : RateBounded s' := by
  have heffect := step_effect hstep
  obtain ⟨e, op⟩ := tx
  cases op <;> simp only [Bridge.step, commit_eq_some] at hstep <;> obtain ⟨a, h⟩ := hstep
  case init => exact init_rateBounded h
  case setBridgeSecurityConfig => exact setBridgeSecurityConfig_rateBounded h
  case registerBridge => exact hs.of_same (registerBridge_securityConfig h)
  case setBridgeFee => exact hs.of_same (setBridgeFee_securityConfig h)
  case setBridgeActive => exact hs.of_same (setBridgeActive_securityConfig h)
  case bridgeDeposit => exact hs.of_same (bridgeDeposit_securityConfig h)
  case bridgeWithdraw => exact hs.of_same (bridgeWithdraw_securityConfig h)
  case setBridgeAcceptancePaused =>
    exact hs.of_same (setBridgeAcceptancePaused_securityConfig h)
  case closeChannelEmergency => exact hs.of_same (closeChannelEmergency_securityConfig h)
  case reopenChannel => exact hs.of_same (reopenChannel_securityConfig h)
  case transferAdmin => exact hs.of_same (transferAdmin_securityConfig h)
  case registerValidator =>
    rw [heffect.after]
    exact hs
  case setValidatorActive =>
    obtain ⟨record, h⟩ := heffect
    rw [h.after]
    exact hs
  case submitCrossChainMessage =>
    obtain ⟨stats, rfl⟩ := Submitted.written heffect
    exact hs
  case attestCrossChainMessage validator messageId approve =>
    obtain ⟨record, message, h⟩ := heffect
    refine hs.of_same ?_
    rw [h.after]
    cases approve with
    | true => rfl
    | false => exact securityConfig_recordChannelAnomaly message.channelId "validator_rejection" _
  case executeVerifiedWithdrawal =>
    obtain ⟨message, bridge, h⟩ := heffect
    rw [h.after]
    exact hs
  case slashConflictingMessages =>
    obtain ⟨first, second, slashed, t, h⟩ := heffect
    refine hs.of_same ?_
    rw [h.after, securityConfig_recordChannelAnomaly, h.loop.frame]
    rfl

/-! ## The stake along a run -/

/-- What every step keeps of a validator registered with the stake `m`, or with none. -/
structure Staking (v : Address) (m : ℤ) (s : Storage) : Prop where
  registry : Registry s
  rate : RateBounded s
  bounded : m ≤ I128.MAX
  absent : s.validator v = none → m = 0
  present : ∀ r, s.validator v = some r → r.Holds m

theorem Staking.empty (v : Address) : Staking v 0 Storage.empty :=
  ⟨Registry.empty, (by decide : DEFAULT_SLASH_BPS ≤ 10000), by decide, fun _ => rfl, nofun⟩

variable {m : ℤ}

/-- The record of a validator is rewritten and holds as much, or is not there. -/
theorem Staking.rewritten (hs : Staking v m s) (hstep : step tx s = some s')
    (hnew : tx.op.registration v = 0) (f : ValidatorRecord → ValidatorRecord)
    (hf : ∀ r : ValidatorRecord, r.Holds m → (f r).Holds m)
    (h : s'.validator v = (s.validator v).map f) : Staking v (m + tx.op.registration v) s' := by
  rw [hnew, add_zero]
  refine ⟨hs.registry.step hstep, hs.rate.step hstep, hs.bounded, fun hnone => ?_,
    fun r hr => ?_⟩
  · rw [h, Option.map_eq_none_iff] at hnone
    exact hs.absent hnone
  · rw [h, Option.map_eq_some_iff] at hr
    obtain ⟨r', hr', rfl⟩ := hr
    exact hf r' (hs.present r' hr')

theorem Staking.unchanged (hs : Staking v m s) (hstep : step tx s = some s')
    (hnew : tx.op.registration v = 0) (h : s'.validator v = s.validator v) :
    Staking v (m + tx.op.registration v) s' :=
  hs.rewritten hstep hnew id (fun _ hr => hr) (by rw [h, Option.map_id, id])

theorem Staking.registered {caller u : Address} {stake : ℤ} (hs : Staking v m s)
    (hstep : step ⟨e, .registerValidator caller u stake⟩ s = some s') (hstake : I128.Holds stake)
    (h : Registered s u stake s') : Staking v (m + if u = v then stake else 0) s' := by
  have hafter : s'.validator v = Function.update s.validator u (some ⟨stake, true, 0, 0⟩) v := by
    rw [h.after]
    rfl
  by_cases hu : u = v
  · obtain rfl := hu
    rw [if_pos rfl, hs.absent h.fresh, zero_add]
    rw [Function.update_self] at hafter
    refine ⟨hs.registry.step hstep, hs.rate.step hstep, hstake.2, fun hnone => ?_, fun r hr => ?_⟩
    · rw [hafter] at hnone
      cases hnone
    · obtain rfl := Option.some.inj (hafter.symm.trans hr)
      exact ⟨h.stake_pos.le, le_rfl, add_zero stake⟩
  · rw [Function.update_of_ne (Ne.symm hu)] at hafter
    exact hs.unchanged hstep (if_neg hu) hafter

/-- **Every step keeps what a validator has and what it lost together.** -/
theorem Staking.step (hs : Staking v m s) (htyped : tx.op.Typed)
    (hstep : step tx s = some s') : Staking v (m + tx.op.registration v) s' := by
  have heffect := step_effect hstep
  obtain ⟨e, op⟩ := tx
  cases op
  case registerValidator => exact hs.registered hstep htyped heffect
  case setValidatorActive caller u active =>
    obtain ⟨record, h⟩ := heffect
    have hafter : s'.validator v =
        Function.update s.validator u (some { record with active := active }) v := by
      rw [h.after]
      rfl
    by_cases hu : v = u
    · rw [hu, Function.update_self] at hafter
      refine hs.rewritten hstep rfl (fun r => { r with active := active })
        (fun r hr => ⟨hr.stake, hr.slashed, hr.total⟩) ?_
      rw [hu, hafter, h.record_eq]
      rfl
    · rw [Function.update_of_ne hu] at hafter
      exact hs.unchanged hstep rfl hafter
  case attestCrossChainMessage =>
    obtain ⟨record, message, h⟩ := heffect
    obtain ⟨f, hf⟩ := h.validators v
    exact hs.rewritten hstep rfl (fun r => { r with approvals := f r.approvals })
      (fun r hr => ⟨hr.stake, hr.slashed, hr.total⟩) hf
  case slashConflictingMessages =>
    obtain ⟨first, second, slashed, t, h⟩ := heffect
    have hvalidator : s'.validator v = t.validator v := congrFun h.frame.validator v
    rw [h.loop.validator hs.registry.nodup v] at hvalidator
    split at hvalidator
    · exact hs.rewritten hstep rfl _ (fun r hr => hr.of_slashed hs.bounded hs.rate) hvalidator
    · exact hs.unchanged hstep rfl hvalidator
  case bridgeWithdraw => exact hs.unchanged hstep rfl (congrFun heffect.validator v)
  case submitCrossChainMessage =>
    obtain ⟨stats, rfl⟩ := Submitted.written heffect
    exact hs.unchanged hstep rfl rfl
  case executeVerifiedWithdrawal =>
    obtain ⟨message, bridge, h⟩ := heffect
    exact hs.unchanged hstep rfl (by rw [h.after]; rfl)
  all_goals
    have h := SameMessages.validator (Administered.toSameMessages heffect)
    exact hs.unchanged hstep rfl (congrFun h v)

/-- **No stake is lost in any run.** -/
theorem staked_ledger (htyped : ∀ tx ∈ txs, tx.op.Typed) : Staked txs := by
  have hstaking : ∀ v, Staking v (registeredStake v txs) (ledger txs) := by
    intro v
    have hmeets : Meets Bridge.step (fun _ tx => tx.op.Typed) Storage.empty txs :=
      meets_of_forall fun tx htx _ => htyped tx htx
    have hrun := hmeets.tally_invariant (f := fun _ tx => tx.op.registration v) (I := Staking v)
      (fun m s tx s' hstep hC hI => hI.step hC hstep) (Staking.empty v)
    rwa [zero_add] at hrun
  exact ⟨fun v r hr => ((hstaking v).present r hr).total,
    fun v r hr => ((hstaking v).present r hr).stake⟩

/-! ## Votes stay -/

/-- The validator approved every message of the pair. -/
def Approved (s : Storage) (pair : Sym2 ℕ) (v : Address) : Prop :=
  ∀ id ∈ pair, s.messageAttestation id v = some true

theorem approved_mk {first second : ℕ} :
    Approved s s(first, second) v ↔ ApprovedBoth s first second v := by
  simp [Approved, ApprovedBoth]

/-- **A vote is never taken back.** -/
theorem vote_kept (hstep : step tx s = some s') {id : ℕ} {b : Bool}
    (h : s.messageAttestation id v = some b) : s'.messageAttestation id v = some b := by
  have heffect := step_effect hstep
  obtain ⟨e, op⟩ := tx
  cases op
  case attestCrossChainMessage validator messageId approve =>
    obtain ⟨record, message, hattested⟩ := heffect
    rw [hattested.attestations]
    by_cases hid : id = messageId
    · by_cases hv : v = validator
      · rw [hid, hv, hattested.fresh] at h
        cases h
      · rw [hid, Function.update_self, Function.update_of_ne hv, ← hid, h]
    · rw [Function.update_of_ne hid, h]
  case bridgeWithdraw => rw [heffect.attestation, h]
  case registerValidator => rw [heffect.after]; exact h
  case setValidatorActive =>
    obtain ⟨record, hswitched⟩ := heffect
    rw [hswitched.after]
    exact h
  case submitCrossChainMessage => rw [Submitted.attestations heffect, h]
  case executeVerifiedWithdrawal =>
    obtain ⟨message, bridge, hexecuted⟩ := heffect
    rw [hexecuted.after]
    exact h
  case slashConflictingMessages =>
    obtain ⟨first, second, slashed, t, hslashed⟩ := heffect
    rw [hslashed.frame.attestation]
    exact h
  all_goals rw [SameMessages.attestation (Administered.toSameMessages heffect), h]

theorem Approved.step (h : Approved s pair v) (hstep : step tx s = some s') :
    Approved s' pair v := fun id hid => vote_kept hstep (h id hid)

/-! ## One report -/

/-- A call that is no report reports nothing and slashes nobody. -/
theorem reportedBy_cases (s : Storage) (tx : Tx) : reportedBy s tx = [] ∧
    (∀ v pair, slashingsBy v pair s tx = 0) ∨
      ∃ caller first second, tx.op = .slashConflictingMessages caller first second := by
  obtain ⟨e, op⟩ := tx
  cases op
  case slashConflictingMessages caller first second => exact .inr ⟨caller, first, second, rfl⟩
  all_goals exact .inl ⟨rfl, fun _ _ => rfl⟩

/-- **A report slashes whoever approved both messages, once.** -/
theorem report_slashes (hs : Registry s) {caller : Address} {first second : ℕ}
    (hstep : step ⟨e, .slashConflictingMessages caller first second⟩ s = some s') :
    ∃ slashed : List Address, slashed.Nodup ∧
      (∀ v, v ∈ slashed ↔ Approved s s(first, second) v) ∧
      ∀ v pair, slashingsBy v pair s ⟨e, .slashConflictingMessages caller first second⟩ =
        if s(first, second) = pair then slashed.count v else 0 := by
  obtain ⟨slashed, h⟩ := commit_eq_some.mp hstep
  obtain ⟨m, m', t, hslashed⟩ := slashConflictingMessages_effect h
  refine ⟨slashed, hslashed.loop.slashed_eq ▸ hs.nodup.filter _, fun v => ?_, fun v pair => ?_⟩
  · rw [hslashed.loop.slashed_eq, List.mem_filter, decide_eq_true_eq, approved_mk]
    refine ⟨And.right, fun hboth => ⟨(hs.listed v).mpr (hs.voter first v ?_), hboth⟩⟩
    rw [hboth.1]
    rfl
  · change (if s(first, second) = pair then
      ((slashConflictingMessages caller first second e s).value.getD []).count v else 0) = _
    rw [show slashConflictingMessages caller first second e s = _ from h]
    rfl

/-- Whoever approved both messages is slashed by their report. -/
theorem slashingsBy_of_approved (hs : Registry s) (hstep : step tx s = some s')
    (hpair : pair ∈ reportedBy s tx) (hv : Approved s pair v) : slashingsBy v pair s tx = 1 := by
  obtain ⟨hnone, -⟩ | ⟨caller, first, second, hop⟩ := reportedBy_cases s tx
  · rw [hnone] at hpair
    cases hpair
  · obtain ⟨e, op⟩ := tx
    obtain rfl := hop
    obtain rfl := List.mem_singleton.mp hpair
    obtain ⟨slashed, hnodup, hmem, hcount⟩ := report_slashes hs hstep
    rw [hcount, if_pos rfl]
    exact List.count_eq_one_of_mem hnodup ((hmem v).mpr hv)

/-- Nobody is slashed more often than the pair is reported. -/
theorem slashingsBy_le (hs : Registry s) (hstep : step tx s = some s') (v : Address)
    (pair : Sym2 ℕ) : slashingsBy v pair s tx ≤ (reportedBy s tx).count pair := by
  obtain ⟨-, hzero⟩ | ⟨caller, first, second, hop⟩ := reportedBy_cases s tx
  · rw [hzero]
    exact Nat.zero_le _
  · obtain ⟨e, op⟩ := tx
    obtain rfl := hop
    obtain ⟨slashed, hnodup, -, hcount⟩ := report_slashes hs hstep
    rw [hcount]
    split
    case isTrue hpair =>
      refine (List.nodup_iff_count_le_one.mp hnodup v).trans ?_
      exact List.count_pos_iff.mpr (List.mem_singleton.mpr hpair.symm)
    case isFalse => exact Nat.zero_le _

/-- Somebody approved both messages of a report that succeeds. -/
theorem exists_approved (hstep : step tx s = some s') (hpair : pair ∈ reportedBy s tx) :
    ∃ v, Approved s pair v := by
  obtain ⟨hnone, -⟩ | ⟨caller, first, second, hop⟩ := reportedBy_cases s tx
  · rw [hnone] at hpair
    cases hpair
  · have heffect := step_effect hstep
    obtain ⟨e, op⟩ := tx
    obtain rfl := hop
    obtain rfl := List.mem_singleton.mp hpair
    obtain ⟨m, m', slashed, t, h⟩ := heffect
    obtain ⟨v, hv⟩ := List.exists_mem_of_ne_nil slashed h.nonempty
    rw [h.loop.slashed_eq, List.mem_filter, decide_eq_true_eq] at hv
    exact ⟨v, approved_mk.mpr hv.2⟩

/-! ## Reports along a run -/

theorem slashings_snoc (h : step tx (ledger txs) = some s') (v : Address) (pair : Sym2 ℕ) :
    slashings v pair (txs ++ [tx]) =
      slashings v pair txs + slashingsBy v pair (ledger txs) tx := by
  rw [slashings, tally_append, tally_cons, tally_nil, add_zero, if_pos (by rw [← ledger, h]; rfl)]
  rfl

theorem reports_snoc (h : step tx (ledger txs) = some s') :
    reports (txs ++ [tx]) = reports txs ++ reportedBy (ledger txs) tx := history_snoc reportedBy h

theorem ledger_of_some (h : step tx (ledger txs) = some s') : ledger (txs ++ [tx]) = s' := by
  rw [ledger_snoc, exec_of_some h]

/-- A step that fails leaves everything at what it was. -/
theorem snoc_of_none (h : step tx (ledger txs) = none) : ledger (txs ++ [tx]) = ledger txs ∧
    reports (txs ++ [tx]) = reports txs ∧
      ∀ v pair, slashings v pair (txs ++ [tx]) = slashings v pair txs := by
  refine ⟨by rw [ledger_snoc, exec_of_none h], ?_, fun v pair => ?_⟩
  · rw [reports, history_append, ← ledger, history_cons_of_none [] h, history_nil,
      List.append_nil]
    rfl
  · rw [slashings, tally_append, tally_cons, tally_nil, if_neg (by rw [← ledger, h]; decide)]
    rfl

/-- **Whoever approved both messages of a reported pair was slashed for it**, and there is
someone. -/
theorem slashed_of_reported (h : pair ∈ reports txs) :
    ∃ v, 1 ≤ slashings v pair txs ∧ Approved (ledger txs) pair v := by
  induction txs using List.reverseRecOn with
  | nil => cases h
  | append_singleton txs tx ih =>
    cases hstep : step tx (ledger txs) with
    | none =>
      obtain ⟨hledger, hreports, hslashings⟩ := snoc_of_none hstep
      simp only [hledger, hslashings]
      exact ih (hreports ▸ h)
    | some s' =>
      rw [reports_snoc hstep, List.mem_append] at h
      simp only [ledger_of_some hstep, slashings_snoc hstep]
      obtain hold | hnew := h
      · obtain ⟨v, hv, happroved⟩ := ih hold
        exact ⟨v, hv.trans (Nat.le_add_right _ _), happroved.step hstep⟩
      · obtain ⟨v, hv⟩ := exists_approved hstep hnew
        rw [← slashingsBy_of_approved (registry_ledger txs) hstep hnew hv]
        exact ⟨v, Nat.le_add_left _ _, hv.step hstep⟩

/-- **Nobody is slashed more often than the pair is reported.** -/
theorem slashings_le (v : Address) (pair : Sym2 ℕ) (txs : List Tx) :
    slashings v pair txs ≤ (reports txs).count pair := by
  induction txs using List.reverseRecOn with
  | nil => exact le_rfl
  | append_singleton txs tx ih =>
    cases hstep : step tx (ledger txs) with
    | none =>
      obtain ⟨-, hreports, hslashings⟩ := snoc_of_none hstep
      rwa [hreports, hslashings]
    | some s' =>
      rw [reports_snoc hstep, slashings_snoc hstep, List.count_append]
      exact add_le_add ih (slashingsBy_le (registry_ledger txs) hstep v pair)

/-- A run that slashes nobody twice for a pair reports no pair twice. -/
theorem nodup_reports (h : ∀ past, past <+: txs → ∀ v pair, slashings v pair past ≤ 1) :
    (reports txs).Nodup := by
  induction txs using List.reverseRecOn with
  | nil => exact List.nodup_nil
  | append_singleton txs tx ih =>
    have hnodup := ih fun past hpast => h past (hpast.trans (List.prefix_append _ _))
    cases hstep : step tx (ledger txs) with
    | none =>
      rw [(snoc_of_none hstep).2.1]
      exact hnodup
    | some s' =>
      have hfresh : ∀ pair ∈ reportedBy (ledger txs) tx, pair ∉ reports txs := by
        intro pair hnew hold
        obtain ⟨v, hslashed, happroved⟩ := slashed_of_reported hold
        have honce := h _ List.prefix_rfl v pair
        rw [slashings_snoc hstep,
          slashingsBy_of_approved (registry_ledger txs) hstep hnew happroved] at honce
        omega
      rw [reports_snoc hstep]
      obtain ⟨hnone, -⟩ | ⟨caller, first, second, hop⟩ := reportedBy_cases (ledger txs) tx
      · rwa [hnone, List.append_nil]
      · rw [reportedBy, hop] at hfresh ⊢
        exact nodup_snoc hnodup (hfresh _ (List.mem_singleton_self _))

/-- **No stake is lost and nobody is slashed twice for one pair, in every state of a run, if and
only if no pair is reported twice.** -/
theorem slashing_sound_iff (txs : List Tx) (htyped : ∀ tx ∈ txs, tx.op.Typed) :
    (∀ past, past <+: txs → SlashingSound past) ↔ (reports txs).Nodup := by
  constructor
  · exact fun h => nodup_reports fun past hpast => (h past hpast).once
  · rintro h past ⟨rest, rfl⟩
    refine ⟨staked_ledger fun tx htx => htyped tx (List.mem_append_left rest htx),
      fun v pair => (slashings_le v pair past).trans ?_⟩
    rw [reports, history_append] at h
    exact List.nodup_iff_count_le_one.mp h.of_append_left pair

namespace Sample

/-- Anyone reports the two messages. -/
def report (first second : ℕ) : Tx :=
  ⟨⟨3, [alice]⟩, .slashConflictingMessages alice first second⟩

/-- Carol approves two messages about one transaction of the source, and is reported for it. -/
def reportedOnce : List Tx :=
  deploy ++ [submit "a" 1, submit "a" 2, vote carol 1, vote carol 2, report 1 2]

/-- The two messages are reported again, in the other order. -/
def reportedTwice : List Tx := reportedOnce ++ [report 2 1]

/-- One report is as it should be. -/
theorem slashing_sound_once : SlashingSound reportedOnce :=
  (slashing_sound_iff reportedOnce (by decide)).mpr (by decide) reportedOnce
    List.prefix_rfl

/-- **Carol is slashed twice for one pair of messages.** -/
theorem slashed_again : ¬ SlashingSound reportedTwice := by
  intro h
  have htwice : slashings carol s(1, 2) reportedTwice = 2 := by decide
  have honce := h.once carol s(1, 2)
  rw [htwice] at honce
  exact absurd honce (by decide)

end Sample

end StellarLend.Bridge
