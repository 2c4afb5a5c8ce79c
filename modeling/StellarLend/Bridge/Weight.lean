import StellarLend.Bridge.Accounting

/-!
# Bridge/Weight — whose approvals an execution rests on

An execution reads the counter of a message.  The counter was raised by validators active at the
time, and nothing lowers it: a validator that is deactivated or slashed to nothing afterwards still
counts.  The counter is covered by validators in good standing as long as no such validator has
approved a message that may still be executed.
-/

namespace StellarLend.Bridge

open Foundations Call Finset
open Lending (Address)

variable {e : Env} {s s' t : Storage} {tx : Tx} {id : ℕ} {v : Address}

/-- The record of a validator that is active and has a stake. -/
def ValidatorRecord.live (r : ValidatorRecord) : Bool := r.active ∧ 0 < r.stake

/-- The validators in good standing that approved a message. -/
def liveVoters (s : Storage) (id : ℕ) : Finset Address :=
  (voters s id true).filter fun v => (s.validator v).any ValidatorRecord.live

/-- The message may still be executed. -/
def CrossChainMessage.pending (m : CrossChainMessage) : Prop :=
  m.executed = false ∧ m.invalidated = false

/-- A message that may still be executed counts an approval of the validator. -/
def ReliesOn (s : Storage) (id : ℕ) (v : Address) : Prop :=
  (∃ m, s.message id = some m ∧ m.pending) ∧ s.messageAttestation id v = some true

/-- A validator on whose approval a message relies is neither deactivated nor slashed to nothing,
and approves with a stake. -/
structure WeightKept (s : Storage) (tx : Tx) : Prop where
  approve : ∀ v id record, tx.op = .attestCrossChainMessage v id true →
    s.validator v = some record → 0 < record.stake
  deactivate : ∀ caller v id, tx.op = .setValidatorActive caller v false → ¬ ReliesOn s id v
  slash : ∀ caller firstId secondId v record id,
    tx.op = .slashConflictingMessages caller firstId secondId → ApprovedBoth s firstId secondId v →
      s.validator v = some record →
        (record.slashed (loadSecurityConfig s).slashBps).stake ≤ 0 →
          id ≠ firstId → id ≠ secondId → ¬ ReliesOn s id v

/-- The call takes no part in the weight of approvals. -/
def Op.weightless : Op → Bool
  | .attestCrossChainMessage _ _ _ => false
  | .setValidatorActive _ _ _ => false
  | .slashConflictingMessages _ _ _ => false
  | _ => true

theorem WeightKept.of_weightless (h : tx.op.weightless = true) : WeightKept s tx where
  approve _ _ _ hop := by
    rw [hop] at h
    cases h
  deactivate _ _ _ hop := by
    rw [hop] at h
    cases h
  slash _ _ _ _ _ _ hop := by
    rw [hop] at h
    cases h

/-- The counter of a message that may still be executed is covered. -/
def Covered (s : Storage) : Prop := ∀ id m, s.message id = some m → m.pending →
  m.approvals ≤ (liveVoters s id).card

theorem Registry.mem_liveVoters (hs : Registry s) : v ∈ liveVoters s id ↔
    s.messageAttestation id v = some true ∧
      ∃ record, s.validator v = some record ∧ record.live = true := by
  rw [liveVoters, mem_filter, hs.mem_voters, Option.any_eq_true]

/-- Coverage stays where the votes do and those who cast them stay in good standing. -/
theorem Covered.of_mono (hc : Covered s) (hs : Registry s) (hs' : Registry s')
    (hmessage : ∀ id m', s'.message id = some m' → m'.pending → ∃ m, s.message id = some m ∧
      m.pending ∧ m'.approvals = m.approvals ∧
        s'.messageAttestation id = s.messageAttestation id)
    (hlive : ∀ id v record, ReliesOn s id v → s.validator v = some record → record.live = true →
      (∃ m', s'.message id = some m' ∧ m'.pending) →
        ∃ record', s'.validator v = some record' ∧ record'.live = true) : Covered s' := by
  intro id m' hm' hpending'
  obtain ⟨m, hm, hpending, happrovals, hattestation⟩ := hmessage id m' hm' hpending'
  rw [happrovals]
  refine (hc id m hm hpending).trans (card_le_card fun v hv => ?_)
  obtain ⟨hvote, record, hrecord, hgood⟩ := hs.mem_liveVoters.mp hv
  refine hs'.mem_liveVoters.mpr ⟨by rw [hattestation]; exact hvote, ?_⟩
  exact hlive id v record ⟨⟨m, hm, hpending⟩, hvote⟩ hrecord hgood ⟨m', hm', hpending'⟩

theorem Covered.sameMessages (hc : Covered s) (hs : Registry s) (h : SameMessages s s') :
    Covered s' := by
  refine hc.of_mono hs (hs.sameMessages h)
    (fun id m hm hpending => ⟨m, h.message ▸ hm, hpending, rfl, congrFun h.attestation id⟩)
    fun id v record _ hrecord hgood _ => ⟨record, ?_, hgood⟩
  rw [h.validator]
  exact hrecord

theorem Covered.registered {validator : Address} {stake : ℤ} (hc : Covered s) (hs : Registry s)
    (h : Registered s validator stake s') : Covered s' := by
  have hafter := h.after
  refine hc.of_mono hs (hs.registered h)
    (fun id m hm hpending => ⟨m, by rwa [hafter] at hm, hpending, rfl, by rw [hafter]; rfl⟩)
    fun id v record _ hrecord hgood _ => ⟨record, ?_, hgood⟩
  have hne : v ≠ validator := by
    rintro rfl
    rw [h.fresh] at hrecord
    cases hrecord
  rw [hafter]
  exact (Function.update_of_ne hne _ _).trans hrecord

theorem Covered.switched {validator : Address} {active : Bool} {old : ValidatorRecord}
    (hc : Covered s) (hs : Registry s) (h : Switched s validator active old s')
    (hkept : active = false → ∀ id, ¬ ReliesOn s id validator) : Covered s' := by
  have hafter := h.after
  refine hc.of_mono hs (hs.switched h)
    (fun id m hm hpending => ⟨m, by rwa [hafter] at hm, hpending, rfl, by rw [hafter]; rfl⟩)
    fun id v record hrelies hrecord hgood _ => ?_
  have hvalidator : s'.validator = Function.update s.validator validator
      (some { old with active := active }) := by
    rw [hafter]
    rfl
  by_cases hv : v = validator
  · obtain rfl : old = record := by
      rw [hv, h.record_eq] at hrecord
      exact Option.some.inj hrecord
    cases active with
    | false => exact absurd (hv ▸ hrelies) (hkept rfl id)
    | true =>
      refine ⟨{ old with active := true }, by rw [hvalidator, hv, Function.update_self], ?_⟩
      simp only [ValidatorRecord.live, decide_eq_true_eq] at hgood ⊢
      exact ⟨trivial, hgood.2⟩
  · exact ⟨record, by rw [hvalidator, Function.update_of_ne hv]; exact hrecord, hgood⟩

theorem Covered.submitted {input : CrossChainMessageInput} (hc : Covered s) (hs : Registry s)
    (h : Submitted e s input s') : Covered s' := by
  intro id m hm hpending
  have hsame : liveVoters s' id = liveVoters s id := by
    ext v
    rw [(hs.submitted h).mem_liveVoters, hs.mem_liveVoters, h.attestations, h.after]
    rfl
  rw [hsame]
  rw [h.messages, Function.update_apply] at hm
  split at hm
  case isTrue =>
    obtain rfl := Option.some.inj hm
    exact Nat.zero_le _
  case isFalse => exact hc id m hm hpending

/-- A vote leaves every validator's standing. -/
theorem Attested.live_iff {validator : Address} {messageId : ℕ} {vote : Bool}
    {record : ValidatorRecord} {message : CrossChainMessage}
    (h : Attested s validator messageId vote record message s') (v : Address) :
    (∃ r, s'.validator v = some r ∧ r.live = true) ↔
      ∃ r, s.validator v = some r ∧ r.live = true := by
  obtain ⟨f, hf⟩ := h.validators v
  rw [hf]
  simp only [Option.map_eq_some_iff]
  constructor
  · rintro ⟨_, ⟨r, hr, rfl⟩, hlive⟩
    exact ⟨r, hr, hlive⟩
  · rintro ⟨r, hr, hlive⟩
    exact ⟨_, ⟨r, hr, rfl⟩, hlive⟩

theorem Covered.attested {validator : Address} {messageId : ℕ} {vote : Bool}
    {record : ValidatorRecord} {message : CrossChainMessage} (hc : Covered s) (hs : Registry s)
    (h : Attested s validator messageId vote record message s')
    (hstake : vote = true → 0 < record.stake) : Covered s' := by
  have hs' := hs.attested h
  have hnumber := (hs.numbered _ _ h.message_eq).1
  have hsubset : ∀ id, liveVoters s id ⊆ liveVoters s' id := by
    intro id v hv
    obtain ⟨hvote, hlive⟩ := hs.mem_liveVoters.mp hv
    refine hs'.mem_liveVoters.mpr ⟨?_, (h.live_iff v).mpr hlive⟩
    by_cases hid : id = messageId
    · have hne : v ≠ validator := by
        rintro rfl
        rw [hid, h.fresh] at hvote
        cases hvote
      rw [h.attestations, hid, Function.update_self, Function.update_of_ne hne, ← hid]
      exact hvote
    · rw [h.elsewhere hid]
      exact hvote
  intro id m hm hpending
  rw [h.messages, Function.update_apply, hnumber] at hm
  split at hm
  case isFalse => exact (hc id m hm hpending).trans (card_le_card (hsubset id))
  case isTrue hid =>
    obtain rfl := Option.some.inj hm
    have hold := hc _ _ h.message_eq ⟨h.executed, h.invalidated⟩
    rw [hid]
    cases vote with
    | false => exact hold.trans (card_le_card (hsubset messageId))
    | true =>
      have hnew : insert validator (liveVoters s messageId) ⊆ liveVoters s' messageId := by
        refine insert_subset (hs'.mem_liveVoters.mpr ⟨?_, (h.live_iff validator).mpr ?_⟩)
          (hsubset messageId)
        · rw [h.attestations, Function.update_self, Function.update_self]
        · refine ⟨record, h.record_eq, ?_⟩
          simp [ValidatorRecord.live, h.active, hstake rfl]
      have hnotin : validator ∉ liveVoters s messageId := by
        intro hmem
        have hvote := (hs.mem_liveVoters.mp hmem).1
        rw [h.fresh] at hvote
        cases hvote
      have hcard := card_le_card hnew
      rw [card_insert_of_notMem hnotin] at hcard
      exact (min_le_left _ _).trans ((Nat.add_le_add_right hold 1).trans hcard)

theorem Covered.executed {messageId : ℕ} {message : CrossChainMessage} {bridge : BridgeConfig}
    (hc : Covered s) (hs : Registry s) (h : Executed e s messageId message bridge s') :
    Covered s' := by
  refine hc.of_mono hs (hs.executed h) (fun id m' hm' hpending => ?_)
    fun id v record _ hrecord hgood _ => ⟨record, by rw [h.after]; exact hrecord, hgood⟩
  rw [hs.message_executed h] at hm'
  obtain ⟨m, hm, rfl⟩ := Option.map_eq_some_iff.mp hm'
  refine ⟨m, hm, ?_, ?_, by rw [h.after]; rfl⟩
  · split at hpending
    · exact absurd hpending.1 Bool.false_ne_true.symm
    · exact hpending
  · split <;> rfl

/-- A slashing leaves a validator in good standing that it leaves a stake. -/
theorem ValidatorRecord.live_slashed {r : ValidatorRecord} {slashBps : ℕ} (h : r.live = true)
    (hstake : 0 < (r.slashed slashBps).stake) : (r.slashed slashBps).live = true := by
  simp only [live, decide_eq_true_eq] at h ⊢
  refine ⟨?_, hstake⟩
  rw [slashed] at hstake ⊢
  exact (if_neg (not_le.mpr hstake)).trans h.1

theorem Covered.slashed {firstId secondId : ℕ} {first second : CrossChainMessage}
    {slashed : List Address} (hc : Covered s) (hs : Registry s)
    (h : Slashed s firstId secondId first second slashed t s')
    (hkept : ∀ v record id, ApprovedBoth s firstId secondId v → s.validator v = some record →
      (record.slashed (loadSecurityConfig s).slashBps).stake ≤ 0 →
        id ≠ firstId → id ≠ secondId → ¬ ReliesOn s id v) : Covered s' := by
  refine hc.of_mono hs (hs.slashed h) (fun id m' hm' hpending => ?_)
    fun id v record hrelies hrecord hgood hstill => ?_
  · rw [hs.message_slashed h] at hm'
    obtain ⟨m, hm, rfl⟩ := Option.map_eq_some_iff.mp hm'
    refine ⟨m, hm, ?_, ?_, congrFun h.frame.attestation id⟩
    · split at hpending
      · exact absurd hpending.2 Bool.false_ne_true.symm
      · exact hpending
    · split <;> rfl
  · have hother : id ≠ firstId ∧ id ≠ secondId := by
      obtain ⟨m', hm', hpending⟩ := hstill
      rw [hs.message_slashed h] at hm'
      obtain ⟨m, -, rfl⟩ := Option.map_eq_some_iff.mp hm'
      split at hpending
      · exact absurd hpending.2 Bool.false_ne_true.symm
      case isFalse hne => exact not_or.mp hne
    rw [h.frame.validator]
    change ∃ record', t.validator v = some record' ∧ _
    rw [h.loop.validator hs.nodup v]
    split
    case isFalse => exact ⟨record, hrecord, hgood⟩
    case isTrue hslashed =>
      rw [h.loop.slashed_eq, List.mem_filter, decide_eq_true_eq] at hslashed
      have hstake : 0 < (record.slashed (loadSecurityConfig s).slashBps).stake := by
        by_contra hnone
        exact hkept v record id hslashed.2 hrecord (not_lt.mp hnone) hother.1 hother.2 hrelies
      exact ⟨_, by rw [hrecord, Option.map_some], ValidatorRecord.live_slashed hgood hstake⟩

/-- **Every step under the condition keeps the counters covered.** -/
theorem Covered.step (hc : Covered s) (hs : Registry s) (hstep : step tx s = some s')
    (hkept : WeightKept s tx) : Covered s' := by
  have heffect := step_effect hstep
  obtain ⟨e, op⟩ := tx
  cases op
  case bridgeWithdraw => exact hc.sameMessages hs heffect.toSameMessages
  case registerValidator => exact hc.registered hs heffect
  case setValidatorActive caller validator active =>
    obtain ⟨record, h⟩ := heffect
    refine hc.switched hs h ?_
    rintro rfl id
    exact hkept.deactivate caller validator id rfl
  case submitCrossChainMessage => exact hc.submitted hs heffect
  case attestCrossChainMessage validator messageId approve =>
    obtain ⟨record, message, h⟩ := heffect
    refine hc.attested hs h ?_
    rintro rfl
    exact hkept.approve validator messageId record rfl h.record_eq
  case executeVerifiedWithdrawal =>
    obtain ⟨message, bridge, h⟩ := heffect
    exact hc.executed hs h
  case slashConflictingMessages caller firstId secondId =>
    obtain ⟨first, second, slashed, t, h⟩ := heffect
    exact hc.slashed hs h fun v record id hboth hrecord hstake hfirst hsecond =>
      hkept.slash caller firstId secondId v record id rfl hboth hrecord hstake hfirst hsecond
  all_goals exact hc.sameMessages hs (Administered.toSameMessages heffect)

/-- **In a run that keeps the weight of approvals, a message is executed on the approvals of enough
validators in good standing.** -/
theorem execution_weighed {txs ys zs : List Tx} {caller : Address}
    (h : Meets step WeightKept Storage.empty txs) (htxs : txs = ys ++ tx :: zs)
    (hop : tx.op = .executeVerifiedWithdrawal caller id) (hstep : step tx (ledger ys) = some s') :
    (loadSecurityConfig (ledger ys)).minValidatorSignatures ≤
      (liveVoters (ledger ys) id).card := by
  have hbefore := (meets_append.mp (htxs ▸ h)).1
  have hc := (hbefore.invariant (I := fun s => Registry s ∧ Covered s)
    (fun _ _ _ hstep hC hI => ⟨hI.1.step hstep, hI.2.step hI.1 hstep hC⟩)
    ⟨Registry.empty, fun id m hm => by cases hm⟩).2
  have heffect := step_effect hstep
  rw [hop] at heffect
  obtain ⟨m, bridge, hexecuted⟩ := heffect
  exact hexecuted.quorum.trans
    (hc id m hexecuted.message_eq ⟨hexecuted.executed, hexecuted.invalidated⟩)

namespace Sample

/-- Both validators approve a message. -/
def approved : List Tx := deploy ++ [submit "a" 1, vote carol 1, vote dave 1]

/-- The message is executed once it is final. -/
def execute : Tx := ⟨⟨4, [alice]⟩, .executeVerifiedWithdrawal alice 1⟩

/-- The admin deactivates a validator. -/
def deactivate (validator : Address) : Tx :=
  ⟨⟨3, [admin]⟩, .setValidatorActive admin validator false⟩

/-- A vote by a validator with a stake. -/
theorem weightKept_vote {messageId : ℕ}
    (hstake : (s.validator v).all (fun r => 0 < r.stake) = true) :
    WeightKept s (vote v messageId) where
  approve _ _ record hop hrecord := by
    cases hop
    simpa [hrecord] using hstake
  deactivate _ _ _ hop := by cases hop
  slash _ _ _ _ _ _ hop := by cases hop

end Sample

theorem execution_weighed_approved :
    (loadSecurityConfig (ledger Sample.approved)).minValidatorSignatures ≤
      (liveVoters (ledger Sample.approved) 1).card := by
  have hdeploy : Meets step WeightKept Storage.empty (Sample.deploy ++ [Sample.submit "a" 1]) := by
    refine meets_of_forall fun x hx s => .of_weightless ?_
    revert x
    decide
  have hrun : (step Sample.execute (ledger Sample.approved)).isSome := by decide
  obtain ⟨s', hs'⟩ := Option.isSome_iff_exists.mp hrun
  have hmeets : Meets step WeightKept Storage.empty (Sample.approved ++ [Sample.execute]) := by
    refine meets_append.mpr ⟨?_, fun _ => .of_weightless rfl, trivial⟩
    rw [show Sample.approved = (Sample.deploy ++ [Sample.submit "a" 1]) ++
      [Sample.vote Sample.carol 1, Sample.vote Sample.dave 1] from rfl]
    refine meets_append.mpr ⟨hdeploy, ?_⟩
    exact ⟨fun _ => Sample.weightKept_vote (by decide),
      fun _ => Sample.weightKept_vote (by decide), trivial⟩
  exact execution_weighed hmeets rfl rfl hs'

/-- One of the two is deactivated, and the message is executed all the same. -/
theorem execution_unweighed_deactivate :
    ¬ ∀ txs tx s' caller id, step tx (ledger txs) = some s' →
      tx.op = .executeVerifiedWithdrawal caller id →
        (loadSecurityConfig (ledger txs)).minValidatorSignatures ≤
          (liveVoters (ledger txs) id).card := by
  intro hall
  have hrun : (step Sample.execute
      (ledger (Sample.approved ++ [Sample.deactivate Sample.carol]))).isSome := by
    decide
  obtain ⟨s', hs'⟩ := Option.isSome_iff_exists.mp hrun
  have hfew : ¬ (loadSecurityConfig
      (ledger (Sample.approved ++ [Sample.deactivate Sample.carol]))).minValidatorSignatures ≤
      (liveVoters (ledger (Sample.approved ++ [Sample.deactivate Sample.carol])) 1).card := by
    decide
  exact hfew (hall _ _ _ _ _ hs' rfl)

end StellarLend.Bridge
