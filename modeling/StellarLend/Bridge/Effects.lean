import StellarLend.Bridge.Contract

/-!
# Bridge/Effects — what each call does

The calls on messages and validators are read off as the conditions they passed and the store they
leave; the others leave the messages, the attestations, the validators and what was withdrawn as
they were.
-/

namespace StellarLend.Bridge

open Foundations Call
open Lending (Address)

variable {e : Env} {s s' t : Storage} {caller validator : Address} {bridgeId : String}
  {messageId : ℕ} {approve : Bool} {amount : ℤ}

@[simp] theorem requireAdmin_ok {u : Unit} :
    requireAdmin caller e s = .ok u s' ↔ caller ∈ e.auths ∧ s.admin = some caller ∧ s = s' := by
  simp [requireAdmin, loadAdmin, and_assoc]

@[simp ↓] theorem requireAdmin_seq {β : Type} {b : β} {k : Unit → Invocation β} :
    (requireAdmin caller >>= k) e s = .ok b s' ↔
      caller ∈ e.auths ∧ s.admin = some caller ∧ k () e s = .ok b s' :=
  (check_seq fun _ _ => requireAdmin_ok.trans and_assoc.symm).trans and_assoc

@[simp] theorem loadBridge_ok {cfg : BridgeConfig} :
    loadBridge bridgeId e s = .ok cfg s' ↔ s.bridge bridgeId = some cfg ∧ s = s' := by
  simp [loadBridge]

@[simp ↓] theorem loadBridge_seq {β : Type} {b : β} {g : BridgeConfig → Invocation β} :
    (loadBridge bridgeId >>= g) e s = .ok b s' ↔
      ∃ cfg, s.bridge bridgeId = some cfg ∧ g cfg e s = .ok b s' :=
  read_seq fun _ _ => loadBridge_ok

@[simp] theorem loadValidator_ok {record : ValidatorRecord} :
    loadValidator validator e s = .ok record s' ↔ s.validator validator = some record ∧ s = s' := by
  simp [loadValidator]

@[simp ↓] theorem loadValidator_seq {β : Type} {b : β} {g : ValidatorRecord → Invocation β} :
    (loadValidator validator >>= g) e s = .ok b s' ↔
      ∃ record, s.validator validator = some record ∧ g record e s = .ok b s' :=
  read_seq fun _ _ => loadValidator_ok

@[simp] theorem loadMessage_ok {message : CrossChainMessage} :
    loadMessage messageId e s = .ok message s' ↔ s.message messageId = some message ∧ s = s' := by
  simp [loadMessage]

@[simp ↓] theorem loadMessage_seq {β : Type} {b : β} {g : CrossChainMessage → Invocation β} :
    (loadMessage messageId >>= g) e s = .ok b s' ↔
      ∃ message, s.message messageId = some message ∧ g message e s = .ok b s' :=
  read_seq fun _ _ => loadMessage_ok

/-! ## Bridges -/

/-- What was withdrawn under a bridge's name. -/
def withdrawnOf (s : Storage) (bridgeId : String) : ℤ :=
  ((s.bridge bridgeId).map BridgeConfig.totalWithdrawn).getD 0

@[simp] theorem withdrawnOf_saveBridge (bridgeId : String) (cfg : BridgeConfig) (s : Storage) :
    withdrawnOf (saveBridge bridgeId cfg s) =
      Function.update (withdrawnOf s) bridgeId cfg.totalWithdrawn := by
  funext b
  change ((Function.update s.bridge bridgeId (some cfg) b).map _).getD 0 = _
  rw [Function.update_apply, Function.update_apply]
  split <;> rfl

theorem withdrawnOf_of_some {cfg : BridgeConfig} (h : s.bridge bridgeId = some cfg) :
    withdrawnOf s bridgeId = cfg.totalWithdrawn := by
  rw [withdrawnOf, h]
  rfl

/-- Messages, attestations and validators are the same. -/
structure SameMessages (s s' : Storage) : Prop where
  message : s'.message = s.message
  attestation : s'.messageAttestation = s.messageAttestation
  next : s'.nextMessageId = s.nextMessageId
  validator : s'.validator = s.validator
  list : s'.validatorList = s.validatorList

/-- Nor is anything withdrawn. -/
structure Administered (s s' : Storage) : Prop extends SameMessages s s' where
  withdrawn : withdrawnOf s' = withdrawnOf s

/-- A withdrawal by the admin. -/
structure PaidOut (s : Storage) (bridgeId : String) (amount : ℤ) (s' : Storage) : Prop
    extends SameMessages s s' where
  positive : 0 < amount
  withdrawn : withdrawnOf s' =
    Function.update (withdrawnOf s) bridgeId (withdrawnOf s bridgeId + amount)

/-- A bridge that was rewritten with nothing more withdrawn. -/
theorem Administered.saveBridge {cfg : BridgeConfig}
    (h : cfg.totalWithdrawn = withdrawnOf s bridgeId) :
    Administered s (saveBridge bridgeId cfg s) := by
  refine ⟨⟨rfl, rfl, rfl, rfl, rfl⟩, ?_⟩
  rw [withdrawnOf_saveBridge, h, Function.update_eq_self]

theorem Administered.recordChannelAnomaly (channelId reason : String) (s : Storage) :
    Administered s (recordChannelAnomaly channelId reason s) := by
  unfold Bridge.recordChannelAnomaly
  by_cases hcloses : (loadSecurityConfig s).anomalyCloseThreshold ≤
      U32.saturatingAdd (loadChannelState s channelId).anomalyCount 1
  · simp only [if_pos hcloses]
    exact ⟨⟨rfl, rfl, rfl, rfl, rfl⟩, rfl⟩
  · simp only [if_neg hcloses]
    exact ⟨⟨rfl, rfl, rfl, rfl, rfl⟩, rfl⟩

theorem bridgeWithdraw_effect {recipient : Address} {u : Unit}
    (h : bridgeWithdraw caller bridgeId recipient amount e s = .ok u s') :
    PaidOut s bridgeId amount s' := by
  simp only [bridgeWithdraw, requireAdmin_seq, failIf_seq, loadBridge_seq, okOr_seq, store_ok,
    I128.checkedAdd_eq_some, not_le, not_lt, and_assoc, exists_and_left, exists_eq_left'] at h
  obtain ⟨-, -, hpos, cfg, hcfg, -, -, rfl⟩ := h
  refine ⟨⟨rfl, rfl, rfl, rfl, rfl⟩, hpos, ?_⟩
  rw [withdrawnOf_saveBridge, withdrawnOf_of_some hcfg]

/-! ## Validators -/

structure Registered (s : Storage) (validator : Address) (stake : ℤ) (s' : Storage) : Prop where
  stake_pos : 0 < stake
  fresh : s.validator validator = none
  after : s' = { saveValidator validator ⟨stake, true, 0, 0⟩ s with
    validatorList := some (validatorList s ++ [validator]) }

theorem registerValidator_effect {stake : ℤ} {u : Unit}
    (h : registerValidator caller validator stake e s = .ok u s') :
    Registered s validator stake s' := by
  simp only [registerValidator, requireAdmin_seq, failIf_seq, view_seq, store_seq, store_ok, not_le]
    at h
  obtain ⟨-, -, hpos, hfresh, rfl⟩ := h
  exact ⟨hpos, by simpa using hfresh, rfl⟩

structure Switched (s : Storage) (validator : Address) (active : Bool) (record : ValidatorRecord)
    (s' : Storage) : Prop where
  record_eq : s.validator validator = some record
  after : s' = saveValidator validator { record with active := active } s

theorem setValidatorActive_effect {active : Bool} {u : Unit}
    (h : setValidatorActive caller validator active e s = .ok u s') :
    ∃ record, Switched s validator active record s' := by
  simp only [setValidatorActive, requireAdmin_seq, loadValidator_seq, store_ok] at h
  obtain ⟨-, -, record, hrecord, rfl⟩ := h
  exact ⟨record, hrecord, rfl⟩

/-! ## Messages -/

/-- The number the next message gets. -/
def nextId (s : Storage) : ℕ := U64.saturatingAdd (s.nextMessageId.getD 0) 1

structure Submitted (e : Env) (s : Storage) (input : CrossChainMessageInput) (s' : Storage) :
    Prop where
  amount_pos : 0 < input.amount
  version : input.payloadVersion = (loadSecurityConfig s).supportedMessageVersion
  bridge : ∃ cfg, s.bridge input.bridgeId = some cfg ∧ cfg.minAmount ≤ input.amount
  opened : (loadChannelState s input.channelId).emergencyClosed = false
  fresh : s.messageSource input.sourceKey = none
  nonce : (loadChannelState s input.channelId).lastObservedNonce = 0 ∨
    (loadChannelState s input.channelId).lastObservedNonce < input.nonce
  height : (loadChannelState s input.channelId).lastObservedHeight = 0 ∨
    (loadChannelState s input.channelId).lastObservedHeight ≤ input.sourceHeight
  after : s' =
    withStats (fun stats => { stats with totalMessages := U64.saturatingAdd stats.totalMessages 1 })
      (saveMessage (input.message (nextId s) e.sequence (loadSecurityConfig s))
        (saveSource input.sourceKey (nextId s)
          (saveChannelState input.channelId
            { loadChannelState s input.channelId with
              lastObservedNonce := input.nonce
              lastObservedHeight := input.sourceHeight }
            { s with nextMessageId := some (nextId s) })))

namespace Submitted

variable {input : CrossChainMessageInput}

/-- A submission in one record, the statistics aside. -/
theorem written (h : Submitted e s input s') : ∃ stats, s' =
    { s with
      channel := Function.update s.channel input.channelId (some
        { loadChannelState s input.channelId with
          lastObservedNonce := input.nonce
          lastObservedHeight := input.sourceHeight })
      message := Function.update s.message (nextId s)
        (some (input.message (nextId s) e.sequence (loadSecurityConfig s)))
      messageSource := Function.update s.messageSource input.sourceKey (some (nextId s))
      nextMessageId := some (nextId s)
      stats := stats } := by
  have hafter := h.after
  simp only [withStats, saveMessage, saveSource, saveChannelState] at hafter
  exact ⟨_, hafter⟩

theorem messages (h : Submitted e s input s') : s'.message = Function.update s.message (nextId s)
    (some (input.message (nextId s) e.sequence (loadSecurityConfig s))) := by
  obtain ⟨stats, rfl⟩ := h.written
  rfl

theorem attestations (h : Submitted e s input s') :
    s'.messageAttestation = s.messageAttestation := by
  obtain ⟨stats, rfl⟩ := h.written
  rfl

theorem withdrawn (h : Submitted e s input s') : withdrawnOf s' = withdrawnOf s := by
  obtain ⟨stats, rfl⟩ := h.written
  rfl

theorem sources (h : Submitted e s input s') :
    s'.messageSource = Function.update s.messageSource input.sourceKey (some (nextId s)) := by
  obtain ⟨stats, rfl⟩ := h.written
  rfl

/-- The channel remembers the nonce and the height of the message. -/
theorem channel (h : Submitted e s input s') (channelId : String) :
    loadChannelState s' channelId = if channelId = input.channelId then
      { loadChannelState s input.channelId with
        lastObservedNonce := input.nonce
        lastObservedHeight := input.sourceHeight }
    else loadChannelState s channelId := by
  have hafter : s'.channel = Function.update s.channel input.channelId
      (some { loadChannelState s input.channelId with
        lastObservedNonce := input.nonce
        lastObservedHeight := input.sourceHeight }) := by
    obtain ⟨stats, rfl⟩ := h.written
    rfl
  rw [loadChannelState, hafter, Function.update_apply]
  split <;> rfl

end Submitted

/-- A refusal that counts as an anomaly never succeeds. -/
@[simp] theorem refuseMessage_ok {channelId reason : String} {err : ContractError} {u : Unit} :
    ¬ refuseMessage channelId reason err e s = .ok u s' := by
  simp [refuseMessage]

theorem submitCrossChainMessage_effect {input : CrossChainMessageInput}
    (h : submitCrossChainMessage caller input e s = .ok messageId s') :
    Submitted e s input s' := by
  simp only [submitCrossChainMessage, nextMessageId, validateId, requireAuth_seq, failIf_seq,
    view_seq, onlyIf_seq, refuseMessage_ok, loadBridge_seq, asks_seq, store_seq, pure_seq, pure_ok,
    not_le, not_lt, imp_false, and_assoc, exists_and_left, exists_const, seq_assoc] at h
  obtain ⟨-, -, -, -, hamount, hversion, _, hkept₁, cfg, hbridge, hmin, hopened, hfresh, h⟩ := h
  obtain rfl := hkept₁ hversion
  obtain ⟨_, hkept₂, hnonce, _, hkept₃, hheight, _, hkept₄, rfl, rfl⟩ := h
  obtain rfl := hkept₂ hfresh
  obtain rfl := hkept₃ hnonce
  obtain rfl := hkept₄ hheight
  refine ⟨hamount, not_not.mp hversion, ⟨cfg, hbridge, hmin⟩, by simpa using hopened,
    by simpa using hfresh, ?_, ?_, rfl⟩
  · rwa [not_and_or, not_not, not_le] at hnonce
  · rwa [not_and_or, not_not, not_lt] at hheight

/-- The message after one more vote. -/
def CrossChainMessage.voted (approve : Bool) (m : CrossChainMessage) : CrossChainMessage :=
  if approve = true then { m with approvals := U32.saturatingAdd m.approvals 1 }
  else { m with rejections := U32.saturatingAdd m.rejections 1 }

/-- A vote changes the two counters only. -/
theorem CrossChainMessage.voted_eq (approve : Bool) (m : CrossChainMessage) :
    m.voted approve = { m with
      approvals := (m.voted approve).approvals
      rejections := (m.voted approve).rejections } := by
  cases approve <;> rfl

@[simp] theorem CrossChainMessage.voted_messageId (approve : Bool) (m : CrossChainMessage) :
    (m.voted approve).messageId = m.messageId := by
  rw [voted_eq]

structure Attested (s : Storage) (validator : Address) (messageId : ℕ) (approve : Bool)
    (record : ValidatorRecord) (message : CrossChainMessage) (s' : Storage) : Prop where
  record_eq : s.validator validator = some record
  active : record.active = true
  message_eq : s.message messageId = some message
  executed : message.executed = false
  invalidated : message.invalidated = false
  fresh : s.messageAttestation messageId validator = none
  after : s' = saveMessage (message.voted approve)
    (if approve = true then
      saveValidator validator { record with approvals := U32.saturatingAdd record.approvals 1 }
        (saveAttestation messageId validator approve s)
    else recordChannelAnomaly message.channelId "validator_rejection"
      (saveAttestation messageId validator approve s))

namespace Attested

variable {record : ValidatorRecord} {message : CrossChainMessage}

/-- An attestation is what it writes, and the rest is the same. -/
theorem frame (h : Attested s validator messageId approve record message s') :
    Administered (saveMessage (message.voted approve)
      (if approve = true then saveValidator validator
          { record with approvals := U32.saturatingAdd record.approvals 1 }
          (saveAttestation messageId validator approve s)
        else saveAttestation messageId validator approve s)) s' := by
  have hafter := h.after
  cases approve with
  | true =>
    rw [if_pos rfl] at hafter ⊢
    rw [hafter]
    exact ⟨⟨rfl, rfl, rfl, rfl, rfl⟩, rfl⟩
  | false =>
    rw [if_neg (by decide)] at hafter ⊢
    rw [hafter]
    have hanomaly := Administered.recordChannelAnomaly message.channelId "validator_rejection"
      (saveAttestation messageId validator false s)
    exact ⟨⟨congrArg (Function.update · _ _) hanomaly.message, hanomaly.attestation, hanomaly.next,
      hanomaly.validator, hanomaly.list⟩, hanomaly.withdrawn⟩

theorem messages (h : Attested s validator messageId approve record message s') :
    s'.message = Function.update s.message message.messageId (some (message.voted approve)) := by
  rw [h.frame.message, ← CrossChainMessage.voted_messageId approve message]
  split <;> rfl

theorem attestations (h : Attested s validator messageId approve record message s') :
    s'.messageAttestation = Function.update s.messageAttestation messageId
      (Function.update (s.messageAttestation messageId) validator (some approve)) := by
  rw [h.frame.attestation]
  split <;> rfl

theorem next (h : Attested s validator messageId approve record message s') :
    s'.nextMessageId = s.nextMessageId := by
  rw [h.frame.next]
  split <;> rfl

theorem list (h : Attested s validator messageId approve record message s') :
    s'.validatorList = s.validatorList := by
  rw [h.frame.list]
  split <;> rfl

theorem withdrawn (h : Attested s validator messageId approve record message s') :
    withdrawnOf s' = withdrawnOf s := by
  rw [h.frame.withdrawn]
  split <;> rfl

/-- A validator's record changes in its count of approvals at most. -/
theorem validators (h : Attested s validator messageId approve record message s') (v : Address) :
    ∃ f : ℕ → ℕ, s'.validator v =
      (s.validator v).map fun r => { r with approvals := f r.approvals } := by
  rw [h.frame.validator]
  split
  · by_cases hv : v = validator
    · refine ⟨fun n => U32.saturatingAdd n 1, ?_⟩
      rw [hv, h.record_eq]
      exact Function.update_self ..
    · exact ⟨id, (Function.update_of_ne hv _ _).trans Option.map_id'.symm⟩
  · exact ⟨id, Option.map_id'.symm⟩

end Attested

theorem attestCrossChainMessage_effect {u : Unit}
    (h : attestCrossChainMessage validator messageId approve e s = .ok u s') :
    ∃ record message, Attested s validator messageId approve record message s' := by
  simp only [attestCrossChainMessage, requireAuth_seq, loadValidator_seq, loadMessage_seq,
    failIf_seq, view_seq, store_seq] at h
  obtain ⟨-, record, hrecord, hactive, message, hmessage, hexecuted, hinvalidated, hfresh, h⟩ := h
  refine ⟨record, message, hrecord, by simpa using hactive, hmessage, by simpa using hexecuted,
    by simpa using hinvalidated, by simpa using hfresh, ?_⟩
  cases approve with
  | true =>
    simp only [if_true, store_seq, store_ok] at h
    obtain ⟨_, _, rfl, rfl⟩ := h
    rfl
  | false =>
    simp only [Bool.false_eq_true, if_false, store_seq, store_ok] at h
    obtain ⟨_, _, rfl, rfl⟩ := h
    rfl

structure Executed (e : Env) (s : Storage) (messageId : ℕ) (message : CrossChainMessage)
    (bridge : BridgeConfig) (s' : Storage) : Prop where
  message_eq : s.message messageId = some message
  executed : message.executed = false
  invalidated : message.invalidated = false
  quorum : (loadSecurityConfig s).minValidatorSignatures ≤ message.approvals
  final : message.finalityLedger ≤ e.sequence
  unopposed : message.rejections = 0
  opened : (loadChannelState s message.channelId).emergencyClosed = false
  bridge_eq : s.bridge message.bridgeId = some bridge
  after : s' =
    withStats
      (fun stats => { stats with executedMessages := U64.saturatingAdd stats.executedMessages 1 })
      (saveMessage { message with executed := true }
        (saveBridge message.bridgeId
          { bridge with totalWithdrawn := bridge.totalWithdrawn + message.amount } s))

theorem Executed.withdrawn {message : CrossChainMessage} {bridge : BridgeConfig}
    (h : Executed e s messageId message bridge s') :
    withdrawnOf s' = Function.update (withdrawnOf s) message.bridgeId
      (withdrawnOf s message.bridgeId + message.amount) := by
  rw [h.after]
  change withdrawnOf (saveBridge message.bridgeId _ s) = _
  rw [withdrawnOf_saveBridge, withdrawnOf_of_some h.bridge_eq]

theorem executeVerifiedWithdrawal_effect {u : Unit}
    (h : executeVerifiedWithdrawal caller messageId e s = .ok u s') :
    ∃ message bridge, Executed e s messageId message bridge s' := by
  simp only [executeVerifiedWithdrawal, requireAuth_seq, view_seq, loadMessage_seq, failIf_seq,
    asks_seq, onlyIf_seq, fail_ok, loadBridge_seq, okOr_seq, store_seq, store_ok, imp_false,
    I128.checkedAdd_eq_some, not_lt, Nat.le_zero, and_assoc, exists_and_left, exists_eq_left',
    exists_const] at h
  obtain ⟨-, message, hmessage, hexecuted, hinvalidated, hquorum, hfinal, hunopposed, _, hkept,
    hopened, bridge, hbridge, -, -, rfl⟩ := h
  obtain rfl := hkept hunopposed
  exact ⟨message, bridge, hmessage, by simpa using hexecuted, by simpa using hinvalidated, hquorum,
    hfinal, hunopposed, by simpa using hopened, hbridge, rfl⟩

/-! ## Slashing -/

/-- The validator approved both messages. -/
def ApprovedBoth (s : Storage) (first second : ℕ) (validator : Address) : Prop :=
  s.messageAttestation first validator = some true ∧
    s.messageAttestation second validator = some true

instance (s : Storage) (first second : ℕ) : DecidablePred (ApprovedBoth s first second) :=
  fun _ => inferInstanceAs (Decidable (_ ∧ _))

/-- Those of the list that approved both messages are slashed, and nothing has changed but their
records and the statistics. -/
structure SlashedAll (s : Storage) (first second slashBps : ℕ) (validators slashed : List Address)
    (t : Storage) : Prop where
  frame : t = { s with validator := t.validator, stats := t.stats }
  slashed_eq : slashed = validators.filter (ApprovedBoth s first second)
  validator : validators.Nodup → ∀ v, t.validator v =
    if v ∈ slashed then (s.validator v).map (ValidatorRecord.slashed slashBps) else s.validator v

theorem slashApprovers_effect {first second slashBps : ℕ} {validators slashed : List Address}
    (h : slashApprovers first second slashBps validators e s = .ok slashed t) :
    SlashedAll s first second slashBps validators slashed t := by
  induction validators generalizing s slashed with
  | nil =>
    simp only [slashApprovers, pure_ok] at h
    obtain ⟨rfl, rfl⟩ := h
    exact ⟨rfl, rfl, fun _ v => by simp⟩
  | cons validator validators ih =>
    simp only [slashApprovers, view_seq] at h
    split at h
    case isTrue hvotes =>
      have hboth : ApprovedBoth s first second validator := hvotes
      simp only [bind_ok, ↓loadValidator_seq, ↓store_seq, pure_ok] at h
      obtain ⟨record, hrecord, rest, _, h, rfl, rfl⟩ := h
      have hrest := ih h
      have hslashed : rest = validators.filter (ApprovedBoth s first second) := hrest.slashed_eq
      refine ⟨hrest.frame, ?_, fun hnodup v => ?_⟩
      · rw [List.filter_cons_of_pos (by simpa using hboth), hslashed]
      · obtain ⟨hnotin, hnodup⟩ := List.nodup_cons.mp hnodup
        rw [hrest.validator hnodup v]
        change (if v ∈ rest then Option.map _ (Function.update s.validator validator _ v)
          else Function.update s.validator validator _ v) = _
        by_cases hv : v = validator
        · have hnotrest : validator ∉ rest := fun hmem =>
            hnotin (List.mem_of_mem_filter (hslashed ▸ hmem))
          rw [hv, if_neg hnotrest, if_pos (List.mem_cons_self ..), Function.update_self, hrecord]
          rfl
        · rw [Function.update_of_ne hv]
          simp only [List.mem_cons, hv, false_or]
    case isFalse hvotes =>
      have hboth : ¬ ApprovedBoth s first second validator := hvotes
      have hrest := ih h
      refine ⟨hrest.frame, ?_, fun hnodup => hrest.validator (List.nodup_cons.mp hnodup).2⟩
      rw [List.filter_cons_of_neg (by simpa using hboth), hrest.slashed_eq]

structure Slashed (s : Storage) (firstId secondId : ℕ) (first second : CrossChainMessage)
    (slashed : List Address) (t s' : Storage) : Prop where
  first_eq : s.message firstId = some first
  second_eq : s.message secondId = some second
  conflict : sameSource first second = true ∧ messagePayloadMatches first second = false
  loop : SlashedAll s firstId secondId (loadSecurityConfig s).slashBps (validatorList s) slashed t
  nonempty : slashed ≠ []
  after : s' = recordChannelAnomaly first.channelId "conflicting_message_attestations"
    (saveMessage { second with invalidated := true }
      (saveMessage { first with invalidated := true } t))

namespace Slashed

variable {firstId secondId : ℕ} {first second : CrossChainMessage} {slashed : List Address}

/-- A slashing is what it writes, and the rest is the same. -/
theorem frame (h : Slashed s firstId secondId first second slashed t s') :
    Administered (saveMessage { second with invalidated := true }
      (saveMessage { first with invalidated := true } { s with validator := t.validator })) s' := by
  rw [h.after, h.loop.frame]
  have hanomaly := Administered.recordChannelAnomaly first.channelId
    "conflicting_message_attestations"
    (saveMessage { second with invalidated := true }
      (saveMessage { first with invalidated := true }
        { s with validator := t.validator, stats := t.stats }))
  exact ⟨⟨hanomaly.message, hanomaly.attestation, hanomaly.next, hanomaly.validator,
    hanomaly.list⟩, hanomaly.withdrawn⟩

theorem messages (h : Slashed s firstId secondId first second slashed t s') :
    s'.message = Function.update
      (Function.update s.message first.messageId (some { first with invalidated := true }))
      second.messageId (some { second with invalidated := true }) := h.frame.message

/-- The two messages differ, hence so do their numbers. -/
theorem ne (h : Slashed s firstId secondId first second slashed t s') : firstId ≠ secondId := by
  rintro rfl
  obtain rfl : first = second := Option.some.inj (h.first_eq.symm.trans h.second_eq)
  have hmatches := h.conflict.2
  simp [messagePayloadMatches] at hmatches

end Slashed

theorem slashConflictingMessages_effect {firstId secondId : ℕ} {slashed : List Address}
    (h : slashConflictingMessages caller firstId secondId e s = .ok slashed s') :
    ∃ first second t, Slashed s firstId secondId first second slashed t s' := by
  simp only [slashConflictingMessages, bind_ok, requireAuth_ok, ↓loadMessage_seq, ↓failIf_seq,
    ↓view_seq, ↓store_seq, pure_ok, not_or, Bool.not_eq_false, Bool.not_eq_true, and_assoc,
    exists_and_left, exists_eq_left', exists_const] at h
  obtain ⟨-, first, hfirst, second, hsecond, hsame, hdiffer, _, t, hloop, hnonempty, rfl, rfl⟩ := h
  exact ⟨first, second, t, hfirst, hsecond, ⟨hsame, hdiffer⟩, slashApprovers_effect hloop,
    hnonempty, rfl⟩

/-! ## Every call -/

/-- What a transaction does. -/
def Op.Effect (e : Env) (s s' : Storage) : Op → Prop
  | .bridgeWithdraw _ bridgeId _ amount => PaidOut s bridgeId amount s'
  | .registerValidator _ validator stake => Registered s validator stake s'
  | .setValidatorActive _ validator active => ∃ record, Switched s validator active record s'
  | .submitCrossChainMessage _ input => Submitted e s input s'
  | .attestCrossChainMessage validator messageId approve =>
    ∃ record message, Attested s validator messageId approve record message s'
  | .executeVerifiedWithdrawal _ messageId =>
    ∃ message bridge, Executed e s messageId message bridge s'
  | .slashConflictingMessages _ firstId secondId =>
    ∃ first second slashed t, Slashed s firstId secondId first second slashed t s'
  | _ => Administered s s'

theorem step_effect {tx : Tx} (h : step tx s = some s') : tx.op.Effect tx.env s s' := by
  obtain ⟨e, op⟩ := tx
  cases op <;> simp only [step, commit_eq_some] at h <;> obtain ⟨a, h⟩ := h
  case bridgeWithdraw => exact bridgeWithdraw_effect h
  case registerValidator => exact registerValidator_effect h
  case setValidatorActive => exact setValidatorActive_effect h
  case submitCrossChainMessage => exact submitCrossChainMessage_effect h
  case attestCrossChainMessage => exact attestCrossChainMessage_effect h
  case executeVerifiedWithdrawal => exact executeVerifiedWithdrawal_effect h
  case slashConflictingMessages =>
    obtain ⟨first, second, t, h⟩ := slashConflictingMessages_effect h
    exact ⟨first, second, a, t, h⟩
  case init =>
    simp only [init, view_seq, failIf_seq, store_ok] at h
    obtain ⟨_, _, ⟨rfl, rfl⟩, _, _, ⟨-, rfl⟩, rfl⟩ := h
    exact ⟨⟨rfl, rfl, rfl, rfl, rfl⟩, rfl⟩
  case registerBridge caller bridgeId feeBps minAmount =>
    simp only [registerBridge, validateId, requireAdmin_seq, failIf_seq, view_seq, store_seq,
      store_ok] at h
    obtain ⟨-, -, -, -, -, hfresh, rfl⟩ := h
    rw [Bool.not_eq_true, Option.isSome_eq_false_iff, Option.isNone_iff_eq_none] at hfresh
    have hnone : withdrawnOf s bridgeId = 0 := by
      rw [withdrawnOf, hfresh]
      rfl
    refine ⟨⟨rfl, rfl, rfl, rfl, rfl⟩, ?_⟩
    change withdrawnOf (saveBridge bridgeId _ s) = _
    rw [withdrawnOf_saveBridge, ← hnone, Function.update_eq_self]
  case setBridgeFee =>
    simp only [setBridgeFee, requireAdmin_seq, failIf_seq, loadBridge_seq, store_ok] at h
    obtain ⟨-, -, -, cfg, hcfg, rfl⟩ := h
    exact .saveBridge (withdrawnOf_of_some hcfg).symm
  case setBridgeActive =>
    simp only [setBridgeActive, requireAdmin_seq, loadBridge_seq, store_ok] at h
    obtain ⟨-, -, cfg, hcfg, rfl⟩ := h
    exact .saveBridge (withdrawnOf_of_some hcfg).symm
  case bridgeDeposit =>
    simp only [bridgeDeposit, requireAuth_seq, view_seq, failIf_seq, loadBridge_seq, orTrap_seq,
      okOr_seq, store_seq, pure_ok] at h
    obtain ⟨-, -, -, cfg, hcfg, -, -, _, -, _, -, _, -, -, rfl⟩ := h
    exact .saveBridge (withdrawnOf_of_some hcfg).symm
  case setBridgeAcceptancePaused =>
    simp only [setBridgeAcceptancePaused, requireAdmin_seq, store_ok] at h
    obtain ⟨-, -, rfl⟩ := h
    exact ⟨⟨rfl, rfl, rfl, rfl, rfl⟩, rfl⟩
  case setBridgeSecurityConfig =>
    simp only [setBridgeSecurityConfig, validateSecurityConfig, requireAdmin_seq, failIf_seq,
      store_ok] at h
    obtain ⟨-, -, -, rfl⟩ := h
    exact ⟨⟨rfl, rfl, rfl, rfl, rfl⟩, rfl⟩
  case closeChannelEmergency =>
    simp only [closeChannelEmergency, requireAdmin_seq, view_seq, store_seq, store_ok] at h
    obtain ⟨-, -, rfl⟩ := h
    exact ⟨⟨rfl, rfl, rfl, rfl, rfl⟩, rfl⟩
  case reopenChannel =>
    simp only [reopenChannel, requireAdmin_seq, view_seq, store_ok] at h
    obtain ⟨-, -, rfl⟩ := h
    exact ⟨⟨rfl, rfl, rfl, rfl, rfl⟩, rfl⟩
  case transferAdmin =>
    simp only [transferAdmin, requireAdmin_seq, store_ok] at h
    obtain ⟨-, -, rfl⟩ := h
    exact ⟨⟨rfl, rfl, rfl, rfl, rfl⟩, rfl⟩

end StellarLend.Bridge
