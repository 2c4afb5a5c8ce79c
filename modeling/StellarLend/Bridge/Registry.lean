import StellarLend.Foundations.IndexedMap
import StellarLend.Foundations.Quorum
import StellarLend.Bridge.Effects

/-!
# Bridge/Registry — channels, messages and validators under their own names

A call rewrites at most one channel.  A rejection and a slashing record an anomaly there; the admin
closes and reopens; an accepted message leaves its nonce and its height.

In every state the list of validators and their records name the same addresses, a vote is by a
validator and on a message, and a message is stored under its number.  Numbers are given out in
order, until they saturate.
-/

namespace StellarLend.Bridge

open Foundations Call

section

variable {e : Env} {s s' : Storage} {tx : Tx} {channelId reason : String}

/-! ## Anomalies -/

/-- A channel after an anomaly. -/
def ChannelState.anomalous (threshold : ℕ) (reason : String) (state : ChannelState) :
    ChannelState :=
  { state with
    anomalyCount := U32.saturatingAdd state.anomalyCount 1
    reason := reason
    emergencyClosed := if threshold ≤ U32.saturatingAdd state.anomalyCount 1 then true
      else state.emergencyClosed }

/-- An anomaly is recorded on its channel and in the statistics. -/
theorem recordChannelAnomaly_eq (channelId reason : String) (s : Storage) :
    ∃ stats, recordChannelAnomaly channelId reason s =
      { saveChannelState channelId ((loadChannelState s channelId).anomalous
          (loadSecurityConfig s).anomalyCloseThreshold reason) s with stats := stats } := by
  simp only [recordChannelAnomaly, ChannelState.anomalous]
  split
  · exact ⟨_, rfl⟩
  · exact ⟨_, rfl⟩

/-! ## Rewriting a channel -/

/-- No channel is touched. -/
structure Untouched (s s' : Storage) : Prop where
  sources : s'.messageSource = s.messageSource
  channel : s'.channel = s.channel

/-- One channel is rewritten. -/
structure Rewritten (s : Storage) (channelId : String) (state : ChannelState) (s' : Storage) :
    Prop where
  sources : s'.messageSource = s.messageSource
  channel : s'.channel = Function.update s.channel channelId (some state)

theorem Untouched.load (h : Untouched s s') (c : String) :
    loadChannelState s' c = loadChannelState s c := by
  rw [loadChannelState, h.channel, loadChannelState]

theorem Rewritten.load {state : ChannelState} (h : Rewritten s channelId state s') (c : String) :
    loadChannelState s' c = if c = channelId then state else loadChannelState s c := by
  rw [loadChannelState, h.channel, Function.update_apply]
  split <;> rfl

/-- An anomaly is recorded on the channel. -/
def AnomalyRecorded (s : Storage) (channelId reason : String) (s' : Storage) : Prop :=
  Rewritten s channelId ((loadChannelState s channelId).anomalous
    (loadSecurityConfig s).anomalyCloseThreshold reason) s'

/-- Recording an anomaly is recorded beside whatever else leaves the channels alone. -/
theorem AnomalyRecorded.of_eq {t : Storage} (hsources : t.messageSource = s.messageSource)
    (hchannel : t.channel = s.channel) (hconfig : t.securityConfig = s.securityConfig) :
    AnomalyRecorded s channelId reason (recordChannelAnomaly channelId reason t) := by
  obtain ⟨stats, hafter⟩ := recordChannelAnomaly_eq channelId reason t
  rw [hafter]
  refine ⟨hsources, ?_⟩
  change Function.update t.channel channelId _ = _
  rw [loadChannelState, loadSecurityConfig, hchannel, hconfig]
  rfl

theorem Attested.anomaly {validator : Lending.Address} {messageId : ℕ} {record : ValidatorRecord}
    {message : CrossChainMessage} (h : Attested s validator messageId false record message s') :
    AnomalyRecorded s message.channelId "validator_rejection" s' := by
  have hrecorded : AnomalyRecorded s message.channelId "validator_rejection"
      (recordChannelAnomaly message.channelId "validator_rejection"
        (saveAttestation messageId validator false s)) := .of_eq rfl rfl rfl
  rw [h.after]
  exact ⟨hrecorded.sources, hrecorded.channel⟩

theorem Slashed.anomaly {firstId secondId : ℕ} {first second : CrossChainMessage}
    {slashed : List Lending.Address} {t : Storage}
    (h : Slashed s firstId secondId first second slashed t s') :
    AnomalyRecorded s first.channelId "conflicting_message_attestations" s' := by
  rw [h.after, h.loop.frame]
  exact .of_eq rfl rfl rfl

/-! ## Every call -/

/-- What a transaction does to the channels. -/
def Op.Channels (e : Env) (s s' : Storage) : Op → Prop
  | .submitCrossChainMessage _ input => Submitted e s input s'
  | .attestCrossChainMessage _ messageId false => ∃ message, s.message messageId = some message ∧
      AnomalyRecorded s message.channelId "validator_rejection" s'
  | .slashConflictingMessages _ firstId _ => ∃ first, s.message firstId = some first ∧
      AnomalyRecorded s first.channelId "conflicting_message_attestations" s'
  | .closeChannelEmergency _ channelId reason => Rewritten s channelId
      { loadChannelState s channelId with emergencyClosed := true, reason := reason } s'
  | .reopenChannel _ channelId => Rewritten s channelId
      { loadChannelState s channelId with emergencyClosed := false, reason := "" } s'
  | _ => Untouched s s'

/-- **A call rewrites at most one channel.** -/
theorem step_channels (hstep : step tx s = some s') : tx.op.Channels tx.env s s' := by
  have heffect := step_effect hstep
  obtain ⟨e, op⟩ := tx
  cases op <;> simp only [step, commit_eq_some] at hstep <;> obtain ⟨a, h⟩ := hstep
  case submitCrossChainMessage => exact heffect
  case attestCrossChainMessage validator messageId approve =>
    obtain ⟨record, message, hattested⟩ := heffect
    cases approve with
    | true =>
      have hafter := hattested.after
      rw [if_pos rfl] at hafter
      exact ⟨by rw [hafter]; rfl, by rw [hafter]; rfl⟩
    | false => exact ⟨message, hattested.message_eq, hattested.anomaly⟩
  case slashConflictingMessages =>
    obtain ⟨first, second, slashed, t, hslashed⟩ := heffect
    exact ⟨first, hslashed.first_eq, hslashed.anomaly⟩
  case registerValidator =>
    have hafter := heffect.after
    exact ⟨by rw [hafter]; rfl, by rw [hafter]; rfl⟩
  case setValidatorActive =>
    obtain ⟨record, hswitched⟩ := heffect
    exact ⟨by rw [hswitched.after]; rfl, by rw [hswitched.after]; rfl⟩
  case executeVerifiedWithdrawal =>
    obtain ⟨message, bridge, hexecuted⟩ := heffect
    exact ⟨by rw [hexecuted.after]; rfl, by rw [hexecuted.after]; rfl⟩
  case closeChannelEmergency =>
    simp only [closeChannelEmergency, requireAdmin_seq, view_seq, store_seq, store_ok] at h
    obtain ⟨_, _, ⟨-, -, rfl⟩, _, _, ⟨rfl, rfl⟩, _, _, rfl, rfl⟩ := h
    exact ⟨rfl, rfl⟩
  case reopenChannel =>
    simp only [reopenChannel, requireAdmin_seq, view_seq, store_ok] at h
    obtain ⟨_, _, ⟨-, -, rfl⟩, _, _, ⟨rfl, rfl⟩, rfl⟩ := h
    exact ⟨rfl, rfl⟩
  case init =>
    simp only [init, view_seq, failIf_seq, store_ok] at h
    obtain ⟨_, _, ⟨rfl, rfl⟩, _, _, ⟨-, rfl⟩, rfl⟩ := h
    exact ⟨rfl, rfl⟩
  case registerBridge =>
    simp only [registerBridge, validateId, bind_ok, requireAdmin_ok, failIf_ok, view_ok, store_ok]
      at h
    obtain ⟨_, _, ⟨-, -, rfl⟩, _, _, ⟨-, rfl⟩, _, _, ⟨-, rfl⟩, _, _, ⟨-, rfl⟩, _, _, ⟨rfl, rfl⟩,
      _, _, ⟨-, rfl⟩, _, _, rfl, rfl⟩ := h
    exact ⟨rfl, rfl⟩
  case setBridgeFee =>
    simp only [setBridgeFee, requireAdmin_seq, failIf_seq, loadBridge_seq, store_ok] at h
    obtain ⟨-, -, -, _, -, rfl⟩ := h
    exact ⟨rfl, rfl⟩
  case setBridgeActive =>
    simp only [setBridgeActive, requireAdmin_seq, loadBridge_seq, store_ok] at h
    obtain ⟨-, -, _, -, rfl⟩ := h
    exact ⟨rfl, rfl⟩
  case bridgeDeposit =>
    simp only [bridgeDeposit, requireAuth_seq, view_seq, failIf_seq, loadBridge_seq, orTrap_seq,
      okOr_seq, store_seq, pure_ok] at h
    obtain ⟨-, -, -, _, -, -, -, _, -, _, -, _, -, -, rfl⟩ := h
    exact ⟨rfl, rfl⟩
  case bridgeWithdraw =>
    simp only [bridgeWithdraw, requireAdmin_seq, failIf_seq, loadBridge_seq, okOr_seq, store_ok]
      at h
    obtain ⟨-, -, -, _, -, -, _, -, rfl⟩ := h
    exact ⟨rfl, rfl⟩
  case setBridgeAcceptancePaused =>
    simp only [setBridgeAcceptancePaused, requireAdmin_seq, store_ok] at h
    obtain ⟨-, -, rfl⟩ := h
    exact ⟨rfl, rfl⟩
  case setBridgeSecurityConfig =>
    simp only [setBridgeSecurityConfig, validateSecurityConfig, requireAdmin_seq, failIf_seq,
      store_ok] at h
    obtain ⟨-, -, -, rfl⟩ := h
    exact ⟨rfl, rfl⟩
  case transferAdmin =>
    simp only [transferAdmin, requireAdmin_seq, store_ok] at h
    obtain ⟨-, -, rfl⟩ := h
    exact ⟨rfl, rfl⟩

end

/-! ## Messages and validators -/

section

open Foundations Call
open Lending (Address)

variable {e : Env} {s s' t : Storage}

structure Registry (s : Storage) : Prop where
  listed : ∀ v, v ∈ validatorList s ↔ (s.validator v).isSome
  nodup : (validatorList s).Nodup
  voter : ∀ id v, (s.messageAttestation id v).isSome → (s.validator v).isSome
  subject : ∀ id v, (s.messageAttestation id v).isSome → (s.message id).isSome
  numbered : ∀ id m, s.message id = some m → m.messageId = id ∧ id ≤ s.nextMessageId.getD 0
  bounded : s.nextMessageId.getD 0 ≤ U64.MAX

theorem Registry.empty : Registry Storage.empty where
  listed v := by simp [validatorList, Storage.empty]
  nodup := List.nodup_nil
  voter _ _ h := h
  subject _ _ h := h
  numbered id m h := by cases h
  bounded := Nat.zero_le _

namespace Registry

/-- A message rewritten under its number is still there, as are the others. -/
theorem isSome_update {m : CrossChainMessage} {id n : ℕ} (h : (s.message id).isSome) :
    (Function.update s.message n (some m) id).isSome := by
  rw [Function.update_apply]
  split
  · rfl
  · exact h

/-- A message written under its number keeps the numbering. -/
theorem numbered_update {f : ℕ → Option CrossChainMessage} {m : CrossChainMessage} {next n : ℕ}
    (hf : ∀ id m, f id = some m → m.messageId = id ∧ id ≤ next) (hnext : next ≤ n)
    (hm : m.messageId ≤ n) (id : ℕ) (m' : CrossChainMessage)
    (h : Function.update f m.messageId (some m) id = some m') : m'.messageId = id ∧ id ≤ n :=
  forall_update (fun k w hw => (hf k w hw).imp_right hnext.trans') ⟨rfl, hm⟩ id m' h

/-- The message a number leads to bears that number. -/
theorem messageId_le (hs : Registry s) {id : ℕ} {m : CrossChainMessage}
    (h : s.message id = some m) : m.messageId ≤ s.nextMessageId.getD 0 := by
  obtain ⟨hid, hle⟩ := hs.numbered id m h
  rwa [hid]

/-- What is known of a registry when lists and votes stay. -/
theorem of_same (hs : Registry s) (hlist : s'.validatorList = s.validatorList)
    (hvalidator : ∀ v, (s'.validator v).isSome = (s.validator v).isSome)
    (hattestation : s'.messageAttestation = s.messageAttestation)
    (hmessage : ∀ id, (s.message id).isSome → (s'.message id).isSome)
    (hnumbered : ∀ id m, s'.message id = some m →
      m.messageId = id ∧ id ≤ s'.nextMessageId.getD 0)
    (hbounded : s'.nextMessageId.getD 0 ≤ U64.MAX) : Registry s' where
  listed v := by rw [validatorList, hlist, hvalidator]; exact hs.listed v
  nodup := by rw [validatorList, hlist]; exact hs.nodup
  voter id v h := by rw [hvalidator]; exact hs.voter id v (hattestation ▸ h)
  subject id v h := hmessage id (hs.subject id v (hattestation ▸ h))
  numbered := hnumbered
  bounded := hbounded

theorem sameMessages (hs : Registry s) (h : SameMessages s s') : Registry s' := by
  refine hs.of_same h.list (fun v => by rw [h.validator]) h.attestation (fun id hid => ?_)
    (fun id m hm => ?_) (h.next ▸ hs.bounded)
  · rwa [h.message]
  · rw [h.message] at hm
    rw [h.next]
    exact hs.numbered id m hm

theorem registered {validator : Address} {stake : ℤ} (hs : Registry s)
    (h : Registered s validator stake s') : Registry s' := by
  have hunlisted : validator ∉ validatorList s := by
    rw [hs.listed, h.fresh]
    exact Bool.false_ne_true
  have hlist : validatorList s' = validatorList s ++ [validator] := by
    rw [h.after]
    rfl
  have hvalidator : ∀ v, (s'.validator v).isSome ↔ v = validator ∨ (s.validator v).isSome := by
    intro v
    rw [h.after]
    change (Function.update s.validator validator _ v).isSome ↔ _
    rw [Function.update_apply]
    split <;> simp_all
  have hattestation : s'.messageAttestation = s.messageAttestation := by
    rw [h.after]
    rfl
  have hrest : s'.message = s.message ∧ s'.nextMessageId = s.nextMessageId := by
    rw [h.after]
    exact ⟨rfl, rfl⟩
  refine ⟨fun v => ?_, ?_, fun id v hv => ?_, fun id v hv => ?_, ?_, ?_⟩
  · rw [hlist, hvalidator, List.mem_append, List.mem_singleton, hs.listed, or_comm]
  · rw [hlist]
    exact nodup_snoc hs.nodup hunlisted
  · exact (hvalidator v).mpr (.inr (hs.voter id v (hattestation ▸ hv)))
  · rw [hrest.1]
    exact hs.subject id v (hattestation ▸ hv)
  · rw [hrest.1, hrest.2]
    exact hs.numbered
  · rw [hrest.2]
    exact hs.bounded

theorem switched {validator : Address} {active : Bool} {record : ValidatorRecord} (hs : Registry s)
    (h : Switched s validator active record s') : Registry s' := by
  rw [h.after]
  refine hs.of_same rfl (fun v => ?_) rfl (fun _ hid => hid) hs.numbered hs.bounded
  change (Function.update s.validator validator _ v).isSome = _
  rw [Function.update_apply]
  split
  case isTrue hv => rw [hv, h.record_eq]; rfl
  case isFalse => rfl

theorem le_nextId (hs : Registry s) : s.nextMessageId.getD 0 ≤ nextId s :=
  le_min (Nat.le_add_right _ _) hs.bounded

theorem submitted {input : CrossChainMessageInput} (hs : Registry s)
    (h : Submitted e s input s') : Registry s' := by
  obtain ⟨stats, rfl⟩ := h.written
  refine hs.of_same rfl (fun _ => rfl) rfl (fun _ hid => isSome_update hid) (fun id m hm => ?_)
    (min_le_right _ _)
  have hnumbered : (input.message (nextId s) e.sequence (loadSecurityConfig s)).messageId ≤
      nextId s := le_rfl
  exact numbered_update hs.numbered hs.le_nextId hnumbered id m hm

theorem attested {validator : Address} {messageId : ℕ} {approve : Bool} {record : ValidatorRecord}
    {message : CrossChainMessage} (hs : Registry s)
    (h : Attested s validator messageId approve record message s') : Registry s' := by
  have hvalidator : ∀ v, (s'.validator v).isSome = (s.validator v).isSome := by
    intro v
    obtain ⟨f, hf⟩ := h.validators v
    rw [hf, Option.isSome_map]
  have hmessage : ∀ id, (s.message id).isSome → (s'.message id).isSome := by
    intro id hid
    rw [h.messages]
    exact isSome_update hid
  have hattestation : ∀ id v, (s'.messageAttestation id v).isSome →
      (s.messageAttestation id v).isSome ∨ id = messageId ∧ v = validator := by
    intro id v hv
    rw [h.attestations] at hv
    by_cases hid : id = messageId
    · rw [hid, Function.update_self] at hv
      by_cases hvv : v = validator
      · exact .inr ⟨hid, hvv⟩
      · rw [Function.update_of_ne hvv] at hv
        exact .inl (hid ▸ hv)
    · rw [Function.update_of_ne hid] at hv
      exact .inl hv
  refine ⟨fun v => ?_, ?_, fun id v hv => ?_, fun id v hv => ?_, fun id m hm => ?_,
    h.next ▸ hs.bounded⟩
  · rw [validatorList, h.list, hvalidator]
    exact hs.listed v
  · rw [validatorList, h.list]
    exact hs.nodup
  · rw [hvalidator]
    obtain hold | ⟨-, rfl⟩ := hattestation id v hv
    · exact hs.voter id v hold
    · rw [h.record_eq]
      rfl
  · refine hmessage id ?_
    obtain hold | ⟨rfl, -⟩ := hattestation id v hv
    · exact hs.subject id v hold
    · rw [h.message_eq]
      rfl
  · rw [h.messages, ← CrossChainMessage.voted_messageId approve message] at hm
    rw [h.next]
    refine numbered_update hs.numbered le_rfl ?_ id m hm
    rw [CrossChainMessage.voted_messageId]
    exact hs.messageId_le h.message_eq

theorem executed {messageId : ℕ} {message : CrossChainMessage} {bridge : BridgeConfig}
    (hs : Registry s) (h : Executed e s messageId message bridge s') : Registry s' := by
  have hle := hs.messageId_le h.message_eq
  rw [h.after]
  refine hs.of_same rfl (fun _ => rfl) rfl (fun _ hid => isSome_update hid) (fun id m hm => ?_)
    hs.bounded
  exact numbered_update (m := { message with executed := true }) hs.numbered le_rfl hle id m hm

theorem slashed {firstId secondId : ℕ} {first second : CrossChainMessage} {slashed : List Address}
    (hs : Registry s) (h : Slashed s firstId secondId first second slashed t s') : Registry s' := by
  refine hs.of_same h.frame.list (fun v => ?_) h.frame.attestation (fun id hid => ?_)
    (fun id m hm => ?_) (h.frame.next ▸ hs.bounded)
  · rw [h.frame.validator]
    change (t.validator v).isSome = _
    rw [h.loop.validator hs.nodup v]
    split
    · rw [Option.isSome_map]
    · rfl
  · rw [h.messages, Function.update_apply]
    split
    · rfl
    · exact isSome_update hid
  · rw [h.messages] at hm
    rw [h.frame.next]
    have hfirst := hs.messageId_le h.first_eq
    have hsecond := hs.messageId_le h.second_eq
    exact numbered_update (m := { second with invalidated := true })
      (numbered_update (m := { first with invalidated := true }) hs.numbered le_rfl hfirst) le_rfl
      hsecond id m hm

/-- Executing a message marks that message. -/
theorem message_executed {messageId : ℕ} {message : CrossChainMessage} {bridge : BridgeConfig}
    (hs : Registry s) (h : Executed e s messageId message bridge s') (id : ℕ) :
    s'.message id = (s.message id).map fun m =>
      if id = messageId then { m with executed := true } else m := by
  have hafter : s'.message = Function.update s.message message.messageId
      (some { message with executed := true }) := by
    rw [h.after]
    rfl
  have hnumber := (hs.numbered _ _ h.message_eq).1
  rw [hafter, Function.update_apply]
  by_cases hid : id = messageId
  · rw [if_pos (hid.trans hnumber.symm), hid, h.message_eq, Option.map_some, if_pos rfl]
  · rw [if_neg fun heq => hid (heq.trans hnumber)]
    simp [hid]

/-- A slashing marks the two messages. -/
theorem message_slashed {firstId secondId : ℕ} {first second : CrossChainMessage}
    {slashed : List Address} (hs : Registry s)
    (h : Slashed s firstId secondId first second slashed t s') (id : ℕ) :
    s'.message id = (s.message id).map fun m =>
      if id = firstId ∨ id = secondId then { m with invalidated := true } else m := by
  have hnumber := (hs.numbered _ _ h.first_eq).1
  have hnumber' := (hs.numbered _ _ h.second_eq).1
  rw [h.messages, Function.update_apply, Function.update_apply]
  by_cases hsecond : id = secondId
  · rw [if_pos (hsecond.trans hnumber'.symm), hsecond, h.second_eq, Option.map_some,
      if_pos (.inr rfl)]
  · rw [if_neg fun heq => hsecond (heq.trans hnumber')]
    by_cases hfirst : id = firstId
    · rw [if_pos (hfirst.trans hnumber.symm), hfirst, h.first_eq, Option.map_some,
        if_pos (.inl rfl)]
    · rw [if_neg fun heq => hfirst (heq.trans hnumber)]
      simp [hfirst, hsecond]

/-- **Every step keeps the registry.** -/
theorem step {tx : Tx} (hs : Registry s) (hstep : step tx s = some s') : Registry s' := by
  have heffect := step_effect hstep
  obtain ⟨e, op⟩ := tx
  cases op
  case bridgeWithdraw => exact hs.sameMessages heffect.toSameMessages
  case registerValidator => exact hs.registered heffect
  case setValidatorActive =>
    obtain ⟨record, h⟩ := heffect
    exact hs.switched h
  case submitCrossChainMessage => exact hs.submitted heffect
  case attestCrossChainMessage =>
    obtain ⟨record, message, h⟩ := heffect
    exact hs.attested h
  case executeVerifiedWithdrawal =>
    obtain ⟨message, bridge, h⟩ := heffect
    exact hs.executed h
  case slashConflictingMessages =>
    obtain ⟨first, second, slashed, t, h⟩ := heffect
    exact hs.slashed h
  all_goals exact hs.sameMessages (Administered.toSameMessages heffect)

end Registry

theorem registry_ledger (txs : List Tx) : Registry (ledger txs) :=
  run_invariant (fun _ _ _ hstep hs => hs.step hstep) txs Registry.empty

end

end StellarLend.Bridge
