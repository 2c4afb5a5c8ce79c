import StellarLend.Foundations.History
import StellarLend.Bridge.Accounting
import StellarLend.Bridge.Registry

/-!
# Bridge/Replay — what one channel accepts

    last observed nonce    0 ──accept n──▸ n ──accept m, n < m──▸ m

The last nonce of a channel is compared only if it is not zero, and zero is also a nonce.  After a
first message with the nonce 0 a channel accepts another one, from another transaction; this is the
one way to accept a message out of order.
-/

namespace StellarLend.Bridge

open Foundations Call

variable {e : Env} {s s' : Storage} {tx : Tx}

/-- The message a transaction submits. -/
def Op.inputs : Op → List CrossChainMessageInput
  | .submitCrossChainMessage _ input => [input]
  | _ => []

/-- A transaction submits one message or none. -/
theorem Op.inputs_cases (op : Op) :
    op.inputs = [] ∨ ∃ caller input, op = .submitCrossChainMessage caller input := by
  cases op
  case submitCrossChainMessage caller input => exact .inr ⟨caller, input, rfl⟩
  all_goals exact .inl rfl

/-- The messages a run accepts, first to last. -/
def accepted (txs : List Tx) : List CrossChainMessageInput :=
  history step (fun _ tx => tx.op.inputs) Storage.empty txs

/-- A message may come after another. -/
structure CrossChainMessageInput.Follows (a b : CrossChainMessageInput) : Prop where
  source : a.sourceKey ≠ b.sourceKey
  nonce : a.channelId = b.channelId → a.nonce < b.nonce
  height : a.channelId = b.channelId → a.sourceHeight ≤ b.sourceHeight

/-- Each accepted message may come after all those before it: it has another source, and on its
channel a higher nonce and no lower height. -/
def ReplayProtected (txs : List Tx) : Prop :=
  (accepted txs).Pairwise CrossChainMessageInput.Follows

/-- A message with the nonce 0 is the first of its channel. -/
def ZeroFirst (s : Storage) (tx : Tx) : Prop := ∀ input ∈ tx.op.inputs, input.nonce = 0 →
  ∀ key : SourceMessageKey, key.channelId = input.channelId → s.messageSource key = none

/-! ## What the store knows of the accepted messages -/

/-- The sources of the accepted messages are on record, no other is, and the channels have seen
their nonces and heights. -/
structure Recorded (h : List CrossChainMessageInput) (s : Storage) : Prop where
  known : ∀ key, s.messageSource key ≠ none ↔ ∃ a ∈ h, a.sourceKey = key
  nonce : ∀ a ∈ h, a.nonce ≤ (loadChannelState s a.channelId).lastObservedNonce
  height : ∀ a ∈ h, a.sourceHeight ≤ (loadChannelState s a.channelId).lastObservedHeight

theorem Recorded.empty : Recorded [] Storage.empty where
  known _ := by simp [Storage.empty]
  nonce _ ha := by cases ha
  height _ ha := by cases ha

/-- Neither sources nor what the channels have seen change. -/
structure SameSeen (s s' : Storage) : Prop where
  sources : s'.messageSource = s.messageSource
  nonce : ∀ c, (loadChannelState s' c).lastObservedNonce = (loadChannelState s c).lastObservedNonce
  height : ∀ c,
    (loadChannelState s' c).lastObservedHeight = (loadChannelState s c).lastObservedHeight

theorem Untouched.sameSeen (h : Untouched s s') : SameSeen s s' where
  sources := h.sources
  nonce c := by rw [h.load]
  height c := by rw [h.load]

/-- A channel rewritten with the nonce and the height it had. -/
theorem Rewritten.sameSeen {channelId : String} {state : ChannelState}
    (h : Rewritten s channelId state s')
    (hnonce : state.lastObservedNonce = (loadChannelState s channelId).lastObservedNonce)
    (hheight : state.lastObservedHeight = (loadChannelState s channelId).lastObservedHeight) :
    SameSeen s s' where
  sources := h.sources
  nonce c := by
    rw [h.load]
    split
    case isTrue hc => rw [hnonce, hc]
    case isFalse => rfl
  height c := by
    rw [h.load]
    split
    case isTrue hc => rw [hheight, hc]
    case isFalse => rfl

/-- Only an accepted message is seen. -/
theorem step_sameSeen (hstep : step tx s = some s') (hop : tx.op.inputs = []) :
    SameSeen s s' := by
  have h := step_channels hstep
  obtain ⟨e, op⟩ := tx
  cases op
  case submitCrossChainMessage => exact absurd hop (List.cons_ne_nil _ _)
  case attestCrossChainMessage validator messageId approve =>
    cases approve with
    | true => exact Untouched.sameSeen h
    | false =>
      obtain ⟨message, -, hrecorded⟩ := h
      exact Rewritten.sameSeen hrecorded rfl rfl
  case slashConflictingMessages =>
    obtain ⟨first, -, hrecorded⟩ := h
    exact Rewritten.sameSeen hrecorded rfl rfl
  case closeChannelEmergency => exact Rewritten.sameSeen h rfl rfl
  case reopenChannel => exact Rewritten.sameSeen h rfl rfl
  all_goals exact Untouched.sameSeen h

theorem Recorded.sameSeen {h : List CrossChainMessageInput} (hs : Recorded h s)
    (hsame : SameSeen s s') : Recorded h s' where
  known key := by rw [hsame.sources, hs.known]
  nonce a ha := by rw [hsame.nonce]; exact hs.nonce a ha
  height a ha := by rw [hsame.height]; exact hs.height a ha

/-- An accepted message has a nonce and a height no lower than those its channel has seen. -/
theorem Submitted.seen {input : CrossChainMessageInput} (h : Submitted e s input s') :
    (loadChannelState s input.channelId).lastObservedNonce ≤ input.nonce ∧
      (loadChannelState s input.channelId).lastObservedHeight ≤ input.sourceHeight := by
  obtain hnonce := h.nonce
  obtain hheight := h.height
  omega

theorem Recorded.submitted {h : List CrossChainMessageInput} {input : CrossChainMessageInput}
    (hs : Recorded h s) (hsub : Submitted e s input s') : Recorded (h ++ [input]) s' where
  known key := by
    rw [hsub.sources, Function.update_apply]
    simp only [List.mem_append, List.mem_singleton, or_and_right, exists_or, exists_eq_left]
    split
    case isTrue hkey => simp [hkey]
    case isFalse hkey => rw [hs.known, or_iff_left (Ne.symm hkey)]
  nonce a ha := by
    rw [hsub.channel]
    split
    case isTrue hc =>
      obtain ha | rfl := List.mem_append.mp ha |>.imp_right List.mem_singleton.mp
      · exact (hc ▸ hs.nonce a ha).trans hsub.seen.1
      · exact le_rfl
    case isFalse hc =>
      obtain ha | rfl := List.mem_append.mp ha |>.imp_right List.mem_singleton.mp
      · exact hs.nonce a ha
      · exact absurd rfl hc
  height a ha := by
    rw [hsub.channel]
    split
    case isTrue hc =>
      obtain ha | rfl := List.mem_append.mp ha |>.imp_right List.mem_singleton.mp
      · exact (hc ▸ hs.height a ha).trans hsub.seen.2
      · exact le_rfl
    case isFalse hc =>
      obtain ha | rfl := List.mem_append.mp ha |>.imp_right List.mem_singleton.mp
      · exact hs.height a ha
      · exact absurd rfl hc

theorem Recorded.step {h : List CrossChainMessageInput} (hs : Recorded h s)
    (hstep : step tx s = some s') : Recorded (h ++ tx.op.inputs) s' := by
  obtain ⟨e, op⟩ := tx
  obtain hnone | ⟨caller, input, rfl⟩ := op.inputs_cases
  · rw [hnone, List.append_nil]
    exact hs.sameSeen (step_sameSeen hstep hnone)
  · exact hs.submitted (step_effect hstep)

/-! ## Order -/

/-- An accepted message comes after the ones before it exactly if it is not a second zero. -/
theorem Recorded.follows_iff {h : List CrossChainMessageInput} {input : CrossChainMessageInput}
    (hs : Recorded h s) (hsub : Submitted e s input s') :
    (∀ a ∈ h, a.Follows input) ↔ (input.nonce = 0 →
      ∀ key : SourceMessageKey, key.channelId = input.channelId → s.messageSource key = none) := by
  constructor
  · intro hfollows hzero key hkey
    by_contra hknown
    obtain ⟨a, ha, rfl⟩ := (hs.known key).mp hknown
    have hlt := (hfollows a ha).nonce hkey
    omega
  · intro hfirst a ha
    have hknown : s.messageSource a.sourceKey ≠ none := (hs.known _).mpr ⟨a, ha, rfl⟩
    refine ⟨fun heq => hknown (heq ▸ hsub.fresh), fun hc => ?_, fun hc => ?_⟩
    · have hseen := hc ▸ hs.nonce a ha
      have hpositive : input.nonce ≠ 0 := fun hzero => hknown (hfirst hzero _ hc)
      have hnonce := hsub.nonce
      omega
    · exact (hc ▸ hs.height a ha).trans hsub.seen.2

theorem zeroFirst_iff_pairwise {h : List CrossChainMessageInput} (hs : Recorded h s)
    (hpairwise : h.Pairwise CrossChainMessageInput.Follows) (hstep : step tx s = some s') :
    ZeroFirst s tx ↔ (h ++ tx.op.inputs).Pairwise CrossChainMessageInput.Follows := by
  obtain ⟨e, op⟩ := tx
  obtain hnone | ⟨caller, input, rfl⟩ := op.inputs_cases
  · rw [ZeroFirst, hnone, List.append_nil]
    exact iff_of_true (fun _ hinput => absurd hinput List.not_mem_nil) hpairwise
  · have hfollows := hs.follows_iff (step_effect hstep)
    simp only [ZeroFirst, Op.inputs, List.pairwise_append, hpairwise, List.pairwise_singleton,
      true_and, List.mem_singleton, forall_eq, hfollows]

/-- **What a channel accepts is in order exactly if no message with the nonce 0 comes after another
message of its channel.** -/
theorem replay_protected_iff (txs : List Tx) :
    ReplayProtected txs ↔ Meets step ZeroFirst Storage.empty txs :=
  (meets_iff_history (h := []) (I := Recorded) (fun _ _ h => (List.pairwise_append.mp h).1)
    (fun _ _ _ _ hstep hs => hs.step hstep)
    (fun _ _ _ _ hstep hs hpairwise => zeroFirst_iff_pairwise hs hpairwise hstep)
    Recorded.empty List.Pairwise.nil).symm

/-! ## Two zeros -/

namespace Sample

/-- Two transactions of the source chain with the nonce 0, on one channel. -/
def twoZeros : List Tx :=
  deploy ++ [⟨⟨1, [alice]⟩, .submitCrossChainMessage alice (input "a" 0)⟩,
    ⟨⟨1, [alice]⟩, .submitCrossChainMessage alice { input "a" 0 with sourceTxId := "other" }⟩]

end Sample

theorem not_replayProtected_twoZeros : ¬ ReplayProtected Sample.twoZeros := by
  have haccepted : accepted Sample.twoZeros =
      [Sample.input "a" 0, { Sample.input "a" 0 with sourceTxId := "other" }] := by
    decide
  rw [ReplayProtected, haccepted]
  intro h
  have hfollows := List.rel_of_pairwise_cons h (List.mem_singleton.mpr rfl)
  exact absurd (hfollows.nonce rfl) (lt_irrefl 0)

end StellarLend.Bridge
