import Mathlib.Data.List.Induction
import StellarLend.Bridge.Accounting
import StellarLend.Bridge.Registry

/-!
# Bridge/Shutdown — when anomalies close a channel

    open ──anomaly──▸ … ──anomaly, the threshold reached──▸ closed ──reopen──▸ open

A submission that breaks a rule writes its anomaly and returns an error, so the write is undone with
it: no number of violations closes a channel.  What does close it are the rejections and the
conflicts that a successful call records; and since a reopening keeps the counter, the first of them
after it may close the channel again.
-/

namespace StellarLend.Bridge

open Foundations Call
open Lending (Address)

variable {e : Env} {s s' : Storage} {tx : Tx} {channelId : String} {caller : Address}
  {input : CrossChainMessageInput}

/-! ## Violations -/

/-- The submission is signed and well formed. -/
def Admitted (e : Env) (caller : Address) (input : CrossChainMessageInput) : Prop :=
  caller ∈ e.auths ∧
    (∀ id ∈ [input.bridgeId, input.channelId, input.sourceChain],
      ¬ (id.utf8ByteSize = 0 ∨ MAX_ID_LEN < id.utf8ByteSize)) ∧ 0 < input.amount

/-- The message was accepted before, or comes out of order. -/
def Untimely (s : Storage) (input : CrossChainMessageInput) : Prop :=
  (s.messageSource input.sourceKey).isSome = true ∨
    ((loadChannelState s input.channelId).lastObservedNonce ≠ 0 ∧
      input.nonce ≤ (loadChannelState s input.channelId).lastObservedNonce) ∨
    ((loadChannelState s input.channelId).lastObservedHeight ≠ 0 ∧
      input.sourceHeight < (loadChannelState s input.channelId).lastObservedHeight)

/-- The message would be taken if it came in time. -/
def Receivable (s : Storage) (input : CrossChainMessageInput) : Prop :=
  (∃ cfg ∈ s.bridge input.bridgeId, cfg.minAmount ≤ input.amount) ∧
    (loadChannelState s input.channelId).emergencyClosed = false

/-- The submission has an unsupported version, is a replay, or is out of order. -/
def Violates (e : Env) (s : Storage) (caller : Address) (input : CrossChainMessageInput) : Prop :=
  Admitted e caller input ∧
    (input.payloadVersion ≠ (loadSecurityConfig s).supportedMessageVersion ∨
      Receivable s input ∧ Untimely s input)

instance : Decidable (Violates e s caller input) :=
  inferInstanceAs (Decidable ((_ ∧ (∀ _ ∈ _, _) ∧ _) ∧
    (_ ∨ ((∃ _ ∈ s.bridge _, _) ∧ _) ∧ (_ ∨ (_ ∧ _) ∨ (_ ∧ _)))))

/-- The errors of a violation. -/
def violationErrors : List ContractError :=
  [.replayDetected, .invalidMessageOrdering, .invalidMessageVersion]

theorem validateId_ok {id : String} {u : Unit} : validateId id e s = .ok u s' ↔
    ¬ (id.utf8ByteSize = 0 ∨ MAX_ID_LEN < id.utf8ByteSize) ∧ s = s' := failIf_ok

@[simp] theorem loadBridge_err {bridgeId : String} {err : ContractError} :
    loadBridge bridgeId e s = .err err s' ↔
      s.bridge bridgeId = none ∧ .bridgeNotFound = err ∧ s = s' := by
  simp [loadBridge]

@[simp] theorem refuseMessage_err {reason : String} {err err' : ContractError} :
    refuseMessage channelId reason err e s = .err err' s' ↔
      err = err' ∧ recordChannelAnomaly channelId reason s = s' := by
  simp [refuseMessage]

theorem onlyIf_refuseMessage {c : Prop} [Decidable c] {reason : String} {err : ContractError}
    (hc : c) : onlyIf c (refuseMessage channelId reason err) e s =
      .err err (recordChannelAnomaly channelId reason s) := by
  simp [hc]

theorem onlyIf_store_refuseMessage {c : Prop} [Decidable c] {g : Storage → Storage}
    {reason : String} {err : ContractError} (hc : c) :
    onlyIf c (do store g; refuseMessage channelId reason err) e s =
      .err err (recordChannelAnomaly channelId reason (g s)) := by
  simp [hc]

/-- A submission refused as a violation is one. -/
theorem violates_of_refused {err : ContractError} (hmem : err ∈ violationErrors)
    (h : submitCrossChainMessage caller input e s = .err err s') : Violates e s caller input := by
  simp only [submitCrossChainMessage, validateId, ne_eq, nextMessageId, bind_err, requireAuth_err,
    requireAuth_ok, String.utf8ByteSize_eq_zero_iff, failIf_err, failIf_ok, not_or, not_lt, not_le,
    view_err, view_seq, view_ok, onlyIf_err, refuseMessage_err, onlyIf_ok, refuseMessage_ok,
    imp_false, Decidable.not_not, loadBridge_err, loadBridge_ok, Bool.not_eq_true, store_err,
    store_seq, store_ok, exists_eq_left', exists_const, false_or, and_false, exists_false,
    Option.isSome_eq_false_iff, Option.isNone_iff_eq_none, not_and, pure_err, or_self, pure_ok,
    ↓existsAndEq, and_true, asks_err, asks_ok, or_false] at h
  obtain ⟨hauth, ⟨-, rfl, -⟩ | ⟨hbridgeId, h⟩⟩ := h
  · exact absurd hmem (by decide)
  obtain ⟨-, rfl, -⟩ | ⟨hchannelId, h⟩ := h
  · exact absurd hmem (by decide)
  obtain ⟨-, rfl, -⟩ | ⟨hsourceChain, h⟩ := h
  · exact absurd hmem (by decide)
  obtain ⟨-, rfl, -⟩ | ⟨hamount, h⟩ := h
  · exact absurd hmem (by decide)
  have hadmitted : Admitted e caller input := by
    refine ⟨hauth, ?_, hamount⟩
    simp [hbridgeId, hchannelId, hsourceChain]
  obtain ⟨hversion, -⟩ | ⟨_, ⟨hversion, hkept⟩, h⟩ := h
  · exact ⟨hadmitted, .inl hversion⟩
  obtain rfl := hkept hversion
  obtain ⟨-, rfl, -⟩ | ⟨cfg, hcfg, ⟨-, rfl, -⟩ | ⟨hmin, h⟩⟩ := h
  · exact absurd hmem (by decide)
  · exact absurd hmem (by decide)
  obtain ⟨-, rfl, -⟩ | ⟨hopen, h⟩ := h
  · exact absurd hmem (by decide)
  refine ⟨hadmitted, .inr ⟨⟨⟨cfg, hcfg, hmin⟩, hopen⟩, ?_⟩⟩
  obtain ⟨hknown, -⟩ | ⟨_, ⟨-, -⟩, ⟨hnonce, -⟩ | ⟨_, ⟨-, -⟩, hheight, -⟩⟩ := h
  · exact .inl hknown
  · exact .inr (.inl hnonce)
  · exact .inr (.inr hheight)

/-- A violation is refused as such. -/
theorem Violates.refused (h : Violates e s caller input) :
    ∃ err t, submitCrossChainMessage caller input e s = .err err t ∧ err ∈ violationErrors := by
  obtain ⟨⟨hauth, hids, hamount⟩, hrule⟩ := h
  simp only [List.forall_mem_cons, List.not_mem_nil, false_imp_iff, implies_true, and_true] at hids
  obtain ⟨hbridgeId, hchannelId, hsourceChain⟩ := hids
  rw [submitCrossChainMessage, bind_of_ok (requireAuth_ok (u := ()).mpr ⟨hauth, rfl⟩),
    bind_of_ok (validateId_ok (u := ()).mpr ⟨hbridgeId, rfl⟩),
    bind_of_ok (validateId_ok (u := ()).mpr ⟨hchannelId, rfl⟩),
    bind_of_ok (validateId_ok (u := ()).mpr ⟨hsourceChain, rfl⟩),
    bind_of_ok (failIf_ok (u := ()).mpr ⟨not_le.mpr hamount, rfl⟩),
    bind_of_ok (view_ok.mpr ⟨rfl, rfl⟩)]
  by_cases hversion : input.payloadVersion ≠ (loadSecurityConfig s).supportedMessageVersion
  · exact ⟨.invalidMessageVersion, _, bind_of_err (onlyIf_refuseMessage hversion), by decide⟩
  obtain ⟨⟨⟨cfg, hcfg, hmin⟩, hopen⟩, huntimely⟩ := hrule.resolve_left hversion
  rw [bind_of_ok (onlyIf_ok (u := ()).mpr ⟨fun hne => absurd hne hversion, fun _ => rfl⟩),
    bind_of_ok (loadBridge_ok.mpr ⟨hcfg, rfl⟩),
    bind_of_ok (failIf_ok (u := ()).mpr ⟨not_lt.mpr hmin, rfl⟩),
    bind_of_ok (view_ok.mpr ⟨rfl, rfl⟩),
    bind_of_ok (failIf_ok (u := ()).mpr ⟨ne_true_of_eq_false hopen, rfl⟩),
    bind_of_ok (view_ok.mpr ⟨rfl, rfl⟩)]
  by_cases hknown : (s.messageSource input.sourceKey).isSome = true
  · exact ⟨.replayDetected, _, bind_of_err (onlyIf_store_refuseMessage hknown), by decide⟩
  rw [bind_of_ok (onlyIf_ok (u := ()).mpr ⟨fun hyes => absurd hyes hknown, fun _ => rfl⟩)]
  by_cases hnonce : (loadChannelState s input.channelId).lastObservedNonce ≠ 0 ∧
      input.nonce ≤ (loadChannelState s input.channelId).lastObservedNonce
  · exact ⟨.invalidMessageOrdering, _, bind_of_err (onlyIf_refuseMessage hnonce), by decide⟩
  · have hheight := (huntimely.resolve_left hknown).resolve_left hnonce
    rw [bind_of_ok (onlyIf_ok (u := ()).mpr ⟨fun hyes => absurd hyes hnonce, fun _ => rfl⟩)]
    exact ⟨.invalidMessageOrdering, _, bind_of_err (onlyIf_refuseMessage hheight), by decide⟩

/-- **The violations are the submissions refused as such.** -/
theorem violates_iff : Violates e s caller input ↔
    ∃ err t, submitCrossChainMessage caller input e s = .err err t ∧ err ∈ violationErrors :=
  ⟨Violates.refused, fun ⟨_, _, h, hmem⟩ => violates_of_refused hmem h⟩

/-- The transaction is a violation on the channel. -/
def violation (channelId : String) (s : Storage) (tx : Tx) : Bool :=
  match tx.op with
  | .submitCrossChainMessage caller input =>
    input.channelId = channelId ∧ Violates tx.env s caller input
  | _ => false

/-- **A violation leaves no trace.** -/
theorem step_violation (h : violation channelId s tx = true) : step tx s = none := by
  obtain ⟨e, op⟩ := tx
  cases op
  case submitCrossChainMessage caller input =>
    obtain ⟨-, hviolates⟩ := of_decide_eq_true h
    obtain ⟨err, t, hrefused, -⟩ := hviolates.refused
    simp only [step, commit, hrefused]
  all_goals cases h

/-! ## What a watcher of the channel counts -/

def isClosed (s : Storage) (channelId : String) : Bool :=
  (loadChannelState s channelId).emergencyClosed

/-- The transaction records an anomaly of the channel. -/
def anomaly (channelId : String) (s : Storage) (tx : Tx) : Bool :=
  (step tx s).isSome && match tx.op with
  | .attestCrossChainMessage _ messageId false =>
    (s.message messageId).any fun message => message.channelId = channelId
  | .slashConflictingMessages _ firstId _ =>
    (s.message firstId).any fun message => message.channelId = channelId
  | _ => false

/-- The transaction is the admin opening the channel. -/
def Op.reopens (channelId : String) : Op → Bool
  | .reopenChannel _ c => c = channelId
  | _ => false

/-- The transaction reopens the channel, which was closed. -/
def reopening (channelId : String) (s : Storage) (tx : Tx) : Bool :=
  (step tx s).isSome && isClosed s channelId && tx.op.reopens channelId

/-- The transaction is the admin closing the channel. -/
def Op.closes (channelId : String) : Op → Bool
  | .closeChannelEmergency _ c _ => c = channelId
  | _ => false

/-- What happened on a channel since it was last opened. -/
structure Watch where
  violations : ℕ
  /-- The violations, and the anomalies recorded. -/
  anomalies : ℕ
  deriving DecidableEq

/-- An opening starts the count again, and a closed channel is not counted on. -/
def Watch.next (channelId : String) (s : Storage) (tx : Tx) (w : Watch) : Watch :=
  if reopening channelId s tx then ⟨0, 0⟩
  else if isClosed s channelId then w
  else if violation channelId s tx then ⟨w.violations + 1, w.anomalies + 1⟩
  else if anomaly channelId s tx then ⟨w.violations, w.anomalies + 1⟩
  else w

def watchFrom (channelId : String) : Storage → Watch → List Tx → Watch
  | _, w, [] => w
  | s, w, tx :: txs => watchFrom channelId (exec step s tx) (w.next channelId s tx) txs

/-- What happened on the channel in a run since it was last opened. -/
def watch (channelId : String) (txs : List Tx) : Watch :=
  watchFrom channelId Storage.empty ⟨0, 0⟩ txs

theorem watchFrom_append (s : Storage) (w : Watch) (txs : List Tx) (tx : Tx) :
    watchFrom channelId s w (txs ++ [tx]) =
      (watchFrom channelId s w txs).next channelId (run step s txs) tx := by
  induction txs generalizing s w with
  | nil => rfl
  | cons x xs ih => exact ih _ _

theorem watch_snoc (txs : List Tx) (tx : Tx) :
    watch channelId (txs ++ [tx]) = (watch channelId txs).next channelId (ledger txs) tx :=
  watchFrom_append _ _ txs tx

/-! ## Shutting down -/

/-- The anomaly that reaches the threshold closes the channel; a closed channel accepts nothing and
stays closed until it is reopened; and an open channel is closed by nothing but that anomaly and the
admin. -/
structure ShutsDown (channelId : String) (txs : List Tx) : Prop where
  closes : ∀ ys tx, ys ++ [tx] <+: txs → isClosed (ledger ys) channelId = false →
    violation channelId (ledger ys) tx = true →
    (loadSecurityConfig (ledger ys)).anomalyCloseThreshold ≤
      (watch channelId (ys ++ [tx])).violations →
    isClosed (ledger (ys ++ [tx])) channelId = true
  refuses : ∀ ys caller input e,
    ys ++ [⟨e, .submitCrossChainMessage caller input⟩] <+: txs → input.channelId = channelId →
    isClosed (ledger ys) channelId = true →
    step ⟨e, .submitCrossChainMessage caller input⟩ (ledger ys) = none
  lasts : ∀ ys tx, ys ++ [tx] <+: txs → isClosed (ledger ys) channelId = true →
    reopening channelId (ledger ys) tx = false → isClosed (ledger (ys ++ [tx])) channelId = true
  patient : ∀ ys tx, ys ++ [tx] <+: txs → isClosed (ledger ys) channelId = false →
    isClosed (ledger (ys ++ [tx])) channelId = true → tx.op.closes channelId = false →
    (loadSecurityConfig (ledger ys)).anomalyCloseThreshold ≤
      (watch channelId (ys ++ [tx])).anomalies

/-- Fewer violations than the threshold come while the channel is open. -/
def Endured (channelId : String) (txs : List Tx) : Prop :=
  ∀ ys tx, ys ++ [tx] <+: txs → isClosed (ledger ys) channelId = false →
    violation channelId (ledger ys) tx = true →
    (watch channelId (ys ++ [tx])).violations <
      (loadSecurityConfig (ledger ys)).anomalyCloseThreshold

/-- A reopening finds no anomaly counted. -/
def CleanReopening (channelId : String) (s : Storage) (tx : Tx) : Prop :=
  reopening channelId s tx = true → (loadChannelState s channelId).anomalyCount = 0

/-! ## What a step does to one channel -/

/-- What a step does to whether a channel is closed, and to its count. -/
inductive ChannelStep (channelId : String) (s : Storage) (tx : Tx) (s' : Storage) : Prop
  | recorded (reason : String) (h : anomaly channelId s tx = true)
      (load : loadChannelState s' channelId = (loadChannelState s channelId).anomalous
        (loadSecurityConfig s).anomalyCloseThreshold reason)
  | close (h : tx.op.closes channelId = true) (closed : isClosed s' channelId = true)
  | reopen (h : tx.op.reopens channelId = true)
      (closed : isClosed s' channelId = false)
      (count : (loadChannelState s' channelId).anomalyCount =
        (loadChannelState s channelId).anomalyCount)
  | keep (closed : isClosed s' channelId = isClosed s channelId)
      (count : (loadChannelState s' channelId).anomalyCount =
        (loadChannelState s channelId).anomalyCount)

theorem ChannelStep.of_load (h : loadChannelState s' channelId = loadChannelState s channelId) :
    ChannelStep channelId s tx s' :=
  .keep (by rw [isClosed, isClosed, h]) (by rw [h])

theorem ChannelStep.of_recorded {c reason : String} (h : AnomalyRecorded s c reason s')
    (hanomaly : c = channelId → anomaly channelId s tx = true) : ChannelStep channelId s tx s' := by
  have hload := Rewritten.load h channelId
  split at hload
  case isTrue hc =>
    rw [← hc] at hload
    exact .recorded reason (hanomaly hc.symm) (hc ▸ hload)
  case isFalse => exact .of_load hload

theorem step_channel (hstep : step tx s = some s') (channelId : String) :
    ChannelStep channelId s tx s' := by
  have hsome : (step tx s).isSome = true := by rw [hstep]; rfl
  have h := step_channels hstep
  obtain ⟨e, op⟩ := tx
  cases op
  case submitCrossChainMessage caller input =>
    have hload := Submitted.channel h channelId
    split at hload
    case isTrue hc => exact .keep (by rw [isClosed, isClosed, hload, hc]) (by rw [hload, hc])
    case isFalse => exact .of_load hload
  case attestCrossChainMessage validator messageId approve =>
    cases approve with
    | true => exact .of_load (Untouched.load h channelId)
    | false =>
      obtain ⟨message, hmessage, hrecorded⟩ := h
      exact .of_recorded hrecorded fun hc => by simp [anomaly, hsome, hmessage, hc]
  case slashConflictingMessages =>
    obtain ⟨first, hfirst, hrecorded⟩ := h
    exact .of_recorded hrecorded fun hc => by simp [anomaly, hsome, hfirst, hc]
  case closeChannelEmergency caller c reason =>
    have hload := Rewritten.load h channelId
    split at hload
    case isTrue hc => exact .close (by simp [Op.closes, hc]) (by rw [isClosed, hload])
    case isFalse => exact .of_load hload
  case reopenChannel caller c =>
    have hload := Rewritten.load h channelId
    split at hload
    case isTrue hc =>
      exact .reopen (by simp [Op.reopens, hc]) (by rw [isClosed, hload]) (by rw [hload, hc])
    case isFalse => exact .of_load hload
  all_goals exact .of_load (Untouched.load h channelId)

/-! ## Along a run -/

/-- What a channel counts while it is open is what its watcher counts, or less. -/
def Tracked (channelId : String) (w : Watch) (s : Storage) : Prop :=
  isClosed s channelId = false → (loadChannelState s channelId).anomalyCount ≤ w.anomalies

/-- An anomaly of an open channel is one that the watcher counts. -/
theorem Watch.next_anomaly (w : Watch) (hopen : isClosed s channelId = false)
    (h : anomaly channelId s tx = true) :
    (w.next channelId s tx).anomalies = w.anomalies + 1 := by
  have hsome : step tx s ≠ none := fun hnone => by simp [anomaly, hnone] at h
  have hreopening : reopening channelId s tx = false := by simp [reopening, hopen]
  have hviolation : violation channelId s tx = false :=
    eq_false_of_ne_true fun hviolation => hsome (step_violation hviolation)
  simp [Watch.next, hreopening, hopen, hviolation, h]

/-- The watcher forgets at a reopening only. -/
theorem Watch.le_next (w : Watch) (h : reopening channelId s tx = false) :
    w.anomalies ≤ (w.next channelId s tx).anomalies := by
  rw [Watch.next, if_neg (ne_true_of_eq_false h)]
  split
  · exact le_rfl
  split
  · exact Nat.le_succ _
  split
  · exact Nat.le_succ _
  · exact le_rfl

theorem reopening_of_closed (hstep : step tx s = some s')
    (hop : tx.op.reopens channelId = true) (hclosed : isClosed s channelId = true) :
    reopening channelId s tx = true := by
  simp [reopening, hstep, hop, hclosed]

theorem reopening_of_open (hopen : isClosed s channelId = false) :
    reopening channelId s tx = false := by
  simp [reopening, hopen]

/-- An anomaly leaves a closed channel closed. -/
theorem isClosed_anomalous {reason : String}
    (hload : loadChannelState s' channelId = (loadChannelState s channelId).anomalous
      (loadSecurityConfig s).anomalyCloseThreshold reason) (hclosed : isClosed s channelId = true) :
    isClosed s' channelId = true := by
  rw [isClosed, hload, ChannelState.anomalous]
  split
  · rfl
  · exact hclosed

theorem Tracked.kept {w : Watch} (hw : Tracked channelId w s) (hopen : isClosed s channelId = false)
    (hcount : (loadChannelState s' channelId).anomalyCount =
      (loadChannelState s channelId).anomalyCount) : Tracked channelId (w.next channelId s tx) s' :=
  fun _ => hcount ▸ (hw hopen).trans (w.le_next (reopening_of_open hopen))

theorem Tracked.step {w : Watch} (hw : Tracked channelId w s) (hstep : step tx s = some s')
    (hclean : CleanReopening channelId s tx) : Tracked channelId (w.next channelId s tx) s' := by
  intro hopen'
  rcases hclosed : isClosed s channelId with _ | _
  · cases step_channel hstep channelId with
    | recorded reason h load =>
      rw [w.next_anomaly hclosed h, load]
      exact (min_le_left _ _).trans (Nat.succ_le_succ (hw hclosed))
    | close h closed => rw [hopen'] at closed; cases closed
    | reopen h closed count => exact hw.kept hclosed count hopen'
    | keep closed count => exact hw.kept hclosed count hopen'
  · cases step_channel hstep channelId with
    | recorded reason h load =>
      rw [isClosed_anomalous load hclosed] at hopen'
      cases hopen'
    | close h closed => rw [hopen'] at closed; cases closed
    | reopen h closed count =>
      rw [count, hclean (reopening_of_closed hstep h hclosed)]
      exact Nat.zero_le _
    | keep closed count => rw [hopen', hclosed] at closed; cases closed

theorem Tracked.run {txs : List Tx} {w : Watch} (hw : Tracked channelId w s)
    (hclean : Meets Bridge.step (CleanReopening channelId) s txs) :
    Tracked channelId (watchFrom channelId s w txs) (run Bridge.step s txs) := by
  induction txs generalizing s w with
  | nil => exact hw
  | cons tx txs ih =>
    refine ih ?_ hclean.2
    rcases hstep : Bridge.step tx s with _ | s'
    · rw [exec_of_none hstep]
      exact fun hopen => hw.kept hopen rfl hopen
    · rw [exec_of_some hstep]
      exact hw.step hstep (hclean.1 (by rw [hstep]; rfl))

/-! ## The claim of the channel -/

/-- A closed channel refuses every message. -/
theorem step_submission_of_closed (hclosed : isClosed s input.channelId = true) :
    step ⟨e, .submitCrossChainMessage caller input⟩ s = none := by
  by_contra hsome
  obtain ⟨s', hs'⟩ := Option.ne_none_iff_exists'.mp hsome
  have hopened := Submitted.opened (step_effect hs')
  rw [isClosed, hopened] at hclosed
  cases hclosed

/-- A closed channel stays closed until it is reopened. -/
theorem isClosed_exec (hclosed : isClosed s channelId = true)
    (hreopening : reopening channelId s tx = false) :
    isClosed (exec step s tx) channelId = true := by
  refine exec_induction (P := fun t => isClosed t channelId = true) hclosed fun s' hstep => ?_
  cases step_channel hstep channelId with
  | recorded reason h load => exact isClosed_anomalous load hclosed
  | close h closed => exact closed
  | reopen h closed count =>
    rw [reopening_of_closed hstep h hclosed] at hreopening
    cases hreopening
  | keep closed count => rw [closed, hclosed]

/-- What closes an open channel, other than the admin, is an anomaly that reaches the threshold. -/
theorem threshold_le_of_closed (hopen : isClosed s channelId = false)
    (hclosed : isClosed (exec step s tx) channelId = true)
    (hadmin : tx.op.closes channelId = false) : anomaly channelId s tx = true ∧
      (loadSecurityConfig s).anomalyCloseThreshold ≤
        (loadChannelState s channelId).anomalyCount + 1 := by
  rcases hstep : step tx s with _ | s'
  · rw [exec_of_none hstep, hopen] at hclosed
    cases hclosed
  rw [exec_of_some hstep] at hclosed
  cases step_channel hstep channelId with
  | recorded reason h load =>
    refine ⟨h, ?_⟩
    rw [isClosed, load, ChannelState.anomalous] at hclosed
    split at hclosed
    case isTrue hreached => exact hreached.trans (min_le_left _ _)
    case isFalse => rw [isClosed, hclosed] at hopen; cases hopen
  | close h closed => rw [hadmin] at h; cases h
  | reopen h closed count => rw [hclosed] at closed; cases closed
  | keep closed count => rw [hclosed, hopen] at closed; cases closed

theorem Endured.of_shutsDown {txs : List Tx} (h : ShutsDown channelId txs) :
    Endured channelId txs := by
  intro ys tx hpre hopen hviolation
  by_contra hreached
  have hclosed := h.closes ys tx hpre hopen hviolation (not_lt.mp hreached)
  rw [ledger_snoc, exec_of_none (step_violation hviolation), hopen] at hclosed
  cases hclosed

/-- **A channel shuts down as it should only in the runs that never bring an open channel to the
threshold by violations; and in those it does, if every reopening finds no anomaly counted.** -/
theorem shutsDown_of_endured (channelId : String) (txs : List Tx) :
    (ShutsDown channelId txs → Endured channelId txs) ∧
      (Endured channelId txs → Meets step (CleanReopening channelId) Storage.empty txs →
        ShutsDown channelId txs) := by
  refine ⟨Endured.of_shutsDown, fun hendured hclean => ⟨?_, ?_, ?_, ?_⟩⟩
  · intro ys tx hpre hopen hviolation hreached
    exact absurd hreached (not_le.mpr (hendured ys tx hpre hopen hviolation))
  · rintro ys caller input e - rfl hclosed
    exact step_submission_of_closed hclosed
  · intro ys tx _ hclosed hreopening
    rw [ledger_snoc]
    exact isClosed_exec hclosed hreopening
  · rintro ys tx ⟨zs, rfl⟩ hopen hclosed hadmin
    rw [ledger_snoc] at hclosed
    obtain ⟨hanomaly, hreached⟩ := threshold_le_of_closed hopen hclosed hadmin
    have hys := (meets_append.mp (meets_append.mp hclean).1).1
    have htracked : Tracked channelId (watch channelId ys) (ledger ys) :=
      Tracked.run (fun _ => Nat.le_refl 0) hys
    rw [watch_snoc, Watch.next_anomaly _ hopen hanomaly]
    exact hreached.trans (Nat.succ_le_succ (htracked hopen))

/-- Whether a run is endured is seen at its prefixes. -/
theorem endured_iff {txs : List Tx} : Endured channelId txs ↔ ∀ i (h : i < txs.length),
    isClosed (ledger (txs.take i)) channelId = false →
    violation channelId (ledger (txs.take i)) txs[i] = true →
    (watch channelId (txs.take i ++ [txs[i]])).violations <
      (loadSecurityConfig (ledger (txs.take i))).anomalyCloseThreshold := by
  constructor
  · intro h i hi
    refine h _ _ ?_
    rw [List.take_append_getElem]
    exact List.take_prefix _ _
  · rintro h ys tx ⟨zs, rfl⟩
    have hi := h ys.length (by simp)
    simpa using hi

/-! ## A channel that stays open -/

namespace Sample

/-- A message, and three times the same again. -/
def replays : List Tx := deploy ++ [submit "a" 1, submit "a" 1, submit "a" 1, submit "a" 1]

/-- A message, and twice the same again. -/
def twoReplays : List Tx := deploy ++ [submit "a" 1, submit "a" 1, submit "a" 1]

end Sample

theorem shutsDown_of_endured_twoReplays : ShutsDown "a" Sample.twoReplays := by
  refine (shutsDown_of_endured "a" Sample.twoReplays).2 (endured_iff.mpr ?_) ?_
  · decide
  · have hnever : ∀ tx ∈ Sample.twoReplays, tx.op.reopens "a" = false := by decide
    refine meets_of_forall fun tx htx s h => ?_
    rw [reopening, hnever tx htx, Bool.and_false] at h
    cases h

theorem not_shutsDown_replays : ¬ ShutsDown "a" Sample.replays := by
  intro h
  have hclosed := h.closes (Sample.deploy ++ List.replicate 3 (Sample.submit "a" 1))
    (Sample.submit "a" 1) (List.prefix_refl _) (by decide) (by decide)
    (by decide)
  revert hclosed
  decide

end StellarLend.Bridge
