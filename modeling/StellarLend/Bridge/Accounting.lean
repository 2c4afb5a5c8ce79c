import StellarLend.Bridge.Payments

/-!
# Bridge/Accounting — each message is paid once, after enough votes

Along a run the counters of a message count the votes on it, a message is executed once and in a
state in which it may be, and what a bridge has withdrawn is what its messages paid and what the
admin withdrew.  A run that submits more messages than there are numbers for overwrites the last
one, and its votes outlive its counters.
-/

namespace StellarLend.Bridge

open Foundations Call
open Lending (Address)

variable {e : Env} {s s' : Storage} {tx : Tx} {id : ℕ}

/-! ## Runs -/

def Op.submission : Op → ℕ
  | .submitCrossChainMessage _ _ => 1
  | _ => 0

def Op.execution (id : ℕ) : Op → ℕ
  | .executeVerifiedWithdrawal _ messageId => if messageId = id then 1 else 0
  | _ => 0

def Op.withdrawal (bridgeId : String) : Op → ℤ
  | .bridgeWithdraw _ b _ amount => if b = bridgeId then amount else 0
  | _ => 0

/-- How many messages are submitted along a run. -/
def submissions (txs : List Tx) : ℕ := tally step (fun _ tx => tx.op.submission) Storage.empty txs

/-- How many times a message is executed along a run. -/
def executions (id : ℕ) (txs : List Tx) : ℕ :=
  tally step (fun _ tx => tx.op.execution id) Storage.empty txs

/-- What the admin withdraws under a bridge's name along a run. -/
def withdrawals (bridgeId : String) (txs : List Tx) : ℤ :=
  tally step (fun _ tx => tx.op.withdrawal bridgeId) Storage.empty txs

/-- Only a submission takes a number. -/
theorem step_next (hs : Registry s) (hstep : step tx s = some s') :
    s'.nextMessageId.getD 0 = min (s.nextMessageId.getD 0 + tx.op.submission) U64.MAX := by
  have heffect := step_effect hstep
  have hkept : s'.nextMessageId = s.nextMessageId → tx.op.submission = 0 →
      s'.nextMessageId.getD 0 = min (s.nextMessageId.getD 0 + tx.op.submission) U64.MAX := by
    intro hnext hzero
    rw [hnext, hzero, Nat.add_zero, min_eq_left hs.bounded]
  obtain ⟨e, op⟩ := tx
  cases op
  case bridgeWithdraw => exact hkept heffect.next rfl
  case registerValidator =>
    have hafter := heffect.after
    exact hkept (by rw [hafter]; rfl) rfl
  case setValidatorActive =>
    obtain ⟨record, h⟩ := heffect
    exact hkept (by rw [h.after]; rfl) rfl
  case submitCrossChainMessage =>
    obtain ⟨stats, rfl⟩ := Submitted.written heffect
    rfl
  case attestCrossChainMessage =>
    obtain ⟨record, message, h⟩ := heffect
    exact hkept h.next rfl
  case executeVerifiedWithdrawal =>
    obtain ⟨message, bridge, h⟩ := heffect
    exact hkept (by rw [h.after]; rfl) rfl
  case slashConflictingMessages =>
    obtain ⟨first, second, slashed, t, h⟩ := heffect
    exact hkept h.frame.next rfl
  all_goals exact hkept (SameMessages.next (Administered.toSameMessages heffect)) rfl

/-- The numbers taken are the messages submitted, as far as numbers go. -/
theorem next_ledger (txs : List Tx) :
    (ledger txs).nextMessageId.getD 0 = min (submissions txs) U64.MAX := by
  have hall : Meets step (fun _ _ => True) Storage.empty txs := meets_of_forall fun _ _ _ => trivial
  have hrun := hall.tally_invariant (f := fun _ tx => tx.op.submission)
    (I := fun n s => Registry s ∧ s.nextMessageId.getD 0 = min n U64.MAX)
    (fun n s tx s' hstep _ hI => ⟨hI.1.step hstep, by rw [step_next hI.1 hstep, hI.2]; omega⟩)
    (m := 0) ⟨Registry.empty, rfl⟩
  rw [Nat.zero_add] at hrun
  exact hrun.2

theorem submissions_append (xs ys : List Tx) : submissions (xs ++ ys) =
    submissions xs + tally step (fun _ tx => tx.op.submission) (ledger xs) ys :=
  tally_append _ _ _ _

/-- **Fewer messages than numbers leave a number for each.** -/
theorem numberLeft_of_submissions {txs : List Tx} (h : submissions txs < 2 ^ 64) :
    Meets step NumberLeft Storage.empty txs := by
  refine meets_iff.mpr fun ys tx zs s' htxs hstep caller input hop => ?_
  have hcount : submissions ys + 1 ≤ submissions txs := by
    rw [htxs, submissions_append, tally_cons, ledger, hstep, hop]
    exact Nat.add_le_add_left (Nat.le_add_right 1 _) _
  change (ledger ys).nextMessageId.getD 0 < U64.MAX
  rw [next_ledger]
  have : U64.MAX = 2 ^ 64 - 1 := rfl
  omega

/-! ## The account of a run -/

/-- What the votes, the executions and the withdrawals of a run come to. -/
structure Accounted (txs : List Tx) : Prop where
  /-- The counters of a message are the numbers of votes of either kind on record. -/
  counted : ∀ id m, (ledger txs).message id = some m →
    m.approvals = (voters (ledger txs) id true).card ∧
      m.rejections = (voters (ledger txs) id false).card
  /-- A message is executed in a state in which it may be. -/
  gated : ∀ ys tx zs s' caller id, txs = ys ++ tx :: zs → step tx (ledger ys) = some s' →
    tx.op = .executeVerifiedWithdrawal caller id → ∃ m, (ledger ys).message id = some m ∧
      (loadSecurityConfig (ledger ys)).minValidatorSignatures ≤ m.approvals ∧ m.rejections = 0 ∧
      m.finalityLedger ≤ tx.env.sequence ∧
      (loadChannelState (ledger ys) m.channelId).emergencyClosed = false ∧ m.invalidated = false
  /-- No message is executed twice. -/
  once : ∀ id, executions id txs ≤ 1
  /-- Once a message is executed or invalidated, no vote on it is added. -/
  ended : ∀ ys zs id, txs = ys ++ zs → Closed (ledger ys) id →
    (ledger txs).messageAttestation id = (ledger ys).messageAttestation id
  /-- A bridge has withdrawn what its executed messages paid and what the admin withdrew. -/
  paid : ∀ b cfg, (ledger txs).bridge b = some cfg →
    TotalsTo (fun id => paidUnder b (paymentOf (ledger txs) id))
      (cfg.totalWithdrawn - withdrawals b txs)

variable {txs : List Tx}

theorem counted_ledger (hleft : Meets step NumberLeft Storage.empty txs) : Counted (ledger txs) :=
  (hleft.invariant (I := fun s => Registry s ∧ Counted s)
    (fun _ _ _ hstep hC hI => ⟨hI.1.step hstep, hI.2.step hI.1 hstep hC⟩)
    ⟨Registry.empty, fun id m hm => by cases hm⟩).2

/-- There are no more votes than validators. -/
theorem card_voters_le (s : Storage) (id : ℕ) (approve : Bool) :
    (voters s id approve).card ≤ (validatorList s).length :=
  (Finset.card_filter_le _ _).trans (List.toFinset_card_le _)

theorem executions_eq (hleft : Meets step NumberLeft Storage.empty txs) (id : ℕ) :
    executions id txs = if (paymentOf (ledger txs) id).isSome then 1 else 0 := by
  have hrun := hleft.tally_invariant (f := fun _ tx => tx.op.execution id)
    (I := fun n s => Registry s ∧ n = if (paymentOf s id).isSome then 1 else 0)
    (fun n s tx s' hstep hC hI => ⟨hI.1.step hstep, ?_⟩) (m := 0) ⟨Registry.empty, rfl⟩
  · rw [Nat.zero_add] at hrun
    exact hrun.2
  · have hbooks := step_books hI.1 hstep hC
    rw [hI.2]
    obtain ⟨e, op⟩ := tx
    cases op
    case executeVerifiedWithdrawal caller messageId =>
      obtain ⟨hnone, b, amount, hpayment, -⟩ := hbooks
      rw [hpayment, Function.update_apply, Op.execution]
      by_cases hid : messageId = id
      · rw [if_pos hid, if_pos hid.symm, ← hid, hnone]
        rfl
      · rw [if_neg hid, if_neg fun heq : id = messageId => hid heq.symm, Nat.add_zero]
    all_goals
      rw [hbooks.1]
      rfl

theorem paid_ledger (hleft : Meets step NumberLeft Storage.empty txs) (b : String) :
    TotalsTo (fun id => paidUnder b (paymentOf (ledger txs) id))
      (withdrawnOf (ledger txs) b - withdrawals b txs) := by
  have hrun := hleft.tally_invariant (f := fun _ tx => tx.op.withdrawal b)
    (I := fun w s => Registry s ∧
      TotalsTo (fun id => paidUnder b (paymentOf s id)) (withdrawnOf s b - w))
    (fun w s tx s' hstep hC hI => ⟨hI.1.step hstep, ?_⟩) (m := 0)
    ⟨Registry.empty, TotalsTo.zero⟩
  · rw [zero_add] at hrun
    exact hrun.2
  · have hbooks := step_books hI.1 hstep hC
    obtain ⟨e, op⟩ := tx
    cases op
    case bridgeWithdraw caller b' recipient amount =>
      rw [hbooks.1, hbooks.2, Function.update_apply, Op.withdrawal]
      by_cases hb : b' = b
      · rw [if_pos hb.symm, if_pos hb, hb, add_sub_add_right_eq_sub]
        exact hI.2
      · rw [if_neg fun heq : b = b' => hb heq.symm, if_neg hb, add_zero]
        exact hI.2
    case executeVerifiedWithdrawal caller id =>
      obtain ⟨hnone, b', amount, hpayment, hwithdrawn⟩ := hbooks
      change TotalsTo _ (withdrawnOf s' b - (w + 0))
      rw [hpayment, hwithdrawn, add_zero]
      refine hI.2.change_eq id (fun n hn => by rw [Function.update_of_ne hn]) ?_
      rw [Function.update_self, hnone, Function.update_apply]
      change _ = _ + ((if b' = b then amount else 0) - 0)
      by_cases hb : b' = b
      · rw [if_pos hb.symm, if_pos hb, hb]
        omega
      · rw [if_neg fun heq : b = b' => hb heq.symm, if_neg hb]
        omega
    all_goals
      change TotalsTo _ (withdrawnOf s' b - (w + 0))
      rw [hbooks.1, hbooks.2, add_zero]
      exact hI.2

/-- **Every run with a number for each message is accounted for.** -/
theorem accounted (hmessages : submissions txs < 2 ^ 64)
    (hvalidators : (validatorList (ledger txs)).length < 2 ^ 32) : Accounted txs := by
  have hleft := numberLeft_of_submissions hmessages
  refine ⟨fun id m hm => ?_, fun ys tx zs s' caller id _ hstep hop => ?_, fun id => ?_,
    fun ys zs id htxs hclosed => ?_, fun b cfg hcfg => ?_⟩
  · obtain ⟨happrovals, hrejections⟩ := counted_ledger hleft id m hm
    have hbound := fun k => (card_voters_le (ledger txs) id k).trans_lt hvalidators
    have hmax : ∀ k, (voters (ledger txs) id k).card ≤ U32.MAX := fun k =>
      Nat.le_pred_of_lt (hbound k)
    exact ⟨by rw [happrovals, min_eq_left (hmax true)],
      by rw [hrejections, min_eq_left (hmax false)]⟩
  · have heffect := step_effect hstep
    rw [hop] at heffect
    obtain ⟨m, bridge, h⟩ := heffect
    exact ⟨m, h.message_eq, h.quorum, h.unopposed, h.final, h.opened, h.invalidated⟩
  · rw [executions_eq hleft]
    split <;> decide
  · have hrest := (meets_append.mp (htxs ▸ hleft)).2
    have hend := hrest.invariant (I := fun s => Registry s ∧ Closed s id ∧
        s.messageAttestation id = (ledger ys).messageAttestation id)
      (fun _ _ _ hstep hC hI => by
        obtain ⟨hclosed', hvotes⟩ := hI.2.1.step hI.1 hstep hC
        exact ⟨hI.1.step hstep, hclosed', hvotes.trans hI.2.2⟩)
      ⟨registry_ledger ys, hclosed, rfl⟩
    rw [htxs, ledger, run_append]
    exact hend.2.2
  · rw [← withdrawnOf_of_some hcfg]
    exact paid_ledger hleft b

namespace Sample

def admin : Address := ⟨0⟩
def alice : Address := ⟨1⟩
def carol : Address := ⟨2⟩
def dave : Address := ⟨3⟩

/-- A bridge and two validators. -/
def deploy : List Tx :=
  [⟨⟨1, [admin]⟩, .init admin⟩,
    ⟨⟨1, [admin]⟩, .registerBridge admin "bridge" 0 0⟩,
    ⟨⟨1, [admin]⟩, .registerValidator admin carol 100⟩,
    ⟨⟨1, [admin]⟩, .registerValidator admin dave 100⟩]

/-- A message of one unit, known by its channel and its nonce. -/
def input (channelId : String) (nonce : ℕ) : CrossChainMessageInput :=
  ⟨"bridge", channelId, "chain", "tx", 0, nonce, alice, 1, 1⟩

def submit (channelId : String) (nonce : ℕ) : Tx :=
  ⟨⟨1, [alice]⟩, .submitCrossChainMessage alice (input channelId nonce)⟩

def vote (validator : Address) (messageId : ℕ) : Tx :=
  ⟨⟨2, [validator]⟩, .attestCrossChainMessage validator messageId true⟩

/-- Both validators approve a message, and it is executed. -/
def oneWithdrawal : List Tx :=
  deploy ++ [submit "a" 1, vote carol 1, vote dave 1,
    ⟨⟨4, [alice]⟩, .executeVerifiedWithdrawal alice 1⟩]

end Sample

theorem accounted_oneWithdrawal : Accounted Sample.oneWithdrawal :=
  accounted (by decide) (by decide)

/-! ## A run that uses up the numbers -/

/-- What a submission asks for is enough for it. -/
theorem Submitted.succeeds {caller : Address} {input : CrossChainMessageInput}
    (h : Submitted e s input s') (hauth : caller ∈ e.auths)
    (hids : ∀ id ∈ [input.bridgeId, input.channelId, input.sourceChain],
      ¬ (id.utf8ByteSize = 0 ∨ MAX_ID_LEN < id.utf8ByteSize)) :
    submitCrossChainMessage caller input e s = .ok (nextId s) s' := by
  obtain ⟨cfg, hbridge, hmin⟩ := h.bridge
  have hbridgeId := hids input.bridgeId (by simp)
  have hchannelId := hids input.channelId (by simp)
  have hsourceChain := hids input.sourceChain (by simp)
  have hnonce := h.nonce
  have hheight := h.height
  simp only [submitCrossChainMessage, nextMessageId, validateId, bind_ok, requireAuth_ok, failIf_ok,
    view_ok, onlyIf_ok, loadBridge_ok, asks_ok, store_ok, pure_ok]
  refine ⟨(), s, ⟨hauth, rfl⟩, (), s, ⟨hbridgeId, rfl⟩, (), s, ⟨hchannelId, rfl⟩, (), s,
    ⟨hsourceChain, rfl⟩, (), s, ⟨not_le.mpr h.amount_pos, rfl⟩, _, s, ⟨rfl, rfl⟩, (), s,
    ⟨fun hne => absurd h.version hne, fun _ => rfl⟩, cfg, s, ⟨hbridge, rfl⟩, (), s,
    ⟨not_lt.mpr hmin, rfl⟩, _, s, ⟨rfl, rfl⟩, (), s, ⟨by simp [h.opened], rfl⟩, _, s, ⟨rfl, rfl⟩,
    (), s, ⟨by simp [h.fresh], fun _ => rfl⟩, (), s, ⟨by omega, fun _ => rfl⟩, (), s,
    ⟨by omega, fun _ => rfl⟩, ?_⟩
  exact ⟨_, _, ⟨_, _, ⟨rfl, rfl⟩, (), _, rfl, rfl, rfl⟩, _, _, ⟨rfl, rfl⟩, (), _, rfl, (), _, rfl,
    (), _, rfl, (), _, rfl, rfl, h.after.symm⟩

/-- What a vote asks for is enough for it. -/
theorem Attested.succeeds {validator : Address} {approve : Bool} {record : ValidatorRecord}
    {message : CrossChainMessage} (h : Attested s validator id approve record message s')
    (hauth : validator ∈ e.auths) :
    attestCrossChainMessage validator id approve e s = .ok () s' := by
  simp only [attestCrossChainMessage, bind_ok, requireAuth_ok, loadValidator_ok, loadMessage_ok,
    failIf_ok, view_ok, store_ok]
  refine ⟨(), s, ⟨hauth, rfl⟩, record, s, ⟨h.record_eq, rfl⟩, (), s, ⟨by simp [h.active], rfl⟩,
    message, s, ⟨h.message_eq, rfl⟩, (), s, ⟨by simp [h.executed], rfl⟩, (), s,
    ⟨by simp [h.invalidated], rfl⟩, _, s, ⟨rfl, rfl⟩, (), s, ⟨by simp [h.fresh], rfl⟩, (), _, rfl,
    ?_⟩
  have hafter := h.after
  cases approve with
  | true =>
    simp only [if_true, bind_ok, store_ok] at hafter ⊢
    exact ⟨(), _, rfl, hafter.symm⟩
  | false =>
    simp only [Bool.false_eq_true, if_false, bind_ok, store_ok] at hafter ⊢
    exact ⟨(), _, rfl, hafter.symm⟩

namespace Sample

/-- Messages 1 to `n` on one channel. -/
def flood (n : ℕ) : List Tx := (List.range n).map fun i => submit "a" (i + 1)

/-- What the next submission finds after them. -/
structure Receptive (n : ℕ) (s : Storage) : Prop where
  config : loadSecurityConfig s = defaultSecurityConfig
  bridge : s.bridge "bridge" = some ⟨"bridge", 0, 0, true, 0, 0⟩
  next : s.nextMessageId.getD 0 = n
  first : loadChannelState s "a" = ⟨false, 0, n, 0, ""⟩
  second : loadChannelState s "b" = defaultChannelState
  known : ∀ key, s.messageSource key ≠ none → key.channelId = "a" ∧ key.nonce ≤ n
  list : s.validatorList = some [carol, dave]

/-- The state after them. -/
structure Flooded (n : ℕ) (s : Storage) : Prop extends Receptive n s where
  validator : s.validator carol = some ⟨100, true, 0, 0⟩
  votes : s.messageAttestation = fun _ _ => none
  stored : 0 < n → ∃ m, s.message n = some m ∧ m.executed = false ∧ m.invalidated = false

theorem Flooded.deploy : Flooded 0 (ledger deploy) where
  config := by decide
  bridge := by decide
  next := rfl
  first := by decide
  second := by decide
  known key h := absurd rfl h
  validator := by decide
  list := by decide
  votes := rfl
  stored h := absurd h (lt_irrefl 0)

/-- A submission that the state lets through, with the state it leaves. -/
theorem Receptive.submits {n : ℕ} (h : Receptive n s) {channelId : String} {nonce : ℕ}
    (hchannel : channelId = "a" ∧ nonce = n + 1 ∨ channelId = "b" ∧ nonce = 1) :
    ∃ s', step (submit channelId nonce) s = some s' ∧
      Submitted ⟨1, [alice]⟩ s (input channelId nonce) s' := by
  have hids : ∀ id ∈ ["bridge", channelId, "chain"],
      ¬ (id.utf8ByteSize = 0 ∨ MAX_ID_LEN < id.utf8ByteSize) := by
    obtain ⟨rfl, -⟩ | ⟨rfl, -⟩ := hchannel <;> decide
  have hfresh : s.messageSource (input channelId nonce).sourceKey = none := by
    by_contra hknown
    obtain ⟨hid, hle⟩ := h.known _ hknown
    obtain ⟨rfl, rfl⟩ | ⟨rfl, rfl⟩ := hchannel
    · exact absurd hle (Nat.not_succ_le_self n)
    · exact absurd hid (by decide)
  have hstate : ∃ k, loadChannelState s channelId = ⟨false, 0, k, 0, ""⟩ ∧ (k = 0 ∨ k < nonce) := by
    obtain ⟨rfl, rfl⟩ | ⟨rfl, rfl⟩ := hchannel
    · exact ⟨n, h.first, .inr (Nat.lt_succ_self n)⟩
    · exact ⟨0, h.second, .inl rfl⟩
  obtain ⟨k, hstate, hk⟩ := hstate
  have hpos : (0 : ℤ) < 1 := one_pos
  have hsubmitted : Submitted ⟨1, [alice]⟩ s (input channelId nonce) _ := {
    amount_pos := hpos
    version := by rw [h.config]; rfl
    bridge := ⟨_, h.bridge, hpos.le⟩
    opened := by rw [show (input channelId nonce).channelId = channelId from rfl, hstate]
    fresh := hfresh
    nonce := by rw [show (input channelId nonce).channelId = channelId from rfl, hstate]; exact hk
    height := by
      rw [show (input channelId nonce).channelId = channelId from rfl, hstate]
      exact .inl rfl
    after := rfl }
  exact ⟨_, commit_eq_some.mpr ⟨_, hsubmitted.succeeds (by simp) hids⟩, hsubmitted⟩

/-- One message more. -/
theorem Flooded.step {n : ℕ} (h : Flooded n s) (hn : n < U64.MAX) :
    ∃ s', Bridge.step (submit "a" (n + 1)) s = some s' ∧ Flooded (n + 1) s' := by
  obtain ⟨s', hstep, hsubmitted⟩ := h.submits (.inl ⟨rfl, rfl⟩)
  have hnext : nextId s = n + 1 := by
    rw [nextId, h.next, U64.saturatingAdd]
    omega
  obtain ⟨stats, hafter⟩ := hsubmitted.written
  rw [hnext] at hafter
  refine ⟨s', hstep, ⟨by rw [hafter]; exact h.config, by rw [hafter]; exact h.bridge,
    by rw [hafter]; rfl, ?_, ?_, fun key hkey => ?_, by rw [hafter]; exact h.list⟩,
    by rw [hafter]; exact h.validator, by rw [hafter]; exact h.votes,
    fun _ => ⟨(input "a" (n + 1)).message (n + 1) 1 (loadSecurityConfig s), ?_, rfl, rfl⟩⟩
  · have hchannel := hsubmitted.channel "a"
    rw [show (input "a" (n + 1)).channelId = "a" from rfl, if_pos rfl, h.first] at hchannel
    exact hchannel
  · rw [hsubmitted.channel, if_neg (by simp [input])]
    exact h.second
  · rw [hsubmitted.sources, Function.update_apply] at hkey
    split at hkey
    case isTrue heq =>
      rw [heq]
      exact ⟨rfl, le_rfl⟩
    case isFalse => exact ⟨(h.known key hkey).1, (h.known key hkey).2.trans (Nat.le_succ n)⟩
  · rw [hsubmitted.messages, hnext, Function.update_self]

theorem flooded_ledger {n : ℕ} (hn : n ≤ U64.MAX) : Flooded n (ledger (deploy ++ flood n)) := by
  induction n with
  | zero => exact Flooded.deploy
  | succ n ih =>
    obtain ⟨s', hstep, hs'⟩ := (ih (Nat.le_of_succ_le hn)).step hn
    have hflood : deploy ++ flood (n + 1) = deploy ++ flood n ++ [submit "a" (n + 1)] := by
      rw [flood, List.range_succ, List.map_append, List.append_assoc]
      rfl
    rw [hflood, ledger, run_append, run_cons, run_nil]
    exact (exec_of_some hstep).symm ▸ hs'

/-- Carol votes on the last message of a flood. -/
theorem Flooded.voted {n : ℕ} (h : Flooded n s) (hn : 0 < n) :
    ∃ s', Bridge.step (vote carol n) s = some s' ∧
      s'.messageAttestation n carol = some true ∧ Receptive n s' := by
  obtain ⟨m, hm, hexecuted, hinvalidated⟩ := h.stored hn
  have hattested : Attested s carol n true ⟨100, true, 0, 0⟩ m _ :=
    ⟨h.validator, rfl, hm, hexecuted, hinvalidated, by rw [h.votes], rfl⟩
  refine ⟨_, commit_eq_some.mpr ⟨(), hattested.succeeds (by simp [vote])⟩, ?_, ?_⟩
  · rw [hattested.attestations, Function.update_self, Function.update_self]
  · exact ⟨h.config, h.bridge, h.next, h.first, h.second, h.known, h.list⟩

/-- **A message after the last number takes the place of the last one**, and of its votes none. -/
theorem Flooded.overwritten {n : ℕ} (h : Flooded n s) (hn : n = U64.MAX) :
    ∃ s' m, chain Bridge.step s [vote carol n, submit "b" 1] = some s' ∧
      s'.message n = some m ∧ m.approvals = 0 ∧ s'.messageAttestation n carol = some true ∧
      s'.validatorList = some [carol, dave] := by
  have hpos : 0 < n := by
    rw [hn]
    decide
  obtain ⟨t, hvote, hrecorded, ht⟩ := h.voted hpos
  obtain ⟨s', hsubmit, hsubmitted⟩ := ht.submits (.inr ⟨rfl, rfl⟩)
  have hlast : nextId t = n := by
    rw [nextId, ht.next, U64.saturatingAdd]
    omega
  refine ⟨s', _, ?_, by rw [hsubmitted.messages, hlast, Function.update_self], rfl, ?_, ?_⟩
  · rw [chain_cons, hvote, Option.bind_some, chain_single, hsubmit]
  · rw [hsubmitted.attestations]
    exact hrecorded
  · obtain ⟨stats, rfl⟩ := hsubmitted.written
    exact ht.list

/-- One message more than there are numbers for, after a vote on the last of them. -/
def oneTooMany : List Tx := deploy ++ flood U64.MAX ++ [vote carol U64.MAX, submit "b" 1]

end Sample

/-- The last message has no approval, and Carol's is on record. -/
theorem unaccounted_oneTooMany :
    ¬ ∀ txs, (validatorList (ledger txs)).length < 2 ^ 32 → Accounted txs := by
  intro hall
  obtain ⟨s', m, hchain, hmessage, happrovals, hrecorded, hlist⟩ :=
    (Sample.flooded_ledger le_rfl).overwritten rfl
  have hledger : ledger Sample.oneTooMany = s' := by
    rw [Sample.oneTooMany, ledger, run_append]
    exact run_of_chain hchain
  have haccounted := hall Sample.oneTooMany (by rw [hledger, validatorList, hlist]; decide)
  have hcounted := haccounted.counted U64.MAX m (by rw [hledger]; exact hmessage)
  have hcarol : Sample.carol ∈ voters (ledger Sample.oneTooMany) U64.MAX true := by
    rw [(registry_ledger _).mem_voters, hledger]
    exact hrecorded
  rw [Finset.card_eq_zero.mp (hcounted.1.symm.trans happrovals)] at hcarol
  exact absurd hcarol (Finset.notMem_empty _)

end StellarLend.Bridge
