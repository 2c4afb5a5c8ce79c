import Mathlib.Data.Finset.Card
import StellarLend.Foundations.Total
import StellarLend.Bridge.Registry

/-!
# Bridge/Payments — votes are counted, messages paid once

    submit ──▸ vote ──▸ … ──▸ vote ──▸ execute
                 └──▸ slash: invalidated

The two counters of a message count the votes on record; a vote is refused once the message is
executed or invalidated, so the counters and the votes stop together.  An execution moves one amount
from the message to what the bridge has withdrawn, and a message is executed once: a step pays a
message that was not paid before, or the admin.

All of it rests on a message having its number to itself.  Numbers saturate, and from the last one
on a submission overwrites the message before it.
-/

namespace StellarLend.Bridge

open Foundations Call
open Lending (Address)

variable {e : Env} {s s' t : Storage} {tx : Tx} {id : ℕ}

section Votes

open Finset

variable {approve : Bool}

/-! ## Votes -/

/-- The registered validators whose vote of a kind on a message is on record. -/
def voters (s : Storage) (id : ℕ) (approve : Bool) : Finset Address :=
  (validatorList s).toFinset.filter fun v => s.messageAttestation id v = some approve

theorem Registry.mem_voters (hs : Registry s) {v : Address} :
    v ∈ voters s id approve ↔ s.messageAttestation id v = some approve := by
  rw [voters, mem_filter, List.mem_toFinset, hs.listed]
  refine ⟨fun h => h.2, fun h => ⟨hs.voter id v ?_, h⟩⟩
  rw [h]
  rfl

theorem Registry.voters_congr (hs : Registry s) (hs' : Registry s')
    (h : s'.messageAttestation id = s.messageAttestation id) :
    voters s' id approve = voters s id approve := by
  ext v
  rw [hs'.mem_voters, hs.mem_voters, h]

section Attested

variable {validator : Address} {messageId : ℕ} {vote : Bool} {record : ValidatorRecord}
  {message : CrossChainMessage}

/-- A vote leaves the votes on other messages. -/
theorem Attested.elsewhere (h : Attested s validator messageId vote record message s')
    (hid : id ≠ messageId) : s'.messageAttestation id = s.messageAttestation id := by
  rw [h.attestations, Function.update_of_ne hid]

/-- A vote is one voter more. -/
theorem Attested.voters_self (h : Attested s validator messageId vote record message s')
    (hs : Registry s) : voters s' messageId vote = insert validator (voters s messageId vote) := by
  ext v
  rw [(hs.attested h).mem_voters, mem_insert, hs.mem_voters, h.attestations, Function.update_self,
    Function.update_apply]
  by_cases hv : v = validator
  · simp [hv]
  · simp [hv]

theorem Attested.voters_other (h : Attested s validator messageId vote record message s')
    (hs : Registry s) (hother : approve ≠ vote) :
    voters s' messageId approve = voters s messageId approve := by
  ext v
  rw [(hs.attested h).mem_voters, hs.mem_voters, h.attestations, Function.update_self,
    Function.update_apply]
  by_cases hv : v = validator
  · simp [hv, h.fresh, hother.symm]
  · rw [if_neg hv]

theorem Attested.card_voters (h : Attested s validator messageId vote record message s')
    (hs : Registry s) : (voters s' messageId vote).card = (voters s messageId vote).card + 1 := by
  rw [h.voters_self hs, card_insert_of_notMem]
  rw [hs.mem_voters, h.fresh]
  exact Option.some_ne_none _ ∘ Eq.symm

end Attested

/-! ## Numbers -/

/-- There is a number left for a message. -/
def NumberLeft (s : Storage) (tx : Tx) : Prop :=
  ∀ caller input, tx.op = .submitCrossChainMessage caller input →
    s.nextMessageId.getD 0 < U64.MAX

/-- A message is stored under a number not used before. -/
theorem Registry.message_nextId (hs : Registry s) (h : s.nextMessageId.getD 0 < U64.MAX) :
    s.message (nextId s) = none := by
  by_contra hsome
  obtain ⟨m, hm⟩ := Option.ne_none_iff_exists'.mp hsome
  have hle := (hs.numbered _ m hm).2
  rw [nextId, U64.saturatingAdd] at hle
  omega

/-! ## Counters -/

/-- The counters of a message count the votes on it, as far as they go. -/
def Counted (s : Storage) : Prop := ∀ id m, s.message id = some m →
  m.approvals = min (voters s id true).card U32.MAX ∧
    m.rejections = min (voters s id false).card U32.MAX

/-- Counters stay right where neither they nor the votes change. -/
theorem Counted.of_same (hc : Counted s) (hs : Registry s) (hs' : Registry s')
    (hattestation : s'.messageAttestation = s.messageAttestation)
    (f : ℕ → CrossChainMessage → CrossChainMessage)
    (hmessage : ∀ id, s'.message id = (s.message id).map (f id))
    (hf : ∀ id m, (f id m).approvals = m.approvals ∧ (f id m).rejections = m.rejections) :
    Counted s' := by
  intro id m' hm'
  rw [hmessage] at hm'
  obtain ⟨m, hm, rfl⟩ := Option.map_eq_some_iff.mp hm'
  have hsame := congrFun hattestation id
  rw [hs.voters_congr hs' hsame, hs.voters_congr hs' hsame, (hf id m).1, (hf id m).2]
  exact hc id m hm

/-- Counters stay right where messages and votes do. -/
theorem Counted.of_eq (hc : Counted s) (hs : Registry s) (hs' : Registry s')
    (hattestation : s'.messageAttestation = s.messageAttestation)
    (hmessage : s'.message = s.message) : Counted s' :=
  hc.of_same hs hs' hattestation (fun _ m => m)
    (fun id => (congrFun hmessage id).trans Option.map_id'.symm) fun _ _ => ⟨rfl, rfl⟩

theorem Counted.submitted {input : CrossChainMessageInput} (hc : Counted s) (hs : Registry s)
    (h : Submitted e s input s') (hleft : s.nextMessageId.getD 0 < U64.MAX) : Counted s' := by
  intro id m hm
  have hvoters : ∀ k, voters s' id k = voters s id k := fun _ =>
    hs.voters_congr (hs.submitted h) (congrFun h.attestations id)
  rw [hvoters, hvoters]
  rw [h.messages, Function.update_apply] at hm
  split at hm
  case isTrue hid =>
    obtain rfl := Option.some.inj hm
    have hnone : ∀ k, voters s id k = ∅ := by
      refine fun k => eq_empty_of_forall_notMem fun v hv => ?_
      rw [hs.mem_voters] at hv
      have hsome := hs.subject id v (by rw [hv]; rfl)
      rw [hid, hs.message_nextId hleft] at hsome
      cases hsome
    rw [hnone, hnone]
    exact ⟨rfl, rfl⟩
  case isFalse => exact hc id m hm

theorem Counted.attested {validator : Address} {messageId : ℕ} {vote : Bool}
    {record : ValidatorRecord} {message : CrossChainMessage} (hc : Counted s) (hs : Registry s)
    (h : Attested s validator messageId vote record message s') : Counted s' := by
  intro id m hm
  have hnumber := (hs.numbered _ _ h.message_eq).1
  rw [h.messages, Function.update_apply, hnumber] at hm
  split at hm
  case isTrue hid =>
    obtain rfl := Option.some.inj hm
    obtain ⟨happrovals, hrejections⟩ := hc _ _ h.message_eq
    rw [hid]
    cases vote with
    | true =>
      rw [h.card_voters hs, h.voters_other hs (by decide)]
      refine ⟨?_, hrejections⟩
      change min (message.approvals + 1) U32.MAX = _
      rw [happrovals]
      omega
    | false =>
      rw [h.card_voters hs, h.voters_other hs (by decide)]
      refine ⟨happrovals, ?_⟩
      change min (message.rejections + 1) U32.MAX = _
      rw [hrejections]
      omega
  case isFalse hid =>
    rw [hs.voters_congr (hs.attested h) (h.elsewhere hid),
      hs.voters_congr (hs.attested h) (h.elsewhere hid)]
    exact hc id m hm

/-- **Every step keeps the counters right**, while there are numbers left. -/
theorem Counted.step (hc : Counted s) (hs : Registry s) (hstep : step tx s = some s')
    (hleft : NumberLeft s tx) : Counted s' := by
  have heffect := step_effect hstep
  have hs' := hs.step hstep
  obtain ⟨e, op⟩ := tx
  cases op
  case bridgeWithdraw => exact hc.of_eq hs hs' heffect.attestation heffect.message
  case registerValidator =>
    have hafter := heffect.after
    exact hc.of_eq hs hs' (by rw [hafter]; rfl) (by rw [hafter]; rfl)
  case setValidatorActive =>
    obtain ⟨record, h⟩ := heffect
    exact hc.of_eq hs hs' (by rw [h.after]; rfl) (by rw [h.after]; rfl)
  case submitCrossChainMessage => exact hc.submitted hs heffect (hleft _ _ rfl)
  case attestCrossChainMessage =>
    obtain ⟨record, message, h⟩ := heffect
    exact hc.attested hs h
  case executeVerifiedWithdrawal =>
    obtain ⟨message, bridge, h⟩ := heffect
    refine hc.of_same hs hs' (by rw [h.after]; rfl) _ (hs.message_executed h) fun id m => ?_
    split <;> exact ⟨rfl, rfl⟩
  case slashConflictingMessages =>
    obtain ⟨first, second, slashed, t, h⟩ := heffect
    refine hc.of_same hs hs' h.frame.attestation _ (hs.message_slashed h) fun id m => ?_
    split <;> exact ⟨rfl, rfl⟩
  all_goals
    have hsame := Administered.toSameMessages heffect
    exact hc.of_eq hs hs' hsame.attestation hsame.message

end Votes

variable {bridgeId : String}

/-! ## Payments -/

/-- What a message has paid, and under which bridge's name: nothing until it is executed. -/
def CrossChainMessage.payment (m : CrossChainMessage) : Option (String × ℤ) :=
  if m.executed = true then some (m.bridgeId, m.amount) else none

def paymentOf (s : Storage) (id : ℕ) : Option (String × ℤ) :=
  (s.message id).bind CrossChainMessage.payment

/-- The amount of a payment under the bridge's name. -/
def paidUnder (bridgeId : String) : Option (String × ℤ) → ℤ
  | some (b, amount) => if b = bridgeId then amount else 0
  | none => 0

theorem paymentOf_of_some {m : CrossChainMessage} (h : s.message id = some m) :
    paymentOf s id = m.payment := by
  rw [paymentOf, h, Option.bind_some]

/-- What a transaction does to the payments and to what was withdrawn. -/
def Op.Books (s s' : Storage) : Op → Prop
  | .bridgeWithdraw _ b _ amount => paymentOf s' = paymentOf s ∧
      withdrawnOf s' = Function.update (withdrawnOf s) b (withdrawnOf s b + amount)
  | .executeVerifiedWithdrawal _ id => paymentOf s id = none ∧ ∃ b amount,
      paymentOf s' = Function.update (paymentOf s) id (some (b, amount)) ∧
        withdrawnOf s' = Function.update (withdrawnOf s) b (withdrawnOf s b + amount)
  | _ => paymentOf s' = paymentOf s ∧ withdrawnOf s' = withdrawnOf s

/-- Payments change with the messages alone. -/
theorem paymentOf_congr (h : s'.message = s.message) : paymentOf s' = paymentOf s := by
  funext id
  rw [paymentOf, h, paymentOf]

/-- A message rewritten to the same payment. -/
theorem paymentOf_update {m m' : CrossChainMessage} (hm : s.message id = some m)
    (h : s'.message = Function.update s.message id (some m')) (hpayment : m'.payment = m.payment) :
    paymentOf s' = paymentOf s := by
  funext n
  rw [paymentOf, paymentOf, h, Function.update_apply]
  split
  case isTrue hn => rw [hn, hm, Option.bind_some, Option.bind_some, hpayment]
  case isFalse => rfl

theorem payment_voted (approve : Bool) (m : CrossChainMessage) :
    (m.voted approve).payment = m.payment := by
  rw [CrossChainMessage.voted_eq]
  rfl

/-- **A step pays a message that was not paid, pays the admin, or pays nobody.** -/
theorem step_books (hs : Registry s) (hstep : step tx s = some s') (hleft : NumberLeft s tx) :
    tx.op.Books s s' := by
  have heffect := step_effect hstep
  obtain ⟨e, op⟩ := tx
  cases op
  case bridgeWithdraw => exact ⟨paymentOf_congr heffect.message, heffect.withdrawn⟩
  case registerValidator =>
    have hafter := heffect.after
    exact ⟨paymentOf_congr (by rw [hafter]; rfl), by rw [hafter]; rfl⟩
  case setValidatorActive =>
    obtain ⟨record, h⟩ := heffect
    exact ⟨paymentOf_congr (by rw [h.after]; rfl), by rw [h.after]; rfl⟩
  case submitCrossChainMessage =>
    refine ⟨funext fun n => ?_, Submitted.withdrawn heffect⟩
    rw [paymentOf, paymentOf, Submitted.messages heffect, Function.update_apply]
    split
    case isTrue hn =>
      rw [hn, hs.message_nextId (hleft _ _ rfl)]
      rfl
    case isFalse => rfl
  case attestCrossChainMessage =>
    obtain ⟨record, message, h⟩ := heffect
    have hmessages := h.messages
    rw [(hs.numbered _ _ h.message_eq).1] at hmessages
    exact ⟨paymentOf_update h.message_eq hmessages (payment_voted _ message), h.withdrawn⟩
  case executeVerifiedWithdrawal caller id =>
    obtain ⟨message, bridge, h⟩ := heffect
    refine ⟨?_, message.bridgeId, message.amount, funext fun n => ?_, h.withdrawn⟩
    · rw [paymentOf_of_some h.message_eq, CrossChainMessage.payment, h.executed]
      rfl
    · rw [paymentOf, hs.message_executed h, Function.update_apply]
      split
      case isTrue hn =>
        rw [hn, h.message_eq]
        rfl
      case isFalse => rw [Option.map_id', paymentOf]
  case slashConflictingMessages =>
    obtain ⟨first, second, slashed, t, h⟩ := heffect
    refine ⟨funext fun n => ?_, h.frame.withdrawn⟩
    rw [paymentOf, hs.message_slashed h, paymentOf]
    rcases s.message n with _ | m
    · rfl
    · change CrossChainMessage.payment (if _ then _ else _) = _
      split <;> rfl
  all_goals
    exact ⟨paymentOf_congr (SameMessages.message (Administered.toSameMessages heffect)),
      Administered.withdrawn heffect⟩

/-! ## Votes after the end -/

/-- The message was executed or invalidated. -/
def Closed (s : Storage) (id : ℕ) : Prop :=
  ∃ m, s.message id = some m ∧ (m.executed = true ∨ m.invalidated = true)

/-- **A closed message stays closed and takes no vote.** -/
theorem Closed.step (hclosed : Closed s id) (hs : Registry s) (hstep : step tx s = some s')
    (hleft : NumberLeft s tx) :
    Closed s' id ∧ s'.messageAttestation id = s.messageAttestation id := by
  have heffect := step_effect hstep
  obtain ⟨m, hm, hend⟩ := hclosed
  obtain ⟨e, op⟩ := tx
  cases op
  case bridgeWithdraw =>
    exact ⟨⟨m, by rw [heffect.message]; exact hm, hend⟩, congrFun heffect.attestation id⟩
  case registerValidator =>
    have hafter := heffect.after
    exact ⟨⟨m, by rw [hafter]; exact hm, hend⟩, by rw [hafter]; rfl⟩
  case setValidatorActive =>
    obtain ⟨record, h⟩ := heffect
    exact ⟨⟨m, by rw [h.after]; exact hm, hend⟩, by rw [h.after]; rfl⟩
  case submitCrossChainMessage =>
    have hne : id ≠ nextId s := by
      rintro rfl
      rw [hs.message_nextId (hleft _ _ rfl)] at hm
      cases hm
    refine ⟨⟨m, ?_, hend⟩, congrFun (Submitted.attestations heffect) id⟩
    rw [Submitted.messages heffect, Function.update_of_ne hne]
    exact hm
  case attestCrossChainMessage validator messageId approve =>
    obtain ⟨record, message, h⟩ := heffect
    have hne : id ≠ messageId := by
      rintro rfl
      obtain rfl : m = message := Option.some.inj (hm.symm.trans h.message_eq)
      rw [h.executed, h.invalidated] at hend
      simp at hend
    refine ⟨⟨m, ?_, hend⟩, h.elsewhere hne⟩
    rw [h.messages, (hs.numbered _ _ h.message_eq).1, Function.update_of_ne hne]
    exact hm
  case executeVerifiedWithdrawal =>
    obtain ⟨message, bridge, h⟩ := heffect
    refine ⟨⟨_, by rw [hs.message_executed h, hm, Option.map_some], ?_⟩, by rw [h.after]; rfl⟩
    split
    · exact .inl rfl
    · exact hend
  case slashConflictingMessages =>
    obtain ⟨first, second, slashed, t, h⟩ := heffect
    refine ⟨⟨_, by rw [hs.message_slashed h, hm, Option.map_some], ?_⟩,
      congrFun h.frame.attestation id⟩
    split
    · exact .inr rfl
    · exact hend
  all_goals
    have hsame := Administered.toSameMessages heffect
    exact ⟨⟨m, by rw [hsame.message]; exact hm, hend⟩, congrFun hsame.attestation id⟩

end StellarLend.Bridge
