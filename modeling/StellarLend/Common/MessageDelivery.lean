import StellarLend.Foundations.IndexedMap
import StellarLend.Foundations.Watermark
import StellarLend.Common.MessageBus

/-!
# Common/MessageDelivery — what the consumers have to respect for a message to be delivered once

The bus refuses to confirm a message twice, and nothing else: a message that is still queued can be
confirmed, and is handed out after it; a failure can be reported on a confirmed message; and a retry
queues a message whether it failed or not, as often as it is asked for.

A consumer confirms what it was handed and no longer waits, reports failures and asks for retries of
what is not confirmed, and asks for one retry at a time.  Under this discipline (`Handled`) the bus
delivers as it should, and under no weaker one.
-/

namespace StellarLend.Common

open Foundations Call Function
open Lending (Address)

variable {b c : BusRun} {id : ℕ} {s t : BusStorage} {e : BusEnv} {msg : BusMessage}

/-! ## What the calls do -/

theorem record_eq_some {α : Type} {events : α → List BusEvent}
    {o : Outcome MessageBusError BusStorage α} :
    b.record events o = some c ↔
      ∃ a storage, o = .ok a storage ∧ c = ⟨storage, b.log ++ events a⟩ := by
  cases o with
  | ok a storage =>
    simp only [BusRun.record, Option.some.injEq, Outcome.ok.injEq]
    exact ⟨fun h => ⟨a, storage, ⟨rfl, rfl⟩, h.symm⟩, by rintro ⟨_, _, ⟨rfl, rfl⟩, h⟩; exact h.symm⟩
  | err _ _ => simp [BusRun.record]
  | trap => simp [BusRun.record]

/-- The bus with a message more. -/
def withPublished (msg : BusMessage) (s : BusStorage) : BusStorage :=
  ⟨s.nextId + 1, s.queue ++ [msg.id], update s.messages msg.id (some msg), s.delivered⟩

/-- The bus with the head of its queue, of which this is the message, handed out. -/
def withHandedOut (msg : BusMessage) (queue : List ℕ) (id : ℕ) (s : BusStorage) : BusStorage :=
  setMessage id { msg with state := .inFlight, attempts := msg.attempts + 1 }
    { s with queue := queue }

/-- The bus with a message confirmed. -/
def withConfirmed (msg : BusMessage) (id : ℕ) (s : BusStorage) : BusStorage :=
  { setMessage id { msg with state := .delivered } s with
    delivered := update s.delivered id (some true) }

theorem publish_ok {source target : Address} {kind payloadHash : String} {version : ℕ}
    (h : publish source target kind payloadHash version e s = .ok id t) :
    id = s.nextId ∧ ∃ msg : BusMessage,
      msg.id = id ∧ msg.attempts = 0 ∧ t = withPublished msg s := by
  simp only [publish, nextId, require_seq, view_seq, orTrap_seq, store_seq, pure_seq, pure_ok,
    asks_seq, U64.checkedAdd_eq_some, and_assoc, exists_and_left, exists_eq_left', seq_assoc] at h
  obtain ⟨_, _, rfl, rfl⟩ := h
  exact ⟨rfl, ⟨s.nextId, version, source, target, kind, payloadHash, e.timestamp, 0, .queued⟩, rfl,
    rfl, rfl⟩

theorem dequeueNext_nil (hqueue : s.queue = []) {found : Option BusMessage} :
    dequeueNext e s = .ok found t ↔ none = found ∧ s = t := by
  simp only [dequeueNext, view_seq, hqueue, pure_ok]

theorem dequeueNext_cons {queue : List ℕ} (hqueue : s.queue = id :: queue)
    (hmsg : s.messages id = some msg) {found : Option BusMessage} :
    dequeueNext e s = .ok found t ↔
      msg.attempts + 1 ≤ U32.MAX ∧
        some { msg with state := .inFlight, attempts := msg.attempts + 1 } = found ∧
        withHandedOut msg queue id s = t := by
  simp only [dequeueNext, view_seq, and_assoc, exists_and_left, exists_eq_left', hqueue,
    store_seq, hmsg, orTrap_seq, pure_ok, U32.checkedAdd_eq_some]
  rfl

theorem confirmDelivery_ok {u : Unit} :
    confirmDelivery id e s = .ok u t ↔
      (s.delivered id).getD false ≠ true ∧
        ∃ msg, s.messages id = some msg ∧ withConfirmed msg id s = t := by
  simp only [confirmDelivery, view_seq, failIf_seq, okOr_seq, store_seq, store_ok]
  rfl

theorem markFailed_ok {u : Unit} :
    markFailed id e s = .ok u t ↔
      ∃ msg, s.messages id = some msg ∧ msg.attempts < MAX_RETRIES ∧
        setMessage id { msg with state := .failed } s = t := by
  simp only [markFailed, view_seq, failIf_seq, okOr_seq, store_ok, not_le]

theorem retryFailed_ok {u : Unit} :
    retryFailed id e s = .ok u t ↔
      ∃ msg, s.messages id = some msg ∧ msg.attempts < MAX_RETRIES ∧
        { s with queue := s.queue ++ [id] } = t := by
  simp only [retryFailed, view_seq, failIf_seq, okOr_seq, store_ok, not_le]

/-! ## The discipline -/

/-- What the consumers respect: a message is confirmed when it is not waiting, a failure is reported
of a message that is not confirmed, and a retry asked for one that is neither. -/
def Handled (b : BusRun) (call : BusCall) : Prop :=
  match call.op with
  | .publish .. => True
  | .dequeueNext => True
  | .confirmDelivery id => id ∉ b.storage.queue
  | .markFailed id => .confirmed id ∉ b.log
  | .retryFailed id => .confirmed id ∉ b.log ∧ id ∉ b.storage.queue

instance (b : BusRun) (call : BusCall) : Decidable (Handled b call) := by
  unfold Handled
  split <;> infer_instance

/-- What the bus stores of a message, against the log. -/
def Counts (log : List BusEvent) (id : ℕ) (msg : BusMessage) : Prop :=
  msg.id = id ∧ msg.attempts = log.count (.handedOut id) ∧ msg.attempts ≤ MAX_RETRIES

/-- An event counts for the message that is handed out. -/
theorem Counts.snoc {log : List BusEvent} {event : BusEvent} (h : Counts log id msg)
    (hother : event ≠ .handedOut id) : Counts (log ++ [event]) id msg := by
  refine ⟨h.1, ?_, h.2.2⟩
  rw [List.count_append, List.count_singleton, if_neg (by simpa using hother), h.2.1, add_zero]

/-- What holds under the discipline.  A message in the queue is unconfirmed and has an attempt left,
and the attempts are what the log says. -/
structure BusKept (b : BusRun) : Prop where
  stored : ∀ id, (b.storage.messages id).isSome ↔ 1 ≤ id ∧ id < b.storage.nextId
  counted : ∀ id msg, b.storage.messages id = some msg → Counts b.log id msg
  nodup : b.storage.queue.Nodup
  waiting : ∀ id ∈ b.storage.queue, .confirmed id ∉ b.log ∧
    ∃ msg, b.storage.messages id = some msg ∧ msg.attempts < MAX_RETRIES
  delivered : ∀ id, (b.storage.delivered id).getD false = true ↔ .confirmed id ∈ b.log
  final : ∀ id, .confirmed id ∈ b.log →
    ∃ msg, b.storage.messages id = some msg ∧ msg.state = .delivered
  served : ∃ mark, LogKept mark b.storage.nextId b.log ∧
    Marked mark b.storage.nextId b.storage.queue

namespace BusKept

theorem empty : BusKept .empty where
  stored id := by simp [BusRun.empty, BusStorage.empty]; omega
  counted id msg h := by cases h
  nodup := .nil
  waiting id h := by cases h
  delivered id := by simp [BusRun.empty, BusStorage.empty]
  final id h := by cases h
  served := ⟨0, .empty, .start⟩

theorem one_le_nextId (h : BusKept b) : 1 ≤ b.storage.nextId := by
  obtain ⟨mark, -, hmarked⟩ := h.served
  have := hmarked.lt_next
  omega

/-- No message has the next number yet. -/
theorem messages_nextId (h : BusKept b) : b.storage.messages b.storage.nextId = none := by
  have hstored := (h.stored b.storage.nextId).not.mpr fun hlt => lt_irrefl _ hlt.2
  exact Option.not_isSome_iff_eq_none.mp hstored

theorem nextId_notMem_queue (h : BusKept b) : b.storage.nextId ∉ b.storage.queue := by
  intro hmem
  obtain ⟨-, msg, hmsg, -⟩ := h.waiting _ hmem
  rw [h.messages_nextId] at hmsg
  cases hmsg

theorem handedOut_nextId (h : BusKept b) : .handedOut b.storage.nextId ∉ b.log := by
  obtain ⟨mark, hlog, hmarked⟩ := h.served
  rw [hlog.handedOut]
  have := hmarked.lt_next
  omega

theorem confirmed_ne_nextId (h : BusKept b) (hconfirmed : .confirmed id ∈ b.log) :
    id ≠ b.storage.nextId := by
  rintro rfl
  obtain ⟨msg, hmsg, -⟩ := h.final _ hconfirmed
  rw [h.messages_nextId] at hmsg
  cases hmsg

/-- A message that is written again is stored as before. -/
theorem stored_update (h : BusKept b) {msg' : BusMessage} (hmsg : b.storage.messages id = some msg)
    (i : ℕ) :
    (update b.storage.messages id (some msg') i).isSome ↔ 1 ≤ i ∧ i < b.storage.nextId := by
  rw [← h.stored]
  by_cases hi : i = id
  · subst hi
    simp [hmsg]
  · rw [update_of_ne hi]

theorem one_le (h : BusKept b) (hmsg : b.storage.messages id = some msg) :
    1 ≤ id ∧ id < b.storage.nextId := (h.stored id).mp (by rw [hmsg]; rfl)

/-- A confirmed message is final, whatever is written under another number. -/
theorem final_of_ne (h : BusKept b) {i : ℕ} (hi : .confirmed i ∈ b.log) (hne : i ≠ id)
    (msg' : BusMessage) : ∃ msg, update b.storage.messages id (some msg') i = some msg ∧
      msg.state = .delivered := by
  obtain ⟨msg, hmsg, hstate⟩ := h.final i hi
  exact ⟨msg, (update_of_ne hne ..).trans hmsg, hstate⟩

/-- A message that waits has an attempt left, whatever is written under another number. -/
theorem left_of_ne (h : BusKept b) {i : ℕ} (hi : i ∈ b.storage.queue) (hne : i ≠ id)
    (msg' : BusMessage) : ∃ msg, update b.storage.messages id (some msg') i = some msg ∧
      msg.attempts < MAX_RETRIES := by
  obtain ⟨-, msg, hmsg, hleft⟩ := h.waiting i hi
  exact ⟨msg, (update_of_ne hne ..).trans hmsg, hleft⟩

theorem publish (h : BusKept b) (hid : msg.id = b.storage.nextId) (hattempts : msg.attempts = 0) :
    BusKept ⟨withPublished msg b.storage, b.log ++ [.published msg.id]⟩ where
  stored i := by
    change (update b.storage.messages msg.id (some msg) i).isSome ↔ 1 ≤ i ∧ i < b.storage.nextId + 1
    rw [hid]
    by_cases hi : i = b.storage.nextId
    · have hone := h.one_le_nextId
      subst hi
      simpa using hone
    · rw [update_of_ne hi, h.stored]
      omega
  counted := by
    refine forall_update (fun i found hfound => ?_)
      ⟨rfl, ?_, by rw [hattempts]; exact Nat.zero_le _⟩
    · exact (h.counted i found hfound).snoc nofun
    · have hzero := List.count_eq_zero_of_not_mem h.handedOut_nextId
      rw [hid, List.count_append, hzero, hattempts]
      simp
  nodup := by
    rw [withPublished, hid, ← List.concat_eq_append]
    exact h.nodup.concat h.nextId_notMem_queue
  waiting i hi := by
    rw [withPublished, hid, List.mem_append, List.mem_singleton] at hi
    rw [withPublished, hid, mem_snoc]
    rcases hi with hi | rfl
    · have hne : i ≠ b.storage.nextId := fun heq => h.nextId_notMem_queue (heq ▸ hi)
      exact ⟨fun hor => hor.elim (h.waiting i hi).1 nofun, h.left_of_ne hi hne msg⟩
    · refine ⟨fun hor => hor.elim (fun hmem => h.confirmed_ne_nextId hmem rfl) nofun, msg,
        update_self .., ?_⟩
      rw [hattempts]
      decide
  delivered i := by
    rw [mem_snoc, ← h.delivered]
    simp [withPublished]
  final i hi := by
    have hmem := (mem_snoc.mp hi).resolve_right nofun
    exact h.final_of_ne hmem (hid ▸ h.confirmed_ne_nextId hmem) msg
  served := by
    obtain ⟨mark, hlog, hmarked⟩ := h.served
    rw [hid, withPublished, hid]
    exact ⟨mark, hlog.publish h.one_le_nextId, hmarked.arrive⟩

theorem handOut (h : BusKept b) {queue : List ℕ} (hqueue : b.storage.queue = id :: queue)
    (hmsg : b.storage.messages id = some msg) :
    BusKept ⟨withHandedOut msg queue id b.storage, b.log ++ [.handedOut id]⟩ := by
  obtain ⟨hopen, found, hfound, hleft⟩ := h.waiting id (hqueue ▸ List.mem_cons_self)
  obtain rfl := Option.some.inj (hmsg.symm.trans hfound)
  obtain ⟨hid, hcount, -⟩ := h.counted id msg hmsg
  have hnodup := h.nodup
  rw [hqueue] at hnodup
  obtain ⟨hnot, hrest⟩ := List.nodup_cons.mp hnodup
  constructor
  case stored => exact h.stored_update hmsg
  case counted =>
    intro i other hother
    obtain ⟨rfl, rfl⟩ | ⟨hne, hother⟩ := update_eq_some.mp hother
    · exact ⟨hid, by simp [List.count_append, hcount], hleft⟩
    · exact (h.counted i other hother).snoc fun heq => hne (BusEvent.handedOut.inj heq).symm
  case nodup => exact hrest
  case waiting =>
    intro i hi
    have hne : i ≠ id := fun heq => hnot (heq ▸ hi)
    have hwaits : i ∈ b.storage.queue := hqueue ▸ List.mem_cons_of_mem id hi
    exact ⟨fun hmem => (h.waiting i hwaits).1 ((mem_snoc.mp hmem).resolve_right nofun),
      h.left_of_ne hwaits hne _⟩
  case delivered =>
    intro i
    rw [mem_snoc, ← h.delivered]
    simp [withHandedOut, setMessage]
  case final =>
    intro i hi
    have hmem := (mem_snoc.mp hi).resolve_right nofun
    have hne : i ≠ id := fun heq => hopen (heq ▸ hmem)
    exact h.final_of_ne hmem hne _
  case served =>
    obtain ⟨mark, hlog, hmarked⟩ := h.served
    rw [hqueue] at hmarked
    have hone := (h.one_le hmsg).1
    rcases Nat.lt_or_ge mark id with hlt | hle
    · obtain ⟨hnext, hserved⟩ := hmarked.serve hlt
      exact ⟨mark + 1, hlog.handOut hopen hone (.inr ⟨hnext, rfl⟩), hserved⟩
    · exact ⟨mark, hlog.handOut hopen hone (.inl ⟨hle, rfl⟩), hmarked.reserve hle⟩

theorem confirm (h : BusKept b) (hmsg : b.storage.messages id = some msg)
    (hnew : (b.storage.delivered id).getD false ≠ true) (hgone : id ∉ b.storage.queue) :
    BusKept ⟨withConfirmed msg id b.storage, b.log ++ [.confirmed id]⟩ := by
  have hopen : .confirmed id ∉ b.log := fun hmem => hnew ((h.delivered id).mpr hmem)
  constructor
  case stored => exact h.stored_update hmsg
  case counted =>
    refine forall_update (fun i other hother => ?_) ?_
    · exact (h.counted i other hother).snoc nofun
    · exact (h.counted id msg hmsg).snoc nofun
  case nodup => exact h.nodup
  case waiting =>
    intro i hi
    have hne : i ≠ id := fun heq => hgone (heq ▸ hi)
    refine ⟨fun hmem => ?_, h.left_of_ne hi hne _⟩
    rcases mem_snoc.mp hmem with hmem | heq
    · exact (h.waiting i hi).1 hmem
    · exact hne (BusEvent.confirmed.inj heq)
  case delivered =>
    intro i
    rw [mem_snoc, BusEvent.confirmed.injEq, ← h.delivered]
    by_cases hi : i = id
    · subst hi
      simp [withConfirmed]
    · simp [withConfirmed, setMessage, hi]
  case final =>
    intro i hi
    by_cases heq : i = id
    · subst heq
      exact ⟨_, update_self .., rfl⟩
    · have hmem := (mem_snoc.mp hi).resolve_right fun hlast => heq (BusEvent.confirmed.inj hlast)
      exact h.final_of_ne hmem heq _
  case served =>
    obtain ⟨mark, hlog, hmarked⟩ := h.served
    exact ⟨mark, hlog.confirm hopen, hmarked⟩

theorem fail (h : BusKept b) (hmsg : b.storage.messages id = some msg)
    (hopen : .confirmed id ∉ b.log) :
    BusKept ⟨setMessage id { msg with state := .failed } b.storage, b.log⟩ := by
  constructor
  case stored => exact h.stored_update hmsg
  case counted => exact forall_update h.counted (h.counted id msg hmsg)
  case nodup => exact h.nodup
  case waiting =>
    intro i hi
    obtain ⟨hstill, other, hother, hattempts⟩ := h.waiting i hi
    by_cases heq : i = id
    · subst heq
      obtain rfl := Option.some.inj (hmsg.symm.trans hother)
      exact ⟨hstill, _, update_self .., hattempts⟩
    · exact ⟨hstill, h.left_of_ne hi heq _⟩
  case delivered => exact h.delivered
  case final =>
    intro i hi
    have hne : i ≠ id := fun heq => hopen (heq ▸ hi)
    exact h.final_of_ne hi hne _
  case served => exact h.served

theorem retry (h : BusKept b) (hmsg : b.storage.messages id = some msg)
    (hleft : msg.attempts < MAX_RETRIES) (hopen : .confirmed id ∉ b.log)
    (hgone : id ∉ b.storage.queue) :
    BusKept ⟨{ b.storage with queue := b.storage.queue ++ [id] }, b.log⟩ where
  stored := h.stored
  counted := h.counted
  nodup := by
    rw [← List.concat_eq_append]
    exact h.nodup.concat hgone
  waiting i hi := by
    rcases List.mem_append.mp hi with hi | hi
    · exact h.waiting i hi
    · obtain rfl := List.mem_singleton.mp hi
      exact ⟨hopen, msg, hmsg, hleft⟩
  delivered := h.delivered
  final := h.final
  served := by
    obtain ⟨mark, hlog, hmarked⟩ := h.served
    refine ⟨mark, hlog, hmarked.again (not_lt.mp fun hlt => hgone ?_)⟩
    exact hmarked.mem hlt (h.one_le hmsg).2

/-- **A call under the discipline keeps all of it.** -/
theorem step {call : BusCall} (h : BusKept b) (hstep : call.step b = some c)
    (hhandled : Handled b call) : BusKept c := by
  obtain ⟨env, op⟩ := call
  cases op with
  | publish source target kind payloadHash version =>
    obtain ⟨id, storage, hok, rfl⟩ := record_eq_some.mp hstep
    obtain ⟨rfl, msg, hid, hattempts, rfl⟩ := publish_ok hok
    exact hid ▸ h.publish hid hattempts
  | dequeueNext =>
    obtain ⟨found, storage, hok, rfl⟩ := record_eq_some.mp hstep
    cases hqueue : b.storage.queue with
    | nil =>
      obtain ⟨rfl, rfl⟩ := (dequeueNext_nil hqueue).mp hok
      simpa using h
    | cons id queue =>
      obtain ⟨-, msg, hmsg, -⟩ := h.waiting id (hqueue ▸ List.mem_cons_self)
      obtain ⟨-, rfl, rfl⟩ := (dequeueNext_cons hqueue hmsg).mp hok
      obtain rfl := (h.counted id msg hmsg).1
      exact h.handOut hqueue hmsg
  | confirmDelivery id =>
    obtain ⟨_, storage, hok, rfl⟩ := record_eq_some.mp hstep
    obtain ⟨hnew, msg, hmsg, rfl⟩ := confirmDelivery_ok.mp hok
    exact h.confirm hmsg hnew hhandled
  | markFailed id =>
    obtain ⟨_, storage, hok, rfl⟩ := record_eq_some.mp hstep
    obtain ⟨msg, hmsg, -, rfl⟩ := markFailed_ok.mp hok
    simpa using h.fail hmsg hhandled
  | retryFailed id =>
    obtain ⟨_, storage, hok, rfl⟩ := record_eq_some.mp hstep
    obtain ⟨msg, hmsg, hleft, rfl⟩ := retryFailed_ok.mp hok
    simpa using h.retry hmsg hleft hhandled.1 hhandled.2

end BusKept

/-! ## Delivery -/

/-- What the bus owes its messages: each is confirmed at most once and not handed out after that,
its state is then final, it is handed out no more often than there are attempts and waits at most
once; and they are handed out for the first time in the order they were published, none left
out. -/
structure BusSound (b : BusRun) : Prop where
  once : ∀ past rest id, b.log = past ++ .confirmed id :: rest →
    .confirmed id ∉ rest ∧ .handedOut id ∉ rest
  final : ∀ id, .confirmed id ∈ b.log →
    ∃ msg, b.storage.messages id = some msg ∧ msg.state = .delivered
  retries : ∀ id, b.log.count (.handedOut id) ≤ MAX_RETRIES
  nodup : b.storage.queue.Nodup
  inTurn : ∀ past rest later, b.log = past ++ .handedOut later :: rest →
    ∀ earlier, [.published earlier, .published later].Sublist b.log → .handedOut earlier ∈ past
  noneLost : ∀ id, .published id ∈ b.log → id ∈ b.storage.queue ∨ .handedOut id ∈ b.log

theorem BusKept.sound (h : BusKept b) : BusSound b := by
  obtain ⟨mark, hlog, hmarked⟩ := h.served
  constructor
  case once => exact fun past rest id hsplit => hlog.closed_of_split hsplit
  case final => exact h.final
  case retries =>
    intro id
    cases hmsg : b.storage.messages id with
    | some msg =>
      obtain ⟨-, hcount, hle⟩ := h.counted id msg hmsg
      rwa [← hcount]
    | none =>
      have hlt := hmarked.lt_next
      have hnot : .handedOut id ∉ b.log := fun hmem => by
        have hin := (h.stored id).mpr (by have := (hlog.handedOut id).mp hmem; omega)
        rw [hmsg] at hin
        cases hin
      rw [List.count_eq_zero_of_not_mem hnot]
      exact Nat.zero_le _
  case nodup => exact h.nodup
  case inTurn =>
    intro past rest later hsplit earlier hsub
    have hin := (hlog.published earlier).mp (hsub.subset List.mem_cons_self)
    exact hlog.inTurn past rest later hsplit earlier hin.1 (hlog.lt_of_sublist hsub)
  case noneLost =>
    intro id hid
    obtain ⟨hone, hlt⟩ := (hlog.published id).mp hid
    rcases Nat.lt_or_ge mark id with habove | hle
    · exact .inl (hmarked.mem habove hlt)
    · exact .inr ((hlog.handedOut id).mpr ⟨hone, hle⟩)

/-! ## Emptying the queue -/

/-- Every message in the queue can be handed out. -/
structure Servable (b : BusRun) : Prop where
  nodup : b.storage.queue.Nodup
  waiting : ∀ id ∈ b.storage.queue, ∃ msg, b.storage.messages id = some msg ∧ msg.id = id ∧
    msg.attempts < MAX_RETRIES

/-- A number of calls of `dequeue_next`. -/
def dequeues (e : BusEnv) (n : ℕ) : List BusCall := List.replicate n ⟨e, .dequeueNext⟩

theorem Servable.dequeue (h : Servable b) {queue : List ℕ} (hqueue : b.storage.queue = id :: queue)
    (e : BusEnv) :
    ∃ c, BusCall.step ⟨e, .dequeueNext⟩ b = some c ∧ Servable c ∧ c.storage.queue = queue ∧
      c.log = b.log ++ [.handedOut id] := by
  obtain ⟨msg, hmsg, rfl, hleft⟩ := h.waiting id (hqueue ▸ List.mem_cons_self)
  have hnodup := h.nodup
  rw [hqueue] at hnodup
  obtain ⟨hnot, hrest⟩ := List.nodup_cons.mp hnodup
  have hfits : msg.attempts + 1 ≤ U32.MAX := by
    have : MAX_RETRIES ≤ U32.MAX := by decide
    omega
  refine ⟨⟨withHandedOut msg queue msg.id b.storage, b.log ++ [.handedOut msg.id]⟩,
    ?_, ?_, rfl, rfl⟩
  · exact record_eq_some.mpr ⟨_, _, (dequeueNext_cons hqueue hmsg).mpr ⟨hfits, rfl, rfl⟩, rfl⟩
  · refine ⟨hrest, fun i hi => ?_⟩
    have hne : i ≠ msg.id := fun heq => hnot (heq ▸ hi)
    obtain ⟨other, hother, hrestOf⟩ := h.waiting i (hqueue ▸ List.mem_cons_of_mem _ hi)
    exact ⟨other, (update_of_ne hne ..).trans hother, hrestOf⟩

/-- **What waits in the queue is handed out sooner or later**, as long as it is dequeued from. -/
theorem Servable.handsOut (h : Servable b) (e : BusEnv) (hid : id ∈ b.storage.queue) :
    ∃ n later,
      (run BusCall.step b (dequeues e n)).log = b.log ++ later ∧ .handedOut id ∈ later := by
  induction hqueue : b.storage.queue generalizing b with
  | nil =>
    rw [hqueue] at hid
    cases hid
  | cons head queue ih =>
    obtain ⟨c, hstep, hc, hrest, hlog⟩ := h.dequeue hqueue e
    rw [hqueue] at hid
    rcases List.mem_cons.mp hid with rfl | hid
    · refine ⟨1, [.handedOut id], ?_, List.mem_singleton_self _⟩
      rw [dequeues, List.replicate_one, run_cons, run_nil, exec_of_some hstep, hlog]
    · obtain ⟨n, later, hlater, hmem⟩ := ih hc (hrest ▸ hid) hrest
      refine ⟨n + 1, .handedOut head :: later, ?_, List.mem_cons_of_mem _ hmem⟩
      rw [dequeues, List.replicate_succ, run_cons, exec_of_some hstep, ← dequeues, hlater, hlog,
        List.append_assoc, List.singleton_append]

/-- A bus with a confirmed message in its queue comes to hand it out. -/
theorem Servable.unsound (h : Servable b) (e : BusEnv) (hid : id ∈ b.storage.queue)
    (hconfirmed : .confirmed id ∈ b.log) :
    ∃ n, ¬ BusSound (run BusCall.step b (dequeues e n)) := by
  obtain ⟨n, later, hlog, hmem⟩ := h.handsOut e hid
  obtain ⟨past, rest, hsplit⟩ := List.append_of_mem hconfirmed
  refine ⟨n, fun hsound => (hsound.once past (rest ++ later) id ?_).2
    (List.mem_append_right _ hmem)⟩
  rw [hlog, hsplit, List.append_assoc, List.cons_append]

namespace BusKept

theorem servable (h : BusKept b) : Servable b := by
  refine ⟨h.nodup, fun id hid => ?_⟩
  obtain ⟨-, msg, hmsg, hleft⟩ := h.waiting id hid
  exact ⟨msg, hmsg, (h.counted id msg hmsg).1, hleft⟩

theorem run (h : BusKept b) {calls : List BusCall} (hmeets : Meets BusCall.step Handled b calls) :
    BusKept (Foundations.run BusCall.step b calls) :=
  hmeets.invariant (fun _ _ _ hstep hhandled h => h.step hstep hhandled) h

/-- Emptying the queue needs no discipline. -/
theorem sound_dequeues (h : BusKept b) (e : BusEnv) (n : ℕ) :
    BusSound (Foundations.run BusCall.step b (dequeues e n)) := by
  refine (h.run (meets_of_forall fun call hcall _ => ?_)).sound
  obtain rfl := (List.mem_replicate.mp hcall).2
  trivial

/-- A message confirmed while it waits is handed out again. -/
theorem unsound_confirm (h : BusKept b) (e : BusEnv) (hmsg : b.storage.messages id = some msg)
    (hid : id ∈ b.storage.queue) :
    ∃ n, ¬ BusSound (Foundations.run BusCall.step
      ⟨withConfirmed msg id b.storage, b.log ++ [.confirmed id]⟩ (dequeues e n)) := by
  have hservable : Servable ⟨withConfirmed msg id b.storage, b.log ++ [.confirmed id]⟩ := by
    refine ⟨h.nodup, fun i hi => ?_⟩
    obtain ⟨other, hother, hname, hleft⟩ := h.servable.waiting i hi
    by_cases heq : i = id
    · subst heq
      obtain rfl := Option.some.inj (hmsg.symm.trans hother)
      exact ⟨_, update_self .., hname, hleft⟩
    · exact ⟨other, (update_of_ne heq ..).trans hother, hname, hleft⟩
  exact hservable.unsound e hid (List.mem_append_right _ (List.mem_singleton_self _))

/-- A confirmed message that is queued again is handed out again. -/
theorem unsound_retry (h : BusKept b) (e : BusEnv) (hmsg : b.storage.messages id = some msg)
    (hleft : msg.attempts < MAX_RETRIES) (hgone : id ∉ b.storage.queue)
    (hconfirmed : .confirmed id ∈ b.log) :
    ∃ n, ¬ BusSound (Foundations.run BusCall.step
      ⟨{ b.storage with queue := b.storage.queue ++ [id] }, b.log⟩ (dequeues e n)) := by
  refine Servable.unsound ⟨?_, fun i hi => ?_⟩ e
    (List.mem_append_right _ (List.mem_singleton_self _)) hconfirmed
  · rw [← List.concat_eq_append]
    exact h.nodup.concat hgone
  · rcases List.mem_append.mp hi with hi | hi
    · exact h.servable.waiting i hi
    · obtain rfl := List.mem_singleton.mp hi
      exact ⟨msg, hmsg, (h.counted i msg hmsg).1, hleft⟩

/-- **A call leaves a bus that delivers, however its queue is emptied, exactly if it respects the
discipline.** -/
theorem handled_iff {call : BusCall} (h : BusKept b) (hstep : call.step b = some c) :
    Handled b call ↔
      ∀ e n, BusSound (Foundations.run BusCall.step c (dequeues e n)) := by
  refine ⟨fun hhandled e n => (h.step hstep hhandled).sound_dequeues e n, fun hsound => ?_⟩
  obtain ⟨env, op⟩ := call
  cases op with
  | publish => trivial
  | dequeueNext => trivial
  | confirmDelivery id =>
    obtain ⟨_, storage, hok, rfl⟩ := record_eq_some.mp hstep
    obtain ⟨-, msg, hmsg, rfl⟩ := confirmDelivery_ok.mp hok
    intro hid
    obtain ⟨n, hunsound⟩ := h.unsound_confirm env hmsg hid
    exact hunsound (hsound env n)
  | markFailed id =>
    obtain ⟨_, storage, hok, rfl⟩ := record_eq_some.mp hstep
    obtain ⟨msg, hmsg, -, rfl⟩ := markFailed_ok.mp hok
    intro hconfirmed
    obtain ⟨other, hother, hstate⟩ := (hsound env 0).final id (List.mem_append_left _ hconfirmed)
    have hfailed : update b.storage.messages id (some { msg with state := .failed }) id =
        some other := hother
    rw [update_self] at hfailed
    obtain rfl := Option.some.inj hfailed
    cases hstate
  | retryFailed id =>
    obtain ⟨_, storage, hok, rfl⟩ := record_eq_some.mp hstep
    obtain ⟨msg, hmsg, hleft, rfl⟩ := retryFailed_ok.mp hok
    have hgone : id ∉ b.storage.queue := by
      have hnodup := (hsound env 0).nodup
      exact fun hmem =>
        (List.nodup_append.mp hnodup).2.2 id hmem id (List.mem_singleton_self id) rfl
    refine ⟨fun hconfirmed => ?_, hgone⟩
    obtain ⟨n, hunsound⟩ := h.unsound_retry env hmsg hleft hgone hconfirmed
    exact hunsound (by simpa using hsound env n)

end BusKept

/-- **The bus delivers its messages as it should, however the run goes on dequeuing, exactly as long
as the consumers respect the discipline.** -/
theorem bus_sound_iff (calls : List BusCall) :
    Meets BusCall.step Handled .empty calls ↔
      ∀ past, past <+: calls → ∀ e n, BusSound (busAfter (past ++ dequeues e n)) := by
  constructor
  · rintro h past ⟨rest, rfl⟩ e n
    have hkept : BusKept (busAfter past) := BusKept.empty.run (meets_append.mp h).1
    rw [busAfter, run_append]
    exact hkept.sound_dequeues e n
  · intro h
    refine (meets_iff_steps (P := fun _ _ c => ∀ e n, BusSound (run BusCall.step c (dequeues e n)))
      (fun _ _ _ hstep h => h.handled_iff hstep)
      (fun _ _ _ hstep hhandled h => h.step hstep hhandled) BusKept.empty).mpr ?_
    intro past call rest c hcalls hstep e n
    have hsound := h (past ++ [call]) ⟨rest, by rw [hcalls, List.append_assoc]; rfl⟩ e n
    rwa [busAfter, run_append, run_snoc, exec_of_some hstep] at hsound

namespace Sample

/-- A call at a time, signed by the publisher. -/
def busCall (op : BusOp) : BusCall := ⟨⟨5, [⟨1⟩]⟩, op⟩

/-- A message is handed out, confirmed, and reported as failed after that. -/
def failedAfterConfirmed : List BusCall :=
  [busCall (.publish ⟨1⟩ ⟨2⟩ "sync" "h" 1), busCall .dequeueNext, busCall (.confirmDelivery 1),
    busCall (.markFailed 1)]

/-- It is retried then, and handed out. -/
def handedOutAgain : List BusCall :=
  failedAfterConfirmed ++ [busCall (.retryFailed 1), busCall .dequeueNext]

/-- **A confirmed message changes its state, and is handed out once more.** -/
theorem bus_unsound :
    ¬ BusSound (busAfter failedAfterConfirmed) ∧ ¬ BusSound (busAfter handedOutAgain) := by
  constructor
  · intro h
    obtain ⟨msg, hmsg, hstate⟩ := h.final 1 (by decide)
    have hfailed : ((busAfter failedAfterConfirmed).storage.messages 1).map BusMessage.state =
        some .failed := by decide
    rw [hmsg, Option.map_some, hstate] at hfailed
    cases hfailed
  · intro h
    exact (h.once [.published 1, .handedOut 1] [.handedOut 1] 1 (by decide)).2 (by decide)

end Sample

end StellarLend.Common
