import Mathlib.Logic.Function.Basic
import StellarLend.Foundations.Call
import StellarLend.Foundations.Checked
import StellarLend.Foundations.Run
import StellarLend.Lending.Storage

/-!
# Common/MessageBus — messages queued between contracts, handed out and confirmed

`common/src/message_bus.rs`.

    publish ─▸ queue ─dequeue_next─▸ InFlight ─confirm_delivery─▸ Delivered
                 ▲                      │ mark_failed
                 └──── retry_failed ─── Failed

The state of a message, the queue and the map of what was delivered are entries of their own, and of
the arrows only the dequeuing one is enforced: a call that reports on a message does not look where
the message is.

The log of a run has an event for each message published, handed out and confirmed.  `LogKept` says
that messages are numbered in the order they are published, that those handed out are the first ones
up to a mark, each preceded by all before it, and that a confirmation is the last word on its
message.
-/

namespace StellarLend.Common

open Foundations Call Function
open Lending (Address)

def MAX_RETRIES : ℕ := 3

inductive MessageBusError where
  | messageNotFound
  | alreadyDelivered
  | retryLimitExceeded
  deriving DecidableEq, Repr

inductive MessageState where
  | queued
  | inFlight
  | delivered
  | failed
  deriving DecidableEq, Repr

structure BusMessage where
  id : ℕ
  version : ℕ
  source : Address
  target : Address
  kind : String
  payloadHash : String
  createdAt : ℕ
  attempts : ℕ
  state : MessageState
  deriving DecidableEq

/-- The four keys of the bus; an absent one reads as its default. -/
structure BusStorage where
  nextId : ℕ
  queue : List ℕ
  messages : ℕ → Option BusMessage
  delivered : ℕ → Option Bool

def BusStorage.empty : BusStorage := ⟨1, [], fun _ => none, fun _ => none⟩

structure BusEnv where
  timestamp : ℕ
  /-- The addresses whose authorisation the host accepts for this invocation. -/
  auths : List Address

abbrev BusInvocation (α : Type) : Type := Call BusEnv BusStorage MessageBusError α

/-! ## Publishing and dequeuing -/

/-- Unchecked: the addition traps. -/
def nextId : BusInvocation ℕ := do
  let id ← view BusStorage.nextId
  let next ← orTrap (U64.checkedAdd id 1)
  store fun s => { s with nextId := next }
  pure id

def setMessage (id : ℕ) (msg : BusMessage) (s : BusStorage) : BusStorage :=
  { s with messages := update s.messages id (some msg) }

def publish (source target : Address) (kind payloadHash : String) (version : ℕ) :
    BusInvocation ℕ := do
  require fun e => source ∈ e.auths
  let id ← nextId
  let now ← asks BusEnv.timestamp
  store (setMessage id ⟨id, version, source, target, kind, payloadHash, now, 0, .queued⟩)
  store fun s => { s with queue := s.queue ++ [id] }
  pure id

/-- Nothing is handed out for an id without a message, which leaves the queue all the same. -/
def dequeueNext : BusInvocation (Option BusMessage) := do
  let queue ← view BusStorage.queue
  match queue with
  | [] => pure none
  | id :: queue => do
    store fun s => { s with queue := queue }
    let msg ← view fun s => s.messages id
    match msg with
    | some msg => do
      let attempts ← orTrap (U32.checkedAdd msg.attempts 1)
      let msg := { msg with state := .inFlight, attempts := attempts }
      store (setMessage id msg)
      pure (some msg)
    | none => pure none

/-! ## Reporting -/

def confirmDelivery (id : ℕ) : BusInvocation Unit := do
  let delivered ← view fun s => s.delivered id
  failIf (delivered.getD false = true) .alreadyDelivered
  let msg ← view fun s => s.messages id
  let msg ← okOr msg .messageNotFound
  store (setMessage id { msg with state := .delivered })
  store fun s => { s with delivered := update s.delivered id (some true) }

def markFailed (id : ℕ) : BusInvocation Unit := do
  let msg ← view fun s => s.messages id
  let msg ← okOr msg .messageNotFound
  failIf (MAX_RETRIES ≤ msg.attempts) .retryLimitExceeded
  store (setMessage id { msg with state := .failed })

/-- The state of the message is not looked at, and stays as it is until it is dequeued. -/
def retryFailed (id : ℕ) : BusInvocation Unit := do
  let msg ← view fun s => s.messages id
  let msg ← okOr msg .messageNotFound
  failIf (MAX_RETRIES ≤ msg.attempts) .retryLimitExceeded
  store fun s => { s with queue := s.queue ++ [id] }

/-! ## Runs -/

inductive BusEvent where
  | published (id : ℕ)
  | handedOut (id : ℕ)
  | confirmed (id : ℕ)
  deriving DecidableEq, Repr

/-- The bus with what has happened on it, first to last. -/
structure BusRun where
  storage : BusStorage
  log : List BusEvent

def BusRun.empty : BusRun := ⟨.empty, []⟩

inductive BusOp where
  | publish (source target : Address) (kind payloadHash : String) (version : ℕ)
  | dequeueNext
  | confirmDelivery (id : ℕ)
  | markFailed (id : ℕ)
  | retryFailed (id : ℕ)
  deriving DecidableEq

structure BusCall where
  env : BusEnv
  op : BusOp

/-- The run after a call that succeeded. -/
def BusRun.record {α : Type} (b : BusRun) (events : α → List BusEvent) :
    Outcome MessageBusError BusStorage α → Option BusRun
  | .ok a storage => some ⟨storage, b.log ++ events a⟩
  | .err _ _ => none
  | .trap => none

def BusCall.step (call : BusCall) (b : BusRun) : Option BusRun :=
  match call.op with
  | .publish source target kind payloadHash version =>
    b.record (fun id => [.published id])
      (publish source target kind payloadHash version call.env b.storage)
  | .dequeueNext =>
    b.record (fun msg => (msg.map fun msg => .handedOut msg.id).toList)
      (dequeueNext call.env b.storage)
  | .confirmDelivery id =>
    b.record (fun _ => [.confirmed id]) (confirmDelivery id call.env b.storage)
  | .markFailed id => b.record (fun _ => []) (markFailed id call.env b.storage)
  | .retryFailed id => b.record (fun _ => []) (retryFailed id call.env b.storage)

/-- The bus after a sequence of calls. -/
def busAfter (calls : List BusCall) : BusRun := run BusCall.step .empty calls

variable {log past rest : List BusEvent} {event last : BusEvent} {mark next id : ℕ}

/-! ## The last event -/

/-- An event of a longer log is its last one, or one of the shorter log. -/
theorem split_snoc (h : log ++ [last] = past ++ event :: rest) :
    (past = log ∧ event = last ∧ rest = []) ∨
      ∃ rest', rest = rest' ++ [last] ∧ log = past ++ event :: rest' := by
  rcases List.eq_nil_or_concat rest with rfl | ⟨rest', other, rfl⟩
  · obtain ⟨rfl, hevent⟩ := List.append_inj' h rfl
    exact .inl ⟨rfl, (List.cons.inj hevent).1.symm, rfl⟩
  · rw [List.concat_eq_append, ← List.cons_append, ← List.append_assoc] at h
    obtain ⟨hlog, hlast⟩ := List.append_inj' h rfl
    obtain rfl := (List.cons.inj hlast).1
    exact .inr ⟨rest', List.concat_eq_append, hlog⟩

theorem pairwise_snoc {R : BusEvent → BusEvent → Prop} (h : log.Pairwise R)
    (hlast : ∀ event ∈ log, R event last) : (log ++ [last]).Pairwise R :=
  List.pairwise_append.mpr ⟨h, List.pairwise_singleton .., fun event hevent _ hmem =>
    List.mem_singleton.mp hmem ▸ hlast event hevent⟩

theorem mem_snoc : event ∈ log ++ [last] ↔ event ∈ log ∨ event = last := by
  rw [List.mem_append, List.mem_singleton]

/-! ## The order of the events -/

/-- Messages are published in the order of their numbers. -/
def Ascending (a b : BusEvent) : Prop :=
  ∀ i j, a = .published i → b = .published j → i < j

/-- Nothing follows a confirmation. -/
def Closed (a b : BusEvent) : Prop :=
  ∀ i, a = .confirmed i → b ≠ .confirmed i ∧ b ≠ .handedOut i

/-- Messages are numbered from one to below the next number, those up to the mark have been handed
out, in that order at first, and a confirmation is final. -/
structure LogKept (mark next : ℕ) (log : List BusEvent) : Prop where
  published : ∀ i, .published i ∈ log ↔ 1 ≤ i ∧ i < next
  handedOut : ∀ i, .handedOut i ∈ log ↔ 1 ≤ i ∧ i ≤ mark
  ascending : log.Pairwise Ascending
  closed : log.Pairwise Closed
  inTurn : ∀ past rest later, log = past ++ .handedOut later :: rest →
    ∀ earlier, 1 ≤ earlier → earlier < later → .handedOut earlier ∈ past

namespace LogKept

theorem empty : LogKept 0 1 [] where
  published i := by simp; omega
  handedOut i := by simp; omega
  ascending := .nil
  closed := .nil
  inTurn past rest later h := by simp at h

theorem publish (h : LogKept mark next log) (hnext : 1 ≤ next) :
    LogKept mark (next + 1) (log ++ [.published next]) where
  published i := by
    rw [mem_snoc, h.published, BusEvent.published.injEq]
    omega
  handedOut i := by
    rw [mem_snoc, h.handedOut]
    simp
  ascending := by
    refine pairwise_snoc h.ascending fun event hevent i j hi hj => ?_
    obtain rfl := hi
    have hlt := ((h.published i).mp hevent).2
    rwa [BusEvent.published.inj hj] at hlt
  closed := pairwise_snoc h.closed fun _ _ _ _ => ⟨nofun, nofun⟩
  inTurn past rest later hsplit earlier h1 hlt := by
    rcases split_snoc hsplit with ⟨_, hevent, _⟩ | ⟨rest', _, hlog⟩
    · cases hevent
    · exact h.inTurn past rest' later hlog earlier h1 hlt

theorem confirm (h : LogKept mark next log) (hnew : .confirmed id ∉ log) :
    LogKept mark next (log ++ [.confirmed id]) where
  published i := by
    rw [mem_snoc, h.published]
    simp
  handedOut i := by
    rw [mem_snoc, h.handedOut]
    simp
  ascending := pairwise_snoc h.ascending fun _ _ _ _ _ hj => by cases hj
  closed := by
    refine pairwise_snoc h.closed fun event hevent i hi => ⟨fun heq => ?_, nofun⟩
    obtain rfl := BusEvent.confirmed.inj heq
    exact hnew (hi ▸ hevent)
  inTurn past rest later hsplit earlier h1 hlt := by
    rcases split_snoc hsplit with ⟨_, hevent, _⟩ | ⟨rest', _, hlog⟩
    · cases hevent
    · exact h.inTurn past rest' later hlog earlier h1 hlt

/-- **A message is handed out once more, or it is the one after the mark.** -/
theorem handOut {mark' : ℕ} (h : LogKept mark next log) (hopen : .confirmed id ∉ log)
    (h1 : 1 ≤ id) (hmark : (id ≤ mark ∧ mark' = mark) ∨ (id = mark + 1 ∧ mark' = mark + 1)) :
    LogKept mark' next (log ++ [.handedOut id]) where
  published i := by
    rw [mem_snoc, h.published]
    simp
  handedOut i := by
    rw [mem_snoc, h.handedOut, BusEvent.handedOut.injEq]
    omega
  ascending := pairwise_snoc h.ascending fun _ _ _ _ _ hj => by cases hj
  closed := by
    refine pairwise_snoc h.closed fun event hevent i hi => ⟨nofun, fun heq => ?_⟩
    obtain rfl := BusEvent.handedOut.inj heq
    exact hopen (hi ▸ hevent)
  inTurn past rest later hsplit earlier hearlier hlt := by
    rcases split_snoc hsplit with ⟨rfl, hevent, _⟩ | ⟨rest', _, hlog⟩
    · obtain rfl := BusEvent.handedOut.inj hevent
      exact (h.handedOut earlier).mpr ⟨hearlier, by omega⟩
    · exact h.inTurn past rest' later hlog earlier hearlier hlt

/-- The earlier of two messages published has the smaller number. -/
theorem lt_of_sublist {earlier later : ℕ} (h : LogKept mark next log)
    (hsub : [.published earlier, .published later].Sublist log) : earlier < later := by
  have hpair := h.ascending.sublist hsub
  exact List.rel_of_pairwise_cons hpair List.mem_cons_self earlier later rfl rfl

theorem closed_of_split (h : LogKept mark next log) (hlog : log = past ++ .confirmed id :: rest) :
    .confirmed id ∉ rest ∧ .handedOut id ∉ rest := by
  have hclosed := h.closed
  rw [hlog] at hclosed
  have hrest := (List.pairwise_append.mp hclosed).2.1
  exact ⟨fun hmem => (List.rel_of_pairwise_cons hrest hmem id rfl).1 rfl,
    fun hmem => (List.rel_of_pairwise_cons hrest hmem id rfl).2 rfl⟩

end LogKept

end StellarLend.Common
