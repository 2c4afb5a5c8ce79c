import StellarLend.Foundations.Journal
import StellarLend.Foundations.Keyed
import StellarLend.Foundations.Run

/-!
# Api/RequestCoalescing — calls for one key share an executor

`api/src/services/requestCoalescing.service.ts`, in front of the calls to the network.

    execute ─┬─▸ joined g ──────────── deliver ─▸ done      the group under the key has room
             └─▸ leads ─┬──────────────────────▸ done       its own executor has settled
                        └─ timeout ────────────▸ done

    group:  waiting ── grace ──▸ executing ── settle ──▸ settled

A group is known by the call that made it, which brings its executor.  It is under its key until its
executor settles or its timer fires; but a group that is full makes room for another one, and what
ends takes whatever is under its key away, with the timer of that (`Service.timer_lost`).

What runs between two awaits is one event.  The journal tells what becomes of each call.
-/

namespace StellarLend.Api.Coalescing

open Foundations Function

abbrev CallId : Type := ℕ

structure CoalescingOptions where
  maxWaitMs : ℕ
  gracePeriodMs : ℕ
  maxConcurrent : ℕ
  enabled : Bool

def CoalescingOptions.default : CoalescingOptions := ⟨5000, 50, 10, true⟩

variable {ν : Type}

/-- How an executor ends. -/
inductive Outcome (ν : Type) where
  | resolved (value : ν)
  | rejected (error : String)

inductive Stage (ν : Type) where
  | waiting
  | executing
  | settled (outcome : Outcome ν)

/-- `timer` is whether the timeout has neither fired nor been cleared. -/
structure PendingRequest (ν : Type) where
  key : String
  startTime : ℕ
  requestCount : ℕ
  timer : Bool
  stage : Stage ν

inductive Caller where
  | leads
  | joined (group : CallId)
  | direct
  | done
  deriving DecidableEq

inductive Answer (ν : Type) where
  | executed (outcome : Outcome ν)
  /-- `Request coalescing timeout for key: …` -/
  | timedOut

structure CoalescingMetrics where
  totalRequests : ℕ
  coalescedRequests : ℕ
  activeCoalescingGroups : ℤ
  timeouts : ℕ
  errors : ℕ
  deriving DecidableEq, Repr

/-- `group` is the group that the call is in, and `ousted` the one whose place it has taken. -/
inductive Happening (ν : Type) where
  | called (call : CallId) (key : String) (group : CallId) (ousted : Option CallId) (time : ℕ)
  | settled (group : CallId) (outcome : Outcome ν)
  | expired (group : CallId)
  | answered (call : CallId) (answer : Answer ν) (time : ℕ)

structure Service (ν : Type) where
  now : ℕ
  groups : CallId → Option (PendingRequest ν)
  callers : CallId → Option Caller
  pendingRequests : List (String × CallId)
  metrics : CoalescingMetrics
  journal : List (Happening ν)

inductive Event (ν : Type) where
  | wait (ms : ℕ)
  | execute (call : CallId) (key : String)
  /-- The grace period of a group is over. -/
  | start (group : CallId)
  | settle (group : CallId) (outcome : Outcome ν)
  /-- A call that has joined a group goes on. -/
  | deliver (call : CallId)
  /-- The executor of a call that is in no group settles. -/
  | finish (call : CallId) (outcome : Outcome ν)
  | timeout (group : CallId)

namespace Service

variable (options : CoalescingOptions) (s : Service ν)

def new : Service ν := ⟨0, fun _ => none, fun _ => none, [], ⟨0, 0, 0, 0, 0⟩, []⟩

/-- The group under a key. -/
def pending (key : String) : Option CallId := (findKey Prod.fst s.pendingRequests key).map Prod.snd

def note (happening : Happening ν) : Service ν := { s with journal := s.journal ++ [happening] }

def enter (call : CallId) (caller : Caller) : Service ν :=
  { s with callers := update s.callers call (some caller) }

def setGroup (g : CallId) (p : PendingRequest ν) : Service ν :=
  { s with groups := update s.groups g (some p) }

/-- Settles the promise of a call that leads a group, unless it is settled already. -/
def answer (call : CallId) (a : Answer ν) : Service ν :=
  if s.callers call = some .leads then (s.enter call .done).note (.answered call a s.now) else s

def delete (key : String) : Service ν :=
  { s with pendingRequests := s.pendingRequests.filter fun entry => entry.1 ≠ key }

/-- Takes the group under a key away, and clears its timer. -/
def cleanup (key : String) : Service ν :=
  match s.pending key with
  | none => s
  | some g =>
    { s.delete key with
      groups := update s.groups g ((s.groups g).map fun p => { p with timer := false })
      metrics.activeCoalescingGroups := s.metrics.activeCoalescingGroups - 1 }

/-- The group under a key, if one more call can join it. -/
def joinable (key : String) : Option (CallId × PendingRequest ν) := do
  let g ← s.pending key
  let p ← s.groups g
  if p.requestCount < options.maxConcurrent then some (g, p) else none

def join (call : CallId) (key : String) (g : CallId) (p : PendingRequest ν) : Service ν :=
  { ((s.setGroup g { p with requestCount := p.requestCount + 1 }).enter call (.joined g)).note
      (.called call key g none s.now) with
    metrics.coalescedRequests := s.metrics.coalescedRequests + 1 }

def create (call : CallId) (key : String) : Service ν :=
  { ((s.setGroup call ⟨key, s.now, 1, true, .waiting⟩).enter call .leads).note
      (.called call key call (s.pending key) s.now) with
    pendingRequests := upsert Prod.fst (key, call) s.pendingRequests
    metrics.activeCoalescingGroups := s.metrics.activeCoalescingGroups + 1 }

def execute (call : CallId) (key : String) : Service ν :=
  let s := { s with metrics.totalRequests := s.metrics.totalRequests + 1 }
  if options.enabled = false then
    (s.enter call .direct).note (.called call key call none s.now)
  else
    match s.joinable options key with
    | some (g, p) => s.join call key g p
    | none => s.create call key

/-- The executor of a group settles. -/
def settle (g : CallId) (p : PendingRequest ν) (outcome : Outcome ν) : Service ν :=
  let s := ((s.setGroup g { p with stage := .settled outcome }).note (.settled g outcome)).answer g
    (.executed outcome)
  match outcome with
  | .resolved _ => s.cleanup p.key
  | .rejected _ => { s with metrics.errors := s.metrics.errors + 1 }.cleanup p.key

def handleTimeout (g : CallId) (p : PendingRequest ν) : Service ν :=
  let s := (s.setGroup g { p with timer := false }).note (.expired g)
  ({ s with metrics.timeouts := s.metrics.timeouts + 1 }.answer g .timedOut).cleanup p.key

def step (event : Event ν) (s : Service ν) : Option (Service ν) :=
  match event with
  | .wait ms => some { s with now := s.now + ms }
  | .execute call key =>
    match s.callers call with
    | none => some (s.execute options call key)
    | some _ => none
  | .start g =>
    match s.groups g with
    | some p =>
      match p.stage with
      | .waiting =>
        if p.startTime + options.gracePeriodMs ≤ s.now then
          some (s.setGroup g { p with stage := .executing })
        else none
      | _ => none
    | none => none
  | .settle g outcome =>
    match s.groups g with
    | some p =>
      match p.stage with
      | .executing => some (s.settle g p outcome)
      | _ => none
    | none => none
  | .deliver call =>
    match s.callers call with
    | some (.joined g) =>
      match s.groups g with
      | some p =>
        match p.stage with
        | .settled outcome =>
          some ((s.enter call .done).note (.answered call (.executed outcome) s.now))
        | _ => none
      | none => none
    | _ => none
  | .finish call outcome =>
    match s.callers call with
    | some .direct =>
      some (((s.enter call .done).note (.settled call outcome)).note
        (.answered call (.executed outcome) s.now))
    | _ => none
  | .timeout g =>
    match s.groups g with
    | some p =>
      if p.timer = true ∧ p.startTime + options.maxWaitMs ≤ s.now then some (s.handleTimeout g p)
      else none
    | none => none

/-- The service after some events. -/
def after (events : List (Event ν)) : Service ν := run (step options) new events

end Service

/-! ## What the journal says -/

/-- What of a call there is in the journal. -/
def Happening.Mentions (c : CallId) : Happening ν → Prop
  | called call _ group _ _ => c = call ∨ c = group
  | settled group _ => c = group
  | expired group => c = group
  | answered call _ _ => c = call

/-- The calls of a group. -/
def callsOf (g : CallId) (log : List (Happening ν)) : ℕ :=
  log.countP fun
    | .called _ _ group _ _ => group = g
    | _ => false

/-- A group that its executor and its timer have left open, and that is not full. -/
structure Open (options : CoalescingOptions) (log : List (Happening ν)) (key : String)
    (g : CallId) : Prop where
  made : ∃ ousted time, Happening.called g key g ousted time ∈ log
  unsettled : ∀ o, Happening.settled g o ∉ log
  unanswered : ∀ a time, Happening.answered g a time ∉ log
  room : callsOf g log < options.maxConcurrent

/-- What stands behind the answer to a call of a group: its executor has settled so, or the call has
made the group and waited long enough. -/
def Answer.Justified (options : CoalescingOptions) (past : List (Happening ν)) (c g : CallId)
    (time now : ℕ) : Answer ν → Prop
  | executed o => .settled g o ∈ past
  | timedOut => g = c ∧ time + options.maxWaitMs ≤ now

/-- What stands behind an entry of the journal. -/
def Backed (options : CoalescingOptions) (past : List (Happening ν)) : Happening ν → Prop
  | .called c key g ousted _ =>
    (∀ x ∈ past, ¬ x.Mentions c) ∧ (g ≠ c → Open options past key g) ∧
      ∀ g' ∈ ousted, options.maxConcurrent ≤ callsOf g' past
  | .settled g _ =>
    (∃ key ousted time, .called g key g ousted time ∈ past) ∧ ∀ o, Happening.settled g o ∉ past
  | .expired g => ∃ key ousted time, .called g key g ousted time ∈ past
  | .answered c a now =>
    (∀ a' time, Happening.answered c a' time ∉ past) ∧
      ∃ key g ousted time, .called c key g ousted time ∈ past ∧
        a.Justified options past c g time now

variable {options : CoalescingOptions} {busy : Option String} {s s' : Service ν}
  {c g : CallId} {p : PendingRequest ν} {key : String} {o : Outcome ν}
  {log : List (Happening ν)} {x : Happening ν}

@[simp] theorem callsOf_called {call group : CallId} {ousted : Option CallId} {time : ℕ} :
    callsOf g (log ++ [.called call key group ousted time]) =
      callsOf g log + if group = g then 1 else 0 := by
  rw [callsOf, List.countP_append]
  by_cases h : group = g <;> simp [callsOf, h]

theorem callsOf_snoc (hx : ∀ call key group ousted time, x ≠ .called call key group ousted time) :
    callsOf g (log ++ [x]) = callsOf g log := by
  rw [callsOf, List.countP_append]
  cases x with
  | called call key group ousted time => exact absurd rfl (hx call key group ousted time)
  | _ => rfl

theorem callsOf_eq_zero (h : ∀ x ∈ log, ¬ x.Mentions g) : callsOf g log = 0 := by
  refine List.countP_eq_zero.mpr fun x hx => ?_
  cases x with
  | called call key group ousted time => simpa using fun heq => h _ hx (.inr heq.symm)
  | _ => exact Bool.false_ne_true

/-! ## What an event does -/

/-- What becomes of the service by an event. -/
inductive Turn (options : CoalescingOptions) (s : Service ν) : Service ν → Prop
  | wait (ms : ℕ) : Turn options s { s with now := s.now + ms }
  | direct {c : CallId} (key : String) (hc : s.callers c = none) (hoff : options.enabled = false) :
    Turn options s (({ s with metrics.totalRequests := s.metrics.totalRequests + 1 }.enter c
      .direct).note (.called c key c none s.now))
  | join {c g : CallId} {key : String} {p : PendingRequest ν} (hc : s.callers c = none)
    (hon : options.enabled = true) (hjoin : s.joinable options key = some (g, p)) :
    Turn options s ({ s with metrics.totalRequests := s.metrics.totalRequests + 1 }.join c key g p)
  | create {c : CallId} {key : String} (hc : s.callers c = none) (hon : options.enabled = true)
    (hjoin : s.joinable options key = none) :
    Turn options s ({ s with metrics.totalRequests := s.metrics.totalRequests + 1 }.create c key)
  | start {g : CallId} {p : PendingRequest ν} (hg : s.groups g = some p)
    (hstage : p.stage = .waiting) (hgrace : p.startTime + options.gracePeriodMs ≤ s.now) :
    Turn options s (s.setGroup g { p with stage := .executing })
  | settle {g : CallId} {p : PendingRequest ν} (o : Outcome ν) (hg : s.groups g = some p)
    (hstage : p.stage = .executing) : Turn options s (s.settle g p o)
  | deliver {c g : CallId} {p : PendingRequest ν} {o : Outcome ν}
    (hc : s.callers c = some (.joined g)) (hg : s.groups g = some p)
    (hstage : p.stage = .settled o) :
    Turn options s ((s.enter c .done).note (.answered c (.executed o) s.now))
  | finish {c : CallId} (o : Outcome ν) (hc : s.callers c = some .direct) :
    Turn options s (((s.enter c .done).note (.settled c o)).note
      (.answered c (.executed o) s.now))
  | timeout {g : CallId} {p : PendingRequest ν} (hg : s.groups g = some p)
    (htimer : p.timer = true) (hlate : p.startTime + options.maxWaitMs ≤ s.now) :
    Turn options s (s.handleTimeout g p)

theorem turn_of_execute (key : String) (hc : s.callers c = none) :
    Turn options s (s.execute options c key) := by
  rw [Service.execute]
  split
  next hoff => exact .direct key hc hoff
  next hon =>
    split
    next hjoin => exact .join hc (by simpa using hon) hjoin
    next hjoin => exact .create hc (by simpa using hon) hjoin

theorem turn_of_step {event : Event ν} (h : s.step options event = some s') :
    Turn options s s' := by
  cases event with
  | wait ms =>
    cases h
    exact .wait ms
  | execute c key =>
    rw [Service.step] at h
    split at h
    next hc =>
      cases h
      exact turn_of_execute key hc
    next => cases h
  | start g =>
    rw [Service.step] at h
    split at h
    next p hg =>
      split at h
      next hstage =>
        split at h
        next hgrace =>
          cases h
          exact .start hg hstage hgrace
        next => cases h
      next => cases h
    next => cases h
  | settle g o =>
    rw [Service.step] at h
    split at h
    next p hg =>
      split at h
      next hstage =>
        cases h
        exact .settle o hg hstage
      next => cases h
    next => cases h
  | deliver c =>
    rw [Service.step] at h
    split at h
    next g hc =>
      split at h
      next p hg =>
        split at h
        next o hstage =>
          cases h
          exact .deliver hc hg hstage
        next => cases h
      next => cases h
    next => cases h
  | finish c o =>
    rw [Service.step] at h
    split at h
    next hc =>
      cases h
      exact .finish o hc
    next => cases h
  | timeout g =>
    rw [Service.step] at h
    split at h
    next p hg =>
      split at h
      next hdue =>
        cases h
        exact .timeout hg hdue.1 hdue.2
      next => cases h
    next => cases h

/-! ## What every state keeps -/

/-- A group is as the journal has it. -/
structure GroupOk (s : Service ν) (g : CallId) (p : PendingRequest ν) : Prop where
  made : ∃ ousted, .called g p.key g ousted p.startTime ∈ s.journal
  count : p.requestCount = callsOf g s.journal
  settled : ∀ o, .settled g o ∈ s.journal ↔ p.stage = .settled o
  caller : s.callers g = some .leads ∨ s.callers g = some .done

/-- A group that is under its key. -/
structure Live (s : Service ν) (key : String) (g : CallId) (p : PendingRequest ν) : Prop where
  group : s.groups g = some p
  key : p.key = key
  timer : p.timer = true
  unsettled : ∀ o, p.stage ≠ .settled o
  leads : s.callers g = some .leads

theorem GroupOk.called_before (h : GroupOk s g p) : s.callers g ≠ none := by
  rcases h.caller with hcaller | hcaller <;> simp [hcaller]

/-- The state is as the journal has it, but for the group under a key that is just ending. -/
structure Linked (options : CoalescingOptions) (busy : Option String) (s : Service ν) : Prop where
  held : ∀ key g, s.pending key = some g → ∃ p, s.groups g = some p ∧ p.key = key
  pending : ∀ key g, some key ≠ busy → s.pending key = some g → ∃ p, Live s key g p
  group : ∀ g p, s.groups g = some p → GroupOk s g p
  direct : ∀ c, s.callers c = some .direct →
    (∃ key time, .called c key c none time ∈ s.journal) ∧ ∀ o, Happening.settled c o ∉ s.journal
  joined : ∀ c g, s.callers c = some (.joined g) →
    ∃ p time, s.groups g = some p ∧ .called c p.key g none time ∈ s.journal
  fresh : ∀ c, s.callers c = none → ∀ x ∈ s.journal, ¬ x.Mentions c
  unanswered : ∀ c, s.callers c ≠ some .done → ∀ a time, Happening.answered c a time ∉ s.journal
  backed : Throughout (Backed options) s.journal

theorem Linked.init : Linked options busy (Service.new : Service ν) where
  held := by rintro key g ⟨⟩
  pending := by rintro key g - ⟨⟩
  group := by rintro g p ⟨⟩
  direct := by rintro c ⟨⟩
  joined := by rintro c g ⟨⟩
  fresh := by rintro c - x ⟨⟩
  unanswered := by rintro c - a time ⟨⟩
  backed := throughout_nil

theorem Linked.withMetrics (h : Linked options busy s) (metrics : CoalescingMetrics) :
    Linked options busy { s with metrics := metrics } :=
  ⟨h.held, fun key g hkey hg => (h.pending key g hkey hg).imp fun _ hp =>
      ⟨hp.1, hp.2, hp.3, hp.4, hp.5⟩,
    fun g p hg => ⟨(h.group g p hg).1, (h.group g p hg).2, (h.group g p hg).3, (h.group g p hg).4⟩,
    h.direct, h.joined, h.fresh, h.unanswered, h.backed⟩

theorem Linked.withNow (h : Linked options busy s) (now : ℕ) :
    Linked options busy { s with now := now } :=
  ⟨h.held, fun key g hkey hg => (h.pending key g hkey hg).imp fun _ hp =>
      ⟨hp.1, hp.2, hp.3, hp.4, hp.5⟩,
    fun g p hg => ⟨(h.group g p hg).1, (h.group g p hg).2, (h.group g p hg).3, (h.group g p hg).4⟩,
    h.direct, h.joined, h.fresh, h.unanswered, h.backed⟩

/-! ### Groups -/

theorem setGroup_groups {p' q : PendingRequest ν} {g' : CallId}
    (h : (s.setGroup g p').groups g' = some q) :
    g' = g ∧ q = p' ∨ g' ≠ g ∧ s.groups g' = some q := by
  by_cases heq : g' = g
  · rw [Service.setGroup, heq] at h
    exact .inl ⟨heq, Option.some.inj (h.symm.trans (update_self ..))⟩
  · exact .inr ⟨heq, (update_of_ne heq ..).symm.trans h⟩

/-- What is found of a group stays where its key does. -/
theorem groups_setGroup (p' : PendingRequest ν) {q : PendingRequest ν} {g' : CallId}
    (hg : s.groups g = some p) (hkey : p'.key = p.key) (hq : s.groups g' = some q) :
    ∃ q', (s.setGroup g p').groups g' = some q' ∧ q'.key = q.key := by
  by_cases heq : g' = g
  · subst heq
    obtain rfl := Option.some.inj (hq.symm.trans hg)
    exact ⟨p', update_self .., hkey⟩
  · exact ⟨q, (update_of_ne heq ..).trans hq, rfl⟩

/-- A group goes on, and it is not under its key, or its timer is as it was. -/
theorem Linked.setGroup (p' : PendingRequest ν) (h : Linked options busy s)
    (hg : s.groups g = some p) (hkey : p'.key = p.key) (hstart : p'.startTime = p.startTime)
    (hcount : p'.requestCount = p.requestCount)
    (hstage : ∀ o, p'.stage = .settled o ↔ p.stage = .settled o)
    (htimer : (∀ key, some key ≠ busy → s.pending key ≠ some g) ∨ p'.timer = p.timer) :
    Linked options busy (s.setGroup g p') where
  held key g' hg' := by
    obtain ⟨q, hq, rfl⟩ := h.held key g' hg'
    exact groups_setGroup p' hg hkey hq
  pending key g' hbusy hg' := by
    obtain ⟨q, hq⟩ := h.pending key g' hbusy hg'
    by_cases heq : g' = g
    · subst heq
      obtain rfl := Option.some.inj (hq.group.symm.trans hg)
      refine ⟨p', update_self .., hkey.trans hq.key, ?_, fun o ho => hq.unsettled o
        ((hstage o).mp ho), hq.leads⟩
      exact (htimer.resolve_left fun hnot => hnot key hbusy hg').trans hq.timer
    · exact ⟨q, (update_of_ne heq ..).trans hq.group, hq.key, hq.timer, hq.unsettled, hq.leads⟩
  group g' q hq := by
    rcases setGroup_groups hq with ⟨rfl, rfl⟩ | ⟨-, hq⟩
    · have hp := h.group g' p hg
      exact ⟨by rw [hkey, hstart]; exact hp.made, hcount.trans hp.count,
        fun o => (hp.settled o).trans (hstage o).symm, hp.caller⟩
    · have hp := h.group g' q hq
      exact ⟨hp.made, hp.count, hp.settled, hp.caller⟩
  direct := h.direct
  joined c g' hc := by
    obtain ⟨q, time, hq, hcalled⟩ := h.joined c g' hc
    obtain ⟨q', hq', hqkey⟩ := groups_setGroup p' hg hkey hq
    exact ⟨q', time, hq', hqkey ▸ hcalled⟩
  fresh := h.fresh
  unanswered := h.unanswered
  backed := h.backed

theorem pending_delete {key' : String} (h : (s.delete key).pending key' = some g) :
    key' ≠ key ∧ s.pending key' = some g := by
  rw [Service.pending, Service.delete, findKey_filter (p := fun key' => key' ≠ key)] at h
  split at h
  next hne => exact ⟨by simpa using hne, h⟩
  next => cases h

theorem Linked.delete (h : Linked options (some key) s) : Linked options none (s.delete key) := by
  refine ⟨fun key' g hg => h.held key' g (pending_delete hg).2, fun key' g _ hg => ?_,
    fun g p hg => ?_, h.direct, h.joined, h.fresh, h.unanswered, h.backed⟩
  · obtain ⟨hne, hg⟩ := pending_delete hg
    obtain ⟨p, hp⟩ := h.pending key' g (fun heq => hne (Option.some.inj heq)) hg
    exact ⟨p, hp.1, hp.2, hp.3, hp.4, hp.5⟩
  · have hp := h.group g p hg
    exact ⟨hp.1, hp.2, hp.3, hp.4⟩

/-- **The group under a key is taken away**, and nothing is just ending any more. -/
theorem Linked.cleanup (h : Linked options (some key) s) : Linked options none (s.cleanup key) := by
  rw [Service.cleanup]
  split
  next hnone =>
    refine ⟨h.held, fun key' g _ hg => h.pending key' g (fun heq => ?_) hg, h.group, h.direct,
      h.joined, h.fresh, h.unanswered, h.backed⟩
    rw [Option.some.inj heq, hnone] at hg
    cases hg
  next g hpending =>
    obtain ⟨p, hg, rfl⟩ := h.held key g hpending
    rw [hg, Option.map_some]
    refine (h.delete.setGroup { p with timer := false } hg rfl rfl rfl (fun _ => .rfl)
      (.inl fun key' _ hg' => ?_)).withMetrics _
    obtain ⟨hne, hg'⟩ := pending_delete hg'
    obtain ⟨q, hq, hkey⟩ := h.held key' g hg'
    obtain rfl := Option.some.inj (hq.symm.trans hg)
    exact hne hkey.symm

/-! ### The journal -/

/-- A group is as the journal has it if the entry more is about others. -/
theorem GroupOk.note (h : GroupOk s g p)
    (hcalled : ∀ call key ousted time, x ≠ .called call key g ousted time)
    (hsettled : ∀ o, x ≠ .settled g o) : GroupOk (s.note x) g p where
  made := h.made.imp fun _ hmade => List.mem_append_left _ hmade
  count := by
    rw [h.count, Service.note]
    cases x with
    | called call key group ousted time =>
      rw [callsOf_called, if_neg, Nat.add_zero]
      rintro rfl
      exact hcalled _ _ _ _ rfl
    | _ => rw [callsOf_snoc (by simp)]
  settled o := by
    rw [← h.settled o]
    exact ⟨fun hmem => (List.mem_append.mp hmem).resolve_right fun hx =>
      hsettled o (List.mem_singleton.mp hx).symm, List.mem_append_left _⟩
  caller := h.caller

/-- An entry more. -/
theorem Linked.note (h : Linked options busy s) (hx : Backed options s.journal x)
    (hgroup : ∀ g p, s.groups g = some p → GroupOk (s.note x) g p)
    (hdirect : ∀ c o, s.callers c = some .direct → x ≠ .settled c o)
    (hfresh : ∀ c, s.callers c = none → ¬ x.Mentions c)
    (hanswered : ∀ c a time, x = .answered c a time → s.callers c = some .done) :
    Linked options busy (s.note x) where
  held := h.held
  pending key g hbusy hg :=
    (h.pending key g hbusy hg).imp fun _ hp => ⟨hp.1, hp.2, hp.3, hp.4, hp.5⟩
  group := hgroup
  direct c hc := by
    obtain ⟨⟨key, time, hcalled⟩, hsettled⟩ := h.direct c hc
    refine ⟨⟨key, time, List.mem_append_left _ hcalled⟩, fun o hmem => ?_⟩
    rcases List.mem_append.mp hmem with hmem | hmem
    · exact hsettled o hmem
    · exact hdirect c o hc (List.mem_singleton.mp hmem).symm
  joined c g hc := by
    obtain ⟨p, time, hg, hcalled⟩ := h.joined c g hc
    exact ⟨p, time, hg, List.mem_append_left _ hcalled⟩
  fresh c hc y hy := by
    rcases List.mem_append.mp hy with hy | hy
    · exact h.fresh c hc y hy
    · rw [List.mem_singleton.mp hy]
      exact hfresh c hc
  unanswered c hc a time hmem := by
    rcases List.mem_append.mp hmem with hmem | hmem
    · exact h.unanswered c hc a time hmem
    · exact hc (hanswered c a time (List.mem_singleton.mp hmem).symm)
  backed := h.backed.snoc hx

/-! ### Calls -/

@[simp] theorem enter_callers_self {caller : Caller} :
    (s.enter c caller).callers c = some caller := update_self ..

theorem enter_callers_of_ne {caller : Caller} {c' : CallId} (h : c' ≠ c) :
    (s.enter c caller).callers c' = s.callers c' := update_of_ne h ..

theorem callers_of_done {caller : Caller} {c' : CallId}
    (h : (s.enter c .done).callers c' = some caller) (hcaller : caller ≠ .done) :
    s.callers c' = some caller := by
  by_cases heq : c' = c
  · rw [heq, enter_callers_self] at h
    exact absurd (Option.some.inj h).symm hcaller
  · rwa [enter_callers_of_ne heq] at h

/-- A call is done, and leads no group that is under its key. -/
theorem Linked.done (h : Linked options busy s)
    (hpending : ∀ key, some key ≠ busy → s.pending key ≠ some c) :
    Linked options busy (s.enter c .done) := by
  refine ⟨h.held, fun key g hbusy hg => ?_, fun g p hg => ?_,
    fun c' hc' => h.direct c' (callers_of_done hc' (by simp)),
    fun c' g hc' => h.joined c' g (callers_of_done hc' (by simp)), fun c' hc' => ?_,
    fun c' hc' => ?_, h.backed⟩
  · obtain ⟨p, hp⟩ := h.pending key g hbusy hg
    have hne : g ≠ c := fun heq => hpending key hbusy (heq ▸ hg)
    exact ⟨p, hp.group, hp.key, hp.timer, hp.unsettled, (enter_callers_of_ne hne).trans hp.leads⟩
  · have hp := h.group g p hg
    refine ⟨hp.made, hp.count, hp.settled, ?_⟩
    by_cases heq : g = c
    · exact .inr (heq ▸ enter_callers_self)
    · rw [enter_callers_of_ne heq]
      exact hp.caller
  · by_cases heq : c' = c
    · rw [heq, enter_callers_self] at hc'
      cases hc'
    · exact h.fresh c' ((enter_callers_of_ne heq).symm.trans hc')
  · by_cases heq : c' = c
    · exact absurd (heq ▸ enter_callers_self) hc'
    · exact h.unanswered c' fun hdone => hc' ((enter_callers_of_ne heq).trans hdone)

/-- A call that is not done yet is done, and answered. -/
theorem Linked.answered {a : Answer ν} {ousted : Option CallId} {time : ℕ}
    (h : Linked options busy s) (hdone : s.callers c ≠ some .done)
    (hpending : ∀ key, some key ≠ busy → s.pending key ≠ some c)
    (hcalled : .called c key g ousted time ∈ s.journal)
    (ha : a.Justified options s.journal c g time s.now) :
    Linked options busy ((s.enter c .done).note (.answered c a s.now)) := by
  have h' := h.done hpending
  refine h'.note ⟨h.unanswered c hdone, key, g, ousted, time, hcalled, ha⟩
    (fun g' p hg' => (h'.group g' p hg').note (by simp) (by simp)) (by simp) ?_ ?_
  · intro c' hc' heq
    rw [show c' = c from heq, enter_callers_self] at hc'
    cases hc'
  · rintro c' a' time' ⟨⟩
    exact enter_callers_self

/-- The call that leads a group is answered, if it is not yet. -/
theorem Linked.answer {a : Answer ν} (h : Linked options (some p.key) s)
    (hg : s.groups g = some p) (ha : a.Justified options s.journal g g p.startTime s.now) :
    Linked options (some p.key) (s.answer g a) := by
  rw [Service.answer]
  split
  next hleads =>
    obtain ⟨ousted, hmade⟩ := (h.group g p hg).made
    refine h.answered (by simp [hleads]) (fun key hkey hpending => ?_) hmade ha
    obtain ⟨q, hq, rfl⟩ := h.held key g hpending
    obtain rfl := Option.some.inj (hq.symm.trans hg)
    exact hkey rfl
  next => exact h

/-! ## Every event -/

/-- Another group than the one that is just ending is under another key. -/
theorem Linked.ne_of_pending (h : Linked options none s) (hg : s.groups g = some p) {g' : CallId}
    (hkey : some key ≠ some p.key) (hg' : s.pending key = some g') : g' ≠ g := by
  rintro rfl
  obtain ⟨q, hq, rfl⟩ := h.held key g' hg'
  obtain rfl := Option.some.inj (hq.symm.trans hg)
  exact hkey rfl

/-- A group is settled, and is just ending. -/
theorem Linked.settled (h : Linked options none s) (hg : s.groups g = some p)
    (hstage : p.stage = .executing) :
    Linked options (some p.key)
      ((s.setGroup g { p with stage := .settled o }).note (.settled g o)) := by
  have hp := h.group g p hg
  have hunsettled : ∀ o, Happening.settled g o ∉ s.journal := fun o hmem => by
    have hsettled := (hp.settled o).mp hmem
    rw [hstage] at hsettled
    cases hsettled
  refine ⟨fun key g' hg' => ?_, fun key g' hkey hg' => ?_, fun g' q hq => ?_, fun c hc => ?_,
    fun c g' hc => ?_, fun c hc x hx => ?_, fun c hc a time hmem => ?_, ?_⟩
  · obtain ⟨q, hq, rfl⟩ := h.held key g' hg'
    exact groups_setGroup { p with stage := .settled o } hg rfl hq
  · obtain ⟨q, hq⟩ := h.pending key g' (by simp) hg'
    exact ⟨q, (update_of_ne (h.ne_of_pending hg hkey hg') ..).trans hq.group, hq.key, hq.timer,
      hq.unsettled, hq.leads⟩
  · rcases setGroup_groups hq with ⟨rfl, rfl⟩ | ⟨hne, hq⟩
    · refine ⟨hp.made.imp fun _ => List.mem_append_left _, ?_, fun o' => ?_, hp.caller⟩
      · exact hp.count.trans (callsOf_snoc (by simp)).symm
      · constructor
        · intro hmem
          cases List.mem_singleton.mp ((List.mem_append.mp hmem).resolve_left (hunsettled o'))
          rfl
        · rintro ⟨⟩
          exact List.mem_append_right _ (List.mem_singleton_self _)
    · have hq := (h.group g' q hq).note (x := .settled g o) (by simp) (by simpa using hne.symm)
      exact ⟨hq.made, hq.count, hq.settled, hq.caller⟩
  · obtain ⟨⟨key, time, hcalled⟩, hsettled⟩ := h.direct c hc
    refine ⟨⟨key, time, List.mem_append_left _ hcalled⟩, fun o' hmem => ?_⟩
    rcases List.mem_append.mp hmem with hmem | hmem
    · exact hsettled o' hmem
    · cases List.mem_singleton.mp hmem
      rcases hp.caller with hcaller | hcaller <;> exact absurd (hc.symm.trans hcaller) (by simp)
  · obtain ⟨q, time, hq, hcalled⟩ := h.joined c g' hc
    obtain ⟨q', hq', hqkey⟩ := groups_setGroup { p with stage := .settled o } hg rfl hq
    exact ⟨q', time, hq', List.mem_append_left _ (hqkey ▸ hcalled)⟩
  · rcases List.mem_append.mp hx with hx | hx
    · exact h.fresh c hc x hx
    · rw [List.mem_singleton.mp hx]
      rintro rfl
      exact hp.called_before hc
  · rcases List.mem_append.mp hmem with hmem | hmem
    · exact h.unanswered c hc a time hmem
    · cases List.mem_singleton.mp hmem
  · obtain ⟨ousted, hmade⟩ := hp.made
    exact h.backed.snoc ⟨⟨_, _, _, hmade⟩, hunsettled⟩

/-- The executor of a group settles. -/
theorem Linked.settle (h : Linked options none s) (hg : s.groups g = some p)
    (hstage : p.stage = .executing) : Linked options none (s.settle g p o) := by
  have hanswer := (h.settled (o := o) hg hstage).answer (p := { p with stage := .settled o })
    (a := .executed o) (update_self ..) (List.mem_append_right _ (List.mem_singleton_self _))
  cases o with
  | resolved value => exact hanswer.cleanup
  | rejected error => exact (hanswer.withMetrics _).cleanup

/-- The timer of a group fires. -/
theorem Linked.handleTimeout (h : Linked options none s) (hg : s.groups g = some p)
    (hwait : p.startTime + options.maxWaitMs ≤ s.now) :
    Linked options none (s.handleTimeout g p) := by
  have hbusy : Linked options (some p.key) s :=
    ⟨h.held, fun key g _ hg => h.pending key g (by simp) hg, h.group, h.direct, h.joined, h.fresh,
      h.unanswered, h.backed⟩
  have hset := hbusy.setGroup { p with timer := false } hg rfl rfl rfl (fun _ => .rfl)
    (.inl fun key hkey hpending => h.ne_of_pending hg hkey hpending rfl)
  obtain ⟨ousted, hmade⟩ := (h.group g p hg).made
  have hnote := hset.note (x := .expired g) ⟨_, _, _, hmade⟩
    (fun g' q hq => (hset.group g' q hq).note (by simp) (by simp)) (by simp) ?_ (by simp)
  · exact ((hnote.withMetrics _).answer (p := { p with timer := false })
      (a := .timedOut) (update_self ..) ⟨rfl, hwait⟩).cleanup
  · rintro c hc rfl
    exact (h.group c p hg).called_before hc

/-- What a call finds that can be joined is under its key, and has room. -/
theorem joinable_eq_some : s.joinable options key = some (g, p) ↔
    s.pending key = some g ∧ s.groups g = some p ∧ p.requestCount < options.maxConcurrent := by
  simp only [Service.joinable, Option.bind_eq_bind, Option.bind_eq_some_iff,
    Option.ite_none_right_eq_some, Option.some.injEq, Prod.mk.injEq]
  constructor
  · rintro ⟨g', hpending, p', hg, hroom, rfl, rfl⟩
    exact ⟨hpending, hg, hroom⟩
  · rintro ⟨hpending, hg, hroom⟩
    exact ⟨g, hpending, p, hg, hroom, rfl, rfl⟩

section

variable {t : Service ν} {caller : Caller} {ousted : Option CallId}

/-- A call of another group leaves a group as the journal has it. -/
theorem GroupOk.called {g' : CallId} (hp : GroupOk s g' p) (hc : s.callers c = none) (hne : g' ≠ g)
    (hcallers : t.callers = update s.callers c (some caller))
    (hjournal : t.journal = s.journal ++ [.called c key g ousted s.now]) : GroupOk t g' p := by
  have hcaller : g' ≠ c := fun heq => hp.called_before (heq ▸ hc)
  have hnote := hp.note (x := .called c key g ousted s.now)
    (by rintro _ _ _ _ ⟨⟩; exact hne rfl) (by simp)
  refine ⟨hjournal ▸ hnote.made, hjournal ▸ hnote.count, hjournal ▸ hnote.settled, ?_⟩
  rw [hcallers, update_of_ne hcaller]
  exact hp.caller

/-- **A call is made**, and is in a group, old or new, or in none. -/
theorem Linked.called (ousted : Option CallId) (h : Linked options none s)
    (hc : s.callers c = none) (hcallers : t.callers = update s.callers c (some caller))
    (hjournal : t.journal = s.journal ++ [.called c key g ousted s.now])
    (hlive : ∀ key' g', t.pending key' = some g' → ∃ p, Live t key' g' p)
    (hgroup : ∀ g' p, t.groups g' = some p → GroupOk t g' p)
    (hold : ∀ g' p, s.groups g' = some p → ∃ p', t.groups g' = some p' ∧ p'.key = p.key)
    (hcaller : caller = .direct ∧ g = c ∧ ousted = none ∨ caller = .leads ∨
      caller = .joined g ∧ ousted = none ∧ ∃ p, t.groups g = some p ∧ p.key = key)
    (hg : g = c ∨ s.callers g ≠ none)
    (hbacked : Backed options s.journal (.called c key g ousted s.now)) :
    Linked options none t where
  held key' g' hg' := (hlive key' g' hg').imp fun p hp => ⟨hp.group, hp.key⟩
  pending key' g' _ hg' := hlive key' g' hg'
  group := hgroup
  direct c' hc' := by
    rw [hjournal]
    by_cases heq : c' = c
    · subst heq
      rw [hcallers, update_self] at hc'
      obtain ⟨-, rfl, rfl⟩ | rfl | ⟨rfl, -⟩ := hcaller
      · refine ⟨⟨key, s.now, List.mem_append_right _ (List.mem_singleton_self _)⟩,
          fun o hmem => ?_⟩
        rcases List.mem_append.mp hmem with hmem | hmem
        · exact h.fresh g hc _ hmem rfl
        · cases List.mem_singleton.mp hmem
      · cases hc'
      · cases hc'
    · rw [hcallers, update_of_ne heq] at hc'
      obtain ⟨⟨key', time, hcalled⟩, hsettled⟩ := h.direct c' hc'
      refine ⟨⟨key', time, List.mem_append_left _ hcalled⟩, fun o hmem => ?_⟩
      rcases List.mem_append.mp hmem with hmem | hmem
      · exact hsettled o hmem
      · cases List.mem_singleton.mp hmem
  joined c' g' hc' := by
    rw [hjournal]
    by_cases heq : c' = c
    · subst heq
      rw [hcallers, update_self] at hc'
      obtain ⟨rfl, -⟩ | rfl | ⟨rfl, rfl, p, hp, rfl⟩ := hcaller
      · cases hc'
      · cases hc'
      · cases hc'
        exact ⟨p, s.now, hp, List.mem_append_right _ (List.mem_singleton_self _)⟩
    · rw [hcallers, update_of_ne heq] at hc'
      obtain ⟨p, time, hg', hcalled⟩ := h.joined c' g' hc'
      obtain ⟨p', hp', hkey⟩ := hold g' p hg'
      exact ⟨p', time, hp', List.mem_append_left _ (hkey ▸ hcalled)⟩
  fresh c' hc' x hx := by
    rw [hcallers] at hc'
    have heq : c' ≠ c := by
      rintro rfl
      rw [update_self] at hc'
      cases hc'
    rw [update_of_ne heq] at hc'
    rw [hjournal] at hx
    rcases List.mem_append.mp hx with hx | hx
    · exact h.fresh c' hc' x hx
    · rw [List.mem_singleton.mp hx]
      rintro (hcall | rfl)
      · exact heq hcall
      · exact hg.elim heq fun hne => hne hc'
  unanswered c' hc' a time hmem := by
    rw [hjournal] at hmem
    rcases List.mem_append.mp hmem with hmem | hmem
    · by_cases heq : c' = c
      · exact h.fresh c hc (.answered c a time) (heq ▸ hmem) rfl
      · rw [hcallers, update_of_ne heq] at hc'
        exact h.unanswered c' hc' a time hmem
    · cases List.mem_singleton.mp hmem
  backed := by
    rw [hjournal]
    exact h.backed.snoc hbacked

end

/-- A group that is under its key is so still when a call is made, if it goes on. -/
theorem Live.called {t : Service ν} {g' : CallId} {q q' : PendingRequest ν} {caller : Caller}
    (hq : Live s key g' q) (hc : s.callers c = none)
    (hcallers : t.callers = update s.callers c (some caller)) (hg' : t.groups g' = some q')
    (hkey : q'.key = q.key) (htimer : q'.timer = q.timer) (hstage : q'.stage = q.stage) :
    Live t key g' q' where
  group := hg'
  key := hkey.trans hq.key
  timer := htimer.trans hq.timer
  unsettled := hstage ▸ hq.unsettled
  leads := by
    have hne : g' ≠ c := by
      rintro rfl
      exact absurd (hc.symm.trans hq.leads) (by simp)
    rw [hcallers, update_of_ne hne]
    exact hq.leads

/-- A call joins the group under its key. -/
theorem Linked.join (h : Linked options none s) (hc : s.callers c = none)
    (hjoin : s.joinable options key = some (g, p)) : Linked options none (s.join c key g p) := by
  obtain ⟨hpending, hg, hroom⟩ := joinable_eq_some.mp hjoin
  obtain ⟨q, hlive⟩ := h.pending key g (by simp) hpending
  obtain rfl := Option.some.inj (hlive.group.symm.trans hg)
  have hok := h.group g q hg
  have hsame : (s.join c key g q).groups g = some { q with requestCount := q.requestCount + 1 } :=
    update_self ..
  have hother : ∀ g', g' ≠ g → (s.join c key g q).groups g' = s.groups g' := fun g' hne =>
    update_of_ne hne ..
  refine h.called none hc rfl rfl (fun key' g' hg' => ?_) (fun g' p hg' => ?_)
    (fun g' p hg' => groups_setGroup _ hg rfl hg') (.inr (.inr ⟨rfl, rfl, _, hsame, hlive.key⟩))
    (.inr hok.called_before) ⟨h.fresh c hc, fun _ => ?_, by simp⟩
  · obtain ⟨p, hp⟩ := h.pending key' g' (by simp) hg'
    by_cases heq : g' = g
    · subst heq
      obtain rfl := Option.some.inj (hp.group.symm.trans hg)
      exact ⟨_, hp.called hc rfl hsame rfl rfl rfl⟩
    · exact ⟨p, hp.called hc rfl ((hother g' heq).trans hp.group) rfl rfl rfl⟩
  · by_cases heq : g' = g
    · subst heq
      obtain rfl := Option.some.inj (hg'.symm.trans hsame)
      have hcount : callsOf g' (s.journal ++ [.called c key g' none s.now]) =
          callsOf g' s.journal + 1 := by rw [callsOf_called, if_pos rfl]
      refine ⟨hok.made.imp fun _ => List.mem_append_left _, ?_, fun o => ?_, ?_⟩
      · exact (congrArg (· + 1) hok.count).trans hcount.symm
      · rw [← hok.settled o]
        exact ⟨fun hmem => (List.mem_append.mp hmem).resolve_right (by simp),
          List.mem_append_left _⟩
      · have hne : g' ≠ c := fun heq => hok.called_before (heq ▸ hc)
        exact .inl ((update_of_ne hne ..).trans hlive.leads)
    · have hp := h.group g' p ((hother g' heq).symm.trans hg')
      exact hp.called hc heq rfl rfl
  · obtain ⟨ousted, hmade⟩ := hok.made
    refine ⟨⟨ousted, _, hlive.key ▸ hmade⟩,
      fun o hmem => hlive.unsettled o ((hok.settled o).mp hmem),
      h.unanswered g (by simp [hlive.leads]), hok.count ▸ hroom⟩

theorem pending_create {key' : String} :
    (s.create c key).pending key' = if key = key' then some c else s.pending key' := by
  rw [Service.pending, Service.create, findKey_upsert]
  split <;> rfl

/-- A group that cannot be joined is full. -/
theorem Linked.full (h : Linked options none s) (hjoin : s.joinable options key = none)
    (hg : s.pending key = some g) : options.maxConcurrent ≤ callsOf g s.journal := by
  obtain ⟨p, hlive⟩ := h.pending key g (by simp) hg
  by_contra hroom
  rw [← (h.group g p hlive.group).count, not_le] at hroom
  rw [joinable_eq_some.mpr ⟨hg, hlive.group, hroom⟩] at hjoin
  cases hjoin

/-- A call makes a group. -/
theorem Linked.create (h : Linked options none s) (hc : s.callers c = none)
    (hjoin : s.joinable options key = none) : Linked options none (s.create c key) := by
  have hne : ∀ g' p, s.groups g' = some p → g' ≠ c := fun g' p hg' heq =>
    (h.group g' p hg').called_before (heq ▸ hc)
  have hsame : (s.create c key).groups c = some ⟨key, s.now, 1, true, .waiting⟩ := update_self ..
  have hother : ∀ g', g' ≠ c → (s.create c key).groups g' = s.groups g' := fun g' hne =>
    update_of_ne hne ..
  refine h.called (s.pending key) hc rfl rfl (fun key' g' hg' => ?_) (fun g' p hg' => ?_)
    (fun g' p hg' => ⟨p, (hother g' (hne g' p hg')).trans hg', rfl⟩) (.inr (.inl rfl)) (.inl rfl)
    ⟨h.fresh c hc, fun hne => absurd rfl hne, fun g' hg' => h.full hjoin hg'⟩
  · rw [pending_create] at hg'
    split at hg'
    next heq =>
      cases hg'
      exact ⟨_, hsame, heq, rfl, by rintro o ⟨⟩, update_self ..⟩
    next =>
      obtain ⟨p, hp⟩ := h.pending key' g' (by simp) hg'
      exact ⟨p, hp.called hc rfl ((hother g' (hne g' p hp.group)).trans hp.group) rfl rfl rfl⟩
  · by_cases heq : g' = c
    · subst heq
      obtain rfl := Option.some.inj (hg'.symm.trans hsame)
      have hcount : callsOf g' (s.journal ++ [.called g' key g' (s.pending key) s.now]) = 1 := by
        rw [callsOf_called, callsOf_eq_zero (h.fresh g' hc), if_pos rfl]
      refine ⟨⟨_, List.mem_append_right _ (List.mem_singleton_self _)⟩, hcount.symm, fun o => ?_,
        .inl (update_self ..)⟩
      · refine ⟨fun hmem => ?_, by rintro ⟨⟩⟩
        rcases List.mem_append.mp hmem with hmem | hmem
        · exact absurd rfl (h.fresh g' hc (.settled g' o) hmem)
        · cases List.mem_singleton.mp hmem
    · exact (h.group g' p ((hother g' heq).symm.trans hg')).called hc heq rfl rfl

/-- A call is in no group. -/
theorem Linked.goDirect (h : Linked options none s) (hc : s.callers c = none) :
    Linked options none ((s.enter c .direct).note (.called c key c none s.now)) := by
  refine h.called none hc rfl rfl (fun key' g' hg' => ?_) (fun g' p hg' => ?_)
    (fun g' p hg' => ⟨p, hg', rfl⟩) (.inl ⟨rfl, rfl, rfl⟩) (.inl rfl)
    ⟨h.fresh c hc, fun hne => absurd rfl hne, by simp⟩
  · obtain ⟨p, hp⟩ := h.pending key' g' (by simp) hg'
    have hne : g' ≠ c := by
      rintro rfl
      exact absurd (hc.symm.trans hp.leads) (by simp)
    exact ⟨p, hp.group, hp.key, hp.timer, hp.unsettled, (update_of_ne hne ..).trans hp.leads⟩
  · have hp := h.group g' p hg'
    exact hp.called hc (fun heq => hp.called_before (heq ▸ hc)) rfl rfl

/-- The executor of a call that is in no group settles. -/
theorem Linked.finish (h : Linked options none s) (hc : s.callers c = some .direct) :
    Linked options none (((s.enter c .done).note (.settled c o)).note
      (.answered c (.executed o) s.now)) := by
  obtain ⟨⟨key, time, hcalled⟩, hunsettled⟩ := h.direct c hc
  have hdone := h.done (c := c) fun key _ hpending => by
    obtain ⟨p, hp⟩ := h.pending key c (by simp) hpending
    exact absurd (hc.symm.trans hp.leads) (by simp)
  have hgroup : ∀ g p, s.groups g = some p → g ≠ c := by
    rintro g p hg rfl
    rcases (h.group g p hg).caller with hcaller | hcaller <;>
      exact absurd (hc.symm.trans hcaller) (by simp)
  have hsettled := hdone.note (x := .settled c o) ⟨⟨key, none, time, hcalled⟩, hunsettled⟩
    (fun g p hg => (hdone.group g p hg).note (by simp) (by
      rintro o' ⟨⟩
      exact hgroup _ p hg rfl)) ?_ ?_ (by simp)
  · refine hsettled.note ⟨fun a time hmem => ?_, key, c, none, time, List.mem_append_left _ hcalled,
      List.mem_append_right _ (List.mem_singleton_self _)⟩
      (fun g p hg => (hsettled.group g p hg).note (by simp) (by simp)) (by simp) ?_ ?_
    · rcases List.mem_append.mp hmem with hmem | hmem
      · exact h.unanswered c (by simp [hc]) a time hmem
      · cases List.mem_singleton.mp hmem
    · rintro c' hc' rfl
      exact absurd (hc'.symm.trans enter_callers_self) (by simp)
    · rintro c' a time ⟨⟩
      exact enter_callers_self
  · rintro c' o' hc' ⟨⟩
    exact absurd (hc'.symm.trans enter_callers_self) (by simp)
  · rintro c' hc' rfl
    exact absurd (hc'.symm.trans enter_callers_self) (by simp)

/-- **An event keeps the state as the journal has it.** -/
theorem Linked.turn (h : Linked options none s) (hturn : Turn options s s') :
    Linked options none s' := by
  have h' := h.withMetrics { s.metrics with totalRequests := s.metrics.totalRequests + 1 }
  cases hturn with
  | wait ms => exact h.withNow _
  | direct key hc => exact h'.goDirect hc
  | join hc hon hjoin => exact h'.join hc hjoin
  | create hc hon hjoin => exact h'.create hc hjoin
  | start hg hstage => exact h.setGroup _ hg rfl rfl rfl (by simp [hstage]) (.inr rfl)
  | settle o hg hstage => exact h.settle hg hstage
  | @deliver c g p o hc hg hstage =>
    obtain ⟨q, time, hq, hcalled⟩ := h.joined c g hc
    refine h.answered (by simp [hc]) (fun key _ hpending => ?_) hcalled
      (((h.group g p hg).settled o).mpr hstage)
    obtain ⟨r, hr⟩ := h.pending key c (by simp) hpending
    exact absurd (hc.symm.trans hr.leads) (by simp)
  | finish o hc => exact h.finish hc
  | timeout hg htimer hlate => exact h.handleTimeout hg hlate

theorem linked_after (options : CoalescingOptions) (events : List (Event ν)) :
    Linked options none (Service.after options events) :=
  run_invariant (fun _ _ _ hs h => h.turn (turn_of_step hs)) events .init

/-- **What the journal of every run says.** -/
theorem Service.answers_backed (options : CoalescingOptions) (events : List (Event ν)) :
    Throughout (Backed options) (Service.after options events).journal :=
  (linked_after options events).backed

end StellarLend.Api.Coalescing
