import Mathlib.Algebra.Order.Ring.Rat
import Mathlib.Data.List.Basic
import StellarLend.Foundations.Run

/-!
# OracleService/CircuitBreaker — a provider that keeps failing is left alone for a while

`oracle/src/services/circuit-breaker.ts`.  Instants are milliseconds, and a call reads the clock
once.

    CLOSED --failures--> OPEN --backoff over--> HALF_OPEN --failure--> OPEN
      ^                   |                        |
      +------success------+--------success---------+

`fetchWithFallback` asks the breaker before a request and reports its outcome when the answer is
there.  Requests for several assets are in flight at once: `ProviderRequests` keeps them by number,
beside the breaker they share.

A half-open breaker is waiting for its probe, and does not know which request that is: it lets
others through as well, and takes any success for the probe's, be it that of a request sent before
the breaker opened.  Which successes it is told and when it is asked is the callers' doing, and one
request tests the recovery along exactly the runs in which they respect that (`single_probe_iff`).
-/

namespace StellarLend.OracleService

inductive CircuitState where
  | closed
  | opened
  | halfOpen
  deriving DecidableEq, Repr

structure CircuitBreakerConfig where
  failureThreshold : ℚ
  backoffMs : ℚ
  providerName : String
  deriving DecidableEq

def CircuitBreakerConfig.default (providerName : String) : CircuitBreakerConfig :=
  ⟨3, 30000, providerName⟩

structure CircuitBreaker where
  state : CircuitState
  consecutiveFailures : ℕ
  totalFailures : ℕ
  totalSuccesses : ℕ
  lastFailureTime : Option ℤ
  lastStateChangeTime : ℤ
  config : CircuitBreakerConfig
  deriving DecidableEq

namespace CircuitBreaker

def new (config : CircuitBreakerConfig) (now : ℤ) : CircuitBreaker :=
  ⟨.closed, 0, 0, 0, none, now, config⟩

variable (now : ℤ) (breaker : CircuitBreaker)

def transitionTo (next : CircuitState) : CircuitBreaker :=
  if breaker.state = next then breaker
  else { breaker with state := next, lastStateChangeTime := now }

def isAllowed : Bool × CircuitBreaker :=
  match breaker.state with
  | .closed => (true, breaker)
  | .opened =>
    let elapsed := now - breaker.lastFailureTime.getD 0
    if breaker.config.backoffMs ≤ elapsed then (true, breaker.transitionTo now .halfOpen)
    else (false, breaker)
  -- The comment of the source speaks of the single probe here; every request is let through.
  | .halfOpen => (true, breaker)

def recordSuccess : CircuitBreaker :=
  let breaker :=
    { breaker with totalSuccesses := breaker.totalSuccesses + 1, consecutiveFailures := 0 }
  if breaker.state ≠ .closed then breaker.transitionTo now .closed else breaker

def recordFailure : CircuitBreaker :=
  let breaker :=
    { breaker with
      totalFailures := breaker.totalFailures + 1
      consecutiveFailures := breaker.consecutiveFailures + 1
      lastFailureTime := some now }
  if breaker.state = .halfOpen ∨
      (breaker.state = .closed ∧
        breaker.config.failureThreshold ≤ breaker.consecutiveFailures) then
    breaker.transitionTo now .opened
  else breaker

/-! ### What the calls do -/

variable {now breaker}

@[simp] theorem transitionTo_state (next : CircuitState) :
    (breaker.transitionTo now next).state = next := by
  unfold transitionTo
  split <;> simp_all

@[simp] theorem transitionTo_lastFailureTime (next : CircuitState) :
    (breaker.transitionTo now next).lastFailureTime = breaker.lastFailureTime := by
  unfold transitionTo
  split <;> rfl

@[simp] theorem transitionTo_config (next : CircuitState) :
    (breaker.transitionTo now next).config = breaker.config := by
  unfold transitionTo
  split <;> rfl

variable (now breaker) in
/-- **A request is let through unless the breaker is open and its backoff not over**, and the first
one after the backoff half-opens it. -/
theorem isAllowed_cases :
    (breaker.state ≠ .opened ∧ breaker.isAllowed now = (true, breaker)) ∨
    (breaker.state = .opened ∧
      breaker.config.backoffMs ≤ (now - breaker.lastFailureTime.getD 0 : ℤ) ∧
      breaker.isAllowed now = (true, breaker.transitionTo now .halfOpen)) ∨
    (breaker.state = .opened ∧
      ¬ breaker.config.backoffMs ≤ (now - breaker.lastFailureTime.getD 0 : ℤ) ∧
      breaker.isAllowed now = (false, breaker)) := by
  cases hstate : breaker.state with
  | closed => exact .inl ⟨by decide, by simp only [isAllowed, hstate]⟩
  | halfOpen => exact .inl ⟨by decide, by simp only [isAllowed, hstate]⟩
  | opened =>
    right
    rcases em (breaker.config.backoffMs ≤ (now - breaker.lastFailureTime.getD 0 : ℤ)) with h | h
    · exact .inl ⟨rfl, h, by simp only [isAllowed, hstate, if_pos h]⟩
    · exact .inr ⟨rfl, h, by simp only [isAllowed, hstate, if_neg h]⟩

/-- A success closes the breaker, whatever state it is in. -/
@[simp] theorem recordSuccess_state : (breaker.recordSuccess now).state = .closed := by
  simp only [recordSuccess]
  split <;> simp_all

@[simp] theorem recordSuccess_lastFailureTime :
    (breaker.recordSuccess now).lastFailureTime = breaker.lastFailureTime := by
  simp only [recordSuccess]
  split <;> simp

@[simp] theorem recordFailure_lastFailureTime :
    (breaker.recordFailure now).lastFailureTime = some now := by
  simp only [recordFailure]
  split <;> simp

variable (now breaker) in
/-- A failure leaves the breaker open, or closed as it was. -/
theorem recordFailure_state :
    (breaker.recordFailure now).state = .opened ∨
      breaker.state = .closed ∧ (breaker.recordFailure now).state = .closed := by
  simp only [recordFailure]
  split
  next => exact .inl (transitionTo_state _)
  next h =>
    cases hstate : breaker.state with
    | closed => exact .inr ⟨rfl, rfl⟩
    | opened => exact .inl rfl
    | halfOpen => exact absurd (.inl hstate) h

end CircuitBreaker

/-! ## Requests in flight -/

/-- A breaker with the requests it has let through: how many, those that have not reported yet, and
those from the one on that half-opened it last.  `lastFailure` is the instant of the last failure
reported. -/
structure ProviderRequests where
  breaker : CircuitBreaker
  sent : ℕ
  inFlight : List ℕ
  admitted : List ℕ
  lastFailure : Option ℤ
  deriving DecidableEq

def ProviderRequests.new (config : CircuitBreakerConfig) (now : ℤ) : ProviderRequests :=
  ⟨.new config now, 0, [], [], none⟩

/-- A request asks to be sent, or reports the outcome. -/
inductive RequestEvent where
  | isAllowed (now : ℤ)
  | recordSuccess (request : ℕ) (now : ℤ)
  | recordFailure (request : ℕ) (now : ℤ)
  deriving DecidableEq

namespace ProviderRequests

variable (s : ProviderRequests)

/-- The next request is let through, and starts a new list if it half-opens the breaker. -/
def send (breaker : CircuitBreaker) : ProviderRequests :=
  { s with
    breaker := breaker
    sent := s.sent + 1
    inFlight := s.inFlight ++ [s.sent]
    admitted :=
      if s.breaker.state ≠ .halfOpen ∧ breaker.state = .halfOpen then [s.sent]
      else s.admitted ++ [s.sent] }

def report (request : ℕ) (breaker : CircuitBreaker) : ProviderRequests :=
  { s with breaker := breaker, inFlight := s.inFlight.erase request }

/-- An event, which is one only if the request it reports on is in flight. -/
def step (event : RequestEvent) : Option ProviderRequests :=
  match event with
  | .isAllowed now =>
    let (allowed, breaker) := s.breaker.isAllowed now
    if allowed then some (s.send breaker) else some { s with breaker := breaker }
  | .recordSuccess request now =>
    if request ∈ s.inFlight then some (s.report request (s.breaker.recordSuccess now)) else none
  | .recordFailure request now =>
    if request ∈ s.inFlight then
      some { s.report request (s.breaker.recordFailure now) with lastFailure := some now }
    else none

end ProviderRequests

/-! ## One request tests the recovery -/

section

open Foundations

variable {s t : ProviderRequests} {event : RequestEvent}

namespace ProviderRequests

/-! ## Steps -/

/-- **What an event can do**: send a request, refuse one, or hear of one in flight. -/
theorem step_cases (hstep : s.step event = some t) :
    (∃ now, event = .isAllowed now ∧ s.breaker.state ≠ .opened ∧ t = s.send s.breaker) ∨
    (∃ now, event = .isAllowed now ∧ s.breaker.state = .opened ∧
      s.breaker.config.backoffMs ≤ (now - s.breaker.lastFailureTime.getD 0 : ℤ) ∧
      t = s.send (s.breaker.transitionTo now .halfOpen)) ∨
    (∃ now, event = .isAllowed now ∧ s.breaker.state = .opened ∧ t = s) ∨
    (∃ request now, event = .recordSuccess request now ∧ request ∈ s.inFlight ∧
      t = s.report request (s.breaker.recordSuccess now)) ∨
    (∃ request now, event = .recordFailure request now ∧ request ∈ s.inFlight ∧
      t = { s.report request (s.breaker.recordFailure now) with lastFailure := some now }) := by
  cases event with
  | isAllowed now =>
    rcases s.breaker.isAllowed_cases now with ⟨h, heq⟩ | ⟨h, hover, heq⟩ | ⟨h, -, heq⟩
    all_goals
      simp only [step, heq, if_true, if_false, Bool.false_eq_true, Option.some.injEq] at hstep
    · exact .inl ⟨now, rfl, h, hstep.symm⟩
    · exact .inr (.inl ⟨now, rfl, h, hover, hstep.symm⟩)
    · exact .inr (.inr (.inl ⟨now, rfl, h, hstep.symm⟩))
  | recordSuccess request now =>
    obtain ⟨hmem, ht⟩ := Option.ite_none_right_eq_some.mp hstep
    exact .inr (.inr (.inr (.inl ⟨request, now, rfl, hmem, (Option.some.inj ht).symm⟩)))
  | recordFailure request now =>
    obtain ⟨hmem, ht⟩ := Option.ite_none_right_eq_some.mp hstep
    exact .inr (.inr (.inr (.inr ⟨request, now, rfl, hmem, (Option.some.inj ht).symm⟩)))

end ProviderRequests

/-! ## The rule -/

/-- What a step has to respect: a half-open breaker has let one request through, it closes again on
the success of that one, and an open breaker lets a request through only once its backoff is
over. -/
structure Disciplined (s : ProviderRequests) (event : RequestEvent) (t : ProviderRequests) :
    Prop where
  probe : t.breaker.state = .halfOpen → ∃ request, t.admitted = [request]
  recovery : s.breaker.state ≠ .closed → t.breaker.state = .closed →
    ∃ request now, event = .recordSuccess request now ∧ s.breaker.state = .halfOpen ∧
      s.admitted = [request]
  backoff : s.breaker.state = .opened → s.sent < t.sent →
    ∃ last now, event = .isAllowed now ∧ s.lastFailure = some last ∧
      s.breaker.config.backoffMs ≤ (now - last : ℤ)

/-- The callers respect it: nobody asks a half-open breaker, no success is reported to an open one,
and to a half-open one only that of the request that half-opened it. -/
def Respects (s : ProviderRequests) : RequestEvent → Prop
  | .isAllowed _ => s.breaker.state ≠ .halfOpen
  | .recordSuccess request _ =>
    s.breaker.state ≠ .opened ∧
      (s.breaker.state = .halfOpen → s.admitted.head? = some request)
  | .recordFailure _ _ => True

instance (s : ProviderRequests) (event : RequestEvent) : Decidable (Respects s event) := by
  cases event <;> unfold Respects <;> infer_instance

/-! ## The backoff -/

/-- The breaker has taken note of the last failure, and has not opened without one. -/
structure FailuresKept (s : ProviderRequests) : Prop where
  same : s.breaker.lastFailureTime = s.lastFailure
  opened : s.breaker.state = .opened → s.lastFailure ≠ none

theorem FailuresKept.new (config : CircuitBreakerConfig) (now : ℤ) :
    FailuresKept (.new config now) := ⟨rfl, fun h => by cases h⟩

theorem FailuresKept.step (h : FailuresKept s) (hstep : s.step event = some t) :
    FailuresKept t := by
  rcases ProviderRequests.step_cases hstep with ⟨_, _, hne, rfl⟩ | ⟨_, _, _, _, rfl⟩ |
    ⟨_, _, _, rfl⟩ | ⟨_, _, _, _, rfl⟩ | ⟨_, _, _, _, rfl⟩
  · exact ⟨h.same, fun hopened => absurd hopened hne⟩
  · refine ⟨by simpa [ProviderRequests.send] using h.same, fun hopened => ?_⟩
    simp [ProviderRequests.send] at hopened
  · exact h
  · refine ⟨by simpa [ProviderRequests.report] using h.same, fun hopened => ?_⟩
    simp [ProviderRequests.report] at hopened
  · exact ⟨by simp [ProviderRequests.report], fun _ => Option.some_ne_none _⟩

/-- **An open breaker lets nothing through before its backoff is over.** -/
theorem FailuresKept.backoff (h : FailuresKept s) (hstep : s.step event = some t)
    (hopened : s.breaker.state = .opened) (hsent : s.sent < t.sent) :
    ∃ last now, event = .isAllowed now ∧ s.lastFailure = some last ∧
      s.breaker.config.backoffMs ≤ (now - last : ℤ) := by
  rcases ProviderRequests.step_cases hstep with ⟨_, _, hne, _⟩ | ⟨now, rfl, _, hover, _⟩ |
    ⟨_, _, _, rfl⟩ | ⟨_, _, _, _, rfl⟩ | ⟨_, _, _, _, rfl⟩
  · exact absurd hopened hne
  · obtain ⟨last, hlast⟩ := Option.ne_none_iff_exists'.mp (h.opened hopened)
    rw [h.same, hlast, Option.getD_some] at hover
    exact ⟨last, now, rfl, hlast, hover⟩
  all_goals exact absurd hsent (lt_irrefl _)

/-! ## The probe -/

/-- A half-open breaker has one request to wait for. -/
structure Probing (s : ProviderRequests) : Prop extends FailuresKept s where
  probe : s.breaker.state = .halfOpen → ∃ request, s.admitted = [request]

theorem Probing.new (config : CircuitBreakerConfig) (now : ℤ) : Probing (.new config now) :=
  ⟨.new config now, fun h => by cases h⟩

/-- The breaker half-opens for one request, and a request it lets through while half-open is a
second one. -/
theorem send_admitted {breaker : CircuitBreaker} (h : Probing s)
    (hstate : breaker.state = .halfOpen) :
    (∃ request, (s.send breaker).admitted = [request]) ↔ s.breaker.state ≠ .halfOpen := by
  by_cases hhalf : s.breaker.state = .halfOpen
  · obtain ⟨request, hadmitted⟩ := h.probe hhalf
    simp [ProviderRequests.send, hhalf, hadmitted]
  · simp [ProviderRequests.send, hhalf, hstate]

/-- **A success is reported as it should be exactly if a breaker that is not closed hears of its
probe.** -/
theorem Probing.success_iff (h : Probing s) (request : ℕ) (now : ℤ) :
    Respects s (.recordSuccess request now) ↔ Disciplined s (.recordSuccess request now)
      (s.report request (s.breaker.recordSuccess now)) := by
  constructor
  · intro ⟨hopened, hprobe⟩
    refine ⟨fun hhalf => by simp [ProviderRequests.report] at hhalf, fun hopen _ => ?_,
      fun _ hsent => absurd hsent (lt_irrefl _)⟩
    have hhalf : s.breaker.state = .halfOpen := by
      cases hstate : s.breaker.state with
      | closed => exact absurd hstate hopen
      | opened => exact absurd hstate hopened
      | halfOpen => rfl
    obtain ⟨probe, hadmitted⟩ := h.probe hhalf
    have hsame := hprobe hhalf
    rw [hadmitted, List.head?_cons, Option.some.injEq] at hsame
    exact ⟨request, now, rfl, hhalf, hsame ▸ hadmitted⟩
  · intro hd
    have hrecovery : s.breaker.state ≠ .closed → _ := fun hopen =>
      hd.recovery hopen (by simp [ProviderRequests.report])
    refine ⟨fun hopened => ?_, fun hhalf => ?_⟩
    · obtain ⟨_, _, _, hhalf, _⟩ := hrecovery (by rw [hopened]; decide)
      rw [hopened] at hhalf
      cases hhalf
    · obtain ⟨_, _, hevent, _, hadmitted⟩ := hrecovery (by rw [hhalf]; decide)
      cases hevent
      rw [hadmitted, List.head?_cons]

/-- A failure opens the breaker or leaves it closed. -/
theorem failure_disciplined (request : ℕ) (now : ℤ) (s : ProviderRequests) :
    Disciplined s (.recordFailure request now)
      { s.report request (s.breaker.recordFailure now) with lastFailure := some now } := by
  refine ⟨fun hhalf => ?_, fun hopen hclosed => ?_, fun _ hsent => absurd hsent (lt_irrefl _)⟩
  · change (s.breaker.recordFailure now).state = .halfOpen at hhalf
    rcases s.breaker.recordFailure_state now with hstate | ⟨-, hstate⟩ <;>
      rw [hstate] at hhalf <;> cases hhalf
  · change (s.breaker.recordFailure now).state = .closed at hclosed
    rcases s.breaker.recordFailure_state now with hstate | ⟨hwas, -⟩
    · rw [hstate] at hclosed
      cases hclosed
    · exact absurd hwas hopen

/-- **A step respects the rule exactly if the caller does.** -/
theorem Probing.disciplined_iff (h : Probing s) (hstep : s.step event = some t) :
    Respects s event ↔ Disciplined s event t := by
  have hbackoff := h.toFailuresKept.backoff hstep
  rcases ProviderRequests.step_cases hstep with ⟨now, rfl, hne, rfl⟩ | ⟨now, rfl, hopened, _, rfl⟩ |
    ⟨now, rfl, hopened, rfl⟩ | ⟨request, now, rfl, _, rfl⟩ | ⟨request, now, rfl, _, rfl⟩
  · constructor
    · intro hrespects
      exact ⟨fun hhalf => absurd hhalf hrespects, fun hopen hclosed => absurd hclosed hopen,
        hbackoff⟩
    · intro hd hhalf
      exact (send_admitted h hhalf).mp (hd.probe hhalf) hhalf
  · have hhalf : s.breaker.state ≠ .halfOpen := by rw [hopened]; decide
    refine iff_of_true hhalf ⟨fun hstate => (send_admitted h hstate).mpr hhalf, ?_, hbackoff⟩
    intro _ hclosed
    simp [ProviderRequests.send] at hclosed
  · refine iff_of_true (by simp [Respects, hopened]) ⟨h.probe, ?_, hbackoff⟩
    exact fun hopen hclosed => absurd hclosed hopen
  · exact h.success_iff request now
  · exact iff_of_true trivial (failure_disciplined request now s)

theorem Probing.step (h : Probing s) (hstep : s.step event = some t)
    (hrespects : Respects s event) : Probing t :=
  ⟨h.toFailuresKept.step hstep, ((h.disciplined_iff hstep).mp hrespects).probe⟩

/-- The requests of a provider after a sequence of events. -/
def requestsAfter (config : CircuitBreakerConfig) (created : ℤ) (events : List RequestEvent) :
    ProviderRequests :=
  run (fun event s => s.step event) (.new config created) events

/-- **Every step of a run respects the rule exactly if the callers do**: they keep away from a
half-open breaker and report it no success but the probe's, and none to an open one. -/
theorem single_probe_iff (config : CircuitBreakerConfig) (created : ℤ)
    (events : List RequestEvent) :
    Meets (fun event s => s.step event) Respects (.new config created) events ↔
      ∀ past event rest t, events = past ++ event :: rest →
        (requestsAfter config created past).step event = some t →
        Disciplined (requestsAfter config created past) event t :=
  meets_iff_steps (fun _ _ _ hstep h => h.disciplined_iff hstep)
    (fun _ _ _ hstep hrespects h => h.step hstep hrespects) (Probing.new config created)

/-- **The backoff holds along every run.** -/
theorem backoff_holds (config : CircuitBreakerConfig) (created : ℤ) (past : List RequestEvent)
    {event : RequestEvent} {t : ProviderRequests}
    (hstep : (requestsAfter config created past).step event = some t)
    (hopened : (requestsAfter config created past).breaker.state = .opened)
    (hsent : (requestsAfter config created past).sent < t.sent) :
    ∃ last now, event = .isAllowed now ∧
      (requestsAfter config created past).lastFailure = some last ∧
      (requestsAfter config created past).breaker.config.backoffMs ≤ (now - last : ℤ) := by
  have hkept : FailuresKept (requestsAfter config created past) :=
    run_invariant (fun _ _ _ hstep h => h.step hstep) past (.new config created)
  exact hkept.backoff hstep hopened hsent

namespace Sample

/-- A breaker that opens at the first failure, for ten milliseconds. -/
def touchy : CircuitBreakerConfig := ⟨1, 10, "coingecko"⟩

/-- Two assets are asked for at once; the first request fails and opens the breaker, and the answer
to the second is late. -/
def lateSuccess : List RequestEvent :=
  [.isAllowed 0, .isAllowed 0, .recordFailure 0 1, .recordSuccess 1 2]

/-- The backoff is over, and two assets are asked for at once. -/
def twoProbes : List RequestEvent :=
  [.isAllowed 0, .recordFailure 0 0, .isAllowed 10, .isAllowed 10]

example : (requestsAfter touchy 0 twoProbes).admitted = [1, 2] := by decide

/-- **Half-open, the breaker lets a second request through; open, it closes on the success of a
request sent before it opened.** -/
theorem not_disciplined :
    (∃ t, (requestsAfter touchy 0 (twoProbes.take 3)).step (.isAllowed 10) = some t ∧
      ¬ Disciplined (requestsAfter touchy 0 (twoProbes.take 3)) (.isAllowed 10) t) ∧
    ∃ t, (requestsAfter touchy 0 (lateSuccess.take 3)).step (.recordSuccess 1 2) = some t ∧
      ¬ Disciplined (requestsAfter touchy 0 (lateSuccess.take 3)) (.recordSuccess 1 2) t := by
  constructor
  · refine ⟨_, rfl, fun h => ?_⟩
    obtain ⟨request, hadmitted⟩ := h.probe (by decide)
    have hone : _ = 1 := congrArg List.length hadmitted
    exact absurd hone (by decide)
  · refine ⟨_, rfl, fun h => ?_⟩
    obtain ⟨_, _, _, hhalf, _⟩ := h.recovery (by decide) (by decide)
    exact absurd hhalf (by decide)

end Sample

end

end StellarLend.OracleService
