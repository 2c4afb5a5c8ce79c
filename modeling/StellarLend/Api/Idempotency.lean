import StellarLend.Api.BoundedTtlCache
import StellarLend.Foundations.Journal
import StellarLend.Foundations.Json
import StellarLend.Foundations.Run

/-!
# Api/Idempotency — a request sent twice is handled once

`api/src/middleware/idempotency.ts`, in front of the lending routes.

    arrive ─┬─▸ left                             no key, an invalid one, or another request's
            ├─▸ left                             replayed: the key's answer is cached
            ├─▸ waiting ─resume─┬─▸ left         replayed: the request waited for was answered
            │                   ▾ rejected
            └─────────────▸ handling ─json─▸ …   begun; its answer is cached, and its promise kept

A promise is known by the request whose beginning made it.  Requests are told apart by a number of
their own, what runs between two awaits is one event, and the journal tells what became of each
request.  The connection of a request that is being handled may close at any time, and its handler
goes on.
-/

namespace StellarLend.Api

open Foundations Function

abbrev RequestId : Type := ℕ

structure CachedResponse where
  signature : String
  status : ℕ
  body : Json

structure PendingResponse where
  signature : String
  promise : RequestId

/-- How a promise was settled. -/
inductive Settlement where
  | resolved (response : CachedResponse)
  | rejected

structure IdempotencyStore where
  completed : BoundedTtlCache CachedResponse
  pending : String → Option PendingResponse
  promises : RequestId → Option Settlement

namespace IdempotencyStore

variable (store : IdempotencyStore) (key : String)

def new (options : CacheOptions) : IdempotencyStore := ⟨.new options, fun _ => none, fun _ => none⟩

def getCompleted (now : ℤ) : Option CachedResponse × IdempotencyStore :=
  let (found, completed) := store.completed.get key now
  (found, { store with completed := completed })

def getPending : Option PendingResponse := store.pending key

def begin (signature : String) (r : RequestId) : IdempotencyStore :=
  { store with pending := update store.pending key (some ⟨signature, r⟩) }

/-- Settles the promise of the key, whoever made it. -/
def settle (settlement : Settlement) : IdempotencyStore :=
  match store.pending key with
  | none => store
  | some pendingResponse =>
    { store with
      promises := update store.promises pendingResponse.promise (some settlement)
      pending := update store.pending key none }

def complete (response : CachedResponse) (now : ℤ) : IdempotencyStore :=
  let store := store.settle key (.resolved response)
  { store with completed := store.completed.set key response now }

def abort : IdempotencyStore := store.settle key .rejected

variable {store : IdempotencyStore} {key : String} {settlement settled : Settlement} {o : RequestId}

theorem settle_completed : (store.settle key settlement).completed = store.completed := by
  rw [settle]
  split <;> rfl

theorem settle_pending : (store.settle key settlement).pending = update store.pending key none := by
  rw [settle]
  split
  next hnone => rw [← hnone, update_eq_self]
  next => rfl

theorem settle_promises (h : (store.settle key settlement).promises o = some settled) :
    store.promises o = some settled ∨
      ∃ p, store.pending key = some p ∧ p.promise = o ∧ settled = settlement := by
  rw [settle] at h
  split at h
  next => exact .inl h
  next p hpending =>
    by_cases heq : o = p.promise
    · subst heq
      exact .inr ⟨p, hpending, rfl, Option.some.inj (h.symm.trans (update_self ..))⟩
    · exact .inl ((update_of_ne heq ..).symm.trans h)

end IdempotencyStore

/-! ## Requests -/

structure Request where
  method : String
  baseUrl : String
  path : String
  /-- The `Idempotency-Key` header. -/
  idempotencyKey : Option String
  body : Option Json

def isHex (c : Char) : Bool :=
  c.isDigit || ('a' ≤ c && c ≤ 'f') || ('A' ≤ c && c ≤ 'F')

def UUID_V4_REGEX : List (Char → Bool) :=
  let dash (c : Char) : Bool := c == '-'
  let version (c : Char) : Bool := '1' ≤ c && c ≤ '5'
  let variant (c : Char) : Bool := c ∈ ['8', '9', 'a', 'b', 'A', 'B']
  .replicate 8 isHex ++ dash :: .replicate 4 isHex ++ dash :: version :: .replicate 3 isHex ++
    dash :: variant :: .replicate 3 isHex ++ dash :: .replicate 12 isHex

/-- Each character is of the class at its place, and there are no others. -/
def test : List (Char → Bool) → List Char → Bool
  | [], [] => true
  | p :: ps, c :: cs => p c && test ps cs
  | _, _ => false

def bodyText : Option Json → String
  | some (.obj members) => String.ofList (Json.obj members).print
  | some (.arr items) => String.ofList (Json.arr items).print
  | some (.str s) => s
  | some (.num n) => String.ofList n.text
  | some (.bool b) => if b then "true" else "false"
  | some .null => ""
  | none => ""

def buildRequestSignature (req : Request) : String :=
  req.method ++ ":" ++ req.baseUrl ++ req.path ++ ":" ++ bodyText req.body

/-- The key of a request; an empty one is none. -/
def Request.key (req : Request) : String := req.idempotencyKey.getD ""

/-- Two requests with one key and one signature. -/
def Request.Same (a b : Request) : Prop :=
  a.key = b.key ∧ buildRequestSignature a = buildRequestSignature b

inductive Refusal where
  /-- `Idempotency-Key must be a valid UUID` -/
  | validation
  /-- `Idempotency-Key has already been used for a different request` -/
  | conflict
  deriving DecidableEq, Repr

/-! ## The middleware -/

inductive Phase where
  | left
  | waiting (req : Request) (promise : RequestId)
  | handling (req : Request) (writableEnded : Bool)

/-- What becomes of a request; `cut` is a connection that closes before the response ends. -/
inductive Happening where
  | passed (r : RequestId)
  | refused (r : RequestId) (refusal : Refusal)
  | began (r : RequestId) (req : Request)
  | answered (r : RequestId) (req : Request) (response : CachedResponse)
  | replayed (r : RequestId) (req : Request) (response : CachedResponse)
  | cut (r : RequestId)

abbrev Journal : Type := List (ℤ × Happening)

structure Service where
  now : ℤ
  store : IdempotencyStore
  requests : RequestId → Option Phase
  journal : Journal

inductive Event where
  | wait (ms : ℕ)
  | arrive (r : RequestId) (req : Request)
  | resume (r : RequestId)
  | json (r : RequestId) (statusCode : ℕ) (body : Json)
  /-- The handler ends its response in another way. -/
  | finish (r : RequestId)
  | close (r : RequestId)

namespace Service

variable (s : Service) (r : RequestId) (req : Request)

def new (options : CacheOptions) : Service := ⟨0, .new options, fun _ => none, []⟩

def enter (phase : Phase) : Service := { s with requests := update s.requests r (some phase) }

def note (happening : Happening) : Service :=
  { s with journal := s.journal ++ [(s.now, happening)] }

/-- The middleware is done with the request. -/
def leave (happening : Happening) : Service := (s.enter r .left).note happening

/-- The request becomes the one that is handled for its key. -/
def begin : Service :=
  ({ s with store := s.store.begin req.key (buildRequestSignature req) r }.enter r
    (.handling req false)).note (.began r req)

def respondFromCache (response : CachedResponse) : Service := s.leave r (.replayed r req response)

/-- What happens to a request up to its first await, or as a whole. -/
def idempotencyMiddleware : Service :=
  if req.method ≠ "POST" then s.leave r (.passed r)
  else if req.key = "" then s.leave r (.passed r)
  else if test UUID_V4_REGEX req.key.toList = false then s.leave r (.refused r .validation)
  else
    let signature := buildRequestSignature req
    let (cachedResponse, store) := s.store.getCompleted req.key s.now
    let s := { s with store := store }
    match cachedResponse with
    | some response =>
      if response.signature ≠ signature then s.leave r (.refused r .conflict)
      else s.respondFromCache r req response
    | none =>
      match s.store.getPending req.key with
      | some pendingResponse =>
        if pendingResponse.signature ≠ signature then s.leave r (.refused r .conflict)
        else s.enter r (.waiting req pendingResponse.promise)
      | none => s.begin r req

/-- The handler answers through the `json` that the middleware put in place. -/
def json (statusCode : ℕ) (body : Json) : Service :=
  let response := ⟨buildRequestSignature req, statusCode, body⟩
  ({ s with store := s.store.complete req.key response s.now }.enter r (.handling req true)).note
    (.answered r req response)

def step (event : Event) (s : Service) : Option Service :=
  match event with
  | .wait ms => some { s with now := s.now + ms }
  | .arrive r req =>
    match s.requests r with
    | none => some (s.idempotencyMiddleware r req)
    | some _ => none
  | .resume r =>
    match s.requests r with
    | some (.waiting req promise) =>
      match s.store.promises promise with
      | some (.resolved response) => some (s.respondFromCache r req response)
      | some .rejected => some (s.begin r req)
      | none => none
    | _ => none
  | .json r statusCode body =>
    match s.requests r with
    | some (.handling req _) => some (s.json r req statusCode body)
    | _ => none
  | .finish r =>
    match s.requests r with
    | some (.handling req _) => some (s.enter r (.handling req true))
    | _ => none
  | .close r =>
    match s.requests r with
    | some (.handling _ true) => some s
    | some (.handling req false) =>
      some ({ s with store := s.store.abort req.key }.note (.cut r))
    | _ => none

/-- The service once the cache has been looked at. -/
def looked : Service := { s with store := (s.store.getCompleted req.key s.now).2 }

/-- A response is ended once, and its connection closes after that. -/
def Orderly (s : Service) : Event → Prop
  | .json r _ _ => ∀ req ended, s.requests r = some (.handling req ended) → ended = false
  | .close r => ∀ req ended, s.requests r = some (.handling req ended) → ended = true
  | _ => True

/-- **All that an event can do**, in order or not. -/
inductive Turn (s : Service) : Bool → Service → Prop
  | wait (ms : ℕ) : Turn s true { s with now := s.now + ms }
  | pass {r : RequestId} (hnew : s.requests r = none) : Turn s true (s.leave r (.passed r))
  | invalid {r : RequestId} (hnew : s.requests r = none) :
    Turn s true (s.leave r (.refused r .validation))
  | conflict {r : RequestId} (hnew : s.requests r = none) (req : Request) :
    Turn s true ((s.looked req).leave r (.refused r .conflict))
  | hit {r : RequestId} {req : Request} {response : CachedResponse} (hnew : s.requests r = none)
    (hfound : (s.store.getCompleted req.key s.now).1 = some response)
    (hsame : response.signature = buildRequestSignature req) :
    Turn s true ((s.looked req).respondFromCache r req response)
  | join {r : RequestId} {req : Request} {promise : RequestId} (hnew : s.requests r = none)
    (hpending : s.store.pending req.key = some ⟨buildRequestSignature req, promise⟩) :
    Turn s true ((s.looked req).enter r (.waiting req promise))
  | start {r : RequestId} {req : Request} (hkey : req.key ≠ "") (hnew : s.requests r = none)
    (hnone : (s.store.getCompleted req.key s.now).1 = none)
    (hpending : s.store.pending req.key = none) : Turn s true ((s.looked req).begin r req)
  | awaited {r promise : RequestId} {req : Request} {response : CachedResponse}
    (hwaiting : s.requests r = some (.waiting req promise))
    (hpromise : s.store.promises promise = some (.resolved response)) :
    Turn s true (s.respondFromCache r req response)
  | retry {r promise : RequestId} {req : Request}
    (hwaiting : s.requests r = some (.waiting req promise))
    (hpromise : s.store.promises promise = some .rejected) : Turn s true (s.begin r req)
  | answer {r : RequestId} {req : Request} {ended : Bool} (statusCode : ℕ) (body : Json)
    (hhandling : s.requests r = some (.handling req ended)) :
    Turn s (!ended) (s.json r req statusCode body)
  | finish {r : RequestId} {req : Request} {ended : Bool}
    (hhandling : s.requests r = some (.handling req ended)) :
    Turn s true (s.enter r (.handling req true))
  | close : Turn s true s
  | cut {r : RequestId} {req : Request} (hhandling : s.requests r = some (.handling req false)) :
    Turn s false ({ s with store := s.store.abort req.key }.note (.cut r))

variable {s s' : Service} {r o promise : RequestId} {req req' : Request} {response : CachedResponse}
  {event : Event} {orderly : Bool} {phase : Phase} {key : String}

theorem turn_of_middleware (req : Request) (hnew : s.requests r = none) :
    Turn s true (s.idempotencyMiddleware r req) := by
  rw [idempotencyMiddleware]
  dsimp only
  split_ifs with hmethod hkey huuid
  · exact .pass hnew
  · exact .pass hnew
  · exact .invalid hnew
  split
  next response hfound =>
    split_ifs with hsignature
    · exact .conflict hnew req
    · exact .hit hnew hfound (not_ne_iff.mp hsignature)
  next hnone =>
    split
    next pendingResponse hpending =>
      split_ifs with hsignature
      · exact .conflict hnew req
      · refine .join hnew ?_
        rw [← not_ne_iff.mp hsignature]
        exact hpending
    next hpending => exact .start hkey hnew hnone hpending

theorem turn_of_step (h : step event s = some s') :
    ∃ orderly, Turn s orderly s' ∧ (Orderly s event → orderly = true) := by
  cases event with
  | wait ms =>
    obtain rfl := Option.some.inj h
    exact ⟨true, .wait ms, fun _ => rfl⟩
  | arrive r req =>
    rw [step] at h
    split at h
    next hnew =>
      obtain rfl := Option.some.inj h
      exact ⟨true, turn_of_middleware req hnew, fun _ => rfl⟩
    next => cases h
  | resume r =>
    rw [step] at h
    split at h
    next req promise hwaiting =>
      split at h
      next response hpromise =>
        obtain rfl := Option.some.inj h
        exact ⟨true, .awaited hwaiting hpromise, fun _ => rfl⟩
      next hpromise =>
        obtain rfl := Option.some.inj h
        exact ⟨true, .retry hwaiting hpromise, fun _ => rfl⟩
      next => cases h
    next => cases h
  | json r statusCode body =>
    rw [step] at h
    split at h
    next req ended hhandling =>
      obtain rfl := Option.some.inj h
      refine ⟨!ended, .answer statusCode body hhandling, fun horderly => ?_⟩
      rw [horderly req ended hhandling, Bool.not_false]
    next => cases h
  | finish r =>
    rw [step] at h
    split at h
    next req ended hhandling =>
      obtain rfl := Option.some.inj h
      exact ⟨true, .finish hhandling, fun _ => rfl⟩
    next => cases h
  | close r =>
    rw [step] at h
    split at h
    next =>
      obtain rfl := Option.some.inj h
      exact ⟨true, .close, fun _ => rfl⟩
    next req hhandling =>
      obtain rfl := Option.some.inj h
      refine ⟨false, .cut hhandling, fun horderly => ?_⟩
      exact absurd (horderly req false hhandling) Bool.false_ne_true
    next => cases h

/-! ## What becomes of requests -/

def Handles (s : Service) (r : RequestId) (req : Request) : Prop :=
  ∃ ended, s.requests r = some (.handling req ended)

theorem Handles.unique (h : Handles s r req) (h' : Handles s r req') : req = req' := by
  obtain ⟨ended, hr⟩ := h
  obtain ⟨ended', hr'⟩ := h'
  rw [hr] at hr'
  cases hr'
  rfl

theorem not_handles_of_new (h : s.requests r = none) : ∀ req, ¬ Handles s r req := by
  rintro req ⟨ended, hr⟩
  rw [h] at hr
  cases hr

theorem not_handles_of_waiting (h : s.requests r = some (.waiting req promise)) :
    ∀ req, ¬ Handles s r req := by
  rintro req' ⟨ended, hr⟩
  rw [h] at hr
  cases hr

/-- A request that handles nothing may go anywhere. -/
theorem Handles.enter (h : Handles s o req) (hr : ∀ req, ¬ Handles s r req) :
    Handles (s.enter r phase) o req := by
  obtain ⟨ended, ho⟩ := h
  refine ⟨ended, (update_of_ne (fun heq => ?_) _ _).trans ho⟩
  exact hr req ⟨ended, heq ▸ ho⟩

theorem Handles.enter_handling {ended : Bool} (h : Handles s o req) (hr : Handles s r req') :
    Handles (s.enter r (.handling req' ended)) o req := by
  by_cases heq : o = r
  · subst heq
    obtain rfl := h.unique hr
    exact ⟨ended, update_self ..⟩
  · obtain ⟨ended', ho⟩ := h
    exact ⟨ended', (update_of_ne heq _ _).trans ho⟩

/-- **What a request handles, it handles for good.** -/
theorem Handles.turn (h : Handles s o req) (hturn : Turn s orderly s') : Handles s' o req := by
  cases hturn with
  | wait ms => exact h
  | pass hnew => exact h.enter (not_handles_of_new hnew)
  | invalid hnew => exact h.enter (not_handles_of_new hnew)
  | conflict hnew req' =>
    exact Handles.enter (s := s.looked req') h (not_handles_of_new (s := s) hnew)
  | @hit _ req' _ hnew =>
    exact Handles.enter (s := s.looked req') h (not_handles_of_new (s := s) hnew)
  | @join _ req' _ hnew =>
    exact Handles.enter (s := s.looked req') h (not_handles_of_new (s := s) hnew)
  | @start _ req' _ hnew =>
    exact Handles.enter (s := s.looked req') h (not_handles_of_new (s := s) hnew)
  | awaited hwaiting => exact h.enter (not_handles_of_waiting hwaiting)
  | retry hwaiting => exact h.enter (not_handles_of_waiting hwaiting)
  | answer statusCode body hhandling => exact h.enter_handling ⟨_, hhandling⟩
  | finish hhandling => exact h.enter_handling ⟨_, hhandling⟩
  | close => exact h
  | cut => exact h

/-- What has to hold for a happening to be noted. -/
def Warrants (s : Service) (orderly : Bool) (s' : Service) : Happening → Prop
  | .passed _ => True
  | .refused _ _ => True
  | .began r req => s'.requests r = some (.handling req false) ∧
    ((req.key ≠ "" ∧ (s.store.getCompleted req.key s.now).1 = none ∧
        s.store.pending req.key = none) ∨
      ∃ promise, s.requests r = some (.waiting req promise) ∧
        s.store.promises promise = some .rejected)
  | .answered r req response => response.signature = buildRequestSignature req ∧
    ∃ ended, s.requests r = some (.handling req ended) ∧ orderly = !ended
  | .replayed r req response =>
    ((s.store.getCompleted req.key s.now).1 = some response ∧
        response.signature = buildRequestSignature req) ∨
      ∃ promise, s.requests r = some (.waiting req promise) ∧
        s.store.promises promise = some (.resolved response)
  | .cut _ => orderly = false

theorem journal_turn (h : Turn s orderly s') :
    s'.journal = s.journal ∨
      ∃ x, s'.journal = s.journal ++ [(s.now, x)] ∧ s.Warrants orderly s' x := by
  cases h with
  | wait ms => exact .inl rfl
  | pass hnew => exact .inr ⟨_, rfl, trivial⟩
  | invalid hnew => exact .inr ⟨_, rfl, trivial⟩
  | conflict hnew req => exact .inr ⟨_, rfl, trivial⟩
  | hit hnew hfound hsame => exact .inr ⟨_, rfl, .inl ⟨hfound, hsame⟩⟩
  | join hnew hpending => exact .inl rfl
  | start hkey hnew hnone hpending =>
    exact .inr ⟨_, rfl, update_self .., .inl ⟨hkey, hnone, hpending⟩⟩
  | awaited hwaiting hpromise => exact .inr ⟨_, rfl, .inr ⟨_, hwaiting, hpromise⟩⟩
  | retry hwaiting hpromise => exact .inr ⟨_, rfl, update_self .., .inr ⟨_, hwaiting, hpromise⟩⟩
  | answer statusCode body hhandling => exact .inr ⟨_, rfl, rfl, _, hhandling, rfl⟩
  | finish hhandling => exact .inl rfl
  | close => exact .inl rfl
  | cut hhandling => exact .inr ⟨_, rfl, rfl⟩

theorem requests_enter {p : Phase} (h : (s.enter r phase).requests o = some p) :
    s.requests o = some p ∨ o = r ∧ p = phase := by
  by_cases heq : o = r
  · subst heq
    exact .inr ⟨rfl, (Option.some.inj ((update_self o _ s.requests).symm.trans h)).symm⟩
  · exact .inl ((update_of_ne heq _ s.requests).symm.trans h)

theorem requests_leave {p : Phase} {happening : Happening}
    (h : (s.leave r happening).requests o = some p) : s.requests o = some p ∨ p = .left :=
  (requests_enter h).imp_right And.right

/-- **A request that handles something did so before, or has just begun**; where its response is
open, it was open. -/
theorem handling_turn {ended : Bool} (h : Turn s orderly s')
    (hr : s'.requests r = some (.handling req ended)) :
    (∃ ended', s.requests r = some (.handling req ended') ∧ (ended = false → ended' = false)) ∨
    s.Warrants orderly s' (.began r req) ∧ s'.journal = s.journal ++ [(s.now, .began r req)] ∧
      s'.store.pending req.key = some ⟨buildRequestSignature req, r⟩ := by
  cases h with
  | wait ms => exact .inl ⟨ended, hr, id⟩
  | pass hnew => exact .inl ⟨ended, (requests_leave hr).resolve_right Phase.noConfusion, id⟩
  | invalid hnew => exact .inl ⟨ended, (requests_leave hr).resolve_right Phase.noConfusion, id⟩
  | conflict hnew req' =>
    exact .inl ⟨ended,
      (requests_leave (s := s.looked req') hr).resolve_right Phase.noConfusion, id⟩
  | @hit _ req' _ hnew =>
    exact .inl ⟨ended,
      (requests_leave (s := s.looked req') hr).resolve_right Phase.noConfusion, id⟩
  | @join _ req' _ hnew =>
    rcases requests_enter (s := s.looked req') hr with hr | ⟨-, hphase⟩
    · exact .inl ⟨ended, hr, id⟩
    · cases hphase
  | start hkey hnew hnone hpending =>
    rcases requests_enter (s := { s with store := _ }) hr with hr' | ⟨rfl, hphase⟩
    · exact .inl ⟨ended, hr', id⟩
    · cases hphase
      exact .inr ⟨⟨hr, .inl ⟨hkey, hnone, hpending⟩⟩, rfl, update_self ..⟩
  | awaited => exact .inl ⟨ended, (requests_leave hr).resolve_right Phase.noConfusion, id⟩
  | retry hwaiting hpromise =>
    rcases requests_enter (s := { s with store := _ }) hr with hr' | ⟨rfl, hphase⟩
    · exact .inl ⟨ended, hr', id⟩
    · cases hphase
      exact .inr ⟨⟨hr, .inr ⟨_, hwaiting, hpromise⟩⟩, rfl, update_self ..⟩
  | answer statusCode body hhandling =>
    rcases requests_enter (s := { s with store := _ }) hr with hr | ⟨rfl, hphase⟩
    · exact .inl ⟨ended, hr, id⟩
    · cases hphase
      exact .inl ⟨_, hhandling, fun h => absurd h.symm Bool.false_ne_true⟩
  | finish hhandling =>
    rcases requests_enter hr with hr | ⟨rfl, hphase⟩
    · exact .inl ⟨ended, hr, id⟩
    · cases hphase
      exact .inl ⟨_, hhandling, fun h => absurd h.symm Bool.false_ne_true⟩
  | close => exact .inl ⟨ended, hr, id⟩
  | cut hhandling => exact .inl ⟨ended, hr, id⟩

/-- A request is waiting for what was pending under its key. -/
theorem waiting_turn (h : Turn s orderly s') (hr : s'.requests r = some (.waiting req promise)) :
    s.requests r = some (.waiting req promise) ∨
      s.store.pending req.key = some ⟨buildRequestSignature req, promise⟩ := by
  cases h with
  | wait ms => exact .inl hr
  | pass hnew => exact .inl ((requests_leave hr).resolve_right Phase.noConfusion)
  | invalid hnew => exact .inl ((requests_leave hr).resolve_right Phase.noConfusion)
  | conflict hnew req' =>
    exact .inl ((requests_leave (s := s.looked req') hr).resolve_right Phase.noConfusion)
  | @hit _ req' _ hnew =>
    exact .inl ((requests_leave (s := s.looked req') hr).resolve_right Phase.noConfusion)
  | @join _ req' _ hnew hpending =>
    rcases requests_enter (s := s.looked req') hr with hr | ⟨-, hphase⟩
    · exact .inl hr
    · cases hphase
      exact .inr hpending
  | start =>
    rcases requests_enter (s := { s with store := _ }) hr with hr | ⟨-, hphase⟩
    · exact .inl hr
    · cases hphase
  | awaited => exact .inl ((requests_leave hr).resolve_right Phase.noConfusion)
  | retry =>
    rcases requests_enter (s := { s with store := _ }) hr with hr | ⟨-, hphase⟩
    · exact .inl hr
    · cases hphase
  | answer =>
    rcases requests_enter (s := { s with store := _ }) hr with hr | ⟨-, hphase⟩
    · exact .inl hr
    · cases hphase
  | finish =>
    rcases requests_enter hr with hr | ⟨-, hphase⟩
    · exact .inl hr
    · cases hphase
  | close => exact .inl hr
  | cut => exact .inl hr

/-- What is pending under a key was so before, or has just begun. -/
theorem pending_turn {p : PendingResponse} (h : Turn s orderly s')
    (hp : s'.store.pending key = some p) :
    s.store.pending key = some p ∨ ∃ req, Handles s' p.promise req ∧ req.key = key ∧
      buildRequestSignature req = p.signature := by
  have hbegin : ∀ {r : RequestId} {req : Request},
      (s.store.begin req.key (buildRequestSignature req) r).pending key = some p →
        s.store.pending key = some p ∨ req.key = key ∧ p = ⟨buildRequestSignature req, r⟩ := by
    intro r req hp
    by_cases heq : key = req.key
    · subst heq
      exact .inr ⟨rfl, Option.some.inj (hp.symm.trans (update_self _ _ s.store.pending))⟩
    · exact .inl ((update_of_ne heq ..).symm.trans hp)
  have hsettle : ∀ (key' : String) (settlement : Settlement),
      (s.store.settle key' settlement).pending key = some p → s.store.pending key = some p := by
    intro key' settlement hp
    rw [IdempotencyStore.settle_pending] at hp
    by_cases heq : key = key'
    · subst heq
      cases (update_self ..).symm.trans hp
    · exact (update_of_ne heq ..).symm.trans hp
  cases h with
  | wait ms => exact .inl hp
  | pass => exact .inl hp
  | invalid => exact .inl hp
  | conflict => exact .inl hp
  | hit => exact .inl hp
  | join => exact .inl hp
  | start =>
    rcases hbegin hp with hp | ⟨rfl, rfl⟩
    · exact .inl hp
    · exact .inr ⟨_, ⟨false, update_self ..⟩, rfl, rfl⟩
  | awaited => exact .inl hp
  | retry =>
    rcases hbegin hp with hp | ⟨rfl, rfl⟩
    · exact .inl hp
    · exact .inr ⟨_, ⟨false, update_self ..⟩, rfl, rfl⟩
  | answer => exact .inl (hsettle _ _ hp)
  | finish => exact .inl hp
  | close => exact .inl hp
  | cut => exact .inl (hsettle _ _ hp)

/-- **A promise is settled through its key**, by whoever answers or is cut off under it. -/
theorem promises_turn {settlement : Settlement} (h : Turn s orderly s')
    (ho : s'.store.promises o = some settlement) :
    s.store.promises o = some settlement ∨ ∃ req p, s.store.pending req.key = some p ∧
      p.promise = o ∧ ((settlement = .rejected ∧ orderly = false) ∨ ∃ r response,
        settlement = .resolved response ∧ s.Warrants orderly s' (.answered r req response) ∧
        s'.journal = s.journal ++ [(s.now, .answered r req response)]) := by
  cases h with
  | wait ms => exact .inl ho
  | pass => exact .inl ho
  | invalid => exact .inl ho
  | conflict => exact .inl ho
  | hit => exact .inl ho
  | join => exact .inl ho
  | start => exact .inl ho
  | awaited => exact .inl ho
  | retry => exact .inl ho
  | answer statusCode body hhandling =>
    rcases IdempotencyStore.settle_promises ho with ho | ⟨p, hp, rfl, rfl⟩
    · exact .inl ho
    · exact .inr ⟨_, p, hp, rfl, .inr ⟨_, _, rfl, ⟨rfl, _, hhandling, rfl⟩, rfl⟩⟩
  | finish => exact .inl ho
  | close => exact .inl ho
  | cut =>
    rcases IdempotencyStore.settle_promises ho with ho | ⟨p, hp, rfl, rfl⟩
    · exact .inl ho
    · exact .inr ⟨_, p, hp, rfl, .inl ⟨rfl, rfl⟩⟩

/-- **Where all is in order and no promise is rejected, what is pending stays so until a request
under its key is answered.** -/
theorem pending_stays {p : PendingResponse} (h : Turn s true s')
    (hkept : ∀ o, s.store.promises o ≠ some .rejected) (hp : s.store.pending key = some p) :
    s'.store.pending key = some p ∨ ∃ r req response, req.key = key ∧
      s.requests r = some (.handling req false) ∧ s'.requests r = some (.handling req true) ∧
      s'.journal = s.journal ++ [(s.now, .answered r req response)] := by
  generalize horderly : true = orderly at h
  cases h with
  | wait ms => exact .inl hp
  | pass => exact .inl hp
  | invalid => exact .inl hp
  | conflict => exact .inl hp
  | hit => exact .inl hp
  | join => exact .inl hp
  | @start _ req _ _ _ hnone =>
    refine .inl ((update_of_ne (fun heq => ?_) _ _).trans hp)
    rw [heq, hnone] at hp
    cases hp
  | awaited => exact .inl hp
  | retry hwaiting hpromise => exact absurd hpromise (hkept _)
  | @answer r req ended statusCode body hhandling =>
    obtain rfl : ended = false := by simpa using horderly.symm
    by_cases heq : req.key = key
    · exact .inr ⟨r, req, _, heq, hhandling, update_self .., rfl⟩
    · refine .inl ?_
      change (s.store.settle _ _).pending key = some p
      rw [IdempotencyStore.settle_pending, update_of_ne (Ne.symm heq), hp]
  | finish => exact .inl hp
  | close => exact .inl hp
  | cut => cases horderly

/-! ## The answers of a journal -/

/-- The request was answered so. -/
def AnsweredIn (journal : Journal) (r : RequestId) (req : Request) (response : CachedResponse) :
    Prop := ∃ t, (t, .answered r req response) ∈ journal

/-- The entries that the answers of a journal make in the cache. -/
def answersOf (options : CacheOptions) (journal : Journal) :
    List (String × CacheEntry CachedResponse) :=
  journal.filterMap fun x =>
    match x.2 with
    | .answered _ req response => some (req.key, options.entry response x.1)
    | _ => none

/-- The keys under which requests were answered. -/
def answeredKeys (journal : Journal) : List String :=
  journal.filterMap fun x =>
    match x.2 with
    | .answered _ req _ => some req.key
    | _ => none

variable {options : CacheOptions} {journal past : Journal} {t : ℤ}

theorem answersOf_append (options : CacheOptions) (past rest : Journal) :
    answersOf options (past ++ rest) = answersOf options past ++ answersOf options rest :=
  List.filterMap_append

theorem map_fst_answersOf : (answersOf options journal).map Prod.fst = answeredKeys journal := by
  rw [answersOf, answeredKeys, List.map_filterMap]
  refine List.filterMap_congr fun x _ => ?_
  cases x.2 <;> rfl

theorem mem_answersOf {entry : CacheEntry CachedResponse}
    (h : (key, entry) ∈ answersOf options journal) :
    ∃ r req, AnsweredIn journal r req entry.value ∧ req.key = key := by
  obtain ⟨⟨t, x⟩, hx, hentry⟩ := List.mem_filterMap.mp h
  cases x with
  | answered r req response =>
    cases hentry
    exact ⟨r, req, ⟨t, hx⟩, rfl⟩
  | passed => cases hentry
  | refused => cases hentry
  | began => cases hentry
  | replayed => cases hentry
  | cut => cases hentry

theorem AnsweredIn.turn (h : AnsweredIn s.journal r req response) (hturn : Turn s orderly s') :
    AnsweredIn s'.journal r req response := by
  obtain ⟨t, ht⟩ := h
  rcases journal_turn hturn with heq | ⟨x, heq, -⟩
  · exact ⟨t, heq ▸ ht⟩
  · exact ⟨t, heq ▸ List.mem_append_left _ ht⟩

/-! ## What every run keeps -/

structure Sound (options : CacheOptions) (s : Service) : Prop where
  named : ∀ r req, Handles s r req → req.key ≠ ""
  pending : ∀ key p, s.store.pending key = some p → ∃ req, Handles s p.promise req ∧
    req.key = key ∧ buildRequestSignature req = p.signature
  waiting : ∀ r req promise, s.requests r = some (.waiting req promise) →
    ∃ req', Handles s promise req' ∧ req'.Same req
  resolved : ∀ o response, s.store.promises o = some (.resolved response) →
    ∃ req r req', Handles s o req ∧ AnsweredIn s.journal r req' response ∧ req'.key = req.key
  limits : s.store.completed.options = options
  cached : s.store.completed.Mirrors s.now (answersOf options s.journal)

/-- **The cache has the answers of the journal.** -/
theorem Sound.cached_turn (h : Sound options s) (hturn : Turn s orderly s') :
    s'.store.completed.options = options ∧
      s'.store.completed.Mirrors s'.now (answersOf options s'.journal) := by
  have hnote : ∀ {cache : BoundedTtlCache CachedResponse} (x : Happening),
      answersOf options [(s.now, x)] = [] → cache.Mirrors s.now (answersOf options s.journal) →
        cache.Mirrors s.now (answersOf options (s.journal ++ [(s.now, x)])) := by
    intro cache x hx hcache
    rwa [answersOf_append, hx, List.append_nil]
  have hlooked : ∀ req, (s.looked req).store.completed.options = options ∧
      (s.looked req).store.completed.Mirrors s.now (answersOf options s.journal) := fun req =>
    ⟨(congrArg BoundedTtlCache.options BoundedTtlCache.get_snd).trans h.limits,
      h.cached.get le_rfl req.key⟩
  cases hturn with
  | wait ms => exact ⟨h.limits, h.cached.later (Int.le_add_of_nonneg_right (Int.natCast_nonneg ms))⟩
  | pass => exact ⟨h.limits, hnote (.passed _) rfl h.cached⟩
  | invalid => exact ⟨h.limits, hnote (.refused _ _) rfl h.cached⟩
  | conflict hnew req => exact ⟨(hlooked req).1, hnote (.refused _ _) rfl (hlooked req).2⟩
  | @hit _ req => exact ⟨(hlooked req).1, hnote (.replayed _ _ _) rfl (hlooked req).2⟩
  | join => exact hlooked _
  | @start _ req => exact ⟨(hlooked req).1, hnote (.began _ _) rfl (hlooked req).2⟩
  | awaited => exact ⟨h.limits, hnote (.replayed _ _ _) rfl h.cached⟩
  | retry => exact ⟨h.limits, hnote (.began _ _) rfl h.cached⟩
  | @answer r req ended statusCode body hhandling =>
    have hset := h.cached.set le_rfl (h.named r req ⟨ended, hhandling⟩)
      (⟨buildRequestSignature req, statusCode, body⟩ : CachedResponse)
    rw [h.limits] at hset
    change (BoundedTtlCache.set _ req.key _ s.now).options = options ∧ BoundedTtlCache.Mirrors _
      (answersOf options (s.journal ++ [_])) (BoundedTtlCache.set _ req.key _ _)
    rw [IdempotencyStore.settle_completed, answersOf_append]
    exact ⟨h.limits, hset⟩
  | finish => exact ⟨h.limits, h.cached⟩
  | close => exact ⟨h.limits, h.cached⟩
  | cut =>
    change (IdempotencyStore.settle _ _ _).completed.options = options ∧
      BoundedTtlCache.Mirrors _ (answersOf options (s.journal ++ [_]))
        (IdempotencyStore.settle _ _ _).completed
    rw [IdempotencyStore.settle_completed]
    exact ⟨h.limits, hnote (.cut _) rfl h.cached⟩

theorem Sound.turn (h : Sound options s) (hturn : Turn s orderly s') : Sound options s' where
  named r req hr := by
    obtain ⟨ended, hr⟩ := hr
    rcases handling_turn hturn hr with ⟨ended, hr, -⟩ | ⟨⟨-, ⟨hkey, -⟩ | ⟨promise, hwait, -⟩⟩, -⟩
    · exact h.named r req ⟨ended, hr⟩
    · exact hkey
    · obtain ⟨req', hhandles, hkey, -⟩ := h.waiting r req promise hwait
      rw [← hkey]
      exact h.named promise req' hhandles
  pending key p hp := by
    rcases pending_turn hturn hp with hp | hnew
    · obtain ⟨req, hreq, hsame⟩ := h.pending key p hp
      exact ⟨req, hreq.turn hturn, hsame⟩
    · exact hnew
  waiting r req promise hr := by
    rcases waiting_turn hturn hr with hr | hp
    · obtain ⟨req', hreq', hsame⟩ := h.waiting r req promise hr
      exact ⟨req', hreq'.turn hturn, hsame⟩
    · obtain ⟨req', hreq', hkey, hsignature⟩ := h.pending _ _ hp
      exact ⟨req', hreq'.turn hturn, hkey, hsignature⟩
  resolved o response ho := by
    rcases promises_turn hturn ho with ho | ⟨req, p, hp, rfl, ⟨hrejected, -⟩ | ⟨r, _, heq, -, hj⟩⟩
    · obtain ⟨req, r, req', hhandles, hanswered, hkey⟩ := h.resolved o response ho
      exact ⟨req, r, req', hhandles.turn hturn, hanswered.turn hturn, hkey⟩
    · cases hrejected
    · cases heq
      obtain ⟨req', hreq', hkey, -⟩ := h.pending _ p hp
      exact ⟨req', r, req, hreq'.turn hturn,
        ⟨s.now, hj ▸ List.mem_append_right _ (List.mem_singleton_self _)⟩, hkey.symm⟩
  limits := (h.cached_turn hturn).1
  cached := (h.cached_turn hturn).2

theorem sound_new (options : CacheOptions) : Sound options (.new options) where
  named _ _ h := by
    obtain ⟨_, h⟩ := h
    cases h
  pending _ _ h := by cases h
  waiting _ _ _ h := by cases h
  resolved _ _ h := by cases h
  limits := rfl
  cached := .new options 0

/-- What is found in the cache was answered under the key. -/
theorem Sound.of_found (h : Sound options s)
    (hfound : (s.store.getCompleted key s.now).1 = some response) :
    ∃ r req, AnsweredIn s.journal r req response ∧ req.key = key := by
  obtain ⟨before, entry, rest, hlog, rfl, -⟩ := (h.cached.get_eq_some_iff le_rfl).mp hfound
  exact mem_answersOf (hlog ▸ List.mem_append_right _ List.mem_cons_self)

/-- A response is replayed to a request that was given to one under its key before. -/
def Given (past : Journal) : ℤ × Happening → Prop
  | (_, .replayed _ req response) => ∃ o req', AnsweredIn past o req' response ∧ req'.key = req.key
  | _ => True

theorem Sound.given_turn (h : Sound options s) (hgiven : Throughout Given s.journal)
    (hturn : Turn s orderly s') : Throughout Given s'.journal := by
  rcases journal_turn hturn with heq | ⟨x, heq, hx⟩
  · rwa [heq]
  rw [heq]
  refine hgiven.snoc ?_
  cases x with
  | replayed r req response =>
    rcases hx with ⟨hfound, -⟩ | ⟨promise, hwaiting, hpromise⟩
    · exact h.of_found hfound
    · obtain ⟨req₁, hreq₁, hkey₁, -⟩ := h.waiting r req promise hwaiting
      obtain ⟨req₂, o, req', hreq₂, hanswered, hkey⟩ := h.resolved promise response hpromise
      obtain rfl := hreq₁.unique hreq₂
      exact ⟨o, req', hanswered, hkey.trans hkey₁⟩
  | passed => trivial
  | refused => trivial
  | began => trivial
  | answered => trivial
  | cut => trivial

/-- **What is replayed was given to a request under the same key before.** -/
theorem replayed_was_given (options : CacheOptions) (events : List Event) :
    Throughout Given (run step (.new options) events).journal :=
  (run_invariant (I := fun s => Sound options s ∧ Throughout Given s.journal)
    (fun _ _ _ hstep h =>
      have ⟨_, hturn, _⟩ := turn_of_step hstep
      ⟨h.1.turn hturn, h.1.given_turn h.2 hturn⟩)
    events ⟨sound_new options, throughout_nil⟩).2

/-! ## Runs where all is in order -/

structure Tidy (s : Service) : Prop where
  kept : ∀ o, s.store.promises o ≠ some .rejected
  opened : ∀ r req, s.requests r = some (.handling req false) →
    s.store.pending req.key = some ⟨buildRequestSignature req, r⟩
  held : ∀ r req, Handles s r req → s.store.pending req.key = some ⟨buildRequestSignature req, r⟩ ∨
    ∃ response, AnsweredIn s.journal r req response
  began : ∀ r req, Handles s r req ↔ ∃ t, (t, .began r req) ∈ s.journal
  signed : ∀ r req response, AnsweredIn s.journal r req response →
    Handles s r req ∧ response.signature = buildRequestSignature req
  own : ∀ o response, s.store.promises o = some (.resolved response) →
    ∃ req, AnsweredIn s.journal o req response

theorem Tidy.opened_turn (h : Tidy s) (hturn : Turn s true s')
    (hr : s'.requests r = some (.handling req false)) :
    s'.store.pending req.key = some ⟨buildRequestSignature req, r⟩ := by
  rcases handling_turn hturn hr with ⟨ended, hbefore, hopen⟩ | ⟨-, -, hpending⟩
  · rw [hopen rfl] at hbefore
    have hp := h.opened r req hbefore
    rcases pending_stays hturn h.kept hp with hstays | ⟨o, req', response, hkey, ho, hended, -⟩
    · exact hstays
    · -- the request answered is the one that is pending, and its response has ended
      have hp' := h.opened o req' ho
      rw [hkey, hp] at hp'
      obtain rfl : r = o := congrArg PendingResponse.promise (Option.some.inj hp')
      rw [hr] at hended
      cases hended
  · exact hpending

theorem Tidy.held_turn (h : Tidy s) (hturn : Turn s true s') (hr : Handles s' r req) :
    s'.store.pending req.key = some ⟨buildRequestSignature req, r⟩ ∨
      ∃ response, AnsweredIn s'.journal r req response := by
  obtain ⟨ended, hr⟩ := hr
  rcases handling_turn hturn hr with ⟨ended, hbefore, -⟩ | ⟨-, -, hpending⟩
  · rcases h.held r req ⟨ended, hbefore⟩ with hp | ⟨response, hanswered⟩
    · rcases pending_stays hturn h.kept hp with hstays | ⟨o, req', response, hkey, ho, -, hj⟩
      · exact .inl hstays
      · have hp' := h.opened o req' ho
        rw [hkey, hp] at hp'
        obtain rfl : r = o := congrArg PendingResponse.promise (Option.some.inj hp')
        obtain rfl := Handles.unique ⟨ended, hbefore⟩ ⟨false, ho⟩
        exact .inr ⟨response, s.now, hj ▸ List.mem_append_right _ (List.mem_singleton_self _)⟩
    · exact .inr ⟨response, hanswered.turn hturn⟩
  · exact .inl hpending

theorem Tidy.turn (h : Tidy s) (hturn : Turn s true s') : Tidy s' where
  kept o ho := by
    rcases promises_turn hturn ho with ho | ⟨_, _, -, -, ⟨-, hbad⟩ | ⟨_, _, heq, -⟩⟩
    · exact h.kept o ho
    · exact Bool.false_ne_true hbad.symm
    · cases heq
  opened _ _ hr := h.opened_turn hturn hr
  held _ _ hr := h.held_turn hturn hr
  began r req := by
    constructor
    · rintro ⟨ended, hr⟩
      rcases handling_turn hturn hr with ⟨ended, hbefore, -⟩ | ⟨-, hj, -⟩
      · obtain ⟨t, ht⟩ := (h.began r req).mp ⟨ended, hbefore⟩
        rcases journal_turn hturn with heq | ⟨x, heq, -⟩
        · exact ⟨t, heq ▸ ht⟩
        · exact ⟨t, heq ▸ List.mem_append_left _ ht⟩
      · exact ⟨s.now, hj ▸ List.mem_append_right _ (List.mem_singleton_self _)⟩
    · rintro ⟨t, ht⟩
      rcases journal_turn hturn with heq | ⟨x, heq, hx⟩
      · exact ((h.began r req).mpr ⟨t, heq ▸ ht⟩).turn hturn
      rw [heq] at ht
      rcases List.mem_append.mp ht with ht | ht
      · exact ((h.began r req).mpr ⟨t, ht⟩).turn hturn
      · cases List.mem_singleton.mp ht
        exact ⟨false, hx.1⟩
  signed r req response hanswered := by
    obtain ⟨t, ht⟩ := hanswered
    rcases journal_turn hturn with heq | ⟨x, heq, hx⟩
    · exact (h.signed r req response ⟨t, heq ▸ ht⟩).imp_left fun hr => hr.turn hturn
    rw [heq] at ht
    rcases List.mem_append.mp ht with ht | ht
    · exact (h.signed r req response ⟨t, ht⟩).imp_left fun hr => hr.turn hturn
    · cases List.mem_singleton.mp ht
      obtain ⟨hsignature, ended, hr, -⟩ := hx
      exact ⟨Handles.turn ⟨ended, hr⟩ hturn, hsignature⟩
  own o response ho := by
    rcases promises_turn hturn ho with ho | ⟨req, p, hp, rfl, ⟨hbad, -⟩ | ⟨r, _, heq, hx, hj⟩⟩
    · obtain ⟨req, hanswered⟩ := h.own o response ho
      exact ⟨req, hanswered.turn hturn⟩
    · cases hbad
    · cases heq
      obtain ⟨-, ended, hr, hended⟩ := hx
      obtain rfl : ended = false := by simpa using hended.symm
      have hp' := h.opened r req hr
      rw [hp] at hp'
      cases hp'
      exact ⟨req, s.now, hj ▸ List.mem_append_right _ (List.mem_singleton_self _)⟩

theorem tidy_new (options : CacheOptions) : Tidy (.new options) where
  kept _ h := by cases h
  opened _ _ h := by cases h
  held _ _ h := by
    obtain ⟨_, h⟩ := h
    cases h
  began _ _ := by
    constructor
    · rintro ⟨_, h⟩
      cases h
    · rintro ⟨_, h⟩
      cases h
  signed _ _ _ h := by
    obtain ⟨_, h⟩ := h
    cases h
  own _ _ h := by cases h

/-- Where a request begins, all that began under its key were answered, and the answers have been
forgotten; where a response is replayed, a request like it began and was answered so. -/
def HandledOnce (options : CacheOptions) (past : Journal) : ℤ × Happening → Prop
  | (t, .began _ req) =>
    (∀ u o req', (u, .began o req') ∈ past → req'.key = req.key →
      ∃ response, AnsweredIn past o req' response) ∧
    ∀ before u o req' response rest, past = before ++ (u, .answered o req' response) :: rest →
      req'.key = req.key → u + options.ttlMs ≤ t ∨
        options.maxEntries ≤ ((answeredKeys rest).toFinset.erase req.key).card
  | (_, .replayed _ req response) => ∃ u o req', (u, .began o req') ∈ past ∧
    AnsweredIn past o req' response ∧ req'.Same req
  | _ => True

/-- What is not found in the cache has been forgotten. -/
theorem Sound.of_not_found (h : Sound options s)
    (hnone : (s.store.getCompleted req.key s.now).1 = none) {before rest : Journal}
    (hj : s.journal = before ++ (t, .answered o req' response) :: rest)
    (hkey : req'.key = req.key) :
    t + options.ttlMs ≤ s.now ∨
      options.maxEntries ≤ ((answeredKeys rest).toFinset.erase req.key).card := by
  have hlog : answersOf options s.journal = answersOf options before ++
      (req.key, options.entry response t) :: answersOf options rest := by
    rw [hj, answersOf_append, ← hkey]
    rfl
  have hforgotten := h.cached.of_get_eq_none le_rfl hnone hlog
  rwa [map_fst_answersOf, h.limits] at hforgotten

theorem Tidy.handledOnce_turn (h : Tidy s) (hs : Sound options s) (hturn : Turn s true s')
    (honce : Throughout (HandledOnce options) s.journal) :
    Throughout (HandledOnce options) s'.journal := by
  rcases journal_turn hturn with heq | ⟨x, heq, hx⟩
  · rwa [heq]
  rw [heq]
  refine honce.snoc ?_
  cases x with
  | began r req =>
    obtain ⟨-, ⟨-, hnone, hpending⟩ | ⟨promise, -, hrejected⟩⟩ := hx
    · refine ⟨fun u o req' hbegan hkey => ?_, fun before u o req' response rest hj hkey =>
        hs.of_not_found hnone hj hkey⟩
      refine (h.held o req' ((h.began o req').mpr ⟨u, hbegan⟩)).resolve_left fun hp => ?_
      rw [hkey, hpending] at hp
      cases hp
    · exact absurd hrejected (h.kept promise)
  | replayed r req response =>
    rcases hx with ⟨hfound, hsignature⟩ | ⟨promise, hwaiting, hpromise⟩
    · obtain ⟨o, req', hanswered, hkey⟩ := hs.of_found hfound
      obtain ⟨hhandles, hsigned⟩ := h.signed o req' response hanswered
      obtain ⟨u, hbegan⟩ := (h.began o req').mp hhandles
      exact ⟨u, o, req', hbegan, hanswered, hkey, hsigned.symm.trans hsignature⟩
    · obtain ⟨req₁, hreq₁, hsame⟩ := hs.waiting r req promise hwaiting
      obtain ⟨req', hanswered⟩ := h.own promise response hpromise
      obtain ⟨hhandles, -⟩ := h.signed promise req' response hanswered
      obtain rfl := hreq₁.unique hhandles
      obtain ⟨u, hbegan⟩ := (h.began promise _).mp hhandles
      exact ⟨u, promise, _, hbegan, hanswered, hsame⟩
  | passed => trivial
  | refused => trivial
  | answered => trivial
  | cut => trivial

/-- **Where every response ends once and before its connection closes, a request is handled only if
all those handled under its key were answered and the answers have expired or made room for those
of `maxEntries` other keys; what is replayed to it is the answer to a request like it.** -/
theorem handled_once (options : CacheOptions) (events : List Event)
    (horderly : Meets step Orderly (.new options) events) :
    Throughout (HandledOnce options) (run step (.new options) events).journal :=
  (horderly.invariant
    (I := fun s => Sound options s ∧ Tidy s ∧ Throughout (HandledOnce options) s.journal)
    (fun _ _ _ hstep hcall h => by
      obtain ⟨_, hturn, horder⟩ := turn_of_step hstep
      rw [horder hcall] at hturn
      exact ⟨h.1.turn hturn, h.2.1.turn hturn, h.2.1.handledOnce_turn h.1 hturn h.2.2⟩)
    ⟨sound_new options, tidy_new options, throughout_nil⟩).2.2

/-- Two requests alike are handled once; the third comes when the answer has expired. -/
theorem handled_once_twice :
    Throughout (HandledOnce ⟨30, 1⟩) (run step (.new ⟨30, 1⟩)
      [.arrive 0 ⟨"POST", "/api/lending", "/submit", "00000000-0000-1000-8000-000000000000", none⟩,
        .arrive 1 ⟨"POST", "/api/lending", "/submit", "00000000-0000-1000-8000-000000000000", none⟩,
        .json 0 200 .null, .resume 1, .close 0, .wait 30,
        .arrive 2 ⟨"POST", "/api/lending", "/submit", "00000000-0000-1000-8000-000000000000",
          none⟩]).journal := by
  refine handled_once ⟨30, 1⟩ _ ⟨fun _ => trivial, fun _ => trivial, fun _ req ended h => ?_,
    fun _ => trivial, fun _ req ended h => ?_, fun _ => trivial, fun _ => trivial, trivial⟩
  · exact (Phase.handling.inj (Option.some.inj h)).2.symm
  · exact (Phase.handling.inj (Option.some.inj h)).2.symm

end Service

end StellarLend.Api
