import StellarLend.Foundations.ReadThrough
import StellarLend.Indexer.EventQueries

/-!
# Indexer/QueryService — event queries behind the cache

    queryEvents ── GET ──┬── hit ───────────────────────────► page
                         └── miss ── SELECT ── SETEX ───────► page
                                        ▲        │
    indexers ───────────── INSERT, DELETE      SCAN query:*, DEL

The service reads through the cache, and the indexers invalidate it by a scan for the keys and a
deletion of those found.  A service locks its cache while it asks it and while it puts, but not
between, and others have the cache too; so any steps may come between any two.
-/

namespace StellarLend.Indexer

open Foundations

/-! ## The service -/

/-- The lives of answers in the cache, in seconds, with the hash of what a hasher is fed and the
text of an answer. -/
structure QueryService where
  eventTtl : ℕ
  statsTtl : ℕ
  queryTtl : ℕ
  finish : List UInt8 → UInt64
  toJson : Answer → String

/-- What the steps leave. -/
abbrev Cached : Type := ReadThrough.State Request String (List Event) String

/-- What is written of the steps. -/
abbrev Entry : Type := ReadThrough.Event Request String (List Event) String

/-- One step at the cache or the table. -/
abbrev CacheOp : Type := ReadThrough.Op Request String (List Event) Reading

namespace QueryService

variable (service : QueryService)

/-- How long an answer stays, in milliseconds. -/
def ttl : Request → ℕ
  | .getEvent _ => 1000 * service.eventTtl
  | .getStatistics => 1000 * service.statsTtl
  | _ => 1000 * service.queryTtl

def spec : ReadThrough.Spec Request String (List Event) Reading String where
  key := Request.key service.finish
  ttl := service.ttl
  answer r rows reading := (r.answer rows reading).map service.toJson

/-- The steps of any calls and invalidations, from an empty cache. -/
def after (rows : List Event) (ops : List CacheOp) : Cached :=
  ReadThrough.State.after service.spec rows ops

/-! ## Lookups by query -/

def getContractEvents (contractAddress : String) (limit offset : Int64) : EventQuery :=
  (EventQuery.new.withContract contractAddress).withPagination limit offset

def getRecentEvents (limit : Int64) : EventQuery := EventQuery.new.withPagination limit 0

def getEventsByName (eventName : String) (fromBlock toBlock : Option UInt64) : EventQuery :=
  let query := EventQuery.new.withEventName eventName
  match fromBlock, toBlock with
  | some start, some stop => query.withBlockRange start stop
  | _, _ => query

def getEventCount (contractAddress : String) : EventQuery :=
  (EventQuery.new.withContract contractAddress).withPagination 10000 0

/-- The queries that the service itself makes. -/
inductive Made : EventQuery → Prop
  | contract (c limit offset) : Made (getContractEvents c limit offset)
  | recent (limit) : Made (getRecentEvents limit)
  | name (n start stop) : Made (getEventsByName n start stop)
  | count (c) : Made (getEventCount c)

/-! ## Invalidation -/

/-- `query:*`. -/
def isQueryKey (key : String) : Bool := "query:".toList.isPrefixOf key.toList

def invalidateEvent (id : String) : CacheOp := .drop (eventKey id)

/-- A scan for the keys of queries, and the deletion of those it found.  A scan that breaks off is
none of these: what it found by then is dropped, key by key. -/
def invalidateQueries (n : ℕ) (found : List String) : List CacheOp :=
  [.beginSweep n isQueryKey, .list n found, .endSweep n]

def invalidateStats : CacheOp := .drop statsKey

def invalidateCache (n : ℕ) (found : List String) : List CacheOp :=
  invalidateQueries n found ++ [invalidateStats]

section Noted

variable {s s' : Cached}

/-- What the invalidation of an event notes. -/
theorem journal_invalidateEvent {id : String}
    (h : ReadThrough.State.step service.spec (invalidateEvent id) s = some s') :
    s'.journal = s.journal ++ [.dropped (eventKey id)] := ReadThrough.State.step_noted h rfl

/-- **What a whole invalidation notes**: a sweep of the queries, and a drop of the statistics. -/
theorem journal_invalidateCache {n : ℕ} {found : List String}
    (h : chain (ReadThrough.State.step service.spec) s (invalidateCache n found) = some s') :
    s'.journal = s.journal ++ [.began n isQueryKey, .ended n, .dropped statsKey] :=
  ReadThrough.State.chain_noted h (by simp [invalidateCache, invalidateQueries, invalidateStats,
    ReadThrough.Op.ofCall])

end Noted

/-! ## Keys of queries -/

/-- Requests whose answers an invalidation of the queries is about. -/
def IsQuery : Request → Prop
  | .getEvent _ => False
  | .getStatistics => False
  | _ => True

theorem isQueryKey_queryKey (h : String) : isQueryKey (queryKey h) = true := by
  rw [isQueryKey, queryKey, String.toList_append, List.isPrefixOf_iff_prefix]
  exact List.prefix_append _ _

theorem isQueryKey_key {r : Request} (h : IsQuery r) :
    isQueryKey (r.key service.finish) = true := by
  cases r with
  | getEvent => cases h
  | getStatistics => cases h
  | _ => exact isQueryKey_queryKey _

/-- Those by the event name have no offset, and the others no event name. -/
theorem Made.parts {q : EventQuery} (h : Made q) :
    q.contractAddress = none ∧ q.offset = none ∨ q.eventName = none ∧ q.offset ≠ none := by
  cases h with
  | contract c limit offset => exact .inr ⟨rfl, Option.some_ne_none _⟩
  | recent limit => exact .inr ⟨rfl, Option.some_ne_none _⟩
  | name n start stop =>
    cases start with
    | none => exact .inl ⟨rfl, rfl⟩
    | some start => cases stop <;> exact .inl ⟨rfl, rfl⟩
  | count c => exact .inr ⟨rfl, Option.some_ne_none _⟩

/-- **The service's own queries** are not taken for one another: of two that the hasher is fed
alike, each is the other. -/
theorem Made.eq_of_bytes {q q' : EventQuery} (h : Made q) (h' : Made q')
    (hbytes : q'.bytes = q.bytes) : q' = q := by
  rcases EventQuery.bytes_eq_iff.mp hbytes with heq | ⟨-, rfl⟩
  · exact heq
  · have hnames : q.contractAddress = none ∧ q.eventName = none := by
      rcases h.parts with ⟨hc, hoffset⟩ | ⟨hn, hoffset⟩
      · exact ⟨hc, h'.parts.elim And.left fun hparts => absurd hoffset hparts.2⟩
      · exact ⟨h'.parts.elim (fun hparts => absurd hparts.2 hoffset) And.left, hn⟩
    exact EventQuery.exchanged_of_none hnames.1 hnames.2

/-! ## What is handed out -/

variable {service}

/-- After `j` no one has dropped the key of the request, and no one has invalidated the queries, if
it is one. -/
structure Standing (service : QueryService) (past : List Entry) (j : ℕ) (r : Request) : Prop where
  undropped : ∀ d, j < d → past[d]? ≠ some (.dropped (r.key service.finish))
  valid : IsQuery r → ∀ b d n : ℕ, j < b → past[b]? = some (.began n isQueryKey) →
    past[d]? ≠ some (.ended n)

/-- **What stands after a whole invalidation was put after it began.** -/
theorem Standing.le_of_invalidated {past more : List Entry} {j n : ℕ} {r : Request}
    (h : Standing service (past ++ [.began n isQueryKey, .ended n, .dropped statsKey] ++ more) j r)
    (hr : IsQuery r ∨ r = .getStatistics) : past.length ≤ j := by
  by_contra hlt
  have hbefore : j < past.length := not_le.mp hlt
  rcases hr with hquery | rfl
  · exact h.valid hquery past.length (past.length + 1) n hbefore (by simp) (by simp)
  · exact h.undropped (past.length + 2) (by omega) (by simp [Request.key])

/-- The text is what the table, as it was then, answered. -/
def Answered (service : QueryService) (rows : List Event) (past : List Entry) (r : Request)
    (text : String) : Prop :=
  ∃ reading answer, r.answer (ReadThrough.storeAt rows past) reading = some answer ∧
    text = service.toJson answer

/-- What stands behind a step: a hit is an answer that some call read at `i` and put at `j`. -/
def Backed (service : QueryService) (rows : List Event) (past : List Entry) : Entry → Prop
  | .hit _ r text time => ∃ i j call r' put, i < j ∧
      past[i]? = some (.read call r' text) ∧ past[j]? = some (.put call r' text put) ∧
      r'.Alike service.finish r ∧ Answered service rows (past.take i) r' text ∧
      time ≤ put + service.ttl r ∧ Standing service past j r
  | .read _ r text => Answered service rows past r text
  | _ => True

theorem answered_of_answer {rows : List Event} {past : List Entry} {r : Request} {text : String}
    (h : ∃ reading, service.spec.answer r (ReadThrough.storeAt rows past) reading = some text) :
    Answered service rows past r text := by
  obtain ⟨reading, htext⟩ := h
  obtain ⟨answer, hanswer, rfl⟩ := Option.map_eq_some_iff.mp htext
  exact ⟨reading, answer, hanswer, rfl⟩

theorem ttl_of_alike {r r' : Request} (h : r'.Alike service.finish r) :
    service.ttl r' = service.ttl r := by
  revert h
  fun_cases Request.Alike service.finish r' r <;> first | exact fun _ => rfl | exact False.elim

/-- **What the service hands out is an answer of the table**, and if it was in the cache, then one
that was put there within its life and has not been invalidated since. -/
theorem handed_out (service : QueryService) (rows : List Event) (ops : List CacheOp) :
    Throughout (Backed service rows) (service.after rows ops).journal := by
  intro past x rest hlog
  have hwarranted := (ReadThrough.sound_after rows ops).warranted past x rest hlog
  cases x with
  | hit call r text time =>
    obtain ⟨i, j, call', r', put, hput, hkey, hlive, hkept⟩ := hwarranted
    have halike := Request.key_eq_iff.mp hkey
    refine ⟨i, j, call', r', put, hput.lt, hput.read.noted, hput.put, halike,
      answered_of_answer hput.read.answered, ttl_of_alike halike ▸ hlive, hkept.undropped, ?_⟩
    intro hquery b d n hb hbegan hended
    have hout := hkept.unswept b d n isQueryKey hb hbegan hended
    rw [show service.spec.key r = r.key service.finish from rfl, isQueryKey_key service hquery]
      at hout
    cases hout
  | read call r text => exact answered_of_answer hwarranted
  | _ => trivial

end QueryService

end StellarLend.Indexer
