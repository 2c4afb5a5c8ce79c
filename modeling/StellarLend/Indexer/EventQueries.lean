import StellarLend.Foundations.ByteStream
import StellarLend.Foundations.Checked

/-!
# Indexer/EventQueries — what the events table is asked, and the keys of the answers

    EventQuery ── bytes ──► hasher ── hex ──► query:1f0…
        │
        └── rows that match, newest first ──► offset, limit ──► page

The cache keeps a page under a hash of its query.  The hasher is fed the contract address and the
event name, each if it is given and neither saying which of the two it is, and then the other four
parts, each with whether it is given.  Hence two queries are fed alike just if they are the same, or
one asks by the contract address what the other asks by the event name (`generateQueryHash_eq_iff`).
-/

namespace StellarLend.Indexer

open Foundations

/-! ## The table -/

/-- A row of the events table. -/
structure Event where
  id : String
  contractAddress : String
  eventName : String
  blockNumber : ℤ
  transactionHash : String
  logIndex : ℤ
  eventData : String
  indexedAt : ℕ
  createdAt : ℕ
  deriving DecidableEq, Repr

structure EventStats where
  totalEvents : ℕ
  uniqueContracts : ℕ
  latestBlock : ℤ
  timestamp : ℕ
  deriving DecidableEq, Repr

/-- `ORDER BY block_number DESC, log_index DESC`. -/
def Event.NotOlder (a b : Event) : Prop :=
  b.blockNumber < a.blockNumber ∨ a.blockNumber = b.blockNumber ∧ b.logIndex ≤ a.logIndex

instance (a b : Event) : Decidable (a.NotOlder b) :=
  inferInstanceAs (Decidable (_ ∨ _))

/-- The rows in an order in which the database may list them. -/
structure Listed (rows listing : List Event) : Prop where
  perm : listing.Perm rows
  newestFirst : listing.Pairwise Event.NotOlder

instance (rows listing : List Event) : Decidable (Listed rows listing) :=
  decidable_of_iff (listing.Perm rows ∧ listing.Pairwise Event.NotOlder)
    ⟨fun h => ⟨h.1, h.2⟩, fun h => ⟨h.perm, h.newestFirst⟩⟩

/-! ## Queries -/

structure EventQuery where
  contractAddress : Option String
  eventName : Option String
  fromBlock : Option UInt64
  toBlock : Option UInt64
  limit : Option Int64
  offset : Option Int64
  deriving DecidableEq

namespace EventQuery

def new : EventQuery := ⟨none, none, none, none, some 100, none⟩

def withContract (q : EventQuery) (address : String) : EventQuery :=
  { q with contractAddress := some address }

def withEventName (q : EventQuery) (name : String) : EventQuery := { q with eventName := some name }

def withBlockRange (q : EventQuery) (start stop : UInt64) : EventQuery :=
  { q with fromBlock := some start, toBlock := some stop }

def withPagination (q : EventQuery) (limit offset : Int64) : EventQuery :=
  { q with limit := some limit, offset := some offset }

/-- The rows that a query is about; the casts of its block numbers keep the bits. -/
def Matches (q : EventQuery) (row : Event) : Prop :=
  (∀ c ∈ q.contractAddress, row.contractAddress = c) ∧ (∀ n ∈ q.eventName, row.eventName = n) ∧
    (∀ b ∈ q.fromBlock, b.toInt64.toInt ≤ row.blockNumber) ∧
    ∀ b ∈ q.toBlock, row.blockNumber ≤ b.toInt64.toInt

instance (q : EventQuery) (row : Event) : Decidable (q.Matches row) :=
  inferInstanceAs (Decidable (_ ∧ _))

/-- The part of a listing that is asked for.  The database refuses negative limits and offsets. -/
def page (q : EventQuery) (listing : List Event) : Option (List Event) :=
  if (q.limit.getD 0).toInt < 0 ∨ (q.offset.getD 0).toInt < 0 then none
  else
    let rest := listing.drop (q.offset.getD 0).toInt.toNat
    some (match q.limit with
      | some limit => rest.take limit.toInt.toNat
      | none => rest)

/-- The query with its two names exchanged. -/
def exchanged (q : EventQuery) : EventQuery :=
  { q with contractAddress := q.eventName, eventName := q.contractAddress }

theorem exchanged_of_none {q : EventQuery} (hc : q.contractAddress = none)
    (hn : q.eventName = none) : q.exchanged = q := by
  obtain ⟨c, n, _, _, _, _⟩ := q
  cases hc
  cases hn
  rfl

end EventQuery

/-! ## What a query is hashed as -/

namespace EventQuery

/-- The names that are given, with nothing that says which they are. -/
def names (q : EventQuery) : List String := q.contractAddress.toList ++ q.eventName.toList

def numbers (q : EventQuery) : List (Option UInt64) :=
  [q.fromBlock, q.toBlock, q.limit.map Int64.toUInt64, q.offset.map Int64.toUInt64]

/-- What the hasher is fed, on a machine of little-endian 64-bit words. -/
def bytes (q : EventQuery) : List UInt8 :=
  ByteStream.texts q.names ++ ByteStream.options q.numbers

end EventQuery

/-- `{:x}`. -/
def hex (n : UInt64) : String := String.ofList (Nat.toDigits 16 n.toNat)

/-- `finish` is the hash of all that the hasher was fed. -/
def generateQueryHash (finish : List UInt8 → UInt64) (q : EventQuery) : String :=
  hex (finish q.bytes)

variable {q q' : EventQuery}

theorem toUInt64_injective : Function.Injective Int64.toUInt64 := by
  rintro ⟨x⟩ ⟨y⟩ rfl
  rfl

/-- Names in a row are those of the query, or of the query with its names exchanged. -/
theorem EventQuery.names_eq_iff {c n c' n' : Option String} :
    c'.toList ++ n'.toList = c.toList ++ n.toList ↔
      c' = c ∧ n' = n ∨ (c = none ∨ n = none) ∧ c' = n ∧ n' = c := by
  cases c <;> cases n <;> cases c' <;> cases n' <;> simp

/-- **The hasher is fed alike** for a query and for itself, and for two that give one name each, the
same as the contract address and as the event name. -/
theorem EventQuery.bytes_eq_iff : q'.bytes = q.bytes ↔
    q' = q ∨ (q.contractAddress = none ∨ q.eventName = none) ∧ q' = q.exchanged := by
  have hbytes : q'.bytes = q.bytes ↔ q'.names = q.names ∧ q'.numbers = q.numbers :=
    ⟨ByteStream.texts_append_options rfl, fun h => by rw [bytes, bytes, h.1, h.2]⟩
  rw [hbytes, names, names, names_eq_iff]
  obtain ⟨c, n, start, stop, limit, offset⟩ := q
  obtain ⟨c', n', start', stop', limit', offset'⟩ := q'
  have hnumbers : numbers ⟨c', n', start', stop', limit', offset'⟩ =
      numbers ⟨c, n, start, stop, limit, offset⟩ ↔
        start' = start ∧ stop' = stop ∧ limit' = limit ∧ offset' = offset := by
    simp only [numbers, List.cons.injEq, and_true]
    rw [(Option.map_injective toUInt64_injective).eq_iff,
      (Option.map_injective toUInt64_injective).eq_iff]
  rw [hnumbers, exchanged, mk.injEq, mk.injEq]
  simp only [or_and_right, and_assoc]

theorem digitChar_inj : ∀ m < 16, ∀ n < 16, Nat.digitChar m = Nat.digitChar n → m = n := by decide

theorem singleton_ne_toDigits_append {n : ℕ} {c d : Char} : [c] ≠ Nat.toDigits 16 n ++ [d] :=
  fun h => by
    have hlen := congrArg List.length h
    have hpos := Nat.length_toDigits_pos (b := 16) (n := n)
    rw [List.length_append, List.length_singleton, List.length_singleton] at hlen
    omega

theorem toDigits_inj {m n : ℕ} (h : Nat.toDigits 16 m = Nat.toDigits 16 n) : m = n := by
  induction m using Nat.strong_induction_on generalizing n with
  | _ m ih =>
    rw [Nat.toDigits_eq_if (by decide), Nat.toDigits_eq_if (n := n) (by decide)] at h
    split at h <;> split at h
    next hm hn => exact digitChar_inj m hm n hn (List.cons.inj h).1
    next => exact absurd h singleton_ne_toDigits_append
    next => exact absurd h.symm singleton_ne_toDigits_append
    next hm hn =>
      obtain ⟨hrest, hlast⟩ := List.append_inj' h rfl
      have hdiv := ih (m / 16) (Nat.div_lt_self (by omega) (by decide)) hrest
      have hmod := digitChar_inj (m % 16) (Nat.mod_lt _ (by decide)) (n % 16)
        (Nat.mod_lt _ (by decide)) (List.cons.inj hlast).1
      omega

theorem hex_inj {m n : UInt64} (h : hex m = hex n) : m = n :=
  UInt64.toNat_inj.mp (toDigits_inj (String.ofList_inj.mp h))

/-- **Queries share a key**, whatever the hash is, just if the hasher is fed alike. -/
theorem generateQueryHash_eq_iff (q q' : EventQuery) :
    (∀ finish, generateQueryHash finish q' = generateQueryHash finish q) ↔
      q' = q ∨ (q.contractAddress = none ∨ q.eventName = none) ∧ q' = q.exchanged := by
  rw [← EventQuery.bytes_eq_iff]
  refine ⟨fun h => ?_, fun h finish => by rw [generateQueryHash, generateQueryHash, h]⟩
  have hfinish := hex_inj (h fun bs => if bs = q.bytes then 1 else 0)
  by_contra hne
  simp [hne] at hfinish

/-! ## What the table answers -/

/-- An order in which the database lists rows, and its clock. -/
structure Reading where
  listing : List Event
  now : ℕ

def WEEK : ℕ := 7 * 24 * 60 * 60 * 1000

namespace EventRepository

variable (rows : List Event) (reading : Reading)

def queryEvents (q : EventQuery) : Option (List Event) :=
  if Listed (rows.filter fun row => q.Matches row) reading.listing then q.page reading.listing
  else none

def getEvent (id : String) : Option Event := rows.find? fun row => row.id = id

def getEventStats : EventStats where
  totalEvents := rows.length
  uniqueContracts := (rows.map Event.contractAddress).dedup.length
  latestBlock := ((rows.map Event.blockNumber).max?).getD 0
  timestamp := reading.now

/-- The newest rows of a contract among those of the last week. -/
def getRecentEventsByContract (contractAddress : String) (limit : UInt32) : Option (List Event) :=
  let recent := rows.filter fun row =>
    row.contractAddress = contractAddress ∧ reading.now < row.indexedAt + WEEK
  if Listed recent reading.listing then some (reading.listing.take limit.toNat) else none

def getEventsByTypeAndRange (contractAddress eventName : String) (fromBlock toBlock : UInt64) :
    Option (List Event) :=
  let q := ((EventQuery.new.withContract contractAddress).withEventName eventName).withBlockRange
    fromBlock toBlock
  if Listed (rows.filter fun row => q.Matches row) reading.listing then some reading.listing
  else none

end EventRepository

inductive Answer where
  | events (events : List Event)
  | event (event : Event)
  | stats (stats : EventStats)
  deriving DecidableEq

/-! ## Requests and their keys -/

/-- What is looked up in the cache first. -/
inductive Request where
  | queryEvents (q : EventQuery)
  | getEvent (id : String)
  | getStatistics
  | getRecentContractEvents (contractAddress : String) (limit : Option UInt32)
  | getTypedEventsInRange (contractAddress eventName : String) (fromBlock toBlock : UInt64)

def eventKey (id : String) : String := "event:" ++ id

def queryKey (queryHash : String) : String := "query:" ++ queryHash

def statsKey : String := "stats:global"

namespace Request

def key (finish : List UInt8 → UInt64) : Request → String
  | queryEvents q => queryKey (generateQueryHash finish q)
  | getEvent id => eventKey id
  | getStatistics => statsKey
  | getRecentContractEvents contractAddress limit =>
    queryKey ("recent_contract:" ++ contractAddress ++ ":" ++ (limit.getD 50).toNat.repr)
  | getTypedEventsInRange contractAddress eventName fromBlock toBlock =>
    queryKey ("typed_range:" ++ (contractAddress ++ ":" ++ eventName) ++ ":" ++
      fromBlock.toNat.repr ++ "-" ++ toBlock.toNat.repr)

def answer (rows : List Event) (reading : Reading) : Request → Option Answer
  | queryEvents q => (EventRepository.queryEvents rows reading q).map .events
  | getEvent id => (EventRepository.getEvent rows id).map .event
  | getStatistics => some (.stats (EventRepository.getEventStats rows reading))
  | getRecentContractEvents contractAddress limit =>
    (EventRepository.getRecentEventsByContract rows reading contractAddress
      (limit.getD 50)).map .events
  | getTypedEventsInRange contractAddress eventName fromBlock toBlock =>
    (EventRepository.getEventsByTypeAndRange rows reading contractAddress eventName fromBlock
      toBlock).map .events

/-- Requests that find what the other one has put. -/
def Alike (finish : List UInt8 → UInt64) : Request → Request → Prop
  | queryEvents q, queryEvents q' => finish q.bytes = finish q'.bytes
  | getEvent id, getEvent id' => id = id'
  | getStatistics, getStatistics => True
  | getRecentContractEvents c limit, getRecentContractEvents c' limit' =>
    c = c' ∧ limit.getD 50 = limit'.getD 50
  | getTypedEventsInRange c n start stop, getTypedEventsInRange c' n' start' stop' =>
    c ++ ":" ++ n = c' ++ ":" ++ n' ∧ start = start' ∧ stop = stop'
  | _, _ => False

end Request

/-! ### Digits -/

theorem isDigit_of_mem_repr {n : ℕ} {c : Char} (h : c ∈ n.repr.toList) : c.isDigit := by
  rw [Nat.toList_repr] at h
  exact Nat.isDigit_of_mem_toDigits (by decide) (by decide) h

theorem repr_inj {m n : ℕ} (h : m.repr.toList = n.repr.toList) : m = n := by
  rw [Nat.toList_repr, Nat.toList_repr] at h
  rw [← Nat.ofDigitChars_ten_toDigits (n := m), h, Nat.ofDigitChars_ten_toDigits]

theorem digitChar_ne : ∀ d < 16, Nat.digitChar d ≠ ':' := by decide

theorem colon_notMem_hex (n : UInt64) : ':' ∉ (hex n).toList := by
  rw [hex, String.toList_ofList]
  induction n.toNat using Nat.strong_induction_on with
  | _ n ih =>
    rw [Nat.toDigits_eq_if (by decide)]
    split
    next hn => exact fun h => digitChar_ne n hn (List.mem_singleton.mp h).symm
    next hn =>
      refine fun h => (List.mem_append.mp h).elim (ih (n / 16) (Nat.div_lt_self (by omega)
        (by decide))) fun hlast => ?_
      exact digitChar_ne (n % 16) (Nat.mod_lt _ (by decide)) (List.mem_singleton.mp hlast).symm

/-! ### Keys -/

namespace Request

variable {finish : List UInt8 → UInt64} {r r' : Request}

theorem queryKey_inj {h h' : String} (heq : queryKey h = queryKey h') : h = h' := by
  have hlist := congrArg String.toList heq
  rw [queryKey, queryKey, String.toList_append, String.toList_append] at hlist
  exact String.toList_inj.mp (List.append_cancel_left hlist)

/-- A hash has no colon in it, and the other keys do. -/
theorem generateQueryHash_ne {q : EventQuery} {s : String} (hs : ':' ∈ s.toList) :
    generateQueryHash finish q ≠ s := fun h => colon_notMem_hex (finish q.bytes) (by
  rw [generateQueryHash] at h
  rwa [h])

/-- What the last number of a key is. -/
theorem append_repr_inj {c : Char} (hc : ¬ c.isDigit) {s s' : List Char} {m n : ℕ}
    (h : s ++ c :: m.repr.toList = s' ++ c :: n.repr.toList) : s = s' ∧ m = n := by
  obtain ⟨hs, hn⟩ := ByteStream.append_cons_inj' (fun hmem => hc (isDigit_of_mem_repr hmem))
    (fun hmem => hc (isDigit_of_mem_repr hmem)) h
  exact ⟨hs, repr_inj hn⟩

theorem alike_of_key (h : key finish r = key finish r') : Alike finish r r' := by
  have hlist := congrArg String.toList h
  cases r with
  | queryEvents q =>
    cases r' with
    | queryEvents q' => exact hex_inj (queryKey_inj h)
    | getRecentContractEvents => exact absurd (queryKey_inj h) (generateQueryHash_ne (by simp))
    | getTypedEventsInRange => exact absurd (queryKey_inj h) (generateQueryHash_ne (by simp))
    | _ => simp [key, queryKey, eventKey, statsKey] at hlist
  | getEvent id =>
    cases r' with
    | getEvent id' => exact String.toList_inj.mp (by simpa [key, eventKey] using hlist)
    | _ => simp [key, queryKey, eventKey, statsKey] at hlist
  | getStatistics =>
    cases r' with
    | getStatistics => trivial
    | _ => simp [key, queryKey, eventKey, statsKey] at hlist
  | getRecentContractEvents c limit =>
    cases r' with
    | queryEvents => exact absurd (queryKey_inj h).symm (generateQueryHash_ne (by simp))
    | getRecentContractEvents c' limit' =>
      simp only [key, queryKey, String.toList_append, List.append_assoc] at hlist
      have hrest := List.append_cancel_left (List.append_cancel_left hlist)
      obtain ⟨hc, hlimit⟩ := append_repr_inj (by decide) hrest
      exact ⟨String.toList_inj.mp hc, UInt32.toNat_inj.mp hlimit⟩
    | _ => simp [key, queryKey, eventKey, statsKey] at hlist
  | getTypedEventsInRange c n start stop =>
    cases r' with
    | queryEvents => exact absurd (queryKey_inj h).symm (generateQueryHash_ne (by simp))
    | getTypedEventsInRange c' n' start' stop' =>
      have hrest : (c.toList ++ ':' :: n.toList ++ ':' :: start.toNat.repr.toList) ++
          '-' :: stop.toNat.repr.toList = (c'.toList ++ ':' :: n'.toList ++
            ':' :: start'.toNat.repr.toList) ++ '-' :: stop'.toNat.repr.toList := by
        simpa [key, queryKey] using hlist
      obtain ⟨hrest, hstop⟩ := append_repr_inj (by decide) hrest
      obtain ⟨hnames, hstart⟩ := append_repr_inj (by decide) hrest
      exact ⟨String.toList_inj.mp (by simpa using hnames), UInt64.toNat_inj.mp hstart,
        UInt64.toNat_inj.mp hstop⟩
    | _ => simp [key, queryKey, eventKey, statsKey] at hlist

theorem key_of_alike (h : Alike finish r r') : key finish r = key finish r' := by
  revert h
  fun_cases Alike finish r r' with
  | case1 q q' =>
    intro h
    rw [key, key, generateQueryHash, generateQueryHash, h]
  | case2 id id' => exact congrArg eventKey
  | case3 => exact fun _ => rfl
  | case4 c limit c' limit' =>
    rintro ⟨rfl, hlimit⟩
    rw [key, key, hlimit]
  | case5 c n start stop c' n' start' stop' =>
    rintro ⟨hnames, rfl, rfl⟩
    rw [key, key, hnames]
  | case6 => exact False.elim

/-- **Requests share a key just if they are alike.** -/
theorem key_eq_iff : key finish r = key finish r' ↔ Alike finish r r' :=
  ⟨alike_of_key, key_of_alike⟩

end Request

end StellarLend.Indexer
