import Mathlib.Data.List.AList
import StellarLend.Foundations.Call
import StellarLend.Foundations.Checked
import StellarLend.Foundations.Keyed
import StellarLend.Foundations.Run

/-!
# Common/Cache — a cache in the contract's storage, evicting what was used least recently

`common/src/cache.rs`.  Two entries of the storage describe one cache: the map of the values, and
the keys in the order of their use.

    values   { btc ↦ 7 until 40,  eth ↦ 5 until 35,  xlm ↦ 9 until 52 }
    order    [ eth, xlm, btc ]                          ↑ used last

`env` of the source is read for the ledger time alone.  Where the source adds without checking, an
overflow traps.

The order of the keys is a recency list of the keys that have values, and what is evicted is its
head.  Four calls keep it so; a read of an expired entry does not, since the key of the value it
removes stays in the order.  From then on the order is longer than the map, and the stale key may be
evicted in place of a live one, or be the very key that is being set.
-/

namespace StellarLend.Common

open Foundations Call

def CACHE_TTL_SECS : ℕ := 30
def CACHE_MAX_ENTRIES : ℕ := 64

inductive CacheError where
  | invalidTtl
  deriving DecidableEq, Repr

structure CacheEntry where
  value : ℤ
  expiresAt : ℕ
  deriving DecidableEq, Repr

/-- The map of the values under `CACHE_VALUES`. -/
abbrev CacheValues : Type := AList fun _ : String => CacheEntry

/-- The four keys of the cache; an absent one reads as empty, or as zero. -/
structure CacheStorage where
  values : CacheValues
  order : List String
  hits : ℕ
  misses : ℕ

def CacheStorage.empty : CacheStorage := ⟨∅, [], 0, 0⟩

/-- An invocation, at a ledger time. -/
abbrev CacheInvocation (ε α : Type) : Type := Call ℕ CacheStorage ε α

/-! ## Recency -/

def touchKey (key : String) (s : CacheStorage) : CacheStorage :=
  { s with order := s.order.erase key ++ [key] }

/-- The loop of `evict_lru_if_needed`, over the order it has read. -/
def evictLruIfNeeded : CacheValues → List String → CacheValues × List String
  | values, [] => (values, [])
  | values, lruKey :: order =>
    if CACHE_MAX_ENTRIES < values.keys.length then evictLruIfNeeded (values.erase lruKey) order
    else (values, lruKey :: order)

/-- Both records lose the key. -/
def invalidate (key : String) (s : CacheStorage) : CacheStorage :=
  { s with values := s.values.erase key, order := s.order.erase key }

/-! ## Setting and getting -/

def setCached (key : String) (value : ℤ) (ttlSecs : Option ℕ) :
    CacheInvocation CacheError Unit := do
  let ttl := ttlSecs.getD CACHE_TTL_SECS
  failIf (ttl = 0) .invalidTtl
  let now ← asks id
  let expiresAt ← orTrap (U64.checkedAdd now ttl)
  store fun s =>
    let (values, order) := evictLruIfNeeded (s.values.insert key ⟨value, expiresAt⟩) s.order
    { s with values := values, order := order }
  store (touchKey key)

/-- The end of `get_cached` where nothing is found. -/
def recordMiss : CacheInvocation CacheError (Option ℤ) := do
  let misses ← view CacheStorage.misses
  let misses ← orTrap (U64.checkedAdd misses 1)
  store fun s => { s with misses := misses }
  pure none

def getCached (key : String) : CacheInvocation CacheError (Option ℤ) := do
  let now ← asks id
  let values ← view CacheStorage.values
  match values.lookup key with
  | some entry =>
    if now ≤ entry.expiresAt then do
      let hits ← view CacheStorage.hits
      let hits ← orTrap (U64.checkedAdd hits 1)
      store fun s => { s with hits := hits }
      store (touchKey key)
      pure (some entry.value)
    else do
      -- An expired entry leaves the values, and its key stays in the order.
      store fun s => { s with values := s.values.erase key }
      recordMiss
  | none => recordMiss

/-! ## Runs

The run keeps, beside the storage, which keys were used, one after another, and the entry each key
was last given, unless it was invalidated since. -/

structure CacheRun where
  storage : CacheStorage
  used : List String
  given : String → Option CacheEntry

def CacheRun.empty : CacheRun := ⟨.empty, [], fun _ => none⟩

inductive CacheOp where
  | setCached (key : String) (value : ℤ) (ttlSecs : Option ℕ)
  | getCached (key : String)
  | invalidate (key : String)
  deriving DecidableEq

structure CacheCall where
  now : ℕ
  op : CacheOp
  deriving DecidableEq

/-- A call that succeeds.  A key is used when it is set and when its value is found. -/
def CacheCall.step (call : CacheCall) (c : CacheRun) : Option CacheRun :=
  match call.op with
  | .setCached key value ttlSecs =>
    (commit (setCached key value ttlSecs) call.now c.storage).map fun storage =>
      ⟨storage, c.used ++ [key],
        Function.update c.given key (some ⟨value, call.now + ttlSecs.getD CACHE_TTL_SECS⟩)⟩
  | .getCached key =>
    match getCached key call.now c.storage with
    | .ok (some _) storage => some ⟨storage, c.used ++ [key], c.given⟩
    | .ok none storage => some ⟨storage, c.used, c.given⟩
    | .err _ _ => none
    | .trap => none
  | .invalidate key =>
    some ⟨invalidate key c.storage, c.used, Function.update c.given key none⟩

/-- The cache after a sequence of calls. -/
def cacheAfter (calls : List CacheCall) : CacheRun := run CacheCall.step .empty calls

/-! ## The order is a recency list of the keys -/

section

open Foundations Call Function

variable {s : CacheStorage} {c d : CacheRun} {key : String} {now : ℕ} {t : CacheStorage}
  {values : CacheValues} {entry : CacheEntry}

/-! ## What the calls do -/

theorem setCached_ok {value : ℤ} {ttlSecs : Option ℕ} {u : Unit} :
    setCached key value ttlSecs now s = .ok u t ↔
      ttlSecs.getD CACHE_TTL_SECS ≠ 0 ∧ now + ttlSecs.getD CACHE_TTL_SECS ≤ U64.MAX ∧
        touchKey key
          { s with
            values := (evictLruIfNeeded
              (s.values.insert key ⟨value, now + ttlSecs.getD CACHE_TTL_SECS⟩) s.order).1
            order := (evictLruIfNeeded
              (s.values.insert key ⟨value, now + ttlSecs.getD CACHE_TTL_SECS⟩) s.order).2 } =
          t := by
  simp only [setCached, failIf_seq, asks_seq, orTrap_seq, store_seq, store_ok,
    U64.checkedAdd_eq_some, id, and_assoc, exists_and_left, exists_eq_left']

theorem recordMiss_ok {found : Option ℤ} :
    recordMiss now s = .ok found t ↔
      s.misses + 1 ≤ U64.MAX ∧ none = found ∧ { s with misses := s.misses + 1 } = t := by
  simp only [recordMiss, view_seq, orTrap_seq, store_seq, pure_ok, U64.checkedAdd_eq_some,
    and_assoc, exists_and_left, exists_eq_left']

/-- A live entry is found, counted and used. -/
theorem getCached_live (hentry : s.values.lookup key = some entry) (hlive : now ≤ entry.expiresAt)
    {found : Option ℤ} :
    getCached key now s = .ok found t ↔
      s.hits + 1 ≤ U64.MAX ∧ some entry.value = found ∧
        touchKey key { s with hits := s.hits + 1 } = t := by
  simp only [getCached, asks_seq, view_seq, id, and_assoc, exists_and_left, exists_eq_left', hentry,
    if_pos hlive, orTrap_seq, store_seq, pure_ok, U64.checkedAdd_eq_some]

/-- An expired entry is removed from the values. -/
theorem getCached_expired (hentry : s.values.lookup key = some entry)
    (hexpired : ¬ now ≤ entry.expiresAt) {found : Option ℤ} :
    getCached key now s = .ok found t ↔
      s.misses + 1 ≤ U64.MAX ∧ none = found ∧
        { s with values := s.values.erase key, misses := s.misses + 1 } = t := by
  simp only [getCached, asks_seq, view_seq, id, hentry, if_neg hexpired, store_seq, recordMiss_ok]

theorem getCached_absent (hentry : s.values.lookup key = none) {found : Option ℤ} :
    getCached key now s = .ok found t ↔
      s.misses + 1 ≤ U64.MAX ∧ none = found ∧ { s with misses := s.misses + 1 } = t := by
  simp only [getCached, asks_seq, view_seq, id, hentry, recordMiss_ok]

/-- **What a call does to a run.** -/
theorem step_cases {call : CacheCall} (hstep : call.step c = some d) :
    (∃ key value ttlSecs, call.op = .setCached key value ttlSecs ∧
      setCached key value ttlSecs call.now c.storage = .ok () d.storage ∧
      d.used = c.used ++ [key] ∧
      d.given = update c.given key (some ⟨value, call.now + ttlSecs.getD CACHE_TTL_SECS⟩)) ∨
    (∃ key found, call.op = .getCached key ∧
      getCached key call.now c.storage = .ok (some found) d.storage ∧
      d.used = c.used ++ [key] ∧ d.given = c.given) ∨
    (∃ key, call.op = .getCached key ∧ getCached key call.now c.storage = .ok none d.storage ∧
      d.used = c.used ∧ d.given = c.given) ∨
    (∃ key, call.op = .invalidate key ∧
      d = ⟨invalidate key c.storage, c.used, update c.given key none⟩) := by
  obtain ⟨now, op⟩ := call
  cases op with
  | setCached key value ttlSecs =>
    obtain ⟨storage, hset, rfl⟩ := Option.map_eq_some_iff.mp hstep
    obtain ⟨_, hset⟩ := commit_eq_some.mp hset
    exact .inl ⟨key, value, ttlSecs, rfl, hset, rfl, rfl⟩
  | getCached key =>
    simp only [CacheCall.step] at hstep
    split at hstep
    next found storage hget =>
      obtain rfl := Option.some.inj hstep
      exact .inr (.inl ⟨key, found, rfl, hget, rfl, rfl⟩)
    next storage hget =>
      obtain rfl := Option.some.inj hstep
      exact .inr (.inr (.inl ⟨key, rfl, hget, rfl, rfl⟩))
    next => cases hstep
    next => cases hstep
  | invalidate key => exact .inr (.inr (.inr ⟨key, rfl, (Option.some.inj hstep).symm⟩))

/-! ## Eviction -/

theorem evictLruIfNeeded_of_le (h : values.keys.length ≤ CACHE_MAX_ENTRIES) (order : List String) :
    evictLruIfNeeded values order = (values, order) := by
  cases order with
  | nil => rfl
  | cons lruKey order => rw [evictLruIfNeeded, if_neg (not_lt.mpr h)]

theorem length_erase (h : key ∈ values) :
    (values.erase key).keys.length = values.keys.length - 1 := by
  rw [AList.keys_erase, List.length_erase_of_mem (AList.mem_keys.mp h)]

/-- One entry too many costs the head of the order its value. -/
theorem evictLruIfNeeded_head (h : values.keys.length = CACHE_MAX_ENTRIES + 1) {lruKey : String}
    (hmem : lruKey ∈ values) (order : List String) :
    evictLruIfNeeded values (lruKey :: order) = (values.erase lruKey, order) := by
  rw [evictLruIfNeeded, if_pos (by omega), evictLruIfNeeded_of_le]
  rw [length_erase hmem]
  omega

theorem length_insert (entry : CacheEntry) (h : key ∉ values) :
    (values.insert key entry).keys.length = values.keys.length + 1 := by
  have hnew : key ∉ values.keys := fun hmem => h (AList.mem_keys.mpr hmem)
  rw [AList.keys_insert, List.length_cons, List.erase_of_not_mem hnew]

theorem length_insert_of_mem (entry : CacheEntry) (h : key ∈ values) :
    (values.insert key entry).keys.length = values.keys.length := by
  have hpos : 0 < values.keys.length := List.length_pos_of_mem (AList.mem_keys.mp h)
  rw [AList.keys_insert, List.length_cons, List.length_erase_of_mem (AList.mem_keys.mp h)]
  omega

/-! ## The two records in step -/

/-- The order is a recency list of the keys that have values, every value is the one last given, and
what was given and has no value any more has been overtaken by as many keys as fit. -/
structure CacheKept (c : CacheRun) : Prop where
  recency : Recency c.used c.storage.order
  same : ∀ key, key ∈ c.storage.order ↔ key ∈ c.storage.values
  bounded : c.storage.values.keys.length ≤ CACHE_MAX_ENTRIES
  given : ∀ key entry, c.storage.values.lookup key = some entry → c.given key = some entry
  retained : ∀ key entry, c.given key = some entry → key ∉ c.storage.values →
    CACHE_MAX_ENTRIES ≤ (usedSince c.used key).toFinset.card
  counted : c.storage.hits < U64.MAX

namespace CacheKept

theorem empty : CacheKept .empty where
  recency := .nil _
  same := by simp [CacheRun.empty, CacheStorage.empty]
  bounded := by simp [CacheRun.empty, CacheStorage.empty, CACHE_MAX_ENTRIES]
  given := by simp [CacheRun.empty, CacheStorage.empty]
  retained := by simp [CacheRun.empty]
  counted := by decide

theorem length_order (h : CacheKept c) :
    c.storage.order.length = c.storage.values.keys.length := by
  refine (List.perm_of_nodup_nodup_toFinset_eq h.recency.nodup
    c.storage.values.keys_nodup ?_).length_eq
  ext key
  rw [List.mem_toFinset, List.mem_toFinset, h.same, AList.mem_keys]

/-- **Setting a key evicts nothing, or the head of the order where there is no room.** -/
theorem setCached_cases (h : CacheKept c) {value : ℤ} {ttlSecs : Option ℕ}
    (hset : setCached key value ttlSecs now c.storage = .ok () t) :
    let values := c.storage.values.insert key ⟨value, now + ttlSecs.getD CACHE_TTL_SECS⟩
    (values.keys.length ≤ CACHE_MAX_ENTRIES ∧
      t = { c.storage with values := values, order := c.storage.order.erase key ++ [key] }) ∨
    ∃ lruKey order, c.storage.order = lruKey :: order ∧ key ∉ c.storage.order ∧
      CACHE_MAX_ENTRIES = order.length + 1 ∧
      t = { c.storage with values := values.erase lruKey, order := order ++ [key] } := by
  intro values
  obtain ⟨-, -, rfl⟩ := setCached_ok.mp hset
  rcases le_or_gt values.keys.length CACHE_MAX_ENTRIES with hroom | hfull
  · exact .inl ⟨hroom, by rw [evictLruIfNeeded_of_le hroom]; rfl⟩
  have hbounded := h.bounded
  have hkey : key ∉ c.storage.values := fun hmem =>
    absurd hfull (by rw [length_insert_of_mem _ hmem]; omega)
  have hlength : values.keys.length = c.storage.values.keys.length + 1 := length_insert _ hkey
  have horder := h.length_order
  cases hlist : c.storage.order with
  | nil =>
    rw [hlist, List.length_nil] at horder
    simp only [CACHE_MAX_ENTRIES] at hfull
    omega
  | cons lruKey order =>
    rw [hlist, List.length_cons] at horder
    have hnot : key ∉ lruKey :: order := hlist ▸ fun hmem => hkey ((h.same key).mp hmem)
    have hlru : lruKey ∈ values := (AList.mem_insert _).mpr
      (.inr ((h.same lruKey).mp (hlist ▸ List.mem_cons_self)))
    refine .inr ⟨lruKey, order, rfl, hnot, by omega, ?_⟩
    rw [evictLruIfNeeded_head (by omega) hlru, touchKey,
      List.erase_of_not_mem fun hmem => hnot (List.mem_cons_of_mem lruKey hmem)]

/-! ### Steps that keep it -/

theorem invalidate (h : CacheKept c) (key : String) :
    CacheKept ⟨Common.invalidate key c.storage, c.used, update c.given key none⟩ where
  recency := h.recency.erase key
  same other := by
    simp [Common.invalidate, h.recency.nodup.mem_erase_iff, h.same]
  bounded := by
    simp only [Common.invalidate, AList.keys_erase]
    exact (List.length_erase_le ..).trans h.bounded
  given other entry hlookup := by
    have hne : other ≠ key := by
      rintro rfl
      simp [Common.invalidate] at hlookup
    rw [Common.invalidate, AList.lookup_erase_ne hne] at hlookup
    exact (update_of_ne hne ..).trans (h.given other entry hlookup)
  retained other entry hgiven hmem := by
    have hne : other ≠ key := by
      rintro rfl
      simp at hgiven
    have hbefore := (update_of_ne hne ..).symm.trans hgiven
    exact h.retained other entry hbefore fun hin => hmem (AList.mem_erase.mpr ⟨hne, hin⟩)
  counted := h.counted

/-- A miss changes nothing the cache is about. -/
theorem missed (h : CacheKept c) (misses : ℕ) :
    CacheKept ⟨{ c.storage with misses := misses }, c.used, c.given⟩ :=
  ⟨h.recency, h.same, h.bounded, h.given, h.retained, h.counted⟩

/-- Using another key leaves as many overtaking what is gone, or more. -/
theorem retained_use (h : CacheKept c) {other : String} (hne : key ≠ other)
    (hgiven : c.given other = some entry) (hmem : other ∉ c.storage.values) :
    CACHE_MAX_ENTRIES ≤ (usedSince (c.used ++ [key]) other).toFinset.card :=
  (h.retained other entry hgiven hmem).trans
    (Finset.card_le_card (toFinset_usedSince_subset hne))

theorem found (h : CacheKept c) (hentry : c.storage.values.lookup key = some entry)
    (hcounted : c.storage.hits + 1 < U64.MAX) :
    CacheKept ⟨touchKey key { c.storage with hits := c.storage.hits + 1 }, c.used ++ [key],
      c.given⟩ where
  recency := h.recency.touch key
  same other := by
    have hkey : key ∈ c.storage.values := AList.lookup_isSome.mp (by rw [hentry]; rfl)
    simp only [touchKey, List.mem_append, List.mem_singleton, h.recency.nodup.mem_erase_iff, h.same]
    refine ⟨?_, fun hmem => ?_⟩
    · rintro (⟨-, hmem⟩ | rfl)
      · exact hmem
      · exact hkey
    · by_cases heq : other = key
      · exact .inr heq
      · exact .inl ⟨heq, hmem⟩
  bounded := h.bounded
  given := h.given
  retained other entry' hgiven hmem := by
    have hne : key ≠ other := by
      rintro rfl
      exact hmem (AList.lookup_isSome.mp (by rw [touchKey, hentry]; rfl))
    exact h.retained_use hne hgiven hmem
  counted := hcounted

/-- What is found after a key was set is what the keys were given last. -/
theorem given_insert (h : CacheKept c) {entry' : CacheEntry} (other : String)
    (hlookup : (c.storage.values.insert key entry).lookup other = some entry') :
    update c.given key (some entry) other = some entry' := by
  by_cases hne : other = key
  · subst hne
    rw [AList.lookup_insert] at hlookup
    exact (update_self ..).trans hlookup
  · rw [AList.lookup_insert_ne hne] at hlookup
    exact (update_of_ne hne ..).trans (h.given other entry' hlookup)

/-- A key that is set and evicts nothing. -/
theorem inserted (h : CacheKept c)
    (hroom : (c.storage.values.insert key entry).keys.length ≤ CACHE_MAX_ENTRIES) :
    CacheKept ⟨{ c.storage with
        values := c.storage.values.insert key entry
        order := c.storage.order.erase key ++ [key] },
      c.used ++ [key], update c.given key (some entry)⟩ where
  recency := h.recency.touch key
  same other := by
    rw [List.mem_append, List.mem_singleton, h.recency.nodup.mem_erase_iff, h.same,
      AList.mem_insert]
    tauto
  bounded := hroom
  given other entry' := h.given_insert other
  retained other entry' hgiven hmem := by
    rw [AList.mem_insert, not_or] at hmem
    have hbefore := (update_of_ne hmem.1 ..).symm.trans hgiven
    exact h.retained_use (Ne.symm hmem.1) hbefore hmem.2
  counted := h.counted

section Eviction

variable {lruKey : String} {order : List String}

/-- With the key that is set at the end, the order is a recency list from the evicted key on. -/
theorem recency_set (h : CacheKept c) (horder : c.storage.order = lruKey :: order)
    (hkey : key ∉ c.storage.order) : Recency (c.used ++ [key]) (lruKey :: (order ++ [key])) := by
  have htouch := h.recency.touch key
  rwa [List.erase_of_not_mem hkey, horder] at htouch

/-- What has a value after an eviction: the rest of the order, and the key that is set. -/
theorem mem_evicted (h : CacheKept c) (horder : c.storage.order = lruKey :: order)
    (hkey : key ∉ c.storage.order) (entry : CacheEntry) (other : String) :
    other ∈ order ++ [key] ↔ other ∈ (c.storage.values.insert key entry).erase lruKey := by
  have hnodup := h.recency.nodup
  rw [horder] at hkey hnodup
  have hlru := (List.nodup_cons.mp hnodup).1
  rw [List.mem_append, List.mem_singleton, AList.mem_erase, AList.mem_insert, ← h.same, horder,
    List.mem_cons]
  constructor
  · rintro (hmem | rfl)
    · exact ⟨fun heq => hlru (heq ▸ hmem), .inr (.inr hmem)⟩
    · exact ⟨fun heq => hkey (heq ▸ List.mem_cons_self), .inl rfl⟩
  · rintro ⟨hne, rfl | rfl | hmem⟩
    · exact .inr rfl
    · exact absurd rfl hne
    · exact .inl hmem

/-- A key that is set and evicts the head of the order. -/
theorem evicted (h : CacheKept c) (horder : c.storage.order = lruKey :: order)
    (hkey : key ∉ c.storage.order) (hlength : CACHE_MAX_ENTRIES = order.length + 1)
    (entry : CacheEntry) :
    CacheKept ⟨{ c.storage with
        values := (c.storage.values.insert key entry).erase lruKey
        order := order ++ [key] },
      c.used ++ [key], update c.given key (some entry)⟩ where
  recency := (h.recency_set horder hkey).tail
  same := h.mem_evicted horder hkey entry
  bounded := by
    have hlru : lruKey ∈ c.storage.values.insert key entry :=
      (AList.mem_insert _).mpr (.inr ((h.same lruKey).mp (horder ▸ List.mem_cons_self)))
    have hbounded := h.bounded
    rw [length_erase hlru, length_insert entry fun hmem => hkey ((h.same key).mpr hmem)]
    omega
  given other entry' hlookup := by
    have hlru : other ≠ lruKey := by
      rintro rfl
      rw [AList.lookup_erase] at hlookup
      cases hlookup
    rw [AList.lookup_erase_ne hlru] at hlookup
    exact h.given_insert other hlookup
  retained other entry' hgiven hmem := by
    have hgone := (h.mem_evicted horder hkey entry other).not.mpr hmem
    rw [List.mem_append, List.mem_singleton, not_or] at hgone
    have hbefore := (update_of_ne hgone.2 ..).symm.trans hgiven
    by_cases hlru : other = lruKey
    · -- Everything that is left was used since the key evicted now.
      subst hlru
      have hcard := (h.recency_set horder hkey).length_le_card
      rwa [List.length_append, List.length_singleton, ← hlength] at hcard
    · refine h.retained_use (Ne.symm hgone.2) hbefore fun hin => hgone.1 ?_
      rw [← h.same, horder, List.mem_cons] at hin
      exact hin.resolve_left hlru
  counted := h.counted

end Eviction

theorem set (h : CacheKept c) {value : ℤ} {ttlSecs : Option ℕ}
    (hset : setCached key value ttlSecs now c.storage = .ok () t) :
    CacheKept ⟨t, c.used ++ [key],
      update c.given key (some ⟨value, now + ttlSecs.getD CACHE_TTL_SECS⟩)⟩ := by
  rcases h.setCached_cases hset with ⟨hroom, rfl⟩ | ⟨_, _, horder, hkey, hlength, rfl⟩
  · exact h.inserted hroom
  · exact h.evicted horder hkey hlength _

end CacheKept

/-! ## The rule -/

/-- What the cache promises: the two records agree and fit; what a key was given is found until it
expires or as many other keys as fit have been used since; and what is evicted was used before
everything that stays. -/
structure CacheSound (c : CacheRun) : Prop where
  nodup : c.storage.order.Nodup
  same : ∀ key, key ∈ c.storage.order ↔ key ∈ c.storage.values
  bounded : c.storage.values.keys.length ≤ CACHE_MAX_ENTRIES
  returned : ∀ key entry now, c.given key = some entry → now ≤ entry.expiresAt →
    (usedSince c.used key).toFinset.card < CACHE_MAX_ENTRIES →
    ∃ t, getCached key now c.storage = .ok (some entry.value) t
  evicts : ∀ now key value ttlSecs d,
    CacheCall.step ⟨now, .setCached key value ttlSecs⟩ c = some d →
    ∀ evicted ∈ c.storage.values, evicted ∉ d.storage.values →
    ∀ other ∈ d.storage.values, other ∈ usedSince d.used evicted

/-- A read finds no expired entry, and does not bring the counter of the hits to its end. -/
def ReadsLive (c : CacheRun) (call : CacheCall) : Prop :=
  match call.op with
  | .getCached key => ∀ entry, c.storage.values.lookup key = some entry →
      call.now ≤ entry.expiresAt ∧ c.storage.hits + 1 < U64.MAX
  | _ => True

namespace CacheKept

/-- **What a set evicts was used before everything that has a value after it.** -/
theorem evicts_oldest (h : CacheKept c) {value : ℤ} {ttlSecs : Option ℕ}
    (hset : setCached key value ttlSecs now c.storage = .ok () t) {evicted other : String}
    (hin : evicted ∈ c.storage.values) (hout : evicted ∉ t.values) (hother : other ∈ t.values) :
    other ∈ usedSince (c.used ++ [key]) evicted := by
  rcases h.setCached_cases hset with ⟨_, rfl⟩ | ⟨lruKey, order, horder, hkey, _, rfl⟩
  · exact absurd ((AList.mem_insert _).mpr (.inr hin)) hout
  · have hlru : evicted = lruKey := by
      by_contra hne
      exact hout (AList.mem_erase.mpr ⟨hne, (AList.mem_insert _).mpr (.inr hin)⟩)
    rw [hlru]
    exact (h.recency_set horder hkey).oldest ((h.mem_evicted horder hkey _ other).mpr hother)

theorem sound (h : CacheKept c) : CacheSound c where
  nodup := h.recency.nodup
  same := h.same
  bounded := h.bounded
  returned key entry now hgiven hlive hused := by
    cases hlookup : c.storage.values.lookup key with
    | none =>
      exact absurd (h.retained key entry hgiven (AList.lookup_eq_none.mp hlookup))
        (not_le.mpr hused)
    | some found =>
      obtain rfl := Option.some.inj ((h.given key found hlookup).symm.trans hgiven)
      exact ⟨_, (getCached_live hlookup hlive).mpr ⟨h.counted, rfl, rfl⟩⟩
  evicts now key value ttlSecs d hstep evicted hin hout other hother := by
    obtain ⟨storage, hset, rfl⟩ := Option.map_eq_some_iff.mp hstep
    obtain ⟨_, hset⟩ := commit_eq_some.mp hset
    exact h.evicts_oldest hset hin hout hother

theorem step {call : CacheCall} (h : CacheKept c) (hstep : call.step c = some d)
    (hlive : ReadsLive c call) : CacheKept d := by
  obtain ⟨now, op⟩ := call
  obtain ⟨storage, used, given⟩ := d
  rcases step_cases hstep with ⟨key, value, ttlSecs, -, hset, rfl, rfl⟩ |
    ⟨key, found, ⟨⟩, hget, rfl, rfl⟩ | ⟨key, ⟨⟩, hget, rfl, rfl⟩ | ⟨key, -, hd⟩
  · exact h.set hset
  · cases hlookup : c.storage.values.lookup key with
    | none => simp [getCached_absent hlookup] at hget
    | some entry =>
      obtain ⟨hnow, hcounted⟩ := hlive entry hlookup
      obtain ⟨-, -, rfl⟩ := (getCached_live hlookup hnow).mp hget
      exact h.found hlookup hcounted
  · cases hlookup : c.storage.values.lookup key with
    | none =>
      obtain ⟨-, -, rfl⟩ := (getCached_absent hlookup).mp hget
      exact h.missed _
    | some entry =>
      obtain ⟨hnow, -⟩ := hlive entry hlookup
      obtain ⟨-, hfound, -⟩ := (getCached_live hlookup hnow).mp hget
      cases hfound
  · exact hd ▸ h.invalidate key

/-- **A call leaves a sound cache exactly if, as a read, it finds no expired entry.** -/
theorem sound_iff {call : CacheCall} (h : CacheKept c) (hstep : call.step c = some d) :
    ReadsLive c call ↔ CacheSound d := by
  refine ⟨fun hlive => (h.step hstep hlive).sound, fun hsound => ?_⟩
  obtain ⟨now, op⟩ := call
  cases op with
  | setCached => trivial
  | invalidate => trivial
  | getCached key =>
    intro entry hlookup
    have hkey : key ∈ c.storage.order :=
      (h.same key).mpr (AList.lookup_isSome.mp (by rw [hlookup]; rfl))
    obtain ⟨storage, used, given⟩ := d
    rcases step_cases hstep with ⟨_, _, _, ⟨⟩, _⟩ | ⟨_, found, ⟨⟩, hget, rfl, rfl⟩ |
      ⟨_, ⟨⟩, hget, rfl, rfl⟩ | ⟨_, ⟨⟩, _⟩
    · rcases em (now ≤ entry.expiresAt) with hnow | hexpired
      · obtain ⟨hle, -, rfl⟩ := (getCached_live hlookup hnow).mp hget
        refine ⟨hnow, lt_of_le_of_ne hle fun hend => ?_⟩
        obtain ⟨_, hagain⟩ := hsound.returned key entry now (h.given key entry hlookup) hnow
          (by simp [CACHE_MAX_ENTRIES])
        have hpast := ((getCached_live
          (s := touchKey key { c.storage with hits := c.storage.hits + 1 }) hlookup hnow).mp
          hagain).1
        simp only [touchKey] at hpast
        omega
      · obtain ⟨-, hfound, -⟩ := (getCached_expired hlookup hexpired).mp hget
        cases hfound
    · rcases em (now ≤ entry.expiresAt) with hnow | hexpired
      · obtain ⟨-, hfound, -⟩ := (getCached_live hlookup hnow).mp hget
        cases hfound
      · obtain ⟨-, -, rfl⟩ := (getCached_expired hlookup hexpired).mp hget
        exact absurd ((hsound.same key).mp hkey) fun hmem => (AList.mem_erase.mp hmem).1 rfl

end CacheKept

/-- **In every state it reaches the cache is as promised, exactly as long as no read finds an
expired entry** (and the hits can be counted). -/
theorem cache_sound_iff (calls : List CacheCall) :
    Meets CacheCall.step ReadsLive .empty calls ↔
      ∀ past, past <+: calls → CacheSound (cacheAfter past) := by
  constructor
  · rintro h past ⟨rest, rfl⟩
    have hkept : CacheKept (cacheAfter past) :=
      (meets_append.mp h).1.invariant (fun _ _ _ hstep hlive h => h.step hstep hlive)
        CacheKept.empty
    exact hkept.sound
  · intro h
    refine (meets_iff_steps (P := fun _ _ d => CacheSound d)
      (fun _ _ _ hstep h => h.sound_iff hstep)
      (fun _ _ _ hstep hlive h => h.step hstep hlive) CacheKept.empty).mpr ?_
    intro past call rest d hcalls hstep
    have hsound := h (past ++ [call]) ⟨rest, by rw [hcalls, List.append_assoc]; rfl⟩
    rwa [cacheAfter, run_snoc, exec_of_some hstep] at hsound

namespace Sample

/-- A value is set for a second and read when it has expired. -/
def readLate : List CacheCall := [⟨10, .setCached "eth" 5 (some 1)⟩, ⟨12, .getCached "eth"⟩]

/-- Then as many keys as fit are set, and the first one again. -/
def setAgain : List CacheCall :=
  readLate ++
    ((List.range 64).map fun n =>
      ⟨13, .setCached (String.ofList (List.replicate n 'x')) 7 none⟩) ++
    [⟨14, .setCached "eth" 9 none⟩]

/-- **A late read leaves a key without a value in the order**, and setting that key again evicts the
value it sets. -/
theorem cache_unsound :
    ¬ CacheSound (cacheAfter readLate) ∧
      (cacheAfter setAgain).given "eth" = some ⟨9, 44⟩ ∧
      (cacheAfter setAgain).storage.values.lookup "eth" = none := by
  refine ⟨fun hsound => ?_, by decide +kernel, by decide +kernel⟩
  have hkey := (hsound.same "eth").mp (by decide)
  exact absurd (AList.lookup_isSome.mpr hkey) (by decide)

end Sample

end

end StellarLend.Common
