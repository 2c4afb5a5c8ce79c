import Mathlib.Data.Rat.Floor

/-!
# OracleService/PriceCache — prices kept for a while

`oracle/src/services/cache.ts`, without Redis, which the service does not configure.  A JavaScript
map lists its entries in the order they were set, and an entry that is read is set anew:

    store   [ (eth, 7), (xlm, 9), (btc, 5) ]
               ↑ evicted first       ↑ used last
-/

namespace StellarLend.OracleService

/-! ## The cache -/

structure CacheEntry (α : Type) where
  data : α
  cachedAt : ℤ
  expiresAt : ℚ
  deriving DecidableEq

structure CacheConfig where
  defaultTtlSeconds : ℚ
  maxEntries : ℕ
  evictBatchFraction : ℚ
  deriving DecidableEq

def CacheConfig.default : CacheConfig := ⟨30, 1000, 1 / 10⟩

structure Cache (α : Type) where
  config : CacheConfig
  store : List (String × CacheEntry α)
  deriving DecidableEq

namespace Cache

variable {α : Type} (cache : Cache α) (key : String)

def new (config : CacheConfig) : Cache α := ⟨config, []⟩

/-- `store.delete(key)`. -/
def delete : List (String × CacheEntry α) := cache.store.filter fun e => e.1 ≠ key

/-- `store.get(key)`. -/
def entry : Option (CacheEntry α) := (cache.store.find? fun e => e.1 = key).map Prod.snd

def get (now : ℤ) : Option α × Cache α :=
  match cache.entry key with
  | none => (none, cache)
  | some entry =>
    if entry.expiresAt < now then (none, { cache with store := cache.delete key })
    else (some entry.data, { cache with store := cache.delete key ++ [(key, entry)] })

/-- A tenth of the capacity, rounded up, in the default configuration. -/
def evictLRUBatch : List (String × CacheEntry α) :=
  let batchSize := max 1 ⌈cache.config.maxEntries * cache.config.evictBatchFraction⌉
  cache.store.drop batchSize.toNat

def set (value : α) (ttlSeconds : Option ℚ) (now : ℤ) : Cache α :=
  let ttl := ttlSeconds.getD cache.config.defaultTtlSeconds
  let entry := ⟨value, now, now + ttl * 1000⟩
  let store :=
    if (cache.entry key).isSome then cache.delete key
    else if cache.config.maxEntries ≤ cache.store.length then cache.evictLRUBatch
    else cache.store
  { cache with store := store ++ [(key, entry)] }

/-! ### What the calls leave -/

variable {cache key} {now : ℤ} {e : String × CacheEntry α}

theorem mem_of_entry {entry : CacheEntry α} (h : cache.entry key = some entry) :
    (key, entry) ∈ cache.store := by
  obtain ⟨⟨k, entry'⟩, hfind, rfl⟩ := Option.map_eq_some_iff.mp h
  have hkey := List.find?_some (p := fun e : String × CacheEntry α => decide (e.1 = key)) hfind
  obtain rfl : k = key := of_decide_eq_true hkey
  exact List.mem_of_find?_eq_some hfind

theorem entry_isSome : (cache.entry key).isSome = true ↔ ∃ e ∈ cache.store, e.1 = key := by
  simp [entry]

/-- **What is read was stored**, and has not expired. -/
theorem get_eq_some {value : α} (h : (cache.get key now).1 = some value) :
    ∃ entry, (key, entry) ∈ cache.store ∧ entry.data = value ∧ now ≤ entry.expiresAt := by
  unfold get at h
  split at h
  case h_1 => cases h
  case h_2 entry hentry =>
    split at h
    case isTrue => cases h
    case isFalse hlive =>
      exact ⟨entry, mem_of_entry hentry, Option.some.inj h, not_lt.mp hlive⟩

/-- Reading stores nothing new. -/
theorem mem_of_mem_get (h : e ∈ (cache.get key now).2.store) : e ∈ cache.store := by
  unfold get at h
  split at h
  case h_1 => exact h
  case h_2 entry hentry =>
    split at h
    case isTrue => exact List.mem_of_mem_filter h
    case isFalse =>
      rcases List.mem_append.mp h with hold | hnew
      · exact List.mem_of_mem_filter hold
      · obtain rfl := List.mem_singleton.mp hnew
        exact mem_of_entry hentry

/-- **After a value is stored, every entry is the new one or was there under another key.** -/
theorem mem_of_mem_set {value : α} {ttlSeconds : Option ℚ}
    (h : e ∈ (cache.set key value ttlSeconds now).store) :
    (e.1 = key ∧ e.2.data = value) ∨ (e ∈ cache.store ∧ e.1 ≠ key) := by
  unfold set at h
  rcases List.mem_append.mp h with hold | hnew
  · right
    split at hold
    case isTrue =>
      obtain ⟨hmem, hne⟩ := List.mem_filter.mp hold
      exact ⟨hmem, of_decide_eq_true hne⟩
    case isFalse habsent =>
      have hne : ∀ e ∈ cache.store, e.1 ≠ key := fun e he hkey =>
        habsent (entry_isSome.mpr ⟨e, he, hkey⟩)
      split at hold
      · have hmem := List.mem_of_mem_drop hold
        exact ⟨hmem, hne e hmem⟩
      · exact ⟨hold, hne e hold⟩
  · obtain rfl := List.mem_singleton.mp hnew
    exact .inl ⟨rfl, rfl⟩

end Cache

/-! ## Prices -/

/-- The cache of the prices, by asset. -/
structure PriceCache where
  cache : Cache ℤ
  deriving DecidableEq

def keyPrefix : String := "price:"

namespace PriceCache

def new (ttlSeconds : ℚ) : PriceCache :=
  ⟨.new { CacheConfig.default with defaultTtlSeconds := ttlSeconds, maxEntries := 100 }⟩

variable (toUpperCase : String → String) (prices : PriceCache) (asset : String)

def key : String := keyPrefix ++ toUpperCase asset

def getPrice (now : ℤ) : Option ℤ × PriceCache :=
  let (price, cache) := prices.cache.get (key toUpperCase asset) now
  (price, ⟨cache⟩)

def setPrice (price : ℤ) (ttlSeconds : Option ℚ) (now : ℤ) : PriceCache :=
  ⟨prices.cache.set (key toUpperCase asset) price ttlSeconds now⟩

variable {toUpperCase prices asset} {now : ℤ} {price : ℤ} {e : String × CacheEntry ℤ}

theorem getPrice_eq_some {prices' : PriceCache}
    (h : prices.getPrice toUpperCase asset now = (some price, prices')) :
    ∃ entry, (key toUpperCase asset, entry) ∈ prices.cache.store ∧ entry.data = price ∧
      now ≤ entry.expiresAt := Cache.get_eq_some (congrArg Prod.fst h)

theorem mem_of_mem_getPrice {result : Option ℤ} {prices' : PriceCache}
    (h : prices.getPrice toUpperCase asset now = (result, prices')) (he : e ∈ prices'.cache.store) :
    e ∈ prices.cache.store := by
  obtain rfl := (Prod.mk.inj h).2
  exact Cache.mem_of_mem_get he

theorem mem_of_mem_setPrice {ttlSeconds : Option ℚ}
    (h : e ∈ (prices.setPrice toUpperCase asset price ttlSeconds now).cache.store) :
    (e.1 = key toUpperCase asset ∧ e.2.data = price) ∨
      (e ∈ prices.cache.store ∧ e.1 ≠ key toUpperCase asset) := Cache.mem_of_mem_set h

end PriceCache

end StellarLend.OracleService
