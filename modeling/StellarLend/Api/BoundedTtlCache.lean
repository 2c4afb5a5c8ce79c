import StellarLend.Foundations.Latest

/-!
# Api/BoundedTtlCache — the newest entries, until they expire

`api/src/utils/boundedTtlCache.ts`.  A JavaScript map lists its entries in the order they were set;
a key that is set again is deleted first, so the map starts with what was set least recently:

    entries   [ (b, until 40), (a, until 52), (c, until 55) ]
                ↑ expires first, evicted first

Instants are milliseconds, and a call reads the clock once.  As all entries live equally long, what
is evicted or expired is always at the front, and the cache is the newest part of what was ever set
(`Mirrors`).
-/

namespace StellarLend.Api

open Foundations

structure CacheEntry (α : Type) where
  createdAt : ℤ
  expiresAt : ℤ
  value : α
  deriving DecidableEq

structure CacheOptions where
  ttlMs : ℤ
  maxEntries : ℕ
  deriving DecidableEq

/-- The entry that setting a value now makes. -/
def CacheOptions.entry {α : Type} (options : CacheOptions) (value : α) (now : ℤ) : CacheEntry α :=
  ⟨now, now + options.ttlMs, value⟩

structure BoundedTtlCache (α : Type) where
  options : CacheOptions
  entries : List (String × CacheEntry α)
  deriving DecidableEq

namespace BoundedTtlCache

variable {α : Type}

def new (options : CacheOptions) : BoundedTtlCache α := ⟨options, []⟩

def live (now : ℤ) (e : String × CacheEntry α) : Bool := now < e.2.expiresAt

def pruneExpired (now : ℤ) (entries : List (String × CacheEntry α)) :
    List (String × CacheEntry α) := entries.filter (live now)

/-- Entries are evicted from the front.  An empty key looks like none and ends the loop. -/
def enforceBounds (maxEntries : ℕ) : List (String × CacheEntry α) → List (String × CacheEntry α)
  | [] => []
  | e :: es =>
    if maxEntries < (e :: es).length ∧ e.1 ≠ "" then enforceBounds maxEntries es else e :: es

variable (cache : BoundedTtlCache α) (key : String)

def get (now : ℤ) : Option α × BoundedTtlCache α :=
  let entries := pruneExpired now cache.entries
  match entries.lookup key with
  | none => (none, { cache with entries := entries })
  | some entry =>
    if entry.expiresAt ≤ now then
      (none, { cache with entries := entries.filter fun e => e.1 ≠ key })
    else (some entry.value, { cache with entries := entries })

def set (value : α) (now : ℤ) : BoundedTtlCache α :=
  let entries := (pruneExpired now cache.entries).filter fun e => e.1 ≠ key
  let entries := entries ++ [(key, cache.options.entry value now)]
  { cache with entries := enforceBounds cache.options.maxEntries entries }

def clear : BoundedTtlCache α := { cache with entries := [] }

def size (now : ℤ) : ℕ × BoundedTtlCache α :=
  let entries := pruneExpired now cache.entries
  (entries.length, { cache with entries := entries })

/-! ## What the calls do -/

section

variable {cache : BoundedTtlCache α} {key : String} {now clock : ℤ} {value : α}
  {es log : List (String × CacheEntry α)} {e : String × CacheEntry α} {n : ℕ}

/-- **What is over the bound is dropped, the oldest first.** -/
theorem enforceBounds_eq (h : ∀ e ∈ es, e.1 ≠ "") : enforceBounds n es = es.rtake n := by
  induction es with
  | nil => simp [enforceBounds]
  | cons e es ih =>
    rw [enforceBounds, List.rtake, List.length_cons]
    by_cases hlt : n < es.length + 1
    · rw [if_pos ⟨hlt, h e List.mem_cons_self⟩, ih fun a ha => h a (List.mem_cons_of_mem e ha),
        show es.length + 1 - n = es.length - n + 1 by omega, List.drop_succ_cons, List.rtake]
    · rw [if_neg fun hand => hlt hand.1, show es.length + 1 - n = 0 by omega, List.drop_zero]

/-- What has not expired later had not expired before. -/
theorem pruneExpired_pruneExpired (h : clock ≤ now) :
    pruneExpired now (pruneExpired clock es) = pruneExpired now es := by
  rw [pruneExpired, pruneExpired, List.filter_filter]
  refine List.filter_congr fun e _ => ?_
  simp only [live, Bool.and_eq_left_iff_imp, decide_eq_true_eq]
  omega

theorem mem_of_lookup {entry : CacheEntry α} (h : es.lookup key = some entry) :
    (key, entry) ∈ es := by
  obtain ⟨_, _, rfl, -⟩ := List.lookup_eq_some_iff.mp h
  exact List.mem_append_right _ List.mem_cons_self

theorem lookup_eq_some_iff_mem (h : (es.map Prod.fst).Nodup) {entry : CacheEntry α} :
    es.lookup key = some entry ↔ (key, entry) ∈ es := by
  refine ⟨mem_of_lookup, fun hmem => ?_⟩
  obtain ⟨before, after, rfl⟩ := List.append_of_mem hmem
  rw [List.map_append, List.map_cons] at h
  refine List.lookup_eq_some_iff.mpr ⟨before, after, rfl, fun p hp => ?_⟩
  have hne := (List.nodup_append.mp h).2.2 p.1 (List.mem_map_of_mem hp) key List.mem_cons_self
  simpa using fun heq => hne heq.symm

/-- **A value is found exactly where an entry has not expired.** -/
theorem get_fst :
    (cache.get key now).1 = ((pruneExpired now cache.entries).lookup key).map CacheEntry.value := by
  rw [get]
  split
  next hnone => rw [hnone, Option.map_none]
  next entry hsome =>
    have hmem := List.mem_filter.mp (mem_of_lookup hsome)
    rw [if_neg (by simpa [live] using hmem.2), hsome, Option.map_some]

theorem get_snd :
    (cache.get key now).2 = { cache with entries := pruneExpired now cache.entries } := by
  rw [get]
  split
  next => rfl
  next entry hsome =>
    have hmem := List.mem_filter.mp (mem_of_lookup hsome)
    rw [if_neg (by simpa [live] using hmem.2)]

/-- A log of what was set up to `clock`, first to last. -/
structure Stamped (options : CacheOptions) (clock : ℤ) (log : List (String × CacheEntry α)) : Prop
    where
  named : ∀ e ∈ log, e.1 ≠ ""
  until_eq : ∀ e ∈ log, e.2.expiresAt = e.2.createdAt + options.ttlMs
  created : ∀ e ∈ log, e.2.createdAt ≤ clock
  aged : log.Pairwise fun a b => a.2.createdAt ≤ b.2.createdAt

namespace Stamped

variable {options : CacheOptions}

theorem nil (options : CacheOptions) (clock : ℤ) :
    Stamped options clock ([] : List (String × CacheEntry α)) where
  named := fun _ h => absurd h List.not_mem_nil
  until_eq := fun _ h => absurd h List.not_mem_nil
  created := fun _ h => absurd h List.not_mem_nil
  aged := .nil

theorem later (h : Stamped options clock log) (hnow : clock ≤ now) : Stamped options now log where
  named := h.named
  until_eq := h.until_eq
  created := fun e he => (h.created e he).trans hnow
  aged := h.aged

theorem snoc (h : Stamped options clock log) (hnow : clock ≤ now) (hkey : key ≠ "") (value : α) :
    Stamped options now (log ++ [(key, options.entry value now)]) where
  named := List.forall_mem_append.mpr ⟨h.named, List.forall_mem_singleton.mpr hkey⟩
  until_eq := List.forall_mem_append.mpr ⟨h.until_eq, List.forall_mem_singleton.mpr rfl⟩
  created := List.forall_mem_append.mpr
    ⟨fun e he => (h.created e he).trans hnow, List.forall_mem_singleton.mpr le_rfl⟩
  aged := by
    refine List.pairwise_append.mpr ⟨h.aged, List.pairwise_singleton .., fun a ha b hb => ?_⟩
    rw [List.mem_singleton.mp hb]
    exact (h.created a ha).trans hnow

/-- **Of two entries the later one lives longer.** -/
theorem expires (h : Stamped options clock log) (now : ℤ) :
    log.Pairwise fun a b => live now a = true → live now b = true := by
  refine h.aged.imp_of_mem fun {a b} ha hb hab hlive => ?_
  rw [live, decide_eq_true_eq] at hlive ⊢
  rw [h.until_eq a ha] at hlive
  rw [h.until_eq b hb]
  omega

end Stamped

/-- At and after `clock`, the cache has the newest entries of the log that have not expired. -/
structure Mirrors (clock : ℤ) (log : List (String × CacheEntry α)) (cache : BoundedTtlCache α) :
    Prop where
  stamped : Stamped cache.options clock log
  kept : cache.entries.Sublist log
  mirrors : ∀ now, clock ≤ now → pruneExpired now cache.entries =
    ((latest Prod.fst log).filter (live now)).rtake cache.options.maxEntries

namespace Mirrors

theorem new (options : CacheOptions) (clock : ℤ) :
    Mirrors clock [] (BoundedTtlCache.new options : BoundedTtlCache α) where
  stamped := .nil _ clock
  kept := .slnil
  mirrors := fun _ _ => by simp [BoundedTtlCache.new, pruneExpired, latest]

theorem later (h : Mirrors clock log cache) (hnow : clock ≤ now) : Mirrors now log cache where
  stamped := h.stamped.later hnow
  kept := h.kept
  mirrors := fun t ht => h.mirrors t (hnow.trans ht)

/-- Time passes, and what has expired may be dropped. -/
theorem prune (h : Mirrors clock log cache) (hnow : clock ≤ now) :
    Mirrors now log { cache with entries := pruneExpired now cache.entries } where
  stamped := h.stamped.later hnow
  kept := List.filter_sublist.trans h.kept
  mirrors := fun t ht => by
    rw [pruneExpired_pruneExpired ht]
    exact h.mirrors t (hnow.trans ht)

theorem get (h : Mirrors clock log cache) (hnow : clock ≤ now) (key : String) :
    Mirrors now log (cache.get key now).2 := by
  rw [get_snd]
  exact h.prune hnow

/-- **A value that is set is the newest entry, and the cache still has the newest ones.** -/
theorem set (h : Mirrors clock log cache) (hnow : clock ≤ now) (hkey : key ≠ "") (value : α) :
    Mirrors now (log ++ [(key, cache.options.entry value now)]) (cache.set key value now) := by
  have hprune := h.prune hnow
  have hstamped := hprune.stamped.snoc le_rfl hkey value
  have hsub : (putLast Prod.fst (key, cache.options.entry value now)
      (pruneExpired now cache.entries)).Sublist (log ++ [(key, cache.options.entry value now)]) :=
    (List.filter_sublist.trans hprune.kept).append (.refl _)
  have hentries : (cache.set key value now).entries =
      (putLast Prod.fst (key, cache.options.entry value now)
        (pruneExpired now cache.entries)).rtake cache.options.maxEntries :=
    enforceBounds_eq fun e he => hstamped.named e (hsub.subset he)
  refine ⟨hstamped, ?_, fun t ht => ?_⟩
  · rw [hentries]
    exact (List.drop_sublist ..).trans hsub
  have hexpires := hstamped.expires t
  rw [hentries, pruneExpired, filter_rtake (hexpires.sublist hsub), latest_snoc]
  change _ = List.rtake _ cache.options.maxEntries
  by_cases hlive : live t (key, cache.options.entry value now) = true
  · have hcomm : ∀ xs : List (String × CacheEntry α),
        (putLast Prod.fst (key, cache.options.entry value now) xs).filter (live t) =
          putLast Prod.fst (key, cache.options.entry value now) (xs.filter (live t)) := fun xs => by
      rw [putLast, putLast, List.filter_append, List.filter_cons_of_pos hlive, List.filter_nil,
        List.filter_filter, List.filter_filter]
      simp only [Bool.and_comm]
    have hnodup := (nodup_latest Prod.fst log).sublist
      ((List.filter_sublist (p := live t)).map Prod.fst)
    rw [hcomm, hcomm, ← pruneExpired, hprune.mirrors t ht, rtake_putLast hnodup]
  · -- with the newest entry, all have expired
    have hdead : ∀ e ∈ log ++ [(key, cache.options.entry value now)], ¬ live t e = true := by
      refine List.forall_mem_append.mpr ⟨fun e he hl => hlive ?_, by simpa using hlive⟩
      exact (List.pairwise_append.mp hexpires).2.2 e he _ (List.mem_singleton_self _) hl
    have hsub' : (putLast Prod.fst (key, cache.options.entry value now)
        (latest Prod.fst log)).Sublist (log ++ [(key, cache.options.entry value now)]) :=
      (List.filter_sublist.trans latest_sublist).append (.refl _)
    rw [List.filter_eq_nil_iff.mpr fun e he => hdead e (hsub.subset he),
      List.filter_eq_nil_iff.mpr fun e he => hdead e (hsub'.subset he)]

/-- **What is found under a key is what was set last there, unless it has expired or `maxEntries`
other keys were set since.** -/
theorem get_eq_some_iff (h : Mirrors clock log cache) (hnow : clock ≤ now) :
    (cache.get key now).1 = some value ↔ ∃ before entry after,
      log = before ++ (key, entry) :: after ∧ entry.value = value ∧ key ∉ after.map Prod.fst ∧
        now < entry.expiresAt ∧ (after.map Prod.fst).toFinset.card < cache.options.maxEntries := by
  have hnodup : ((pruneExpired now cache.entries).map Prod.fst).Nodup := by
    rw [h.mirrors now hnow]
    exact (nodup_latest Prod.fst log).sublist
      (((List.drop_sublist ..).trans List.filter_sublist).map Prod.fst)
  have hmem : ∀ entry, (pruneExpired now cache.entries).lookup key = some entry ↔
      live now (key, entry) = true ∧ ∃ before after, log = before ++ (key, entry) :: after ∧
        key ∉ after.map Prod.fst ∧
        (after.map Prod.fst).toFinset.card < cache.options.maxEntries := fun entry => by
    rw [lookup_eq_some_iff_mem hnodup, h.mirrors now hnow,
      mem_rtake_latest (h.stamped.expires now)]
  rw [get_fst, Option.map_eq_some_iff]
  constructor
  · rintro ⟨entry, hfound, hvalue⟩
    obtain ⟨hlive, before, after, hlog, hlast, hcard⟩ := (hmem entry).mp hfound
    exact ⟨before, entry, after, hlog, hvalue, hlast, of_decide_eq_true hlive, hcard⟩
  · rintro ⟨before, entry, after, hlog, hvalue, hlast, hlive, hcard⟩
    exact ⟨entry, (hmem entry).mpr ⟨decide_eq_true hlive, before, after, hlog, hlast, hcard⟩,
      hvalue⟩

/-- **Where nothing is found, all that was set there has expired, or `maxEntries` other keys were
set since.** -/
theorem of_get_eq_none (h : Mirrors clock log cache) (hnow : clock ≤ now)
    (hnone : (cache.get key now).1 = none) {before after : List (String × CacheEntry α)}
    {entry : CacheEntry α} (hlog : log = before ++ (key, entry) :: after) :
    entry.expiresAt ≤ now ∨
      cache.options.maxEntries ≤ ((after.map Prod.fst).toFinset.erase key).card := by
  by_contra hnot
  obtain ⟨hlive, hcard⟩ := not_or.mp hnot
  rw [not_le] at hlive hcard
  obtain ⟨between, ⟨_, last⟩, rest, hsplit, rfl, hlast⟩ :=
    exists_last (List.mem_map_of_mem (f := Prod.fst) (List.mem_cons_self (l := after)))
  have hrest : rest <:+ after := by
    rcases between with _ | ⟨_, between⟩
    · rw [(List.cons.inj hsplit).2]
    · rw [(List.cons.inj hsplit).2]
      exact (List.suffix_cons _ rest).trans (List.suffix_append between _)
  have hlonger : now < last.expiresAt := by
    have hexpires := (List.pairwise_append.mp (hlog ▸ h.stamped.expires now)).2.1
    rw [hsplit] at hexpires
    rcases between with _ | ⟨_, between⟩
    · obtain ⟨heq, -⟩ := List.cons.inj hsplit
      rwa [(Prod.mk.inj heq).2] at hlive
    · obtain ⟨rfl, -⟩ := List.cons.inj hsplit
      exact of_decide_eq_true (List.rel_of_pairwise_cons hexpires
        (List.mem_append_right _ List.mem_cons_self) (decide_eq_true hlive))
  have hfewer : (rest.map Prod.fst).toFinset.card < cache.options.maxEntries := by
    refine (Finset.card_le_card fun k hk => ?_).trans_lt hcard
    rw [List.mem_toFinset] at hk
    refine Finset.mem_erase.mpr ⟨fun heq => hlast (heq ▸ hk), ?_⟩
    exact List.mem_toFinset.mpr ((hrest.map Prod.fst).subset hk)
  have hfound : (cache.get key now).1 = some last.value := (h.get_eq_some_iff hnow).mpr
    ⟨before ++ between, last, rest, by rw [hlog, hsplit, List.append_assoc], rfl, hlast, hlonger,
      hfewer⟩
  rw [hnone] at hfound
  cases hfound

/-- There are never more than `maxEntries`. -/
theorem size_le (h : Mirrors clock log cache) (hnow : clock ≤ now) :
    (cache.size now).1 ≤ cache.options.maxEntries := by
  change (pruneExpired now cache.entries).length ≤ _
  rw [h.mirrors now hnow, List.rtake, List.length_drop]
  omega

end Mirrors

end

end BoundedTtlCache

/-! ## Every run of calls -/

inductive CacheOp (α : Type) where
  | get (key : String)
  | set (key : String) (value : α)
  | clear
  | size
  deriving DecidableEq

namespace CacheOp

variable {α : Type} {options : CacheOptions} {now : ℤ} {key : String} {value : α}
  {calls : List (ℤ × CacheOp α)}

/-- The cache after a call. -/
def apply (cache : BoundedTtlCache α) (call : ℤ × CacheOp α) : BoundedTtlCache α :=
  match call.2 with
  | .get key => (cache.get key call.1).2
  | .set key value => cache.set key value call.1
  | .clear => cache.clear
  | .size => (cache.size call.1).2

/-- What was set since the cache was last cleared, after a call. -/
def logged (options : CacheOptions) (log : List (String × CacheEntry α)) (call : ℤ × CacheOp α) :
    List (String × CacheEntry α) :=
  match call.2 with
  | .set key value => log ++ [(key, options.entry value call.1)]
  | .clear => []
  | _ => log

def cacheAfter (options : CacheOptions) (calls : List (ℤ × CacheOp α)) : BoundedTtlCache α :=
  calls.foldl apply (.new options)

def setsOf (options : CacheOptions) (calls : List (ℤ × CacheOp α)) :
    List (String × CacheEntry α) := calls.foldl (logged options) []

/-- Nothing is set under the empty key. -/
def Named (calls : List (ℤ × CacheOp α)) : Prop := ∀ t value, (t, CacheOp.set "" value) ∉ calls

/-- The clock does not run back. -/
def Timed (calls : List (ℤ × CacheOp α)) : Prop := calls.Pairwise fun a b => a.1 ≤ b.1

/-- **Whatever is called, the cache mirrors what was set.** -/
theorem mirrors_cacheAfter (options : CacheOptions) (htimed : Timed calls) (hnamed : Named calls)
    (hnow : ∀ call ∈ calls, call.1 ≤ now) :
    (cacheAfter options calls).options = options ∧
      (cacheAfter options calls).Mirrors now (setsOf options calls) := by
  induction calls using List.reverseRecOn generalizing now with
  | nil => exact ⟨rfl, .new options now⟩
  | append_singleton calls call ih =>
    obtain ⟨htimed, -, hlast⟩ := List.pairwise_append.mp htimed
    obtain ⟨hoptions, hmirrors⟩ := ih htimed
      (fun t value hmem => hnamed t value (List.mem_append_left _ hmem))
      fun c hc => hlast c hc call (List.mem_singleton_self call)
    have hcall : call.1 ≤ now := hnow call (List.mem_append_right _ (List.mem_singleton_self call))
    rw [cacheAfter, setsOf, List.foldl_append, List.foldl_append, ← cacheAfter, ← setsOf]
    obtain ⟨t, op⟩ := call
    cases op with
    | get key =>
      refine ⟨?_, (hmirrors.get le_rfl key).later hcall⟩
      exact (congrArg BoundedTtlCache.options BoundedTtlCache.get_snd).trans hoptions
    | set key value =>
      have hkey : key ≠ "" := fun heq => hnamed t value
        (List.mem_append_right _ (heq ▸ List.mem_singleton_self _))
      have hset := hmirrors.set le_rfl hkey value
      rw [hoptions] at hset
      exact ⟨hoptions, hset.later hcall⟩
    | clear =>
      refine ⟨hoptions, ?_⟩
      change BoundedTtlCache.Mirrors now [] ⟨(cacheAfter options calls).options, []⟩
      exact .new _ now
    | size => exact ⟨hoptions, (hmirrors.prune le_rfl).later hcall⟩

/-- **A cache returns what was set last under a key, unless that has expired or `maxEntries` other
keys were set since, and has never more entries than that.** -/
theorem cache_remembers (options : CacheOptions) (htimed : Timed calls) (hnamed : Named calls)
    (hnow : ∀ call ∈ calls, call.1 ≤ now) (key : String) (value : α) :
    (((cacheAfter options calls).get key now).1 = some value ↔ ∃ before entry after,
      setsOf options calls = before ++ (key, entry) :: after ∧ entry.value = value ∧
        key ∉ after.map Prod.fst ∧ now < entry.createdAt + options.ttlMs ∧
        (after.map Prod.fst).toFinset.card < options.maxEntries) ∧
      ((cacheAfter options calls).size now).1 ≤ options.maxEntries := by
  obtain ⟨hoptions, hmirrors⟩ := mirrors_cacheAfter options htimed hnamed hnow
  have hsize := hmirrors.size_le le_rfl
  rw [hoptions] at hsize
  refine ⟨?_, hsize⟩
  rw [hmirrors.get_eq_some_iff le_rfl, hoptions]
  constructor
  · rintro ⟨before, entry, after, hlog, hvalue, hlast, hlive, hcard⟩
    have huntil := hmirrors.stamped.until_eq (key, entry)
      (hlog ▸ List.mem_append_right _ List.mem_cons_self)
    rw [hoptions] at huntil
    exact ⟨before, entry, after, hlog, hvalue, hlast, huntil ▸ hlive, hcard⟩
  · rintro ⟨before, entry, after, hlog, hvalue, hlast, hlive, hcard⟩
    have huntil := hmirrors.stamped.until_eq (key, entry)
      (hlog ▸ List.mem_append_right _ List.mem_cons_self)
    rw [hoptions] at huntil
    exact ⟨before, entry, after, hlog, hvalue, hlast, huntil ▸ hlive, hcard⟩

/-- Two keys in a cache for one: the first is forgotten with the second, before it expires. -/
theorem cache_remembers_newest :
    ((cacheAfter ⟨30, 1⟩ [(0, .set "a" 7), (4, .set "b" 5)]).get "b" 33).1 = some 5 ∧
      ((cacheAfter ⟨30, 1⟩ [(0, .set "a" 7), (4, .set "b" 5)]).size 33).1 ≤ 1 := by
  have h := @cache_remembers ℕ 33 [(0, .set "a" 7), (4, .set "b" 5)] ⟨30, 1⟩
    (by simp [Timed]) (by simp [Named]) (by decide) "b" (5 : ℕ)
  exact ⟨h.1.mpr ⟨_, _, [], rfl, rfl, by decide, by decide, by decide⟩, h.2⟩

end CacheOp

end StellarLend.Api
