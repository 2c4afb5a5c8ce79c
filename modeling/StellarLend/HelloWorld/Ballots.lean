import Mathlib.Data.Finset.Card
import StellarLend.HelloWorld.Valuation

/-!
# HelloWorld/Ballots — who votes on a price

    primary slot, fallback slot, source slots ──fresh──▸ ballot ──median──▸ price

An aggregation takes a candidate from every slot with a fresh feed, and a feed names the oracle
whose price it is.  One submission writes two slots: the oracle's own, which is read if the oracle
is a listed source, and the primary or the fallback one.  `SlotsApart` says slot by slot when every
candidate is of another configured oracle.
-/

namespace StellarLend.HelloWorld

open Foundations Call
open Lending (Address)

variable {now now' : ℕ} {o o' : OracleStore} {s s' : Storage} {asset v : Address}

/-! ## The ballot -/

/-- The feed of a slot, if it is fresh. -/
def freshFeed (now : ℕ) (o : OracleStore) (slot : Option PriceFeed) : Option PriceFeed :=
  slot.filter fun feed => !isPriceStale now o feed.lastUpdated

/-- The feed of the fallback slot, if it is fresh and of the fallback oracle. -/
def fallbackVote (now : ℕ) (o : OracleStore) (asset : Address) : Option PriceFeed :=
  (freshFeed now o (o.fallbackFeed asset)).filter fun feed =>
    getFallbackOracle o asset = some feed.oracle

/-- The feeds an aggregation takes its candidates from. -/
def ballot (now : ℕ) (o : OracleStore) (asset : Address) : List PriceFeed :=
  (freshFeed now o (o.priceFeed asset)).toList ++ (fallbackVote now o asset).toList ++
    (getOracleSources o asset).filterMap fun source =>
      freshFeed now o (getSourceFeed o asset source)

/-- The oracles they are of. -/
def voters (now : ℕ) (o : OracleStore) (asset : Address) : List Address :=
  (ballot now o asset).map PriceFeed.oracle

theorem bind_readFeed (now : ℕ) (o : OracleStore) (slot : Option PriceFeed) :
    (slot.map (readFeed now o)).bind FeedReading.candidate =
      (freshFeed now o slot).map PriceFeed.price := by
  cases slot with
  | none => rfl
  | some feed =>
    rw [freshFeed, Option.filter_some, Option.map_some, Option.bind_some, readFeed]
    cases isPriceStale now o feed.lastUpdated <;> rfl

theorem bind_readFallbackFeed (now : ℕ) (o : OracleStore) (asset : Address) :
    ((getFallbackOracle o asset).bind fun fallback =>
      (o.fallbackFeed asset).map (readFallbackFeed now o fallback)).bind FeedReading.candidate =
        (fallbackVote now o asset).map PriceFeed.price := by
  rw [fallbackVote, freshFeed]
  cases o.fallbackFeed asset with
  | none => cases getFallbackOracle o asset <;> rfl
  | some feed =>
    cases hfallback : getFallbackOracle o asset with
    | none => cases hstale : isPriceStale now o feed.lastUpdated <;> simp [Option.filter, hstale]
    | some fallback =>
      by_cases heq : feed.oracle = fallback
      · cases hstale : isPriceStale now o feed.lastUpdated <;>
          simp [Option.filter, readFallbackFeed, FeedReading.candidate, hstale, heq]
      · cases hstale : isPriceStale now o feed.lastUpdated <;>
          simp [Option.filter, readFallbackFeed, FeedReading.candidate, hstale, heq, Ne.symm heq]

theorem filterMap_toList {α β : Type} (f : α → Option β) (x : Option α) :
    x.toList.filterMap f = (x.bind f).toList := by
  cases x with
  | none => rfl
  | some a =>
    rw [Option.toList_some, List.filterMap_cons, Option.bind_some]
    cases f a <;> rfl

/-- **The candidates of an aggregation are the prices of the ballot.** -/
theorem ballot_prices (now : ℕ) (o : OracleStore) (asset : Address) :
    (feedReadings now o asset).filterMap FeedReading.candidate =
      (ballot now o asset).map PriceFeed.price := by
  rw [feedReadings, ballot, List.filterMap_append, List.filterMap_append, filterMap_toList,
    filterMap_toList, bind_readFeed, bind_readFallbackFeed, List.filterMap_filterMap,
    List.map_append, List.map_append, List.map_filterMap]
  simp only [bind_readFeed, Option.toList_map]

/-! ## One vote each -/

/-- The slot has a fresh feed of the oracle. -/
def hasFresh (now : ℕ) (o : OracleStore) (slot : Option PriceFeed) (v : Address) : Bool :=
  (freshFeed now o slot).any fun feed => feed.oracle = v

theorem hasFresh_iff {slot : Option PriceFeed} :
    hasFresh now o slot v = true ↔ (freshFeed now o slot).map PriceFeed.oracle = some v := by
  rw [hasFresh, Option.any_eq_true, Option.map_eq_some_iff]
  simp

theorem fallbackVote_iff : (fallbackVote now o asset).map PriceFeed.oracle = some v ↔
    getFallbackOracle o asset = some v ∧ hasFresh now o (o.fallbackFeed asset) v = true := by
  rw [hasFresh_iff, fallbackVote]
  cases freshFeed now o (o.fallbackFeed asset) with
  | none => simp
  | some feed =>
    by_cases hfeed : getFallbackOracle o asset = some feed.oracle
    · simp only [Option.filter_some, hfeed, decide_true, if_true, Option.map_some,
        Option.some.injEq, and_self]
    · simp only [Option.filter_some, hfeed, decide_false, Bool.false_eq_true, if_false,
        Option.map_none, Option.map_some, Option.some.injEq, reduceCtorEq, false_iff, not_and]
      rintro hv rfl
      exact hfeed hv

/-- The slot an oracle submits to as a listed source has prices of it alone. -/
def SourcesNamed (o : OracleStore) : Prop :=
  ∀ asset source feed, o.sourceFeed asset source = some feed → feed.oracle = source

/-- The listed sources with a fresh feed. -/
def freshSources (now : ℕ) (o : OracleStore) (asset : Address) (sources : List Address) :
    List Address :=
  sources.filter fun source => hasFresh now o (getSourceFeed o asset source) source

theorem voters_eq (h : SourcesNamed o) (now : ℕ) (asset : Address) : voters now o asset =
    ((freshFeed now o (o.priceFeed asset)).map PriceFeed.oracle).toList ++
      ((fallbackVote now o asset).map PriceFeed.oracle).toList ++
        freshSources now o asset (getOracleSources o asset) := by
  have hsource : ∀ source, (freshFeed now o (getSourceFeed o asset source)).map PriceFeed.oracle =
      Option.guard (fun source => hasFresh now o (getSourceFeed o asset source) source) source := by
    intro source
    cases hfresh : freshFeed now o (getSourceFeed o asset source) with
    | none => simp [hasFresh, hfresh, Option.guard]
    | some feed =>
      obtain ⟨hslot, -⟩ := Option.filter_eq_some_iff.mp hfresh
      simp [hasFresh, hfresh, Option.guard, h asset source feed hslot]
  rw [voters, ballot, List.map_append, List.map_append, List.map_filterMap, freshSources,
    ← List.filterMap_eq_filter]
  simp only [hsource, Option.toList_map]

/-- Of two optional first entries and a list nothing is named twice. -/
theorem nodup_slots {α : Type} {a b : Option α} {c : List α} :
    (a.toList ++ b.toList ++ c).Nodup ↔
      (∀ v, b = some v → a ≠ some v) ∧ c.Nodup ∧ ∀ v ∈ c, a ≠ some v ∧ b ≠ some v := by
  cases a <;> cases b <;> simp [List.nodup_cons]
  all_goals grind

/-- The oracle is configured for the asset, as the primary, the fallback or a listed one. -/
def ConfiguredFor (o : OracleStore) (asset v : Address) : Prop :=
  getPrimaryOracle o asset = some v ∨ getFallbackOracle o asset = some v ∨
    v ∈ getOracleSources o asset

/-- Whoever votes on the price is configured for the asset and votes once, so an aggregation that
succeeds rests on as many oracles as it asks for. -/
structure OneVote (now : ℕ) (o : OracleStore) (asset : Address) : Prop where
  configured : ∀ v ∈ voters now o asset, ConfiguredFor o asset v
  once : (voters now o asset).Nodup
  quorum : ∀ price, aggregateSpotPrice now o asset = .ok price →
    (getOracleConfig o).minSources ≤ (voters now o asset).toFinset.card

/-- The same, slot by slot. -/
structure SlotsApart (now : ℕ) (o : OracleStore) (asset : Address) : Prop where
  primary : ∀ v, hasFresh now o (o.priceFeed asset) v = true → ConfiguredFor o asset v
  apart : ∀ v, getFallbackOracle o asset = some v →
    hasFresh now o (o.fallbackFeed asset) v = true → hasFresh now o (o.priceFeed asset) v = false
  listed : (freshSources now o asset (getOracleSources o asset)).Nodup
  unlisted : ∀ v ∈ freshSources now o asset (getOracleSources o asset),
    hasFresh now o (o.priceFeed asset) v = false ∧
      ¬ (getFallbackOracle o asset = some v ∧ hasFresh now o (o.fallbackFeed asset) v = true)

/-! ## Quorum -/

/-- **An aggregation that succeeds has as many candidates as it asks for.** -/
theorem minSources_le {price : ℤ} (h : aggregateSpotPrice now o asset = .ok price) :
    (getOracleConfig o).minSources ≤ (voters now o asset).length := by
  have hle := minSources_le_length (aggregateSpotPrice_ok h).2
  rwa [candidates, ballot_prices, List.length_map, ← List.length_map, ← voters] at hle

theorem slotsApart_iff (h : SourcesNamed o) : SlotsApart now o asset ↔ OneVote now o asset := by
  have hmem : ∀ v, v ∈ voters now o asset ↔ hasFresh now o (o.priceFeed asset) v = true ∨
      (getFallbackOracle o asset = some v ∧ hasFresh now o (o.fallbackFeed asset) v = true) ∨
        v ∈ freshSources now o asset (getOracleSources o asset) := by
    intro v
    rw [voters_eq h, List.mem_append, List.mem_append, Option.mem_toList, Option.mem_toList,
      ← hasFresh_iff, fallbackVote_iff, or_assoc]
  have honce : (voters now o asset).Nodup ↔
      (∀ v, getFallbackOracle o asset = some v → hasFresh now o (o.fallbackFeed asset) v = true →
        hasFresh now o (o.priceFeed asset) v = false) ∧
      (freshSources now o asset (getOracleSources o asset)).Nodup ∧
      ∀ v ∈ freshSources now o asset (getOracleSources o asset),
        hasFresh now o (o.priceFeed asset) v = false ∧
          ¬ (getFallbackOracle o asset = some v ∧
            hasFresh now o (o.fallbackFeed asset) v = true) := by
    rw [voters_eq h, nodup_slots]
    simp only [ne_eq, ← hasFresh_iff, fallbackVote_iff, Bool.not_eq_true, and_imp]
  constructor
  · intro ht
    have hnodup := honce.mpr ⟨ht.apart, ht.listed, ht.unlisted⟩
    refine ⟨fun v hv => ?_, hnodup, fun price hprice => ?_⟩
    · obtain hprimary | ⟨hfallback, -⟩ | hsource := (hmem v).mp hv
      · exact ht.primary v hprimary
      · exact .inr (.inl hfallback)
      · exact .inr (.inr (List.mem_of_mem_filter hsource))
    · rw [List.toFinset_card_of_nodup hnodup]
      exact minSources_le hprice
  · intro ho
    obtain ⟨hapart, hlisted, hunlisted⟩ := honce.mp ho.once
    exact ⟨fun v hv => ho.configured v ((hmem v).mpr (.inl hv)), hapart, hlisted, hunlisted⟩

/-! ## Time -/

/-- No feed is of the future. -/
structure FeedsPast (now : ℕ) (o : OracleStore) : Prop where
  primary : ∀ asset feed, o.priceFeed asset = some feed → feed.lastUpdated ≤ now
  fallback : ∀ asset feed, o.fallbackFeed asset = some feed → feed.lastUpdated ≤ now
  source : ∀ asset source feed, o.sourceFeed asset source = some feed → feed.lastUpdated ≤ now

/-- **A slot that is fresh later was fresh before.** -/
theorem hasFresh_mono {slot : Option PriceFeed}
    (hpast : ∀ feed, slot = some feed → feed.lastUpdated ≤ now) (hnow : now ≤ now')
    (h : hasFresh now' o slot v = true) : hasFresh now o slot v = true := by
  rw [hasFresh_iff, Option.map_eq_some_iff] at h ⊢
  obtain ⟨feed, hfeed, hv⟩ := h
  refine ⟨feed, ?_, hv⟩
  rw [freshFeed, Option.filter_eq_some_iff] at hfeed ⊢
  obtain ⟨rfl, hstale⟩ := hfeed
  refine ⟨rfl, ?_⟩
  have hle := hpast feed rfl
  simp only [isPriceStale, Bool.not_or, Bool.and_eq_true, Bool.not_eq_true',
    decide_eq_false_iff_not, not_lt] at hstale ⊢
  omega

/-- Time only makes fresh prices stale. -/
theorem SlotsApart.mono (h : SlotsApart now o asset) (hpast : FeedsPast now o)
    (hnow : now ≤ now') : SlotsApart now' o asset := by
  have hprimary : ∀ v, hasFresh now' o (o.priceFeed asset) v = true →
      hasFresh now o (o.priceFeed asset) v = true :=
    fun v => hasFresh_mono (hpast.primary asset) hnow
  have hfallback : ∀ v, hasFresh now' o (o.fallbackFeed asset) v = true →
      hasFresh now o (o.fallbackFeed asset) v = true :=
    fun v => hasFresh_mono (hpast.fallback asset) hnow
  have hfilter : ∀ v, hasFresh now' o (getSourceFeed o asset v) v = true →
      hasFresh now o (getSourceFeed o asset v) v = true :=
    fun v => hasFresh_mono (hpast.source asset v) hnow
  have hsources : (freshSources now' o asset (getOracleSources o asset)).Sublist
      (freshSources now o asset (getOracleSources o asset)) :=
    List.monotone_filter_right _ hfilter
  have hold : ∀ v, hasFresh now o (o.priceFeed asset) v = false →
      hasFresh now' o (o.priceFeed asset) v = false := by
    intro v hv
    exact Bool.eq_false_iff.mpr fun hv' => Bool.eq_false_iff.mp hv (hprimary v hv')
  refine ⟨fun v hv => h.primary v (hprimary v hv),
    fun v hv hfresh => hold v (h.apart v hv (hfallback v hfresh)), h.listed.sublist hsources,
    fun v hv => ?_⟩
  obtain ⟨hapart, hother⟩ := h.unlisted v (hsources.subset hv)
  exact ⟨hold v hapart, fun hf => hother ⟨hf.1, hfallback v hf.2⟩⟩

end StellarLend.HelloWorld
