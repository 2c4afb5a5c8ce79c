import StellarLend.HelloWorld.OracleVotes

/-!
# HelloWorld/OneVote — the runs in which an oracle has one vote

`Polled` is what a run should keep, slot by slot and for one asset.  A call changes the slots and
the oracles of one asset only, and its condition tells whether that asset is polled afterwards
(`steadyPrimary_iff`, `steadyFallback_iff`, `steadySources_iff`, `steadyFeed_iff`).
-/

namespace StellarLend.HelloWorld

open Foundations Call
open Lending (Address)

variable {now now' : ℕ} {e : Env} {o o' : OracleStore} {s s' : Storage} {tx : Tx} {d d' : Dated}
  {caller asset oracle v : Address} {price : ℤ} {decimals : ℕ}

/-! ## Who can submit -/

/-- A price does not deviate from itself. -/
theorem checkPriceDeviation_self (h : o.oracleConfig = none) (price : ℤ) :
    checkPriceDeviation o price price = .ok () := by
  have hconfig : getOracleConfig o = .default := by rw [getOracleConfig, h]; rfl
  unfold checkPriceDeviation
  split
  case isTrue => rfl
  case isFalse hne =>
    have hsub : I128.checkedSub price price = some 0 :=
      I128.checkedSub_eq_some.mpr ⟨by simp, sub_self price⟩
    have hscaled : I128.checkedMul 0 10000 = some 0 := rfl
    have hdiv : I128.checkedDiv 0 price = some 0 :=
      I128.checkedDiv_eq_some.mpr ⟨hne, by simp, Int.zero_tdiv price⟩
    have hdeviation : deviationBps price price = some 0 := by
      rw [deviationBps, if_neg (lt_irrefl price), hsub, Option.bind_some, hscaled,
        Option.bind_some, hdiv]
    rw [hdeviation, hconfig]
    rfl

/-- The oracle takes the price it has, or any price where it has none. -/
theorem FeedsKept.acceptable (h : FeedsKept d) (caller asset : Address) :
    ∃ price, Acceptable d.store caller asset price := by
  have hlimits : ∀ feed, replacedFeed d.store caller asset = some feed →
      0 < feed.price ∧ feed.price ≤ I128.MAX := by
    intro feed hfeed
    unfold replacedFeed at hfeed
    split at hfeed
    · exact h.fallback asset feed hfeed
    · exact h.primary asset feed hfeed
  have hunpaused : ¬ d.store.oracle.pauseSwitches.any (fun f => (f "pause_oracle").getD false) =
      true := by
    rw [h.unpaused]
    exact Bool.false_ne_true
  cases hreplaced : replacedFeed d.store caller asset with
  | none =>
    refine ⟨1, hunpaused, (validatePrice_iff h.config).mpr (by decide), fun feed hfeed => ?_⟩
    rw [hreplaced] at hfeed
    cases hfeed
  | some feed =>
    refine ⟨feed.price, hunpaused, (validatePrice_iff h.config).mpr (hlimits feed hreplaced),
      fun feed' hfeed => ?_⟩
    obtain rfl := Option.some.inj (hreplaced.symm.trans hfeed)
    exact checkPriceDeviation_self h.config feed.price

/-- **Whoever is authorised can submit, and nobody else.** -/
theorem canSubmit_iff (h : FeedsKept d) :
    CanSubmit d.store asset v ↔ Authorized d.store asset v := by
  constructor
  · intro hsubmit
    obtain ⟨price, hprice⟩ := h.acceptable v asset
    obtain ⟨s', hs'⟩ := hsubmit ⟨0, 0, v, [], [], fun _ _ _ => none, fun _ _ => false,
      fun _ _ _ _ _ _ => false⟩ price 0 hprice
    exact (updatePriceFeed_effect hs').authorized
  · intro hauthorized e price decimals hprice
    simp only [updatePriceFeed, storeOracle, view_seq, failIf_seq, ofExcept_seq, asks_seq,
      store_seq, pure_ok, exists_and_left]
    refine ⟨hprice.unpaused, ?_, ?_, _, (), hprice.valid, (), ?_, trivial, rfl⟩
    · simp only [decide_eq_false_iff_not]
      unfold Authorized at hauthorized
      tauto
    · exact fun hother => hother.2 rfl
    · rw [← replacedFeed]
      cases hreplaced : replacedFeed d.store v asset with
      | none => rfl
      | some feed => exact hprice.near feed hreplaced

/-! ## One asset -/

/-- Every candidate for the asset is of a configured oracle of its own, and its listed sources can
submit. -/
structure Polled (now : ℕ) (s : Storage) (asset : Address) : Prop where
  slots : SlotsApart now s.oracle asset
  authorized : ∀ v ∈ getOracleSources s.oracle asset, Authorized s asset v

/-- **What a run should keep is kept asset by asset.** -/
theorem polled_iff (h : FeedsKept d) :
    (∀ asset, Polled d.now d.store asset) ↔ OracleSound d := by
  constructor
  · intro hpolled
    refine ⟨fun now asset hnow => ?_, fun asset v hv => (canSubmit_iff h).mpr ?_⟩
    · exact (slotsApart_iff h.named).mp ((hpolled asset).slots.mono h.past hnow)
    · obtain hprimary | hfallback | hsource := hv
      · exact .inr (.inl hprimary)
      · exact .inr (.inr hfallback)
      · exact (hpolled asset).authorized v hsource
  · intro hsound asset
    refine ⟨(slotsApart_iff h.named).mpr (hsound.votes d.now asset le_rfl), fun v hv => ?_⟩
    exact (canSubmit_iff h).mp (hsound.submits asset v (.inr (.inr hv)))

/-- The slots and the oracles of an asset are the same. -/
structure SameFor (s s' : Storage) (asset : Address) : Prop where
  admin : getAdmin s' = getAdmin s
  config : s'.oracle.oracleConfig = s.oracle.oracleConfig
  primary : s'.oracle.primaryOracle asset = s.oracle.primaryOracle asset
  fallback : s'.oracle.fallbackOracle asset = s.oracle.fallbackOracle asset
  sources : s'.oracle.oracleSources asset = s.oracle.oracleSources asset
  priceFeed : s'.oracle.priceFeed asset = s.oracle.priceFeed asset
  fallbackFeed : s'.oracle.fallbackFeed asset = s.oracle.fallbackFeed asset
  sourceFeed : s'.oracle.sourceFeed asset = s.oracle.sourceFeed asset

theorem hasFresh_congr (h : o'.oracleConfig = o.oracleConfig) (now : ℕ) (slot : Option PriceFeed)
    (v : Address) : hasFresh now o' slot v = hasFresh now o slot v := by
  unfold hasFresh freshFeed isPriceStale getOracleConfig
  rw [h]

theorem freshSources_congr (h : o'.oracleConfig = o.oracleConfig) {sources : List Address}
    (hslots : ∀ v ∈ sources, o'.sourceFeed asset v = o.sourceFeed asset v) (now : ℕ) :
    freshSources now o' asset sources = freshSources now o asset sources := by
  refine List.filter_congr fun v hv => ?_
  rw [hasFresh_congr h, getSourceFeed, getSourceFeed, hslots v hv]

theorem SameFor.polled (h : SameFor s s' asset) (hpolled : Polled now s asset) :
    Polled now s' asset := by
  have hprimary : getPrimaryOracle s'.oracle asset = getPrimaryOracle s.oracle asset := h.primary
  have hfallback : getFallbackOracle s'.oracle asset = getFallbackOracle s.oracle asset :=
    h.fallback
  have hsources : getOracleSources s'.oracle asset = getOracleSources s.oracle asset :=
    congrArg (Option.getD · []) h.sources
  have hfresh : freshSources now s'.oracle asset (getOracleSources s.oracle asset) =
      freshSources now s.oracle asset (getOracleSources s.oracle asset) :=
    freshSources_congr h.config (fun v _ => congrFun h.sourceFeed v) now
  refine ⟨?_, ?_⟩
  · constructor <;>
      simp only [ConfiguredFor, hasFresh_congr h.config, hprimary, hfallback, hsources, hfresh,
        h.priceFeed, h.fallbackFeed]
    · exact hpolled.slots.primary
    · exact hpolled.slots.apart
    · exact hpolled.slots.listed
    · exact hpolled.slots.unlisted
  · simp only [Authorized, h.admin, hprimary, hfallback, hsources]
    exact hpolled.authorized

/-- A call that touches one asset is judged by it. -/
theorem polled_iff_self (h : ∀ b, Polled now s b) (hsame : ∀ b, b ≠ asset → SameFor s s' b) :
    Polled now s' asset ↔ ∀ b, Polled now s' b := by
  refine ⟨fun hasset b => ?_, fun hall => hall asset⟩
  rcases eq_or_ne b asset with rfl | hne
  · exact hasset
  · exact (hsame b hne).polled (h b)

/-! ## Setting the oracles of an asset -/

theorem steadyPrimary_iff (h : Polled now s asset) {primary : Address} (hs' : s' =
    { s with
      oracle :=
        { s.oracle with
          primaryOracle := Function.update s.oracle.primaryOracle asset (some primary) } }) :
    SteadyPrimary now s asset primary ↔ Polled now s' asset := by
  subst hs'
  have hself : ∀ v, Function.update s.oracle.primaryOracle asset (some primary) asset = some v ↔
      v = primary := by
    intro v
    rw [Function.update_self, Option.some.injEq, eq_comm]
  constructor
  · intro hsteady
    refine ⟨⟨fun v hv => ?_, h.slots.apart, h.slots.listed, h.slots.unlisted⟩,
      fun v hv => ?_⟩
    · exact (hsteady.feed v hv).imp_left (hself v).mpr
    · exact (hsteady.authorized v hv).imp_right (Or.imp_left (hself v).mpr)
  · intro hpolled
    refine ⟨fun v hv => ?_, fun v hv => ?_⟩
    · exact (hpolled.slots.primary v hv).imp_left (hself v).mp
    · exact (hpolled.authorized v hv).imp_right (Or.imp_left (hself v).mp)

theorem steadyFallback_iff (h : Polled now s asset) {fallback : Address} (hs' : s' =
    { s with
      oracle :=
        { s.oracle with
          fallbackOracle := Function.update s.oracle.fallbackOracle asset (some fallback) } }) :
    SteadyFallback now s asset fallback ↔ Polled now s' asset := by
  subst hs'
  have hself : ∀ v, Function.update s.oracle.fallbackOracle asset (some fallback) asset = some v ↔
      v = fallback := by
    intro v
    rw [Function.update_self, Option.some.injEq, eq_comm]
  constructor
  · intro hsteady
    refine ⟨⟨fun v hv => ?_, fun v hv hfresh => ?_, h.slots.listed, fun v hv => ⟨?_, ?_⟩⟩,
      fun v hv => ?_⟩
    · exact (hsteady.feed v hv).imp_right (Or.imp_left (hself v).mpr)
    · obtain rfl := (hself v).mp hv
      exact (hsteady.apart hfresh).1
    · exact (h.slots.unlisted v hv).1
    · rintro ⟨hfallback, hfresh⟩
      obtain rfl := (hself v).mp hfallback
      exact (hsteady.apart hfresh).2 hv
    · exact (hsteady.authorized v hv).imp_right (Or.imp_right (hself v).mpr)
  · intro hpolled
    refine ⟨fun v hv => ?_, fun v hv => ?_, fun hfresh => ⟨?_, fun hv => ?_⟩⟩
    · exact (hpolled.slots.primary v hv).imp_right (Or.imp_left (hself v).mp)
    · exact (hpolled.authorized v hv).imp_right (Or.imp_right (hself v).mp)
    · exact hpolled.slots.apart fallback ((hself fallback).mpr rfl) hfresh
    · exact (hpolled.slots.unlisted fallback hv).2 ⟨(hself fallback).mpr rfl, hfresh⟩

theorem steadySources_iff (h : Polled now s asset) {sources : List Address} (hs' : s' =
    { s with
      oracle :=
        { s.oracle with
          oracleSources := Function.update s.oracle.oracleSources asset (some sources) } }) :
    SteadySources now s asset sources ↔ Polled now s' asset := by
  subst hs'
  have hself : (Function.update s.oracle.oracleSources asset (some sources) asset).getD [] =
      sources := by
    rw [Function.update_self, Option.getD_some]
  constructor
  · intro hsteady
    refine ⟨⟨fun v hv => ?_, h.slots.apart, ?_, ?_⟩, ?_⟩
    · rw [ConfiguredFor, getOracleSources, hself]
      exact hsteady.feed v hv
    · rw [getOracleSources, hself]
      exact hsteady.listed
    · rw [getOracleSources, hself]
      exact hsteady.unlisted
    · rw [getOracleSources, hself]
      exact hsteady.authorized
  · intro hpolled
    obtain ⟨⟨hprimary, -, hlisted, hunlisted⟩, hauthorized⟩ := hpolled
    simp only [ConfiguredFor, getOracleSources, hself] at hprimary hlisted hunlisted hauthorized
    exact ⟨hprimary, hauthorized, hlisted, hunlisted⟩

/-! ## Submitting a price -/

/-- A feed of now is fresh. -/
theorem hasFresh_now (feed : PriceFeed) (hnow : feed.lastUpdated = now) (o : OracleStore)
    (v : Address) : hasFresh now o (some feed) v = decide (feed.oracle = v) := by
  have hstale : isPriceStale now o feed.lastUpdated = false := by simp [isPriceStale, hnow]
  simp [hasFresh, freshFeed, hstale]

/-- Who is not the primary oracle, nor the admin, and writes the fallback slot. -/
theorem writesFallback_iff : writesFallback s caller asset = true ↔
    getFallbackOracle s.oracle asset = some caller ∧
      getPrimaryOracle s.oracle asset ≠ some caller ∧ getAdmin s ≠ some caller := by
  simp [writesFallback, and_assoc]

/-- What a submission leaves of the asset. -/
structure Written (now : ℕ) (s s' : Storage) (caller asset oracle : Address) : Prop where
  admin : getAdmin s' = getAdmin s
  config : s'.oracle.oracleConfig = s.oracle.oracleConfig
  fallback : getFallbackOracle s'.oracle asset = getFallbackOracle s.oracle asset
  sources : getOracleSources s'.oracle asset = getOracleSources s.oracle asset
  primary : getPrimaryOracle s'.oracle asset =
    if getAdmin s = some caller then some oracle else getPrimaryOracle s.oracle asset
  priceFeed : ∀ v, hasFresh now s'.oracle (s'.oracle.priceFeed asset) v =
    if writesFallback s caller asset then hasFresh now s.oracle (s.oracle.priceFeed asset) v
    else decide (oracle = v)
  fallbackFeed : ∀ v, hasFresh now s'.oracle (s'.oracle.fallbackFeed asset) v =
    if writesFallback s caller asset then decide (oracle = v)
    else hasFresh now s.oracle (s.oracle.fallbackFeed asset) v
  own : hasFresh now s'.oracle (s'.oracle.sourceFeed asset oracle) oracle = true
  others : ∀ v, v ≠ oracle → s'.oracle.sourceFeed asset v = s.oracle.sourceFeed asset v

theorem Submitted.written (h : Submitted e s caller asset price decimals oracle s') :
    Written e.timestamp s s' caller asset oracle := by
  have hsame : s'.oracle = _ := congrArg Storage.oracle h.after
  have hconfig : s'.oracle.oracleConfig = s.oracle.oracleConfig := by rw [hsame]; rfl
  have hnow : ∀ v, hasFresh e.timestamp s.oracle (some ⟨price, e.timestamp, oracle, decimals⟩) v =
      decide (oracle = v) := hasFresh_now ⟨price, e.timestamp, oracle, decimals⟩ rfl s.oracle
  exact
    { admin := by rw [h.after]; rfl
      config := hconfig
      fallback := by rw [hsame]; rfl
      sources := by rw [hsame]; rfl
      primary := by
        rw [getPrimaryOracle, hsame, withFeed_primaryOracle]
        simp [getPrimaryOracle]
      priceFeed := fun v => by
        rw [hasFresh_congr hconfig, hsame, withFeed_priceFeed]
        cases writesFallback s caller asset <;> simp [hnow]
      fallbackFeed := fun v => by
        rw [hasFresh_congr hconfig, hsame, withFeed_fallbackFeed]
        cases writesFallback s caller asset <;> simp [hnow]
      own := by
        rw [hasFresh_congr hconfig, hsame, withFeed_sourceFeed, if_pos ⟨rfl, rfl⟩, hnow,
          decide_eq_true rfl]
      others := fun v hv => by
        rw [hsame, withFeed_sourceFeed, if_neg fun hboth => hv hboth.2] }

/-- A submission leaves the other assets. -/
theorem Submitted.sameFor (h : Submitted e s caller asset price decimals oracle s') {b : Address}
    (hb : b ≠ asset) : SameFor s s' b := by
  have hsame : s'.oracle = _ := congrArg Storage.oracle h.after
  exact
    { admin := by rw [h.after]; rfl
      config := by rw [hsame]; rfl
      fallback := by rw [hsame]; rfl
      sources := by rw [hsame]; rfl
      primary := by rw [hsame, withFeed_primaryOracle, if_neg fun hboth => hb hboth.1]
      priceFeed := by rw [hsame, withFeed_priceFeed, if_neg fun hboth => hb hboth.1]
      fallbackFeed := by rw [hsame, withFeed_fallbackFeed, if_neg fun hboth => hb hboth.1]
      sourceFeed := by
        funext v
        rw [hsame, withFeed_sourceFeed, if_neg fun hboth => hb hboth.1] }

/-- Whoever submits in its own name was configured, and the admin configures who it submits for. -/
theorem Submitted.configured (h : Submitted e s caller asset price decimals oracle s') :
    ConfiguredFor s'.oracle asset oracle := by
  have hwritten := h.written
  rw [ConfiguredFor, hwritten.primary, hwritten.fallback]
  by_cases hadmin : getAdmin s = some caller
  · rw [if_pos hadmin]
    exact .inl rfl
  · rw [if_neg hadmin, ← h.named.resolve_left hadmin]
    exact (h.authorized.resolve_left hadmin).imp_right .inl

/-- After a submission in the fallback slot, `oracle` is the fallback oracle. -/
theorem Submitted.fallback_eq (h : Submitted e s caller asset price decimals oracle s')
    (hwrites : writesFallback s caller asset = true) :
    getFallbackOracle s.oracle asset = some oracle := by
  obtain ⟨hfallback, -, hadmin⟩ := writesFallback_iff.mp hwrites
  rw [← h.named.resolve_left hadmin]
  exact hfallback

/-- An oracle that is not listed leaves what the sources count for. -/
theorem SteadyFeed.freshSources_eq (hsteady : SteadyFeed e.timestamp s caller asset oracle)
    (hwritten : Written e.timestamp s s' caller asset oracle) :
    freshSources e.timestamp s'.oracle asset (getOracleSources s'.oracle asset) =
      freshSources e.timestamp s.oracle asset (getOracleSources s.oracle asset) := by
  rw [hwritten.sources]
  refine freshSources_congr hwritten.config (fun v hv => hwritten.others v ?_) _
  rintro rfl
  exact hsteady.unlisted hv

theorem SteadyFeed.authorizes (hsteady : SteadyFeed e.timestamp s caller asset oracle)
    (hwritten : Written e.timestamp s s' caller asset oracle) (h : Polled e.timestamp s asset) :
    ∀ v ∈ getOracleSources s'.oracle asset, Authorized s' asset v := by
  rw [hwritten.sources]
  intro v hv
  rw [Authorized, hwritten.admin, hwritten.primary, hwritten.fallback]
  split
  case isTrue hadmin => exact (hsteady.authorized hadmin v hv).imp_right .inr
  case isFalse => exact h.authorized v hv

/-- A submission of the fallback oracle leaves the primary slot. -/
theorem SteadyFeed.slotsApart_fallback (hsteady : SteadyFeed e.timestamp s caller asset oracle)
    (h : SlotsApart e.timestamp s.oracle asset)
    (hsubmitted : Submitted e s caller asset price decimals oracle s')
    (hwrites : writesFallback s caller asset = true) :
    SlotsApart e.timestamp s'.oracle asset := by
  have hwritten := hsubmitted.written
  have hfresh := hsteady.freshSources_eq hwritten
  obtain ⟨-, -, hadmin⟩ := writesFallback_iff.mp hwrites
  have hfallback := hsubmitted.fallback_eq hwrites
  have hpriceFeed : ∀ v, hasFresh e.timestamp s'.oracle (s'.oracle.priceFeed asset) v =
      hasFresh e.timestamp s.oracle (s.oracle.priceFeed asset) v := by
    intro v
    rw [hwritten.priceFeed, if_pos hwrites]
  refine ⟨fun v hv => ?_, fun v hv _ => ?_, hfresh ▸ h.listed, fun v hv => ?_⟩
  · rw [ConfiguredFor, hwritten.primary, if_neg hadmin, hwritten.fallback, hwritten.sources]
    exact h.primary v (hpriceFeed v ▸ hv)
  · rw [hwritten.fallback, hfallback, Option.some.injEq] at hv
    rw [hpriceFeed, ← hv]
    exact hsteady.primary hwrites
  · rw [hfresh] at hv
    refine ⟨(hpriceFeed v).trans (h.unlisted v hv).1, ?_⟩
    rintro ⟨hv', -⟩
    rw [hwritten.fallback, hfallback, Option.some.injEq] at hv'
    exact hsteady.unlisted (hv' ▸ List.mem_of_mem_filter hv)

/-- Any other leaves the fallback slot. -/
theorem SteadyFeed.slotsApart_primary (hsteady : SteadyFeed e.timestamp s caller asset oracle)
    (h : SlotsApart e.timestamp s.oracle asset)
    (hsubmitted : Submitted e s caller asset price decimals oracle s')
    (hwrites : ¬ writesFallback s caller asset = true) :
    SlotsApart e.timestamp s'.oracle asset := by
  have hwritten := hsubmitted.written
  have hfresh := hsteady.freshSources_eq hwritten
  have hpriceFeed : ∀ v, hasFresh e.timestamp s'.oracle (s'.oracle.priceFeed asset) v =
      decide (oracle = v) := by
    intro v
    rw [hwritten.priceFeed, if_neg hwrites]
  have hfallbackFeed : ∀ v, hasFresh e.timestamp s'.oracle (s'.oracle.fallbackFeed asset) v =
      hasFresh e.timestamp s.oracle (s.oracle.fallbackFeed asset) v := by
    intro v
    rw [hwritten.fallbackFeed, if_neg hwrites]
  refine ⟨fun v hv => ?_, fun v hv hv' => ?_, hfresh ▸ h.listed, fun v hv => ?_⟩
  · obtain rfl := of_decide_eq_true ((hpriceFeed v).symm.trans hv)
    exact hsubmitted.configured
  · rw [hpriceFeed, decide_eq_false_iff_not]
    rintro rfl
    refine hsteady.fallback (Bool.eq_false_iff.mpr hwrites) ⟨hwritten.fallback ▸ hv, ?_⟩
    exact hfallbackFeed oracle ▸ hv'
  · rw [hfresh] at hv
    rw [hpriceFeed, hfallbackFeed, hwritten.fallback, decide_eq_false_iff_not]
    refine ⟨?_, (h.unlisted v hv).2⟩
    rintro rfl
    exact hsteady.unlisted (List.mem_of_mem_filter hv)

theorem SteadyFeed.polled (hsteady : SteadyFeed e.timestamp s caller asset oracle)
    (h : Polled e.timestamp s asset)
    (hsubmitted : Submitted e s caller asset price decimals oracle s') :
    Polled e.timestamp s' asset := by
  refine ⟨?_, hsteady.authorizes hsubmitted.written h⟩
  by_cases hwrites : writesFallback s caller asset = true
  · exact hsteady.slotsApart_fallback h.slots hsubmitted hwrites
  · exact hsteady.slotsApart_primary h.slots hsubmitted hwrites

theorem Polled.steadyFeed (h : Polled e.timestamp s' asset)
    (hsubmitted : Submitted e s caller asset price decimals oracle s') :
    SteadyFeed e.timestamp s caller asset oracle := by
  have hwritten := hsubmitted.written
  have hunlisted : oracle ∉ getOracleSources s.oracle asset := by
    intro hlisted
    rw [← hwritten.sources] at hlisted
    obtain ⟨hprimary, hfallback⟩ :=
      h.slots.unlisted oracle (List.mem_filter.mpr ⟨hlisted, hwritten.own⟩)
    cases hwrites : writesFallback s caller asset with
    | true =>
      refine hfallback ⟨?_, ?_⟩
      · rw [hwritten.fallback]
        exact hsubmitted.fallback_eq hwrites
      · rw [hwritten.fallbackFeed, if_pos hwrites, decide_eq_true rfl]
    | false =>
      rw [hwritten.priceFeed, if_neg (Bool.eq_false_iff.mp hwrites), decide_eq_true rfl] at hprimary
      cases hprimary
  refine ⟨hunlisted, fun hwrites => ?_, fun hwrites => ?_, fun hadmin v hv => ?_⟩
  · have hapart := h.slots.apart oracle (hwritten.fallback.trans (hsubmitted.fallback_eq hwrites))
    rw [hwritten.fallbackFeed, if_pos hwrites, hwritten.priceFeed, if_pos hwrites] at hapart
    exact hapart (decide_eq_true rfl)
  · rintro ⟨hfallback, hfresh⟩
    have hapart := h.slots.apart oracle (hwritten.fallback.trans hfallback)
    have hprimary := Bool.eq_false_iff.mp hwrites
    rw [hwritten.fallbackFeed, if_neg hprimary, hwritten.priceFeed, if_neg hprimary,
      decide_eq_true rfl] at hapart
    exact absurd (hapart hfresh) (by decide)
  · have hauthorized := h.authorized v (hwritten.sources ▸ hv)
    rw [Authorized, hwritten.admin, hwritten.primary, if_pos hadmin, hwritten.fallback,
      Option.some.injEq] at hauthorized
    refine hauthorized.imp_right (Or.resolve_left · ?_)
    rintro rfl
    exact hunlisted hv

/-! ## Runs -/

/-- A contract that gets its admin loses nobody's authorisation. -/
theorem Polled.initialized (h : Polled now s asset) (hnew : s.admin = none)
    (hsame : s'.oracle = s.oracle) : Polled now s' asset := by
  refine ⟨hsame ▸ h.slots, fun v hv => ?_⟩
  rw [Authorized, hsame]
  rw [hsame] at hv
  refine .inr ((h.authorized v hv).resolve_left ?_)
  rw [getAdmin, hnew]
  nofun

/-- **A call keeps what a run should keep if and only if it is steady.** -/
theorem steady_iff (hpolled : ∀ asset, Polled tx.env.timestamp d.store asset)
    (htends : tx.op.Tends tx.env d.store d'.store) :
    Steady d tx ↔ ∀ asset, Polled tx.env.timestamp d'.store asset := by
  obtain ⟨e, op⟩ := tx
  cases op <;> try exact htends.elim
  case initializeContract =>
    exact iff_of_true trivial fun asset => (hpolled asset).initialized htends.1 htends.2
  case updatePriceFeed caller asset price decimals oracle =>
    have hself : SteadyFeed e.timestamp d.store caller asset oracle ↔
        Polled e.timestamp d'.store asset :=
      ⟨fun h => h.polled (hpolled asset) htends, fun h => h.steadyFeed htends⟩
    exact hself.trans (polled_iff_self hpolled fun b hb => Submitted.sameFor htends hb)
  case setPrimaryOracle caller asset primary =>
    have hafter : d'.store = _ := htends
    refine (steadyPrimary_iff (hpolled asset) hafter).trans (polled_iff_self hpolled fun b hb => ?_)
    rw [hafter]
    constructor <;> simp [hb, getAdmin]
  case setFallbackOracle caller asset fallback =>
    have hafter : d'.store = _ := htends
    refine (steadyFallback_iff (hpolled asset) hafter).trans
      (polled_iff_self hpolled fun b hb => ?_)
    rw [hafter]
    constructor <;> simp [hb, getAdmin]
  case setOracleSources caller asset sources =>
    have hafter : d'.store = _ := htends
    refine (steadySources_iff (hpolled asset) hafter).trans (polled_iff_self hpolled fun b hb => ?_)
    rw [hafter]
    constructor <;> simp [hb, getAdmin]

/-- What a run keeps, and what it should keep. -/
structure Orderly (d : Dated) : Prop where
  kept : FeedsKept d
  polled : ∀ asset, Polled d.now d.store asset

theorem orderly_empty : Orderly Dated.empty :=
  ⟨.empty, fun _ => ⟨⟨nofun, nofun, List.nodup_nil, nofun⟩, nofun⟩⟩

theorem Polled.mono (h : Polled now s asset) (hpast : FeedsPast now s.oracle) (hnow : now ≤ now') :
    Polled now' s asset := ⟨h.slots.mono hpast hnow, h.authorized⟩

theorem steady_iff_orderly (h : Orderly d) (hstep : oracleStep tx d = some d') :
    Steady d tx ↔ Orderly d' := by
  obtain ⟨hnow, htime, htends⟩ := oracleStep_effect hstep
  have hpolled : ∀ asset, Polled tx.env.timestamp d.store asset :=
    fun asset => (h.polled asset).mono h.kept.past hnow
  rw [steady_iff hpolled htends, ← htime]
  exact ⟨fun hpolled' => ⟨h.kept.step hstep, hpolled'⟩, Orderly.polled⟩

/-- **Every oracle has one vote and every configured oracle can submit, in every state of a run, if
and only if every call of the run is steady.** -/
theorem oracle_sound_iff (txs : List Tx) :
    (∀ past, past <+: txs → OracleSound (run oracleStep Dated.empty past)) ↔
      Meets oracleStep Steady Dated.empty txs := by
  rw [meets_iff_throughout (fun _ _ _ hstep h => steady_iff_orderly h hstep) orderly_empty]
  have hkept : ∀ past, FeedsKept (run oracleStep Dated.empty past) := fun past =>
    run_invariant (fun _ _ _ hstep h => h.step hstep) past .empty
  refine forall₂_congr fun past _ => ⟨fun hsound => ⟨hkept past, ?_⟩, fun h => ?_⟩
  · exact (polled_iff (hkept past)).mpr hsound
  · exact (polled_iff h.kept).mp h.polled

namespace Sample

/-- Bob is the primary oracle and a listed source, and submits one price. -/
def listedTwice : List Tx :=
  [deploy, ⟨envAt 1 [admin], .setPrimaryOracle admin usdc bob⟩,
    ⟨envAt 1 [admin], .setOracleSources admin usdc [bob]⟩,
    ⟨envAt 2 [bob], .updatePriceFeed bob usdc 100 8 bob⟩]

/-- **His price counts twice.** -/
theorem votes_twice : voters 2 (run oracleStep Dated.empty listedTwice).store.oracle usdc =
      [bob, bob] ∧ ¬ OracleSound (run oracleStep Dated.empty listedTwice) := by
  have hvoters : voters 2 (run oracleStep Dated.empty listedTwice).store.oracle usdc =
      [bob, bob] := by decide
  refine ⟨hvoters, fun hsound => ?_⟩
  have honce := (hsound.votes 2 usdc (by decide)).once
  rw [hvoters] at honce
  exact absurd honce (by decide)

end Sample

end StellarLend.HelloWorld
