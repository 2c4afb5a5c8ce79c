import StellarLend.Foundations.IndexedMap
import StellarLend.HelloWorld.Aggregation
import StellarLend.HelloWorld.Liquidate

/-!
# HelloWorld/Valuation — what collateral is worth, as a computation of the oracle

    collateralValueLoop user assets ──ofOracle──▸ valueOn (held of the user) (factors) assets

Valuing collateral writes the oracle's keys and nothing else, and what it comes to depends on the
oracle, the holdings and the factors alone (`collateralValueLoop_eq`).  Over an oracle that has only
ever seen positive prices (`PricesPositive`), every price read is positive and collateral with
factors that are not negative is worth at least nothing.
-/

namespace StellarLend.HelloWorld

open Foundations Call
open Lending (Address)

variable {ε : Type} {e : Env} {s t s' : Storage} {now : ℕ} {o o' : OracleStore}

/-! ## The oracle as a part of the store -/

/-- The oracle's keys are a part of the store. -/
theorem oracle_isPart : IsPart Storage.oracle fun o s => { s with oracle := o } :=
  ⟨fun _ _ => rfl, fun _ _ _ => rfl, fun _ => rfl⟩

theorem ofOracle_ok {α : Type} {x : Call ℕ OracleStore ε α} {a : α} :
    (ofOracle x : Invocation ε α) e s = .ok a s' ↔
      ∃ o, x e.timestamp s.oracle = .ok a o ∧ { s with oracle := o } = s' := zoom_ok

/-! ## Valuing inside the oracle -/

/-- The loop of the valuation, over what is held and the factors it counts with. -/
def valueOn (held factor : Address → ℤ) :
    List Address → ℤ → Call ℕ OracleStore MultiCollateralError ℤ
  | [], total => pure total
  | asset :: rest, total =>
    if held asset = 0 then valueOn held factor rest total
    else do
      let price ← priceOr PRICE_DECIMALS asset
      let weighted ← ofExcept (weightedValue (held asset) price (factor asset))
      let total ← okOr (I128.checkedAdd total weighted) .overflow
      valueOn held factor rest total

/-- **Valuing collateral is a computation of the oracle.** -/
theorem collateralValueLoop_eq (user : Address) (assets : List Address) (total : ℤ) (s : Storage) :
    collateralValueLoop user assets total e s =
      ofOracle (valueOn (getUserAssetCollateral s user) (getCollateralFactor s) assets total)
        e s := by
  induction assets generalizing total s with
  | nil => rfl
  | cons asset rest ih =>
    change (if getUserAssetCollateral s user asset = 0 then collateralValueLoop user rest total
      else _) e s = _
    by_cases hheld : getUserAssetCollateral s user asset = 0
    · rw [if_pos hheld, valueOn, if_pos hheld]
      exact ih total s
    · rw [if_neg hheld, valueOn, if_neg hheld, ofOracle, oracle_isPart.zoom_bind]
      refine bind_congr_ok fun price t hprice => ?_
      obtain ⟨o', -, rfl⟩ := ofOracle_ok.mp hprice
      change (ofExcept (weightedValue _ price (getCollateralFactor s asset)) >>= _) e _ = _
      rw [oracle_isPart.zoom_bind, bind_congr oracle_isPart.zoom_ofExcept]
      refine bind_congr_ok fun weighted t hweighted => ?_
      obtain ⟨-, rfl⟩ := ofExcept_ok.mp hweighted
      rw [oracle_isPart.zoom_bind, bind_congr oracle_isPart.zoom_okOr]
      refine bind_congr_ok fun sum t hsum => ?_
      obtain ⟨-, rfl⟩ := okOr_ok.mp hsum
      exact ih sum _

theorem calculateTotalCollateralValue_eq (user : Address) (s : Storage) :
    calculateTotalCollateralValue user e s =
      ofOracle (valueOn (getUserAssetCollateral s user) (getCollateralFactor s)
        (getUserAssetList s user) 0) e s :=
  collateralValueLoop_eq user (getUserAssetList s user) 0 s

/-! ## Positive prices

An oracle accepts positive prices only, and what it makes of them stays positive. -/

/-- Every price on record is positive. -/
structure PricesPositive (o : OracleStore) : Prop where
  feed : ∀ asset f, o.priceFeed asset = some f → 0 < f.price
  fallback : ∀ asset f, o.fallbackFeed asset = some f → 0 < f.price
  source : ∀ asset source f, o.sourceFeed asset source = some f → 0 < f.price
  cache : ∀ asset c, o.priceCache asset = some c → 0 < c.price
  history : ∀ asset, ∀ obs ∈ loadHistory o asset, 0 < obs.price

theorem PricesPositive.empty : PricesPositive .empty where
  feed := nofun
  fallback := nofun
  source := nofun
  cache := nofun
  history := nofun

theorem PricesPositive.withBreaker (h : PricesPositive o) (asset : Address) (state : PriceBreaker) :
    PricesPositive (withBreaker asset state o) := ⟨h.feed, h.fallback, h.source, h.cache, h.history⟩

/-! ### Median -/

theorem PricesPositive.candidate (h : PricesPositive o) {asset : Address} {price : ℤ}
    (hp : price ∈ (feedReadings now o asset).filterMap FeedReading.candidate) : 0 < price := by
  obtain ⟨reading, hreading, hprice⟩ := List.mem_filterMap.mp hp
  obtain rfl : reading = .fresh price := by
    cases reading <;> simp [FeedReading.candidate] at hprice
    rw [hprice]
  simp only [feedReadings, readFeed, readFallbackFeed, List.mem_append, Option.mem_toList,
    Option.map_eq_some_iff, Option.bind_eq_some_iff, List.mem_filterMap, getSourceFeed] at hreading
  obtain (⟨f, hf, hr⟩ | ⟨fb, -, f, hf, hr⟩) | ⟨src, -, f, hf, hr⟩ := hreading
  · split at hr
    · cases hr
    · exact (FeedReading.fresh.inj hr) ▸ h.feed asset f hf
  · split at hr
    · exact (FeedReading.fresh.inj hr) ▸ h.fallback asset f hf
    · split at hr <;> cases hr
  · split at hr
    · cases hr
    · exact (FeedReading.fresh.inj hr) ▸ h.source asset src f hf

theorem PricesPositive.aggregate (h : PricesPositive o) {asset : Address} {price : ℤ}
    (hp : aggregateSpotPrice now o asset = .ok price) : 0 < price :=
  h.candidate (aggregateOf_ok (aggregateSpotPrice_ok hp).2).1

/-! ### Time-weighted average -/

/-- What a positive price adds to the sum is at least the time it was held. -/
theorem addSegment_ge {price sum sum' : ℤ} {start stop time time' : ℕ} (hprice : 0 < price)
    (hsum : (time : ℤ) ≤ sum) (h : addSegment price start stop sum time = .ok (sum', time')) :
    (time' : ℤ) ≤ sum' := by
  unfold addSegment at h
  split at h
  · simp only [except_bind_ok, orErr_ok, I128.checkedMul_eq_some, I128.checkedAdd_eq_some,
      Except.ok.injEq, Prod.mk.injEq] at h
    obtain ⟨held, ⟨-, rfl⟩, total, ⟨-, rfl⟩, rfl, rfl⟩ := h
    have hheld : ((stop - start : ℕ) : ℤ) ≤ price * ((stop - start : ℕ) : ℤ) :=
      le_mul_of_one_le_left (Int.natCast_nonneg _) hprice
    have htime : U64.saturatingAdd time (stop - start) ≤ time + (stop - start) := min_le_left _ _
    omega
  · rw [Except.ok.injEq, Prod.mk.injEq] at h
    rw [← h.1, ← h.2]
    exact hsum

theorem twapLoop_ge {windowStart : ℕ} {history : List PriceObservation} {st st' : TwapState}
    (hpos : ∀ obs ∈ history, 0 < obs.price) (hprev : 0 < st.prev.price)
    (hsum : (st.totalTime : ℤ) ≤ st.weightedSum)
    (h : twapLoop now windowStart st history = .ok st') :
    0 < st'.prev.price ∧ (st'.totalTime : ℤ) ≤ st'.weightedSum := by
  induction history generalizing st with
  | nil =>
    rw [twapLoop, Except.ok.injEq] at h
    rw [← h]
    exact ⟨hprev, hsum⟩
  | cons cur rest ih =>
    have hrest : ∀ obs ∈ rest, 0 < obs.price := fun obs hobs =>
      hpos obs (List.mem_cons_of_mem _ hobs)
    rw [twapLoop] at h
    split at h
    · exact ih hrest hprev hsum h
    · split at h
      · rw [Except.ok.injEq] at h
        rw [← h]
        exact ⟨hprev, hsum⟩
      · rw [except_bind_ok] at h
        obtain ⟨⟨sum, time⟩, hseg, h⟩ := h
        exact ih hrest (hpos cur (List.mem_cons_self ..)) (addSegment_ge hprev hsum hseg) h

theorem PricesPositive.computeTwap (h : PricesPositive o) {asset : Address} {spot twap : ℤ}
    (hspot : 0 < spot) (ht : computeTwap now o asset spot = .ok twap) : 0 < twap := by
  unfold HelloWorld.computeTwap at ht
  dsimp only at ht
  split at ht
  · exact Except.ok.inj ht ▸ hspot
  · split at ht
    · exact Except.ok.inj ht ▸ hspot
    · next first rest hdrop =>
      have hpos : ∀ obs ∈ first :: rest, 0 < obs.price := fun obs hobs =>
        h.history asset obs (List.mem_of_mem_drop (hdrop ▸ hobs))
      simp only [except_bind_ok] at ht
      obtain ⟨st, hloop, ⟨sum, time⟩, hseg, ht⟩ := ht
      obtain ⟨hprev, hsum⟩ := twapLoop_ge (fun obs hobs => hpos obs (List.mem_cons_of_mem _ hobs))
        (hpos first (List.mem_cons_self ..)) (le_refl 0) hloop
      have hlast : 0 < if st.prev.timestamp = 0 then spot else st.prev.price := by
        split
        · exact hspot
        · exact hprev
      have hge : (time : ℤ) ≤ sum := addSegment_ge hlast hsum hseg
      dsimp only at ht
      split at ht
      · exact Except.ok.inj ht ▸ hspot
      · next htime =>
        simp only [orErr_ok, I128.checkedDiv_eq_some] at ht
        obtain ⟨-, -, rfl⟩ := ht
        have htime : (0 : ℤ) < time := by omega
        rw [Int.tdiv_eq_ediv_of_nonneg (by omega)]
        exact (Int.le_ediv_iff_mul_le htime).mpr (by omega)

/-! ### Reading -/

/-- What is on record after an observation was there before, or is the observation. -/
theorem mem_appendObservation {asset a : Address} {price : ℤ} {obs : PriceObservation}
    (h : obs ∈ loadHistory (appendObservation now asset price o) a) :
    obs ∈ loadHistory o a ∨ a = asset ∧ obs = ⟨price, now⟩ := by
  unfold HelloWorld.appendObservation at h
  split at h
  · exact .inl h
  · dsimp only [loadHistory] at h
    by_cases ha : a = asset
    · rw [ha, Function.update_self, Option.getD_some] at h
      rw [ha]
      exact (List.mem_append.mp (List.mem_of_mem_drop h)).imp id fun hnew =>
        ⟨rfl, List.mem_singleton.mp hnew⟩
    · rw [Function.update_of_ne ha] at h
      exact .inl h

theorem PricesPositive.appendObservation (h : PricesPositive o) {asset : Address} {price : ℤ}
    (hp : 0 < price) : PricesPositive (appendObservation now asset price o) := by
  have hhistory : ∀ a, ∀ obs ∈ loadHistory (HelloWorld.appendObservation now asset price o) a,
      0 < obs.price := by
    intro a obs hobs
    obtain hold | ⟨-, rfl⟩ := mem_appendObservation hobs
    · exact h.history a obs hold
    · exact hp
  by_cases hzero : (getOracleConfig o).maxObservations = 0
  · rw [HelloWorld.appendObservation, if_pos hzero]
    exact h
  · rw [HelloWorld.appendObservation, if_neg hzero] at hhistory ⊢
    exact ⟨h.feed, h.fallback, h.source, h.cache, hhistory⟩

theorem PricesPositive.cachePrice (h : PricesPositive o) {asset : Address} {price : ℤ}
    (hp : 0 < price) : PricesPositive (cachePrice now asset price o) :=
  ⟨h.feed, h.fallback, h.source, forall_update h.cache hp, h.history⟩

/-- A property of the oracle and one of prices that every step of a reading keeps. -/
structure KeptByReading (I : OracleStore → Prop) (P : ℤ → Prop) : Prop where
  withBreaker : ∀ {o} asset state, I o → I (withBreaker asset state o)
  appendObservation : ∀ {o} now asset {price}, I o → P price →
    I (appendObservation now asset price o)
  cachePrice : ∀ {o} now asset {price}, I o → P price → I (cachePrice now asset price o)
  aggregate : ∀ {now o asset price}, I o → aggregateSpotPrice now o asset = .ok price → P price
  computeTwap : ∀ {now o asset spot price}, I o → P spot →
    computeTwap now o asset spot = .ok price → P price
  cached : ∀ {now o asset price}, I o → getCachedPrice now o asset = some price → P price

section KeptByReading

variable {I : OracleStore → Prop} {P : ℤ → Prop}

theorem maybeTripBreaker_keeps (hI : KeptByReading I P) (asset : Address) (candidate : ℤ) :
    Keeps I (maybeTripBreaker asset candidate) fun _ => True := by
  have hstore : ∀ state,
      Keeps I (store (withBreaker asset state) : OracleCall Unit) fun _ => True :=
    fun state => Keeps.store fun _ hs => hI.withBreaker asset state hs
  refine Keeps.bind (P := fun _ => True) (Keeps.view fun _ _ => trivial) fun config _ => ?_
  by_cases hoff : config.breakerDeviationBps ≤ 0
  · rw [if_pos hoff]
    exact Keeps.pure trivial
  · rw [if_neg hoff]
    refine Keeps.bind (P := fun _ => True) (Keeps.view fun _ _ => trivial) fun state _ => ?_
    by_cases hfirst : state.lastSafePrice ≤ 0
    · rw [if_pos hfirst]
      exact hstore _
    · rw [if_neg hfirst]
      refine Keeps.bind Keeps.okOr fun deviation _ => ?_
      by_cases hfar : config.breakerDeviationBps < deviation
      · rw [if_pos hfar]
        exact Keeps.bind (P := fun _ => True) (Keeps.asks fun _ => trivial) fun now _ =>
          Keeps.bind (hstore _) fun _ _ => Keeps.fail
      · rw [if_neg hfar]
        exact Keeps.pure trivial

theorem freshPrice_keeps (hI : KeptByReading I P) (asset : Address) :
    Keeps I (freshPrice asset) P := by
  refine Keeps.bind (P := fun _ => True) (Keeps.asks fun _ => trivial) fun now _ => ?_
  refine Keeps.bind (P := fun r => ∀ p, r = .ok p → P p)
    (Keeps.view fun _ hs _ hp => hI.aggregate hs hp) fun aggregated haggregated => ?_
  refine Keeps.bind Keeps.ofExcept fun spot hspot => ?_
  have hspot : P spot := haggregated spot hspot
  refine Keeps.bind (maybeTripBreaker_keeps hI asset spot) fun _ _ => ?_
  refine Keeps.bind (Keeps.store fun _ hs => hI.appendObservation now asset hs hspot) fun _ _ => ?_
  refine Keeps.bind (P := fun r => ∀ p, r = .ok p → P p)
    (Keeps.view fun _ hs _ hp => hI.computeTwap hs hspot hp) fun averaged haveraged => ?_
  refine Keeps.bind Keeps.ofExcept fun twap htwap => ?_
  have htwap : P twap := haveraged twap htwap
  refine Keeps.bind (maybeTripBreaker_keeps hI asset twap) fun _ _ => ?_
  refine Keeps.bind (Keeps.store fun _ hs => hI.cachePrice now asset hs htwap) fun _ _ => ?_
  refine Keeps.bind (Keeps.store fun _ hs => hI.withBreaker asset _ hs) fun _ _ => ?_
  exact Keeps.pure htwap

/-- **What the steps of a reading keep, a reading keeps.** -/
theorem getPrice_keeps (hI : KeptByReading I P) (asset : Address) :
    Keeps I (getPrice asset) P := by
  refine Keeps.bind (P := fun _ => True) (Keeps.asks fun _ => trivial) fun now _ => ?_
  refine Keeps.bind (P := fun _ => True) (Keeps.view fun _ _ => trivial) fun isOpen _ => ?_
  refine Keeps.bind Keeps.failIf fun _ _ => ?_
  refine Keeps.bind (P := fun r => ∀ p, r = some p → P p)
    (Keeps.view fun _ ho _ hp => hI.cached ho hp) fun cached hcached => ?_
  cases cached with
  | none => exact freshPrice_keeps hI asset
  | some price => exact Keeps.pure (hcached price rfl)

theorem priceOr_keeps (hI : KeptByReading I P) {default : ℤ} (hdefault : P default)
    (asset : Address) : Keeps I (priceOr default asset : Call ℕ OracleStore ε ℤ) P := by
  refine Keeps.bind (Keeps.attempt (getPrice_keeps hI asset)) fun r hr => Keeps.pure ?_
  cases r with
  | error _ => exact hdefault
  | ok price => exact hr price rfl

end KeptByReading

/-- **A price read is positive, and a reading leaves positive prices behind.** -/
theorem PricesPositive.kept : KeptByReading PricesPositive fun price => 0 < price where
  withBreaker asset state hs := hs.withBreaker asset state
  appendObservation _ _ _ hs hp := hs.appendObservation hp
  cachePrice _ _ _ hs hp := hs.cachePrice hp
  aggregate hs hp := hs.aggregate hp
  computeTwap hs hspot hp := hs.computeTwap hspot hp
  cached {now o asset price} hs hp := by
    unfold getCachedPrice at hp
    split at hp
    · next c hc =>
      split at hp
      · exact Option.some.inj hp ▸ hs.cache asset c hc
      · cases hp
    · cases hp

/-- The oracle without what readings write. -/
def OracleStore.setup (o : OracleStore) : OracleStore :=
  { o with
    priceCache := fun _ => none, priceHistory := fun _ => none, circuitBreaker := fun _ => none }

/-- A reading leaves the feeds, the sources and the settings alone. -/
theorem setup_kept (c : OracleStore) : KeptByReading (fun o => o.setup = c) fun _ => True where
  withBreaker _ _ hs := hs
  appendObservation {o} now asset price hs _ := by
    by_cases hzero : (getOracleConfig o).maxObservations = 0
    · rwa [HelloWorld.appendObservation, if_pos hzero]
    · rwa [HelloWorld.appendObservation, if_neg hzero]
  cachePrice _ _ _ hs _ := hs
  aggregate _ _ := trivial
  computeTwap _ _ _ := trivial
  cached _ _ := trivial

/-! ## The sign of a valuation -/

theorem weightedValue_nonneg {amount price factor value : ℤ} (hamount : 0 ≤ amount)
    (hprice : 0 < price) (hfactor : 0 ≤ factor)
    (h : weightedValue amount price factor = .ok value) : 0 ≤ value := by
  simp only [weightedValue, except_bind_ok, orErr_ok, I128.checkedMul_eq_some,
    I128.checkedDiv_eq_some] at h
  obtain ⟨_, ⟨-, rfl⟩, _, ⟨-, -, rfl⟩, _, ⟨-, rfl⟩, -, -, rfl⟩ := h
  exact Int.tdiv_nonneg (mul_nonneg (Int.tdiv_nonneg (mul_nonneg hamount hprice.le) (by decide))
    hfactor) (by decide)

/-- **Collateral held and counted at nonnegative factors is worth at least nothing.** -/
theorem valueOn_keeps (held factor : Address → ℤ) (assets : List Address) (total : ℤ) :
    Keeps PricesPositive (valueOn held factor assets total) fun value =>
      (∀ a ∈ assets, 0 ≤ held a) → (∀ a ∈ assets, 0 ≤ factor a) → 0 ≤ total → 0 ≤ value := by
  induction assets generalizing total with
  | nil => exact Keeps.pure fun _ _ htotal => htotal
  | cons asset rest ih =>
    rw [valueOn]
    by_cases hzero : held asset = 0
    · rw [if_pos hzero]
      refine (ih total).mono fun value h hheld hfactor => h ?_ ?_
      · exact fun a ha => hheld a (List.mem_cons_of_mem asset ha)
      · exact fun a ha => hfactor a (List.mem_cons_of_mem asset ha)
    · rw [if_neg hzero]
      refine Keeps.bind (priceOr_keeps PricesPositive.kept (by decide) asset) fun price hprice => ?_
      refine Keeps.bind Keeps.ofExcept fun weighted hweighted => ?_
      refine Keeps.bind Keeps.okOr fun sum hsum => (ih sum).mono fun value h => ?_
      intro hheld hfactor htotal
      rw [I128.checkedAdd_eq_some] at hsum
      have := weightedValue_nonneg (hheld asset (List.mem_cons_self ..)) hprice
        (hfactor asset (List.mem_cons_self ..)) hweighted
      refine h ?_ ?_ (by omega)
      · exact fun a ha => hheld a (List.mem_cons_of_mem asset ha)
      · exact fun a ha => hfactor a (List.mem_cons_of_mem asset ha)

theorem valueOn_setup (c : OracleStore) (held factor : Address → ℤ) (assets : List Address)
    (total : ℤ) :
    Keeps (fun o => o.setup = c) (valueOn held factor assets total) fun _ => True := by
  induction assets generalizing total with
  | nil => exact Keeps.pure trivial
  | cons asset rest ih =>
    rw [valueOn]
    by_cases hzero : held asset = 0
    · rw [if_pos hzero]
      exact ih total
    · rw [if_neg hzero]
      refine Keeps.bind (priceOr_keeps (setup_kept c) trivial asset) fun price _ => ?_
      exact Keeps.bind Keeps.ofExcept fun _ _ => Keeps.bind Keeps.okOr fun sum _ => ih sum

end StellarLend.HelloWorld
