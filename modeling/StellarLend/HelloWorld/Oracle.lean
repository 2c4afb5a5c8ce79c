import StellarLend.Foundations.Checked
import StellarLend.Foundations.Call
import StellarLend.Lending.Storage
import Mathlib.Logic.Function.Basic

/-!
# HelloWorld/Oracle — the price an asset is read at

    breaker ──▸ cache ──▸ feeds ──median, outliers, median──▸ spot ──▸ TWAP ──▸ breaker ──▸ cache

`getPrice` runs over the oracle's own keys and the ledger time, and nothing else.  A read that
fails may still have written: it trips the breaker, or appends an observation, before it returns
its error, and a caller that catches the error keeps the write.
-/

namespace StellarLend.HelloWorld

open Foundations Call
open Lending (Address)

/-! ## Data -/

inductive OracleError where
  | invalidPrice
  | stalePrice
  | priceDeviationExceeded
  | invalidOracle
  | oraclePaused
  | overflow
  | unauthorized
  | assetNotSupported
  | fallbackNotConfigured
  | circuitBreakerOpen
  | notEnoughSources
  deriving DecidableEq, Repr

structure PriceFeed where
  price : ℤ
  lastUpdated : ℕ
  oracle : Address
  decimals : ℕ
  deriving DecidableEq, Repr

structure CachedPrice where
  price : ℤ
  cachedAt : ℕ
  ttl : ℕ
  deriving DecidableEq, Repr

structure OracleConfig where
  maxDeviationBps : ℤ
  maxStalenessSeconds : ℕ
  cacheTtlSeconds : ℕ
  minPrice : ℤ
  maxPrice : ℤ
  twapWindowSeconds : ℕ
  maxObservations : ℕ
  minSources : ℕ
  outlierDeviationBps : ℤ
  breakerDeviationBps : ℤ
  breakerCooldownSeconds : ℕ
  deriving DecidableEq, Repr

/-- An observed price, for the TWAP. -/
structure PriceObservation where
  price : ℤ
  timestamp : ℕ
  deriving DecidableEq, Repr

/-- The oracle's circuit breaker for one asset. -/
structure PriceBreaker where
  openUntil : ℕ
  lastSafePrice : ℤ
  lastTripTimestamp : ℕ
  deriving DecidableEq, Repr

/-- The oracle's keys. -/
structure OracleStore where
  priceFeed : Address → Option PriceFeed
  fallbackOracle : Address → Option Address
  primaryOracle : Address → Option Address
  fallbackFeed : Address → Option PriceFeed
  priceCache : Address → Option CachedPrice
  oracleConfig : Option OracleConfig
  pauseSwitches : Option (String → Option Bool)
  oracleSources : Address → Option (List Address)
  sourceFeed : Address → Address → Option PriceFeed
  priceHistory : Address → Option (List PriceObservation)
  circuitBreaker : Address → Option PriceBreaker

def OracleStore.empty : OracleStore where
  priceFeed := fun _ => none
  fallbackOracle := fun _ => none
  primaryOracle := fun _ => none
  fallbackFeed := fun _ => none
  priceCache := fun _ => none
  oracleConfig := none
  pauseSwitches := none
  oracleSources := fun _ => none
  sourceFeed := fun _ _ => none
  priceHistory := fun _ => none
  circuitBreaker := fun _ => none

/-- A computation of the oracle: it sees the ledger time and the oracle's keys. -/
abbrev OracleCall (α : Type) : Type := Call ℕ OracleStore OracleError α

/-! ## Configuration and feeds -/

/-- The source's `get_default_config`. -/
def OracleConfig.default : OracleConfig where
  maxDeviationBps := 500
  maxStalenessSeconds := 3600
  cacheTtlSeconds := 300
  minPrice := 1
  maxPrice := I128.MAX
  twapWindowSeconds := 900
  maxObservations := 64
  minSources := 1
  outlierDeviationBps := 1000
  breakerDeviationBps := 2500
  breakerCooldownSeconds := 600

def getOracleConfig (o : OracleStore) : OracleConfig := o.oracleConfig.getD .default

def getPrimaryOracle (o : OracleStore) (asset : Address) : Option Address := o.primaryOracle asset
def getFallbackOracle (o : OracleStore) (asset : Address) : Option Address := o.fallbackOracle asset

def getOracleSources (o : OracleStore) (asset : Address) : List Address :=
  (o.oracleSources asset).getD []

def getSourceFeed (o : OracleStore) (asset source : Address) : Option PriceFeed :=
  o.sourceFeed asset source

def validatePrice (o : OracleStore) (price : ℤ) : Except OracleError Unit :=
  if price ≤ 0 then .error .invalidPrice
  else if price < (getOracleConfig o).minPrice ∨ (getOracleConfig o).maxPrice < price then
    .error .invalidPrice
  else .ok ()

/-- A feed stamped in the future counts as stale. -/
def isPriceStale (now : ℕ) (o : OracleStore) (lastUpdated : ℕ) : Bool :=
  now < lastUpdated || (getOracleConfig o).maxStalenessSeconds < now - lastUpdated

/-- `|new - old| * 10000 / old`, each step checked. -/
def deviationBps (new old : ℤ) : Option ℤ :=
  (((if old < new then I128.checkedSub new old else I128.checkedSub old new).bind
    fun diff => I128.checkedMul diff 10000).bind fun scaled => I128.checkedDiv scaled old)

def checkPriceDeviation (o : OracleStore) (newPrice oldPrice : ℤ) : Except OracleError Unit :=
  if oldPrice = 0 then .ok ()
  else do
    let deviation ← orErr (deviationBps newPrice oldPrice) .overflow
    if (getOracleConfig o).maxDeviationBps < deviation then .error .priceDeviationExceeded
    else .ok ()

/-! ## The circuit breaker -/

def getBreakerState (o : OracleStore) (asset : Address) : PriceBreaker :=
  (o.circuitBreaker asset).getD ⟨0, 0, 0⟩

/-- The source's `set_breaker_state`. -/
def withBreaker (asset : Address) (state : PriceBreaker) (o : OracleStore) : OracleStore :=
  { o with circuitBreaker := Function.update o.circuitBreaker asset (some state) }

def isBreakerOpen (now : ℕ) (o : OracleStore) (asset : Address) : Bool :=
  now < (getBreakerState o asset).openUntil

/-- Compare a candidate with the last safe price.  The first candidate becomes the baseline; one
too far off opens the breaker, and that write precedes the error. -/
def maybeTripBreaker (asset : Address) (candidate : ℤ) : OracleCall Unit := do
  let config ← view getOracleConfig
  if config.breakerDeviationBps ≤ 0 then pure ()
  else do
    let state ← view fun o => getBreakerState o asset
    if state.lastSafePrice ≤ 0 then store (withBreaker asset ⟨0, candidate, 0⟩)
    else do
      let deviation ← okOr (deviationBps candidate state.lastSafePrice) .overflow
      if config.breakerDeviationBps < deviation then do
        let now ← asks id
        store (withBreaker asset
          ⟨U64.saturatingAdd now config.breakerCooldownSeconds, state.lastSafePrice, now⟩)
        fail .circuitBreakerOpen
      else pure ()

def recordSafePrice (asset : Address) (safePrice : ℤ) (o : OracleStore) : OracleStore :=
  withBreaker asset { getBreakerState o asset with lastSafePrice := safePrice } o

/-! ## Aggregation -/

/-- Insert behind the entries of a sorted prefix that are not larger. -/
def insertSorted (key : ℤ) : List ℤ → List ℤ
  | [] => [key]
  | x :: xs => if x ≤ key then x :: insertSorted key xs else key :: x :: xs

/-- The insertion sort of the source: the prefix grows by one entry at a time. -/
def insertionSort (values : List ℤ) : List ℤ :=
  values.foldl (fun prefixSorted key => insertSorted key prefixSorted) []

/-- The upper median. -/
def medianI128 (values : List ℤ) : Except OracleError ℤ :=
  orErr (insertionSort values)[values.length / 2]? .notEnoughSources

/-- The positive prices within the band around the median. -/
def keepNear (band median : ℤ) : List ℤ → Except OracleError (List ℤ)
  | [] => .ok []
  | p :: ps =>
    if p ≤ 0 then keepNear band median ps
    else do
      let deviation ← orErr (deviationBps p median) .overflow
      let kept ← keepNear band median ps
      .ok (if deviation ≤ band then p :: kept else kept)

def filterOutliers (o : OracleStore) (median : ℤ) (prices : List ℤ) :
    Except OracleError (List ℤ) :=
  if median ≤ 0 then .error .invalidPrice
  else if (getOracleConfig o).outlierDeviationBps ≤ 0 then .ok prices
  else keepNear (getOracleConfig o).outlierDeviationBps median prices

/-- What a feed contributes to the aggregation. -/
inductive FeedReading where
  | fresh (price : ℤ)
  | stale
  /-- A fresh fallback feed that the configured fallback oracle did not write. -/
  | mismatched
  deriving DecidableEq, Repr

/-- The price of a fresh feed. -/
def FeedReading.candidate : FeedReading → Option ℤ
  | .fresh price => some price
  | .stale => none
  | .mismatched => none

def readFeed (now : ℕ) (o : OracleStore) (feed : PriceFeed) : FeedReading :=
  if isPriceStale now o feed.lastUpdated then .stale else .fresh feed.price

def readFallbackFeed (now : ℕ) (o : OracleStore) (fallbackOracle : Address) (feed : PriceFeed) :
    FeedReading :=
  if feed.oracle = fallbackOracle ∧ isPriceStale now o feed.lastUpdated = false then
    .fresh feed.price
  else if isPriceStale now o feed.lastUpdated then .stale
  else .mismatched

/-- The feeds of an asset in the order they are read: primary, fallback, further sources. -/
def feedReadings (now : ℕ) (o : OracleStore) (asset : Address) : List FeedReading :=
  ((o.priceFeed asset).map (readFeed now o)).toList ++
    ((getFallbackOracle o asset).bind fun fallback =>
      (o.fallbackFeed asset).map (readFallbackFeed now o fallback)).toList ++
    (getOracleSources o asset).filterMap fun source =>
      (getSourceFeed o asset source).map (readFeed now o)

def aggregateSpotPrice (now : ℕ) (o : OracleStore) (asset : Address) : Except OracleError ℤ :=
  let readings := feedReadings now o asset
  let candidates := readings.filterMap FeedReading.candidate
  if candidates = [] then
    if .stale ∈ readings then .error .stalePrice else .error .fallbackNotConfigured
  else do
    let median ← medianI128 candidates
    let filtered ← filterOutliers o median candidates
    if filtered.length < (getOracleConfig o).minSources then .error .notEnoughSources
    else medianI128 filtered

/-! ## Time-weighted average -/

def loadHistory (o : OracleStore) (asset : Address) : List PriceObservation :=
  (o.priceHistory asset).getD []

/-- The newest observation goes last and the oldest are dropped. -/
def appendObservation (now : ℕ) (asset : Address) (price : ℤ) (o : OracleStore) : OracleStore :=
  if (getOracleConfig o).maxObservations = 0 then o
  else
    let history := loadHistory o asset ++ [⟨price, now⟩]
    { o with
      priceHistory := Function.update o.priceHistory asset
        (some (history.drop (history.length - (getOracleConfig o).maxObservations))) }

/-- The sums of the loop of `computeTwap`, and the observation that holds from `prevTime` on. -/
structure TwapState where
  weightedSum : ℤ
  totalTime : ℕ
  prev : PriceObservation
  prevTime : ℕ
  deriving DecidableEq, Repr

/-- Add a price held from `start` to `stop`. -/
def addSegment (price : ℤ) (start stop : ℕ) (sum : ℤ) (time : ℕ) : Except OracleError (ℤ × ℕ) :=
  if start < stop then do
    let held ← orErr (I128.checkedMul price ((stop - start : ℕ) : ℤ)) .overflow
    let sum ← orErr (I128.checkedAdd sum held) .overflow
    .ok (sum, U64.saturatingAdd time (stop - start))
  else .ok (sum, time)

/-- The loop of `computeTwap` over the observations after the first. -/
def twapLoop (now windowStart : ℕ) : TwapState → List PriceObservation →
    Except OracleError TwapState
  | st, [] => .ok st
  | st, cur :: rest =>
    if cur.timestamp ≤ windowStart then twapLoop now windowStart st rest
    else if now < cur.timestamp then .ok st
    else do
      let (sum, time) ← addSegment st.prev.price st.prevTime cur.timestamp st.weightedSum
        st.totalTime
      twapLoop now windowStart ⟨sum, time, cur, cur.timestamp⟩ rest

/-- The observation before the first one inside the window, or the oldest. -/
def twapStart (windowStart : ℕ) (history : List PriceObservation) : ℕ :=
  match history.findIdx? fun obs => windowStart ≤ obs.timestamp with
  | some i => i - 1
  | none => 0

def computeTwap (now : ℕ) (o : OracleStore) (asset : Address) (spotPrice : ℤ) :
    Except OracleError ℤ :=
  let window := (getOracleConfig o).twapWindowSeconds
  if window = 0 then .ok spotPrice
  else
    let windowStart := now - window
    let history := loadHistory o asset
    match history.drop (twapStart windowStart history) with
    | [] => .ok spotPrice
    | first :: rest => do
      let st ← twapLoop now windowStart ⟨0, 0, first, max first.timestamp windowStart⟩ rest
      let lastPrice := if st.prev.timestamp = 0 then spotPrice else st.prev.price
      let (sum, time) ← addSegment lastPrice st.prevTime now st.weightedSum st.totalTime
      if time = 0 then .ok spotPrice else orErr (I128.checkedDiv sum time) .overflow

/-! ## Reading a price -/

def getCachedPrice (now : ℕ) (o : OracleStore) (asset : Address) : Option ℤ :=
  match o.priceCache asset with
  | some cached =>
    if cached.cachedAt ≤ now ∧ now ≤ U64.saturatingAdd cached.cachedAt cached.ttl then
      some cached.price
    else none
  | none => none

def cachePrice (now : ℕ) (asset : Address) (price : ℤ) (o : OracleStore) : OracleStore :=
  { o with
    priceCache := Function.update o.priceCache asset
      (some ⟨price, now, (getOracleConfig o).cacheTtlSeconds⟩) }

/-- A price computed afresh: aggregated, averaged, and compared with the last safe price twice. -/
def freshPrice (asset : Address) : OracleCall ℤ := do
  let now ← asks id
  let aggregated ← view fun o => aggregateSpotPrice now o asset
  let spot ← ofExcept aggregated
  maybeTripBreaker asset spot
  store (appendObservation now asset spot)
  let averaged ← view fun o => computeTwap now o asset spot
  let twap ← ofExcept averaged
  maybeTripBreaker asset twap
  store (cachePrice now asset twap)
  store (recordSafePrice asset twap)
  pure twap

def getPrice (asset : Address) : OracleCall ℤ := do
  let now ← asks id
  let isOpen ← view fun o => isBreakerOpen now o asset
  failIf (isOpen = true) .circuitBreakerOpen
  let cached ← view fun o => getCachedPrice now o asset
  match cached with
  | some price => pure price
  | none => freshPrice asset

/-- A price, or a default where there is none. -/
def priceOr (default : ℤ) (asset : Address) {ε : Type} : Call ℕ OracleStore ε ℤ := do
  let price ← attempt (getPrice asset)
  pure (match price with
    | .ok price => price
    | .error _ => default)

end StellarLend.HelloWorld
