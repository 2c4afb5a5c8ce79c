import Mathlib.Data.List.Sort
import Mathlib.Data.NNRat.Defs
import StellarLend.OracleService.CircuitBreaker
import StellarLend.OracleService.PriceCache
import StellarLend.OracleService.PriceHistory
import StellarLend.OracleService.PriceValidator

/-!
# OracleService/PriceAggregator — a price from the cache, or from the providers in turn

`oracle/src/services/price-aggregator.ts`.

    getPrice ──hit──▸ cached price
        └──miss──▸ provider ⋯ answer ──▸ provider ⋯ answer ──▸ aggregate ──▸ cache, history

`getPrice` is cut where it waits for a provider (`⋯`), and what it does in between reads the clock
once.  `Fetch` is what it keeps while it waits.
-/

namespace StellarLend.OracleService

open Function

/-! ## Data -/

/-- A provider, apart from the requests it makes.  No weight is negative. -/
structure Provider where
  name : String
  priority : ℚ
  weight : ℚ≥0
  isEnabled : Bool

/-- A breaker's limits that are absent are the default ones. -/
structure AggregatorConfig where
  minSources : ℚ
  useWeightedMedian : Bool
  failureThreshold : Option ℚ
  backoffMs : Option ℚ

def AggregatorConfig.default : AggregatorConfig := ⟨1, true, none, none⟩

/-- A confidence is absent if it is a quotient by zero: as neither `NaN` nor `Infinity` it is below
any threshold. -/
structure AggregatedPrice where
  asset : String
  price : ℤ
  sources : List PriceData
  timestamp : ℤ
  confidence : Option ℚ
  deriving DecidableEq

structure PriceAggregator where
  providers : List Provider
  validator : PriceValidator
  cache : PriceCache
  priceHistory : PriceHistoryService
  config : AggregatorConfig
  circuitBreakers : String → Option CircuitBreaker

/-- What the promise of `getPrice` settles to. -/
inductive PriceAnswer where
  | threw
  | absent
  | price (p : AggregatedPrice)
  deriving DecidableEq

/-- A request of a provider that has not answered yet: the providers after it, and what those before
it answered. -/
structure Fetch where
  asset : String
  provider : Provider
  rest : List Provider
  prices : List PriceData

/-- How far `getPrice` has come. -/
inductive Progress where
  | waiting (fetch : Fetch)
  | cached (p : AggregatedPrice)
  | fetched (answer : PriceAnswer)

/-- The request that is waited for. -/
def Progress.request : Progress → Option Fetch
  | .waiting fetch => some fetch
  | .cached _ => none
  | .fetched _ => none

theorem Progress.request_eq_some {progress : Progress} {fetch : Fetch} :
    progress.request = some fetch ↔ progress = .waiting fetch := by
  unfold request
  split <;> simp

/-- The price that was fetched. -/
def Progress.aggregated : Progress → Option AggregatedPrice
  | .waiting _ => none
  | .cached _ => none
  | .fetched (.price p) => some p
  | .fetched .absent => none
  | .fetched .threw => none

theorem Progress.aggregated_eq_some {progress : Progress} {p : AggregatedPrice} :
    progress.aggregated = some p ↔ progress = .fetched (.price p) := by
  unfold aggregated
  split <;> simp

def PriceHistoryService.addAggregatedPrice (toUpperCase : String → String)
    (s : PriceHistoryService) (p : AggregatedPrice) : PriceHistoryService :=
  s.addPriceEntry toUpperCase p.asset p.price p.timestamp

namespace PriceAggregator

def breakerConfig (config : AggregatorConfig) (name : String) : CircuitBreakerConfig :=
  let default := CircuitBreakerConfig.default name
  { default with
    failureThreshold := config.failureThreshold.getD default.failureThreshold
    backoffMs := config.backoffMs.getD default.backoffMs }

def new (providers : List Provider) (validator : PriceValidator) (cache : PriceCache)
    (priceHistory : PriceHistoryService) (config : AggregatorConfig) (now : ℤ) :
    PriceAggregator :=
  let providers := (providers.filter Provider.isEnabled).insertionSort fun a b =>
    a.priority ≤ b.priority
  { providers
    validator
    cache
    priceHistory
    config
    circuitBreakers name :=
      if name ∈ providers.map Provider.name then some (.new (breakerConfig config name) now)
      else none }

end PriceAggregator

/-! ## Aggregation -/

section Aggregation

variable (config : AggregatorConfig) (providers : List Provider) (now : ℤ) (asset : String)
  (prices : List PriceData)

/-- The weight of a source that is no provider is a tenth. -/
def weightOf (source : String) : ℚ :=
  match providers.find? fun p => p.name = source with
  | some provider => provider.weight
  | none => 1 / 10

def sortedByPrice : List PriceData := prices.insertionSort fun a b => a.price ≤ b.price

/-- The loop of `weightedMedian`. -/
def reachHalf (halfWeight : ℚ) : ℚ → List PriceData → Option ℤ
  | _, [] => none
  | cumWeight, p :: rest =>
    let cumWeight := cumWeight + weightOf providers p.source
    if halfWeight ≤ cumWeight then some p.price else reachHalf halfWeight cumWeight rest

/-- Without a price the source reads a property of `undefined`, which throws. -/
def weightedMedian : Option ℤ :=
  let sorted := sortedByPrice prices
  let totalWeight := (sorted.map fun p => weightOf providers p.source).sum
  (reachHalf providers (totalWeight / 2) 0 sorted).or (sorted.getLast?.map PriceData.price)

def simpleMedian : Option ℤ :=
  let sorted := sortedByPrice prices
  let mid := sorted.length / 2
  if sorted.length % 2 = 0 then do
    let low ← sorted[mid - 1]?
    let high ← sorted[mid]?
    some ((low.price + high.price).tdiv 2)
  else sorted[mid]?.map PriceData.price

/-- The mean of the confidences, each with its provider's weight. -/
def weightedConfidence : Option ℚ :=
  let totalWeight : ℚ := ((providers.filter fun p => prices.any fun pr => pr.source = p.name).map
    fun p => (p.weight : ℚ)).sum
  if totalWeight = 0 then none
  else some ((prices.map fun p => p.confidence * weightOf providers p.source).sum / totalWeight)

/-- `none` where the source throws. -/
def aggregate : Option AggregatedPrice :=
  match prices with
  | [p] => some ⟨asset, p.price, [p], unixSeconds now, some p.confidence⟩
  | prices =>
    let aggregatedPrice :=
      if config.useWeightedMedian then weightedMedian providers prices else simpleMedian prices
    let confidence := (weightedConfidence providers prices).map fun c => (Insurance.round c : ℚ)
    aggregatedPrice.map fun price => ⟨asset, price, prices, unixSeconds now, confidence⟩

variable {config providers now asset prices}

/-- **An aggregate is of the moment**, whenever its sources were observed. -/
theorem aggregate_eq_some {p : AggregatedPrice}
    (h : aggregate config providers now asset prices = some p) :
    p.asset = asset ∧ p.sources = prices ∧ p.timestamp = unixSeconds now := by
  unfold aggregate at h
  split at h
  · obtain rfl := Option.some.inj h
    exact ⟨rfl, rfl, rfl⟩
  · obtain ⟨price, -, rfl⟩ := Option.map_eq_some_iff.mp h
    exact ⟨rfl, rfl, rfl⟩

end Aggregation

namespace PriceAggregator

variable (texts : Texts) (now : ℤ) (a : PriceAggregator) (asset : String)

/-! ## Providers in turn -/

/-- The first provider whose breaker lets a request through, and those after it. -/
def nextAllowed : List Provider → (String → Option CircuitBreaker) →
    Option (Provider × List Provider) × (String → Option CircuitBreaker)
  | [], breakers => (none, breakers)
  | provider :: rest, breakers =>
    match breakers provider.name with
    | none => (some (provider, rest), breakers)
    | some breaker =>
      let (allowed, breaker) := breaker.isAllowed now
      let breakers := update breakers provider.name (some breaker)
      if allowed then (some (provider, rest), breakers) else nextAllowed rest breakers

/-- What a breaker is told. -/
def report (name : String) (outcome : CircuitBreaker → CircuitBreaker) : PriceAggregator :=
  { a with
    circuitBreakers := update a.circuitBreakers name ((a.circuitBreakers name).map outcome) }

/-- A provider's answer, which is absent if the request failed. -/
def settle (name : String) (answer : Option RawPriceData) : Option PriceData × PriceAggregator :=
  match answer with
  | none => (none, a.report name (CircuitBreaker.recordFailure now))
  | some raw =>
    match a.validator.validate texts now raw with
    | (.ok price, validator) =>
      (some price, { a with validator }.report name (CircuitBreaker.recordSuccess now))
    | (.error _, validator) =>
      (none, { a with validator }.report name (CircuitBreaker.recordFailure now))

/-- The end of `getPrice`, after `fetchWithFallback`. -/
def conclude (prices : List PriceData) : PriceAnswer × PriceAggregator :=
  if prices.length < a.config.minSources then (.absent, a)
  else
    match aggregate a.config a.providers now asset prices with
    | none => (.threw, a)
    | some aggregated =>
      (.price aggregated,
        { a with
          cache := a.cache.setPrice texts.toUpperCase asset aggregated.price none now
          priceHistory := a.priceHistory.addAggregatedPrice texts.toUpperCase aggregated })

/-- `fetchWithFallback`, up to the next request. -/
def proceed (providers : List Provider) (prices : List PriceData) : Progress × PriceAggregator :=
  match nextAllowed now providers a.circuitBreakers with
  | (some (provider, rest), circuitBreakers) =>
    (.waiting ⟨asset, provider, rest, prices⟩, { a with circuitBreakers })
  | (none, circuitBreakers) =>
    let (answer, a) := { a with circuitBreakers }.conclude texts now asset prices
    (.fetched answer, a)

/-- What is answered from the cache: with the time of the answer, and full confidence. -/
def hit (upperAsset : String) (cachedPrice : ℤ) : AggregatedPrice :=
  ⟨upperAsset, cachedPrice, [], unixSeconds now, some 100⟩

/-- `getPrice`, up to the first request. -/
def getPrice : Progress × PriceAggregator :=
  let upperAsset := texts.toUpperCase asset
  match a.cache.getPrice texts.toUpperCase upperAsset now with
  | (some cachedPrice, cache) => (.cached (hit now upperAsset cachedPrice), { a with cache })
  | (none, cache) => { a with cache }.proceed texts now upperAsset a.providers []

/-- It goes on when the provider has answered. -/
def resume (fetch : Fetch) (answer : Option RawPriceData) : Progress × PriceAggregator :=
  let (price, a) := a.settle texts now fetch.provider.name answer
  a.proceed texts now fetch.asset fetch.rest (fetch.prices ++ price.toList)

end PriceAggregator

end StellarLend.OracleService
