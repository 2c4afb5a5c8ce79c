import StellarLend.Insurance.Checks

/-!
# OracleService/PriceValidator — what becomes of a provider's answer

`oracle/src/services/price-validator.ts`.

    answer ──limits, age, deviation──▸ scaled price, with a confidence between 0 and 100

Instants are milliseconds, timestamps whole seconds, and other numbers exact.  `Texts` is what the
source takes from JavaScript's strings.
-/

namespace StellarLend.OracleService

open Function

/-- `toUpperCase`, how a number prints, and `toFixed`. -/
structure Texts where
  toUpperCase : String → String
  number : ℚ → String
  toFixed : ℕ → ℚ → String

/-- `Math.floor(now / 1000)`. -/
def unixSeconds (now : ℤ) : ℤ := now / 1000

/-! ## Data -/

structure RawPriceData where
  asset : String
  price : ℚ
  timestamp : ℤ
  source : String
  deriving DecidableEq

structure PriceData where
  asset : String
  price : ℤ
  timestamp : ℤ
  source : String
  confidence : ℚ
  deriving DecidableEq

inductive ValidationErrorCode where
  | priceZero
  | priceNegative
  | priceStale
  | priceDeviationTooHigh
  | invalidAsset
  | sourceUnavailable
  deriving DecidableEq, Repr

structure ValidationError where
  code : ValidationErrorCode
  message : String
  deriving DecidableEq

/-- The limits of a validation.  `loadConfig` takes the two that the confidence is divided by only
if they are positive. -/
structure ValidatorConfig where
  maxDeviationPercent : ℚ
  maxStalenessSeconds : ℚ
  minPrice : ℚ
  maxPrice : ℚ
  sourceWeights : String → Option ℚ
  deviation_pos : 0 < maxDeviationPercent
  staleness_pos : 0 < maxStalenessSeconds

def ValidatorConfig.default : ValidatorConfig where
  maxDeviationPercent := 10
  maxStalenessSeconds := 300
  minPrice := 1 / 10000000
  maxPrice := 1000000000
  sourceWeights source :=
    if source = "coingecko" then some 1
    else if source = "binance" then some (95 / 100)
    else if source = "coinmarketcap" then some 1
    else none
  deviation_pos := by norm_num
  staleness_pos := by norm_num

structure PriceValidator where
  config : ValidatorConfig
  cachedPrices : String → Option ℚ

def PRICE_SCALE : ℤ := 1000000

def scalePrice (price : ℚ) : ℤ := Insurance.round (price * PRICE_SCALE)

/-! ## Validation -/

/-- The percentage by which a price is off another. -/
def deviationPercent (price cachedPrice : ℚ) : ℚ := |(price - cachedPrice) / cachedPrice| * 100

namespace PriceValidator

variable (texts : Texts) (validator : PriceValidator) (now : ℤ) (raw : RawPriceData)

def new (config : ValidatorConfig) : PriceValidator := ⟨config, fun _ => none⟩

/-- The age of an answer, in seconds. -/
def age : ℤ := unixSeconds now - raw.timestamp

/-- A weight of zero is falsy. -/
def sourceWeight (source : String) : ℚ :=
  match validator.config.sourceWeights source with
  | some weight => if weight = 0 then 1 else weight
  | none => 1

def calculateConfidence (cachedPrice : Option ℚ) : ℚ :=
  let ageRatio := age now raw / validator.config.maxStalenessSeconds
  let confidence := 100 - min 20 (ageRatio * 20)
  let confidence := match cachedPrice with
    | some cachedPrice =>
      let deviationRatio :=
        deviationPercent raw.price cachedPrice / validator.config.maxDeviationPercent
      confidence - min 30 (deviationRatio * 30)
    | none => confidence
  max 0 (min 100 (confidence * validator.sourceWeight raw.source))

/-- The checks of `validate`, in the order of the source. -/
def validationErrors : List ValidationError :=
  let price := texts.number raw.price
  let minPrice := texts.number validator.config.minPrice
  let maxPrice := texts.number validator.config.maxPrice
  let age := age now raw
  let maxAge := texts.number validator.config.maxStalenessSeconds
  (if raw.price ≤ 0 then [⟨.priceZero, s!"Price must be positive, got {price}"⟩] else []) ++
  (if raw.price < validator.config.minPrice then
    [⟨.priceZero, s!"Price {price} below minimum {minPrice}"⟩] else []) ++
  (if validator.config.maxPrice < raw.price then
    [⟨.priceDeviationTooHigh, s!"Price {price} exceeds maximum {maxPrice}"⟩] else []) ++
  (if validator.config.maxStalenessSeconds < age then
    [⟨.priceStale, s!"Price is {age}s old, max allowed is {maxAge}s"⟩] else []) ++
  match validator.cachedPrices raw.asset with
  | some cachedPrice =>
    let deviation := deviationPercent raw.price cachedPrice
    let percent := texts.toFixed 2 deviation
    let maxPercent := texts.number validator.config.maxDeviationPercent
    if validator.config.maxDeviationPercent < deviation then
      [⟨.priceDeviationTooHigh, s!"Price deviation {percent}% exceeds max {maxPercent}%"⟩]
    else []
  | none => []

def validate : Except (List ValidationError) PriceData × PriceValidator :=
  let errors := validator.validationErrors texts now raw
  if errors = [] then
    let validatedPrice : PriceData :=
      { asset := texts.toUpperCase raw.asset
        price := scalePrice raw.price
        timestamp := raw.timestamp
        source := raw.source
        confidence := validator.calculateConfidence now raw (validator.cachedPrices raw.asset) }
    (.ok validatedPrice,
      { validator with
        cachedPrices := update validator.cachedPrices raw.asset (some raw.price) })
  else (.error errors, validator)

/-! ### What validation says -/

variable {texts validator now raw}

/-- **A price is taken with the timestamp of its answer**, which is not too old yet. -/
theorem validate_ok {price : PriceData} (h : (validator.validate texts now raw).1 = .ok price) :
    price.timestamp = raw.timestamp ∧ price.source = raw.source ∧ 0 < raw.price ∧
      age now raw ≤ validator.config.maxStalenessSeconds := by
  unfold validate at h
  dsimp only at h
  split at h
  case isFalse => cases h
  case isTrue hnone =>
    obtain rfl := Except.ok.inj h
    simp only [validationErrors, List.append_eq_nil_iff, ite_eq_right_iff, imp_false, not_le,
      not_lt, List.cons_ne_nil] at hnone
    exact ⟨rfl, rfl, hnone.1.1.1.1, hnone.1.2⟩

/-- A confidence is a percentage. -/
theorem confidence_bounds (cachedPrice : Option ℚ) :
    0 ≤ validator.calculateConfidence now raw cachedPrice ∧
      validator.calculateConfidence now raw cachedPrice ≤ 100 := by
  unfold calculateConfidence
  exact ⟨le_max_left _ _, max_le (by norm_num) (min_le_left _ _)⟩

/-- An answer that is refused leaves nothing behind. -/
theorem validate_error {errors : List ValidationError}
    (h : (validator.validate texts now raw).1 = .error errors) :
    (validator.validate texts now raw).2 = validator := by
  unfold validate at h ⊢
  dsimp only at h ⊢
  split at h
  case isTrue => cases h
  case isFalse hsome => rw [if_neg hsome]

variable (texts validator now raw) in
theorem validate_config : (validator.validate texts now raw).2.config =
    validator.config := by
  unfold validate
  dsimp only
  split <;> rfl

end PriceValidator

end StellarLend.OracleService
