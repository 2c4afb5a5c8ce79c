import StellarLend.Foundations.Median
import StellarLend.OracleService.PriceAggregator

/-!
# OracleService/WeightedMedian — the aggregated price halves the weight

`weightedMedian` sorts the prices and adds the weights of their sources up to a half of the whole.
As every source has some weight, the price that it stops at is the one that half of the weight
reaches: neither what is below it nor what is above weighs more than half, and it is the same price
in whatever order the sources answered.
-/

namespace StellarLend.OracleService

open Foundations

variable {providers : List Provider} {prices prices' : List PriceData} {price : ℤ}

/-- The weight of a price's source. -/
def PriceData.weight (providers : List Provider) (p : PriceData) : ℚ :=
  weightOf providers p.source

/-- The weight of all the prices. -/
def wholeWeight (providers : List Provider) (prices : List PriceData) : ℚ :=
  (prices.map (PriceData.weight providers)).sum

/-- Every source has a weight, if every provider has one. -/
theorem weight_pos (hproviders : ∀ p ∈ providers, 0 < p.weight) (p : PriceData) :
    0 < p.weight providers := by
  rw [PriceData.weight, weightOf]
  split
  · rename_i provider hfound
    exact NNRat.cast_pos.mpr (hproviders provider (List.mem_of_find?_eq_some hfound))
  · norm_num

theorem wholeWeight_pos (hproviders : ∀ p ∈ providers, 0 < p.weight) (hne : prices ≠ []) :
    0 < wholeWeight providers prices := by
  refine List.sum_pos _ (fun w hw => ?_) (by simpa using hne)
  obtain ⟨p, -, rfl⟩ := List.mem_map.mp hw
  exact weight_pos hproviders p

theorem wholeWeight_perm (h : prices'.Perm prices) :
    wholeWeight providers prices' = wholeWeight providers prices := (h.map _).sum_eq

/-! ## The scan -/

theorem sortedByPrice_perm (prices : List PriceData) : (sortedByPrice prices).Perm prices :=
  List.perm_insertionSort _ prices

theorem sortedByPrice_sorted (prices : List PriceData) :
    (sortedByPrice prices).Pairwise fun a b => a.price ≤ b.price :=
  List.pairwise_insertionSort _ prices

theorem reachHalf_eq (halfWeight cumWeight : ℚ) (prices : List PriceData) :
    reachHalf providers halfWeight cumWeight prices =
      crossing PriceData.price (PriceData.weight providers) halfWeight cumWeight prices := by
  induction prices generalizing cumWeight with
  | nil => rfl
  | cons p rest ih =>
    rw [reachHalf, crossing, ← ih]
    rfl

/-- The scan reaches half of the weight. -/
theorem crossing_found (hproviders : ∀ p ∈ providers, 0 < p.weight) (hne : prices ≠ []) :
    (crossing PriceData.price (PriceData.weight providers) (wholeWeight providers prices / 2) 0
      (sortedByPrice prices)).isSome := by
  have hsum : wholeWeight providers (sortedByPrice prices) = wholeWeight providers prices :=
    wholeWeight_perm (sortedByPrice_perm prices)
  have hhalf := half_pos (wholeWeight_pos hproviders hne)
  refine crossing_isSome hhalf ?_
  change _ ≤ 0 + wholeWeight providers (sortedByPrice prices)
  linarith

/-- So the last price is not fallen back on. -/
theorem weightedMedian_eq_crossing (hproviders : ∀ p ∈ providers, 0 < p.weight)
    (hne : prices ≠ []) : weightedMedian providers prices =
      crossing PriceData.price (PriceData.weight providers) (wholeWeight providers prices / 2) 0
        (sortedByPrice prices) := by
  change (reachHalf providers (wholeWeight providers (sortedByPrice prices) / 2) 0 _).or _ = _
  rw [wholeWeight_perm (sortedByPrice_perm prices), reachHalf_eq]
  exact Option.or_of_isSome (crossing_found hproviders hne)

/-- The price that half of the weight reaches. -/
def HalfReached (providers : List Provider) (prices : List PriceData) (price : ℤ) : Prop :=
  Reaches PriceData.price (PriceData.weight providers) (wholeWeight providers prices / 2) prices
    price

/-- **The weighted median is the price that half of the weight reaches.** -/
theorem weightedMedian_eq_some_iff (hproviders : ∀ p ∈ providers, 0 < p.weight)
    (hne : prices ≠ []) :
    weightedMedian providers prices = some price ↔ HalfReached providers prices price := by
  have hsum : wholeWeight providers (sortedByPrice prices) = wholeWeight providers prices :=
    wholeWeight_perm (sortedByPrice_perm prices)
  have hpos := wholeWeight_pos hproviders hne
  rw [weightedMedian_eq_crossing hproviders hne, crossing_eq_some_iff
    (fun p _ => (weight_pos hproviders p).le) (sortedByPrice_sorted prices) (half_pos hpos)]
  · exact reaches_perm (sortedByPrice_perm prices)
  · change _ ≤ wholeWeight providers (sortedByPrice prices)
    linarith

/-! ## Halves -/

/-- What is below the price weighs a half at most. -/
theorem HalfReached.below (h : HalfReached providers prices price) :
    weightWhere (PriceData.weight providers) (fun p => p.price < price) prices ≤
      wholeWeight providers prices / 2 := h.2.le

/-- So does what is above. -/
theorem HalfReached.above (h : HalfReached providers prices price) :
    weightWhere (PriceData.weight providers) (fun p => price < p.price) prices ≤
      wholeWeight providers prices / 2 := by
  have hsplit : weightWhere (PriceData.weight providers) (fun p => p.price ≤ price) prices +
      weightWhere (PriceData.weight providers) (fun p => !decide (p.price ≤ price)) prices =
        wholeWeight providers prices := weightWhere_add_not _ prices
  have habove : weightWhere (PriceData.weight providers) (fun p => !decide (p.price ≤ price))
      prices = weightWhere (PriceData.weight providers) (fun p => price < p.price) prices := by
    refine weightWhere_congr fun p _ => ?_
    rw [← decide_not, decide_eq_decide]
    exact not_le
  have hreached := h.upTo
  rw [habove] at hsplit
  linarith

/-- **The weighted median is one of the prices, it halves the weight of the others, and it is the
same for every order.** -/
theorem weightedMedian_halves (hproviders : ∀ p ∈ providers, 0 < p.weight) (hne : prices ≠ []) :
    ∃ price, weightedMedian providers prices = some price ∧ price ∈ prices.map PriceData.price ∧
      weightWhere (PriceData.weight providers) (fun p => p.price < price) prices ≤
        wholeWeight providers prices / 2 ∧
      weightWhere (PriceData.weight providers) (fun p => price < p.price) prices ≤
        wholeWeight providers prices / 2 ∧
      ∀ prices', prices'.Perm prices → weightedMedian providers prices' = some price := by
  obtain ⟨price, hfound⟩ := Option.isSome_iff_exists.mp (crossing_found hproviders hne)
  have hprice := (weightedMedian_eq_crossing hproviders hne).trans hfound
  have h := (weightedMedian_eq_some_iff hproviders hne).mp hprice
  refine ⟨price, hprice, h.mem, h.below, h.above, fun prices' hperm => ?_⟩
  have hne' : prices' ≠ [] := fun hnil => hne (List.perm_nil.mp (hnil ▸ hperm.symm))
  refine (weightedMedian_eq_some_iff hproviders hne').mpr ?_
  rw [HalfReached, wholeWeight_perm hperm]
  exact h.perm hperm.symm

namespace Sample

/-- The two providers and their weights. -/
def coingeckoAndBinance : List Provider :=
  [⟨"coingecko", 1, 3 / 5, true⟩, ⟨"binance", 2, 2 / 5, true⟩]

/-- What they answer. -/
def twoPrices : List PriceData :=
  [⟨"XLM", 100, 0, "coingecko", 95⟩, ⟨"XLM", 90, 0, "binance", 95⟩]

/-- The price of the weightier provider, whichever answers first. -/
theorem weightedMedian_halves_twoPrices :
    weightedMedian coingeckoAndBinance twoPrices = some 100 ∧
      ∀ prices', prices'.Perm twoPrices →
        weightedMedian coingeckoAndBinance prices' = some 100 := by
  obtain ⟨price, hprice, -, -, -, hperm⟩ :=
    @weightedMedian_halves coingeckoAndBinance twoPrices (by decide +kernel) (by decide)
  have h100 : weightedMedian coingeckoAndBinance twoPrices = some 100 := by decide +kernel
  obtain rfl := Option.some.inj (hprice.symm.trans h100)
  exact ⟨h100, hperm⟩

end Sample

end StellarLend.OracleService
