import Mathlib.Algebra.Order.Ring.Rat
import Mathlib.Data.List.Induction
import Mathlib.Data.Nat.Cast.Order.Basic
import Mathlib.Logic.Function.Basic
import StellarLend.Foundations.Windows
import StellarLend.Foundations.StepFunction
import StellarLend.Foundations.Rounding

/-!
# OracleService/PriceHistory — prices kept asset by asset in circular buffers, and their average

`oracle/src/services/price-history.ts`.  An array is the map of its filled slots, timestamps are
whole Unix seconds, a period is any number of seconds, and `BigInt` division drops what follows the
point.  `upper` is `String.prototype.toUpperCase`.

Abstractly, a history is the list of the entries an asset was given since it was last cleared.  The
buffers refine it (`Tracks`): each call does to them what it does to the lists, and reading returns
the last entries that fit.

The price in force is that of the latest entry, and the mean over a period weighs every entry with
the time it was in force.  `calculateTWAP` computes it from the buffers, rounded toward zero by the
division: down to the floor as long as the mean is not negative, which the prices of a market are
not, and up below.
-/

namespace StellarLend.OracleService

section

open Function Foundations

structure PriceHistoryEntry where
  price : ℤ
  timestamp : ℤ
  deriving DecidableEq, Repr

structure PriceHistory where
  entries : ℕ → Option PriceHistoryEntry
  maxEntries : ℕ
  currentIndex : ℕ
  isFull : Bool

structure TWAPResult where
  asset : String
  twap : ℤ
  periodSeconds : ℚ
  dataPoints : ℕ
  startTime : ℤ
  endTime : ℤ
  deriving DecidableEq

structure PriceHistoryConfig where
  maxEntries : ℕ

def PriceHistoryConfig.default : PriceHistoryConfig := ⟨100⟩

structure PriceHistoryService where
  histories : String → Option PriceHistory
  config : PriceHistoryConfig

/-! ## One history -/

namespace PriceHistory

/-- `new Array(maxEntries)`, with nothing in it. -/
def new (maxEntries : ℕ) : PriceHistory := ⟨fun _ => none, maxEntries, 0, false⟩

def add (history : PriceHistory) (entry : PriceHistoryEntry) : PriceHistory :=
  let currentIndex := (history.currentIndex + 1) % history.maxEntries
  { history with
    entries := update history.entries history.currentIndex (some entry)
    currentIndex := currentIndex
    isFull := if currentIndex = 0 then true else history.isFull }

/-- A limit of zero is falsy, hence none. -/
def reached (limit : Option ℚ) (length : ℕ) : Bool :=
  match limit with
  | none => false
  | some limit => limit ≠ 0 && limit ≤ length

/-- The loops of `getPriceHistory`: the entries at the given indices, until the limit. -/
def collect (history : PriceHistory) (limit : Option ℚ) :
    List ℕ → List PriceHistoryEntry → List PriceHistoryEntry
  | [], entries => entries
  | index :: indices, entries =>
    match history.entries index with
    | none => collect history limit indices entries
    | some entry =>
      let entries := entries ++ [entry]
      if reached limit entries.length then entries else collect history limit indices entries

def read (history : PriceHistory) (limit : Option ℚ) : List PriceHistoryEntry :=
  if history.isFull then
    let startIndex := history.currentIndex
    history.collect limit
      ((List.range history.maxEntries).map fun i => (startIndex + i) % history.maxEntries) []
  else history.collect limit (List.range history.currentIndex) []

end PriceHistory

/-! ## The service -/

namespace PriceHistoryService

variable (upper : String → String) (s : PriceHistoryService) (asset : String)
  {xs : List PriceHistoryEntry}

def new (config : PriceHistoryConfig) : PriceHistoryService := ⟨fun _ => none, config⟩

def getOrCreateHistory : PriceHistory :=
  (s.histories asset).getD (PriceHistory.new s.config.maxEntries)

def addPriceEntry (price timestamp : ℤ) : PriceHistoryService :=
  let upperAsset := upper asset
  let history := s.getOrCreateHistory upperAsset
  { s with histories := update s.histories upperAsset (some (history.add ⟨price, timestamp⟩)) }

def clearHistory : PriceHistoryService :=
  { s with histories := update s.histories (upper asset) none }

def clearAllHistory : PriceHistoryService := { s with histories := fun _ => none }

def getPriceHistory (limit : Option ℚ) : List PriceHistoryEntry :=
  match s.histories (upper asset) with
  | none => []
  | some history => history.read limit

def getLatestPrice : Option PriceHistoryEntry :=
  match s.histories (upper asset) with
  | none => none
  | some history =>
    if history.currentIndex = 0 ∧ history.isFull = false then none
    else
      let latestIndex :=
        if history.currentIndex = 0 then history.maxEntries - 1 else history.currentIndex - 1
      history.entries latestIndex

/-- The loop of `calculateTWAP` over consecutive entries, from the sums so far. -/
def weigh : List PriceHistoryEntry → ℤ → ℤ → ℤ × ℤ
  | current :: next :: rest, totalTime, weightedSum =>
    let timeDiff := next.timestamp - current.timestamp
    weigh (next :: rest) (totalTime + timeDiff) (weightedSum + current.price * timeDiff)
  | _, totalTime, weightedSum => (totalTime, weightedSum)

/-- `calculateTWAP`, once the entries of the period have been selected: `none` is `null`. -/
def twapOf (now : ℤ) (periodSeconds : ℚ) (upperAsset : String) :
    List PriceHistoryEntry → Option TWAPResult
  | first :: second :: rest =>
    let periodEntries := first :: second :: rest
    let lastEntry := (second :: rest).getLast (List.cons_ne_nil second rest)
    let (totalTime, weightedSum) := weigh periodEntries 0 0
    let lastTimeDiff := now - lastEntry.timestamp
    let totalTime := totalTime + lastTimeDiff
    let weightedSum := weightedSum + lastEntry.price * lastTimeDiff
    if totalTime = 0 then none
    else
      some ⟨upperAsset, weightedSum.tdiv totalTime, periodSeconds, periodEntries.length,
        first.timestamp, lastEntry.timestamp⟩
  | _ => none

/-- Fewer than two entries are refused before the period is looked at as well as after. -/
def calculateTWAP (now : ℤ) (periodSeconds : ℚ) : Option TWAPResult :=
  let upperAsset := upper asset
  let entries := s.getPriceHistory upper upperAsset none
  if entries.length < 2 then none
  else
    let startTime := now - periodSeconds
    twapOf now periodSeconds upperAsset (entries.filter fun entry => startTime ≤ entry.timestamp)

end PriceHistoryService

/-! ## Sequences of calls -/

inductive HistoryCall where
  | addPriceEntry (asset : String) (price timestamp : ℤ)
  | clearHistory (asset : String)
  | clearAllHistory

variable (upper : String → String)

def HistoryCall.apply (s : PriceHistoryService) : HistoryCall → PriceHistoryService
  | .addPriceEntry asset price timestamp => s.addPriceEntry upper asset price timestamp
  | .clearHistory asset => s.clearHistory upper asset
  | .clearAllHistory => s.clearAllHistory

/-- The service after a sequence of calls, of any assets. -/
def historyAfter (cfg : PriceHistoryConfig) (calls : List HistoryCall) : PriceHistoryService :=
  calls.foldl (HistoryCall.apply upper) (.new cfg)

/-! ## What was added -/

/-- What a call does to the list of the entries an asset was given since it was last cleared. -/
def HistoryCall.record (added : String → List PriceHistoryEntry) :
    HistoryCall → String → List PriceHistoryEntry
  | .addPriceEntry asset price timestamp =>
    update added (upper asset) (added (upper asset) ++ [⟨price, timestamp⟩])
  | .clearHistory asset => update added (upper asset) []
  | .clearAllHistory => fun _ => []

/-- The entries an asset was given since it was last cleared, under its name in upper case. -/
def entriesAdded (calls : List HistoryCall) : String → List PriceHistoryEntry :=
  calls.foldl (HistoryCall.record upper) fun _ => []

variable {upper} {cfg : PriceHistoryConfig} {s : PriceHistoryService}
  {added : String → List PriceHistoryEntry} {history : PriceHistory} {xs : List PriceHistoryEntry}

/-! ## What a history keeps -/

/-- The history is a buffer of that many cells which the entries were written to. -/
structure PriceHistory.Records (history : PriceHistory) (max : ℕ) (xs : List PriceHistoryEntry) :
    Prop where
  maxEntries : history.maxEntries = max
  rings : Rings max history.entries history.currentIndex history.isFull xs

namespace PriceHistory

theorem Records.new {max : ℕ} (hmax : 1 ≤ max) : (PriceHistory.new max).Records max [] :=
  ⟨rfl, .empty hmax⟩

theorem Records.add {max : ℕ} (h : history.Records max xs) (entry : PriceHistoryEntry) :
    (history.add entry).Records max (xs ++ [entry]) := by
  obtain ⟨rfl, h⟩ := h
  exact ⟨rfl, h.push entry⟩

/-- Without a limit the loop goes through all the indices. -/
theorem collect_none (indices : List ℕ) (entries : List PriceHistoryEntry) :
    history.collect none indices entries = entries ++ indices.filterMap history.entries := by
  induction indices generalizing entries with
  | nil => simp [collect]
  | cons index indices ih => cases h : history.entries index <;> simp [collect, reached, h, ih]

theorem reached_natCast {n : ℕ} (hn : 1 ≤ n) (length : ℕ) :
    reached (some n) length = true ↔ n ≤ length := by
  have hn0 : (n : ℚ) ≠ 0 := Nat.cast_ne_zero.mpr (by omega)
  simp only [reached, Bool.and_eq_true, decide_eq_true_eq, Nat.cast_le]
  exact and_iff_right hn0

/-- With a limit it stops at it. -/
theorem collect_some {n : ℕ} (indices : List ℕ) (entries : List PriceHistoryEntry)
    (hlen : entries.length < n) :
    history.collect (some n) indices entries =
      (entries ++ indices.filterMap history.entries).take n := by
  induction indices generalizing entries with
  | nil => simp [collect, List.take_of_length_le hlen.le]
  | cons index indices ih =>
    cases h : history.entries index with
    | none => simp only [collect, h, ih entries hlen, List.filterMap_cons_none h]
    | some entry =>
      simp only [collect, h, List.filterMap_cons_some h,
        reached_natCast (show 1 ≤ n by omega) (entries ++ [entry]).length]
      rw [List.append_cons entries entry (indices.filterMap history.entries)]
      split
      next hstop => exact (List.take_left' (by simp at hstop ⊢; omega)).symm
      next hgo => exact ih _ (not_le.mp hgo)

theorem read_eq (limit : Option ℚ) :
    history.read limit = history.collect limit
      (order history.maxEntries history.currentIndex history.isFull) [] := by
  unfold read order
  split <;> rfl

/-- What the written cells hold, in order, are the last entries. -/
theorem Records.filterMap_order {max : ℕ} (h : history.Records max xs) :
    (order max history.currentIndex history.isFull).filterMap history.entries =
      xs.drop (xs.length - max) := by
  have hcells := congrArg (List.filterMap id) h.rings.map_order
  simpa only [List.filterMap_map, Function.id_comp, List.filterMap_some] using hcells

theorem Records.read_none {max : ℕ} (h : history.Records max xs) :
    history.read none = xs.drop (xs.length - max) := by
  rw [read_eq, collect_none, List.nil_append, h.maxEntries, h.filterMap_order]

theorem Records.read_some {max n : ℕ} (h : history.Records max xs) (hn : 1 ≤ n) :
    history.read (some n) = (xs.drop (xs.length - max)).take n := by
  rw [read_eq, collect_some _ _ hn, List.nil_append, h.maxEntries,
    h.filterMap_order]

end PriceHistory

/-! ## What the service keeps -/

/-- Every asset's buffer, or the one it would be given, records what was added. -/
structure Tracks (cfg : PriceHistoryConfig) (s : PriceHistoryService)
    (added : String → List PriceHistoryEntry) : Prop where
  config : s.config = cfg
  records : ∀ asset, (s.getOrCreateHistory asset).Records cfg.maxEntries (added asset)

namespace Tracks

theorem new (hmax : 1 ≤ cfg.maxEntries) : Tracks cfg (.new cfg) fun _ => [] :=
  ⟨rfl, fun _ => .new hmax⟩

/-- Putting a buffer that records a list in place of an asset's. -/
theorem write (h : Tracks cfg s added) (asset : String) (found : Option PriceHistory)
    (hfound : (found.getD (PriceHistory.new cfg.maxEntries)).Records cfg.maxEntries xs) :
    Tracks cfg { s with histories := update s.histories asset found }
      (update added asset xs) where
  config := h.config
  records other := by
    have hother := h.records other
    simp only [PriceHistoryService.getOrCreateHistory, h.config] at hother ⊢
    by_cases heq : other = asset
    · subst heq
      rwa [update_self, update_self]
    · rwa [update_of_ne heq, update_of_ne heq]

/-- **Each call does to the buffers what it does to the lists.** -/
theorem apply (hmax : 1 ≤ cfg.maxEntries) (h : Tracks cfg s added) (call : HistoryCall) :
    Tracks cfg (call.apply upper s) (call.record upper added) := by
  cases call with
  | addPriceEntry asset price timestamp =>
    exact h.write (upper asset) (some _) ((h.records (upper asset)).add ⟨price, timestamp⟩)
  | clearHistory asset => exact h.write (upper asset) none (.new hmax)
  | clearAllHistory =>
    refine ⟨h.config, fun asset => ?_⟩
    rw [← h.config] at hmax ⊢
    exact .new hmax

/-- **After any calls the buffers record the entries added.** -/
theorem after (hmax : 1 ≤ cfg.maxEntries) (calls : List HistoryCall) :
    Tracks cfg (historyAfter upper cfg calls) (entriesAdded upper calls) := by
  induction calls using List.reverseRecOn with
  | nil => exact new hmax
  | append_singleton calls call ih =>
    rw [historyAfter, entriesAdded, List.foldl_concat, List.foldl_concat]
    exact ih.apply hmax call

/-- An asset without a buffer was given nothing. -/
theorem added_of_none (h : Tracks cfg s added) {asset : String} (hnone : s.histories asset = none) :
    added asset = [] := by
  have hrings := (h.records asset).rings
  rw [PriceHistoryService.getOrCreateHistory, hnone] at hrings
  exact hrings.start_iff.mp ⟨rfl, rfl⟩

theorem records_of_some (h : Tracks cfg s added) {asset : String}
    (hsome : s.histories asset = some history) : history.Records cfg.maxEntries (added asset) := by
  have hrecords := h.records asset
  rwa [PriceHistoryService.getOrCreateHistory, hsome] at hrecords

variable (upper) (asset : String)

theorem getPriceHistory (h : Tracks cfg s added) :
    s.getPriceHistory upper asset none =
      (added (upper asset)).drop ((added (upper asset)).length - cfg.maxEntries) := by
  unfold PriceHistoryService.getPriceHistory
  split
  next hnone => simp [h.added_of_none hnone]
  next history hsome => exact (h.records_of_some hsome).read_none

/-- A limit cuts the entries off from the oldest on, not to the latest. -/
theorem getPriceHistory_limit (h : Tracks cfg s added) {n : ℕ} (hn : 1 ≤ n) :
    s.getPriceHistory upper asset (some n) = (s.getPriceHistory upper asset none).take n := by
  rw [h.getPriceHistory, PriceHistoryService.getPriceHistory]
  split
  next hnone => simp [h.added_of_none hnone]
  next history hsome => exact (h.records_of_some hsome).read_some hn

theorem getLatestPrice (h : Tracks cfg s added) :
    s.getLatestPrice upper asset = (added (upper asset)).getLast? := by
  unfold PriceHistoryService.getLatestPrice
  split
  next hnone => simp [h.added_of_none hnone]
  next history hsome =>
    have hrecords := h.records_of_some hsome
    split
    next hempty => rw [hrecords.rings.start_iff.mp hempty, List.getLast?_nil]
    next hne =>
      rw [hrecords.maxEntries]
      exact hrecords.rings.latest fun hnil => hne (hrecords.rings.start_iff.mpr hnil)

end Tracks

end

/-! ## The average over a period -/

section

open Foundations

variable {upper : String → String} {cfg : PriceHistoryConfig} {s : PriceHistoryService}
  {added : String → List PriceHistoryEntry} {now : ℤ}

/-! ## Time in force -/

/-- Every price with the time it was in force: until the next entry, and the last one until now. -/
def spans (now : ℤ) : List PriceHistoryEntry → List (ℤ × ℤ)
  | [] => []
  | [last] => [(last.price, now - last.timestamp)]
  | current :: next :: rest =>
    (current.price, next.timestamp - current.timestamp) :: spans now (next :: rest)

def timeWeightedMean (now : ℤ) (entries : List PriceHistoryEntry) : ℚ :=
  weightedMean (spans now entries)

/-- Entries in the order of their timestamps, none of which is in the future. -/
structure Dated (now : ℤ) (entries : List PriceHistoryEntry) : Prop where
  sorted : entries.Pairwise fun e f => e.timestamp ≤ f.timestamp
  le_now : ∀ e ∈ entries, e.timestamp ≤ now

theorem Dated.sublist {ys : List PriceHistoryEntry} (h : Dated now ys) (hsub : xs.Sublist ys) :
    Dated now xs :=
  ⟨h.sorted.sublist hsub, fun e he => h.le_now e (hsub.subset he)⟩

theorem Dated.tail {e : PriceHistoryEntry} (h : Dated now (e :: xs)) :
    Dated now xs := h.sublist (List.sublist_cons_self e xs)

theorem price_of_mem_spans : ∀ {xs : List PriceHistoryEntry} {x : ℤ × ℤ}, x ∈ spans now xs →
    ∃ e ∈ xs, e.price = x.1
  | [last], x, hx => ⟨last, by simp, by rw [List.mem_singleton.mp hx]⟩
  | current :: next :: rest, x, hx => by
    rcases List.mem_cons.mp hx with rfl | hx
    · exact ⟨current, by simp, rfl⟩
    · obtain ⟨e, he, hprice⟩ := price_of_mem_spans hx
      exact ⟨e, List.mem_cons_of_mem current he, hprice⟩

theorem Dated.spans_nonneg : ∀ {xs : List PriceHistoryEntry}, Dated now xs →
    ∀ x ∈ spans now xs, 0 ≤ x.2
  | [], _, _, hx => absurd hx List.not_mem_nil
  | [last], h, x, hx => by
    rw [List.mem_singleton.mp hx]
    exact sub_nonneg.mpr (h.le_now last (by simp))
  | current :: next :: rest, h, x, hx => by
    rcases List.mem_cons.mp hx with rfl | hx
    · exact sub_nonneg.mpr (List.rel_of_pairwise_cons h.sorted (by simp))
    · exact h.tail.spans_nonneg x hx

/-! ## The sums of the loop -/

/-- **The loop, with the last entry added, computes the two sums of the mean.** -/
theorem weigh_spans (now : ℤ) : ∀ (xs : List PriceHistoryEntry) (hxs : xs ≠ [])
    (totalTime sum : ℤ),
    (PriceHistoryService.weigh xs totalTime sum).1 + (now - (xs.getLast hxs).timestamp) =
        totalTime + totalWeight (spans now xs) ∧
      (PriceHistoryService.weigh xs totalTime sum).2 +
          (xs.getLast hxs).price * (now - (xs.getLast hxs).timestamp) =
        sum + weightedSum (spans now xs)
  | [last], _, totalTime, sum => by
    simp [PriceHistoryService.weigh, spans, totalWeight, weightedSum]
  | current :: next :: rest, _, totalTime, sum => by
    obtain ⟨htime, hsum⟩ := weigh_spans now (next :: rest) (List.cons_ne_nil next rest)
      (totalTime + (next.timestamp - current.timestamp))
      (sum + current.price * (next.timestamp - current.timestamp))
    rw [PriceHistoryService.weigh, List.getLast_cons (List.cons_ne_nil next rest), htime, hsum,
      spans, totalWeight_cons, weightedSum_cons]
    exact ⟨add_assoc .., add_assoc ..⟩

theorem twapOf_eq_some {periodSeconds : ℚ} {asset : String} {result : TWAPResult}
    (h : PriceHistoryService.twapOf now periodSeconds asset xs = some result) :
    totalWeight (spans now xs) ≠ 0 ∧
      result.twap = (weightedSum (spans now xs)).tdiv (totalWeight (spans now xs)) := by
  unfold PriceHistoryService.twapOf at h
  split at h
  next first second rest =>
    obtain ⟨htime, hsum⟩ := weigh_spans now (first :: second :: rest)
      (List.cons_ne_nil first (second :: rest)) 0 0
    rw [List.getLast_cons (List.cons_ne_nil second rest), zero_add] at htime hsum
    simp only [htime, hsum] at h
    split at h
    next hzero => cases h
    next hne => exact ⟨hne, by rw [← Option.some.inj h]⟩
  next => cases h

/-- **What is computed over dated entries is their time-weighted mean rounded toward zero.** -/
theorem Dated.twapOf_mean {periodSeconds : ℚ} {asset : String} {result : TWAPResult}
    (hdated : Dated now xs)
    (h : PriceHistoryService.twapOf now periodSeconds asset xs = some result) :
    result.twap = towardZero (timeWeightedMean now xs) := by
  obtain ⟨hne, htwap⟩ := twapOf_eq_some h
  have hpos := lt_of_le_of_ne (totalWeight_nonneg hdated.spans_nonneg) hne.symm
  rw [htwap, tdiv_eq_towardZero _ hpos, timeWeightedMean, weightedMean]

theorem Dated.mean_bounds {lo hi : ℤ} (hdated : Dated now xs) (hne : totalWeight (spans now xs) ≠ 0)
    (h : ∀ e ∈ xs, lo ≤ e.price ∧ e.price ≤ hi) :
    lo ≤ timeWeightedMean now xs ∧ timeWeightedMean now xs ≤ hi := by
  have hprice : ∀ x ∈ spans now xs, lo ≤ x.1 ∧ x.1 ≤ hi := by
    intro x hx
    obtain ⟨e, he, hprice⟩ := price_of_mem_spans hx
    exact hprice ▸ h e he
  exact weightedMean_bounds hdated.spans_nonneg hne (fun x hx => (hprice x hx).1)
    fun x hx => (hprice x hx).2

/-! ## Second by second -/

/-- The price in force at an instant: that of the last entry by then. -/
def priceAt (entries : List PriceHistoryEntry) (t : ℤ) : ℤ :=
  (((entries.filter fun e => e.timestamp ≤ t).getLast?).map PriceHistoryEntry.price).getD 0

/-- **The weighted sum adds up the price in force at every second**, from the first entry to now. -/
theorem Dated.weightedSum_spans : ∀ {first : PriceHistoryEntry} {rest : List PriceHistoryEntry},
    Dated now (first :: rest) →
    weightedSum (spans now (first :: rest)) =
      ∑ i ∈ Finset.range (now - first.timestamp).toNat,
        priceAt (first :: rest) (first.timestamp + i)
  | last, [], h => by
    change _ = stepSum PriceHistoryEntry.timestamp PriceHistoryEntry.price [last] last.timestamp now
    rw [stepSum_single le_rfl (h.le_now last (by simp))]
    simp [spans, weightedSum]
  | current, next :: rest, h => by
    have hcur : current.timestamp ≤ next.timestamp :=
      List.rel_of_pairwise_cons h.sorted (by simp)
    change _ = stepSum PriceHistoryEntry.timestamp PriceHistoryEntry.price (current :: next :: rest)
      current.timestamp now
    rw [stepSum_cons h.tail.sorted le_rfl hcur (h.le_now next (by simp)), spans, weightedSum_cons,
      h.tail.weightedSum_spans]
    rfl

/-! ## The average of what was kept -/

/-- What the history of an asset has to give back: the last entries in the order they were added,
the latest of them, and averages that are rounded means of the entries in a period. -/
structure HistoryKept (round : ℚ → ℤ) (upper : String → String) (cfg : PriceHistoryConfig)
    (s : PriceHistoryService) (asset : String) (added : List PriceHistoryEntry) : Prop where
  history : s.getPriceHistory upper asset none = added.drop (added.length - cfg.maxEntries)
  length : (s.getPriceHistory upper asset none).length = min added.length cfg.maxEntries
  latest : s.getLatestPrice upper asset = added.getLast?
  twap : ∀ now periodSeconds result, Dated now added →
    s.calculateTWAP upper asset now periodSeconds = some result →
    result.twap = round (timeWeightedMean now
      ((s.getPriceHistory upper asset none).filter fun e => now - periodSeconds ≤ e.timestamp))
  between : ∀ now periodSeconds result lo hi, Dated now added →
    s.calculateTWAP upper asset now periodSeconds = some result →
    (∀ e ∈ s.getPriceHistory upper asset none, now - periodSeconds ≤ e.timestamp →
      lo ≤ e.price ∧ e.price ≤ hi) → lo ≤ result.twap ∧ result.twap ≤ hi

theorem calculateTWAP_eq_some (hupper : ∀ text, upper (upper text) = upper text) {asset : String}
    {periodSeconds : ℚ} {result : TWAPResult}
    (h : s.calculateTWAP upper asset now periodSeconds = some result) :
    PriceHistoryService.twapOf now periodSeconds (upper asset)
      ((s.getPriceHistory upper asset none).filter fun e => now - periodSeconds ≤ e.timestamp) =
        some result := by
  have hsame : s.getPriceHistory upper (upper asset) none = s.getPriceHistory upper asset none := by
    rw [PriceHistoryService.getPriceHistory, PriceHistoryService.getPriceHistory, hupper]
  unfold PriceHistoryService.calculateTWAP at h
  simp only [hsame] at h
  split at h
  · cases h
  · exact h

/-- **The history of an asset gives back the last entries added, whatever was done to others**: the
latest, and averages that are means rounded toward zero. -/
theorem history_kept (upper : String → String) (hupper : ∀ text, upper (upper text) = upper text)
    (cfg : PriceHistoryConfig) (hmax : 1 ≤ cfg.maxEntries) (calls : List HistoryCall)
    (asset : String) :
    HistoryKept towardZero upper cfg (historyAfter upper cfg calls) asset
      (entriesAdded upper calls (upper asset)) := by
  have htracks : Tracks cfg (historyAfter upper cfg calls) (entriesAdded upper calls) :=
    .after hmax calls
  have hread := htracks.getPriceHistory upper asset
  have hperiod : ∀ now (periodSeconds : ℚ), Dated now (entriesAdded upper calls (upper asset)) →
      Dated now (((historyAfter upper cfg calls).getPriceHistory upper asset none).filter
        fun e => now - periodSeconds ≤ e.timestamp) := by
    intro now periodSeconds hdated
    exact hdated.sublist (List.filter_sublist.trans (hread ▸ List.drop_sublist ..))
  refine ⟨hread, by rw [hread, List.length_drop]; omega, htracks.getLatestPrice upper asset, ?_, ?_⟩
  · intro now periodSeconds result hdated h
    exact (hperiod now periodSeconds hdated).twapOf_mean (calculateTWAP_eq_some hupper h)
  · intro now periodSeconds result lo hi hdated h hbounds
    have htwap := calculateTWAP_eq_some hupper h
    have hmean := hperiod now periodSeconds hdated
    rw [hmean.twapOf_mean htwap]
    have hin := hmean.mean_bounds (twapOf_eq_some htwap).1 fun e he =>
      hbounds e (List.mem_filter.mp he).1 (by simpa using (List.mem_filter.mp he).2)
    exact ⟨le_towardZero hin.1, towardZero_le hin.2⟩

namespace Sample

/-- Three prices in a buffer of two. -/
def threePrices : List HistoryCall :=
  [.addPriceEntry "XLM" 5 0, .addPriceEntry "XLM" 10 10, .addPriceEntry "XLM" 21 30]

theorem history_kept_threePrices :
    HistoryKept towardZero id ⟨2⟩ (historyAfter id ⟨2⟩ threePrices) "XLM"
      (entriesAdded id threePrices "XLM") :=
  history_kept id (fun _ => rfl) ⟨2⟩ (by decide) threePrices "XLM"

example : ((historyAfter id ⟨2⟩ threePrices).calculateTWAP id "XLM" 40 60).map TWAPResult.twap =
    some 13 := by decide +kernel

/-- Prices below zero, which nothing refuses. -/
def negativePrices : List HistoryCall :=
  [.addPriceEntry "XLM" (-1) 0, .addPriceEntry "XLM" (-2) 1]

/-- **The average of negative prices is not the floor of their mean**: a mean of minus one and a
half is given as minus one. -/
theorem history_not_floored :
    ¬ ∀ upper : String → String, (∀ text, upper (upper text) = upper text) →
      ∀ cfg : PriceHistoryConfig, 1 ≤ cfg.maxEntries → ∀ calls asset,
        HistoryKept Int.floor upper cfg (historyAfter upper cfg calls) asset
          (entriesAdded upper calls (upper asset)) := by
  intro h
  have hkept := h id (fun _ => rfl) ⟨2⟩ (by decide) negativePrices "XLM"
  have htwap := hkept.twap 2 10 ⟨"XLM", -1, 10, 2, 0, 1⟩ ⟨by decide, by decide⟩ (by decide +kernel)
  exact absurd htwap (by decide +kernel)

end Sample

end

end StellarLend.OracleService
