import Mathlib.Data.List.Induction
import StellarLend.Foundations.Median
import StellarLend.HelloWorld.Oracle

/-!
# HelloWorld/Aggregation — the spot price of several feeds

    candidates   1  1  3  4  4     median 3
    kept               3  4  4     within the band around it
    spot price            4

The source sorts the fresh prices, drops those off the upper median by more than a band, and takes
the upper median of the rest.  A median is what half of the candidates reach (`UpperMedian`), so it
depends on no order and is not moved out of an interval by fewer than half of them; the filter is a
condition on each price for itself (`keepNear_eq`).  The band is measured in whole basis points.
-/

namespace StellarLend.HelloWorld

open Foundations Call
open Lending (Address)

variable {now now' : ℕ} {o o' : OracleStore} {asset asset' : Address}
  {key band median m r lo hi : ℤ} {xs ys values prices kept : List ℤ}

/-! ## The sort -/

theorem insertSorted_perm (key : ℤ) (xs : List ℤ) : (insertSorted key xs).Perm (key :: xs) := by
  induction xs with
  | nil => exact .refl _
  | cons x xs ih =>
    rw [insertSorted]
    split
    · exact (ih.cons x).trans (.swap key x xs)
    · exact .refl _

theorem insertSorted_sorted (key : ℤ) (h : xs.Pairwise (· ≤ ·)) :
    (insertSorted key xs).Pairwise (· ≤ ·) := by
  induction xs with
  | nil => exact List.pairwise_singleton _ _
  | cons x xs ih =>
    obtain ⟨hx, hxs⟩ := List.pairwise_cons.mp h
    rw [insertSorted]
    split
    · rename_i hle
      refine List.pairwise_cons.mpr ⟨fun y hy => ?_, ih hxs⟩
      rcases List.mem_cons.mp ((insertSorted_perm key xs).mem_iff.mp hy) with rfl | hy
      · exact hle
      · exact hx y hy
    · rename_i hlt
      have hkey : key ≤ x := (not_le.mp hlt).le
      refine List.pairwise_cons.mpr ⟨fun y hy => ?_, h⟩
      rcases List.mem_cons.mp hy with rfl | hy
      · exact hkey
      · exact hkey.trans (hx y hy)

theorem insertionSort_snoc (values : List ℤ) (key : ℤ) :
    insertionSort (values ++ [key]) = insertSorted key (insertionSort values) := by
  rw [insertionSort, List.foldl_append]
  rfl

theorem insertionSort_perm (values : List ℤ) : (insertionSort values).Perm values := by
  induction values using List.reverseRecOn with
  | nil => exact .refl _
  | append_singleton values key ih =>
    rw [insertionSort_snoc]
    exact ((insertSorted_perm key _).trans (ih.cons key)).trans
      (List.perm_append_singleton key values).symm

theorem insertionSort_sorted (values : List ℤ) : (insertionSort values).Pairwise (· ≤ ·) := by
  induction values using List.reverseRecOn with
  | nil => exact .nil
  | append_singleton values key ih =>
    rw [insertionSort_snoc]
    exact insertSorted_sorted key ih

theorem insertionSort_congr (h : xs.Perm ys) : insertionSort xs = insertionSort ys :=
  List.Perm.eq_of_pairwise' (insertionSort_sorted xs) (insertionSort_sorted ys)
    (((insertionSort_perm xs).trans h).trans (insertionSort_perm ys).symm)

/-! ## The median -/

/-- The value that half of the list and one more reach: the upper one of two in the middle. -/
def UpperMedian (values : List ℤ) (m : ℤ) : Prop :=
  Reaches id (fun _ => 1) (values.length / 2 + 1) values m

/-- Half of the values at most are below, and more than half are not above. -/
theorem upperMedian_iff : UpperMedian values m ↔ m ∈ values ∧
    2 * values.countP (fun v => v < m) ≤ values.length ∧
    values.length < 2 * values.countP (fun v => v ≤ m) := by
  have hbelow : weightWhere (fun _ => 1) (fun v => id v < m) values =
      values.countP fun v => v < m := weightWhere_one _ values
  have hupTo : weightWhere (fun _ => 1) (fun v => id v ≤ m) values =
      values.countP fun v => v ≤ m := weightWhere_one _ values
  constructor
  · rintro ⟨hmem, hlt, hle⟩
    have hlt' := hbelow.symm.trans_lt hlt
    have hle' := hle.trans_eq hupTo
    rw [List.map_id] at hmem
    exact ⟨hmem, by omega, by omega⟩
  · rintro ⟨hmem, hlt, hle⟩
    refine ⟨by rwa [List.map_id], hbelow.trans_lt ?_, le_trans ?_ hupTo.symm.le⟩
    · omega
    · omega

/-- **The source's median is the upper median.** -/
theorem medianI128_eq_ok_iff : medianI128 values = .ok m ↔ UpperMedian values m := by
  have hscan : crossing id (fun _ => 1) (0 + values.length / 2 + 1) 0 (insertionSort values) =
      (insertionSort values)[values.length / 2]?.map id := crossing_one _ 0 _
  rw [zero_add, Option.map_id] at hscan
  rw [medianI128, orErr_ok, ← id_eq (insertionSort values)[values.length / 2]?, ← hscan]
  rcases eq_or_ne values [] with rfl | hne
  · exact iff_of_false (fun h => by cases h) fun h => by cases h.mem
  · have hlength := (insertionSort_perm values).length_eq
    have hpos : 0 < values.length := List.length_pos_iff.mpr hne
    have hwhole : values.length / 2 + 1 ≤ ((insertionSort values).map fun _ => 1).sum := by
      have hsum : ((insertionSort values).map fun _ => 1).sum = values.length := by simp [hlength]
      rw [hsum]
      omega
    have hsorted : (insertionSort values).Pairwise fun x y => id x ≤ id y :=
      insertionSort_sorted values
    rw [crossing_eq_some_iff (fun _ _ => Nat.zero_le 1) hsorted (Nat.succ_pos _) hwhole]
    exact reaches_perm (insertionSort_perm values)

theorem medianI128_congr (h : xs.Perm ys) : medianI128 xs = medianI128 ys := by
  rw [medianI128, medianI128, insertionSort_congr h, h.length_eq]

/-- A value that reaches the median is one of the values. -/
theorem mem_of_medianI128 (h : medianI128 values = .ok m) : m ∈ values :=
  (upperMedian_iff.mp (medianI128_eq_ok_iff.mp h)).1

/-- **A majority keeps the median.**  If more than half of the values lie in an interval, the median
does, whatever the others are. -/
theorem UpperMedian.mem_Icc (h : UpperMedian values m)
    (hmajority : values.length < 2 * values.countP fun v => lo ≤ v ∧ v ≤ hi) :
    lo ≤ m ∧ m ≤ hi := by
  have hin : weightWhere (fun _ => 1) (fun v => lo ≤ id v ∧ id v ≤ hi) values =
      values.countP fun v => lo ≤ v ∧ v ≤ hi := weightWhere_one _ values
  have hsplit : weightWhere (fun _ => 1) (fun v => lo ≤ id v ∧ id v ≤ hi) values +
      weightWhere (fun _ => 1) (fun v => !decide (lo ≤ id v ∧ id v ≤ hi)) values =
        (values.map fun _ => 1).sum := weightWhere_add_not _ values
  have hsum : (values.map fun _ => 1).sum = values.length := by simp
  refine Reaches.mem_Icc (fun _ _ => Nat.zero_le 1) h ?_ ?_
  · omega
  · omega

/-! ## The filter -/

/-- Whether a price is positive and within the band. -/
def keeps (band median p : ℤ) : Bool :=
  0 < p && (deviationBps p median).any fun deviation => deviation ≤ band

/-- No positive price is so far off that the deviation overflows. -/
def DeviationsFit (median : ℤ) (prices : List ℤ) : Prop :=
  ∀ p ∈ prices, 0 < p → (deviationBps p median).isSome

instance (median : ℤ) (prices : List ℤ) : Decidable (DeviationsFit median prices) :=
  inferInstanceAs (Decidable (∀ p ∈ prices, _))

theorem deviationsFit_cons {p : ℤ} : DeviationsFit m (p :: xs) ↔
    (0 < p → (deviationBps p m).isSome) ∧ DeviationsFit m xs := List.forall_mem_cons

theorem DeviationsFit.perm (h : DeviationsFit m xs) (hperm : xs.Perm ys) : DeviationsFit m ys :=
  fun p hp => h p (hperm.mem_iff.mpr hp)

/-- **The filter looks at every price for itself.** -/
theorem keepNear_eq (band median : ℤ) (prices : List ℤ) : keepNear band median prices =
    if DeviationsFit median prices then .ok (prices.filter (keeps band median))
    else .error .overflow := by
  induction prices with
  | nil =>
    have hnil : DeviationsFit median [] := fun p hp => absurd hp List.not_mem_nil
    rw [if_pos hnil]
    rfl
  | cons p ps ih =>
    rw [keepNear, ih]
    simp only [deviationsFit_cons]
    by_cases hp : p ≤ 0
    · have hdropped : ¬ keeps band median p = true := by simp [keeps, hp]
      rw [if_pos hp, List.filter_cons_of_neg hdropped]
      simp only [not_lt.mpr hp, false_imp_iff, true_and]
    · rw [if_neg hp]
      cases hd : deviationBps p median with
      | none =>
        have hnot : ¬ ((0 < p → (none : Option ℤ).isSome = true) ∧ DeviationsFit median ps) :=
          fun hfit => by simpa using hfit.1 (not_le.mp hp)
        rw [if_neg hnot]
        rfl
      | some d =>
        simp only [Option.isSome_some, imp_true_iff, true_and]
        by_cases hfit : DeviationsFit median ps
        · rw [if_pos hfit, if_pos hfit]
          have hkeeps : keeps band median p = decide (d ≤ band) := by
            simp [keeps, hd, not_le.mp hp]
          by_cases hband : d ≤ band
          · rw [List.filter_cons_of_pos (hkeeps.trans (decide_eq_true hband))]
            change Except.ok (if d ≤ band then _ else _) = _
            rw [if_pos hband]
          · rw [List.filter_cons_of_neg (by rw [hkeeps]; simpa using hband)]
            change Except.ok (if d ≤ band then _ else _) = _
            rw [if_neg hband]
        · rw [if_neg hfit, if_neg hfit]
          rfl

/-- The deviation is the whole basis points of the distance. -/
theorem deviationBps_eq {p d : ℤ} (h : deviationBps p m = some d) :
    d = |p - m| * 10000 / m := by
  have hdistance : ∀ x y : ℤ, x ≤ y → |x - y| = y - x := fun x y hxy => by
    rw [abs_sub_comm, abs_of_nonneg (sub_nonneg.mpr hxy)]
  rw [deviationBps] at h
  split at h
  all_goals
    simp only [Option.bind_eq_some_iff, I128.checkedSub_eq_some, I128.checkedMul_eq_some,
      I128.checkedDiv_eq_some] at h
    obtain ⟨scaled, ⟨diff, ⟨-, rfl⟩, -, rfl⟩, -, -, rfl⟩ := h
  · rename_i hlt
    rw [Int.tdiv_eq_ediv_of_nonneg (by omega), abs_of_pos (sub_pos.mpr hlt)]
  · rename_i hle
    rw [Int.tdiv_eq_ediv_of_nonneg (by omega), hdistance p m (not_lt.mp hle)]

/-- What is kept is positive and deviates by the band at most, in whole basis points. -/
theorem within_of_keeps {p : ℤ} (h : keeps band m p = true) :
    |p - m| * 10000 / m ≤ band := by
  rw [keeps, Bool.and_eq_true, Option.any_eq_true] at h
  obtain ⟨-, d, hd, hle⟩ := h
  rw [← deviationBps_eq hd]
  exact of_decide_eq_true hle

/-- **The filter's result is a part of the prices, and no order of them matters to it.** -/
theorem filterOutliers_perm (hband : (getOracleConfig o').outlierDeviationBps =
    (getOracleConfig o).outlierDeviationBps) (h : xs.Perm ys) :
    (∃ err, filterOutliers o m xs = .error err ∧ filterOutliers o' m ys = .error err) ∨
      ∃ kept kept', filterOutliers o m xs = .ok kept ∧ filterOutliers o' m ys = .ok kept' ∧
        kept.Perm kept' := by
  rw [filterOutliers, filterOutliers, hband]
  by_cases hm : m ≤ 0
  · rw [if_pos hm, if_pos hm]
    exact .inl ⟨_, rfl, rfl⟩
  rw [if_neg hm, if_neg hm]
  by_cases hoff : (getOracleConfig o).outlierDeviationBps ≤ 0
  · rw [if_pos hoff, if_pos hoff]
    exact .inr ⟨xs, ys, rfl, rfl, h⟩
  rw [if_neg hoff, if_neg hoff, keepNear_eq, keepNear_eq]
  by_cases hfit : DeviationsFit m xs
  · rw [if_pos hfit, if_pos (hfit.perm h)]
    exact .inr ⟨_, _, rfl, rfl, h.filter _⟩
  · rw [if_neg hfit, if_neg fun hys => hfit (hys.perm h.symm)]
    exact .inl ⟨_, rfl, rfl⟩

theorem filterOutliers_sublist (h : filterOutliers o m prices = .ok kept) :
    kept.Sublist prices := by
  rw [filterOutliers] at h
  split at h
  · cases h
  split at h
  · obtain rfl := Except.ok.inj h
    exact .refl _
  · rw [keepNear_eq] at h
    split at h
    · obtain rfl := Except.ok.inj h
      exact List.filter_sublist
    · cases h

/-- Without a band everything is kept, and within one what is near the median. -/
theorem filterOutliers_ok (h : filterOutliers o m prices = .ok kept) :
    0 < m ∧ ((getOracleConfig o).outlierDeviationBps ≤ 0 → kept = prices) ∧
      (0 < (getOracleConfig o).outlierDeviationBps →
        ∀ p ∈ kept, |p - m| * 10000 / m ≤ (getOracleConfig o).outlierDeviationBps) := by
  rw [filterOutliers] at h
  split at h
  · cases h
  rename_i hm
  refine ⟨not_le.mp hm, fun hoff => ?_, fun hon p hp => ?_⟩
  · rw [if_pos hoff] at h
    exact (Except.ok.inj h).symm
  · rw [if_neg (not_le.mpr hon), keepNear_eq] at h
    split at h
    · obtain rfl := Except.ok.inj h
      exact within_of_keeps (List.mem_filter.mp hp).2
    · cases h

/-! ## The spot price -/

/-- The prices of an asset's fresh feeds. -/
def candidates (now : ℕ) (o : OracleStore) (asset : Address) : List ℤ :=
  (feedReadings now o asset).filterMap FeedReading.candidate

/-- What the source makes of the candidates. -/
def aggregateOf (o : OracleStore) (prices : List ℤ) : Except OracleError ℤ := do
  let median ← medianI128 prices
  let filtered ← filterOutliers o median prices
  if filtered.length < (getOracleConfig o).minSources then .error .notEnoughSources
  else medianI128 filtered

theorem aggregateSpotPrice_eq (h : candidates now o asset ≠ []) :
    aggregateSpotPrice now o asset = aggregateOf o (candidates now o asset) := if_neg h

/-- A price comes of some candidates. -/
theorem aggregateSpotPrice_ok (h : aggregateSpotPrice now o asset = .ok r) :
    candidates now o asset ≠ [] ∧ aggregateOf o (candidates now o asset) = .ok r := by
  by_cases hne : candidates now o asset = []
  · change (if candidates now o asset = [] then _ else _) = _ at h
    rw [if_pos hne] at h
    split at h <;> cases h
  · rw [aggregateSpotPrice_eq hne] at h
    exact ⟨hne, h⟩

/-- As many prices are kept as the configuration asks for. -/
theorem minSources_le_length (h : aggregateOf o prices = .ok r) :
    (getOracleConfig o).minSources ≤ prices.length := by
  simp only [aggregateOf, except_bind_ok] at h
  obtain ⟨m, -, kept, hkept, h⟩ := h
  split at h
  · cases h
  · rename_i hmany
    exact (not_lt.mp hmany).trans (filterOutliers_sublist hkept).length_le

/-- The limits that the aggregation reads from the configuration agree. -/
def SameFilter (o o' : OracleStore) : Prop :=
  (getOracleConfig o').outlierDeviationBps = (getOracleConfig o).outlierDeviationBps ∧
    (getOracleConfig o').minSources = (getOracleConfig o).minSources

/-- **The order of the candidates does not matter.** -/
theorem aggregateOf_perm (hlimits : SameFilter o o') (h : xs.Perm ys) :
    aggregateOf o xs = aggregateOf o' ys := by
  rw [aggregateOf, aggregateOf, medianI128_congr h, hlimits.2]
  cases medianI128 ys with
  | error err => rfl
  | ok m =>
    change (filterOutliers o m xs >>= _) = (filterOutliers o' m ys >>= _)
    obtain ⟨err, hx, hy⟩ | ⟨kept, kept', hx, hy, hkept⟩ := filterOutliers_perm hlimits.1 h
    · rw [hx, hy]
    · rw [hx, hy]
      change (if kept.length < _ then _ else _) = if kept'.length < _ then _ else _
      rw [hkept.length_eq, medianI128_congr hkept]

/-- **What a spot price is**: one of the candidates, near their median. -/
theorem aggregateOf_ok (h : aggregateOf o prices = .ok r) :
    r ∈ prices ∧ ∃ m, UpperMedian prices m ∧ 0 < m ∧
      ((getOracleConfig o).outlierDeviationBps ≤ 0 → r = m) ∧
      (0 < (getOracleConfig o).outlierDeviationBps →
        |r - m| * 10000 / m ≤ (getOracleConfig o).outlierDeviationBps) := by
  simp only [aggregateOf, except_bind_ok] at h
  obtain ⟨m, hm, kept, hkept, h⟩ := h
  split at h
  · cases h
  obtain ⟨hpos, hoff, hon⟩ := filterOutliers_ok hkept
  have hr := mem_of_medianI128 h
  refine ⟨(filterOutliers_sublist hkept).subset hr, m, medianI128_eq_ok_iff.mp hm, hpos,
    fun hband => ?_, fun hband => hon hband r hr⟩
  rw [hoff hband, hm] at h
  exact (Except.ok.inj h).symm

/-- **The spot price does not depend on the order of the candidates; it is one of them, within the
band in whole basis points of their upper median; and that median stays where the majority is.** -/
theorem aggregate_robust (hne : candidates now o asset ≠ []) :
    (∀ now' o' asset', SameFilter o o' →
      (candidates now o asset).Perm (candidates now' o' asset') →
      aggregateSpotPrice now' o' asset' = aggregateSpotPrice now o asset) ∧
    ∀ r, aggregateSpotPrice now o asset = .ok r →
      r ∈ candidates now o asset ∧ ∃ m, UpperMedian (candidates now o asset) m ∧ 0 < m ∧
        ((getOracleConfig o).outlierDeviationBps ≤ 0 → r = m) ∧
        (0 < (getOracleConfig o).outlierDeviationBps →
          |r - m| * 10000 / m ≤ (getOracleConfig o).outlierDeviationBps) ∧
        ∀ lo hi, (candidates now o asset).length <
            2 * (candidates now o asset).countP (fun p => lo ≤ p ∧ p ≤ hi) →
          lo ≤ m ∧ m ≤ hi := by
  rw [aggregateSpotPrice_eq hne]
  constructor
  · intro now' o' asset' hlimits hperm
    have hne' : candidates now' o' asset' ≠ [] := fun hnil =>
      hne (List.perm_nil.mp (hnil ▸ hperm))
    rw [aggregateSpotPrice_eq hne', aggregateOf_perm hlimits hperm]
  · intro r hr
    obtain ⟨hmem, m, hmedian, hpos, hoff, hon⟩ := aggregateOf_ok hr
    exact ⟨hmem, m, hmedian, hpos, hoff, hon, fun lo hi => hmedian.mem_Icc⟩

namespace Sample

/-- Five sources of an asset with these prices, and a band of a third, all but a part of a basis
point. -/
def fiveSources (prices : List ℤ) : OracleStore :=
  { OracleStore.empty with
    oracleConfig := some { OracleConfig.default with outlierDeviationBps := 3333 }
    oracleSources := fun _ => some ((List.range 5).map Lending.Address.mk)
    sourceFeed := fun _ source => prices[source.id]?.map fun price => ⟨price, 10, source, 7⟩ }

/-- **The median is 3 and the price is 4, which is off by more than 3333 basis points of 3.** -/
theorem outside_by_a_part_of_a_basis_point :
    candidates 10 (fiveSources [1, 1, 3, 4, 4]) ⟨9⟩ = [1, 1, 3, 4, 4] ∧
      UpperMedian [1, 1, 3, 4, 4] 3 ∧
      aggregateSpotPrice 10 (fiveSources [1, 1, 3, 4, 4]) ⟨9⟩ = .ok 4 ∧
      ¬ |(4 : ℤ) - 3| * 10000 ≤
        (getOracleConfig (fiveSources [1, 1, 3, 4, 4])).outlierDeviationBps * 3 := by
  refine ⟨by decide, upperMedian_iff.mpr (by decide), by decide, by decide⟩

/-- In whatever order the sources stand, the price is 4; and their median is between 3 and 4, where
three of the five are. -/
theorem aggregate_robust_fiveSources :
    (∀ o', SameFilter (fiveSources [1, 1, 3, 4, 4]) o' →
      [1, 1, 3, 4, 4].Perm (candidates 10 o' ⟨9⟩) → aggregateSpotPrice 10 o' ⟨9⟩ = .ok 4) ∧
    ∃ m, UpperMedian [1, 1, 3, 4, 4] m ∧ 3 ≤ m ∧ m ≤ 4 := by
  have hprices : candidates 10 (fiveSources [1, 1, 3, 4, 4]) ⟨9⟩ = [1, 1, 3, 4, 4] := by decide
  have hspot : aggregateSpotPrice 10 (fiveSources [1, 1, 3, 4, 4]) ⟨9⟩ = .ok 4 := by decide
  have h := @aggregate_robust 10 (fiveSources [1, 1, 3, 4, 4]) ⟨9⟩ (by decide)
  rw [hprices, hspot] at h
  obtain ⟨horder, hprice⟩ := h
  obtain ⟨-, m, hmedian, -, -, -, hmajority⟩ := hprice 4 rfl
  exact ⟨fun o' hlimits hperm => horder 10 o' ⟨9⟩ hlimits hperm,
    m, hmedian, hmajority 3 4 (by decide)⟩

end Sample

end StellarLend.HelloWorld
