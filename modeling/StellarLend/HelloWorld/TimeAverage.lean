import StellarLend.Foundations.Rounding
import StellarLend.Foundations.StepFunction
import StellarLend.HelloWorld.Oracle

/-!
# HelloWorld/TimeAverage — what the time-weighted average averages

    observations   p₀        p₁        p₂
    window              │────┬─────────┬──────│
    in force              p₀ │    p₁   │  p₂           averaged

`compute_twap` starts with the observation before the first one in the window, passes over whatever
is not after the window's start, and adds up the rest.  An observation exactly at the start is
passed over and the one before it is carried on, although it is no longer in force: the average is
off by the difference of the two prices over the first stretch.  `EdgeHarmless` says when that does
not show.
-/

namespace StellarLend.HelloWorld

open Foundations Call
open Lending (Address)

variable {now windowStart : ℕ} {o : OracleStore} {asset : Address} {spotPrice price sum : ℤ}
  {start stop elapsed : ℕ} {st : TwapState} {history rest xs : List PriceObservation}
  {first used : PriceObservation}

/-! ## What is to be computed -/

/-- The instant of an observation. -/
def PriceObservation.time (x : PriceObservation) : ℤ := x.timestamp

/-- The price in force at an instant: the last one observed by then. -/
def priceInForce (history : List PriceObservation) (t : ℤ) : ℤ :=
  stepAt PriceObservation.time PriceObservation.price history t

/-- The prices in force in a period, added up second by second. -/
def heldSum (history : List PriceObservation) (start stop : ℤ) : ℤ :=
  stepSum PriceObservation.time PriceObservation.price history start stop

/-- Where the average begins: at the window's start, or the first observation if that is later. -/
def averageStart (windowStart : ℕ) (history : List PriceObservation) : ℕ :=
  max windowStart ((history.head?.map PriceObservation.timestamp).getD 0)

/-- The average of the price in force, rounded down; the spot price where there is no time. -/
def averagePrice (now windowStart : ℕ) (history : List PriceObservation) (spotPrice : ℤ) : ℤ :=
  let start := averageStart windowStart history
  if start < now then heldSum history start now / ((now : ℤ) - start) else spotPrice

/-- Positive observations in the order of their positive timestamps, none in the future, the last
one inside the window. -/
structure Observed (now windowStart : ℕ) (history : List PriceObservation) : Prop where
  sorted : history.Pairwise fun x y => x.time ≤ y.time
  price_pos : ∀ x ∈ history, 0 < x.price
  time_pos : ∀ x ∈ history, 0 < x.timestamp
  le_now : ∀ x ∈ history, x.timestamp ≤ now
  recent : ∃ x, history.getLast? = some x ∧ windowStart ≤ x.timestamp

/-! ## The loop -/

theorem check_of_le {x : ℤ} (h0 : 0 ≤ x) (h : x ≤ I128.MAX) : I128.check x = some x :=
  Range.check_eq_some.mpr ⟨(I128.holds_of_nonneg h0).mpr h, rfl⟩

theorem check_of_lt {x : ℤ} (h : I128.MAX < x) : I128.check x = none :=
  Range.check_eq_none.mpr fun hholds => absurd hholds.2 (not_le.mpr h)

/-- A price held for some time is added, unless the sum overflows. -/
theorem addSegment_eq (hprice : 0 < price) (h0 : 0 ≤ sum) (hsum : sum ≤ I128.MAX)
    (h : start ≤ stop) (htime : elapsed + (stop - start) ≤ U64.MAX) :
    addSegment price start stop sum elapsed =
      if sum + price * ((stop : ℤ) - start) ≤ I128.MAX then
        .ok (sum + price * ((stop : ℤ) - start), elapsed + (stop - start))
      else .error .overflow := by
  have hsat : U64.saturatingAdd elapsed (stop - start) = elapsed + (stop - start) :=
    min_eq_left htime
  have hheld : 0 ≤ price * ((stop : ℤ) - start) := mul_nonneg hprice.le (by omega)
  rw [addSegment]
  by_cases hlt : start < stop
  · rw [if_pos hlt, hsat, Nat.cast_sub h]
    change (orErr (I128.check (price * ((stop : ℤ) - start))) OracleError.overflow >>= fun held =>
      orErr (I128.check (sum + held)) .overflow >>= fun sum => .ok (sum, _)) = _
    rcases le_or_gt (price * ((stop : ℤ) - start)) I128.MAX with hmul | hmul
    · rw [check_of_le hheld hmul]
      change (orErr (I128.check (sum + price * ((stop : ℤ) - start))) OracleError.overflow >>=
        _) = _
      rcases le_or_gt (sum + price * ((stop : ℤ) - start)) I128.MAX with hadd | hadd
      · rw [check_of_le (by omega) hadd, if_pos hadd]
        rfl
      · rw [check_of_lt hadd, if_neg (not_le.mpr hadd)]
        rfl
    · rw [check_of_lt hmul, if_neg (by omega)]
      rfl
  · obtain rfl : start = stop := by omega
    rw [if_neg hlt, sub_self, mul_zero, add_zero, if_pos hsum, Nat.sub_self, add_zero]

/-- What is not after the window's start is passed over. -/
theorem twapLoop_filter (now windowStart : ℕ) (st : TwapState) (xs : List PriceObservation) :
    twapLoop now windowStart st xs =
      twapLoop now windowStart st (xs.filter fun x => windowStart < x.timestamp) := by
  induction xs generalizing st with
  | nil => rfl
  | cons cur rest ih =>
    by_cases hskip : cur.timestamp ≤ windowStart
    · rw [twapLoop, if_pos hskip, List.filter_cons_of_neg (by simpa using hskip), ih]
    · rw [List.filter_cons_of_pos (by simpa using hskip), twapLoop, twapLoop, if_neg hskip,
        if_neg hskip]
      by_cases hlate : now < cur.timestamp
      · rw [if_pos hlate, if_pos hlate]
      · rw [if_neg hlate, if_neg hlate]
        exact congrArg _ (funext fun _ => ih _)

/-- The last segment, from the loop's last observation to now. -/
def finishTwap (now : ℕ) (spotPrice : ℤ) (st : TwapState) : Except OracleError (ℤ × ℕ) :=
  addSegment (if st.prev.timestamp = 0 then spotPrice else st.prev.price) st.prevTime now
    st.weightedSum st.totalTime

/-- A state of the loop whose price has been in force since some time before now. -/
structure TwapState.Running (st : TwapState) (now : ℕ) : Prop where
  price_pos : 0 < st.prev.price
  time_pos : 0 < st.prev.timestamp
  le_prevTime : st.prev.timestamp ≤ st.prevTime
  prevTime_le : st.prevTime ≤ now
  sum_nonneg : 0 ≤ st.weightedSum
  sum_le : st.weightedSum ≤ I128.MAX
  time_le : st.totalTime + (now - st.prevTime) ≤ U64.MAX

/-- A sum that is not negative, divided by a time. -/
theorem checkedDiv_eq (h0 : 0 ≤ sum) (hsum : sum ≤ I128.MAX) (h : start < stop) :
    I128.checkedDiv sum ((stop - start : ℕ) : ℤ) = some (sum / ((stop : ℤ) - start)) := by
  have hcast : ((stop - start : ℕ) : ℤ) = (stop : ℤ) - start := Nat.cast_sub h.le
  have hpos : (0 : ℤ) < (stop : ℤ) - start := by omega
  rw [I128.checkedDiv, hcast, if_neg hpos.ne', Int.tdiv_eq_ediv_of_nonneg h0]
  exact check_of_le (Int.ediv_nonneg h0 hpos.le) ((Int.ediv_le_self _ h0).trans hsum)

/-- **The loop adds up what the prices after the first hold**, the first from where it stands. -/
theorem twapLoop_eq (hst : st.Running now) (hsorted : xs.Pairwise fun x y => x.time ≤ y.time)
    (hxs : ∀ x ∈ xs, 0 < x.price ∧ windowStart < x.timestamp ∧ st.prevTime ≤ x.timestamp ∧
      x.timestamp ≤ now) :
    (twapLoop now windowStart st xs >>= finishTwap now spotPrice) =
      if st.weightedSum + heldSum (st.prev :: xs) st.prevTime now ≤ I128.MAX then
        .ok (st.weightedSum + heldSum (st.prev :: xs) st.prevTime now,
          st.totalTime + (now - st.prevTime))
      else .error .overflow := by
  have hprev : st.prev.time ≤ st.prevTime := Int.ofNat_le.mpr hst.le_prevTime
  induction xs generalizing st with
  | nil =>
    have hsum : heldSum [st.prev] st.prevTime now =
        st.prev.price * ((now : ℤ) - st.prevTime) :=
      stepSum_single hprev (Int.ofNat_le.mpr hst.prevTime_le)
    change finishTwap now spotPrice st = _
    rw [hsum, finishTwap, if_neg hst.time_pos.ne', addSegment_eq hst.price_pos hst.sum_nonneg
      hst.sum_le hst.prevTime_le hst.time_le]
  | cons cur rest ih =>
    obtain ⟨hprice, hafter, hfrom, hnow⟩ := hxs cur (List.mem_cons_self ..)
    have hrest : ∀ x ∈ rest, cur.time ≤ x.time := (List.pairwise_cons.mp hsorted).1
    have hsplit : heldSum (st.prev :: cur :: rest) st.prevTime now =
        st.prev.price * ((cur.timestamp : ℤ) - st.prevTime) +
          heldSum (cur :: rest) cur.timestamp now :=
      stepSum_cons hsorted hprev (Int.ofNat_le.mpr hfrom) (Int.ofNat_le.mpr hnow)
    have hnonneg : 0 ≤ heldSum (cur :: rest) cur.timestamp now :=
      stepSum_nonneg (fun x hx => (hxs x hx).1.le) _ _
    have hheld : 0 ≤ st.prev.price * ((cur.timestamp : ℤ) - st.prevTime) :=
      mul_nonneg hst.price_pos.le (by omega)
    have h0 := hst.sum_nonneg
    have htime := hst.time_le
    rw [twapLoop, if_neg (not_le.mpr hafter), if_neg (not_lt.mpr hnow),
      addSegment_eq hst.price_pos h0 hst.sum_le hfrom (by omega), hsplit]
    rcases le_or_gt (st.weightedSum + st.prev.price * ((cur.timestamp : ℤ) - st.prevTime))
      I128.MAX with hfits | hover
    · have hnext : TwapState.Running
          ⟨st.weightedSum + st.prev.price * ((cur.timestamp : ℤ) - st.prevTime),
            st.totalTime + (cur.timestamp - st.prevTime), cur, cur.timestamp⟩ now :=
        ⟨hprice, (Nat.zero_le _).trans_lt hafter, le_rfl, hnow, Int.add_nonneg h0 hheld, hfits,
          by dsimp only; omega⟩
      have hxs' : ∀ x ∈ rest, 0 < x.price ∧ windowStart < x.timestamp ∧
          cur.timestamp ≤ x.timestamp ∧ x.timestamp ≤ now := by
        intro x hx
        obtain ⟨hp, ha, -, hn⟩ := hxs x (List.mem_cons_of_mem cur hx)
        exact ⟨hp, ha, Int.ofNat_le.mp (hrest x hx), hn⟩
      rw [if_pos hfits]
      change (twapLoop now windowStart ⟨_, _, cur, cur.timestamp⟩ rest >>= _) = _
      have htotal : st.totalTime + (cur.timestamp - st.prevTime) + (now - cur.timestamp) =
          st.totalTime + (now - st.prevTime) := by omega
      rw [ih hnext (List.pairwise_cons.mp hsorted).2 hxs' le_rfl]
      dsimp only
      rw [htotal, add_assoc]
    · rw [if_neg (not_le.mpr hover), if_neg (by omega)]
      rfl

/-! ## Where it starts -/

/-- The observation that the source carries into the window: the last one before it, or the first
of all. -/
def carried (windowStart : ℕ) (history : List PriceObservation) : Option PriceObservation :=
  ((history.filter fun x => x.timestamp < windowStart).getLast?).or history.head?

/-- The observations after the window's start. -/
def later (windowStart : ℕ) (history : List PriceObservation) : List PriceObservation :=
  history.filter fun x => windowStart < x.timestamp

theorem later_append_of_le {ys zs : List PriceObservation}
    (hys : ∀ y ∈ ys, y.timestamp ≤ windowStart) :
    later windowStart (ys ++ zs) = later windowStart zs := by
  have hnone : ys.filter (fun x => windowStart < x.timestamp) = [] :=
    List.filter_eq_nil_iff.mpr fun y hy => by simpa using hys y hy
  rw [later, List.filter_append, hnone, List.nil_append, later]

theorem twapStart_append {ys zs : List PriceObservation} {z : PriceObservation}
    (hys : ∀ y ∈ ys, y.timestamp < windowStart) (hz : windowStart ≤ z.timestamp) :
    twapStart windowStart (ys ++ z :: zs) = ys.length - 1 := by
  have hnone : ys.findIdx? (fun x => windowStart ≤ x.timestamp) = none :=
    List.findIdx?_eq_none_iff.mpr fun y hy => by simpa using hys y hy
  have hhead : (z :: zs).findIdx? (fun x => windowStart ≤ x.timestamp) = some 0 := by
    rw [List.findIdx?_cons, if_pos (by simpa using hz)]
  have hfind : (ys ++ z :: zs).findIdx? (fun x => windowStart ≤ x.timestamp) =
      some ys.length := by
    rw [List.findIdx?_append, hnone, hhead]
    simp
  rw [twapStart, hfind]

theorem carried_append {ys zs : List PriceObservation}
    (hys : ∀ y ∈ ys, y.timestamp < windowStart) (hzs : ∀ z ∈ zs, windowStart ≤ z.timestamp) :
    carried windowStart (ys ++ zs) = (ys.getLast?).or (ys ++ zs).head? := by
  have hall : ys.filter (fun x => x.timestamp < windowStart) = ys :=
    List.filter_eq_self.mpr fun y hy => by simpa using hys y hy
  have hnone : zs.filter (fun x => x.timestamp < windowStart) = [] :=
    List.filter_eq_nil_iff.mpr fun z hz => by simpa using hzs z hz
  rw [carried, List.filter_append, hall, hnone, List.append_nil]

/-- **The loop starts with the observation carried, and sees the later ones after it.** -/
theorem Observed.starts (h : Observed now windowStart history) :
    ∃ used rest, history.drop (twapStart windowStart history) = used :: rest ∧
      carried windowStart history = some used ∧
      (used.timestamp ≤ windowStart → later windowStart rest = later windowStart history) ∧
      (windowStart < used.timestamp → history = used :: rest) := by
  obtain ⟨ys, zs, rfl, hys, hzs⟩ := exists_split_at h.sorted windowStart
  obtain ⟨last, hlast, hrecent⟩ := h.recent
  have hys' : ∀ y ∈ ys, y.timestamp < windowStart := fun y hy => Int.ofNat_lt.mp (hys y hy)
  have hzs' : ∀ z ∈ zs, windowStart ≤ z.timestamp := fun z hz => Int.ofNat_le.mp (hzs z hz)
  have hne : zs ≠ [] := by
    rintro rfl
    rw [List.append_nil] at hlast
    exact absurd (hys' last (List.mem_of_getLast? hlast)) (not_lt.mpr hrecent)
  obtain ⟨z, zs, rfl⟩ := List.exists_cons_of_ne_nil hne
  rw [carried_append hys' hzs', twapStart_append hys' (hzs' z (List.mem_cons_self ..))]
  rcases List.eq_nil_or_concat' ys with rfl | ⟨ys, y, rfl⟩
  · refine ⟨z, zs, rfl, rfl, fun hle => ?_, fun _ => rfl⟩
    have hskip : later windowStart ([z] ++ zs) = later windowStart zs :=
      later_append_of_le (by simpa using hle)
    exact hskip.symm
  · refine ⟨y, z :: zs, by simp, by simp, fun _ => ?_, fun hlt => ?_⟩
    · exact (later_append_of_le fun x hx => (hys' x hx).le).symm
    · exact absurd (hys' y (by simp)) (not_lt.mpr hlt.le)

/-! ## The average that comes out -/

/-- What carrying an observation past the window's start adds to the sum: the difference between its
price and the one in force, until the next observation. -/
def edgeError (now windowStart : ℕ) (history : List PriceObservation) : ℤ :=
  if windowStart < averageStart windowStart history then 0
  else
    (((carried windowStart history).map PriceObservation.price).getD 0 -
        priceInForce history windowStart) *
      (nextTime PriceObservation.time (later windowStart history) now - windowStart)

theorem averageStart_cons : averageStart windowStart (first :: rest) =
    max windowStart first.timestamp := rfl

/-- In force at the window's start is the last observation by then, and after it come the later
ones. -/
theorem Observed.edge (h : Observed now windowStart history) (hused : used ∈ history)
    (hle : used.timestamp ≤ windowStart) :
    ∃ before edge, history = before ++ edge :: later windowStart history ∧
      edge.time ≤ windowStart ∧ priceInForce history windowStart = edge.price := by
  obtain ⟨ys, zs, hsplit, hys, hzs⟩ := exists_split_at h.sorted ((windowStart : ℤ) + 1)
  have hys' : ∀ y ∈ ys, y.timestamp ≤ windowStart := fun y hy =>
    Int.ofNat_le.mp (Int.lt_add_one_iff.mp (hys y hy))
  have hzs' : ∀ z ∈ zs, windowStart < z.timestamp := fun z hz =>
    Int.ofNat_lt.mp (Int.add_one_le_iff.mp (hzs z hz))
  have hlater : later windowStart history = zs := by
    rw [hsplit, later_append_of_le hys', later]
    exact List.filter_eq_self.mpr fun z hz => by simpa using hzs' z hz
  rcases List.eq_nil_or_concat' ys with rfl | ⟨before, edge, rfl⟩
  · rw [hsplit] at hused
    exact absurd (hzs' used hused) (not_lt.mpr hle)
  · have hedge : edge.time ≤ windowStart := Int.ofNat_le.mpr (hys' edge (by simp))
    refine ⟨before, edge, by rw [hlater, hsplit, List.append_assoc]; rfl, hedge, ?_⟩
    rw [hsplit, List.append_assoc, priceInForce, stepAt_append ⟨edge, by simp, hedge⟩]
    exact stepAt_cons_of_lt hedge fun z hz => Int.ofNat_lt.mpr (hzs' z hz)

theorem Observed.head_le (h : Observed now windowStart (first :: rest))
    (hused : used ∈ first :: rest) : first.timestamp ≤ used.timestamp := by
  rcases List.mem_cons.mp hused with rfl | hused
  · exact le_rfl
  · exact Int.ofNat_le.mp (List.rel_of_pairwise_cons h.sorted hused)

/-- **What the loop adds up is the prices in force, and the error at the edge.** -/
theorem Observed.heldSum_carried (h : Observed now windowStart history) (hws : windowStart ≤ now)
    (hmem : used ∈ history) (hcarried : carried windowStart history = some used)
    (hbefore : used.timestamp ≤ windowStart → later windowStart rest = later windowStart history)
    (hall : windowStart < used.timestamp → history = used :: rest) :
    max used.timestamp windowStart = averageStart windowStart history ∧
      heldSum (used :: later windowStart rest) (averageStart windowStart history) now =
        heldSum history (averageStart windowStart history) now +
          edgeError now windowStart history := by
  rcases lt_or_ge windowStart used.timestamp with hlt | hle
  · obtain rfl := hall hlt
    have hstart : averageStart windowStart (used :: rest) = used.timestamp := max_eq_right hlt.le
    have hlater : later windowStart rest = rest := List.filter_eq_self.mpr fun x hx => by
      simpa using hlt.trans_le (h.head_le (List.mem_cons_of_mem used hx))
    rw [hstart, hlater, edgeError, hstart, if_pos hlt, add_zero, max_eq_left hlt.le]
    exact ⟨rfl, rfl⟩
  · have hstart : averageStart windowStart history = windowStart := by
      cases history with
      | nil => cases hmem
      | cons first xs =>
        exact max_eq_left ((h.head_le hmem).trans hle)
    obtain ⟨before, edge, hhistory, hedge, hforce⟩ := h.edge hmem hle
    have hsum : heldSum history windowStart now =
        heldSum (edge :: later windowStart history) windowStart now := by
      conv_lhs => rw [hhistory]
      exact stepSum_append ⟨edge, List.mem_cons_self .., hedge⟩
    have hsorted : (later windowStart history).Pairwise fun x y => x.time ≤ y.time :=
      h.sorted.filter _
    have hlater : ∀ z ∈ later windowStart history, (windowStart : ℤ) ≤ z.time ∧ z.time ≤ now := by
      intro z hz
      obtain ⟨hz, hafter⟩ := List.mem_filter.mp hz
      exact ⟨Int.ofNat_le.mpr (of_decide_eq_true hafter).le, Int.ofNat_le.mpr (h.le_now z hz)⟩
    rw [hstart, hbefore hle, hsum, max_eq_right hle, edgeError, hstart, if_neg (lt_irrefl _),
      hcarried, hforce]
    exact ⟨rfl, stepSum_replace_head hsorted (Int.ofNat_le.mpr hle) hedge (Int.ofNat_le.mpr hws)
      hlater⟩

/-- The state that the loop starts in. -/
theorem Observed.running (h : Observed now windowStart history) (hws : windowStart ≤ now)
    (hnow : now ≤ U64.MAX) (hused : used ∈ history) :
    TwapState.Running ⟨0, 0, used, max used.timestamp windowStart⟩ now where
  price_pos := h.price_pos used hused
  time_pos := h.time_pos used hused
  le_prevTime := le_max_left _ _
  prevTime_le := max_le (h.le_now used hused) hws
  sum_nonneg := le_rfl
  sum_le := (by decide : (0 : ℤ) ≤ I128.MAX)
  time_le := (Nat.zero_add _).trans_le ((Nat.sub_le ..).trans hnow)

/-- The observations that the loop sees. -/
theorem Observed.later_seen (h : Observed now windowStart history)
    (hsub : (used :: rest).Sublist history) :
    ∀ x ∈ later windowStart rest, 0 < x.price ∧ windowStart < x.timestamp ∧
      max used.timestamp windowStart ≤ x.timestamp ∧ x.timestamp ≤ now := by
  intro x hx
  obtain ⟨hx, hafter⟩ := List.mem_filter.mp hx
  have hlt : windowStart < x.timestamp := of_decide_eq_true hafter
  have hle : used.timestamp ≤ x.timestamp := Int.ofNat_le.mp
    (List.rel_of_pairwise_cons (h.sorted.sublist hsub) hx)
  have hmem : x ∈ history := hsub.subset (List.mem_cons_of_mem used hx)
  exact ⟨h.price_pos x hmem, hlt, max_le hle hlt.le, h.le_now x hmem⟩

/-- The sum is divided by the time, where there is some. -/
def divideTwap (spotPrice : ℤ) (total : ℤ × ℕ) : Except OracleError ℤ :=
  if total.2 = 0 then .ok spotPrice else orErr (I128.checkedDiv total.1 total.2) .overflow

theorem divideTwap_eq (h0 : 0 ≤ sum) (hsum : sum ≤ I128.MAX) :
    divideTwap spotPrice (sum, stop - start) =
      if start < stop then .ok (sum / ((stop : ℤ) - start)) else .ok spotPrice := by
  rw [divideTwap]
  dsimp only
  by_cases hlt : start < stop
  · rw [if_neg (by omega), if_pos hlt, checkedDiv_eq h0 hsum hlt]
    rfl
  · rw [if_pos (by omega), if_neg hlt]

/-- The source is the loop, its last segment and the division. -/
theorem computeTwap_eq_loop (hwindow : 0 < (getOracleConfig o).twapWindowSeconds)
    (hws : now - (getOracleConfig o).twapWindowSeconds = windowStart)
    (hdrop : (loadHistory o asset).drop (twapStart windowStart (loadHistory o asset)) =
      used :: rest) :
    computeTwap now o asset spotPrice =
      (twapLoop now windowStart ⟨0, 0, used, max used.timestamp windowStart⟩ rest >>=
        finishTwap now spotPrice) >>= divideTwap spotPrice := by
  subst hws
  rw [computeTwap]
  dsimp only
  rw [if_neg hwindow.ne', hdrop]
  change (twapLoop now _ _ rest >>= _) = _
  cases twapLoop now _ ⟨0, 0, used, max used.timestamp _⟩ rest <;> rfl

/-- The average that the source takes, unless the sum overflows. -/
theorem computeTwap_eq (h : Observed now (now - (getOracleConfig o).twapWindowSeconds)
      (loadHistory o asset)) (hnow : now ≤ U64.MAX)
    (hwindow : 0 < (getOracleConfig o).twapWindowSeconds) :
    let windowStart := now - (getOracleConfig o).twapWindowSeconds
    let start := averageStart windowStart (loadHistory o asset)
    let sum := heldSum (loadHistory o asset) start now +
      edgeError now windowStart (loadHistory o asset)
    computeTwap now o asset spotPrice =
      if sum ≤ I128.MAX then
        if start < now then .ok (sum / ((now : ℤ) - start)) else .ok spotPrice
      else .error .overflow := by
  intro windowStart start sum
  obtain ⟨used, rest, hdrop, hcarried, hbefore, hall⟩ := h.starts
  have hsub : (used :: rest).Sublist (loadHistory o asset) := hdrop ▸ List.drop_sublist ..
  have hused : used ∈ loadHistory o asset := hsub.subset (List.mem_cons_self ..)
  have hlater := h.later_seen hsub
  have hsorted : (later windowStart rest).Pairwise fun x y => x.time ≤ y.time :=
    ((List.pairwise_cons.mp (h.sorted.sublist hsub)).2).filter _
  obtain ⟨hstart, hsum⟩ := h.heldSum_carried (Nat.sub_le ..) hused hcarried hbefore hall
  have h0 : 0 ≤ sum := by
    refine le_of_le_of_eq (stepSum_nonneg (fun x hx => ?_) _ _) hsum
    rcases List.mem_cons.mp hx with rfl | hx
    · exact (h.price_pos x hused).le
    · exact (hlater x hx).1.le
  rw [computeTwap_eq_loop hwindow rfl hdrop, twapLoop_filter, ← later,
    twapLoop_eq (h.running (Nat.sub_le ..) hnow hused) hsorted hlater]
  dsimp only
  rw [hstart, hsum, zero_add, zero_add]
  change (if sum ≤ I128.MAX then Except.ok (sum, now - start)
    else .error OracleError.overflow) >>= _ = _
  by_cases hfits : sum ≤ I128.MAX
  · rw [if_pos hfits, if_pos hfits]
    exact divideTwap_eq h0 hfits
  · rw [if_neg hfits, if_neg hfits]
    rfl

/-! ## When the average is the right one -/

/-- The error at the edge does not carry the sum past a multiple of the time. -/
def EdgeHarmless (now windowStart : ℕ) (history : List PriceObservation) : Prop :=
  let start := averageStart windowStart history
  start < now →
    0 ≤ heldSum history start now % ((now : ℤ) - start) + edgeError now windowStart history ∧
      heldSum history start now % ((now : ℤ) - start) + edgeError now windowStart history <
        (now : ℤ) - start

/-- There is no error where no observation is exactly at the window's start. -/
theorem Observed.edgeError_eq_zero (h : Observed now windowStart history)
    (hne : ∀ x ∈ history, x.timestamp ≠ windowStart) : edgeError now windowStart history = 0 := by
  rw [edgeError]
  split
  · rfl
  rename_i hstart
  have hsame : history.filter (fun x => x.timestamp < windowStart) =
      history.filter fun x => x.time ≤ (windowStart : ℤ) := by
    refine List.filter_congr fun x hx => decide_eq_decide.mpr ?_
    have := hne x hx
    change _ ↔ (x.timestamp : ℤ) ≤ windowStart
    omega
  obtain ⟨last, hlast, -⟩ := h.recent
  cases history with
  | nil => cases hlast
  | cons first xs =>
    have hfirst : first.time ≤ (windowStart : ℤ) := by
      rw [averageStart_cons] at hstart
      change (first.timestamp : ℤ) ≤ windowStart
      omega
    have hsome : ((first :: xs).filter fun x => x.time ≤ (windowStart : ℤ)) ≠ [] :=
      List.ne_nil_of_mem (List.mem_filter.mpr ⟨List.mem_cons_self .., by simpa using hfirst⟩)
    obtain ⟨edge, hedge⟩ : ∃ edge, ((first :: xs).filter fun x =>
        x.time ≤ (windowStart : ℤ)).getLast? = some edge :=
      ⟨_, List.getLast?_eq_getLast_of_ne_nil hsome⟩
    rw [priceInForce, stepAt, carried, hsame, hedge, Option.some_or, Option.map_some,
      Option.getD_some, sub_self, zero_mul]

/-- So the average is the right one there. -/
theorem Observed.edgeHarmless_of_ne (h : Observed now windowStart history)
    (hne : ∀ x ∈ history, x.timestamp ≠ windowStart) : EdgeHarmless now windowStart history := by
  intro hlt
  rw [h.edgeError_eq_zero hne, add_zero]
  exact ⟨Int.emod_nonneg _ (by omega), Int.emod_lt_of_pos _ (by omega)⟩

/-- The average is between bounds of the prices in force. -/
theorem averagePrice_bounds {lo hi : ℤ} (hlt : averageStart windowStart history < now)
    (h : ∀ t : ℤ, averageStart windowStart history ≤ t → t < now →
      lo ≤ priceInForce history t ∧ priceInForce history t ≤ hi) :
    lo ≤ averagePrice now windowStart history spotPrice ∧
      averagePrice now windowStart history spotPrice ≤ hi := by
  have hpos : (0 : ℤ) < now - averageStart windowStart history := by omega
  obtain ⟨hlo, hhi⟩ := stepSum_bounds (by omega) h
  rw [averagePrice, if_pos hlt]
  exact ⟨(Int.le_ediv_iff_mul_le hpos).mpr hlo, Int.ediv_le_of_le_mul hpos hhi⟩

/-- **The source takes the floor of the average of the price in force exactly if the error at the
edge is harmless, as it is where no observation is at the window's start; and the average is between
the prices in force.** -/
theorem computeTwap_average_iff
    (h : Observed now (now - (getOracleConfig o).twapWindowSeconds) (loadHistory o asset))
    (hnow : now ≤ U64.MAX) (hwindow : 0 < (getOracleConfig o).twapWindowSeconds)
    (hfits : computeTwap now o asset spotPrice ≠ .error .overflow) :
    let windowStart := now - (getOracleConfig o).twapWindowSeconds
    let history := loadHistory o asset
    (computeTwap now o asset spotPrice = .ok (averagePrice now windowStart history spotPrice) ↔
      EdgeHarmless now windowStart history) ∧
    ((∀ x ∈ history, x.timestamp ≠ windowStart) → EdgeHarmless now windowStart history) ∧
    (averageStart windowStart history < now → ∀ lo hi,
      (∀ t : ℤ, averageStart windowStart history ≤ t → t < now →
        lo ≤ priceInForce history t ∧ priceInForce history t ≤ hi) →
      lo ≤ averagePrice now windowStart history spotPrice ∧
        averagePrice now windowStart history spotPrice ≤ hi) := by
  intro windowStart history
  refine ⟨?_, h.edgeHarmless_of_ne, fun hlt lo hi => averagePrice_bounds hlt⟩
  have hcode : computeTwap now o asset spotPrice =
      if heldSum history (averageStart windowStart history) now +
          edgeError now windowStart history ≤ I128.MAX then
        if averageStart windowStart history < now then
          .ok ((heldSum history (averageStart windowStart history) now +
            edgeError now windowStart history) / ((now : ℤ) - averageStart windowStart history))
        else .ok spotPrice
      else .error .overflow := computeTwap_eq h hnow hwindow
  rw [hcode] at hfits ⊢
  split at hfits
  · rename_i hsum
    rw [if_pos hsum, averagePrice]
    by_cases hlt : averageStart windowStart history < now
    · have hpos : (0 : ℤ) < now - averageStart windowStart history := by omega
      rw [if_pos hlt, if_pos hlt, Except.ok.injEq, add_ediv_eq_iff hpos]
      exact ⟨fun hharmless _ => hharmless, fun hharmless => hharmless hlt⟩
    · rw [if_neg hlt, if_neg hlt]
      exact iff_of_true rfl fun hstart => absurd hstart hlt
  · exact absurd rfl hfits

namespace Sample

/-- One asset's history, and a window of a thousand seconds. -/
def observedPrices (history : List PriceObservation) : OracleStore :=
  { OracleStore.empty with
    oracleConfig := some { OracleConfig.default with twapWindowSeconds := 1000 }
    priceHistory := fun _ => some history }

/-- A price of 100, and 200 from the window's first second on. -/
def atEdge : List PriceObservation := [⟨100, 1000⟩, ⟨200, 2000⟩]

theorem atEdge_observed : Observed 3000 2000 atEdge where
  sorted := by decide
  price_pos := by decide
  time_pos := by decide
  le_now := by decide
  recent := ⟨⟨200, 2000⟩, rfl, by decide⟩

/-- In the whole window the price of 200 is in force. -/
theorem atEdge_priceInForce (t : ℤ) (h : 2000 ≤ t) : priceInForce atEdge t = 200 := by
  have hedge : priceInForce atEdge t = stepAt PriceObservation.time PriceObservation.price
      [⟨200, 2000⟩] t := stepAt_cons_of_le h
  rw [hedge]
  exact stepAt_cons_of_lt h fun _ hy => absurd hy List.not_mem_nil

/-- **The average of a price of 200 comes out as 100.** -/
theorem edge_observation_lost :
    Observed 3000 2000 atEdge ∧
      computeTwap 3000 (observedPrices atEdge) ⟨1⟩ 200 = .ok 100 ∧
      averagePrice 3000 2000 atEdge 200 = 200 ∧
      ∀ t : ℤ, 2000 ≤ t → t < 3000 → priceInForce atEdge t = 200 := by
  refine ⟨atEdge_observed, by decide, ?_, fun t h _ => atEdge_priceInForce t h⟩
  have hsum : heldSum atEdge 2000 3000 = 200 * (3000 - 2000) :=
    sum_range_const (by decide) fun t h _ => atEdge_priceInForce t h
  have hstart : averageStart 2000 atEdge = 2000 := by decide
  rw [averagePrice, hstart, if_pos (by decide)]
  change heldSum atEdge 2000 3000 / (3000 - 2000) = 200
  rw [hsum]
  rfl

/-- Nothing is at this window's start, and the average of 194 is right. -/
theorem computeTwap_average_iff_atEdge :
    (computeTwap 3060 (observedPrices [⟨100, 1000⟩, ⟨200, 2120⟩]) ⟨1⟩ 200 =
        .ok (averagePrice 3060 2060 [⟨100, 1000⟩, ⟨200, 2120⟩] 200) ↔
      EdgeHarmless 3060 2060 [⟨100, 1000⟩, ⟨200, 2120⟩]) ∧
    EdgeHarmless 3060 2060 [⟨100, 1000⟩, ⟨200, 2120⟩] ∧
    computeTwap 3060 (observedPrices [⟨100, 1000⟩, ⟨200, 2120⟩]) ⟨1⟩ 200 = .ok 194 := by
  have hobserved : Observed 3060 2060 [⟨100, 1000⟩, ⟨200, 2120⟩] :=
    ⟨by decide, by decide, by decide, by decide, ⟨200, 2120⟩, rfl, by decide⟩
  have h := @computeTwap_average_iff 3060 (observedPrices [⟨100, 1000⟩, ⟨200, 2120⟩]) ⟨1⟩ 200
    hobserved (by decide) (by decide) (by decide)
  exact ⟨h.1, h.2.1 (by decide), by decide⟩

end Sample

end StellarLend.HelloWorld
