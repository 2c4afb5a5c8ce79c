import StellarLend.Lending.Repayable

/-!
# Lending/StableRate — the average that is never begun

    no state stored ──▸ read as of now ──▸ not older than the interval ──▸ returned, not stored

A read of the stable rate stores the next average only if the state it finds is older than the
interval, and what it finds without a stored one is dated now.  So none is ever stored
(`Reachable.dormant`), and every read returns the variable rate of the moment: that is the average
only while no read is due to move it and the rate stays what it was.
-/

namespace StellarLend.Lending

open Foundations Call

variable {e : Env} {s t : Storage}

/-- **No run stores a stable rate.** -/
theorem Reachable.dormant (h : Reachable s) : s.stableRateState = none := by
  refine h.invariant (I := fun s => s.stableRateState = none) rfl fun s tx s' hstep hs => ?_
  exact step_invariant (C := fun _ _ _ => True) (I := fun s => s.stableRateState = none)
    (fun _ _ _ ha _ hs => actStep_dormant ha hs) (fun _ _ hset hs => hset.dormant hs) hstep
    (meets_of_forall fun _ _ _ => trivial) hs

/-! ## Reads -/

/-- A moment at which the stable rate is read: what the call finds around it, and the store. -/
abbrev Moment := Env × Storage

namespace Moment

variable (m : Moment) (last : StableRateState)

def now : ℕ := m.1.timestamp

/-- The variable rate of the moment. -/
def rate : ℤ := variableRateOr 0 m.1 m.2

def interval : ℕ := getStableRateRecalcIntervalSecs m.2

/-- The average was last moved at least an interval ago. -/
def Spaced : Prop := 0 < m.interval ∧ m.interval ≤ m.now - last.lastUpdate

/-- The average was last moved less than an interval ago. -/
def Close : Prop := m.now - last.lastUpdate < m.interval

instance : Decidable (m.Spaced last) := inferInstanceAs (Decidable (_ ∧ _))

instance : Decidable (m.Close last) := inferInstanceAs (Decidable (_ < _))

/-- The state as a read should leave it: moved by a tenth toward the rate if that is due. -/
def smoothed : StableRateState :=
  if m.Spaced last then ⟨(9 * last.avgRateBps + m.rate) / 10, m.now⟩ else last

/-- A read after the state `last` does as it should: one that is due moves the average and records
the time, one that is too close leaves the average alone. -/
structure Smooths : Prop where
  moves : m.Spaced last → ∀ state t,
    (updateStableRateStateIfNeeded : Invocation BorrowError StableRateState) m.1 m.2 =
      .ok state t → state = m.smoothed last ∧ t.stableRateState = some (m.smoothed last)
  keeps : m.Close last → ∀ state t,
    (updateStableRateStateIfNeeded : Invocation BorrowError StableRateState) m.1 m.2 =
      .ok state t → state.avgRateBps = last.avgRateBps

end Moment

/-- One read after the other does as it should. -/
def SmoothedFrom (last : StableRateState) : List Moment → Prop
  | [] => True
  | m :: ms => m.Smooths last ∧ SmoothedFrom (m.smoothed last) ms

/-- The reads keep a moving average of the variable rate, which starts at the first of them. -/
structure KeepAverage (first : Moment) (later : List Moment) : Prop where
  smoothed : SmoothedFrom (stableStateNow first.1 first.2) later
  within : ∀ ys m zs, first :: later = ys ++ m :: zs →
    (∃ o ∈ ys ++ [m], o.rate - ys.length ≤ (stableStateNow m.1 m.2).avgRateBps) ∧
      ∃ o ∈ ys ++ [m], (stableStateNow m.1 m.2).avgRateBps ≤ o.rate

/-! ## Reads of a run -/

/-- A read in a reachable state returns the rate of the moment, dated now. -/
theorem Reachable.stableStateNow (h : Reachable s) (e : Env) :
    stableStateNow e s = ⟨Moment.rate (e, s), e.timestamp⟩ := stableStateNow_of_dormant h.dormant

/-- **And it stores nothing.** -/
theorem Reachable.read (h : Reachable s) (e : Env) :
    (updateStableRateStateIfNeeded : Invocation BorrowError StableRateState) e s =
      .ok ⟨Moment.rate (e, s), e.timestamp⟩ s := by
  rw [updateStableRateStateIfNeeded_eq, h.stableStateNow, refreshed_of_dormant h.dormant]

/-- A read of a run does as it should exactly if it is not due to move the average, and finds it at
the rate if it is too close. -/
theorem Reachable.smooths_iff {last : StableRateState} (h : Reachable s) (e : Env) :
    Moment.Smooths (e, s) last ↔ ¬ Moment.Spaced (e, s) last ∧
      (Moment.Close (e, s) last → Moment.rate (e, s) = last.avgRateBps) := by
  constructor
  · intro hsmooths
    refine ⟨fun hspaced => ?_, fun hclose => hsmooths.keeps hclose _ _ (h.read e)⟩
    obtain ⟨-, hstored⟩ := hsmooths.moves hspaced _ _ (h.read e)
    rw [h.dormant] at hstored
    cases hstored
  · rintro ⟨hspaced, hclose⟩
    refine ⟨fun hdue => absurd hdue hspaced, fun hnear state t hread => ?_⟩
    obtain ⟨rfl, -⟩ := Outcome.ok.inj ((h.read e).symm.trans hread)
    exact hclose hnear

/-- So the average never moves from where it was. -/
theorem smoothedFrom_iff {last : StableRateState} {ms : List Moment}
    (h : ∀ m ∈ ms, Reachable m.2) : SmoothedFrom last ms ↔
      ∀ m ∈ ms, ¬ m.Spaced last ∧ (m.Close last → m.rate = last.avgRateBps) := by
  induction ms with
  | nil => simp [SmoothedFrom]
  | cons m ms ih =>
    obtain ⟨hm, hms⟩ := List.forall_mem_cons.mp h
    rw [SmoothedFrom, hm.smooths_iff, List.forall_mem_cons]
    refine and_congr_right fun hsmooths => ?_
    rw [Moment.smoothed, if_neg hsmooths.1]
    exact ih hms

/-- **The reads of a run keep the average exactly if none of them is due to move it, and the close
ones find the variable rate that the first of them found.**  They need not be consecutive, nor in
one run. -/
theorem keepAverage_iff {first : Moment} {later : List Moment}
    (h : ∀ m ∈ first :: later, Reachable m.2) : KeepAverage first later ↔
      ∀ m ∈ later, ¬ m.Spaced ⟨first.rate, first.now⟩ ∧
        (m.Close ⟨first.rate, first.now⟩ → m.rate = first.rate) := by
  obtain ⟨hfirst, hlater⟩ := List.forall_mem_cons.mp h
  have hstart : stableStateNow first.1 first.2 = ⟨first.rate, first.now⟩ :=
    hfirst.stableStateNow first.1
  constructor
  · rintro ⟨hsmoothed, -⟩
    rw [hstart] at hsmoothed
    exact (smoothedFrom_iff hlater).mp hsmoothed
  · intro hall
    refine ⟨by rw [hstart]; exact (smoothedFrom_iff hlater).mpr hall, fun ys m zs hsplit => ?_⟩
    have hm : Reachable m.2 := h m (by rw [hsplit]; simp)
    rw [hm.stableStateNow m.1]
    exact ⟨⟨m, by simp, by simp⟩, m, by simp, le_rfl⟩

namespace Sample

/-- The rate is read some seconds after the deployment. -/
def readAt (now : ℕ) : Moment := (envAt now [], ledger [deploy])

theorem readAt_reachable {ms : List Moment} (ts : List ℕ) (h : ms = ts.map readAt) :
    ∀ m ∈ ms, Reachable m.2 := by
  rw [h, List.forall_mem_map]
  exact fun _ _ => ⟨[deploy], rfl⟩

end Sample

theorem keepAverage_close : KeepAverage (Sample.readAt 5) [Sample.readAt 6, Sample.readAt 7] := by
  have hreads : ∀ m ∈ Sample.readAt 5 :: [Sample.readAt 6, Sample.readAt 7], Reachable m.2 :=
    Sample.readAt_reachable [5, 6, 7] rfl
  exact (keepAverage_iff hreads).mpr (by decide)

/-- Six hours later the average should be moved and its time recorded, but nothing is stored. -/
theorem not_keepAverage_spaced : ¬ ∀ first later, (∀ m ∈ first :: later, Reachable m.2) →
    KeepAverage first later := by
  intro hall
  have hreads : ∀ m ∈ Sample.readAt 5 :: [Sample.readAt 21605], Reachable m.2 :=
    Sample.readAt_reachable [5, 21605] rfl
  obtain ⟨⟨hsmooths, -⟩, -⟩ := hall _ _ hreads
  have hreachable : Reachable (ledger [Sample.deploy]) := ⟨_, rfl⟩
  have hspaced : (Sample.readAt 21605).Spaced
      (stableStateNow (Sample.readAt 5).1 (Sample.readAt 5).2) := by decide
  obtain ⟨-, hstored⟩ := hsmooths.moves hspaced _ _ (hreachable.read _)
  rw [hreachable.dormant] at hstored
  cases hstored

end StellarLend.Lending
