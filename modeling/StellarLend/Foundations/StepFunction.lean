import Mathlib.Algebra.BigOperators.Ring.Finset
import Mathlib.Algebra.Order.BigOperators.Group.Finset
import Mathlib.Tactic.Ring

/-!
# Foundations/StepFunction — values that hold until the next one

    x₀ at 2, x₁ at 5, x₂ at 5         t   2  3  4 │ 5  6  7
                                          x₀ x₀ x₀│ x₂ x₂ x₂

Timed values make a step function: in force at an instant is the last of those that have come by
then (`stepAt`).  Adding it up second by second from an instant on (`stepSum`) is adding up
stretches (`stepSum_cons`), and what came before the value in force at the start counts for nothing
(`stepSum_append`).
-/

namespace Foundations

variable {α : Type} {time value : α → ℤ} {x y : α} {xs ys : List α} {a b c t w lo hi : ℤ}

/-- The value in force at an instant: the last one by then. -/
def stepAt (time value : α → ℤ) (xs : List α) (t : ℤ) : ℤ :=
  (((xs.filter fun x => time x ≤ t).getLast?).map value).getD 0

/-- The values in force from an instant to another, added up second by second. -/
def stepSum (time value : α → ℤ) (xs : List α) (a b : ℤ) : ℤ :=
  ∑ i ∈ Finset.range (b - a).toNat, stepAt time value xs (a + i)

/-- A sorted list has what is before an instant first. -/
theorem exists_split_at (h : xs.Pairwise fun x y => time x ≤ time y) (w : ℤ) :
    ∃ ys zs, xs = ys ++ zs ∧ (∀ x ∈ ys, time x < w) ∧ ∀ x ∈ zs, w ≤ time x := by
  induction xs with
  | nil => exact ⟨[], [], rfl, nofun, nofun⟩
  | cons x xs ih =>
    obtain ⟨hx, hxs⟩ := List.pairwise_cons.mp h
    rcases lt_or_ge (time x) w with hlt | hle
    · obtain ⟨ys, zs, rfl, hys, hzs⟩ := ih hxs
      exact ⟨x :: ys, zs, rfl, List.forall_mem_cons.mpr ⟨hlt, hys⟩, hzs⟩
    · exact ⟨[], x :: xs, rfl, nofun,
        List.forall_mem_cons.mpr ⟨hle, fun y hy => hle.trans (hx y hy)⟩⟩

/-! ## In force -/

/-- Before anything else comes, the first value is in force. -/
theorem stepAt_cons_of_lt (hx : time x ≤ t) (hxs : ∀ y ∈ xs, t < time y) :
    stepAt time value (x :: xs) t = value x := by
  have hnone : xs.filter (fun y => time y ≤ t) = [] :=
    List.filter_eq_nil_iff.mpr fun y hy => by simpa using hxs y hy
  rw [stepAt, List.filter_cons_of_pos (by simpa using hx), hnone]
  rfl

/-- What came before a value that has come is not in force. -/
theorem stepAt_append (h : ∃ y ∈ ys, time y ≤ t) :
    stepAt time value (xs ++ ys) t = stepAt time value ys t := by
  obtain ⟨y, hy, hle⟩ := h
  have hne : ys.filter (fun y => time y ≤ t) ≠ [] :=
    List.ne_nil_of_mem (List.mem_filter.mpr ⟨hy, by simpa using hle⟩)
  rw [stepAt, stepAt, List.filter_append, List.getLast?_append_of_ne_nil _ hne]

theorem stepAt_cons_of_le (h : time y ≤ t) :
    stepAt time value (x :: y :: ys) t = stepAt time value (y :: ys) t := by
  change stepAt time value ([x] ++ y :: ys) t = _
  exact stepAt_append ⟨y, List.mem_cons_self .., h⟩

/-- In force is a value of the list, or nothing yet. -/
theorem stepAt_nonneg (h : ∀ x ∈ xs, 0 ≤ value x) (t : ℤ) : 0 ≤ stepAt time value xs t := by
  rw [stepAt]
  cases hlast : (xs.filter fun x => time x ≤ t).getLast? with
  | none => exact le_rfl
  | some x => exact h x (List.mem_of_mem_filter (List.mem_of_getLast? hlast))

/-! ## Sums -/

theorem stepSum_nonneg (h : ∀ x ∈ xs, 0 ≤ value x) (a b : ℤ) : 0 ≤ stepSum time value xs a b :=
  Finset.sum_nonneg fun _ _ => stepAt_nonneg h _

/-- The instants that are added up. -/
theorem instant_bounds {i : ℕ} (hi : i ∈ Finset.range (b - a).toNat) : a ≤ a + i ∧ a + i < b := by
  have := Finset.mem_range.mp hi
  omega

theorem sum_range_const {f : ℤ → ℤ} (hab : a ≤ b) (hf : ∀ t, a ≤ t → t < b → f t = c) :
    ∑ i ∈ Finset.range (b - a).toNat, f (a + i) = c * (b - a) := by
  rw [Finset.sum_congr rfl fun i hi => hf _ (instant_bounds hi).1 (instant_bounds hi).2,
    Finset.sum_const, Finset.card_range, nsmul_eq_mul, Int.toNat_of_nonneg (sub_nonneg.mpr hab),
    mul_comm]

/-- A value after which nothing comes holds until the end. -/
theorem stepSum_single (hx : time x ≤ a) (hab : a ≤ b) :
    stepSum time value [x] a b = value x * (b - a) :=
  sum_range_const hab fun _ ht _ => stepAt_cons_of_lt (hx.trans ht) fun _ hy =>
    absurd hy List.not_mem_nil

/-- **A value holds until the next one.** -/
theorem stepSum_cons (h : (y :: ys).Pairwise fun u v => time u ≤ time v) (hx : time x ≤ a)
    (hay : a ≤ time y) (hyb : time y ≤ b) :
    stepSum time value (x :: y :: ys) a b =
      value x * (time y - a) + stepSum time value (y :: ys) (time y) b := by
  have hsplit : (b - a).toNat = (time y - a).toNat + (b - time y).toNat := by omega
  rw [stepSum, hsplit, Finset.sum_range_add]
  refine congrArg₂ (· + ·) (sum_range_const hay fun t hat hty => ?_) ?_
  · refine stepAt_cons_of_lt (hx.trans hat) (List.forall_mem_cons.mpr ⟨hty, fun z hz => ?_⟩)
    exact hty.trans_le (List.rel_of_pairwise_cons h hz)
  · refine Finset.sum_congr rfl fun i _ => ?_
    have hinstant : a + ((time y - a).toNat + i : ℕ) = time y + i := by omega
    rw [hinstant, stepAt_cons_of_le (by omega)]

/-- What came before the value in force at the start counts for nothing. -/
theorem stepSum_append (h : ∃ y ∈ ys, time y ≤ a) :
    stepSum time value (xs ++ ys) a b = stepSum time value ys a b := by
  obtain ⟨y, hy, hle⟩ := h
  exact Finset.sum_congr rfl fun i hi => stepAt_append ⟨y, hy, hle.trans (instant_bounds hi).1⟩

/-- The instant at which the first of some values comes, or the end. -/
def nextTime (time : α → ℤ) (xs : List α) (b : ℤ) : ℤ := (xs.head?.map time).getD b

/-- **Another value at the start counts until the next one comes.** -/
theorem stepSum_replace_head (h : ys.Pairwise fun u v => time u ≤ time v) (hx : time x ≤ a)
    (hy : time y ≤ a) (hab : a ≤ b) (hys : ∀ z ∈ ys, a ≤ time z ∧ time z ≤ b) :
    stepSum time value (x :: ys) a b =
      stepSum time value (y :: ys) a b + (value x - value y) * (nextTime time ys b - a) := by
  cases ys with
  | nil =>
    rw [stepSum_single hx hab, stepSum_single hy hab, nextTime]
    change _ = _ + (value x - value y) * (b - a)
    ring
  | cons z zs =>
    obtain ⟨haz, hzb⟩ := hys z (List.mem_cons_self ..)
    rw [stepSum_cons h hx haz hzb, stepSum_cons h hy haz hzb, nextTime]
    change _ = _ + (value x - value y) * (time z - a)
    ring

/-- A sum over some seconds is between the bounds of what is in force, times the seconds. -/
theorem stepSum_bounds (hab : a ≤ b)
    (h : ∀ t, a ≤ t → t < b → lo ≤ stepAt time value xs t ∧ stepAt time value xs t ≤ hi) :
    lo * (b - a) ≤ stepSum time value xs a b ∧ stepSum time value xs a b ≤ hi * (b - a) := by
  have hlo : ∑ i ∈ Finset.range (b - a).toNat, lo = lo * (b - a) :=
    sum_range_const hab fun _ _ _ => rfl
  have hhi : ∑ i ∈ Finset.range (b - a).toNat, hi = hi * (b - a) :=
    sum_range_const hab fun _ _ _ => rfl
  rw [← hlo, ← hhi]
  constructor
  · exact Finset.sum_le_sum fun i hi => (h _ (instant_bounds hi).1 (instant_bounds hi).2).1
  · exact Finset.sum_le_sum fun i hi => (h _ (instant_bounds hi).1 (instant_bounds hi).2).2

end Foundations
