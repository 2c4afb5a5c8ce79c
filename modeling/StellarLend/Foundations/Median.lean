import Mathlib.Algebra.Order.BigOperators.Group.List
import Mathlib.Data.List.Sort
import Mathlib.Order.Interval.Set.Defs

/-!
# Foundations/Median — the value at which a weight is reached

    values   3   5   5   8        below 5 │ up to 5
    weights  2   1   1   3           2    │    4          5 reaches 3 and 4, nothing else does

Going through weighted values from the smallest on, a threshold is **reached** at the first value up
to which the weight is the threshold at least.  Whatever is reached is a value of the list, and the
only one (`Reaches.unique`), so it does not depend on the order (`reaches_perm`).  Scanning a sorted
list finds it (`crossing_eq_some_iff`); with unit weights that is reading a place of the list
(`crossing_one`).  A median is what reaches a half, and it is not moved out of an interval by less
than a half (`Reaches.mem_Icc`).
-/

namespace Foundations

variable {α κ W : Type} [AddCommMonoid W] {key : α → κ} {weight : α → W} {C D : α → Bool}
  {xs ys : List α} {t : W} {v w lo hi : κ}

/-! ## Weights of parts -/

/-- The weight of the entries that meet a condition. -/
def weightWhere (weight : α → W) (C : α → Bool) (xs : List α) : W :=
  ((xs.filter C).map weight).sum

theorem weightWhere_cons (x : α) (xs : List α) :
    weightWhere weight C (x :: xs) = (if C x then weight x else 0) + weightWhere weight C xs := by
  rw [weightWhere, List.filter_cons]
  split
  · rw [List.map_cons, List.sum_cons, weightWhere]
  · rw [zero_add, weightWhere]

theorem weightWhere_append (xs ys : List α) :
    weightWhere weight C (xs ++ ys) = weightWhere weight C xs + weightWhere weight C ys := by
  rw [weightWhere, List.filter_append, List.map_append, List.sum_append, weightWhere, weightWhere]

theorem weightWhere_perm (h : xs.Perm ys) : weightWhere weight C xs = weightWhere weight C ys :=
  ((h.filter C).map weight).sum_eq

theorem weightWhere_congr (h : ∀ x ∈ xs, C x = D x) :
    weightWhere weight C xs = weightWhere weight D xs := by
  rw [weightWhere, List.filter_congr h, weightWhere]

/-- The whole weight. -/
theorem weightWhere_eq_sum (h : ∀ x ∈ xs, C x = true) :
    weightWhere weight C xs = (xs.map weight).sum := by
  rw [weightWhere, List.filter_eq_self.mpr h]

theorem weightWhere_eq_zero (h : ∀ x ∈ xs, C x = false) : weightWhere weight C xs = 0 := by
  have hnone : xs.filter C = [] := List.filter_eq_nil_iff.mpr fun x hx => by simp [h x hx]
  rw [weightWhere, hnone, List.map_nil, List.sum_nil]

/-- With unit weights the weight is a number of entries. -/
theorem weightWhere_one (C : α → Bool) (xs : List α) :
    weightWhere (fun _ => 1) C xs = xs.countP C := by
  rw [weightWhere, List.countP_eq_length_filter]
  simp

/-- What meets a condition and what does not make up the whole. -/
theorem weightWhere_add_not (C : α → Bool) (xs : List α) :
    weightWhere weight C xs + weightWhere weight (fun x => !C x) xs = (xs.map weight).sum := by
  induction xs with
  | nil => exact add_zero 0
  | cons x xs ih =>
    rw [weightWhere_cons, weightWhere_cons, List.map_cons, List.sum_cons, ← ih]
    cases C x with
    | true =>
      simp only [if_true, Bool.not_true, Bool.false_eq_true, if_false, zero_add]
      exact add_assoc ..
    | false =>
      simp only [if_true, Bool.not_false, Bool.false_eq_true, if_false, zero_add]
      exact add_left_comm ..

/-! ## The scan -/

variable [LinearOrder W]

/-- The first value at which the weight accumulated so far reaches the threshold. -/
def crossing (key : α → κ) (weight : α → W) (t : W) : W → List α → Option κ
  | _, [] => none
  | acc, x :: xs =>
    if t ≤ acc + weight x then some (key x) else crossing key weight t (acc + weight x) xs

/-- Where the whole list weighs enough, the scan finds something. -/
theorem crossing_isSome {acc : W} (hacc : acc < t) (h : t ≤ acc + (xs.map weight).sum) :
    (crossing key weight t acc xs).isSome := by
  induction xs generalizing acc with
  | nil =>
    rw [List.map_nil, List.sum_nil, add_zero] at h
    exact absurd h (not_le.mpr hacc)
  | cons x xs ih =>
    rw [crossing]
    split
    · rfl
    · rename_i hreach
      rw [List.map_cons, List.sum_cons, ← add_assoc] at h
      exact ih (not_le.mp hreach) h

/-- With unit weights the scan reads a place of the list. -/
theorem crossing_one (k : ℕ) (acc : ℕ) (xs : List α) :
    crossing key (fun _ => 1) (acc + k + 1) acc xs = xs[k]?.map key := by
  induction xs generalizing k acc with
  | nil => rfl
  | cons x xs ih =>
    rw [crossing]
    cases k with
    | zero => rw [if_pos (by omega)]; rfl
    | succ k =>
      rw [if_neg (by omega), List.getElem?_cons_succ, ← ih k (acc + 1)]
      congr 1
      omega

/-! ## Reaching a weight -/

variable [LinearOrder κ]

/-- The value at which a weight is reached. -/
structure Reaches (key : α → κ) (weight : α → W) (t : W) (xs : List α) (v : κ) : Prop where
  mem : v ∈ xs.map key
  below : weightWhere weight (fun x => key x < v) xs < t
  upTo : t ≤ weightWhere weight (fun x => key x ≤ v) xs

theorem Reaches.perm (hv : Reaches key weight t xs v) (h : xs.Perm ys) :
    Reaches key weight t ys v where
  mem := (h.map key).mem_iff.mp hv.mem
  below := (weightWhere_perm h.symm).trans_lt hv.below
  upTo := hv.upTo.trans_eq (weightWhere_perm h)

/-- What is reached does not depend on the order. -/
theorem reaches_perm (h : xs.Perm ys) :
    Reaches key weight t xs v ↔ Reaches key weight t ys v :=
  ⟨fun hv => hv.perm h, fun hv => hv.perm h.symm⟩

variable [IsOrderedAddMonoid W]

theorem weightWhere_nonneg (hw : ∀ x ∈ xs, 0 ≤ weight x) : 0 ≤ weightWhere weight C xs := by
  refine List.sum_nonneg fun y hy => ?_
  obtain ⟨x, hx, rfl⟩ := List.mem_map.mp hy
  exact hw x (List.mem_of_mem_filter hx)

/-- A wider condition is met by no less. -/
theorem weightWhere_mono (hw : ∀ x ∈ xs, 0 ≤ weight x)
    (h : ∀ x ∈ xs, C x = true → D x = true) :
    weightWhere weight C xs ≤ weightWhere weight D xs := by
  induction xs with
  | nil => exact le_rfl
  | cons x xs ih =>
    rw [weightWhere_cons, weightWhere_cons]
    have hrest := ih (fun y hy => hw y (List.mem_cons_of_mem x hy))
      fun y hy => h y (List.mem_cons_of_mem x hy)
    have hx := hw x (List.mem_cons_self ..)
    refine add_le_add ?_ hrest
    by_cases hC : C x = true
    · rw [if_pos hC, if_pos (h x (List.mem_cons_self ..) hC)]
    · rw [if_neg hC]
      split
      · exact hx
      · exact le_rfl

theorem Reaches.le_of_reaches (hw : ∀ x ∈ xs, 0 ≤ weight x) (hv : Reaches key weight t xs v)
    (hw' : Reaches key weight t xs w) : w ≤ v := by
  by_contra hnot
  have hlt : v < w := not_le.mp hnot
  have hle : weightWhere weight (fun x => key x ≤ v) xs ≤
      weightWhere weight (fun x => key x < w) xs := by
    refine weightWhere_mono hw fun x _ hx => ?_
    exact decide_eq_true ((of_decide_eq_true hx).trans_lt hlt)
  exact absurd (hv.upTo.trans hle) (not_le.mpr hw'.below)

/-- **A weight is reached at one value.** -/
theorem Reaches.unique (hw : ∀ x ∈ xs, 0 ≤ weight x) (hv : Reaches key weight t xs v)
    (hw' : Reaches key weight t xs w) : v = w :=
  le_antisymm (hw'.le_of_reaches hw hv) (hv.le_of_reaches hw hw')

/-- **What is outside an interval does not weigh enough to be reached**: the value is inside if the
inside weighs the threshold at least, and the rest less than it. -/
theorem Reaches.mem_Icc (hw : ∀ x ∈ xs, 0 ≤ weight x) (h : Reaches key weight t xs v)
    (hin : t ≤ weightWhere weight (fun x => lo ≤ key x ∧ key x ≤ hi) xs)
    (hout : weightWhere weight (fun x => !decide (lo ≤ key x ∧ key x ≤ hi)) xs < t) :
    v ∈ Set.Icc lo hi := by
  constructor
  · by_contra hlo
    have hle : weightWhere weight (fun x => key x ≤ v) xs ≤
        weightWhere weight (fun x => !decide (lo ≤ key x ∧ key x ≤ hi)) xs := by
      refine weightWhere_mono hw fun x _ hx => ?_
      have hlt : key x < lo := (of_decide_eq_true hx).trans_lt (not_le.mp hlo)
      simp [not_le.mpr hlt]
    exact absurd (h.upTo.trans hle) (not_le.mpr hout)
  · by_contra hhi
    have hle : weightWhere weight (fun x => lo ≤ key x ∧ key x ≤ hi) xs ≤
        weightWhere weight (fun x => key x < v) xs := by
      refine weightWhere_mono hw fun x _ hx => ?_
      exact decide_eq_true ((of_decide_eq_true hx).2.trans_lt (not_le.mp hhi))
    exact absurd (hin.trans hle) (not_le.mpr h.below)

/-! ## Scanning a sorted list -/

/-- What is found after some entries that weigh too little is reached by all of them together. -/
theorem reaches_of_crossing (hw : ∀ x ∈ ys ++ xs, 0 ≤ weight x)
    (hsorted : (ys ++ xs).Pairwise fun x y => key x ≤ key y) (hys : (ys.map weight).sum < t)
    (h : crossing key weight t (ys.map weight).sum xs = some v) :
    Reaches key weight t (ys ++ xs) v := by
  induction xs generalizing ys with
  | nil => cases h
  | cons x xs ih =>
    rw [crossing] at h
    by_cases hreach : t ≤ (ys.map weight).sum + weight x
    · rw [if_pos hreach] at h
      obtain rfl := Option.some.inj h
      obtain ⟨-, hrest, hcross⟩ := List.pairwise_append.mp hsorted
      have hbefore : ∀ y ∈ ys, key y ≤ key x := fun y hy => hcross y hy x (List.mem_cons_self ..)
      have hafter : ∀ y ∈ x :: xs, key x ≤ key y := by
        intro y hy
        rcases List.mem_cons.mp hy with rfl | hy
        · exact le_rfl
        · exact (List.pairwise_cons.mp hrest).1 y hy
      refine ⟨by simp, ?_, ?_⟩
      · have hnone : weightWhere weight (fun y => key y < key x) (x :: xs) = 0 :=
          weightWhere_eq_zero fun y hy => decide_eq_false (not_lt.mpr (hafter y hy))
        rw [weightWhere_append, hnone, add_zero]
        refine lt_of_le_of_lt ?_ hys
        rw [← weightWhere_eq_sum (C := fun _ => true) fun _ _ => rfl]
        exact weightWhere_mono (fun y hy => hw y (List.mem_append_left _ hy)) fun _ _ _ => rfl
      · have hall : weightWhere weight (fun y => key y ≤ key x) ys = (ys.map weight).sum :=
          weightWhere_eq_sum fun y hy => decide_eq_true (hbefore y hy)
        rw [weightWhere_append, hall, weightWhere_cons, if_pos (decide_eq_true le_rfl), ← add_assoc]
        refine hreach.trans (le_add_of_nonneg_right (weightWhere_nonneg fun y hy => ?_))
        exact hw y (List.mem_append_right _ (List.mem_cons_of_mem x hy))
    · rw [if_neg hreach] at h
      have hsum : ((ys ++ [x]).map weight).sum = (ys.map weight).sum + weight x := by simp
      have happend : ys ++ x :: xs = (ys ++ [x]) ++ xs := by simp
      rw [happend] at hw hsorted ⊢
      refine ih hw hsorted ?_ (hsum ▸ h)
      rw [hsum]
      exact not_le.mp hreach

/-- **The scan of a sorted list finds what is reached.** -/
theorem crossing_eq_some_iff (hw : ∀ x ∈ xs, 0 ≤ weight x)
    (hsorted : xs.Pairwise fun x y => key x ≤ key y) (ht : 0 < t) (hle : t ≤ (xs.map weight).sum) :
    crossing key weight t 0 xs = some v ↔ Reaches key weight t xs v := by
  have hfound : ∀ w, crossing key weight t 0 xs = some w → Reaches key weight t xs w := by
    intro w hw'
    change Reaches key weight t ([] ++ xs) w
    exact reaches_of_crossing hw hsorted ht hw'
  constructor
  · exact hfound v
  · intro h
    have hsome : (crossing key weight t 0 xs).isSome := crossing_isSome ht (by rwa [zero_add])
    obtain ⟨w, hw'⟩ := Option.isSome_iff_exists.mp hsome
    rw [hw', (hfound w hw').unique hw h]

end Foundations
