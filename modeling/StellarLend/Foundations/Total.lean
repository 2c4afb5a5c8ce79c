import Mathlib.Algebra.BigOperators.Group.Finset.Basic
import Mathlib.Algebra.Order.BigOperators.Group.Finset
import Mathlib.Algebra.Order.Ring.Int
import Mathlib.Tactic.Abel

/-!
# Foundations/Total — the total of a family with finitely many nonzero entries

`TotalsTo f t` says that `f` vanishes outside a finite set and that its entries sum to `t`.  It is
the relation between a table of accounts over an unbounded set of keys and the running total kept
beside it: `TotalsTo.change` is the one step such a total ever takes.
-/

namespace Foundations

open Finset

variable {ι M : Type*} [AddCommGroup M]

/-- `f` has finitely many nonzero entries, and they sum to `t`. -/
def TotalsTo (f : ι → M) (t : M) : Prop := ∃ S : Finset ι, (∀ i ∉ S, f i = 0) ∧ ∑ i ∈ S, f i = t

namespace TotalsTo

theorem zero : TotalsTo (fun _ : ι => (0 : M)) 0 := ⟨∅, fun _ _ => rfl, rfl⟩

theorem congr {f g : ι → M} {t : M} (h : TotalsTo f t) (hfg : ∀ i, g i = f i) : TotalsTo g t := by
  rwa [show g = f from funext hfg]

/-- The total over a larger set is the same. -/
theorem sum_superset {f : ι → M} {S T : Finset ι} (hST : S ⊆ T) (hS : ∀ i ∉ S, f i = 0) :
    ∑ i ∈ T, f i = ∑ i ∈ S, f i :=
  (sum_subset hST fun i _ hi => hS i hi).symm

/-- **A family has one total.** -/
theorem unique {f : ι → M} {t u : M} (ht : TotalsTo f t) (hu : TotalsTo f u) : t = u := by
  classical
  obtain ⟨S, hS, rfl⟩ := ht
  obtain ⟨T, hT, rfl⟩ := hu
  rw [← sum_superset (@subset_union_left _ _ S T) hS, ← sum_superset subset_union_right hT]

/-- **One entry changes, and the total by as much.** -/
theorem change {f g : ι → M} {t : M} (h : TotalsTo f t) (a : ι) (hg : ∀ i, i ≠ a → g i = f i) :
    TotalsTo g (t + (g a - f a)) := by
  classical
  obtain ⟨S, hS, rfl⟩ := h
  refine ⟨insert a S, fun i hi => ?_, ?_⟩
  · rw [mem_insert, not_or] at hi
    rw [hg i hi.1, hS i hi.2]
  · have hf : ∑ i ∈ insert a S, f i = ∑ i ∈ S, f i := sum_superset (subset_insert a S) hS
    have hrest : ∑ i ∈ (insert a S).erase a, g i = ∑ i ∈ (insert a S).erase a, f i :=
      sum_congr rfl fun i hi => hg i (ne_of_mem_erase hi)
    rw [← hf, ← add_sum_erase _ g (mem_insert_self a S), ← add_sum_erase _ f (mem_insert_self a S),
      hrest]
    abel

/-- The same, with the new total named. -/
theorem change_eq {f g : ι → M} {t u : M} (h : TotalsTo f t) (a : ι)
    (hg : ∀ i, i ≠ a → g i = f i) (hu : u = t + (g a - f a)) : TotalsTo g u :=
  hu ▸ h.change a hg

theorem nonneg {f : ι → ℤ} {t : ℤ} (h : TotalsTo f t) (hf : ∀ i, 0 ≤ f i) : 0 ≤ t := by
  obtain ⟨S, -, rfl⟩ := h
  exact sum_nonneg fun i _ => hf i

/-- An entry is at most the total of a nonnegative family. -/
theorem le_of_nonneg {f : ι → ℤ} {t : ℤ} (h : TotalsTo f t) (hf : ∀ i, 0 ≤ f i) (a : ι) :
    f a ≤ t := by
  classical
  obtain ⟨S, hS, rfl⟩ := h
  by_cases ha : a ∈ S
  · exact single_le_sum (fun i _ => hf i) ha
  · rw [hS a ha]
    exact sum_nonneg fun i _ => hf i

/-- **A family below another has no larger total.** -/
theorem mono {f g : ι → ℤ} {t u : ℤ} (hf : TotalsTo f t) (hg : TotalsTo g u)
    (hle : ∀ i, f i ≤ g i) : t ≤ u := by
  classical
  obtain ⟨S, hS, rfl⟩ := hf
  obtain ⟨T, hT, rfl⟩ := hg
  rw [← sum_superset (@subset_union_left _ _ S T) hS, ← sum_superset subset_union_right hT]
  exact sum_le_sum fun i _ => hle i

end TotalsTo

end Foundations
