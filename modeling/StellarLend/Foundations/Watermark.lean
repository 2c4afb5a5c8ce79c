import Mathlib.Data.List.Range
import Mathlib.Order.Basic

/-!
# Foundations/Watermark — numbered items that are served in turn, and may come back

Items are numbered as they arrive and wait in a queue.  One that has been served may be queued once
more, among those that are still to be served for the first time.

    served for the first time   1 ─ ─ ─ mark
    queue                       … 2 … mark+1 … 1 … mark+2 … next-1

The mark is where the first services have come to: above it the queue has every number, in order
(`Marked`), so the next first service is that of the number after the mark.
-/

namespace Foundations

variable {mark next i : ℕ} {queue : List ℕ}

/-- Above the mark the queue has the numbers given so far, each once and in order. -/
structure Marked (mark next : ℕ) (queue : List ℕ) : Prop where
  lt_next : mark < next
  pending : queue.filter (mark < ·) = List.range' (mark + 1) (next - 1 - mark)

namespace Marked

theorem start : Marked 0 1 [] := ⟨Nat.one_pos, rfl⟩

/-- What was given a number and is above the mark is in the queue. -/
theorem mem (h : Marked mark next queue) (hlo : mark < i) (hhi : i < next) : i ∈ queue := by
  have hmem : i ∈ queue.filter (mark < ·) := by
    rw [h.pending, List.mem_range'_1]
    omega
  exact (List.mem_filter.mp hmem).1

/-- A new item is given the next number. -/
theorem arrive (h : Marked mark next queue) : Marked mark (next + 1) (queue ++ [next]) := by
  have hlt := h.lt_next
  refine ⟨by omega, ?_⟩
  rw [List.filter_append, h.pending, List.filter_cons_of_pos (by simpa using hlt), List.filter_nil,
    show next + 1 - 1 - mark = (next - 1 - mark) + 1 by omega, List.range'_concat]
  congr 2
  omega

/-- An item that has been served is queued again. -/
theorem again (h : Marked mark next queue) (hi : i ≤ mark) : Marked mark next (queue ++ [i]) := by
  refine ⟨h.lt_next, ?_⟩
  rw [List.filter_append, h.pending, List.filter_cons_of_neg (by simpa using hi), List.filter_nil,
    List.append_nil]

/-- An item that had been served is served again. -/
theorem reserve (h : Marked mark next (i :: queue)) (hi : i ≤ mark) : Marked mark next queue := by
  refine ⟨h.lt_next, ?_⟩
  rw [← h.pending, List.filter_cons_of_neg (by simpa using hi)]

/-- **An item that is served for the first time is the one after the mark.** -/
theorem serve (h : Marked mark next (i :: queue)) (hi : mark < i) :
    i = mark + 1 ∧ Marked (mark + 1) next queue := by
  have hpending := h.pending
  rw [List.filter_cons_of_pos (by simpa using hi)] at hpending
  have hlt := h.lt_next
  obtain ⟨n, hn⟩ : ∃ n, next - 1 - mark = n + 1 := by
    refine Nat.exists_eq_succ_of_ne_zero fun hzero => ?_
    rw [hzero] at hpending
    cases hpending
  rw [hn, List.range'_succ, List.cons.injEq] at hpending
  obtain ⟨rfl, hrest⟩ := hpending
  refine ⟨rfl, by omega, ?_⟩
  rw [show next - 1 - (mark + 1) = n by omega, ← hrest]
  refine List.filter_congr fun j hj => decide_eq_decide.mpr ⟨fun hlt => by omega, fun hlt => ?_⟩
  have hmem : j ∈ List.range' (mark + 1 + 1) n := by
    rw [← hrest]
    exact List.mem_filter.mpr ⟨hj, by simpa using hlt⟩
  have := (List.mem_range'_1.mp hmem).1
  omega

end Marked

end Foundations
