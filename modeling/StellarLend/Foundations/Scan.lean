import Mathlib.Data.List.Induction
import Mathlib.Order.Lattice
import Mathlib.Order.Nat

/-!
# Foundations/Scan — the first best of a list

    3  7  5  7  2   ──scan──▸   the first 7

A scan goes through a list once and keeps what is strictly better than everything before it and than
a floor.  It returns the first of the best (`scan_eq_some`), and nothing exactly if nothing is above
the floor (`scan_eq_none`).
-/

namespace Foundations

variable {α β : Type} [LinearOrder β] (score : α → β)

/-- One look: what is strictly better than the best so far replaces it. -/
def glance (best : Option α × β) (x : α) : Option α × β :=
  if best.2 < score x then (some x, score x) else best

/-- The first best of a list, if it is above the floor. -/
def scan (floor : β) (xs : List α) : Option α := (xs.foldl (glance score) (none, floor)).1

/-- Everything before is worse, and nothing after is better. -/
def FirstBest (xs : List α) (x : α) : Prop :=
  ∃ ys zs, xs = ys ++ x :: zs ∧ (∀ y ∈ ys, score y < score x) ∧ ∀ z ∈ zs, score z ≤ score x

variable {score}

/-- What a scan has found after some elements. -/
def Found (score : α → β) (floor : β) (xs : List α) : Option α × β → Prop
  | (none, b) => b = floor ∧ ∀ x ∈ xs, score x ≤ floor
  | (some x, b) => b = score x ∧ floor < score x ∧ FirstBest score xs x

theorem FirstBest.mem {xs : List α} {x : α} (h : FirstBest score xs x) : x ∈ xs := by
  obtain ⟨ys, zs, rfl, -, -⟩ := h
  exact List.mem_append_right _ List.mem_cons_self

theorem FirstBest.le {xs : List α} {x y : α} (h : FirstBest score xs x) (hy : y ∈ xs) :
    score y ≤ score x := by
  obtain ⟨ys, zs, rfl, hys, hzs⟩ := h
  rcases List.mem_append.mp hy with hy | hy
  · exact (hys y hy).le
  · rcases List.mem_cons.mp hy with rfl | hy
    · exact le_rfl
    · exact hzs y hy

/-- In a list that rises in a key, the first best has the lowest key of the best. -/
theorem FirstBest.least {xs : List α} {x y : α} {key : α → ℕ} (h : FirstBest score xs x)
    (hrises : xs.Pairwise fun a b => key a < key b) (hy : y ∈ xs) :
    score y < score x ∨ score y = score x ∧ key x ≤ key y := by
  obtain ⟨ys, zs, rfl, hys, hzs⟩ := h
  obtain ⟨-, hafter, -⟩ := List.pairwise_append.mp hrises
  rcases List.mem_append.mp hy with hy | hy
  · exact .inl (hys y hy)
  · rcases List.mem_cons.mp hy with rfl | hy
    · exact .inr ⟨rfl, Nat.le_refl _⟩
    · have hkey := (List.pairwise_cons.mp hafter).1 y hy
      exact (lt_or_eq_of_le (hzs y hy)).imp_right fun heq => ⟨heq, Nat.le_of_lt hkey⟩

theorem found_foldl (floor : β) (xs : List α) :
    Found score floor xs (xs.foldl (glance score) (none, floor)) := by
  induction xs using List.reverseRecOn with
  | nil => exact ⟨rfl, by simp⟩
  | append_singleton xs x ih =>
    rw [List.foldl_append, List.foldl_cons, List.foldl_nil]
    generalize xs.foldl (glance score) (none, floor) = best at ih
    obtain ⟨found, b⟩ := best
    by_cases hx : b < score x
    · rw [glance, if_pos hx]
      rcases found with _ | y
      · obtain ⟨rfl, hall⟩ := ih
        exact ⟨rfl, hx, xs, [], rfl, fun y hy => lt_of_le_of_lt (hall y hy) hx, by simp⟩
      · obtain ⟨rfl, hfloor, hbest⟩ := ih
        exact ⟨rfl, lt_trans hfloor hx, xs, [], rfl, fun z hz => lt_of_le_of_lt (hbest.le hz) hx,
          by simp⟩
    · rw [glance, if_neg hx]
      have hle := not_lt.mp hx
      rcases found with _ | y
      · obtain ⟨rfl, hall⟩ := ih
        refine ⟨rfl, fun z hz => ?_⟩
        rcases List.mem_append.mp hz with hz | hz
        · exact hall z hz
        · rwa [List.mem_singleton.mp hz]
      · obtain ⟨rfl, hfloor, ys, zs, rfl, hys, hzs⟩ := ih
        refine ⟨rfl, hfloor, ys, zs ++ [x], by simp, hys, fun z hz => ?_⟩
        rcases List.mem_append.mp hz with hz | hz
        · exact hzs z hz
        · rwa [List.mem_singleton.mp hz]

/-- **A scan finds the first best.** -/
theorem scan_eq_some {floor : β} {xs : List α} {x : α} (h : scan score floor xs = some x) :
    FirstBest score xs x := by
  have hfound : Found score floor xs _ := found_foldl floor xs
  generalize hbest : xs.foldl (glance score) (none, floor) = best at hfound
  obtain ⟨found, b⟩ := best
  rw [scan, hbest] at h
  obtain rfl : found = some x := h
  exact hfound.2.2

/-- **A scan finds nothing exactly if nothing is above the floor.** -/
theorem scan_eq_none {floor : β} {xs : List α} :
    scan score floor xs = none ↔ ∀ x ∈ xs, score x ≤ floor := by
  have hfound : Found score floor xs _ := found_foldl floor xs
  generalize hbest : xs.foldl (glance score) (none, floor) = best at hfound
  obtain ⟨found, b⟩ := best
  rw [scan, hbest]
  rcases found with _ | x
  · exact iff_of_true rfl hfound.2
  · refine iff_of_false (by simp) fun hall => ?_
    exact absurd (hall x hfound.2.2.mem) (not_le.mpr hfound.2.1)

end Foundations
