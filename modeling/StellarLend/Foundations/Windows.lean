import Mathlib.Data.List.DropRight
import Mathlib.Data.List.Nodup
import Mathlib.Data.List.Range
import Mathlib.Data.Nat.ModEq
import Mathlib.Logic.Function.Basic

/-!
# Foundations/Windows — the last entries of a list in a circular buffer, and its pages

`m` cells hold the last `m` entries of a list that only grows: entry `k` is written to cell `k % m`,
over entry `k - m`.  The index is that of the cell written next, and a flag tells a buffer whose
cells have all been written from one whose first round is under way.

    entries   x₀ x₁ x₂ x₃ x₄                 m = 3,  index = 2,  full
    cells        ·     x₃ x₄ x₂

`Rings` relates the cells to the list.  Appending to the list is one write (`Rings.push`), and
reading the cells in `order` gives back what the buffer can still hold (`Rings.map_order`).

    xs   x₀ x₁ x₂ | x₃ x₄ x₅ | x₆          pages of three, at the offsets 0, 3 and 6

A page is what is taken after what is skipped.  Reading the indices of a window, up or down, is a
page of the list or of its reversal (`entriesAt_range'`, `entriesAt_downTo`), pages that follow one
another put the list together again (`flatMap_pages`), and two pages of a list without repetitions
are the same only if they start at the same place (`page_eq_page_iff_of_nodup`).
-/

namespace Foundations

section

open Function

variable {α : Type} {m index : ℕ} {cells : ℕ → Option α} {full : Bool} {xs : List α}

/-- The cells, the index and the flag are those of a buffer of `m` cells the list was written to. -/
structure Rings (m : ℕ) (cells : ℕ → Option α) (index : ℕ) (full : Bool) (xs : List α) : Prop where
  pos : 0 < m
  index_eq : index = xs.length % m
  full_iff : full = true ↔ m ≤ xs.length
  cell : ∀ k, k < xs.length → xs.length ≤ k + m → cells (k % m) = xs[k]?

/-- The cells that have been written, from the oldest entry to the latest. -/
def order (m index : ℕ) (full : Bool) : List ℕ :=
  if full then (List.range m).map fun i => (index + i) % m else List.range index

namespace Rings

theorem empty (hm : 0 < m) : Rings m (fun _ => (none : Option α)) 0 false [] :=
  ⟨hm, by simp, by simp; omega, by simp⟩

/-- Two entries less than a round apart are in different cells. -/
theorem mod_ne {k n : ℕ} (hkn : k < n) (hnk : n < k + m) : k % m ≠ n % m := by
  intro heq
  have hdvd : m ∣ n - k := (Nat.modEq_iff_dvd' hkn.le).mp heq
  exact absurd (Nat.le_of_dvd (by omega) hdvd) (by omega)

/-- **The next entry goes to the cell at the index**, and the flag is raised when the index is back
at the start. -/
theorem push (h : Rings m cells index full xs) (x : α) :
    Rings m (update cells index (some x)) ((index + 1) % m)
      (if (index + 1) % m = 0 then true else full) (xs ++ [x]) where
  pos := h.pos
  index_eq := by rw [h.index_eq, Nat.mod_add_mod, List.length_append, List.length_singleton]
  full_iff := by
    have hmod : (index + 1) % m = (xs.length + 1) % m := by rw [h.index_eq, Nat.mod_add_mod]
    rw [List.length_append, List.length_singleton, hmod]
    split
    next hwrap => exact iff_of_true rfl (Nat.le_of_dvd (by omega) (Nat.dvd_of_mod_eq_zero hwrap))
    next hwrap =>
      rw [h.full_iff]
      refine ⟨fun hle => by omega, fun hle => ?_⟩
      rcases Nat.lt_or_ge xs.length m with hlt | hge
      · exact absurd (by rw [show xs.length + 1 = m by omega, Nat.mod_self]) hwrap
      · exact hge
  cell := by
    intro k hk hwindow
    rw [List.length_append, List.length_singleton] at hk hwindow
    rw [h.index_eq]
    rcases Nat.lt_succ_iff_lt_or_eq.mp hk with hlt | rfl
    · rw [update_of_ne (mod_ne hlt (by omega)), h.cell k hlt (by omega),
        List.getElem?_append_left hlt]
    · rw [update_self, List.getElem?_concat_length]

/-- A buffer in its first round holds the whole list. -/
theorem index_of_not_full (h : Rings m cells index full xs) (hfull : full = false) :
    index = xs.length ∧ xs.length < m := by
  have hlt : xs.length < m := by
    rw [← not_le, ← h.full_iff, hfull]
    exact Bool.false_ne_true
  exact ⟨by rw [h.index_eq, Nat.mod_eq_of_lt hlt], hlt⟩

/-- What a full buffer holds starts at the cell written next. -/
theorem cell_of_full (h : Rings m cells index full xs) (hle : m ≤ xs.length) {i : ℕ} (hi : i < m) :
    cells ((index + i) % m) = xs[xs.length - m + i]? := by
  have hmod : (index + i) % m = (xs.length - m + i) % m := by
    rw [h.index_eq, Nat.mod_add_mod, ← Nat.add_mod_right (xs.length - m + i)]
    congr 1
    omega
  rw [hmod, h.cell _ (by omega) (by omega)]

/-- **Read in order, the cells hold the last `m` entries of the list.** -/
theorem map_order (h : Rings m cells index full xs) :
    (order m index full).map cells = (xs.drop (xs.length - m)).map some := by
  cases hfull : full with
  | false =>
    obtain ⟨hindex, hlt⟩ := h.index_of_not_full hfull
    rw [order, if_neg Bool.false_ne_true, show xs.length - m = 0 by omega, List.drop_zero, hindex]
    refine List.ext_getElem (by simp) fun i hi _ => ?_
    have hlen : i < xs.length := by simpa using hi
    simp [← List.getElem?_eq_getElem hlen, ← h.cell i hlen (by omega),
      Nat.mod_eq_of_lt (hlen.trans hlt)]
  | true =>
    have hle : m ≤ xs.length := h.full_iff.mp hfull
    rw [order, if_pos rfl]
    refine List.ext_getElem (by simp; omega) fun i hi _ => ?_
    have hcell := h.cell_of_full hle (i := i) (by simpa using hi)
    rw [List.getElem?_eq_getElem (by simp at hi; omega)] at hcell
    simp [hcell]

theorem start_iff (h : Rings m cells index full xs) :
    (index = 0 ∧ full = false) ↔ xs = [] := by
  constructor
  · rintro ⟨h0, hfull⟩
    exact List.length_eq_zero_iff.mp ((h.index_of_not_full hfull).1.symm.trans h0)
  · rintro rfl
    refine ⟨by simpa using h.index_eq, Bool.eq_false_iff.mpr fun hfull => ?_⟩
    exact absurd (h.full_iff.mp hfull) (not_le.mpr h.pos)

/-- The latest entry is in the cell before the one written next. -/
theorem latest (h : Rings m cells index full xs) (hxs : xs ≠ []) :
    cells (if index = 0 then m - 1 else index - 1) = xs.getLast? := by
  have hpos : 0 < xs.length := List.length_pos_iff.mpr hxs
  have hm := h.pos
  have hmod : (if index = 0 then m - 1 else index - 1) = (xs.length - 1) % m := by
    have hindex : index = (xs.length - 1 + 1) % m := by rw [h.index_eq]; congr 1; omega
    have hlt := Nat.mod_lt (xs.length - 1) hm
    rw [← Nat.mod_add_mod] at hindex
    rcases Nat.lt_or_ge ((xs.length - 1) % m + 1) m with hnext | hnext
    · rw [Nat.mod_eq_of_lt hnext] at hindex
      rw [if_neg (by omega)]
      omega
    · rw [show (xs.length - 1) % m + 1 = m by omega, Nat.mod_self] at hindex
      rw [if_pos hindex]
      omega
  rw [hmod, h.cell _ (by omega) (by omega), List.getLast?_eq_getElem?]

end Rings

end

/-! ## Pages -/

section

variable {α : Type} {xs : List α} {limit offset i j n : ℕ}

/-- The next `limit` entries after the first `offset`. -/
def page (limit offset : ℕ) (xs : List α) : List α := (xs.drop offset).take limit

/-- The entries at some indices, where there are any. -/
def entriesAt (xs : List α) (indices : List ℕ) : List α := indices.filterMap fun i => xs[i]?

theorem page_of_length_le (h : xs.length ≤ offset) : page limit offset xs = [] := by
  rw [page, List.drop_eq_nil_of_le h, List.take_nil]

/-- A page is no longer than what is left. -/
theorem page_min : page (min limit (xs.length - offset)) offset xs = page limit offset xs := by
  rw [page, page, ← List.length_drop, ← List.take_take, List.take_length]

theorem getElem?_page :
    (page limit offset xs)[i]? = if i < limit then xs[offset + i]? else none := by
  rw [page, List.getElem?_take, List.getElem?_drop]

/-! ## Windows of indices -/

theorem entriesAt_range' (i n : ℕ) (xs : List α) :
    entriesAt xs (List.range' i n) = page n i xs := by
  induction n generalizing i with
  | zero => rfl
  | succ n ih =>
    rw [entriesAt, List.range'_succ, List.filterMap_cons, ← entriesAt, ih, page, page]
    rcases Nat.lt_or_ge i xs.length with h | h
    · rw [List.getElem?_eq_getElem h, List.drop_eq_getElem_cons h, List.take_succ_cons]
    · rw [List.getElem?_eq_none h, List.drop_eq_nil_of_le h,
        List.drop_eq_nil_of_le (h.trans (Nat.le_succ i)), List.take_nil, List.take_nil]

theorem entriesAt_reverse (xs : List α) (indices : List ℕ) :
    entriesAt xs indices.reverse = (entriesAt xs indices).reverse := List.filterMap_reverse

/-- All the entries, last to first. -/
theorem entriesAt_all_reverse (xs : List α) :
    entriesAt xs (List.range xs.length).reverse = xs.reverse := by
  rw [entriesAt_reverse, List.range_eq_range', entriesAt_range', page, List.drop_zero,
    List.take_length]

/-- **A window read downwards is a page of the reversal.** -/
theorem entriesAt_downTo (hij : i ≤ j) (hj : j ≤ xs.length) :
    entriesAt xs (List.range' i (j - i)).reverse = page (j - i) (xs.length - j) xs.reverse := by
  rw [entriesAt_reverse, entriesAt_range', page, page, List.drop_reverse, List.take_reverse,
    List.take_drop, Nat.sub_sub_self hj, List.length_take, Nat.min_eq_left hj, Nat.sub_sub_self hij,
    Nat.add_sub_cancel' hij]

/-! ## Consecutive pages -/

/-- **Pages that follow one another put the list together.** -/
theorem flatMap_pages (limit n : ℕ) (xs : List α) :
    (List.range n).flatMap (fun k => page limit (k * limit) xs) = xs.take (n * limit) := by
  induction n with
  | zero => simp
  | succ n ih =>
    rw [List.range_succ, List.flatMap_append, ih, List.flatMap_singleton, page, Nat.succ_mul,
      List.take_add]

/-- Pages enough to hold it put the whole list together. -/
theorem flatMap_pages_eq_self (h : xs.length ≤ n * limit) :
    (List.range n).flatMap (fun k => page limit (k * limit) xs) = xs := by
  rw [flatMap_pages, List.take_of_length_le h]

/-! ## Equal pages -/

theorem page_eq_page_iff :
    page n i xs = page n j xs ↔ ∀ k, k < n → xs[i + k]? = xs[j + k]? := by
  constructor
  · intro h k hk
    have hget := congrArg (fun ys : List α => ys[k]?) h
    simpa only [getElem?_page, if_pos hk] using hget
  · intro h
    ext1 k
    rw [getElem?_page, getElem?_page]
    by_cases hk : k < n
    · rw [if_pos hk, if_pos hk, h k hk]
    · rw [if_neg hk, if_neg hk]

/-- **Without repetitions, pages inside the list are equal only if they are one page.** -/
theorem page_eq_page_iff_of_nodup (hnodup : xs.Nodup) (hi : i + n ≤ xs.length) :
    page n i xs = page n j xs ↔ n = 0 ∨ i = j := by
  constructor
  · intro h
    rcases Nat.eq_zero_or_pos n with hn | hn
    · exact .inl hn
    · have hlt : i < xs.length := by omega
      have hfirst := page_eq_page_iff.mp h 0 hn
      exact .inr ((List.getElem?_inj hlt hnodup).mp hfirst)
  · rintro (rfl | rfl)
    · rfl
    · rfl

end

end Foundations
