import Mathlib.Data.Finset.Card
import Mathlib.Data.List.DropRight
import Mathlib.Data.List.Nodup

/-!
# Foundations/Latest — the last entry under each key, and the newest of them

    log       a·1  b·1  a·2  c·1  b·2
    latest    a·2  c·1  b·2                  the newest two:   c·1  b·2

`latest` keeps of a log the last entry under each key, in the order of the log; one entry more takes
its key's place at the end (`latest_snoc`).  A table that forgets all but its newest entries each
time loses nothing by that: the newest of what it kept are the newest of the log (`rtake_putLast`),
and what has expired can be dropped before or after (`filter_rtake`).
-/

namespace Foundations

open List

variable {α κ : Type} [DecidableEq κ] {key : α → κ} {x y : α} {xs ys : List α} {n : ℕ}
  {p q : α → Bool}

/-! ## The last entry under each key -/

/-- The last entry under each key, in the order of the log. -/
def latest (key : α → κ) : List α → List α
  | [] => []
  | x :: xs => if key x ∈ xs.map key then latest key xs else x :: latest key xs

/-- An entry at the end, and nothing else under its key. -/
def putLast (key : α → κ) (x : α) (xs : List α) : List α :=
  (xs.filter fun y => key y ≠ key x) ++ [x]

theorem latest_sublist : latest key xs <+ xs := by
  induction xs with
  | nil => exact .slnil
  | cons x xs ih =>
    rw [latest]
    split
    · exact ih.cons x
    · exact ih.cons_cons x

theorem mem_keys_latest {k : κ} : k ∈ (latest key xs).map key ↔ k ∈ xs.map key := by
  induction xs with
  | nil => rfl
  | cons x xs ih =>
    rw [latest]
    split
    next hx =>
      rw [ih, map_cons, mem_cons]
      exact ⟨.inr, fun h => h.elim (fun heq => heq ▸ hx) id⟩
    next => rw [map_cons, mem_cons, ih, map_cons, mem_cons]

theorem nodup_latest (key : α → κ) (xs : List α) : ((latest key xs).map key).Nodup := by
  induction xs with
  | nil => exact nodup_nil
  | cons x xs ih =>
    rw [latest]
    split
    next => exact ih
    next hx => exact nodup_cons.mpr ⟨mem_keys_latest.not.mpr hx, ih⟩

/-- **The next entry of the log is the last under its key.** -/
theorem latest_snoc (key : α → κ) (xs : List α) (x : α) :
    latest key (xs ++ [x]) = putLast key x (latest key xs) := by
  induction xs with
  | nil => rfl
  | cons y ys ih =>
    rw [cons_append, latest, latest, ih]
    by_cases hy : key y = key x
    · -- the entry is put over `y`, whether or not the log had one under that key since
      rw [if_pos (by simp [hy])]
      split
      next => rfl
      next => rw [putLast, putLast, filter_cons_of_neg (by simp [hy])]
    · by_cases hmem : key y ∈ ys.map key
      · rw [if_pos hmem, if_pos (by rw [map_append]; exact mem_append_left _ hmem)]
      · rw [if_neg hmem, if_neg (by simpa [hy] using hmem), putLast, putLast,
          filter_cons_of_pos (by simpa using hy), cons_append]

/-- As many as there are keys. -/
theorem length_latest : (latest key xs).length = (xs.map key).toFinset.card := by
  rw [← length_map (f := key), ← toFinset_card_of_nodup (nodup_latest key xs)]
  congr 1
  ext k
  rw [mem_toFinset, mem_toFinset, mem_keys_latest]

/-- The last entry under a key is followed by those of the rest of the log. -/
theorem latest_append_cons (hx : key x ∉ ys.map key) :
    ∃ zs, latest key (xs ++ x :: ys) = zs ++ x :: latest key ys := by
  induction xs with
  | nil => exact ⟨[], by rw [nil_append, nil_append, latest, if_neg hx]⟩
  | cons y xs ih =>
    obtain ⟨zs, hzs⟩ := ih
    rw [cons_append, latest, hzs]
    split
    next => exact ⟨zs, rfl⟩
    next => exact ⟨y :: zs, rfl⟩

theorem mem_latest :
    x ∈ latest key xs ↔ ∃ ys zs, xs = ys ++ x :: zs ∧ key x ∉ zs.map key := by
  constructor
  · intro h
    induction xs with
    | nil => cases h
    | cons y xs ih =>
      rw [latest] at h
      split at h
      next =>
        obtain ⟨ys, zs, rfl, hx⟩ := ih h
        exact ⟨y :: ys, zs, rfl, hx⟩
      next hy =>
        rcases mem_cons.mp h with rfl | hmem
        · exact ⟨[], xs, rfl, hy⟩
        · obtain ⟨ys, zs, rfl, hx⟩ := ih hmem
          exact ⟨y :: ys, zs, rfl, hx⟩
  · rintro ⟨ys, zs, rfl, hx⟩
    obtain ⟨ws, hws⟩ := @latest_append_cons _ _ _ key x ys zs hx
    rw [hws]
    exact mem_append_right _ mem_cons_self

/-- What is under a key is under it one last time. -/
theorem exists_last {k : κ} (h : k ∈ xs.map key) :
    ∃ ys x zs, xs = ys ++ x :: zs ∧ key x = k ∧ k ∉ zs.map key := by
  obtain ⟨x, hx, rfl⟩ := mem_map.mp (mem_keys_latest.mpr h)
  obtain ⟨ys, zs, hsplit, hlast⟩ := mem_latest.mp hx
  exact ⟨ys, x, zs, hsplit, rfl, hlast⟩

/-! ## The newest entries -/

/-- A list whose later entries are kept where an earlier one is. -/
theorem filter_rtake (h : xs.Pairwise fun a b => p a = true → p b = true) :
    (xs.rtake n).filter p = (xs.filter p).rtake n := by
  induction xs using reverseRecOn generalizing n with
  | nil => simp
  | append_singleton xs x ih =>
    obtain ⟨hxs, -, hx⟩ := pairwise_append.mp h
    rcases n with _ | n
    · simp
    rw [rtake_concat_succ, filter_append, filter_append]
    by_cases hp : p x = true
    · rw [ih hxs, filter_cons_of_pos hp, filter_nil, rtake_concat_succ]
    · -- the last one is dropped, and so are all before it
      have hnone : ∀ a ∈ xs, ¬ p a = true := fun a ha hpa =>
        hp (hx a ha x (mem_singleton_self x) hpa)
      have htake : ∀ a ∈ xs.rtake n, ¬ p a = true := fun a ha => hnone a (mem_of_mem_drop ha)
      rw [filter_eq_nil_iff.mpr hnone, filter_eq_nil_iff.mpr htake, filter_cons_of_neg hp,
        filter_nil, append_nil, rtake_nil]

/-- Where at most one entry is dropped, the newest of the rest are among one more. -/
theorem rtake_filter_rtake_succ (h : xs.Pairwise fun a b => q a = true ∨ q b = true) :
    ((xs.rtake (n + 1)).filter q).rtake n = (xs.filter q).rtake n := by
  induction xs using reverseRecOn generalizing n with
  | nil => simp
  | append_singleton xs x ih =>
    obtain ⟨hxs, -, hx⟩ := pairwise_append.mp h
    rw [rtake_concat_succ, filter_append, filter_append]
    by_cases hq : q x = true
    · rw [filter_cons_of_pos hq, filter_nil]
      rcases n with _ | n
      · simp
      rw [rtake_concat_succ, rtake_concat_succ, ih hxs]
    · have hall : ∀ a ∈ xs, q a = true := fun a ha =>
        (hx a ha x (mem_singleton_self x)).resolve_right hq
      have htake : ∀ a ∈ xs.rtake n, q a = true := fun a ha => hall a (mem_of_mem_drop ha)
      rw [filter_cons_of_neg hq, filter_nil, append_nil, append_nil, filter_eq_self.mpr hall,
        filter_eq_self.mpr htake, rtake, rtake, length_drop, drop_drop]
      congr 1
      omega

/-- **The newest of what was kept are the newest of all.** -/
theorem rtake_putLast (h : (xs.map key).Nodup) :
    (putLast key x (xs.rtake n)).rtake n = (putLast key x xs).rtake n := by
  rcases n with _ | n
  · simp
  rw [putLast, putLast, rtake_concat_succ, rtake_concat_succ]
  congr 1
  refine rtake_filter_rtake_succ ((pairwise_map.mp h).imp fun {a b} hab => ?_)
  by_contra hboth
  simp only [ne_eq, decide_not, Bool.not_eq_eq_eq_not, Bool.not_true, decide_eq_false_iff_not,
    not_or, not_not] at hboth
  exact hab (hboth.1.trans hboth.2.symm)

omit [DecidableEq κ] in
/-- What comes last in a list is among the newest exactly if it is not followed by too much. -/
theorem mem_rtake_append_cons (hx : x ∉ ys) : x ∈ (xs ++ x :: ys).rtake n ↔ ys.length < n := by
  have htake : (xs ++ x :: ys).rtake n <:+ xs ++ x :: ys := drop_suffix ..
  have hlen : ((xs ++ x :: ys).rtake n).length = min n (xs ++ x :: ys).length := by
    rw [rtake, length_drop]
    omega
  constructor
  · intro hmem
    by_contra hle
    have hys : ys <:+ xs ++ x :: ys := (suffix_cons x ys).trans (suffix_append xs _)
    exact hx ((suffix_of_suffix_length_le htake hys (by omega)).subset hmem)
  · intro hlt
    refine (suffix_of_suffix_length_le (suffix_append xs (x :: ys)) htake ?_).subset mem_cons_self
    rw [hlen, length_append, length_cons]
    omega

/-- **An entry is among the newest of a log exactly if it is kept, none came under its key since,
and fewer than `n` keys did.** -/
theorem mem_rtake_latest (h : xs.Pairwise fun a b => p a = true → p b = true) :
    x ∈ ((latest key xs).filter p).rtake n ↔
      p x = true ∧ ∃ ys zs, xs = ys ++ x :: zs ∧ key x ∉ zs.map key ∧
        (zs.map key).toFinset.card < n := by
  have hsplit : ∀ ys zs, xs = ys ++ x :: zs → key x ∉ zs.map key → p x = true →
      (x ∈ ((latest key xs).filter p).rtake n ↔ (zs.map key).toFinset.card < n) := by
    rintro ys zs rfl hx hp
    obtain ⟨ws, hws⟩ := @latest_append_cons _ _ _ key x ys zs hx
    have hrest : ∀ a ∈ latest key zs, p a = true := fun a ha =>
      rel_of_pairwise_cons (pairwise_append.mp h).2.1 (latest_sublist.subset ha) hp
    have hnew : x ∉ latest key zs := fun hmem =>
      hx (mem_keys_latest.mp (mem_map_of_mem hmem))
    rw [hws, filter_append, filter_cons_of_pos hp, filter_eq_self.mpr hrest,
      mem_rtake_append_cons hnew, length_latest]
  constructor
  · intro hmem
    have hkept := mem_filter.mp (mem_of_mem_drop hmem)
    obtain ⟨ys, zs, hxs, hx⟩ := mem_latest.mp hkept.1
    exact ⟨hkept.2, ys, zs, hxs, hx, (hsplit ys zs hxs hx hkept.2).mp hmem⟩
  · rintro ⟨hp, ys, zs, hxs, hx, hlt⟩
    exact (hsplit ys zs hxs hx hp).mpr hlt

end Foundations
