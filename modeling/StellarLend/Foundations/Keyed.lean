import Mathlib.Data.Finset.Card
import Mathlib.Data.List.Basic
import Mathlib.Data.List.Nodup
import Mathlib.Data.List.Sort
import Mathlib.Data.List.TakeWhile

/-!
# Foundations/Keyed — keys in the order of their last use, and entries under their keys

A log lists the uses of keys, first to last.  A recency list has every key it knows once, each
before those that were used after its own last use:

    log       a b a c b
    recency   a c b

Using a key moves it to the end (`Recency.touch`), and what is at the front is what was used least
recently (`Recency.oldest`).

    entries        a·1   b·2   c·3                 upsert b·7:   a·1   b·7   c·3
                                                   upsert d·4:   a·1   b·2   c·3   d·4

`upsert` puts an entry in the place of the one with its key, or at the end; `findKey` finds what is
under a key.  Entries are listed in the order in which their keys came first (`upsertAll`), and what
a list says of its keys does not depend on its order (`findKey_perm`).
-/

namespace Foundations

section

variable {κ : Type} [DecidableEq κ] {used order : List κ} {a b key : κ}

/-- The keys used since a key was used last, the latest first. -/
def usedSince (used : List κ) (key : κ) : List κ := used.reverse.takeWhile fun x => x ≠ key

@[simp] theorem usedSince_snoc_self : usedSince (used ++ [key]) key = [] := by
  simp [usedSince]

@[simp] theorem usedSince_snoc_of_ne (h : a ≠ key) :
    usedSince (used ++ [a]) key = a :: usedSince used key := by
  simp [usedSince, h]

theorem mem_usedSince_snoc (h : a ≠ key) :
    b ∈ usedSince (used ++ [a]) key ↔ b = a ∨ b ∈ usedSince used key := by
  rw [usedSince_snoc_of_ne h, List.mem_cons]

/-- What was used after a key's last use, and then another key, are its uses of both. -/
theorem toFinset_usedSince_subset (h : a ≠ key) :
    (usedSince used key).toFinset ⊆ (usedSince (used ++ [a]) key).toFinset := by
  intro x hx
  rw [List.mem_toFinset] at hx ⊢
  exact (mem_usedSince_snoc h).mpr (.inr hx)

/-- The list has each of its keys once, in the order of their last uses. -/
structure Recency (used order : List κ) : Prop where
  nodup : order.Nodup
  sorted : order.Pairwise fun a b => b ∈ usedSince used a

namespace Recency

theorem nil (used : List κ) : Recency used [] := ⟨List.nodup_nil, .nil⟩

theorem erase (h : Recency used order) (key : κ) : Recency used (order.erase key) :=
  ⟨h.nodup.erase key, h.sorted.sublist List.erase_sublist⟩

theorem tail (h : Recency used (a :: order)) : Recency used order :=
  ⟨h.nodup.of_cons, h.sorted.of_cons⟩

/-- Using a key that is not listed leaves the others in order. -/
theorem use (h : Recency used order) (hkey : key ∉ order) : Recency (used ++ [key]) order where
  nodup := h.nodup
  sorted := by
    refine h.sorted.imp_of_mem fun {a b} ha _ hb => ?_
    have hne : key ≠ a := fun heq => hkey (heq ▸ ha)
    exact (mem_usedSince_snoc hne).mpr (.inr hb)

/-- **Using a key moves it to the end.** -/
theorem touch (h : Recency used order) (key : κ) :
    Recency (used ++ [key]) (order.erase key ++ [key]) := by
  have hkey : key ∉ order.erase key := h.nodup.not_mem_erase
  have huse := (h.erase key).use hkey
  constructor
  · rw [← List.concat_eq_append]
    exact huse.nodup.concat hkey
  · refine List.pairwise_append.mpr ⟨huse.sorted, List.pairwise_singleton .., ?_⟩
    intro a ha b hb
    have hne : key ≠ a := fun heq => hkey (heq ▸ ha)
    exact (mem_usedSince_snoc hne).mpr (.inl (List.mem_singleton.mp hb))

/-- **Every other key was used since the first one was.** -/
theorem oldest (h : Recency used (a :: order)) (hb : b ∈ order) : b ∈ usedSince used a :=
  List.rel_of_pairwise_cons h.sorted hb

/-- As many keys as are listed after the first one were used since. -/
theorem length_le_card (h : Recency used (a :: order)) :
    order.length ≤ (usedSince used a).toFinset.card := by
  rw [← List.toFinset_card_of_nodup h.tail.nodup]
  refine Finset.card_le_card fun b hb => ?_
  rw [List.mem_toFinset] at hb ⊢
  exact h.oldest hb

end Recency

end

/-! ## One entry under each key -/

section

variable {α κ : Type} [DecidableEq κ] {key : α → κ} {x y : α} {xs ys : List α} {k : κ}

/-- What is under a key. -/
def findKey (key : α → κ) (xs : List α) (k : κ) : Option α := xs.find? fun x => key x = k

/-- Put in, in the place of what has the same key, or at the end. -/
def upsert (key : α → κ) (x : α) : List α → List α
  | [] => [x]
  | y :: ys => if key y = key x then x :: ys else y :: upsert key x ys

/-- The entries of a list put in one after another. -/
def upsertAll (key : α → κ) (xs : List α) : List α := xs.foldl (fun ys x => upsert key x ys) []

/-! ## What is under a key -/

theorem key_of_findKey (h : findKey key xs k = some x) : key x = k := by
  simpa using List.find?_some h

theorem mem_of_findKey (h : findKey key xs k = some x) : x ∈ xs := List.mem_of_find?_eq_some h

theorem findKey_eq_none : findKey key xs k = none ↔ k ∉ xs.map key := by
  simp [findKey, List.find?_eq_none]

theorem findKey_isSome : (findKey key xs k).isSome ↔ k ∈ xs.map key := by
  rw [← not_iff_not, ← findKey_eq_none, Option.not_isSome_iff_eq_none]

theorem findKey_cons :
    findKey key (y :: ys) k = if key y = k then some y else findKey key ys k := by
  rw [findKey, List.find?_cons]
  by_cases h : key y = k <;> simp [h, findKey]

/-- Every entry of a list without repeated keys is the one under its key. -/
theorem findKey_eq_some (hnodup : (xs.map key).Nodup) :
    findKey key xs k = some x ↔ x ∈ xs ∧ key x = k := by
  refine ⟨fun h => ⟨mem_of_findKey h, key_of_findKey h⟩, ?_⟩
  rintro ⟨hx, rfl⟩
  cases hfind : findKey key xs (key x) with
  | none => exact absurd (List.mem_map_of_mem hx) (findKey_eq_none.mp hfind)
  | some y =>
    rw [List.inj_on_of_nodup_map hnodup (mem_of_findKey hfind) hx (key_of_findKey hfind)]

/-- **What is under a key does not depend on the order.** -/
theorem findKey_perm (h : xs.Perm ys) (hnodup : (xs.map key).Nodup) :
    findKey key xs k = findKey key ys k := by
  have hnodup' : (ys.map key).Nodup := (h.map key).nodup_iff.mp hnodup
  refine Option.ext fun x => ?_
  rw [findKey_eq_some hnodup, findKey_eq_some hnodup', h.mem_iff]

/-- What is under a key is there still if its key is one of those that are kept. -/
theorem findKey_filter {p : κ → Bool} :
    findKey key (xs.filter fun x => p (key x)) k = if p k then findKey key xs k else none := by
  induction xs with
  | nil => split <;> rfl
  | cons x xs ih =>
    rw [List.filter_cons, findKey_cons]
    by_cases hx : key x = k
    · subst hx
      split
      next => rw [findKey_cons, if_pos rfl, if_pos rfl]
      next hp => rw [ih, if_neg hp]
    · rw [if_neg hx]
      split
      next => rw [findKey_cons, if_neg hx, ih]
      next => exact ih

/-! ## Putting in -/

/-- **What was put in is under its key, and all else where it was.** -/
theorem findKey_upsert : findKey key (upsert key x xs) k =
    if key x = k then some x else findKey key xs k := by
  induction xs with
  | nil => rw [upsert, findKey_cons]
  | cons y ys ih =>
    rw [upsert]
    by_cases hy : key y = key x
    · rw [if_pos hy, findKey_cons, findKey_cons, hy]
      split <;> rfl
    · rw [if_neg hy, findKey_cons, findKey_cons, ih]
      by_cases hk : key y = k
      · rw [if_pos hk, if_pos hk, if_neg fun hx => hy (hk.trans hx.symm)]
      · rw [if_neg hk, if_neg hk]

theorem findKey_upsert_self : findKey key (upsert key x xs) (key x) = some x := by
  rw [findKey_upsert, if_pos rfl]

theorem findKey_upsert_of_ne (h : key x ≠ k) :
    findKey key (upsert key x xs) k = findKey key xs k := by
  rw [findKey_upsert, if_neg h]

theorem mem_keys_upsert : k ∈ (upsert key x xs).map key ↔ k = key x ∨ k ∈ xs.map key := by
  rw [← findKey_isSome, findKey_upsert, ← findKey_isSome]
  by_cases h : key x = k
  · simp [h]
  · simp [h, Ne.symm h]

theorem nodup_upsert (h : (xs.map key).Nodup) : ((upsert key x xs).map key).Nodup := by
  induction xs with
  | nil => exact List.nodup_singleton _
  | cons y ys ih =>
    obtain ⟨hy, hys⟩ := List.nodup_cons.mp h
    rw [upsert]
    by_cases hyx : key y = key x
    · rw [if_pos hyx]
      exact List.nodup_cons.mpr ⟨hyx ▸ hy, hys⟩
    · rw [if_neg hyx]
      refine List.nodup_cons.mpr ⟨fun hmem => ?_, ih hys⟩
      exact (mem_keys_upsert.mp hmem).elim hyx hy

theorem mem_of_mem_upsert (h : y ∈ upsert key x xs) : y = x ∨ y ∈ xs := by
  induction xs with
  | nil => exact .inl (List.mem_singleton.mp h)
  | cons z zs ih =>
    rw [upsert] at h
    split at h
    · exact (List.mem_cons.mp h).imp_right (List.mem_cons_of_mem z)
    · rcases List.mem_cons.mp h with rfl | h
      · exact .inr List.mem_cons_self
      · exact (ih h).imp_right (List.mem_cons_of_mem z)

/-- A new key comes last. -/
theorem upsert_of_notMem (h : key x ∉ xs.map key) : upsert key x xs = xs ++ [x] := by
  induction xs with
  | nil => rfl
  | cons y ys ih =>
    obtain ⟨hy, hys⟩ := List.ne_and_not_mem_of_not_mem_cons h
    rw [upsert, if_neg (Ne.symm hy), ih hys, List.cons_append]

theorem length_upsert : (upsert key x xs).length =
    if key x ∈ xs.map key then xs.length else xs.length + 1 := by
  induction xs with
  | nil => rfl
  | cons y ys ih =>
    rw [upsert]
    by_cases hy : key y = key x
    · rw [if_pos hy, if_pos (hy ▸ List.mem_cons_self), List.length_cons, List.length_cons]
    · have hmem : key x ∈ (y :: ys).map key ↔ key x ∈ ys.map key := by simp [Ne.symm hy]
      rw [if_neg hy, List.length_cons, ih, List.length_cons]
      simp only [hmem]
      split <;> rfl

/-- One entry fewer without what is under a key. -/
theorem length_filter_ne (hnodup : (xs.map key).Nodup) (hk : k ∈ xs.map key) :
    (xs.filter fun x => key x ≠ k).length + 1 = xs.length := by
  induction xs with
  | nil => cases hk
  | cons y ys ih =>
    obtain ⟨hy, hys⟩ := List.nodup_cons.mp hnodup
    rw [List.filter_cons]
    by_cases heq : key y = k
    · subst heq
      have hkept : ys.filter (fun x => key x ≠ key y) = ys :=
        List.filter_eq_self.mpr fun x hx => decide_eq_true fun h => hy (h ▸ List.mem_map_of_mem hx)
      rw [if_neg (by simp), hkept, List.length_cons]
    · have hrest := ih hys ((List.mem_cons.mp hk).resolve_left (Ne.symm heq))
      simp only [ne_eq, heq, not_false_eq_true, decide_true, if_true, List.length_cons] at hrest ⊢
      omega

/-! ## From a list -/

theorem nodup_upsertAll (key : α → κ) (xs : List α) : ((upsertAll key xs).map key).Nodup := by
  suffices h : ∀ ys : List α, (ys.map key).Nodup →
      ((xs.foldl (fun ys x => upsert key x ys) ys).map key).Nodup from h [] List.nodup_nil
  induction xs with
  | nil => exact fun _ hys => hys
  | cons x xs ih => exact fun ys hys => ih _ (nodup_upsert hys)

theorem mem_keys_upsertAll : k ∈ (upsertAll key xs).map key ↔ k ∈ xs.map key := by
  suffices h : ∀ ys : List α, k ∈ (xs.foldl (fun ys x => upsert key x ys) ys).map key ↔
      k ∈ ys.map key ∨ k ∈ xs.map key from (h []).trans (by simp)
  induction xs with
  | nil => simp
  | cons x xs ih =>
    intro ys
    rw [List.foldl_cons, ih, mem_keys_upsert, List.map_cons, List.mem_cons]
    tauto

/-- **A list without repeated keys is kept as it is.** -/
theorem upsertAll_of_nodup (h : (xs.map key).Nodup) : upsertAll key xs = xs := by
  suffices hfold : ∀ ys : List α, ((ys ++ xs).map key).Nodup →
      xs.foldl (fun ys x => upsert key x ys) ys = ys ++ xs from hfold [] h
  clear h
  induction xs with
  | nil => exact fun ys _ => (List.append_nil ys).symm
  | cons x xs ih =>
    intro ys hnodup
    have hx : key x ∉ ys.map key := by
      rw [List.map_append, List.map_cons] at hnodup
      exact fun hmem => (List.nodup_append.mp hnodup).2.2 _ hmem _ (List.mem_cons_self ..) rfl
    rw [List.foldl_cons, upsert_of_notMem hx, ih _ (by simpa using hnodup), List.append_assoc]
    rfl

end

end Foundations
