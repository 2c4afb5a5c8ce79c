import Mathlib.Data.List.Nodup
import Mathlib.Logic.Function.Basic

/-!
# Foundations/IndexedMap — a partial function kept beside lists of its keys

Storage that can only be read key by key is enumerated through an index: a list of the keys, kept
beside the entries.  `Indexes` says that the list names each key once, and no other.  Through the
index a map is written down (`listing`), emptied (`eraseKeys`) and written back (`writePairs`), and
**a map written back from its listing is the map** (`Indexes.writePairs_listing`).

Where there is a list for every holder, `Lists` says that the lists and the function from things to
holders agree: a thing is in the list of the one who holds it, once, and in no other.  Three
movements keep them in step: a thing is put in at the end of a list (`Lists.put`), dropped from the
list that has it (`Lists.drop`), or both (`Lists.move`).
-/

namespace Foundations

section

variable {α β : Type} {keys : List α} {m : α → Option β}

/-- The list names the keys of the map, each once. -/
structure Indexes (keys : List α) (m : α → Option β) : Prop where
  nodup : keys.Nodup
  mem_iff : ∀ k, k ∈ keys ↔ (m k).isSome

theorem indexes_nil : Indexes ([] : List α) (fun _ => (none : Option β)) :=
  ⟨List.nodup_nil, by simp⟩

/-- The entries of the map under some keys. -/
def listing (m : α → Option β) (keys : List α) : List (α × β) :=
  keys.filterMap fun k => (m k).map (Prod.mk k)

theorem mem_listing {k : α} {v : β} : (k, v) ∈ listing m keys ↔ k ∈ keys ∧ m k = some v := by
  simp only [listing, List.mem_filterMap, Option.map_eq_some_iff, Prod.mk.injEq]
  constructor
  · rintro ⟨_, hk, _, hv, rfl, rfl⟩
    exact ⟨hk, hv⟩
  · rintro ⟨hk, hv⟩
    exact ⟨k, hk, v, hv, rfl, rfl⟩

/-- The listing of a map has the keys of the index, in the same order. -/
theorem Indexes.listing_keys (h : Indexes keys m) : (listing m keys).map Prod.fst = keys := by
  have hall : ∀ ks : List α, (∀ k ∈ ks, (m k).isSome) → (listing m ks).map Prod.fst = ks := by
    intro ks hks
    induction ks with
    | nil => rfl
    | cons k ks ih =>
      obtain ⟨v, hv⟩ := Option.isSome_iff_exists.mp (hks k List.mem_cons_self)
      have hrest := ih fun x hx => hks x (List.mem_cons_of_mem k hx)
      simp only [listing, List.filterMap_cons, hv, Option.map_some, List.map_cons] at hrest ⊢
      rw [hrest]
  exact hall keys fun k hk => (h.mem_iff k).mp hk

/-! ## Writing -/

variable [DecidableEq α]

/-- What a map holds after a write is what was written, or was held before. -/
theorem update_eq_some {k j : α} {v w : β} :
    Function.update m k (some v) j = some w ↔ j = k ∧ v = w ∨ j ≠ k ∧ m j = some w := by
  rcases eq_or_ne j k with rfl | hne
  · simp
  · simp [hne]

/-- What holds of every entry and of the one written holds of every entry after. -/
theorem forall_update {P : α → β → Prop} {k : α} {v : β} (hm : ∀ j w, m j = some w → P j w)
    (hv : P k v) : ∀ j w, Function.update m k (some v) j = some w → P j w := by
  intro j w h
  obtain ⟨rfl, rfl⟩ | ⟨-, h⟩ := update_eq_some.mp h
  · exact hv
  · exact hm j w h

/-- The map without some keys. -/
def eraseKeys (m : α → Option β) (keys : List α) : α → Option β :=
  keys.foldl (fun m k => Function.update m k none) m

/-- The map with some entries written, the last of a key counting. -/
def writePairs (m : α → Option β) (ps : List (α × β)) : α → Option β :=
  ps.foldl (fun m p => Function.update m p.1 (some p.2)) m

theorem eraseKeys_apply (m : α → Option β) (keys : List α) (k : α) :
    eraseKeys m keys k = if k ∈ keys then none else m k := by
  induction keys generalizing m with
  | nil => simp [eraseKeys]
  | cons x xs ih =>
    change eraseKeys (Function.update m x none) xs k = _
    rw [ih]
    by_cases hmem : k ∈ xs
    · rw [if_pos hmem, if_pos (List.mem_cons_of_mem x hmem)]
    · by_cases hk : k = x
      · rw [if_neg hmem, hk, if_pos List.mem_cons_self, Function.update_self]
      · rw [if_neg hmem, if_neg (by simp [hk, hmem]), Function.update_of_ne hk]

theorem writePairs_of_notMem {ps : List (α × β)} {k : α} (h : k ∉ ps.map Prod.fst) :
    writePairs m ps k = m k := by
  induction ps generalizing m with
  | nil => rfl
  | cons p ps ih =>
    rw [List.map_cons, List.mem_cons, not_or] at h
    change writePairs (Function.update m p.1 (some p.2)) ps k = _
    rw [ih h.2, Function.update_of_ne h.1]

theorem writePairs_of_mem {ps : List (α × β)} {p : α × β} (hnodup : (ps.map Prod.fst).Nodup)
    (h : p ∈ ps) : writePairs m ps p.1 = some p.2 := by
  induction ps generalizing m with
  | nil => cases h
  | cons q qs ih =>
    rw [List.map_cons, List.nodup_cons] at hnodup
    change writePairs (Function.update m q.1 (some q.2)) qs p.1 = _
    rcases List.mem_cons.mp h with rfl | hmem
    · rw [writePairs_of_notMem hnodup.1, Function.update_self]
    · exact ih hnodup.2 hmem

/-! ## Keeping the index -/

/-- An entry that is overwritten keeps its place in the index. -/
theorem Indexes.overwrite (h : Indexes keys m) {k : α} (hk : (m k).isSome) (v : β) :
    Indexes keys (Function.update m k (some v)) where
  nodup := h.nodup
  mem_iff x := by
    by_cases hx : x = k
    · rw [hx, Function.update_self, h.mem_iff]
      exact iff_of_true hk rfl
    · rw [Function.update_of_ne hx, h.mem_iff]

/-- An entry under a new key goes to the end of the index. -/
theorem Indexes.insert (h : Indexes keys m) {k : α} (hk : m k = none) (v : β) :
    Indexes (keys ++ [k]) (Function.update m k (some v)) where
  nodup := by
    have hnew : k ∉ keys := by
      rw [h.mem_iff, hk]
      exact Bool.false_ne_true
    rw [← List.concat_eq_append]
    exact h.nodup.concat hnew
  mem_iff x := by
    rw [List.mem_append, List.mem_singleton]
    by_cases hx : x = k
    · rw [hx, Function.update_self]
      exact iff_of_true (.inr rfl) rfl
    · rw [Function.update_of_ne hx, h.mem_iff, or_iff_left hx]

/-- A map whose indexed keys are erased is empty. -/
theorem Indexes.eraseKeys (h : Indexes keys m) : Foundations.eraseKeys m keys = fun _ => none := by
  funext k
  rw [eraseKeys_apply]
  split <;> rename_i hk
  · rfl
  · rw [h.mem_iff, Bool.not_eq_true, Option.isSome_eq_false_iff, Option.isNone_iff_eq_none] at hk
    exact hk

/-- **A map written back from its listing is the map.** -/
theorem Indexes.writePairs_listing (h : Indexes keys m) :
    writePairs (fun _ => none) (listing m keys) = m := by
  funext k
  cases hk : m k with
  | none =>
    refine writePairs_of_notMem ?_
    rw [h.listing_keys, h.mem_iff, hk]
    exact Bool.false_ne_true
  | some v =>
    have hmem : (k, v) ∈ listing m keys := mem_listing.mpr ⟨(h.mem_iff k).mpr (by rw [hk]; rfl), hk⟩
    exact writePairs_of_mem (by rw [h.listing_keys]; exact h.nodup) hmem

/-- Entries under distinct keys, written to an empty map, are indexed by their keys. -/
theorem indexes_writePairs {ps : List (α × β)} (h : (ps.map Prod.fst).Nodup) :
    Indexes (ps.map Prod.fst) (writePairs (fun _ => none) ps) where
  nodup := h
  mem_iff k := by
    constructor
    · intro hk
      obtain ⟨p, hp, rfl⟩ := List.mem_map.mp hk
      rw [writePairs_of_mem h hp]
      rfl
    · intro hk
      by_contra hnone
      rw [writePairs_of_notMem hnone] at hk
      exact Bool.false_ne_true hk

end

/-! ## One list for every holder -/

section

open Function

variable {α ι : Type} {held : α → List ι} {holder : ι → Option α}

/-- Every list names what its owner holds, each thing once. -/
structure Lists (held : α → List ι) (holder : ι → Option α) : Prop where
  nodup : ∀ a, (held a).Nodup
  mem_iff : ∀ a i, i ∈ held a ↔ holder i = some a

namespace Lists

theorem empty : Lists (fun _ : α => ([] : List ι)) fun _ => none :=
  ⟨fun _ => List.nodup_nil, by simp⟩

/-- A thing in two lists is in one. -/
theorem unique (h : Lists held holder) {a b : α} {i : ι} (ha : i ∈ held a) (hb : i ∈ held b) :
    a = b :=
  Option.some.inj (((h.mem_iff a i).mp ha).symm.trans ((h.mem_iff b i).mp hb))

/-- What nobody holds is in no list. -/
theorem notMem (h : Lists held holder) {i : ι} (hi : holder i = none) (a : α) : i ∉ held a := by
  rw [h.mem_iff, hi]
  exact fun hnone => by cases hnone

variable [DecidableEq α] [DecidableEq ι]

/-- What is held is held by exactly one, and listed there once. -/
theorem count_eq (h : Lists held holder) {a : α} {i : ι} (hi : holder i = some a) (b : α) :
    (held b).count i = if b = a then 1 else 0 := by
  split
  next hb => exact List.count_eq_one_of_mem (h.nodup b) ((h.mem_iff b i).mpr (hb ▸ hi))
  next hb =>
    refine List.count_eq_zero_of_not_mem fun hmem => hb ?_
    exact h.unique hmem ((h.mem_iff a i).mpr hi)

/-- What nobody held is put in at the end of a list. -/
theorem put (h : Lists held holder) (a : α) {i : ι} (hi : holder i = none) :
    Lists (update held a (held a ++ [i])) (update holder i (some a)) where
  nodup b := by
    by_cases hb : b = a
    · subst hb
      rw [update_self, ← List.concat_eq_append]
      exact (h.nodup b).concat (h.notMem hi b)
    · rw [update_of_ne hb]
      exact h.nodup b
  mem_iff b j := by
    by_cases hj : j = i
    · subst hj
      have hother := h.notMem hi
      by_cases hb : b = a
      · subst hb
        simp
      · rw [update_of_ne hb, update_self]
        exact iff_of_false (hother b) fun hab => hb (Option.some.inj hab).symm
    · rw [update_of_ne hj, ← h.mem_iff b j]
      by_cases hb : b = a
      · subst hb
        simp [hj]
      · rw [update_of_ne hb]

/-- A thing is dropped from the list that has it. -/
theorem drop (h : Lists held holder) {a : α} {i : ι} (hi : i ∈ held a) :
    Lists (update held a ((held a).erase i)) (update holder i none) where
  nodup b := by
    by_cases hb : b = a
    · subst hb
      rw [update_self]
      exact (h.nodup b).erase i
    · rw [update_of_ne hb]
      exact h.nodup b
  mem_iff b j := by
    by_cases hb : b = a
    · subst hb
      rw [update_self, (h.nodup b).mem_erase_iff, h.mem_iff]
      by_cases hj : j = i
      · subst hj
        simp
      · simp [hj]
    · rw [update_of_ne hb, h.mem_iff]
      by_cases hj : j = i
      · subst hj
        have hother : holder j ≠ some b := fun hb' => hb (h.unique ((h.mem_iff b j).mpr hb') hi)
        simp [hother]
      · rw [update_of_ne hj]

/-- A thing is moved to the end of a list, its own or another. -/
theorem move (h : Lists held holder) {a : α} (b : α) {i : ι} (hi : i ∈ held a) :
    Lists (update (update held a ((held a).erase i)) b
        (update held a ((held a).erase i) b ++ [i]))
      (update holder i (some b)) := by
  have hmoved := (h.drop hi).put b (update_self i none holder)
  rwa [update_idem] at hmoved

end Lists

end

end Foundations
