import Mathlib.Data.Finset.Card
import Mathlib.Data.List.Nodup

/-!
# Foundations/Quorum — approvals of a body whose members change

Approvals are kept as a list, and members leave after they approved.  The approvals that stand are
those of present members; the others have lapsed.  A list without repetitions is as long as the two
together, so counting its length is counting the lapsed too.

A body can decide at all if it is `Sound`: members are not listed twice and there are enough of them
for the threshold, which nobody meets without an approval.
-/

namespace Foundations

open Finset

variable {α : Type} [DecidableEq α]

omit [DecidableEq α] in
/-- One approval more, of somebody new. -/
theorem nodup_snoc {l : List α} {a : α} (h : l.Nodup) (ha : a ∉ l) : (l ++ [a]).Nodup := by
  rw [← List.concat_eq_append]
  exact h.concat ha

/-- The present members who approved. -/
def standing (members approvals : List α) : Finset α :=
  approvals.toFinset.filter (· ∈ members)

/-- How many approvals are not of a present member. -/
def lapsed (members approvals : List α) : ℕ := approvals.countP (· ∉ members)

/-- The approvals of a list without repetitions stand or have lapsed. -/
theorem card_standing_add_lapsed (members : List α) {approvals : List α} (h : approvals.Nodup) :
    (standing members approvals).card + lapsed members approvals = approvals.length := by
  have hcard : (standing members approvals).card = approvals.countP (· ∈ members) := by
    rw [List.countP_eq_length_filter, ← List.toFinset_card_of_nodup (h.filter _),
      List.toFinset_filter, standing]
    simp only [decide_eq_true_eq]
  have hcount := List.length_eq_countP_add_countP (fun a => decide (a ∈ members)) (l := approvals)
  simp only [decide_eq_true_eq] at hcount
  rw [hcard, lapsed, hcount]

/-- **The approvals that stand are enough exactly if the list is long enough without those that have
lapsed.** -/
theorem le_card_standing_iff {members approvals : List α} {n : ℕ} (h : approvals.Nodup) :
    n ≤ (standing members approvals).card ↔ n + lapsed members approvals ≤ approvals.length := by
  rw [← card_standing_add_lapsed members h]
  exact (Nat.add_le_add_iff_right).symm

/-- **Where everybody who approved is still there, the length of the list is the count.** -/
theorem le_card_standing_of_mem {members approvals : List α} {n : ℕ} (h : approvals.Nodup)
    (hmem : ∀ a ∈ approvals, a ∈ members) (hn : n ≤ approvals.length) :
    n ≤ (standing members approvals).card := by
  have hnone : lapsed members approvals = 0 :=
    List.countP_eq_zero.mpr fun a ha => by simpa using hmem a ha
  rw [le_card_standing_iff h, hnone]
  exact hn

/-! ## Bodies that can decide -/

/-- No member is listed twice, and the threshold is within reach but not for nothing. -/
structure Sound (members : List α) (n : ℕ) : Prop where
  nodup : members.Nodup
  positive : 0 < n
  le : n ≤ members.length

namespace Sound

variable {members : List α} {n : ℕ} {a b : α}

/-- The threshold is within reach of that many different members. -/
theorem within (h : Sound members n) : 1 ≤ n ∧ n ≤ members.toFinset.card := by
  rw [List.toFinset_card_of_nodup h.nodup]
  exact ⟨h.positive, h.le⟩

/-- There is a quorum, and no approval at all is none. -/
theorem quorum (h : Sound members n) :
    (∃ Q : Finset α, (∀ a ∈ Q, a ∈ members) ∧ Q.card = n) ∧ ¬ n ≤ ([] : List α).length := by
  refine ⟨?_, not_le.mpr h.positive⟩
  obtain ⟨Q, hQ, hn⟩ := exists_subset_card_eq h.within.2
  exact ⟨Q, fun a ha => List.mem_toFinset.mp (hQ ha), hn⟩

omit [DecidableEq α] in
/-- A member more does no harm. -/
theorem append (h : Sound members n) (ha : a ∉ members) : Sound (members ++ [a]) n where
  nodup := nodup_snoc h.nodup ha
  positive := h.positive
  le := by
    rw [List.length_append]
    exact h.le.trans (Nat.le_add_right _ _)

/-- Without one of its members, a list without repetitions is shorter by one. -/
theorem length_filter_ne (h : members.Nodup) (ha : a ∈ members) :
    (members.filter (· ≠ a)).length + 1 = members.length := by
  have hfilter : members.filter (· ≠ a) = members.erase a := by
    rw [h.erase_eq_filter]
    exact List.filter_congr fun b _ => Bool.eq_iff_iff.mpr (by simp)
  rw [hfilter, List.length_erase_add_one ha]

/-- **A member can leave exactly if the others are enough.** -/
theorem filter_iff (h : Sound members n) (ha : a ∈ members) :
    Sound (members.filter (· ≠ a)) n ↔ n < members.length := by
  rw [← length_filter_ne h.nodup ha]
  exact ⟨fun h' => Nat.lt_succ_of_le h'.le,
    fun hlt => ⟨h.nodup.filter _, h.positive, Nat.le_of_lt_succ hlt⟩⟩

/-- Replacing a member by somebody lists nobody twice, unless it is another member. -/
theorem replace_nodup_iff (h : members.Nodup) :
    (members.filter (· ≠ a) ++ [b]).Nodup ↔ (b ∈ members → b = a) := by
  rw [← List.concat_eq_append, List.nodup_concat]
  simp only [List.mem_filter, decide_eq_true_eq, not_and, not_not]
  exact and_iff_left (h.filter _)

/-- **A member can be replaced by whoever is no other member.** -/
theorem replace_iff (h : Sound members n) :
    Sound (members.filter (· ≠ a) ++ [b]) n ↔ (b ∈ members → b = a) := by
  refine ⟨fun h' => (replace_nodup_iff h.nodup).mp h'.nodup, fun hb =>
    ⟨(replace_nodup_iff h.nodup).mpr hb, h.positive, ?_⟩⟩
  rw [List.length_append, List.length_singleton]
  by_cases ha : a ∈ members
  · exact h.le.trans (length_filter_ne h.nodup ha).ge
  · rw [List.filter_eq_self.mpr fun c hc => by simpa using ne_of_mem_of_not_mem hc ha]
    exact h.le.trans (Nat.le_succ _)

end Sound

end Foundations
