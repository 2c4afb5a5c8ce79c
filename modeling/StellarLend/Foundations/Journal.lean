import Mathlib.Data.List.Basic

/-!
# Foundations/Journal — what holds of each entry and those before it

A journal only grows at its end, so what an entry promises about those before it is settled when it
is written: `throughout_snoc` is the step of every induction over a journal.
-/

namespace Foundations

variable {ε : Type} {P Q : List ε → ε → Prop} {log rest : List ε} {x : ε}

/-- Each entry stands in the relation to those before it. -/
def Throughout (P : List ε → ε → Prop) (log : List ε) : Prop :=
  ∀ past x rest, log = past ++ x :: rest → P past x

theorem throughout_nil : Throughout P [] := by
  rintro (_ | ⟨_, _⟩) x rest h <;> cases h

/-- **An entry more is one that stands in the relation to all others.** -/
theorem throughout_snoc : Throughout P (log ++ [x]) ↔ Throughout P log ∧ P log x := by
  constructor
  · intro h
    refine ⟨fun past y rest hlog => h past y (rest ++ [x]) ?_, h log x [] rfl⟩
    rw [hlog, List.append_assoc, List.cons_append]
  · rintro ⟨hlog, hx⟩ past y rest hsplit
    rcases List.eq_nil_or_concat rest with rfl | ⟨rest, z, rfl⟩
    · obtain ⟨rfl, hy⟩ := List.append_inj' hsplit rfl
      cases hy
      exact hx
    · rw [List.concat_eq_append, ← List.cons_append, ← List.append_assoc] at hsplit
      exact hlog past y rest (List.append_inj' hsplit rfl).1

theorem Throughout.snoc (h : Throughout P log) (hx : P log x) : Throughout P (log ++ [x]) :=
  throughout_snoc.mpr ⟨h, hx⟩

/-! ## The last entry of a kind -/

variable {p : ε → Prop} {y : ε}

/-- The last entry of a kind. -/
def LastWith (p : ε → Prop) (log : List ε) (x : ε) : Prop :=
  ∃ past rest, log = past ++ x :: rest ∧ p x ∧ ∀ z ∈ rest, ¬ p z

theorem not_lastWith_nil : ¬ LastWith p [] x := by
  rintro ⟨_ | ⟨_, _⟩, rest, h, -⟩ <;> cases h

/-- **An entry more is the last of its kind.** -/
theorem lastWith_snoc_of_pos (h : p y) : LastWith p (log ++ [y]) x ↔ x = y := by
  constructor
  · rintro ⟨past, rest, hsplit, -, hrest⟩
    rcases List.eq_nil_or_concat rest with rfl | ⟨rest, z, rfl⟩
    · exact (List.cons.inj (List.append_inj' hsplit rfl).2).1.symm
    · rw [List.concat_eq_append, ← List.cons_append, ← List.append_assoc] at hsplit
      have hz : y = z := (List.cons.inj (List.append_inj' hsplit rfl).2).1
      exact absurd (hz ▸ h) (hrest z (by simp))
  · rintro rfl
    exact ⟨log, [], rfl, h, fun _ hz => absurd hz List.not_mem_nil⟩

/-- An entry of another kind leaves the last one. -/
theorem lastWith_snoc_of_neg (h : ¬ p y) : LastWith p (log ++ [y]) x ↔ LastWith p log x := by
  constructor
  · rintro ⟨past, rest, hsplit, hx, hrest⟩
    rcases List.eq_nil_or_concat rest with rfl | ⟨rest, z, rfl⟩
    · have hxy : y = x := (List.cons.inj (List.append_inj' hsplit rfl).2).1
      exact absurd (hxy ▸ hx) h
    · rw [List.concat_eq_append, ← List.cons_append, ← List.append_assoc] at hsplit
      refine ⟨past, rest, (List.append_inj' hsplit rfl).1, hx, fun w hw => hrest w ?_⟩
      rw [List.concat_eq_append]
      exact List.mem_append_left _ hw
  · rintro ⟨past, rest, rfl, hx, hrest⟩
    refine ⟨past, rest ++ [y], by simp, hx, fun z hz => ?_⟩
    rcases List.mem_append.mp hz with hz | hz
    · exact hrest z hz
    · exact List.mem_singleton.mp hz ▸ h

end Foundations
