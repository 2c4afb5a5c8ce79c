import StellarLend.Foundations.Run

/-!
# Foundations/History — what a run records

A state forgets the steps that led to it.  `history` keeps what each successful step records, first
to last, and an invariant may then relate the record to the state.  A property that a longer record
only has if the shorter one does is a property of the steps: `meets_iff_history`.
-/

namespace Foundations

variable {σ τ ε : Type} (step : τ → σ → Option σ) (record : σ → τ → List ε)

/-- What the successful steps of a run record, first to last. -/
def history : σ → List τ → List ε
  | _, [] => []
  | s, x :: xs => (if (step x s).isSome then record s x else []) ++ history (exec step s x) xs

variable {step record}

@[simp] theorem history_nil (s : σ) : history step record s [] = [] := rfl

theorem history_cons_of_some {s s' : σ} {x : τ} (xs : List τ) (h : step x s = some s') :
    history step record s (x :: xs) = record s x ++ history step record s' xs := by
  simp [history, h, exec_of_some h]

theorem history_cons_of_none {s : σ} {x : τ} (xs : List τ) (h : step x s = none) :
    history step record s (x :: xs) = history step record s xs := by
  simp [history, h, exec_of_none h]

theorem history_append (s : σ) (xs ys : List τ) :
    history step record s (xs ++ ys) =
      history step record s xs ++ history step record (run step s xs) ys := by
  induction xs generalizing s with
  | nil => rfl
  | cons x xs ih => simp only [List.cons_append, history, run_cons, ih, List.append_assoc]

variable (record) in
/-- A successful step records its own. -/
theorem history_snoc {s s' : σ} {xs : List τ} {x : τ} (h : step x (run step s xs) = some s') :
    history step record s (xs ++ [x]) = history step record s xs ++ record (run step s xs) x := by
  rw [history_append, history_cons_of_some [] h, history_nil, List.append_nil]

/-- What is recorded is recorded by one of the steps. -/
theorem mem_history {s : σ} {xs : List τ} {a : ε} (h : a ∈ history step record s xs) :
    ∃ x ∈ xs, ∃ t, a ∈ record t x := by
  induction xs generalizing s with
  | nil => cases h
  | cons x xs ih =>
    rcases List.mem_append.mp h with hfirst | hrest
    · split at hfirst
      · exact ⟨x, List.mem_cons_self, s, hfirst⟩
      · cases hfirst
    · obtain ⟨y, hy, hrecorded⟩ := ih hrest
      exact ⟨y, List.mem_cons_of_mem x hy, hrecorded⟩

/-- What is not recorded is recorded by none of the steps. -/
theorem meets_of_not_mem_history {s : σ} {xs : List τ} {a : ε} (h : a ∉ history step record s xs) :
    Meets step (fun s x => a ∉ record s x) s xs := by
  induction xs generalizing s with
  | nil => trivial
  | cons x xs ih =>
    rw [history, List.mem_append, not_or] at h
    refine ⟨fun hx => ?_, ih h.2⟩
    rw [if_pos hx] at h
    exact h.1

/-- **A relation between the record and the state**, kept by every step taken under the condition,
holds of the record and the state of a run that meets it. -/
theorem Meets.history_invariant {C : σ → τ → Prop} {I : List ε → σ → Prop}
    (hstep : ∀ h s x s', step x s = some s' → C s x → I h s → I (h ++ record s x) s')
    {h : List ε} {s : σ} {xs : List τ} (hC : Meets step C s xs) (hs : I h s) :
    I (h ++ history step record s xs) (run step s xs) := by
  induction xs generalizing h s with
  | nil => rwa [history_nil, List.append_nil]
  | cons x xs ih =>
    rcases hx : step x s with _ | s'
    · rw [history_cons_of_none xs hx, run_cons, exec_of_none hx]
      exact ih (exec_of_none hx ▸ hC.2) hs
    · rw [history_cons_of_some xs hx, run_cons, exec_of_some hx, ← List.append_assoc]
      exact ih (exec_of_some hx ▸ hC.2) (hstep h s x s' hx (hC.1 (by rw [hx]; rfl)) hs)

/-- The same for every step and every run. -/
theorem history_invariant {I : List ε → σ → Prop}
    (hstep : ∀ h s x s', step x s = some s' → I h s → I (h ++ record s x) s')
    {h : List ε} {s : σ} (xs : List τ) (hs : I h s) :
    I (h ++ history step record s xs) (run step s xs) :=
  Meets.history_invariant (C := fun _ _ => True) (fun h s x s' hx _ => hstep h s x s' hx)
    (meets_of_forall fun _ _ _ => trivial) hs

/-- **A condition that tells which steps have a property, under a relation to the record that it
keeps, is met along exactly the runs whose steps all have it.** -/
theorem meets_iff_recorded {C : σ → τ → Prop} {P : List ε → σ → τ → σ → Prop}
    {I : List ε → σ → Prop}
    (hC : ∀ h s x s', step x s = some s' → I h s → (C s x ↔ P h s x s'))
    (hI : ∀ h s x s', step x s = some s' → C s x → I h s → I (h ++ record s x) s')
    {h : List ε} {s : σ} {xs : List τ} (hs : I h s) :
    Meets step C s xs ↔ ∀ ys x zs s', xs = ys ++ x :: zs → step x (run step s ys) = some s' →
      P (h ++ history step record s ys) (run step s ys) x s' := by
  constructor
  · rintro hmeets ys x zs s' rfl hx
    have hparts := meets_append.mp hmeets
    have hrelated := hparts.1.history_invariant hI hs
    exact (hC _ _ x s' hx hrelated).mp (hparts.2.1 (by rw [hx]; rfl))
  · intro hall
    induction xs generalizing h s with
    | nil => trivial
    | cons x xs ih =>
      rcases hx : step x s with _ | s'
      · rw [Meets, exec_of_none hx, hx]
        refine ⟨fun hsome => absurd hsome Bool.false_ne_true, ih hs fun ys y zs t hxs hy => ?_⟩
        have hrest := hall (x :: ys) y zs t (by rw [hxs]; rfl)
        rw [run_cons, exec_of_none hx, history_cons_of_none ys hx] at hrest
        exact hrest hy
      · have hfirst : C s x := by
          refine (hC h s x s' hx hs).mpr ?_
          have hnow := hall [] x xs s' rfl hx
          rwa [history_nil, List.append_nil] at hnow
        rw [Meets, exec_of_some hx, hx]
        refine ⟨fun _ => hfirst, ih (hI h s x s' hx hfirst hs) fun ys y zs t hxs hy => ?_⟩
        have hrest := hall (x :: ys) y zs t (by rw [hxs]; rfl)
        rw [run_cons, exec_of_some hx, history_cons_of_some ys hx, ← List.append_assoc] at hrest
        exact hrest hy

/-- **A condition that tells which steps keep a property of the record is met along exactly the runs
whose record has it.** -/
theorem meets_iff_history {C : σ → τ → Prop} {I : List ε → σ → Prop} {P : List ε → Prop}
    (hP : ∀ h k, P (h ++ k) → P h)
    (hI : ∀ h s x s', step x s = some s' → I h s → I (h ++ record s x) s')
    (hC : ∀ h s x s', step x s = some s' → I h s → P h → (C s x ↔ P (h ++ record s x)))
    {h : List ε} {s : σ} {xs : List τ} (hs : I h s) (hh : P h) :
    Meets step C s xs ↔ P (h ++ history step record s xs) := by
  induction xs generalizing h s with
  | nil => exact iff_of_true trivial (by rwa [history_nil, List.append_nil])
  | cons x xs ih =>
    rcases hx : step x s with _ | s'
    · rw [history_cons_of_none xs hx, Meets, exec_of_none hx, hx, ih hs hh]
      simp
    · rw [history_cons_of_some xs hx, ← List.append_assoc, Meets, exec_of_some hx, hx]
      have hfirst := hC h s x s' hx hs hh
      constructor
      · rintro ⟨hCx, hrest⟩
        exact (ih (hI h s x s' hx hs) (hfirst.mp (hCx rfl))).mp hrest
      · intro hall
        have hnext : P (h ++ record s x) := hP _ _ hall
        exact ⟨fun _ => hfirst.mpr hnext, (ih (hI h s x s' hx hs) hnext).mpr hall⟩

end Foundations
