import Mathlib.Algebra.Group.Basic
import Mathlib.Data.List.Basic

/-!
# Foundations/Run — runs of a machine whose failing steps leave no trace

A machine is a step function `τ → σ → Option σ`: `none` is a step that failed, and a failed step
leaves the state it started from.  A run is a list of steps, hence total, and an invariant is
proved once per step.  `Meets` restricts a run to steps taken under a condition on the state they
start from, and `tally` adds up a quantity over the steps that succeed.
-/

namespace Foundations

section Run

variable {σ τ : Type} (step : τ → σ → Option σ)

/-- The state after a step that may have failed. -/
def exec (s : σ) (x : τ) : σ := (step x s).getD s

/-- The state after a sequence of steps. -/
def run (s : σ) (xs : List τ) : σ := xs.foldl (exec step) s

/-- The state after a sequence of steps that all succeed. -/
def chain (s : σ) (xs : List τ) : Option σ := xs.foldlM (fun s x => step x s) s

/-- Every step of the run that succeeds is taken under the condition. -/
def Meets (C : σ → τ → Prop) : σ → List τ → Prop
  | _, [] => True
  | s, x :: xs => ((step x s).isSome → C s x) ∧ Meets C (exec step s x) xs

variable {step}

@[simp] theorem run_nil (s : σ) : run step s [] = s := rfl

@[simp] theorem run_cons (s : σ) (x : τ) (xs : List τ) :
    run step s (x :: xs) = run step (exec step s x) xs := rfl

theorem run_append (s : σ) (xs ys : List τ) :
    run step s (xs ++ ys) = run step (run step s xs) ys := List.foldl_append

/-- The last step acts on what the others left. -/
theorem run_snoc (s : σ) (xs : List τ) (x : τ) :
    run step s (xs ++ [x]) = exec step (run step s xs) x := by
  rw [run_append, run_cons, run_nil]

theorem exec_of_some {s s' : σ} {x : τ} (h : step x s = some s') : exec step s x = s' := by
  simp [exec, h]

theorem exec_of_none {s : σ} {x : τ} (h : step x s = none) : exec step s x = s := by
  simp [exec, h]

/-- What holds of the state, and of every successor of it, holds after the step. -/
theorem exec_induction {P : σ → Prop} {s : σ} {x : τ} (hs : P s)
    (h : ∀ s', step x s = some s' → P s') : P (exec step s x) := by
  cases hx : step x s with
  | none => rwa [exec_of_none hx]
  | some s' => rw [exec_of_some hx]; exact h s' hx

@[simp] theorem chain_nil (s : σ) : chain step s [] = some s := rfl

@[simp] theorem chain_cons (s : σ) (x : τ) (xs : List τ) :
    chain step s (x :: xs) = (step x s).bind fun t => chain step t xs := rfl

theorem chain_single (s : σ) (x : τ) : chain step s [x] = step x s := by simp

theorem chain_snoc (s : σ) (xs : List τ) (x : τ) :
    chain step s (xs ++ [x]) = (chain step s xs).bind (step x) := by
  induction xs generalizing s with
  | nil => rw [List.nil_append, chain_single, chain_nil, Option.bind_some]
  | cons y ys ih =>
    rw [List.cons_append, chain_cons, chain_cons, Option.bind_assoc]
    exact congrArg _ (funext fun t => ih t)

/-- A sequence whose steps all succeed is a run. -/
theorem run_of_chain {s t : σ} {xs : List τ} (h : chain step s xs = some t) :
    run step s xs = t := by
  induction xs generalizing s with
  | nil => exact Option.some.inj h
  | cons x xs ih =>
    obtain ⟨u, hx, hu⟩ := Option.bind_eq_some_iff.mp h
    rw [run_cons, exec_of_some hx, ih hu]

/-! ## Invariants -/

/-- **An invariant of the steps taken under a condition is an invariant of the runs that meet
it.** -/
theorem Meets.invariant {C : σ → τ → Prop} {I : σ → Prop}
    (hstep : ∀ s x s', step x s = some s' → C s x → I s → I s') {s : σ} {xs : List τ}
    (h : Meets step C s xs) (hs : I s) : I (run step s xs) := by
  induction xs generalizing s with
  | nil => exact hs
  | cons x xs ih =>
    refine ih h.2 (exec_induction hs fun s' hx => ?_)
    exact hstep s x s' hx (h.1 (by simp [hx])) hs

/-- **An invariant of every step is an invariant of every run.** -/
theorem run_invariant {I : σ → Prop} (hstep : ∀ s x s', step x s = some s' → I s → I s')
    {s : σ} (xs : List τ) (hs : I s) : I (run step s xs) := by
  induction xs generalizing s with
  | nil => exact hs
  | cons x xs ih => exact ih (exec_induction hs fun s' hx => hstep s x s' hx hs)

/-- **A relation kept where both sides take the step, and where only one side takes it, holds of a
run and of the run of some of its steps.** -/
theorem Meets.run_filter {C : σ → τ → Prop} {R : σ → σ → Prop} {keep : τ → Bool}
    (hkeep : ∀ s t x, keep x = true → R s t → R (exec step s x) (exec step t x))
    (hdrop : ∀ s t x s', keep x = false → step x s = some s' → C s x → R s t → R s' t)
    {s t : σ} {xs : List τ} (h : Meets step C s xs) (hst : R s t) :
    R (run step s xs) (run step t (xs.filter keep)) := by
  induction xs generalizing s t with
  | nil => exact hst
  | cons x xs ih =>
    cases hx : keep x with
    | true =>
      rw [List.filter_cons_of_pos hx]
      exact ih h.2 (hkeep s t x hx hst)
    | false =>
      rw [List.filter_cons_of_neg (by rw [hx]; exact Bool.false_ne_true)]
      have hnext : R (exec step s x) t := exec_induction (P := fun u => R u t) hst fun s' hs' =>
        hdrop s t x s' hx hs' (h.1 (by rw [hs']; rfl)) hst
      exact ih h.2 hnext

/-! ## Conditions along a run -/

theorem meets_append {C : σ → τ → Prop} {s : σ} {xs ys : List τ} :
    Meets step C s (xs ++ ys) ↔ Meets step C s xs ∧ Meets step C (run step s xs) ys := by
  induction xs generalizing s with
  | nil => simp [Meets]
  | cons x xs ih => simp [Meets, ih, and_assoc]

/-- A run meets a condition exactly if each of its successful steps is taken under it. -/
theorem meets_iff {C : σ → τ → Prop} {s : σ} {xs : List τ} :
    Meets step C s xs ↔ ∀ ys x zs s', xs = ys ++ x :: zs → step x (run step s ys) = some s' →
      C (run step s ys) x := by
  constructor
  · rintro h ys x zs s' rfl hx
    exact (meets_append.mp h).2.1 (by simp [hx])
  · intro h
    induction xs generalizing s with
    | nil => trivial
    | cons x xs ih =>
      refine ⟨fun hx => ?_, ih fun ys y zs s' hxs => h (x :: ys) y zs s' (by rw [hxs]; rfl)⟩
      obtain ⟨s', hs'⟩ := Option.isSome_iff_exists.mp hx
      exact h [] x xs s' rfl hs'

/-- **A condition that tells which steps have a property, under an invariant it keeps, is met along
exactly the runs whose steps all have it.** -/
theorem meets_iff_steps {C : σ → τ → Prop} {P : σ → τ → σ → Prop} {I : σ → Prop}
    (hC : ∀ s x s', step x s = some s' → I s → (C s x ↔ P s x s'))
    (hI : ∀ s x s', step x s = some s' → C s x → I s → I s') {s : σ} {xs : List τ} (hs : I s) :
    Meets step C s xs ↔ ∀ ys x zs s', xs = ys ++ x :: zs → step x (run step s ys) = some s' →
      P (run step s ys) x s' := by
  constructor
  · rintro h ys x zs s' hxs hx
    rw [hxs, meets_append] at h
    exact (hC _ x s' hx (h.1.invariant hI hs)).mp (h.2.1 (by rw [hx]; rfl))
  · intro h
    induction xs generalizing s with
    | nil => trivial
    | cons x xs ih =>
      have hfirst : ∀ s', step x s = some s' → C s x := fun s' hx =>
        (hC s x s' hx hs).mpr (h [] x xs s' rfl hx)
      refine ⟨fun hx => ?_, ih (exec_induction hs fun s' hx => hI s x s' hx (hfirst s' hx) hs)
        fun ys y zs s' hxs => h (x :: ys) y zs s' (by rw [hxs]; rfl)⟩
      obtain ⟨s', hs'⟩ := Option.isSome_iff_exists.mp hx
      exact hfirst s' hs'

/-- **A condition that tells which steps keep an invariant is met along exactly the runs that keep
it.** -/
theorem meets_iff_throughout {C : σ → τ → Prop} {I : σ → Prop}
    (hC : ∀ s x s', step x s = some s' → I s → (C s x ↔ I s')) {s : σ} {xs : List τ} (hs : I s) :
    Meets step C s xs ↔ ∀ ys, ys <+: xs → I (run step s ys) := by
  constructor
  · rintro h ys ⟨zs, rfl⟩
    exact (meets_append.mp h).1.invariant (fun t x t' hx hCx ht => (hC t x t' hx ht).mp hCx) hs
  · intro h
    refine meets_iff.mpr fun ys x zs s' hxs hx => (hC _ x s' hx (h ys ⟨x :: zs, hxs.symm⟩)).mpr ?_
    have hnext := h (ys ++ [x]) ⟨zs, by rw [hxs, List.append_assoc, List.singleton_append]⟩
    rwa [run_snoc, exec_of_some hx] at hnext

/-- A condition that can be decided can be decided along a run. -/
instance decidableMeets {C : σ → τ → Prop} [∀ s x, Decidable (C s x)] :
    ∀ (s : σ) (xs : List τ), Decidable (Meets step C s xs)
  | _, [] => .isTrue trivial
  | s, x :: xs =>
    have : Decidable (Meets step C (exec step s x) xs) := decidableMeets (exec step s x) xs
    instDecidableAnd

/-- What holds of every step of the list in any state is met along it. -/
theorem meets_of_forall {C : σ → τ → Prop} {s : σ} {xs : List τ} (h : ∀ x ∈ xs, ∀ s, C s x) :
    Meets step C s xs := by
  induction xs generalizing s with
  | nil => trivial
  | cons x xs ih =>
    exact ⟨fun _ => h x (by simp) s, ih fun y hy => h y (by simp [hy])⟩

/-- Two conditions met along one run are met together. -/
theorem Meets.and {C D : σ → τ → Prop} :
    ∀ {s : σ} {xs : List τ}, Meets step C s xs → Meets step D s xs →
      Meets step (fun s x => C s x ∧ D s x) s xs
  | _, [], _, _ => trivial
  | _, _ :: _, hC, hD => ⟨fun hx => ⟨hC.1 hx, hD.1 hx⟩, Meets.and hC.2 hD.2⟩

/-- A family of conditions met along one run is met together. -/
theorem meets_forall {ι : Type} {C : ι → σ → τ → Prop} :
    ∀ {s : σ} {xs : List τ}, (∀ i, Meets step (C i) s xs) →
      Meets step (fun s x => ∀ i, C i s x) s xs
  | _, [], _ => trivial
  | _, _ :: _, h => ⟨fun hx i => (h i).1 hx, meets_forall fun i => (h i).2⟩

/-- Conditions that agree under an invariant are met along the same runs. -/
theorem meets_congr {C D : σ → τ → Prop} {I : σ → Prop}
    (hI : ∀ s x s', step x s = some s' → I s → I s')
    (hCD : ∀ s x, I s → (step x s).isSome → (C s x ↔ D s x)) {s : σ} {xs : List τ} (hs : I s) :
    Meets step C s xs ↔ Meets step D s xs := by
  induction xs generalizing s with
  | nil => rfl
  | cons x xs ih =>
    have hnext : I (exec step s x) := exec_induction hs fun s' hx => hI s x s' hx hs
    exact and_congr (forall_congr' fun hx => hCD s x hs hx) (ih hnext)

/-- A run either meets a condition or has a first successful step that breaks it. -/
theorem meets_or_first {C : σ → τ → Prop} (s : σ) (xs : List τ) :
    Meets step C s xs ∨ ∃ ys x zs s', xs = ys ++ x :: zs ∧ Meets step C s ys ∧
      step x (run step s ys) = some s' ∧ ¬ C (run step s ys) x := by
  induction xs generalizing s with
  | nil => exact .inl trivial
  | cons x xs ih =>
    by_cases hx : (step x s).isSome → C s x
    · refine (ih (exec step s x)).imp (fun h => ⟨hx, h⟩) ?_
      rintro ⟨ys, y, zs, s', rfl, hys, hy, hC⟩
      exact ⟨x :: ys, y, zs, s', rfl, ⟨hx, hys⟩, hy, hC⟩
    · obtain ⟨hsome, hC⟩ := Classical.not_imp.mp hx
      obtain ⟨s', hs'⟩ := Option.isSome_iff_exists.mp hsome
      exact .inr ⟨[], x, xs, s', rfl, trivial, hs', hC⟩

/-! ## Adding up along a run -/

section Tally

variable {M : Type} [AddCommMonoid M]

variable (step) in
/-- The sum of a quantity over the steps of the run that succeed. -/
def tally (f : σ → τ → M) : σ → List τ → M
  | _, [] => 0
  | s, x :: xs => (if (step x s).isSome then f s x else 0) + tally f (exec step s x) xs

@[simp] theorem tally_nil (f : σ → τ → M) (s : σ) : tally step f s [] = 0 := rfl

@[simp] theorem tally_cons (f : σ → τ → M) (s : σ) (x : τ) (xs : List τ) :
    tally step f s (x :: xs) =
      (if (step x s).isSome then f s x else 0) + tally step f (exec step s x) xs := rfl

theorem tally_append (f : σ → τ → M) (s : σ) (xs ys : List τ) :
    tally step f s (xs ++ ys) = tally step f s xs + tally step f (run step s xs) ys := by
  induction xs generalizing s with
  | nil => simp
  | cons x xs ih => simp only [List.cons_append, tally_cons, run_cons, ih, add_assoc]

/-- **A relation between a running sum and the state**, kept by every step taken under the
condition, holds of the sum and the state of a run that meets it. -/
theorem Meets.tally_invariant {C : σ → τ → Prop} {f : σ → τ → M} {I : M → σ → Prop}
    (hstep : ∀ m s x s', step x s = some s' → C s x → I m s → I (m + f s x) s')
    {m : M} {s : σ} {xs : List τ} (h : Meets step C s xs) (hs : I m s) :
    I (m + tally step f s xs) (run step s xs) := by
  induction xs generalizing m s with
  | nil => simpa using hs
  | cons x xs ih =>
    rw [tally_cons, run_cons, ← add_assoc]
    refine ih h.2 ?_
    cases hx : step x s with
    | none => simpa [exec_of_none hx] using hs
    | some s' =>
      rw [exec_of_some hx]
      exact hstep m s x s' hx (h.1 (by simp [hx])) hs

end Tally

end Run

end Foundations
