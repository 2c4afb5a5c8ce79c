import Mathlib.Algebra.Order.Ring.Abs
import Mathlib.Algebra.Order.Ring.Int
import Mathlib.Logic.Relation
import Mathlib.Tactic.Linarith

/-!
# Foundations/Pacing — values that move by a fraction of themselves

A step is paced if it changes a value by at most its `d`-th part.  Rounding that part down makes
`d` a threshold: from `d` on a value can be moved up or down by one, hence anywhere else above the
threshold, and below it the part is nothing and the value stays where it is for good.

       0 ······ d-1 | d ⇄ d+1 ⇄ d+2 ⇄ ···
        each stays  |
-/

namespace Foundations

variable {d a b : ℤ}

/-- A step of at most the `d`-th part of the value it starts from. -/
def Paced (d a b : ℤ) : Prop := d * |b - a| ≤ a

instance : Decidable (Paced d a b) := inferInstanceAs (Decidable (d * |b - a| ≤ a))

theorem paced_refl (d : ℤ) (ha : 0 ≤ a) : Paced d a a := by simpa [Paced] using ha

theorem paced_succ (h : d ≤ a) : Paced d a (a + 1) := by simpa [Paced] using h

theorem paced_pred (h : d ≤ a) : Paced d a (a - 1) := by simpa [Paced] using h

/-- **Below the threshold nothing moves.** -/
theorem Paced.eq_of_lt (h : Paced d a b) (hd : 0 < d) (ha : a < d) : b = a := by
  have hlt : |b - a| < 1 := by
    by_contra hge
    have := mul_le_mul_of_nonneg_left (not_lt.mp hge) hd.le
    rw [Paced] at h
    linarith
  exact sub_eq_zero.mp (Int.abs_lt_one_iff.mp hlt)

/-! ## Walks -/

open Relation

variable {α : Type} {R : α → α → Prop} {f : ℤ → α}

theorem walk_up (n : ℕ) (h : ∀ x, a ≤ x → x < a + n → R (f x) (f (x + 1))) :
    ReflTransGen R (f a) (f (a + n)) := by
  induction n with
  | zero => simpa using ReflTransGen.refl
  | succ n ih =>
    have hlast := h (a + n) (by omega) (by omega)
    rw [Nat.cast_succ, ← add_assoc]
    exact (ih fun x ha hx => h x ha (by omega)).tail hlast

theorem walk_down (n : ℕ) (h : ∀ x, a - n < x → x ≤ a → R (f x) (f (x - 1))) :
    ReflTransGen R (f a) (f (a - n)) := by
  induction n with
  | zero => simpa using ReflTransGen.refl
  | succ n ih =>
    have hlast := h (a - n) (by omega) (by omega)
    rw [Nat.cast_succ, ← sub_sub]
    exact (ih fun x ha hx => h x (by omega) hx).tail hlast

/-- **One step at a time leads from one integer to any other.** -/
theorem walk (hup : ∀ x, a ≤ x → x < b → R (f x) (f (x + 1)))
    (hdown : ∀ x, b < x → x ≤ a → R (f x) (f (x - 1))) : ReflTransGen R (f a) (f b) := by
  rcases le_total a b with h | h
  · have hwalk := walk_up (f := f) (b - a).toNat fun x ha hx => hup x ha (by omega)
    rwa [show a + ((b - a).toNat : ℤ) = b by omega] at hwalk
  · have hwalk := walk_down (f := f) (a - b).toNat fun x hx ha => hdown x (by omega) ha
    rwa [show a - ((a - b).toNat : ℤ) = b by omega] at hwalk

end Foundations
