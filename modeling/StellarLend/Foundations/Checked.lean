import Mathlib.Algebra.Order.Ring.Int
import Mathlib.Tactic.Linarith
import Mathlib.Tactic.NormNum

/-!
# Foundations/Checked — bounded integer arithmetic that reports overflow

A bounded machine integer is carried as the `ℤ` it denotes; what makes it bounded is that every
operation that can leave the range says so.  Three behaviours are needed: *checked* (`none` outside
the range), *saturating* (clamped to the range) and the truncating division both share.  Each is
one definition over a range `[lo, hi]`, instantiated at the 128-bit and at the 256-bit signed
integers.
-/

namespace Foundations

/-! ## A range of integers -/

/-- A range of integers, both ends included. -/
structure Range where
  lo : ℤ
  hi : ℤ

namespace Range

/-- The value is representable. -/
def Holds (r : Range) (x : ℤ) : Prop := r.lo ≤ x ∧ x ≤ r.hi

instance (r : Range) (x : ℤ) : Decidable (r.Holds x) := inferInstanceAs (Decidable (_ ∧ _))

/-- The value, if it is representable. -/
def check (r : Range) (x : ℤ) : Option ℤ := if r.Holds x then some x else none

/-- The representable value closest to `x`. -/
def clamp (r : Range) (x : ℤ) : ℤ := max r.lo (min r.hi x)

@[simp] theorem check_eq_some {r : Range} {x y : ℤ} : r.check x = some y ↔ r.Holds x ∧ x = y := by
  unfold check
  split <;> simp_all

@[simp] theorem check_eq_none {r : Range} {x : ℤ} : r.check x = none ↔ ¬ r.Holds x := by
  unfold check
  split <;> simp_all

theorem clamp_of_holds {r : Range} {x : ℤ} (h : r.Holds x) : r.clamp x = x := by
  rw [clamp, min_eq_right h.2, max_eq_right h.1]

end Range

/-! ## Truncating division -/

/-- A positive bound on a truncating quotient is a bound on the dividend. -/
theorem le_tdiv_iff {a b c : ℤ} (ha : 0 < a) (hc : 0 < c) : a ≤ b.tdiv c ↔ a * c ≤ b := by
  refine ⟨fun h => ?_, Int.le_tdiv_of_mul_le hc⟩
  have hb : 0 ≤ b := by
    by_contra hneg
    have := Int.tdiv_nonneg (neg_nonneg.mpr (not_le.mp hneg).le) hc.le
    rw [Int.neg_tdiv] at this
    omega
  rw [Int.tdiv_eq_ediv_of_nonneg hb] at h
  exact (Int.le_ediv_iff_mul_le hc).mp h

/-- A division by a positive divisor stays inside any range around zero that holds the dividend. -/
theorem Range.holds_tdiv {r : Range} (hr : r.Holds 0) {a b : ℤ} (ha : r.Holds a) (hb : 0 < b) :
    r.Holds (a.tdiv b) := by
  have habs : (a.tdiv b).natAbs ≤ a.natAbs := by
    rw [Int.natAbs_tdiv]
    exact Nat.div_le_self _ _
  obtain ⟨hlo, hhi⟩ := ha
  obtain ⟨hlo0, hhi0⟩ := hr
  rcases le_or_gt 0 a with h | h
  · have := Int.tdiv_nonneg h hb.le
    exact ⟨by omega, by omega⟩
  · have hneg : a.tdiv b = -((-a).tdiv b) := by rw [Int.neg_tdiv, neg_neg]
    have := Int.tdiv_nonneg (neg_nonneg.mpr h.le) hb.le
    exact ⟨by omega, by omega⟩

/-! ## The two widths -/

/-- The signed 128-bit integers. -/
def I128 : Range := ⟨-2 ^ 127, 2 ^ 127 - 1⟩

/-- The signed 256-bit integers. -/
def I256 : Range := ⟨-2 ^ 255, 2 ^ 255 - 1⟩

namespace I128

/-- The largest signed 128-bit integer. -/
def MAX : ℤ := I128.hi

theorem holds_iff {x : ℤ} : I128.Holds x ↔ -2 ^ 127 ≤ x ∧ x ≤ 2 ^ 127 - 1 := Iff.rfl

@[simp] theorem holds_zero : I128.Holds 0 := by decide

def checkedAdd (a b : ℤ) : Option ℤ := I128.check (a + b)
def checkedSub (a b : ℤ) : Option ℤ := I128.check (a - b)
def checkedMul (a b : ℤ) : Option ℤ := I128.check (a * b)

/-- Division truncates toward zero; `none` for a zero divisor and for `MIN / -1`. -/
def checkedDiv (a b : ℤ) : Option ℤ := if b = 0 then none else I128.check (a.tdiv b)

def saturatingAdd (a b : ℤ) : ℤ := I128.clamp (a + b)
def saturatingSub (a b : ℤ) : ℤ := I128.clamp (a - b)
def saturatingMul (a b : ℤ) : ℤ := I128.clamp (a * b)

/-- Truncating division, clamped.  The divisor is never zero where it is used. -/
def saturatingDiv (a b : ℤ) : ℤ := I128.clamp (a.tdiv b)

@[simp] theorem checkedAdd_eq_some {a b c : ℤ} :
    checkedAdd a b = some c ↔ I128.Holds (a + b) ∧ a + b = c := Range.check_eq_some

@[simp] theorem checkedSub_eq_some {a b c : ℤ} :
    checkedSub a b = some c ↔ I128.Holds (a - b) ∧ a - b = c := Range.check_eq_some

@[simp] theorem checkedMul_eq_some {a b c : ℤ} :
    checkedMul a b = some c ↔ I128.Holds (a * b) ∧ a * b = c := Range.check_eq_some

@[simp] theorem checkedDiv_eq_some {a b c : ℤ} :
    checkedDiv a b = some c ↔ b ≠ 0 ∧ I128.Holds (a.tdiv b) ∧ a.tdiv b = c := by
  unfold checkedDiv
  split <;> simp_all

/-- A nonnegative number is only bounded from above. -/
theorem holds_of_nonneg {x : ℤ} (h : 0 ≤ x) : I128.Holds x ↔ x ≤ MAX :=
  and_iff_right (le_trans (by decide) h)

/-- A division by a positive divisor stays inside the range. -/
theorem holds_tdiv {a b : ℤ} (ha : I128.Holds a) (hb : 0 < b) : I128.Holds (a.tdiv b) :=
  Range.holds_tdiv (by decide) ha hb

end I128

namespace I256

def mul (a b : ℤ) : Option ℤ := I256.check (a * b)
def add (a b : ℤ) : Option ℤ := I256.check (a + b)

/-- Division truncates toward zero; `none` for a zero divisor and for `MIN / -1`. -/
def div (a b : ℤ) : Option ℤ := if b = 0 then none else I256.check (a.tdiv b)

/-- The value, if it fits the narrower width. -/
def toI128 (a : ℤ) : Option ℤ := I128.check a

@[simp] theorem mul_eq_some {a b c : ℤ} : mul a b = some c ↔ I256.Holds (a * b) ∧ a * b = c :=
  Range.check_eq_some

@[simp] theorem add_eq_some {a b c : ℤ} : add a b = some c ↔ I256.Holds (a + b) ∧ a + b = c :=
  Range.check_eq_some

@[simp] theorem div_eq_some {a b c : ℤ} :
    div a b = some c ↔ b ≠ 0 ∧ I256.Holds (a.tdiv b) ∧ a.tdiv b = c := by
  unfold div
  split <;> simp_all

/-- A division by a positive divisor stays inside the range. -/
theorem holds_tdiv {a b : ℤ} (ha : I256.Holds a) (hb : 0 < b) : I256.Holds (a.tdiv b) :=
  Range.holds_tdiv (by decide) ha hb

@[simp] theorem toI128_eq_some {a c : ℤ} : toI128 a = some c ↔ I128.Holds a ∧ a = c :=
  Range.check_eq_some

end I256

/-! ## Unsigned 64-bit integers, carried as naturals -/

namespace U64

/-- The largest unsigned 64-bit integer. -/
def MAX : ℕ := 2 ^ 64 - 1

def saturatingAdd (a b : ℕ) : ℕ := min (a + b) MAX
def checkedAdd (a b : ℕ) : Option ℕ := if a + b ≤ MAX then some (a + b) else none

@[simp] theorem checkedAdd_eq_some {a b c : ℕ} :
    checkedAdd a b = some c ↔ a + b ≤ MAX ∧ a + b = c := by
  unfold checkedAdd
  split <;> simp_all

end U64

/-! ## Signed 64-bit integers, carried as integers -/

namespace I64

/-- The largest signed 64-bit integer. -/
def MAX : ℤ := 2 ^ 63 - 1

/-- The signed integer of the same 64 bits. -/
def ofU64 (n : ℕ) : ℤ := if (n : ℤ) ≤ MAX then n else n - 2 ^ 64

/-- The unsigned integer of the same 64 bits. -/
def toU64 (x : ℤ) : ℕ := (x % 2 ^ 64).toNat

/-- Casting there and back changes nothing. -/
theorem toU64_ofU64 {n : ℕ} (h : n ≤ U64.MAX) : toU64 (ofU64 n) = n := by
  unfold U64.MAX at h
  unfold toU64 ofU64
  split <;> omega

theorem ofU64_le_max {n : ℕ} (h : n ≤ U64.MAX) : ofU64 n ≤ MAX := by
  unfold U64.MAX at h
  unfold ofU64
  split
  · assumption
  · unfold MAX
    omega

/-- A signed integer that is no less than zero is the unsigned one. -/
theorem toU64_of_nonneg {x : ℤ} (h : 0 ≤ x) (hx : x ≤ MAX) : (toU64 x : ℤ) = x := by
  unfold MAX at hx
  unfold toU64
  omega

end I64

/-! ## Unsigned 32-bit integers, carried as naturals -/

namespace U32

/-- The largest unsigned 32-bit integer. -/
def MAX : ℕ := 2 ^ 32 - 1

def saturatingAdd (a b : ℕ) : ℕ := min (a + b) MAX
def checkedAdd (a b : ℕ) : Option ℕ := if a + b ≤ MAX then some (a + b) else none

@[simp] theorem checkedAdd_eq_some {a b c : ℕ} :
    checkedAdd a b = some c ↔ a + b ≤ MAX ∧ a + b = c := by
  unfold checkedAdd
  split <;> simp_all

end U32

end Foundations
