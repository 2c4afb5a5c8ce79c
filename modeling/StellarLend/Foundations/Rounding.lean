import Mathlib.Algebra.BigOperators.Ring.List
import Mathlib.Algebra.Order.BigOperators.Group.List
import Mathlib.Algebra.Order.Field.Rat
import Mathlib.Data.Int.ConditionallyCompleteOrder
import Mathlib.Data.Int.Log
import Mathlib.Data.Rat.Floor
import Mathlib.Tactic.Ring
import StellarLend.Foundations.Checked

/-!
# Foundations/Rounding — weighted means, doubles and floored shares

A list of integers with integer weights has a mean once the weights do not add up to zero.  Integer
division rounds it toward zero, which is down where the mean is not negative and up where it is;
either way the result stays between any integers the values are between.

A double keeps 53 binary digits of a number, so that nothing is rounded past a power of two.

A floored share loses less than one unit, so a share of a sum is the sum of the shares up to a unit.
Along a line the shares are monotone; a curve of two lines that meet at a kink is monotone too,
because the first piece reaches its full rise at the kink and not before.
-/

namespace Foundations

section

/-! ## Rounding toward zero -/

def towardZero (q : ℚ) : ℤ := if 0 ≤ q then ⌊q⌋ else ⌈q⌉

theorem towardZero_of_nonneg {q : ℚ} (hq : 0 ≤ q) : towardZero q = ⌊q⌋ := if_pos hq

theorem le_towardZero {q : ℚ} {lo : ℤ} (h : (lo : ℚ) ≤ q) : lo ≤ towardZero q := by
  unfold towardZero
  split
  · exact Int.le_floor.mpr h
  · exact Int.cast_le.mp (h.trans (Int.le_ceil q))

theorem towardZero_le {q : ℚ} {hi : ℤ} (h : q ≤ hi) : towardZero q ≤ hi := by
  unfold towardZero
  split
  · exact Int.cast_le.mp ((Int.floor_le q).trans h)
  · exact Int.ceil_le.mpr h

/-- **Truncating division by a positive integer rounds the quotient toward zero.** -/
theorem tdiv_eq_towardZero (a : ℤ) {b : ℤ} (hb : 0 < b) : a.tdiv b = towardZero (a / b) := by
  obtain ⟨n, rfl⟩ := Int.eq_ofNat_of_zero_le hb.le
  have hn : (0 : ℚ) < (n : ℤ) := Int.cast_pos.mpr hb
  rcases le_or_gt 0 a with ha | ha
  · have hq : (0 : ℚ) ≤ a / (n : ℤ) := div_nonneg (Int.cast_nonneg ha) hn.le
    rw [towardZero_of_nonneg hq, Int.tdiv_eq_ediv_of_nonneg ha, Int.cast_natCast,
      Rat.floor_intCast_div_natCast]
  · have hq : ¬ (0 : ℚ) ≤ a / (n : ℤ) :=
      not_le.mpr (div_neg_of_neg_of_pos (Int.cast_lt_zero.mpr ha) hn)
    rw [towardZero, if_neg hq, ← neg_neg a, Int.neg_tdiv,
      Int.tdiv_eq_ediv_of_nonneg (Int.neg_nonneg.mpr ha.le), Int.cast_natCast, Int.cast_neg,
      neg_div, Int.ceil_neg, Rat.floor_intCast_div_natCast]

/-! ## Doubles -/

/-- The nearest integer, and of two that are as near the even one. -/
def roundEven (q : ℚ) : ℤ :=
  if q - ⌊q⌋ < 1 / 2 ∨ q - ⌊q⌋ = 1 / 2 ∧ ⌊q⌋ % 2 = 0 then ⌊q⌋ else ⌊q⌋ + 1

theorem le_roundEven {q : ℚ} {n : ℤ} (h : n ≤ q) : n ≤ roundEven q := by
  have hfloor : n ≤ ⌊q⌋ := Int.le_floor.mpr h
  unfold roundEven
  split
  · exact hfloor
  · omega

@[simp] theorem roundEven_zero : roundEven 0 = 0 := by
  rw [roundEven, Int.floor_zero, Int.cast_zero, sub_zero, if_pos (Or.inl (by norm_num))]

/-- The exponent of the last of the 53 binary digits that a number is kept with. -/
def lastPlace (q : ℚ) : ℤ := Int.log 2 |q| - 52

/-- The double that is nearest to a number, where neither the number nor what it is rounded to
leaves the range of normal doubles. -/
def toDouble (q : ℚ) : ℚ := roundEven (q / 2 ^ lastPlace q) * 2 ^ lastPlace q

@[simp] theorem toDouble_zero : toDouble 0 = 0 := by
  rw [toDouble, zero_div, roundEven_zero, Int.cast_zero, zero_mul]

/-- **Rounding to a double does not cross a power of two.** -/
theorem le_toDouble {q : ℚ} {k : ℕ} (h : 2 ^ k ≤ q) : 2 ^ k ≤ toDouble q := by
  have hpos : 0 < q := lt_of_lt_of_le (by positivity) h
  have hunit : (0 : ℚ) < 2 ^ lastPlace q := zpow_pos two_pos _
  have hlog : (2 : ℚ) ^ Int.log 2 |q| = ((2 ^ 52 : ℤ) : ℚ) * 2 ^ lastPlace q := by
    have hsplit : Int.log 2 |q| = 52 + lastPlace q := by
      rw [lastPlace]
      ring
    rw [hsplit, zpow_add₀ two_ne_zero]
    norm_num
  have hdigits : ((2 ^ 52 : ℤ) : ℚ) ≤ q / 2 ^ lastPlace q := by
    rw [le_div_iff₀ hunit, ← hlog, abs_of_pos hpos]
    exact Int.zpow_log_le_self one_lt_two hpos
  have hexponent : (k : ℤ) ≤ Int.log 2 |q| := by
    rw [abs_of_pos hpos, ← Int.zpow_le_iff_le_log one_lt_two hpos, zpow_natCast]
    exact h
  calc (2 : ℚ) ^ k = 2 ^ (k : ℤ) := (zpow_natCast 2 k).symm
    _ ≤ 2 ^ Int.log 2 |q| := zpow_le_zpow_right₀ one_le_two hexponent
    _ = ((2 ^ 52 : ℤ) : ℚ) * 2 ^ lastPlace q := hlog
    _ ≤ toDouble q :=
      mul_le_mul_of_nonneg_right (Int.cast_le.mpr (le_roundEven hdigits)) hunit.le

/-- One tenth is not a double. -/
example : toDouble (1 / 10) = 3602879701896397 / 36028797018963968 := by decide +kernel

/-! ## Weighted sums -/

/-- The weights of a list of weighted values, added up. -/
def totalWeight (xs : List (ℤ × ℤ)) : ℤ := (xs.map Prod.snd).sum

def weightedSum (xs : List (ℤ × ℤ)) : ℤ := (xs.map fun x => x.1 * x.2).sum

def weightedMean (xs : List (ℤ × ℤ)) : ℚ := weightedSum xs / totalWeight xs

@[simp] theorem totalWeight_cons (x : ℤ × ℤ) (xs : List (ℤ × ℤ)) :
    totalWeight (x :: xs) = x.2 + totalWeight xs := by simp [totalWeight]

@[simp] theorem weightedSum_cons (x : ℤ × ℤ) (xs : List (ℤ × ℤ)) :
    weightedSum (x :: xs) = x.1 * x.2 + weightedSum xs := by simp [weightedSum]

variable {xs : List (ℤ × ℤ)} {lo hi : ℤ}

theorem totalWeight_nonneg (hw : ∀ x ∈ xs, 0 ≤ x.2) : 0 ≤ totalWeight xs :=
  List.sum_nonneg fun _ hx =>
    let ⟨x, hmem, hx⟩ := List.mem_map.mp hx
    hx ▸ hw x hmem

theorem mul_totalWeight_le (hw : ∀ x ∈ xs, 0 ≤ x.2) (hlo : ∀ x ∈ xs, lo ≤ x.1) :
    lo * totalWeight xs ≤ weightedSum xs := by
  rw [totalWeight, ← List.sum_map_mul_left]
  exact List.sum_le_sum fun x hx => mul_le_mul_of_nonneg_right (hlo x hx) (hw x hx)

theorem weightedSum_le (hw : ∀ x ∈ xs, 0 ≤ x.2) (hhi : ∀ x ∈ xs, x.1 ≤ hi) :
    weightedSum xs ≤ hi * totalWeight xs := by
  rw [totalWeight, ← List.sum_map_mul_left]
  exact List.sum_le_sum fun x hx => mul_le_mul_of_nonneg_right (hhi x hx) (hw x hx)

/-- **A weighted mean is between the values.** -/
theorem weightedMean_bounds (hw : ∀ x ∈ xs, 0 ≤ x.2) (hpos : totalWeight xs ≠ 0)
    (hlo : ∀ x ∈ xs, lo ≤ x.1) (hhi : ∀ x ∈ xs, x.1 ≤ hi) :
    lo ≤ weightedMean xs ∧ weightedMean xs ≤ hi := by
  have htotal : (0 : ℚ) < totalWeight xs :=
    Int.cast_pos.mpr (lt_of_le_of_ne (totalWeight_nonneg hw) hpos.symm)
  rw [weightedMean, le_div_iff₀ htotal, div_le_iff₀ htotal]
  exact ⟨mod_cast mul_totalWeight_le hw hlo, mod_cast weightedSum_le hw hhi⟩

end

/-! ## Floored shares -/

section

/-! ## Shares of a sum -/

variable {a b c : ℤ}

/-- The share of a sum is the sum of the shares, or one more. -/
theorem ediv_add_bounds (hc : 0 < c) : a / c + b / c ≤ (a + b) / c ∧
    (a + b) / c ≤ a / c + b / c + 1 := by
  refine ⟨Int.ediv_add_ediv_le_add_ediv hc, ?_⟩
  rw [Int.add_ediv hc.ne']
  split
  · rw [Int.sign_eq_one_of_pos hc]
  · omega

/-- Of an amount that is not negative, the share of a greater divisor is no greater. -/
theorem ediv_anti (ha : 0 ≤ a) (hb : 0 < b) (h : b ≤ c) : a / c ≤ a / b := by
  have hc : 0 < c := hb.trans_le h
  rw [Int.le_ediv_iff_mul_le hb]
  calc a / c * b ≤ a / c * c := mul_le_mul_of_nonneg_left h (Int.ediv_nonneg ha hc.le)
    _ ≤ a := Int.ediv_mul_le a hc.ne'

/-- A floored share is at most the exact one. -/
theorem cast_ediv_le (hc : 0 < c) : ((a / c : ℤ) : ℚ) ≤ a / c := by
  rw [le_div_iff₀ (Int.cast_pos.mpr hc)]
  exact_mod_cast Int.ediv_mul_le a hc.ne'

/-- A floored share is short of the exact one by less than a unit. -/
theorem lt_cast_ediv_add_one (hc : 0 < c) : (a / c : ℚ) < (a / c : ℤ) + 1 := by
  rw [div_lt_iff₀ (Int.cast_pos.mpr hc)]
  exact_mod_cast Int.lt_ediv_add_one_mul_self a hc

/-- A sum has the quotient of its first part exactly if the other does not carry the remainder past
the divisor. -/
theorem add_ediv_eq_iff (hc : 0 < c) : (a + b) / c = a / c ↔ 0 ≤ a % c + b ∧ a % c + b < c := by
  have hsplit := Int.emod_add_mul_ediv a c
  rw [mul_comm] at hsplit
  rw [Int.ediv_eq_iff_of_pos hc]
  constructor <;> intro h <;> constructor <;> omega

/-- **What a share of at most the whole leaves grows with the amount.** -/
theorem sub_share_mono {n : ℤ} (hc : 0 < c) (hn : n ≤ c) (h : a ≤ b) :
    a - a * n / c ≤ b - b * n / c := by
  have hmul : b * n ≤ a * n + (b - a) * c := by
    have hrest := mul_le_mul_of_nonneg_left hn (sub_nonneg.mpr h)
    rw [sub_mul] at hrest
    linarith
  have hdiv := Int.ediv_le_ediv hc hmul
  rw [Int.add_mul_ediv_right _ _ hc.ne'] at hdiv
  omega

/-! ## A line and a curve with a kink -/

/-- A share of a rise: what is climbed on the way from `0` to `width`. -/
def ascent (rise width u : ℤ) : ℤ := (u * rise).tdiv width

variable {rise width u v : ℤ}

/-- **A line that rises is monotone**, rounded toward zero. -/
theorem ascent_mono (hr : 0 ≤ rise) (hw : 0 < width) (h : u ≤ v) :
    ascent rise width u ≤ ascent rise width v :=
  Int.tdiv_le_tdiv hw (mul_le_mul_of_nonneg_right h hr)

theorem ascent_zero : ascent rise width 0 = 0 := by simp [ascent]

/-- The whole width climbs the whole rise. -/
theorem ascent_width (hw : 0 < width) : ascent rise width width = rise := by
  rw [ascent, mul_comm, Int.mul_tdiv_cancel _ hw.ne']

/-- Two lines that meet at the kink: from `base` by `slope` up to the kink, and by `jump` from there
to the end. -/
def kinked (base slope jump kink full u : ℤ) : ℤ :=
  if u ≤ kink then base + ascent slope kink u
  else base + slope + ascent jump (full - kink) (u - kink)

variable {base slope jump kink full : ℤ}

/-- **A curve of two lines that rise is monotone**, and does not drop at the kink. -/
theorem kinked_mono (hs : 0 ≤ slope) (hj : 0 ≤ jump) (hk : 0 < kink) (hf : kink < full) :
    Monotone (kinked base slope jump kink full) := by
  intro u v huv
  have hrest : 0 < full - kink := sub_pos.mpr hf
  unfold kinked
  split <;> rename_i hu <;> split <;> rename_i hv
  · exact add_le_add_right (ascent_mono hs hk huv) base
  · have hfirst : ascent slope kink u ≤ slope :=
      (ascent_mono hs hk hu).trans (ascent_width hk).le
    have hsecond : 0 ≤ ascent jump (full - kink) (v - kink) :=
      ascent_zero.ge.trans (ascent_mono hj hrest (by omega))
    omega
  · exact absurd (huv.trans hv) hu
  · exact add_le_add_right (ascent_mono hj hrest (by omega)) (base + slope)

end

end Foundations
