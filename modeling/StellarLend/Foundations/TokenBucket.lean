import Mathlib.Algebra.Order.Ring.Int
import Mathlib.Data.List.TakeWhile
import Mathlib.Tactic.Linarith
import Mathlib.Tactic.Ring
import StellarLend.Foundations.Run

/-!
# Foundations/TokenBucket — a bucket that fills at a rate and is drawn on by the unit

    level ≤ cap ──draw──▸ level − unit ──time──▸ min (level + rate · dt) cap ──draw──▸ …

The level is brought up to date lazily, when a unit is drawn.  What a bucket can still give until a
window closes (`potential`) pays for every draw in the window, and is `cap + rate · length` at the
most when it opens: that bounds the draws of every window of a run whose clock does not go back.
-/

namespace Foundations

/-- A bucket: its level and when it was last brought up to date. -/
structure Bucket where
  level : ℤ
  since : ℕ

variable {rate cap unit : ℤ} {now opens closes : ℕ} {before : Option Bucket} {after : Bucket}

/-- A bucket is neither overdrawn nor overfull. -/
def Fits (cap : ℤ) (bucket : Option Bucket) : Prop :=
  ∀ b ∈ bucket, 0 ≤ b.level ∧ b.level ≤ cap

/-- A unit is drawn: from a full bucket if there is none yet, else from what the old one has gained
since, up to the cap. -/
structure Draw (rate cap unit : ℤ) (now : ℕ) (before : Option Bucket) (after : Bucket) : Prop where
  nonneg : 0 ≤ after.level
  le_cap : after.level + unit ≤ cap
  le_gain : ∀ b ∈ before, after.level + unit ≤ b.level + rate * (now - b.since : ℕ)
  since_eq : after.since = before.elim now fun b => max now b.since

theorem Draw.fits (h : Draw rate cap unit now before after) (hunit : 0 ≤ unit) :
    Fits cap (some after) := by
  rintro b ⟨⟩
  have hle := h.le_cap
  exact ⟨h.nonneg, by omega⟩

/-- What a bucket can give in a window. -/
def potential (rate cap : ℤ) (opens closes : ℕ) : Option Bucket → ℤ
  | none => cap + rate * (closes - opens : ℕ)
  | some b =>
    if b.since < opens then cap + rate * (closes - opens : ℕ)
    else b.level + rate * (closes - b.since : ℕ)

theorem potential_some (rate cap : ℤ) (opens closes : ℕ) (b : Bucket) :
    potential rate cap opens closes (some b) =
      if b.since < opens then cap + rate * (closes - opens : ℕ)
      else b.level + rate * (closes - b.since : ℕ) := rfl

theorem potential_le (opens closes : ℕ) (hrate : 0 ≤ rate) (h : Fits cap before) :
    potential rate cap opens closes before ≤ cap + rate * (closes - opens : ℕ) := by
  rcases before with _ | b
  · exact le_rfl
  rw [potential_some]
  split
  · exact le_rfl
  next hsince =>
    have hshort : (closes - b.since : ℕ) ≤ (closes - opens : ℕ) := by omega
    have hgain := mul_le_mul_of_nonneg_left (Int.ofNat_le.mpr hshort) hrate
    exact add_le_add (h b rfl).2 hgain

theorem potential_nonneg (opens closes : ℕ) (hrate : 0 ≤ rate) (hcap : 0 ≤ cap)
    (h : Fits cap before) : 0 ≤ potential rate cap opens closes before := by
  have hgain (n : ℕ) : 0 ≤ rate * (n : ℤ) := mul_nonneg hrate (Int.natCast_nonneg n)
  rcases before with _ | b
  · exact add_nonneg hcap (hgain _)
  rw [potential_some]
  split
  · exact add_nonneg hcap (hgain _)
  · exact add_nonneg (h b rfl).1 (hgain _)

/-- **A draw within the window is paid for by the potential.** -/
theorem Draw.potential_le (h : Draw rate cap unit now before after) (hrate : 0 ≤ rate)
    (hopens : opens ≤ now) (hcloses : now ≤ closes) :
    potential rate cap opens closes (some after) + unit ≤
      potential rate cap opens closes before := by
  have hlater : opens ≤ after.since := by
    rw [h.since_eq]
    rcases before with _ | b
    · exact hopens
    · exact hopens.trans (le_max_left _ _)
  have hafter : potential rate cap opens closes (some after) =
      after.level + rate * (closes - after.since : ℕ) := if_neg (by omega)
  have hfull : potential rate cap opens closes (some after) + unit ≤
      cap + rate * (closes - opens : ℕ) := by
    have hshort : (closes - after.since : ℕ) ≤ (closes - opens : ℕ) := by omega
    have hgain := mul_le_mul_of_nonneg_left (Int.ofNat_le.mpr hshort) hrate
    have hle := h.le_cap
    rw [hafter]
    linarith
  rcases before with _ | b
  · exact hfull
  rw [potential_some rate cap opens closes b]
  split
  · exact hfull
  next hsince =>
    have hsplit : (now - b.since : ℕ) + (closes - after.since : ℕ) ≤ (closes - b.since : ℕ) := by
      have hmax : after.since = max now b.since := h.since_eq
      omega
    have hgain := mul_le_mul_of_nonneg_left (Int.ofNat_le.mpr hsplit) hrate
    rw [Nat.cast_add, mul_add] at hgain
    have hle := h.le_gain b rfl
    rw [hafter]
    linarith

/-! ## Windows of a run -/

section Window

variable {σ τ : Type} {step : τ → σ → Option σ} {time : τ → ℕ} {s : σ} {xs : List τ}

/-- What happens before, in and after a window, when the clock does not go back. -/
theorem exists_window (opens closes : ℕ) (h : xs.Pairwise fun x y => time x ≤ time y) :
    ∃ ys zs ws, xs = ys ++ zs ++ ws ∧ (∀ y ∈ ys, time y < opens) ∧
      (∀ z ∈ zs, opens ≤ time z ∧ time z ≤ closes) ∧
      ∀ w ∈ ws, ¬ (opens ≤ time w ∧ time w ≤ closes) := by
  induction xs with
  | nil => exact ⟨[], [], [], rfl, by simp, by simp, by simp⟩
  | cons x xs ih =>
    obtain ⟨hx, hxs⟩ := List.pairwise_cons.mp h
    obtain ⟨ys, zs, ws, rfl, hys, hzs, hws⟩ := ih hxs
    rcases lt_or_ge (time x) opens with hbefore | hopened
    · exact ⟨x :: ys, zs, ws, rfl, List.forall_mem_cons.mpr ⟨hbefore, hys⟩, hzs, hws⟩
    have hnone : ys = [] := List.eq_nil_iff_forall_not_mem.mpr fun y hy =>
      absurd (hx y (by simp [hy])) (by have := hys y hy; omega)
    subst hnone
    rcases le_or_gt (time x) closes with hin | hlate
    · exact ⟨[], x :: zs, ws, rfl, by simp, List.forall_mem_cons.mpr ⟨⟨hopened, hin⟩, hzs⟩, hws⟩
    · refine ⟨[], [], x :: (zs ++ ws), by simp, by simp, by simp, ?_⟩
      refine List.forall_mem_cons.mpr ⟨by omega, fun w hw => ?_⟩
      have hle := hx w (by simpa using hw)
      omega

/-- A sum over steps of which none counts. -/
theorem tally_eq_zero {f : σ → τ → ℕ} (h : ∀ x ∈ xs, ∀ s, f s x = 0) : tally step f s xs = 0 := by
  induction xs generalizing s with
  | nil => rfl
  | cons x xs ih =>
    rw [tally_cons, h x (by simp), ih fun y hy => h y (by simp [hy]), ite_self, zero_add]

variable {C : σ → τ → Prop} {I : σ → Prop}

/-- How many steps of a window draw on the bucket. -/
def drawn (step : τ → σ → Option σ) (time : τ → ℕ) (draws : σ → τ → Bool) (opens closes : ℕ) (s : σ)
    (xs : List τ) : ℕ :=
  tally step (fun s x =>
    if draws s x = true ∧ opens ≤ time x ∧ time x ≤ closes then 1 else 0) s xs

/-- **In every window of a run whose clock does not go back, the draws take no more than the cap and
what is gained in the length of the window.** -/
theorem Meets.drawn_le (time : τ → ℕ) (bucket : σ → Option Bucket) (draws : σ → τ → Bool)
    (opens closes : ℕ) (hrate : 0 ≤ rate) (hcap : 0 ≤ cap) (hunit : 0 ≤ unit)
    (hstep : ∀ s x s', step x s = some s' → C s x → I s → Fits cap (bucket s) → I s' ∧
      if draws s x then ∃ b, bucket s' = some b ∧ Draw rate cap unit (time x) (bucket s) b
      else bucket s' = bucket s)
    (h : Meets step C s xs) (hs : I s) (hfits : Fits cap (bucket s))
    (hclock : xs.Pairwise fun x y => time x ≤ time y) :
    unit * drawn step time draws opens closes s xs ≤ cap + rate * (closes - opens : ℕ) := by
  have hkeep : ∀ s x s', step x s = some s' → C s x → I s ∧ Fits cap (bucket s) →
      I s' ∧ Fits cap (bucket s') := by
    rintro s x s' hx hC ⟨hI, hfits⟩
    obtain ⟨hI', hdraw⟩ := hstep s x s' hx hC hI hfits
    refine ⟨hI', ?_⟩
    split at hdraw
    · obtain ⟨b, hb, hdraw⟩ := hdraw
      rw [hb]
      exact hdraw.fits hunit
    · rwa [hdraw]
  obtain ⟨ys, zs, ws, rfl, hys, hzs, hws⟩ := exists_window opens closes hclock
  rw [meets_append, meets_append] at h
  obtain ⟨hI, hopen⟩ := h.1.1.invariant hkeep ⟨hs, hfits⟩
  have hbefore : drawn step time draws opens closes s ys = 0 :=
    tally_eq_zero fun y hy _ => if_neg fun hin => by have := hys y hy; omega
  have hafter (t : σ) : drawn step time draws opens closes t ws = 0 :=
    tally_eq_zero fun w hw _ => if_neg fun hin => hws w hw hin.2
  rw [drawn, tally_append, tally_append]
  change unit * ((drawn .. + drawn .. + drawn .. : ℕ) : ℤ) ≤ _
  rw [hbefore, hafter, zero_add, add_zero]
  generalize run step s ys = t at *
  have hall := h.1.2.and (meets_of_forall (C := fun _ z => opens ≤ time z ∧ time z ≤ closes)
    fun z hz _ => hzs z hz)
  have hpaid := hall.tally_invariant (m := 0)
    (f := fun s x => if draws s x = true ∧ opens ≤ time x ∧ time x ≤ closes then 1 else 0)
    (I := fun m u => (I u ∧ Fits cap (bucket u)) ∧
      unit * (m : ℕ) + potential rate cap opens closes (bucket u) ≤
        potential rate cap opens closes (bucket t)) ?_ ⟨⟨hI, hopen⟩, by simp⟩
  · have hrest := potential_nonneg opens closes hrate hcap hpaid.1.2
    have hfirst := potential_le opens closes hrate hopen
    have htotal := hpaid.2
    rw [zero_add] at htotal
    exact le_trans (le_of_add_le_of_nonneg_left htotal hrest) hfirst
  · rintro m u x u' hx ⟨hC, hwindow⟩ ⟨hu, hm⟩
    refine ⟨hkeep u x u' hx hC hu, ?_⟩
    obtain ⟨-, hdraw⟩ := hstep u x u' hx hC hu.1 hu.2
    by_cases hdraws : draws u x = true
    · rw [if_pos hdraws] at hdraw
      obtain ⟨b, hb, hdraw⟩ := hdraw
      have hpay := hdraw.potential_le hrate hwindow.1 hwindow.2
      rw [if_pos ⟨hdraws, hwindow⟩, hb, Nat.cast_add, Nat.cast_one, mul_add, mul_one]
      linarith
    · rw [if_neg hdraws] at hdraw
      rw [if_neg fun hin => hdraws hin.1, hdraw, add_zero]
      exact hm

end Window

end Foundations
