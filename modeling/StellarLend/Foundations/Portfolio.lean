import StellarLend.Foundations.Total
import Mathlib.Algebra.BigOperators.Group.Finset.Basic

/-!
# Foundations/Portfolio — one balance kept in total and by key

    total  =  share none  +  Σ held a over the listed keys

A portfolio keeps a total, the part of it held under each key, and a list of the keys that hold
anything; what is held under no key is recorded nowhere but as the rest of the total (`share none`).
As long as a movement takes no more than the share it names, the three records stay in step
(`Sound.put`, `Sound.take`) and a movement changes the share it names and no other.
-/

namespace Foundations

/-- A balance in total and by key, over a list of keys. -/
structure Portfolio (α : Type*) where
  total : ℤ
  keys : List α
  held : α → ℤ

namespace Portfolio

variable {α : Type*} {p q : Portfolio α} {n : ℤ}

/-- What the listed keys hold together. -/
def listed (p : Portfolio α) : ℤ := (p.keys.map p.held).sum

/-- What is held under a key, or under none. -/
def share (p : Portfolio α) : Option α → ℤ
  | none => p.total - p.listed
  | some a => p.held a

/-! ## The list of keys -/

/-- The list names every key that holds anything, and names it once. -/
structure Listed (p : Portfolio α) : Prop where
  nodup : p.keys.Nodup
  support : ∀ a ∉ p.keys, p.held a = 0

theorem Listed.totals (h : p.Listed) : TotalsTo p.held p.listed := by
  classical
  refine ⟨p.keys.toFinset, fun a ha => h.support a (by simpa using ha), ?_⟩
  exact List.sum_toFinset p.held h.nodup

/-- One key's holding changes, and what the listed keys hold by as much. -/
theorem Listed.listed_change (hp : p.Listed) (hq : q.Listed) {a : α}
    (h : ∀ b, b ≠ a → q.held b = p.held b) : q.listed = p.listed + (q.held a - p.held a) :=
  hq.totals.unique (hp.totals.change a h)

/-! ## Soundness -/

/-- A portfolio whose list is right and none of whose shares is negative. -/
structure Sound (p : Portfolio α) : Prop extends p.Listed where
  share_nonneg : ∀ key, 0 ≤ p.share key

theorem Sound.empty : (⟨0, [], fun _ => 0⟩ : Portfolio α).Sound where
  nodup := List.nodup_nil
  support _ _ := rfl
  share_nonneg key := by cases key <;> exact le_rfl

/-- No share is more than the total. -/
theorem Sound.share_le (h : p.Sound) (key : Option α) : p.share key ≤ p.total := by
  have hheld : ∀ a, 0 ≤ p.held a := fun a => h.share_nonneg (some a)
  have hrest : 0 ≤ p.total - p.listed := h.share_nonneg none
  cases key with
  | none =>
    have := h.toListed.totals.nonneg hheld
    rw [share]
    omega
  | some a =>
    have := h.toListed.totals.le_of_nonneg hheld a
    rw [share]
    omega

/-! ## Movements -/

variable [DecidableEq α]

/-- The list with a key on it. -/
def enlist (a : α) (keys : List α) : List α := if a ∈ keys then keys else keys ++ [a]

/-- Add to a share. -/
def put (key : Option α) (n : ℤ) (p : Portfolio α) : Portfolio α :=
  match key with
  | none => { p with total := p.total + n }
  | some a => ⟨p.total + n, enlist a p.keys, Function.update p.held a (p.held a + n)⟩

/-- Take from a share; a key that holds nothing leaves the list. -/
def take (key : Option α) (n : ℤ) (p : Portfolio α) : Portfolio α :=
  match key with
  | none => { p with total := p.total - n }
  | some a => ⟨p.total - n, if p.held a - n = 0 then p.keys.filter (· ≠ a) else p.keys,
      Function.update p.held a (p.held a - n)⟩

theorem share_take_self (key : Option α) (n : ℤ) (p : Portfolio α) :
    (p.take key n).share key = p.share key - n := by
  cases key with
  | none =>
    simp only [take, share, listed]
    omega
  | some a => simp [take, share]

theorem mem_enlist {a b : α} {keys : List α} : b ∈ enlist a keys ↔ b ∈ keys ∨ b = a := by
  unfold enlist
  split
  · next ha =>
    refine ⟨.inl, ?_⟩
    rintro (hb | rfl)
    · exact hb
    · exact ha
  · rw [List.mem_append, List.mem_singleton]

theorem nodup_enlist {a : α} {keys : List α} (h : keys.Nodup) : (enlist a keys).Nodup := by
  unfold enlist
  split
  · exact h
  · next ha =>
    refine List.nodup_append.mpr ⟨h, List.nodup_singleton a, fun b hb c hc hbc => ha ?_⟩
    rwa [← List.mem_singleton.mp hc, ← hbc]

theorem Listed.put (h : p.Listed) (key : Option α) (n : ℤ) : (p.put key n).Listed := by
  cases key with
  | none => exact ⟨h.nodup, h.support⟩
  | some a =>
    refine ⟨nodup_enlist h.nodup, fun b hb => ?_⟩
    obtain ⟨hkeys, hne⟩ := not_or.mp (mt mem_enlist.mpr hb)
    exact (Function.update_of_ne hne ..).trans (h.support b hkeys)

theorem Listed.take (h : p.Listed) {key : Option α} (hn : 0 ≤ n) (hle : n ≤ p.share key) :
    (p.take key n).Listed := by
  cases key with
  | none => exact ⟨h.nodup, h.support⟩
  | some a =>
    by_cases hgone : p.held a - n = 0
    · simp only [Portfolio.take, if_pos hgone]
      refine ⟨h.nodup.filter _, fun b hb => ?_⟩
      by_cases hba : b = a
      · rw [hba]
        exact (Function.update_self ..).trans hgone
      · refine (Function.update_of_ne hba ..).trans (h.support b fun hkeys => hb ?_)
        exact List.mem_filter.mpr ⟨hkeys, decide_eq_true hba⟩
    · simp only [Portfolio.take, if_neg hgone]
      refine ⟨h.nodup, fun b hb => ?_⟩
      by_cases hba : b = a
      · have hzero : p.held a = 0 := h.support a (hba ▸ hb)
        have hle : n ≤ p.held a := hle
        omega
      · exact (Function.update_of_ne hba ..).trans (h.support b hb)

/-- **A movement changes the share it names and no other.** -/
theorem share_move (hp : p.Listed) (hq : q.Listed) {key : Option α}
    (htotal : q.total = p.total + n)
    (hheld : q.held = match key with
      | none => p.held
      | some a => Function.update p.held a (p.held a + n)) (j : Option α) :
    q.share j = p.share j + if j = key then n else 0 := by
  have hlisted : q.listed = p.listed + if key = none then 0 else n := by
    cases key with
    | none => rw [hq.totals.unique (hp.totals.congr (congrFun hheld)), if_pos rfl, add_zero]
    | some a =>
      have hoff : ∀ b, b ≠ a → q.held b = p.held b := fun b hb => by
        rw [hheld]
        exact Function.update_of_ne hb ..
      have hon : q.held a = p.held a + n := by
        rw [hheld]
        exact Function.update_self ..
      rw [hp.listed_change hq hoff, hon, if_neg (Option.some_ne_none a)]
      omega
  cases j with
  | none =>
    rw [share, share, htotal, hlisted]
    cases key <;> simp
    omega
  | some b =>
    rw [share, share, hheld]
    cases key with
    | none => simp
    | some a =>
      by_cases hba : b = a
      · rw [hba]
        simp
      · simp [hba]

theorem share_put (h : p.Listed) (key j : Option α) :
    (p.put key n).share j = p.share j + if j = key then n else 0 := by
  refine share_move h (h.put key n) ?_ ?_ j
  · cases key <;> rfl
  · cases key <;> rfl

theorem share_take (h : p.Listed) {key : Option α} (hn : 0 ≤ n) (hle : n ≤ p.share key)
    (j : Option α) : (p.take key n).share j = p.share j - if j = key then n else 0 := by
  have hmove : (p.take key n).share j = p.share j + if j = key then -n else 0 :=
    share_move h (h.take hn hle) (by cases key <;> rfl) (by cases key <;> rfl) j
  rw [hmove]
  split <;> omega

/-- **Adding to a share keeps a portfolio sound.** -/
theorem Sound.put (h : p.Sound) (key : Option α) (hn : 0 ≤ n) : (p.put key n).Sound := by
  refine ⟨h.toListed.put key n, fun j => ?_⟩
  have hj := h.share_nonneg j
  rw [share_put h.toListed]
  split <;> omega

/-- **So does taking no more than there is.** -/
theorem Sound.take (h : p.Sound) {key : Option α} (hn : 0 ≤ n) (hle : n ≤ p.share key) :
    (p.take key n).Sound := by
  refine ⟨h.toListed.take hn hle, fun j => ?_⟩
  have hj := h.share_nonneg j
  rw [share_take h.toListed hn hle]
  split
  · next hkey =>
    rw [hkey]
    omega
  · omega

end Portfolio

end Foundations
