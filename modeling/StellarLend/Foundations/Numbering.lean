import Mathlib.Data.List.Nodup
import Mathlib.Data.List.Range
import Mathlib.Order.Basic
import Mathlib.Order.Nat
import StellarLend.Foundations.History

/-!
# Foundations/Numbering — a counter that hands out numbers, and takes them back

    next = 3 ──▸ hands out 3 ──▸ next = 4 ──▸ hands out nothing ──▸ next = 4 ──▸ …

A machine that numbers what it makes keeps a counter, and a step that makes something records the
number it took.  As long as the counter is past every number taken (`Advances`), the numbers taken
along a run rise, so none is taken twice.  A counter that stops at a last number hands out that one
for ever (`numbers`): what it hands out is all different exactly until then.

    issued 1, redeemed 1, issued 3, redeemed 3, …      counter: 4

One counter for each holder may both name the number to give out and the number to take back.  A
journal of what was given out and taken back is `Genuine` if whatever came back had gone out, and
`Spent` if the counters have passed all its numbers.  Numbers that the counters have not passed are
new to a spent journal (`Spent.nodup_append`); one that a counter stands at has not gone out, so
when it comes back the journal is not genuine (`Genuine.not_redeemed`).
-/

namespace Foundations

section

variable {σ τ : Type} {step : τ → σ → Option σ} {record : σ → τ → List ℕ} {next : σ → ℕ}
  {C : σ → τ → Prop}

/-- A step records rising numbers, from the counter on, and leaves the counter past them. -/
structure Advances (record : List ℕ) (before after : ℕ) : Prop where
  mono : before ≤ after
  rises : record.Pairwise (· < ·)
  within : ∀ i ∈ record, before ≤ i ∧ i < after

/-- A step that takes no number may leave the counter. -/
theorem Advances.nil {m n : ℕ} (h : m ≤ n) : Advances [] m n :=
  ⟨h, List.Pairwise.nil, by simp⟩

/-- A step may take the number the counter stands at. -/
theorem Advances.single {n m : ℕ} (h : n < m) : Advances [n] n m :=
  ⟨h.le, List.pairwise_singleton _ _, by simpa using h⟩

/-- Two stretches of numbers are one. -/
theorem Advances.append {xs ys : List ℕ} {l m n : ℕ} (hx : Advances xs l m) (hy : Advances ys m n) :
    Advances (xs ++ ys) l n where
  mono := hx.mono.trans hy.mono
  rises := List.pairwise_append.mpr ⟨hx.rises, hy.rises, fun i hi j hj =>
    lt_of_lt_of_le (hx.within i hi).2 (hy.within j hj).1⟩
  within i hi := by
    rcases List.mem_append.mp hi with hi | hi
    · exact ⟨(hx.within i hi).1, lt_of_lt_of_le (hx.within i hi).2 hy.mono⟩
    · exact ⟨hx.mono.trans (hy.within i hi).1, (hy.within i hi).2⟩

/-- Rising numbers are different. -/
theorem Advances.nodup {xs : List ℕ} {m n : ℕ} (h : Advances xs m n) : xs.Nodup :=
  h.rises.imp fun hlt => hlt.ne

/-- **If every step taken under a condition advances the counter, so does every run that meets
it.** -/
theorem Meets.advances {s : σ} {xs : List τ} (h : Meets step C s xs)
    (hstep : ∀ s x s', step x s = some s' → C s x →
      Advances (record s x) (next s) (next s')) :
    Advances (history step record s xs) (next s) (next (run step s xs)) := by
  have hrun : Advances ([] ++ history step record s xs) (next s) (next (run step s xs)) :=
    h.history_invariant (I := fun h t => Advances h (next s) (next t))
      (fun _ t x t' hx hC hh => hh.append (hstep t x t' hx hC)) (Advances.nil le_rfl)
  rwa [List.nil_append] at hrun

/-! ## A counter that stops -/

/-- What a counter hands out that starts at a number and stops at the last. -/
def numbers (last first n : ℕ) : List ℕ := (List.range n).map fun k => min (first + k) last

@[simp] theorem length_numbers (last first n : ℕ) : (numbers last first n).length = n := by
  simp [numbers]

theorem numbers_succ (last first n : ℕ) :
    numbers last first (n + 1) = numbers last first n ++ [min (first + n) last] := by
  simp [numbers, List.range_succ]

/-- **The numbers are different exactly until the counter has stopped.** -/
theorem numbers_nodup {last first n : ℕ} (hfirst : first ≤ last) :
    (numbers last first n).Nodup ↔ first + n ≤ last + 1 := by
  constructor
  · intro h
    by_contra hlong
    have hinj := List.inj_on_of_nodup_map h
    have hsame : last - first = last - first + 1 :=
      hinj (List.mem_range.mpr (by omega)) (List.mem_range.mpr (by omega)) (by omega)
    omega
  · intro hshort
    refine List.Nodup.map_on (fun i hi j hj hij => ?_) List.nodup_range
    rw [List.mem_range] at hi hj
    omega

/-- **The numbers are 0, 1, 2, … exactly until the counter has stopped.** -/
theorem numbers_eq_range {last n : ℕ} : numbers last 0 n = List.range n ↔ n ≤ last + 1 := by
  constructor
  · intro h
    have hnodup : (numbers last 0 n).Nodup := h ▸ List.nodup_range
    have hshort := (numbers_nodup (Nat.zero_le last)).mp hnodup
    omega
  · intro hshort
    refine (List.map_congr_left fun k hk => ?_).trans (List.map_id _)
    rw [List.mem_range] at hk
    simp only [id_eq]
    omega

/-- **A machine whose steps take the number the counter stands at, if any, takes these.** -/
theorem history_numbers {last : ℕ} (hstep : ∀ s x s', step x s = some s' →
      record s x = [] ∧ next s' = next s ∨
        record s x = [next s] ∧ next s' = min (next s + 1) last)
    {s : σ} (hs : next s ≤ last) (xs : List τ) :
    history step record s xs = numbers last (next s) (history step record s xs).length := by
  refine (history_invariant
    (I := fun h t => h = numbers last (next s) h.length ∧ next t = min (next s + h.length) last)
    (fun h t x t' hx hI => ?_) (h := []) xs ⟨rfl, (min_eq_left hs).symm⟩).1
  obtain ⟨hh, ht⟩ := hI
  obtain ⟨hnone, hnext⟩ | ⟨hone, hnext⟩ := hstep t x t' hx
  · rw [hnone, List.append_nil, hnext]
    exact ⟨hh, ht⟩
  · rw [hone, List.length_append, List.length_singleton, numbers_succ, ← hh, ← ht]
    exact ⟨rfl, by omega⟩

end

/-! ## Numbers that come back -/

section

/-- A number goes out to a holder, or comes back from one. -/
inductive Ticket (κ : Type) where
  | issued (holder : κ) (number : ℕ)
  | redeemed (holder : κ) (number : ℕ)
  deriving DecidableEq, Repr

namespace Ticket

variable {κ : Type}

def holder : Ticket κ → κ
  | issued k _ => k
  | redeemed k _ => k

def number : Ticket κ → ℕ
  | issued _ n => n
  | redeemed _ n => n

end Ticket

open Ticket

variable {κ : Type} {journal entries : List (Ticket κ)} {next next' : κ → ℕ} {k : κ} {n : ℕ}

/-- Whatever came back had gone out before. -/
def Genuine (journal : List (Ticket κ)) : Prop :=
  ∀ past rest k n, journal = past ++ redeemed k n :: rest → issued k n ∈ past

/-- Every number of the journal is below the holder's counter. -/
def Spent (next : κ → ℕ) (journal : List (Ticket κ)) : Prop :=
  ∀ ticket ∈ journal, ticket.number < next ticket.holder

theorem Genuine.nil : Genuine ([] : List (Ticket κ)) := by
  intro past rest k n h
  simp at h

theorem Spent.nil : Spent next ([] : List (Ticket κ)) := by simp [Spent]

theorem Genuine.left (h : Genuine (journal ++ entries)) : Genuine journal := by
  rintro past rest k n rfl
  exact h past (rest ++ entries) k n (by simp)

/-- **A number goes out and comes back at once.** -/
theorem Genuine.exchange (h : Genuine journal) (k : κ) (n : ℕ) :
    Genuine (journal ++ [issued k n, redeemed k n]) := by
  intro past rest k' n' heq
  obtain ⟨middle, hpast, htail⟩ | ⟨middle, hjournal, hrest⟩ := List.append_eq_append_iff.mp heq
  · -- What came back is one of the two new entries.
    cases middle with
    | nil => simp at htail
    | cons first middle =>
      simp only [List.cons_append, List.cons.injEq] at htail
      obtain ⟨rfl, hsecond⟩ := htail
      cases middle with
      | nil =>
        simp only [List.nil_append, List.cons.injEq, redeemed.injEq] at hsecond
        obtain ⟨⟨rfl, rfl⟩, -⟩ := hsecond
        simp [hpast]
      | cons second middle => simp at hsecond
  · cases middle with
    | nil => simp at hrest
    | cons first middle =>
      simp only [List.cons_append, List.cons.injEq] at hrest
      obtain ⟨rfl, -⟩ := hrest
      exact h past middle k' n' hjournal

/-- **What comes back at the counter's number had not gone out.** -/
theorem Genuine.not_redeemed (hspent : Spent next journal) (k : κ) :
    ¬ Genuine (journal ++ [redeemed k (next k)]) := by
  intro h
  exact absurd (hspent _ (h journal [] k (next k) rfl)) (lt_irrefl _)

/-- The counters go up. -/
theorem Spent.mono (h : Spent next journal) (hnext : ∀ k, next k ≤ next' k) :
    Spent next' journal := fun ticket hticket => (h ticket hticket).trans_le (hnext _)

theorem Spent.append (h : Spent next journal) (hentries : Spent next entries) :
    Spent next (journal ++ entries) := by
  intro ticket hticket
  exact (List.mem_append.mp hticket).elim (h ticket) (hentries ticket)

/-- **Numbers not below the counters are new to the journal.** -/
theorem Spent.nodup_append (h : Spent next journal) (hjournal : journal.Nodup)
    (hentries : entries.Nodup) (hnew : ∀ ticket ∈ entries, next ticket.holder ≤ ticket.number) :
    (journal ++ entries).Nodup := by
  refine List.nodup_append'.mpr ⟨hjournal, hentries, fun ticket hold hticket => ?_⟩
  exact absurd (h ticket hold) (not_lt.mpr (hnew ticket hticket))

end

end Foundations
