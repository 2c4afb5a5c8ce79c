import Mathlib.Algebra.Ring.Nat
import Mathlib.Data.List.Basic

/-!
# Foundations/HashTree — binary trees of digests built level by level

The nodes of a level are combined in neighbouring pairs, and an unpaired last node with itself,
until one node is left.  The way up from a node is recorded as the neighbours it meets; a node
without a neighbour records nothing.  Climbing with the record repeats the combinations.

* `climb_siblings` — where every node on the way has a neighbour, the climb ends at the top.
* `paired_of_climb` — where one has none, it ends elsewhere, if combining is one-way: the climb
  then skips a combination that the tree made, and `Strays` says why it never comes back.
-/

namespace Foundations.HashTree

variable {α : Type} {xs : List α} {k : ℕ}

/-! ## Levels -/

/-- The pairs that a level is combined in. -/
def pairs : List α → List (α × α)
  | [] => []
  | [x] => [(x, x)]
  | x :: y :: xs => (x, y) :: pairs xs

theorem length_pairs : ∀ xs : List α, (pairs xs).length = (xs.length + 1) / 2
  | [] => by simp [pairs]
  | [_] => by simp [pairs]
  | _ :: _ :: xs => by
    simp only [pairs, List.length_cons, length_pairs xs]
    omega

theorem getElem?_pairs : ∀ (xs : List α) (j : ℕ),
    (pairs xs)[j]? = xs[2 * j]?.map fun x => (x, xs[2 * j + 1]?.getD x)
  | [], j => by simp [pairs]
  | [x], 0 => rfl
  | [x], j + 1 => by simp [pairs, Nat.mul_succ]
  | x :: y :: xs, 0 => rfl
  | x :: y :: xs, j + 1 => by simpa [pairs, Nat.mul_succ] using getElem?_pairs xs j

section Levels

variable (combine : α → α → α)

/-- The level above. -/
def pairUp (xs : List α) : List α := (pairs xs).map fun p => combine p.1 p.2

/-- The levels above a level, up to the one that is a single node. -/
def above : ℕ → List α → List (List α)
  | 0, _ => []
  | k + 1, xs => if 1 < xs.length then pairUp combine xs :: above k (pairUp combine xs) else []

/-- All levels, from the leaves up; each is at most half as long as the one before, rounded up. -/
def levels (xs : List α) : List (List α) := xs :: above combine xs.length xs

/-- The pairs combined on the way to the top. -/
def built : ℕ → List α → List (α × α)
  | 0, _ => []
  | k + 1, xs => if 1 < xs.length then pairs xs ++ built k (pairUp combine xs) else []

/-- The node that a stack of levels ends in. -/
def top (xs : List α) (rest : List (List α)) : Option α := (rest.getLastD xs).head?

variable {combine}

@[simp] theorem length_pairUp (xs : List α) :
    (pairUp combine xs).length = (xs.length + 1) / 2 := by
  rw [pairUp, List.length_map, length_pairs]

@[simp] theorem top_nil (xs : List α) : top xs [] = xs.head? := rfl

@[simp] theorem top_cons (xs ys : List α) (rest : List (List α)) :
    top xs (ys :: rest) = top ys rest := by
  cases rest <;> rfl

theorem above_succ (hlen : 1 < xs.length) :
    above combine (k + 1) xs = pairUp combine xs :: above combine k (pairUp combine xs) :=
  if_pos hlen

theorem above_of_le (h : xs.length ≤ 1) : above combine k xs = [] := by
  cases k with
  | zero => rfl
  | succ k => exact if_neg (by omega)

theorem built_succ (hlen : 1 < xs.length) :
    built combine (k + 1) xs = pairs xs ++ built combine k (pairUp combine xs) := if_pos hlen

/-- The level above still fits the steps that are left. -/
theorem length_pairUp_le (hk : xs.length ≤ k + 2) :
    (pairUp combine xs).length ≤ k + 1 := by
  rw [length_pairUp]
  omega

/-- **The levels end in one node.** -/
theorem isSome_top : ∀ {k : ℕ} {xs : List α}, xs ≠ [] → xs.length ≤ k + 1 →
    (top xs (above combine k xs)).isSome
  | _, [], hne, _ => absurd rfl hne
  | _, [_], _, _ => by rw [above_of_le (by simp)]; rfl
  | 0, _ :: _ :: _, _, hk => by simp at hk
  | k + 1, x :: y :: xs, _, hk => by
    have hlen : 1 < (x :: y :: xs).length := by simp
    rw [above_succ hlen, top_cons]
    refine isSome_top (fun hnil => ?_) (length_pairUp_le hk)
    have hzero : (pairUp combine (x :: y :: xs)).length = 0 := by rw [hnil]; rfl
    rw [length_pairUp] at hzero
    omega

end Levels

/-! ## The way up -/

/-- The other node of a node's pair. -/
def neighbour (i : ℕ) : ℕ := if i % 2 = 0 then i + 1 else i - 1

/-- The neighbours met on the way up from a node, each with whether it stands on the left. -/
def siblings : List α → List (List α) → ℕ → List (Bool × α)
  | _, [], _ => []
  | xs, ys :: rest, i =>
    (xs[neighbour i]?.map fun s => (decide (i % 2 = 1), s)).toList ++ siblings ys rest (i / 2)

section Climb

variable (combine : α → α → α)

/-- A node combined with a neighbour. -/
def join (x : α) (s : Bool × α) : α := if s.1 then combine s.2 x else combine x s.2

/-- The climb from a node with a record of neighbours. -/
def climb (x : α) (ss : List (Bool × α)) : α := ss.foldl (join combine) x

/-- The pair that is combined when a node is joined with a neighbour. -/
def joined (x : α) (s : Bool × α) : α × α := if s.1 then (s.2, x) else (x, s.2)

/-- The pairs combined by a climb. -/
def climbed : α → List (Bool × α) → List (α × α)
  | _, [] => []
  | x, s :: ss => joined x s :: climbed (join combine x s) ss

variable {combine}

@[simp] theorem climb_cons (x : α) (s : Bool × α) (ss : List (Bool × α)) :
    climb combine x (s :: ss) = climb combine (join combine x s) ss := rfl

variable (combine) in
/-- Joining a node with its neighbour gives the node above the two, and the level's pairs hold
them. -/
theorem pairUp_of_neighbour {i : ℕ} {x s : α} (hx : xs[i]? = some x)
    (hs : xs[neighbour i]? = some s) :
    (pairUp combine xs)[i / 2]? = some (join combine x (decide (i % 2 = 1), s)) ∧
      joined x (decide (i % 2 = 1), s) ∈ pairs xs := by
  have hpair : (pairs xs)[i / 2]? = some (joined x (decide (i % 2 = 1), s)) := by
    rw [getElem?_pairs]
    rcases Nat.mod_two_eq_zero_or_one i with heven | hodd
    · have hi : 2 * (i / 2) = i := by omega
      rw [neighbour, if_pos heven] at hs
      simp [hi, hx, hs, joined, heven]
    · have hi : 2 * (i / 2) + 1 = i := by omega
      have hl : 2 * (i / 2) = i - 1 := by omega
      rw [neighbour, if_neg (by omega)] at hs
      rw [hi, hl, hx, hs]
      simp [joined, hodd]
  refine ⟨?_, List.mem_of_getElem? hpair⟩
  rw [pairUp, List.getElem?_map, hpair, Option.map_some, join, joined]
  split <;> rfl

variable (combine) in
/-- A node without a neighbour is the last one, and is combined with itself. -/
theorem pairUp_of_unpaired {i : ℕ} {x : α} (hx : xs[i]? = some x) (hs : xs[neighbour i]? = none) :
    (pairUp combine xs)[i / 2]? = some (combine x x) ∧ (x, x) ∈ pairs xs := by
  have hi : i < xs.length := (List.getElem?_eq_some_iff.mp hx).1
  have hn : xs.length ≤ neighbour i := List.getElem?_eq_none_iff.mp hs
  have hpair : (pairs xs)[i / 2]? = some (x, x) := by
    rw [getElem?_pairs]
    rcases Nat.mod_two_eq_zero_or_one i with heven | hodd
    · rw [neighbour, if_pos heven] at hn hs
      have hi2 : 2 * (i / 2) = i := by omega
      simp [hi2, hx, hs]
    · rw [neighbour, if_neg (by omega)] at hn
      omega
  refine ⟨?_, List.mem_of_getElem? hpair⟩
  rw [pairUp, List.getElem?_map, hpair, Option.map_some]

end Climb

/-! ## Nodes without a neighbour -/

/-- The number of nodes on a level of a tree with `n` leaves. -/
def width (n : ℕ) : ℕ → ℕ
  | 0 => n
  | k + 1 => (width n k + 1) / 2

/-- Each node on the way up from leaf `i` of `n` has a neighbour on its level, the top apart. -/
def Paired (n i : ℕ) : Prop := ∀ k, 1 < width n k → neighbour (i / 2 ^ k) < width n k

theorem width_half (n : ℕ) : ∀ k, width ((n + 1) / 2) k = width n (k + 1)
  | 0 => rfl
  | k + 1 => congrArg (fun w => (w + 1) / 2) (width_half n k)

theorem width_le_one {n : ℕ} (h : n ≤ 1) : ∀ k, width n k ≤ 1
  | 0 => h
  | k + 1 => by
    have hk := width_le_one h k
    rw [width]
    omega

theorem paired_of_le {n i : ℕ} (h : n ≤ 1) : Paired n i :=
  fun k hk => absurd (width_le_one h k) (by omega)

/-- The way up goes on from the level above. -/
theorem paired_iff {n i : ℕ} (h : 1 < n) :
    Paired n i ↔ neighbour i < n ∧ Paired ((n + 1) / 2) (i / 2) := by
  constructor
  · refine fun hp => ⟨by simpa [width] using hp 0 h, fun k hk => ?_⟩
    rw [width_half] at hk ⊢
    rw [Nat.div_div_eq_div_mul, ← Nat.pow_succ']
    exact hp (k + 1) hk
  · rintro ⟨hn, hp⟩ k hk
    cases k with
    | zero => simpa [width] using hn
    | succ k =>
      rw [← width_half] at hk ⊢
      rw [Nat.pow_succ', ← Nat.div_div_eq_div_mul]
      exact hp k hk

/-- Where the number of leaves is a power of two, no node lacks a neighbour. -/
theorem paired_pow_two : ∀ {d i : ℕ}, i < 2 ^ d → Paired (2 ^ d) i
  | 0, _, _ => paired_of_le le_rfl
  | d + 1, i, hi => by
    have hpow : 2 ^ (d + 1) = 2 * 2 ^ d := Nat.pow_succ'
    have hpos : 0 < 2 ^ d := Nat.two_pow_pos d
    have hn : neighbour i < 2 ^ (d + 1) := by
      rw [neighbour]
      split <;> omega
    refine (paired_iff (by omega)).mpr ⟨hn, ?_⟩
    rw [show (2 ^ (d + 1) + 1) / 2 = 2 ^ d by omega]
    exact paired_pow_two (by omega)

/-- The last leaf has neighbours all the way up only then. -/
theorem pow_two_of_paired_last {n : ℕ} (hn : 0 < n) (h : Paired n (n - 1)) : ∃ d, n = 2 ^ d := by
  induction n using Nat.strong_induction_on with
  | _ n ih =>
    rcases Nat.lt_or_ge 1 n with hlt | hle
    · obtain ⟨hnb, hup⟩ := (paired_iff hlt).mp h
      have heven : n % 2 = 0 := by
        rw [neighbour] at hnb
        split at hnb <;> omega
      rw [show (n + 1) / 2 = n / 2 by omega, show (n - 1) / 2 = n / 2 - 1 by omega] at hup
      obtain ⟨d, hd⟩ := ih (n / 2) (by omega) (by omega) hup
      exact ⟨d + 1, by rw [Nat.pow_succ]; omega⟩
    · exact ⟨0, by rw [Nat.pow_zero]; omega⟩

/-- **All leaves have neighbours all the way up exactly if their number is a power of two.** -/
theorem forall_paired_iff {n : ℕ} (hn : 0 < n) : (∀ i < n, Paired n i) ↔ ∃ d, n = 2 ^ d := by
  constructor
  · exact fun h => pow_two_of_paired_last hn (h (n - 1) (by omega))
  · rintro ⟨d, rfl⟩ i hi
    exact paired_pow_two hi

/-! ## Climbing -/

section Top

variable {combine : α → α → α}

theorem siblings_cons_of_some {ys : List α} {rest : List (List α)} {i : ℕ} {s : α}
    (hs : xs[neighbour i]? = some s) : siblings xs (ys :: rest) i =
      (decide (i % 2 = 1), s) :: siblings ys rest (i / 2) := by
  simp [siblings, hs]

theorem siblings_cons_of_none {ys : List α} {rest : List (List α)} {i : ℕ}
    (hs : xs[neighbour i]? = none) :
    siblings xs (ys :: rest) i = siblings ys rest (i / 2) := by
  simp [siblings, hs]

/-- Where one node is left, the way up is over. -/
theorem top_of_le {i : ℕ} {x : α} (hx : xs[i]? = some x) (hlen : xs.length ≤ 1) :
    top xs (above combine k xs) = some x := by
  have hi : i < xs.length := (List.getElem?_eq_some_iff.mp hx).1
  obtain rfl : i = 0 := by omega
  rw [above_of_le hlen, top_nil, List.head?_eq_getElem?, hx]

/-- **A climb along which every node has a neighbour ends at the top.** -/
theorem climb_siblings : ∀ {k : ℕ} {xs : List α} {i : ℕ} {x : α}, xs[i]? = some x →
    xs.length ≤ k + 1 → Paired xs.length i →
      top xs (above combine k xs) = some (climb combine x (siblings xs (above combine k xs) i))
  | 0, xs, i, x, hx, hk, _ => top_of_le hx hk
  | k + 1, xs, i, x, hx, hk, hp => by
    by_cases hlen : 1 < xs.length
    · obtain ⟨hn, hup⟩ := (paired_iff hlen).mp hp
      have hs : xs[neighbour i]? = some xs[neighbour i] := List.getElem?_eq_getElem hn
      have hx' := (pairUp_of_neighbour combine hx hs).1
      rw [above_succ hlen, top_cons, siblings_cons_of_some hs, climb_cons]
      exact climb_siblings hx' (length_pairUp_le hk) (by rwa [length_pairUp])
    · rw [top_of_le hx (by omega), above_of_le (by omega)]
      rfl

end Top

/-! ## Nodes of a kind -/

section Kinds

variable {combine : α → α → α} {Q : α → Prop}

theorem forall_pairs : ∀ {xs : List α}, (∀ x ∈ xs, Q x) → ∀ p ∈ pairs xs, Q p.1 ∧ Q p.2
  | [], _, p, hp => by simp [pairs] at hp
  | [x], hxs, p, hp => by
    obtain rfl : p = (x, x) := by simpa [pairs] using hp
    exact ⟨hxs x (by simp), hxs x (by simp)⟩
  | x :: y :: xs, hxs, p, hp => by
    rcases List.mem_cons.mp hp with rfl | hrest
    · exact ⟨hxs x (by simp), hxs y (by simp)⟩
    · exact forall_pairs (fun z hz => hxs z (by simp [hz])) p hrest

variable (hcombine : ∀ x y, Q (combine x y))
include hcombine

theorem forall_pairUp (xs : List α) : ∀ x ∈ pairUp combine xs, Q x := by
  intro x hx
  obtain ⟨p, -, rfl⟩ := List.mem_map.mp hx
  exact hcombine p.1 p.2

theorem forall_built : ∀ {k : ℕ} {xs : List α}, (∀ x ∈ xs, Q x) →
    ∀ p ∈ built combine k xs, Q p.1 ∧ Q p.2
  | 0, _, _, _, hp => by simp [built] at hp
  | k + 1, xs, hxs, p, hp => by
    rw [built] at hp
    split at hp
    · rcases List.mem_append.mp hp with hp | hp
      · exact forall_pairs hxs p hp
      · exact forall_built (forall_pairUp hcombine xs) p hp
    · simp at hp

theorem forall_siblings : ∀ {k : ℕ} {xs : List α} {i : ℕ}, (∀ x ∈ xs, Q x) →
    ∀ s ∈ siblings xs (above combine k xs) i, Q s.2
  | 0, _, _, _, _, hs => by simp [above, siblings] at hs
  | k + 1, xs, i, hxs, s, hs => by
    rw [above] at hs
    split at hs
    · rcases List.mem_append.mp hs with hs | hs
      · simp only [Option.mem_toList, Option.map_eq_some_iff] at hs
        obtain ⟨x, hx, rfl⟩ := hs
        exact hxs x (List.mem_of_getElem? hx)
      · exact forall_siblings (forall_pairUp hcombine xs) s hs
    · simp [siblings] at hs

theorem forall_climbed : ∀ {ss : List (Bool × α)} {x : α}, Q x → (∀ s ∈ ss, Q s.2) →
    ∀ p ∈ climbed combine x ss, Q p.1 ∧ Q p.2
  | [], _, _, _, _, hp => by simp [climbed] at hp
  | s :: ss, x, hx, hss, p, hp => by
    have hjoin : Q (join combine x s) := by
      rw [join]
      split <;> exact hcombine _ _
    rcases List.mem_cons.mp hp with rfl | hp
    · have hs : Q s.2 := hss s (by simp)
      rw [joined]
      split
      · exact ⟨hs, hx⟩
      · exact ⟨hx, hs⟩
    · exact forall_climbed hjoin (fun s' hs' => hss s' (by simp [hs'])) p hp

end Kinds

/-! ## One-way combination -/

/-- On the pairs considered, combining is injective up to the order of the two, and what it gives
ranks above both. -/
structure OneWay (combine : α → α → α) (rank : α → ℕ) (P : α × α → Prop) : Prop where
  injective : ∀ {p q : α × α}, P p → P q → combine p.1 p.2 = combine q.1 q.2 → p = q ∨ p = q.swap
  left : ∀ {p : α × α}, P p → rank p.1 < rank (combine p.1 p.2)
  right : ∀ {p : α × α}, P p → rank p.2 < rank (combine p.1 p.2)

namespace OneWay

variable {combine : α → α → α} {rank : α → ℕ} {P : α × α → Prop}

theorem rank_join (h : OneWay combine rank P) {x : α} {s : Bool × α} (hs : P (joined x s)) :
    rank x < rank (join combine x s) ∧ rank s.2 < rank (join combine x s) := by
  obtain ⟨onLeft, s⟩ := s
  cases onLeft with
  | false => exact ⟨h.left hs, h.right hs⟩
  | true => exact ⟨h.right hs, h.left hs⟩

theorem join_eq (x : α) (s : Bool × α) :
    join combine x s = combine (joined x s).1 (joined x s).2 := by
  rw [join, joined]
  split <;> rfl

/-- Joining with the same neighbour tells nodes apart. -/
theorem join_injective (h : OneWay combine rank P) {x y : α} {s : Bool × α} (hx : P (joined x s))
    (hy : P (joined y s)) (he : join combine x s = join combine y s) : x = y := by
  rw [join_eq, join_eq] at he
  obtain ⟨onLeft, s⟩ := s
  cases onLeft with
  | false =>
    rcases h.injective hx hy he with hxy | hxy
    · exact congrArg Prod.fst hxy
    · exact (congrArg Prod.fst hxy).trans (congrArg Prod.snd hxy)
  | true =>
    rcases h.injective hx hy he with hxy | hxy
    · exact congrArg Prod.snd hxy
    · exact (congrArg Prod.snd hxy).trans (congrArg Prod.fst hxy)

/-- A node joined with a neighbour is a doubled node only if the neighbour is that node. -/
theorem eq_of_join_eq_double (h : OneWay combine rank P) {x y : α} {s : Bool × α}
    (hy : P (joined y s)) (hx : P (x, x)) (he : join combine y s = combine x x) : s.2 = x := by
  rw [join_eq] at he
  have hxy : joined y s = (x, x) := (h.injective hy hx he).elim id id
  obtain ⟨onLeft, s⟩ := s
  cases onLeft with
  | false => exact congrArg Prod.snd hxy
  | true => exact congrArg Prod.fst hxy

variable (combine rank P) in
/-- The climb has left the way: it holds `y` where the tree has `x`, and `y` is either no higher
than `x` or was joined with a neighbour that is lower. -/
def Strays (x y : α) : Prop :=
  y ≠ x ∧ (rank y ≤ rank x ∨
    ∃ z s, P (joined z s) ∧ y = join combine z s ∧ rank s.2 < rank x)

/-- A combination skipped is where a climb leaves the way. -/
theorem strays_of_skip (h : OneWay combine rank P) {x : α} (hx : P (x, x)) :
    Strays combine rank P (combine x x) x := by
  have hlt : rank x < rank (combine x x) := h.left hx
  exact ⟨fun he => absurd hlt (by rw [← he]; exact lt_irrefl _), .inl (le_of_lt hlt)⟩

/-- A combination skipped does not bring it back. -/
theorem Strays.skip (h : OneWay combine rank P) {x y : α} (hxy : Strays combine rank P x y)
    (hx : P (x, x)) : Strays combine rank P (combine x x) y := by
  have hlt : rank x < rank (combine x x) := h.left hx
  obtain ⟨-, hle | ⟨z, s, hz, rfl, hs⟩⟩ := hxy
  · refine ⟨fun he => ?_, .inl (le_trans hle (le_of_lt hlt))⟩
    rw [he] at hle
    omega
  · refine ⟨fun he => ?_, .inr ⟨z, s, hz, rfl, lt_trans hs hlt⟩⟩
    rw [h.eq_of_join_eq_double hz hx he] at hs
    exact lt_irrefl _ hs

/-- Neither does a neighbour. -/
theorem Strays.join (h : OneWay combine rank P) {x y : α} {s : Bool × α}
    (hxy : Strays combine rank P x y) (hx : P (joined x s)) (hy : P (joined y s)) :
    Strays combine rank P (join combine x s) (join combine y s) :=
  ⟨fun he => hxy.1 (h.join_injective hy hx he), .inr ⟨y, s, hy, rfl, (h.rank_join hx).2⟩⟩

/-- **A climb that has left the way does not end at the top.** -/
theorem climb_ne_top (h : OneWay combine rank P) : ∀ {k : ℕ} {xs : List α} {i : ℕ} {x y : α},
    xs[i]? = some x → xs.length ≤ k + 1 → (∀ p ∈ built combine k xs, P p) →
      (∀ p ∈ climbed combine y (siblings xs (above combine k xs) i), P p) →
        Strays combine rank P x y →
          top xs (above combine k xs) ≠ some (climb combine y (siblings xs (above combine k xs) i))
  | 0, xs, i, x, y, hx, hk, _, _, hxy => by
    rw [top_of_le hx hk]
    exact fun he => hxy.1 (Option.some.inj he).symm
  | k + 1, xs, i, x, y, hx, hk, hbuilt, hclimbed, hxy => by
    by_cases hlen : 1 < xs.length
    · rw [above_succ hlen] at hclimbed ⊢
      rw [built_succ hlen] at hbuilt
      have hpairs : ∀ p ∈ pairs xs, P p := fun p hp => hbuilt p (List.mem_append_left _ hp)
      have hrest : ∀ p ∈ built combine k (pairUp combine xs), P p := fun p hp =>
        hbuilt p (List.mem_append_right _ hp)
      rw [top_cons]
      cases hs : xs[neighbour i]? with
      | none =>
        obtain ⟨hx', hpair⟩ := pairUp_of_unpaired combine hx hs
        rw [siblings_cons_of_none hs] at hclimbed ⊢
        exact h.climb_ne_top hx' (length_pairUp_le hk) hrest hclimbed
          (hxy.skip h (hpairs _ hpair))
      | some s =>
        obtain ⟨hx', hpair⟩ := pairUp_of_neighbour combine hx hs
        rw [siblings_cons_of_some hs] at hclimbed ⊢
        rw [climb_cons]
        have hy : P (joined y (decide (i % 2 = 1), s)) := hclimbed _ (List.mem_cons_self ..)
        exact h.climb_ne_top hx' (length_pairUp_le hk) hrest
          (fun p hp => hclimbed p (List.mem_cons_of_mem _ hp)) (hxy.join h (hpairs _ hpair) hy)
    · rw [top_of_le hx (by omega), above_of_le (by omega)]
      exact fun he => hxy.1 (Option.some.inj he).symm

/-- **Only a climb along which every node has a neighbour ends at the top.** -/
theorem paired_of_climb (h : OneWay combine rank P) : ∀ {k : ℕ} {xs : List α} {i : ℕ} {x : α},
    xs[i]? = some x → xs.length ≤ k + 1 → (∀ p ∈ built combine k xs, P p) →
      (∀ p ∈ climbed combine x (siblings xs (above combine k xs) i), P p) →
        top xs (above combine k xs) = some (climb combine x (siblings xs (above combine k xs) i)) →
          Paired xs.length i
  | 0, _, _, _, _, hk, _, _, _ => paired_of_le hk
  | k + 1, xs, i, x, hx, hk, hbuilt, hclimbed, htop => by
    by_cases hlen : 1 < xs.length
    · rw [above_succ hlen] at hclimbed htop
      rw [built_succ hlen] at hbuilt
      have hpairs : ∀ p ∈ pairs xs, P p := fun p hp => hbuilt p (List.mem_append_left _ hp)
      have hrest : ∀ p ∈ built combine k (pairUp combine xs), P p := fun p hp =>
        hbuilt p (List.mem_append_right _ hp)
      rw [top_cons] at htop
      cases hs : xs[neighbour i]? with
      | none =>
        obtain ⟨hx', hpair⟩ := pairUp_of_unpaired combine hx hs
        rw [siblings_cons_of_none hs] at hclimbed htop
        exact absurd htop (h.climb_ne_top hx' (length_pairUp_le hk) hrest hclimbed
          (h.strays_of_skip (hpairs _ hpair)))
      | some s =>
        have hx' := (pairUp_of_neighbour combine hx hs).1
        rw [siblings_cons_of_some hs] at hclimbed htop
        have hup := h.paired_of_climb hx' (length_pairUp_le hk) hrest
          (fun p hp => hclimbed p (List.mem_cons_of_mem _ hp)) htop
        rw [length_pairUp] at hup
        exact (paired_iff hlen).mpr ⟨(List.getElem?_eq_some_iff.mp hs).1, hup⟩
    · exact paired_of_le (by omega)

end OneWay

end Foundations.HashTree
