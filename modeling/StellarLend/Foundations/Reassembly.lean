import Mathlib.Data.List.Basic

/-!
# Foundations/Reassembly — handing out in order what arrives out of order

Items of several streams arrive in any order.  An item starts at a position of its stream and says
at which position the next one must start.  What arrives early is held; `drain` hands out the held
items of one stream that follow one another from a position on.

* `Chained k as e` — the items follow one another from `k` to `e`; with positions that increase, no
  two of them start alike (`Chained.pairwise`).
* `Drained` — all that `drain` does, said once: what is handed out is chained, what stays is the
  rest, and nothing that stays could go on.
* `Chained.eq_of_subset` — a chain made of a tiling's items that stops at none of them is it.
-/

namespace Foundations.Reassembly

variable {ι α : Type}

/-! ## Chains -/

section Chain

variable (lo : α → ℕ) (next : α → Option ℕ)

/-- The items follow one another from `k` up to, not including, `e`. -/
def Chained : ℕ → List α → ℕ → Prop
  | k, [], e => k = e
  | k, a :: as, e => lo a = k ∧ ∃ l, next a = some l ∧ Chained l as e

variable {lo next}

theorem Chained.append {k l e : ℕ} {as bs : List α} (has : Chained lo next k as l)
    (hbs : Chained lo next l bs e) : Chained lo next k (as ++ bs) e := by
  induction as generalizing k with
  | nil =>
    rw [has]
    exact hbs
  | cons a as ih =>
    obtain ⟨hk, m, hm, hrest⟩ := has
    exact ⟨hk, m, hm, ih hrest⟩

theorem chained_map {β : Type} {g : β → α} {k e : ℕ} {bs : List β} :
    Chained lo next k (bs.map g) e ↔ Chained (lo ∘ g) (next ∘ g) k bs e := by
  induction bs generalizing k with
  | nil => rfl
  | cons b bs ih => simp [Chained, ih]

/-- A chain ends where its last item does. -/
theorem Chained.end_eq {k e : ℕ} {as : List α} (h : Chained lo next k as e) :
    as.getLast?.elim (some k) next = some e := by
  induction as generalizing k with
  | nil => exact congrArg some h
  | cons a as ih =>
    obtain ⟨-, l, hl, hrest⟩ := h
    have hend := ih hrest
    cases as with
    | nil =>
      rw [← hend]
      exact hl
    | cons b as => rwa [List.getLast?_cons_cons]

/-- An item does not end before it starts. -/
def Forward (lo : α → ℕ) (next : α → Option ℕ) (a : α) : Prop := ∀ l ∈ next a, lo a < l

/-- Every item of a chain starts where the chain does or later, and ends by its end. -/
theorem Chained.bounds {k e : ℕ} {as : List α} (h : Chained lo next k as e)
    (hf : ∀ a ∈ as, Forward lo next a) :
    k ≤ e ∧ ∀ a ∈ as, k ≤ lo a ∧ ∃ l, next a = some l ∧ l ≤ e := by
  induction as generalizing k with
  | nil =>
    refine ⟨Nat.le_of_eq h, fun a ha => ?_⟩
    cases ha
  | cons a as ih =>
    obtain ⟨hk, l, hl, hrest⟩ := h
    have hlt : lo a < l := hf a List.mem_cons_self l hl
    obtain ⟨hle, hbounds⟩ := ih hrest fun b hb => hf b (List.mem_cons_of_mem a hb)
    refine ⟨by omega, fun b hb => ?_⟩
    rcases List.mem_cons.mp hb with rfl | hb
    · exact ⟨Nat.le_of_eq hk.symm, l, hl, hle⟩
    · obtain ⟨hlo, hend⟩ := hbounds b hb
      exact ⟨by omega, hend⟩

/-- **In a chain each item ends before every later one starts.** -/
theorem Chained.pairwise {k e : ℕ} {as : List α} (h : Chained lo next k as e)
    (hf : ∀ a ∈ as, Forward lo next a) :
    as.Pairwise fun a b => ∃ l, next a = some l ∧ l ≤ lo b := by
  induction as generalizing k with
  | nil => exact List.Pairwise.nil
  | cons a as ih =>
    obtain ⟨-, l, hl, hrest⟩ := h
    have hfs : ∀ b ∈ as, Forward lo next b := fun b hb => hf b (List.mem_cons_of_mem a hb)
    refine List.Pairwise.cons (fun b hb => ⟨l, hl, ?_⟩) (ih hrest hfs)
    exact ((hrest.bounds hfs).2 b hb).1

/-- **A chain made of a tiling's items that stops where none of them starts is the tiling.** -/
theorem Chained.eq_of_subset {k e f : ℕ} {as ts : List α} (has : Chained lo next k as e)
    (hts : Chained lo next k ts f) (hft : ∀ t ∈ ts, Forward lo next t) (hmem : ∀ a ∈ as, a ∈ ts)
    (hstop : ∀ t ∈ ts, lo t ≠ e) : as = ts := by
  induction ts generalizing k as with
  | nil => exact List.eq_nil_iff_forall_not_mem.mpr fun a ha => (by cases hmem a ha)
  | cons t ts ih =>
    obtain ⟨hk, l, hl, hts⟩ := hts
    have hft' : ∀ u ∈ ts, Forward lo next u := fun u hu => hft u (List.mem_cons_of_mem t hu)
    have hlt : k < l := hk ▸ hft t List.mem_cons_self l hl
    cases as with
    | nil => exact absurd (hk.trans has) (hstop t List.mem_cons_self)
    | cons a as =>
      obtain ⟨hka, m, hm, has⟩ := has
      obtain rfl : a = t := by
        rcases List.mem_cons.mp (hmem a List.mem_cons_self) with rfl | ha
        · rfl
        · have hlater := ((hts.bounds hft').2 a ha).1
          omega
      obtain rfl : m = l := Option.some.inj (hm.symm.trans hl)
      have hfas : ∀ b ∈ as, Forward lo next b := fun b hb =>
        hft b (hmem b (List.mem_cons_of_mem a hb))
      rw [ih has hts hft' (fun b hb => ?_) fun u hu => hstop u (List.mem_cons_of_mem a hu)]
      rcases List.mem_cons.mp (hmem b (List.mem_cons_of_mem a hb)) with rfl | hb'
      · have hlater := ((has.bounds hfas).2 b hb).1
        omega
      · exact hb'

end Chain

/-! ## Holding and handing out -/

section Drain

variable [DecidableEq ι] (stream : α → ι) (lo : α → ℕ) (next : α → Option ℕ)

/-- The item is stream `i`'s and starts at `k`. -/
def At (i : ι) (k : ℕ) (a : α) : Prop := stream a = i ∧ lo a = k

instance (i : ι) (k : ℕ) (a : α) : Decidable (At stream lo i k a) :=
  inferInstanceAs (Decidable (_ ∧ _))

/-- Hold an item, in place of the one that starts where it does. -/
def hold (a : α) (held : List α) : List α :=
  a :: held.filter fun b => ¬ At stream lo (stream a) (lo a) b

/-- Hand out at most `n` held items of stream `i` that follow one another from `k` on: the items,
where they end, and what stays held.  `none` if nothing can follow one of them. -/
def drain (i : ι) : ℕ → ℕ → List α → Option (List α × ℕ × List α)
  | 0, k, held => some ([], k, held)
  | n + 1, k, held =>
    match held.find? fun a => At stream lo i k a with
    | none => some ([], k, held)
    | some a => do
      let l ← next a
      let (as, e, rest) ← drain i n l (held.filter fun b => ¬ At stream lo i k b)
      pure (a :: as, e, rest)

/-- What draining stream `i` from `k` hands out and leaves. -/
structure Drained (i : ι) (k : ℕ) (held as : List α) (e : ℕ) (rest : List α) : Prop where
  chained : Chained lo next k as e
  own : ∀ a ∈ as, stream a = i
  handed : ∀ a ∈ as, a ∈ held
  stays : ∀ b, b ∈ rest ↔ b ∈ held ∧ ∀ a ∈ as, ¬ At stream lo i (lo a) b
  settled : ∀ b ∈ rest, ¬ At stream lo i e b

variable {stream lo next}

theorem mem_hold {a b : α} {held : List α} :
    b ∈ hold stream lo a held ↔ b = a ∨ b ∈ held ∧ ¬ At stream lo (stream a) (lo a) b := by
  simp [hold]

/-- Taking out what starts at `k` makes the held items fewer, if there is one. -/
theorem length_filter_lt {i : ι} {k : ℕ} {a : α} {held : List α} (ha : a ∈ held)
    (hat : At stream lo i k a) :
    (held.filter fun b => ¬ At stream lo i k b).length < held.length :=
  List.length_filter_lt_length_iff_exists.mpr ⟨a, ha, by simpa using hat⟩

/-- **Draining, said once.** -/
theorem drained_of_drain {i : ι} {n k e : ℕ} {held as rest : List α} (hn : held.length < n)
    (h : drain stream lo next i n k held = some (as, e, rest)) :
    Drained stream lo next i k held as e rest := by
  induction n generalizing k held as with
  | zero => omega
  | succ n ih =>
    unfold drain at h
    split at h
    · next hnone =>
      cases h
      refine ⟨rfl, fun a ha => (by cases ha), fun a ha => (by cases ha), fun b => by simp, ?_⟩
      simpa using List.find?_eq_none.mp hnone
    · next a hfound =>
      obtain ⟨l, hl, hrest⟩ := Option.bind_eq_some_iff.mp h
      obtain ⟨⟨as', e', rest'⟩, hdrain, hpure⟩ := Option.bind_eq_some_iff.mp hrest
      cases hpure
      have ha : a ∈ held := List.mem_of_find?_eq_some hfound
      have hat : At stream lo i k a := by simpa using List.find?_some hfound
      have hshorter := length_filter_lt ha hat
      have hd := ih (by omega) hdrain
      refine ⟨⟨hat.2, l, hl, hd.chained⟩, fun b hb => ?_, fun b hb => ?_, fun b => ?_, hd.settled⟩
      · rcases List.mem_cons.mp hb with rfl | hb
        · exact hat.1
        · exact hd.own b hb
      · rcases List.mem_cons.mp hb with rfl | hb
        · exact ha
        · exact List.mem_of_mem_filter (hd.handed b hb)
      · rw [hd.stays, List.mem_filter, List.forall_mem_cons, hat.2, decide_eq_true_eq, and_assoc]

/-- Draining ends if every held item of the stream can be followed. -/
theorem drain_isSome {i : ι} (n k : ℕ) {held : List α}
    (h : ∀ a ∈ held, stream a = i → (next a).isSome) :
    (drain stream lo next i n k held).isSome := by
  induction n generalizing k held with
  | zero => rfl
  | succ n ih =>
    unfold drain
    split
    · rfl
    · next a hfound =>
      have hat : At stream lo i k a := by simpa using List.find?_some hfound
      obtain ⟨l, hl⟩ := Option.isSome_iff_exists.mp
        (h a (List.mem_of_find?_eq_some hfound) hat.1)
      have hrest : (drain stream lo next i n l
          (held.filter fun b => ¬ At stream lo i k b)).isSome :=
        ih l fun b hb => h b (List.mem_of_mem_filter hb)
      obtain ⟨r, hr⟩ := Option.isSome_iff_exists.mp hrest
      rw [hl, Option.bind_eq_bind, Option.bind_some, hr]
      rfl

namespace Drained

variable {i : ι} {k e : ℕ} {held as rest : List α}

/-- What was held is still held, or an item that starts where it does is handed out. -/
theorem held_or_handed (h : Drained stream lo next i k held as e rest) {b : α} (hb : b ∈ held) :
    b ∈ rest ∨ ∃ a ∈ as, At stream lo i (lo a) b := by
  by_cases hex : ∃ a ∈ as, At stream lo i (lo a) b
  · exact .inr hex
  · refine .inl ((h.stays b).mpr ⟨hb, fun a ha hat => hex ⟨a, ha, hat⟩⟩)

omit [DecidableEq ι] in
/-- Nothing is added to what is held. -/
theorem held_of_stays (h : Drained stream lo next i k held as e rest) {b : α} (hb : b ∈ rest) :
    b ∈ held :=
  ((h.stays b).mp hb).1

end Drained

end Drain

end Foundations.Reassembly
