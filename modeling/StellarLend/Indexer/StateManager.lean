import Mathlib.Logic.Function.Basic
import StellarLend.Foundations.Reassembly
import StellarLend.Indexer.Repository

/-!
# Indexer/StateManager — committing in order what workers finish out of order

Workers fetch block ranges in parallel.  The state manager keeps, for each contract, the first block
that is not committed, its *frontier*; a result that arrives early is pending, and each arrival
hands back the results that now follow one another from the frontier on.  A rollback lowers the
frontiers and drops pending results.

However the results of the workers arrive — in any order, overlapping, repeated, mixed with those of
other contracts — what the state manager hands back for a contract is one contiguous ascending
sequence of ranges from its initial frontier on, and the frontier is the block after it.  Ranges
that tile an interval are all handed back once the last of them is in, each once.

The one exception is the range that ends with the largest block number: no block comes after it, and
the addition that looks for one ends the program.
-/

namespace StellarLend.Indexer

open Foundations Reassembly

section

/-- A unit of work: the blocks of a contract to fetch, both ends included. -/
structure BlockRangeTask where
  contractAddress : String
  fromBlock : ℕ
  toBlock : ℕ
  deriving DecidableEq, Repr

/-- `to_block + 1`, which traps at the largest block number. -/
def BlockRangeTask.next (t : BlockRangeTask) : Option ℕ := U64.checkedAdd t.toBlock 1

/-- What a worker makes of a task. -/
structure BlockRangeResult where
  task : BlockRangeTask
  events : List CreateEvent
  /-- How many rollbacks had been made when the fetch started: the program does not keep this, and
  no function reads it. -/
  fetchedAt : ℕ
  deriving DecidableEq, Repr

namespace BlockRangeResult

/-- The contract a result is about. -/
def contract (r : BlockRangeResult) : String := r.task.contractAddress

/-- The first block of a result. -/
def start (r : BlockRangeResult) : ℕ := r.task.fromBlock

/-- The block after a result. -/
def next (r : BlockRangeResult) : Option ℕ := r.task.next

end BlockRangeResult

structure StateManager where
  /-- The lowest block of each contract that has not been committed. -/
  commitFrontier : String → Option ℕ
  /-- The results that wait, one for each contract and first block. -/
  pending : List BlockRangeResult
  /-- The reorg that is being handled: workers look at it before they start a task. -/
  reorgSignal : Option ℕ

namespace StateManager

/-- Later frontiers of a contract replace earlier ones. -/
def new (initialFrontiers : List (String × ℕ)) : StateManager where
  commitFrontier := initialFrontiers.foldl (fun f p => Function.update f p.1 (some p.2))
    fun _ => none
  pending := []
  reorgSignal := none

/-- Register a result and hand back what is now safe to commit, in ascending order.  `none` if
`to_block + 1` overflows, which ends the program. -/
def registerResult (sm : StateManager) (result : BlockRangeResult) :
    Option (StateManager × List BlockRangeResult) :=
  let pending := hold BlockRangeResult.contract BlockRangeResult.start result sm.pending
  match sm.commitFrontier result.contract with
  | none => some ({ sm with pending := pending }, [])
  | some frontier => do
    let (ready, next, pending) ← drain BlockRangeResult.contract BlockRangeResult.start
      BlockRangeResult.next result.contract (pending.length + 1) frontier pending
    let frontiers :=
      if next ≠ frontier then Function.update sm.commitFrontier result.contract (some next)
      else sm.commitFrontier
    pure ({ sm with commitFrontier := frontiers, pending := pending }, ready)

/-- Let the workers know of a reorg. -/
def signalReorg (sm : StateManager) (block : ℕ) : StateManager :=
  { sm with reorgSignal := some block }

/-- Let the workers go on. -/
def clearReorg (sm : StateManager) : StateManager := { sm with reorgSignal := none }

/-- Lower the frontiers to `reorg_block`, and drop the pending results that start there or later. -/
def rollbackTo (sm : StateManager) (reorgBlock : ℕ) : StateManager where
  commitFrontier contract :=
    (sm.commitFrontier contract).map fun frontier =>
      if frontier > reorgBlock then reorgBlock else frontier
  pending := sm.pending.filter fun result => result.start < reorgBlock
  reorgSignal := sm.reorgSignal

/-! ## New frontiers -/

/-- The frontiers of a new state manager are those it is given, if no contract has two. -/
theorem new_commitFrontier {initialFrontiers : List (String × ℕ)} {c : String} {f : ℕ}
    (h : (initialFrontiers.map Prod.fst).Nodup) :
    (new initialFrontiers).commitFrontier c = some f ↔ (c, f) ∈ initialFrontiers := by
  have hfold : ∀ (l : List (String × ℕ)) (g : String → Option ℕ), (l.map Prod.fst).Nodup →
      (l.foldl (fun (g : String → Option ℕ) p => Function.update g p.1 (some p.2)) g c = some f ↔
        (c, f) ∈ l ∨ c ∉ l.map Prod.fst ∧ g c = some f) := by
    intro l
    induction l with
    | nil => simp
    | cons p l ih =>
      intro g hnodup
      obtain ⟨hp, hl⟩ := List.nodup_cons.mp hnodup
      rw [List.foldl_cons, ih _ hl]
      by_cases hc : c = p.1
      · subst hc
        simp [hp, Prod.ext_iff, eq_comm]
        tauto
      · simp [hc, Prod.ext_iff]
  rw [new, hfold initialFrontiers _ h]
  simp

/-! ## What an arrival does -/

/-- What registering a result changes. -/
structure Registered (sm : StateManager) (result : BlockRangeResult) (sm' : StateManager)
    (ready : List BlockRangeResult) (frontier next : ℕ) : Prop where
  before : sm.commitFrontier result.contract = some frontier
  after : sm'.commitFrontier = Function.update sm.commitFrontier result.contract (some next)
  signal : sm'.reorgSignal = sm.reorgSignal
  drained : Drained BlockRangeResult.contract BlockRangeResult.start BlockRangeResult.next
    result.contract frontier
    (hold BlockRangeResult.contract BlockRangeResult.start result sm.pending) ready next sm'.pending

/-- **An arrival, said once**: a result of a contract without a frontier is only held; else the held
results that follow one another from the frontier are handed back, and the frontier is where they
end. -/
theorem registerResult_effect {sm sm' : StateManager} {result : BlockRangeResult}
    {ready : List BlockRangeResult} (h : sm.registerResult result = some (sm', ready)) :
    (sm.commitFrontier result.contract = none ∧ ready = [] ∧ sm' = { sm with
        pending := hold BlockRangeResult.contract BlockRangeResult.start result sm.pending }) ∨
    ∃ frontier next, Registered sm result sm' ready frontier next := by
  unfold registerResult at h
  dsimp only at h
  split at h
  · next hnone =>
    cases h
    exact .inl ⟨hnone, rfl, rfl⟩
  · next frontier hsome =>
    obtain ⟨⟨as, e, rest⟩, hdrain, hpure⟩ := Option.bind_eq_some_iff.mp h
    cases hpure
    refine .inr ⟨frontier, e, hsome, ?_, rfl, drained_of_drain (Nat.lt_succ_self _) hdrain⟩
    dsimp only
    split
    · rfl
    · next hsame =>
      rw [not_not.mp hsame, ← hsome, Function.update_eq_self]

/-- An arrival ends the program only through a pending result with the largest block number. -/
theorem registerResult_isSome {sm : StateManager} {result : BlockRangeResult}
    (hresult : result.task.toBlock < U64.MAX)
    (hpending : ∀ r ∈ sm.pending, r.task.toBlock < U64.MAX) :
    (sm.registerResult result).isSome := by
  unfold registerResult
  dsimp only
  split
  · rfl
  · next frontier hsome =>
    have hall : ∀ r ∈ hold BlockRangeResult.contract BlockRangeResult.start result sm.pending,
        r.contract = result.contract → r.next.isSome := by
      intro r hr _
      have hlt : r.task.toBlock < U64.MAX := by
        rcases mem_hold.mp hr with rfl | hr
        · exact hresult
        · exact hpending r hr.1
      rw [BlockRangeResult.next, BlockRangeTask.next, Option.isSome_iff_exists]
      exact ⟨_, U64.checkedAdd_eq_some.mpr ⟨hlt, rfl⟩⟩
    obtain ⟨⟨as, e, rest⟩, hdrain⟩ := Option.isSome_iff_exists.mp (drain_isSome
      ((hold BlockRangeResult.contract BlockRangeResult.start result sm.pending).length + 1)
      frontier hall)
    rw [hdrain]
    rfl

/-- What is handed back had been registered, and so had what still waits. -/
theorem registered_of_handed {sm sm' : StateManager} {result r : BlockRangeResult}
    {ready : List BlockRangeResult} (h : sm.registerResult result = some (sm', ready))
    (hr : r ∈ ready ∨ r ∈ sm'.pending) : r = result ∨ r ∈ sm.pending := by
  have hhold : r ∈ hold BlockRangeResult.contract BlockRangeResult.start result sm.pending := by
    rcases registerResult_effect h with ⟨-, rfl, rfl⟩ | ⟨frontier, next, hreg⟩
    · rcases hr with hr | hr
      · cases hr
      · exact hr
    · exact hr.elim (hreg.drained.handed r) hreg.drained.held_of_stays
  exact (mem_hold.mp hhold).imp id fun hmem => hmem.1

@[simp] theorem rollbackTo_pending {sm : StateManager} {b : ℕ} {r : BlockRangeResult} :
    r ∈ (sm.rollbackTo b).pending ↔ r ∈ sm.pending ∧ r.start < b := by
  simp [rollbackTo]

end StateManager

end

/-! ## Results are handed back contiguous and ascending -/

section

variable {c : String} {f e : ℕ} {sm sm' : StateManager} {r : BlockRangeResult}
  {arrived handed ready rs : List BlockRangeResult}

/-! ## Arrivals -/

/-- Results that arrive one after another, and what is handed back, first to last. -/
def StateManager.registerAll (sm : StateManager) :
    List BlockRangeResult → Option (StateManager × List BlockRangeResult)
  | [] => some (sm, [])
  | r :: rs => do
    let (sm', ready) ← sm.registerResult r
    let (sm'', later) ← sm'.registerAll rs
    pure (sm'', ready ++ later)

/-- The ranges of one contract, in the order of the results. -/
def rangesOf (c : String) (rs : List BlockRangeResult) : List BlockRangeTask :=
  (rs.filter fun r => r.contract = c).map BlockRangeResult.task

theorem mem_rangesOf {t : BlockRangeTask} :
    t ∈ rangesOf c rs ↔ ∃ r ∈ rs, r.contract = c ∧ r.task = t := by
  simp [rangesOf, and_assoc]

theorem rangesOf_append (rs rs' : List BlockRangeResult) :
    rangesOf c (rs ++ rs') = rangesOf c rs ++ rangesOf c rs' := by
  simp [rangesOf]

/-- Ranges that follow one another without gap or overlap, from block `f` up to block `e`. -/
def Contiguous (f : ℕ) (ts : List BlockRangeTask) (e : ℕ) : Prop :=
  Chained BlockRangeTask.fromBlock BlockRangeTask.next f ts e

/-- A range covers at least one block. -/
def BlockRangeTask.Valid (t : BlockRangeTask) : Prop := t.fromBlock ≤ t.toBlock

instance (t : BlockRangeTask) : Decidable t.Valid := inferInstanceAs (Decidable (_ ≤ _))

theorem BlockRangeTask.next_eq_some {t : BlockRangeTask} {l : ℕ} :
    t.next = some l ↔ t.toBlock < U64.MAX ∧ t.toBlock + 1 = l := U64.checkedAdd_eq_some

theorem BlockRangeTask.Valid.forward {t : BlockRangeTask} (h : t.Valid) :
    Forward fromBlock next t := by
  intro l hl
  obtain ⟨-, rfl⟩ := next_eq_some.mp hl
  exact Nat.lt_succ_of_le h

/-- What has been handed back for a contract, of what has arrived, is in order. -/
structure InOrder (c : String) (f : ℕ) (arrived handed : List BlockRangeResult)
    (sm : StateManager) : Prop where
  /-- The ranges follow one another from the initial frontier on. -/
  contiguous : ∃ e, Contiguous f (rangesOf c handed) e
  /-- No block is in two of them. -/
  disjoint : (rangesOf c handed).Pairwise fun t u => t.toBlock < u.fromBlock
  /-- The frontier is the block after the last of them. -/
  frontier : sm.commitFrontier c =
    some ((rangesOf c handed).getLast?.elim f fun t => t.toBlock + 1)
  /-- Where the ranges that arrived tile an interval, each has been handed back, once. -/
  tiled : ∀ tiles e, Contiguous f tiles e → (∀ t, t ∈ tiles ↔ t ∈ rangesOf c arrived) →
    rangesOf c handed = tiles

/-- **What the state manager does for ranges that arrive in any order**: it takes in all of them,
and what it hands back for each contract is in order. -/
def HandsBackInOrder (sm : StateManager) (rs : List BlockRangeResult) : Prop :=
  ∃ sm' handed, sm.registerAll rs = some (sm', handed) ∧
    ∀ c f, sm.commitFrontier c = some f → InOrder c f rs handed sm'

/-! ## One arrival -/

/-- What an arrival hands back follows one another from the frontier to the next one. -/
theorem StateManager.Registered.contiguous {frontier next : ℕ}
    (h : Registered sm r sm' ready frontier next) :
    Contiguous frontier (rangesOf r.contract ready) next := by
  have hall : rangesOf r.contract ready = ready.map BlockRangeResult.task := by
    rw [rangesOf, List.filter_eq_self.mpr fun a ha => by simpa using h.drained.own a ha]
  rw [hall]
  exact chained_map.mpr h.drained.chained

/-- It hands back nothing of another contract. -/
theorem StateManager.Registered.others {frontier next : ℕ}
    (h : Registered sm r sm' ready frontier next) (hc : r.contract ≠ c) :
    rangesOf c ready = [] := by
  refine List.eq_nil_iff_forall_not_mem.mpr fun t ht => ?_
  obtain ⟨b, hb, hbc, -⟩ := mem_rangesOf.mp ht
  exact hc ((h.drained.own b hb).symm.trans hbc)

/-- What was held for the contract is still held, or starts below the next frontier. -/
theorem StateManager.Registered.below_or_stays {frontier next k : ℕ}
    (h : Registered sm r sm' ready frontier next)
    (hforward : ∀ t ∈ rangesOf r.contract ready,
      Forward BlockRangeTask.fromBlock BlockRangeTask.next t) {b : BlockRangeResult}
    (hb : b ∈ hold BlockRangeResult.contract BlockRangeResult.start r sm.pending)
    (hat : At BlockRangeResult.contract BlockRangeResult.start r.contract k b) :
    k < next ∨ ∃ b ∈ sm'.pending,
      At BlockRangeResult.contract BlockRangeResult.start r.contract k b := by
  rcases h.drained.held_or_handed hb with hstays | ⟨a, ha, hata⟩
  · exact .inr ⟨b, hstays, hat⟩
  · have hmem : a.task ∈ rangesOf r.contract ready :=
      mem_rangesOf.mpr ⟨a, ha, h.drained.own a ha, rfl⟩
    obtain ⟨-, l, hl, hend⟩ := (h.contiguous.bounds hforward).2 a.task hmem
    have hlt : a.task.fromBlock < l := hforward a.task hmem l hl
    have hk : k = a.start := hat.2.symm.trans hata.2
    exact .inl (hk ▸ lt_of_lt_of_le hlt hend)

/-- The state of one contract after some arrivals: what was handed back ends at the frontier `e`,
nothing that waits starts there, and whatever arrived starts before it or waits. -/
structure Settled (c : String) (f : ℕ) (arrived handed : List BlockRangeResult) (sm : StateManager)
    (e : ℕ) : Prop where
  frontier : sm.commitFrontier c = some e
  chained : Contiguous f (rangesOf c handed) e
  handed : ∀ t ∈ rangesOf c handed, t ∈ rangesOf c arrived
  pending : ∀ b ∈ sm.pending, b ∈ arrived
  settled : ∀ b ∈ sm.pending, ¬ At BlockRangeResult.contract BlockRangeResult.start c e b
  kept : ∀ t ∈ rangesOf c arrived, t.fromBlock < e ∨
    ∃ b ∈ sm.pending, At BlockRangeResult.contract BlockRangeResult.start c t.fromBlock b

theorem forward_rangesOf (hvalid : ∀ r ∈ rs, r.task.Valid) :
    ∀ t ∈ rangesOf c rs, Forward BlockRangeTask.fromBlock BlockRangeTask.next t := by
  intro t ht
  obtain ⟨r, hr, -, rfl⟩ := mem_rangesOf.mp ht
  exact (hvalid r hr).forward

/-- An arrival of another contract leaves this one's state. -/
theorem Settled.other (h : Settled c f arrived handed sm e) (hc : r.contract ≠ c)
    (hreg : sm.registerResult r = some (sm', ready)) :
    Settled c f (arrived ++ [r]) (handed ++ ready) sm' e := by
  have hpending : ∀ b ∈ sm'.pending, b = r ∨ b ∈ sm.pending := fun b hb =>
    StateManager.registered_of_handed hreg (.inr hb)
  have hsame : sm'.commitFrontier c = sm.commitFrontier c ∧ rangesOf c ready = [] ∧
      ∀ b ∈ sm.pending, b.contract = c → b ∈ sm'.pending := by
    have hhold : ∀ b ∈ sm.pending, b.contract = c →
        b ∈ hold BlockRangeResult.contract BlockRangeResult.start r sm.pending := fun b hb hbc =>
      mem_hold.mpr (.inr ⟨hb, fun hat => hc (hat.1.symm.trans hbc)⟩)
    rcases StateManager.registerResult_effect hreg with ⟨-, rfl, rfl⟩ | ⟨frontier, next, hr⟩
    · exact ⟨rfl, rfl, hhold⟩
    · refine ⟨?_, hr.others hc, fun b hb hbc => ?_⟩
      · rw [hr.after, Function.update_of_ne (Ne.symm hc)]
      · refine (hr.drained.stays b).mpr ⟨hhold b hb hbc, fun a _ hat => ?_⟩
        exact hc (hat.1.symm.trans hbc)
  obtain ⟨hfrontier, hready, hstays⟩ := hsame
  have harrived : rangesOf c (arrived ++ [r]) = rangesOf c arrived := by
    simp [rangesOf, hc]
  have hhanded : rangesOf c (handed ++ ready) = rangesOf c handed := by
    rw [rangesOf_append, hready, List.append_nil]
  refine ⟨hfrontier.trans h.frontier, hhanded ▸ h.chained, ?_, fun b hb => ?_, fun b hb hat => ?_,
    ?_⟩
  · rw [hhanded, harrived]
    exact h.handed
  · rcases hpending b hb with rfl | hold
    · simp
    · exact List.mem_append_left [r] (h.pending b hold)
  · rcases hpending b hb with rfl | hold
    · exact hc hat.1
    · exact h.settled b hold hat
  · rw [harrived]
    intro t ht
    refine (h.kept t ht).imp id ?_
    rintro ⟨b, hb, hat⟩
    exact ⟨b, hstays b hb hat.1, hat⟩

/-- An arrival of the contract hands back what follows, and settles it again. -/
theorem Settled.own (h : Settled c f arrived handed sm e) (hc : r.contract = c)
    (hvalid : ∀ b ∈ arrived ++ [r], b.task.Valid)
    (hreg : sm.registerResult r = some (sm', ready)) :
    ∃ e', Settled c f (arrived ++ [r]) (handed ++ ready) sm' e' := by
  subst hc
  rcases StateManager.registerResult_effect hreg with ⟨hnone, -, -⟩ | ⟨frontier, next, hr⟩
  · cases hnone.symm.trans h.frontier
  obtain rfl : frontier = e := Option.some.inj (hr.before.symm.trans h.frontier)
  have hd := hr.drained
  have hheld : ∀ b ∈ hold BlockRangeResult.contract BlockRangeResult.start r sm.pending,
      b ∈ arrived ++ [r] := by
    intro b hb
    rcases mem_hold.mp hb with rfl | hb
    · simp
    · exact List.mem_append_left [r] (h.pending b hb.1)
  have hchain : Contiguous frontier (rangesOf r.contract ready) next := hr.contiguous
  have hforward := forward_rangesOf (c := r.contract) fun a ha =>
    hvalid a (hheld a (hd.handed a ha))
  obtain ⟨hle, -⟩ := hchain.bounds hforward
  refine ⟨next, by rw [hr.after, Function.update_self], ?_, ?_, ?_, hd.settled, ?_⟩
  · rw [rangesOf_append]
    exact h.chained.append hchain
  · intro t ht
    rw [rangesOf_append] at ht ⊢
    rcases List.mem_append.mp ht with ht | ht
    · exact List.mem_append_left _ (h.handed t ht)
    · obtain ⟨a, ha, hac, rfl⟩ := mem_rangesOf.mp ht
      rw [← rangesOf_append]
      exact mem_rangesOf.mpr ⟨a, hheld a (hd.handed a ha), hac, rfl⟩
  · exact fun b hb => hheld b (hd.held_of_stays hb)
  · intro t ht
    rw [rangesOf_append, List.mem_append] at ht
    rcases ht with ht | ht
    · rcases h.kept t ht with hlt | ⟨b, hb, hat⟩
      · exact .inl (lt_of_lt_of_le hlt hle)
      · by_cases hr' : At BlockRangeResult.contract BlockRangeResult.start r.contract r.start b
        · exact hr.below_or_stays hforward (mem_hold.mpr (.inl rfl))
            ⟨rfl, hr'.2.symm.trans hat.2⟩
        · exact hr.below_or_stays hforward (mem_hold.mpr (.inr ⟨hb, hr'⟩)) hat
    · obtain ⟨a, ha, -, rfl⟩ := mem_rangesOf.mp ht
      obtain rfl := List.mem_singleton.mp ha
      exact hr.below_or_stays hforward (mem_hold.mpr (.inl rfl)) ⟨rfl, rfl⟩

/-! ## All arrivals -/

/-- Any arrivals keep a contract settled. -/
theorem Settled.registerAll (h : Settled c f arrived handed sm e)
    (hvalid : ∀ b ∈ arrived ++ rs, b.task.Valid) {later : List BlockRangeResult}
    (hreg : sm.registerAll rs = some (sm', later)) :
    ∃ e', Settled c f (arrived ++ rs) (handed ++ later) sm' e' := by
  induction rs generalizing sm arrived handed e later with
  | nil =>
    cases hreg
    exact ⟨e, by rwa [List.append_nil, List.append_nil]⟩
  | cons r rs ih =>
    obtain ⟨⟨sm₁, ready⟩, hfirst, hrest⟩ := Option.bind_eq_some_iff.mp hreg
    obtain ⟨⟨sm₂, more⟩, hlater, hpure⟩ := Option.bind_eq_some_iff.mp hrest
    cases hpure
    have hnext : ∃ e', Settled c f (arrived ++ [r]) (handed ++ ready) sm₁ e' := by
      by_cases hc : r.contract = c
      · refine h.own hc (fun b hb => hvalid b ?_) hfirst
        rcases List.mem_append.mp hb with hb | hb
        · exact List.mem_append_left _ hb
        · exact List.mem_append_right _ (List.mem_singleton.mp hb ▸ List.mem_cons_self)
      · exact ⟨e, h.other hc hfirst⟩
    obtain ⟨e₁, hsettled⟩ := hnext
    have hfinal := ih hsettled (by rwa [List.append_assoc, List.singleton_append]) hlater
    rwa [List.append_assoc, List.singleton_append, List.append_assoc] at hfinal

/-- Before any arrival. -/
theorem settled_of_noPending (hf : sm.commitFrontier c = some f) (hp : sm.pending = []) :
    Settled c f [] [] sm f := by
  refine ⟨hf, rfl, ?_, ?_, ?_, ?_⟩ <;> simp [rangesOf, hp]

/-- **A settled contract is in order.** -/
theorem Settled.inOrder (h : Settled c f arrived handed sm e)
    (hvalid : ∀ r ∈ arrived, r.task.Valid) : InOrder c f arrived handed sm := by
  have hfw : ∀ t ∈ rangesOf c handed, Forward BlockRangeTask.fromBlock BlockRangeTask.next t :=
    fun t ht => forward_rangesOf hvalid t (h.handed t ht)
  refine ⟨⟨e, h.chained⟩, (h.chained.pairwise hfw).imp ?_, ?_, fun tiles g htiles hmem => ?_⟩
  · rintro t u ⟨l, hl, hle⟩
    obtain ⟨-, rfl⟩ := BlockRangeTask.next_eq_some.mp hl
    exact hle
  · rw [h.frontier, ← h.chained.end_eq]
    rcases hlast : (rangesOf c handed).getLast? with _ | t
    · rfl
    · have hend := h.chained.end_eq
      rw [hlast] at hend
      obtain ⟨-, he⟩ := BlockRangeTask.next_eq_some.mp hend
      exact hend.trans (congrArg some he.symm)
  · -- nothing that arrived starts at the frontier
    have hstop : ∀ t ∈ tiles, t.fromBlock ≠ e := by
      intro t ht hte
      rcases h.kept t ((hmem t).mp ht) with hlt | ⟨b, hb, hat⟩
      · omega
      · exact h.settled b hb (hte ▸ hat)
    exact h.chained.eq_of_subset htiles
      (fun t ht => forward_rangesOf hvalid t ((hmem t).mp ht))
      (fun t ht => (hmem t).mpr (h.handed t ht)) hstop

/-- Results below the largest block number are all taken in. -/
theorem registerAll_isSome (hmax : ∀ r ∈ rs, r.task.toBlock < U64.MAX)
    (hpending : ∀ r ∈ sm.pending, r.task.toBlock < U64.MAX) : (sm.registerAll rs).isSome := by
  induction rs generalizing sm with
  | nil => rfl
  | cons r rs ih =>
    obtain ⟨⟨sm₁, ready⟩, hfirst⟩ := Option.isSome_iff_exists.mp
      (StateManager.registerResult_isSome (hmax r List.mem_cons_self) hpending)
    have hpending₁ : ∀ b ∈ sm₁.pending, b.task.toBlock < U64.MAX := by
      intro b hb
      rcases StateManager.registered_of_handed hfirst (.inr hb) with rfl | hb
      · exact hmax b List.mem_cons_self
      · exact hpending b hb
    obtain ⟨⟨sm₂, later⟩, hlater⟩ := Option.isSome_iff_exists.mp
      (ih (fun b hb => hmax b (List.mem_cons_of_mem r hb)) hpending₁)
    exact Option.isSome_iff_exists.mpr ⟨_, Option.bind_eq_some_iff.mpr ⟨_, hfirst,
      Option.bind_eq_some_iff.mpr ⟨_, hlater, rfl⟩⟩⟩

/-- **Ranges that end below the largest block number are handed back in order, however they
arrive.** -/
theorem handsBackInOrder_of_belowMax (frontiers : List (String × ℕ)) (rs : List BlockRangeResult)
    (hvalid : ∀ r ∈ rs, r.task.Valid) (hmax : ∀ r ∈ rs, r.task.toBlock < U64.MAX) :
    HandsBackInOrder (StateManager.new frontiers) rs := by
  have hnone : ∀ r ∈ (StateManager.new frontiers).pending, r.task.toBlock < U64.MAX :=
    fun r hr => (by cases hr)
  obtain ⟨⟨sm, handed⟩, hreg⟩ := Option.isSome_iff_exists.mp (registerAll_isSome hmax hnone)
  refine ⟨sm, handed, hreg, fun c f hf => ?_⟩
  obtain ⟨e, hsettled⟩ := (settled_of_noPending hf rfl).registerAll hvalid hreg
  exact hsettled.inOrder hvalid

namespace Sample

/-- A result without events. -/
def result (c : String) (fromBlock toBlock : ℕ) : BlockRangeResult :=
  ⟨⟨c, fromBlock, toBlock⟩, [], 0⟩

/-- Three ranges in reverse, one of them twice, and one that overlaps two of them. -/
def outOfOrder : List BlockRangeResult :=
  [result "a" 300 399, result "a" 200 299, result "a" 250 320, result "a" 200 299,
    result "a" 100 199]

/-- A range that ends with the largest block number. -/
def last : BlockRangeResult := result "a" 100 U64.MAX

end Sample

theorem handsBackInOrder_of_belowMax_outOfOrder :
    HandsBackInOrder (StateManager.new [("a", 100)]) Sample.outOfOrder :=
  handsBackInOrder_of_belowMax [("a", 100)] Sample.outOfOrder (by decide) (by decide)

theorem not_handsBackInOrder_last :
    ¬ ∀ (frontiers : List (String × ℕ)) (rs : List BlockRangeResult),
      (∀ r ∈ rs, r.task.Valid) → HandsBackInOrder (StateManager.new frontiers) rs := by
  intro h
  obtain ⟨sm, handed, hreg, -⟩ := h [("a", 100)] [Sample.last] (by decide)
  have hnone : (StateManager.new [("a", 100)]).registerAll [Sample.last] = none := by decide
  cases hnone.symm.trans hreg

end

end StellarLend.Indexer
