import StellarLend.Indexer.Pipeline

/-!
# Indexer/Reorgs — what is committed after a rollback, and when it was fetched

A rollback to block `b` says that blocks from `b` on are not what they were: a result with such
blocks must come from a fetch that started later.  The state manager drops the pending results that
*start* at `b` or later.  A pending result that starts before `b` and reaches it stays; a fetch that
is running, or whose result waits in the channel, is registered afterwards like any other, for
nothing says when a result was fetched.
-/

namespace StellarLend.Indexer

open Foundations Reassembly ParallelIndexer

variable {cfg : IndexerConfig} {s s' : ParallelIndexer} {op : Op} {ops : List Op}

/-! ## Fresh results -/

/-- What the commit loop is handed back in a step. -/
def handedBack (s : ParallelIndexer) (op : Op) : List BlockRangeResult :=
  match op with
  | .receive => s.receive.elim [] ParallelIndexer.ready
  | _ => []

/-- The task has no block that a rollback since the `k`-th took back. -/
def Fresh (rollbacks : List ℕ) (k : ℕ) (task : BlockRangeTask) : Prop :=
  ∀ b ∈ rollbacks.drop k, task.toBlock < b

instance (rollbacks : List ℕ) (k : ℕ) (task : BlockRangeTask) :
    Decidable (Fresh rollbacks k task) :=
  inferInstanceAs (Decidable (∀ b ∈ rollbacks.drop k, _))

/-- **Nothing stale is handed back**: whatever a step hands back was fetched after every rollback
that took back one of its blocks. -/
def ReorgSafe (cfg : IndexerConfig) (ops : List Op) : Prop :=
  ∀ ys op zs, ops = ys ++ op :: zs → ∀ r ∈ handedBack (run (step cfg) initial ys) op,
    Fresh (run (step cfg) initial ys).rollbacks r.fetchedAt r.task

/-- A rollback finds nothing that has a block it takes back and that it does not drop: no fetch that
runs, no result in the channel, and no pending result that starts before it. -/
def Caught (s : ParallelIndexer) (op : Op) : Prop :=
  match op with
  | .rollbackTo b =>
    (∀ f ∈ s.fetches, f.task.toBlock < b.toNat) ∧
      (∀ r ∈ s.results, r.task.toBlock < b.toNat) ∧
      ∀ r ∈ s.stateManager.pending, r.start < b.toNat → r.task.toBlock < b.toNat
  | _ => True

instance (s : ParallelIndexer) (op : Op) : Decidable (Caught s op) :=
  match op with
  | .rollbackTo _ => inferInstanceAs (Decidable (_ ∧ _ ∧ _))
  | .restart | .registerContract _ _ | .poll _ | .take | .fetched _ _ | .fetchFailed _ | .receive
  | .commit _ _ | .signalReorg _ | .deleteEventsFromBlock _ | .resetMetadata _ _ | .clearReorg =>
    .isTrue trivial

/-! ## Rollbacks one after another -/

theorem fresh_now (rollbacks : List ℕ) (task : BlockRangeTask) :
    Fresh rollbacks rollbacks.length task := by
  simp [Fresh]

/-- A further rollback takes back none of the blocks that end before it. -/
theorem Fresh.rollback {rollbacks : List ℕ} {k b : ℕ} {task : BlockRangeTask}
    (h : Fresh rollbacks k task) (hb : task.toBlock < b) : Fresh (rollbacks ++ [b]) k task := by
  intro x hx
  rw [List.drop_append] at hx
  rcases List.mem_append.mp hx with hx | hx
  · exact h x hx
  · rw [List.mem_singleton.mp (List.mem_of_mem_drop hx)]
    exact hb

/-- All that is on its way to the commit loop is fresh. -/
structure AllFresh (s : ParallelIndexer) : Prop where
  fetches : ∀ f ∈ s.fetches, Fresh s.rollbacks f.startedAt f.task
  results : ∀ r ∈ s.results, Fresh s.rollbacks r.fetchedAt r.task
  pending : ∀ r ∈ s.stateManager.pending, Fresh s.rollbacks r.fetchedAt r.task

/-! ## Steps -/

/-- A step that makes no rollback keeps all fresh: what starts now is fresh, and what moves on is as
fresh as it was. -/
theorem AllFresh.of_origins (h : AllFresh s) (ho : Origins cfg op s s')
    (hs : s'.rollbacks = s.rollbacks) : AllFresh s' := by
  refine ⟨fun f hf => ?_, fun r hr => ?_, fun r hr => ?_⟩ <;> rw [hs]
  · rcases ho.fetches f hf with hf | ⟨hnow, -⟩
    · exact h.fetches f hf
    · rw [hnow]
      exact fresh_now s.rollbacks f.task
  · rcases ho.results r hr with hr | ⟨i, f, hi, -, htask, hat⟩
    · exact h.results r hr
    · rw [htask, hat]
      exact h.fetches f (List.mem_of_getElem? hi)
  · exact (ho.pending r hr).elim (h.results r) (h.pending r)

/-- A rollback that catches everything leaves only what is fresh. -/
theorem AllFresh.rollbackTo {b : UInt64} (h : AllFresh s) (hC : Caught s (.rollbackTo b)) :
    AllFresh (s.rollbackTo b.toNat) where
  fetches f hf := (h.fetches f hf).rollback (hC.1 f hf)
  results r hr := (h.results r hr).rollback (hC.2.1 r hr)
  pending r hr := by
    obtain ⟨hr, hlt⟩ := StateManager.rollbackTo_pending.mp hr
    exact (h.pending r hr).rollback (hC.2.2 r hr hlt)

/-- **A step that catches what it takes back keeps all fresh.** -/
theorem AllFresh.step (hs : step cfg op s = some s') (hC : Caught s op) (h : AllFresh s) :
    AllFresh s' := by
  obtain ⟨ho, hrollbacks⟩ := step_origins hs
  cases op with
  | rollbackTo b =>
    cases hs
    exact h.rollbackTo hC
  | _ => exact h.of_origins ho (hrollbacks fun b hb => (by cases hb))

/-- What is handed back is fresh. -/
theorem AllFresh.handedBack (h : AllFresh s) {r : BlockRangeResult} (hr : r ∈ handedBack s op) :
    Fresh s.rollbacks r.fetchedAt r.task := by
  cases op with
  | receive =>
    change r ∈ s.receive.elim [] ParallelIndexer.ready at hr
    rcases hs : s.receive with _ | s'
    · rw [hs] at hr
      cases hr
    · rw [hs] at hr
      obtain ⟨result, results, sm, ready, -, hresults, hreg, rfl⟩ := receive_effect hs
      rcases StateManager.registered_of_handed hreg (.inl hr) with rfl | hr
      · exact h.results r (hresults ▸ List.mem_cons_self)
      · exact h.pending r hr
  | _ => cases hr

/-! ## Runs -/

theorem allFresh_initial : AllFresh initial := by
  refine ⟨?_, ?_, ?_⟩ <;> intro r hr <;> cases hr

/-- **Where every rollback catches what it takes back, nothing stale is handed back.** -/
theorem reorgSafe_of_caught (cfg : IndexerConfig) (ops : List Op)
    (h : Meets (step cfg) Caught initial ops) : ReorgSafe cfg ops := by
  rintro ys op zs rfl r hr
  have hfresh : AllFresh (run (step cfg) initial ys) :=
    (meets_append.mp h).1.invariant (fun s op s' hs hC => AllFresh.step hs hC) allFresh_initial
  exact hfresh.handedBack hr

namespace Sample

/-- Batches of 100 blocks, no confirmations. -/
def config : IndexerConfig := ⟨0, 100, 3⟩

/-- A contract registered at block 0, and a new process that fetches it from block 1 on. -/
def start : List Op := [.registerContract "a" 0, .restart]

/-- Two tasks, [1, 100] and [101, 200]; the second is fetched first. -/
def secondFirst : List Op :=
  start ++ [.poll 200, .take, .take, .fetched 1 [], .receive]

/-- A reorg at block 150, after which the first task is fetched, again, with all that is ready. -/
def straddled : List Op :=
  secondFirst ++ handleReorg (run (step config) initial secondFirst).repository 150 ++
    [.fetched 0 [], .receive]

/-- The same with a reorg at block 101, which drops the second task. -/
def dropped : List Op :=
  secondFirst ++ handleReorg (run (step config) initial secondFirst).repository 101 ++
    [.fetched 0 [], .receive]

end Sample

theorem reorgSafe_of_caught_dropped : ReorgSafe Sample.config Sample.dropped :=
  reorgSafe_of_caught Sample.config Sample.dropped (by decide)

theorem not_reorgSafe_straddled : ¬ ReorgSafe Sample.config Sample.straddled := by
  intro h
  have hstale := h (Sample.secondFirst ++
    handleReorg (run (step Sample.config) initial Sample.secondFirst).repository 150 ++
      [.fetched 0 []]) .receive [] (by simp [Sample.straddled])
  revert hstale
  decide

end StellarLend.Indexer
