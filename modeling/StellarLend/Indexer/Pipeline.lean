import StellarLend.Foundations.Run
import StellarLend.Indexer.StateManager

/-!
# Indexer/Pipeline — the parallel indexer, one atomic action at a time, and the sequential one

    dispatcher ──tasks──▸ workers ──results──▸ state manager ──ready──▸ commit loop ──▸ tables
        ▴                                                                                  │
        └────────────────────────────── metadata ──────────────────────────────────────────┘

Every action that holds a lock, receives from a channel or runs one statement is one step, and steps
of the parts interleave freely.  What comes from outside is part of the step: the current block, the
answer of the provider, whether the database does what it is asked.  A step that traps is not taken:
the process is gone, and what goes on is the next one (`restart`).

Handling a reorg is a sequence of steps, `handleReorg`, between which others may fall.

The sequential indexer polls: it lists the batches of every contract up to the confirmed tip, and
works through them one after another: fetch the logs, insert the events, refresh the cache.  A batch
whose first attempt succeeds moves the last indexed block of its contract; one whose first attempt
fails is tried again, and whatever comes of it the next batch follows.
-/

namespace StellarLend.Indexer

open Foundations Reassembly

/-! ## The parts -/

structure IndexerConfig where
  /-- How many confirmations to wait for. -/
  confirmations : ℕ
  /-- How many blocks a task has. -/
  batchSize : ℕ
  maxRetries : ℕ

/-- A task in the hands of a worker. -/
structure Fetch where
  task : BlockRangeTask
  attempt : ℕ
  /-- How many rollbacks had been made when the attempt started: the program does not keep this. -/
  startedAt : ℕ
  deriving DecidableEq, Repr

structure ParallelIndexer where
  repository : Repository
  stateManager : StateManager
  /-- The channel from the dispatcher to the workers. -/
  tasks : List BlockRangeTask
  /-- What the workers are at. -/
  fetches : List Fetch
  /-- The channel from the workers to the commit loop. -/
  results : List BlockRangeResult
  /-- What the state manager handed back and the commit loop has still to write. -/
  ready : List BlockRangeResult
  /-- The blocks rolled back to, first to last: the program does not keep them. -/
  rollbacks : List ℕ

namespace ParallelIndexer

/-! ## Starting -/

/-- The state manager of a new process: the frontiers come from the metadata. -/
def initialStateManager (db : Repository) : Option StateManager :=
  if ∀ m ∈ db.getActiveMetadata, m.firstBlock.isSome then
    some (StateManager.new
      (db.getActiveMetadata.filterMap fun m => m.firstBlock.map fun b => (m.contractAddress, b)))
  else none

/-- A new process on the tables the last one left. -/
def launch (db : Repository) (rollbacks : List ℕ) : Option ParallelIndexer := do
  let sm ← initialStateManager db
  pure ⟨db, sm, [], [], [], [], rollbacks⟩

/-- Register a contract: make its row and its frontier, unless it has them. -/
def registerContract (s : ParallelIndexer) (contractAddress : String) (startBlock : ℕ) :
    ParallelIndexer :=
  let frontiers := s.stateManager.commitFrontier
  { s with
    repository := s.repository.getOrCreateMetadata contractAddress startBlock
    stateManager := { s.stateManager with
      commitFrontier :=
        if frontiers contractAddress = none then
          Function.update frontiers contractAddress (some startBlock)
        else frontiers } }

/-! ## The dispatcher -/

/-- The tasks of one contract from a block up to the confirmed tip, in batches.  A step that
overflows ends the loop.  The fuel is enough, unless batches are empty: then the loop never ends,
and this is its beginning. -/
def batches (contractAddress : String) (batchSize confirmedTip : ℕ) : ℕ → ℕ → List BlockRangeTask
  | 0, _ => []
  | n + 1, batchStart =>
    if batchStart ≤ confirmedTip then
      match U64.checkedAdd batchStart batchSize with
      | none | some 0 => []
      | some (stop + 1) =>
        let batchEnd := min stop confirmedTip
        ⟨contractAddress, batchStart, batchEnd⟩ ::
          batches contractAddress batchSize confirmedTip n (batchEnd + 1)
    else []

/-- The tasks of the contract a row is about. -/
def tasksOf (cfg : IndexerConfig) (confirmedTip : ℕ) (m : IndexingMetadata) :
    List BlockRangeTask :=
  m.firstBlock.elim [] fun fromBlock =>
    batches m.contractAddress cfg.batchSize confirmedTip (confirmedTip + 1 - fromBlock) fromBlock

/-- The tasks of a poll: those of every contract from its first block on. -/
def dispatch (cfg : IndexerConfig) (db : Repository) (confirmedTip : ℕ) : List BlockRangeTask :=
  if ∀ m ∈ db.getActiveMetadata, m.firstBlock.isSome then
    db.getActiveMetadata.flatMap (tasksOf cfg confirmedTip)
  else []

/-! ## The workers -/

/-- A worker receives a task, and drops it while a reorg is signalled. -/
def take (s : ParallelIndexer) : Option ParallelIndexer :=
  match s.tasks with
  | [] => none
  | task :: tasks =>
    if s.stateManager.reorgSignal.isSome then some { s with tasks := tasks }
    else some { s with tasks := tasks, fetches := s.fetches ++ [⟨task, 0, s.rollbacks.length⟩] }

/-- The provider answers the `i`-th fetch. -/
def fetched (s : ParallelIndexer) (i : ℕ) (events : List CreateEvent) : Option ParallelIndexer := do
  let fetch ← s.fetches[i]?
  pure { s with
    fetches := s.fetches.eraseIdx i
    results := s.results ++ [⟨fetch.task, events, fetch.startedAt⟩] }

/-- The `i`-th fetch fails: another attempt, or the task is given up. -/
def fetchFailed (cfg : IndexerConfig) (s : ParallelIndexer) (i : ℕ) : Option ParallelIndexer := do
  let fetch ← s.fetches[i]?
  if fetch.attempt < cfg.maxRetries then
    pure { s with
      fetches := s.fetches.set i
        { fetch with attempt := fetch.attempt + 1, startedAt := s.rollbacks.length } }
  else pure { s with fetches := s.fetches.eraseIdx i }

/-! ## The commit loop -/

/-- The commit loop, done with what was ready, registers the next result. -/
def receive (s : ParallelIndexer) : Option ParallelIndexer :=
  match s.ready, s.results with
  | [], result :: results => do
    let (sm, ready) ← s.stateManager.registerResult result
    pure { s with stateManager := sm, results := results, ready := ready }
  | _, _ => none

/-- Write one batch: its events, and then how far the contract is indexed.  A failure is logged.
`insert` is the chunk the database refuses, and `update` whether it takes the new last block. -/
def commitBatch (db : Repository) (batch : BlockRangeResult) (insert : Option ℕ) (update : Bool) :
    Repository :=
  let stored := if batch.events = [] then (db, true) else db.createEventsBatch batch.events insert
  if stored.2 && update then
    (stored.1.updateMetadata batch.contract batch.task.toBlock).getD stored.1
  else stored.1

/-- The commit loop writes the next batch. -/
def commit (s : ParallelIndexer) (insert : Option ℕ) (update : Bool) : Option ParallelIndexer :=
  match s.ready with
  | [] => none
  | batch :: ready =>
    some { s with repository := commitBatch s.repository batch insert update, ready := ready }

/-! ## Reorgs -/

/-- Roll the state manager back. -/
def rollbackTo (s : ParallelIndexer) (reorgBlock : ℕ) : ParallelIndexer :=
  { s with
    stateManager := s.stateManager.rollbackTo reorgBlock
    rollbacks := s.rollbacks ++ [reorgBlock] }

/-- Reset the pointer of one contract to the block before the reorg. -/
def resetMetadata (s : ParallelIndexer) (contractAddress : String) (reorgBlock : ℕ) :
    Option ParallelIndexer := do
  let db ← s.repository.updateMetadata contractAddress (reorgBlock - 1)
  pure { s with repository := db }

/-! ## Steps -/

/-- The actions of the parts, with what comes from outside. -/
inductive Op where
  | restart
  | registerContract (contractAddress : String) (startBlock : UInt64)
  | poll (currentBlock : UInt64)
  | take
  | fetched (i : ℕ) (events : List CreateEvent)
  | fetchFailed (i : ℕ)
  | receive
  | commit (insert : Option ℕ) (update : Bool)
  | signalReorg (block : UInt64)
  | rollbackTo (reorgBlock : UInt64)
  | deleteEventsFromBlock (reorgBlock : UInt64)
  | resetMetadata (contractAddress : String) (reorgBlock : UInt64)
  | clearReorg
  deriving DecidableEq, Repr

/-- One step; `none` if it is not possible, or traps. -/
def step (cfg : IndexerConfig) (op : Op) (s : ParallelIndexer) : Option ParallelIndexer :=
  match op with
  | .restart => launch s.repository s.rollbacks
  | .registerContract c start => some (s.registerContract c start.toNat)
  | .poll current => some { s with
      tasks := s.tasks ++ dispatch cfg s.repository (current.toNat - cfg.confirmations) }
  | .take => s.take
  | .fetched i events => s.fetched i events
  | .fetchFailed i => s.fetchFailed cfg i
  | .receive => s.receive
  | .commit insert update => s.commit insert update
  | .signalReorg b => some { s with stateManager := s.stateManager.signalReorg b.toNat }
  | .rollbackTo b => some (s.rollbackTo b.toNat)
  | .deleteEventsFromBlock b => some { s with
      repository := s.repository.deleteEventsFromBlock b.toNat }
  | .resetMetadata c b => s.resetMetadata c b.toNat
  | .clearReorg => some { s with stateManager := s.stateManager.clearReorg }

/-- What handling a reorg does, step by step: the contracts whose pointers it resets are read from
the tables. -/
def handleReorg (db : Repository) (reorgBlock : UInt64) : List Op :=
  [.signalReorg reorgBlock, .rollbackTo reorgBlock, .deleteEventsFromBlock reorgBlock] ++
    (db.getActiveMetadata.filter fun m => I64.ofU64 reorgBlock.toNat ≤ m.lastIndexedBlock).map
      (fun m => .resetMetadata m.contractAddress reorgBlock) ++
    [.clearReorg]

/-- The first process, on empty tables. -/
def initial : ParallelIndexer := ⟨Repository.empty, StateManager.new [], [], [], [], [], []⟩

/-! ## What a step does -/

variable {cfg : IndexerConfig} {op : Op} {s s' : ParallelIndexer}

/-- A new process has the frontiers of the metadata, and nothing on its way. -/
theorem launch_effect {db : Repository} {rollbacks : List ℕ} (h : launch db rollbacks = some s) :
    (∀ m ∈ db.getActiveMetadata, m.firstBlock.isSome) ∧
      s = ⟨db, StateManager.new (db.getActiveMetadata.filterMap fun m =>
        m.firstBlock.map fun b => (m.contractAddress, b)), [], [], [], [], rollbacks⟩ := by
  obtain ⟨sm, hsm, hpure⟩ := Option.bind_eq_some_iff.mp h
  unfold initialStateManager at hsm
  split at hsm
  · next hall =>
    cases hsm
    cases hpure
    exact ⟨hall, rfl⟩
  · cases hsm

/-- A new process starts each contract at the first block its row says is to be fetched. -/
theorem launch_frontier {db : Repository} {rollbacks : List ℕ} (h : launch db rollbacks = some s)
    {c : String} {f : ℕ} : s.stateManager.commitFrontier c = some f ↔
      ∃ m ∈ db.getActiveMetadata, m.contractAddress = c ∧ m.firstBlock = some f := by
  obtain ⟨-, rfl⟩ := launch_effect h
  have hrows : db.getActiveMetadata.Pairwise fun m m' => m.contractAddress ≠ m'.contractAddress :=
    (List.pairwise_map.mp db.uniqueContracts).filter _
  have hnodup : ((db.getActiveMetadata.filterMap fun m =>
      m.firstBlock.map fun b => (m.contractAddress, b)).map Prod.fst).Nodup := by
    rw [List.Nodup, List.pairwise_map, List.pairwise_filterMap]
    refine hrows.imp fun {m m'} hne p hp p' hp' => ?_
    obtain ⟨b, -, rfl⟩ := Option.map_eq_some_iff.mp hp
    obtain ⟨b', -, rfl⟩ := Option.map_eq_some_iff.mp hp'
    exact hne
  rw [StateManager.new_commitFrontier hnodup]
  simp only [List.mem_filterMap, Option.map_eq_some_iff, Prod.mk.injEq]
  refine exists_congr fun m => and_congr_right fun _ => ?_
  constructor
  · rintro ⟨b, hb, hc, rfl⟩
    exact ⟨hc, hb⟩
  · rintro ⟨hc, hb⟩
    exact ⟨f, hb, hc, rfl⟩

/-- The first result is registered, and what that hands back is ready. -/
theorem receive_effect (h : s.receive = some s') :
    ∃ result results sm ready, s.ready = [] ∧ s.results = result :: results ∧
      s.stateManager.registerResult result = some (sm, ready) ∧
      s' = { s with stateManager := sm, results := results, ready := ready } := by
  unfold receive at h
  split at h
  · next result results hready hresults =>
    obtain ⟨⟨sm, ready⟩, hreg, hpure⟩ := Option.bind_eq_some_iff.mp h
    cases hpure
    exact ⟨result, results, sm, ready, hready, hresults, hreg, rfl⟩
  · cases h

/-- The first batch is written. -/
theorem commit_effect {insert : Option ℕ} {update : Bool} (h : s.commit insert update = some s') :
    ∃ batch ready, s.ready = batch :: ready ∧ s' = { s with
      repository := commitBatch s.repository batch insert update, ready := ready } := by
  unfold commit at h
  split at h
  · cases h
  · next batch ready hready =>
    cases h
    exact ⟨batch, ready, hready, rfl⟩

/-- A batch of a contract ends at the confirmed tip or before. -/
theorem mem_batches {c : String} {size tip n start : ℕ} {t : BlockRangeTask}
    (h : t ∈ batches c size tip n start) : t.contractAddress = c ∧ t.toBlock ≤ tip := by
  induction n generalizing start with
  | zero => cases h
  | succ n ih =>
    unfold batches at h
    split at h
    · split at h
      · cases h
      · cases h
      · rcases List.mem_cons.mp h with rfl | h
        · exact ⟨rfl, min_le_right _ _⟩
        · exact ih h
    · cases h

theorem mem_tasksOf {tip : ℕ} {m : IndexingMetadata} {t : BlockRangeTask}
    (h : t ∈ tasksOf cfg tip m) : t.contractAddress = m.contractAddress ∧ t.toBlock ≤ tip := by
  unfold tasksOf at h
  rcases hf : m.firstBlock with _ | f <;> rw [hf] at h
  · cases h
  · exact mem_batches h

/-- Among the tasks of several contracts, those of one are what its own row makes. -/
theorem filter_tasksOf {tip : ℕ} {ms : List IndexingMetadata} {m : IndexingMetadata}
    (hms : ms.Pairwise fun m m' => m.contractAddress ≠ m'.contractAddress) (hm : m ∈ ms) :
    ((ms.flatMap (tasksOf cfg tip)).filter fun t => t.contractAddress = m.contractAddress) =
      tasksOf cfg tip m := by
  have hown : ∀ m' t, t ∈ tasksOf cfg tip m' → t.contractAddress = m'.contractAddress :=
    fun _ _ ht => (mem_tasksOf ht).1
  have hself : ∀ m', ((tasksOf cfg tip m').filter fun t =>
      t.contractAddress = m'.contractAddress) = tasksOf cfg tip m' := fun m' =>
    List.filter_eq_self.mpr fun t ht => decide_eq_true (hown m' t ht)
  have hother : ∀ m', m'.contractAddress ≠ m.contractAddress → ((tasksOf cfg tip m').filter fun t =>
      t.contractAddress = m.contractAddress) = [] := fun m' hne =>
    List.filter_eq_nil_iff.mpr fun t ht heq =>
      hne ((hown m' t ht).symm.trans (of_decide_eq_true heq))
  induction ms with
  | nil => cases hm
  | cons m₀ ms ih =>
    obtain ⟨hne, hrest⟩ := List.pairwise_cons.mp hms
    rw [List.flatMap_cons, List.filter_append]
    rcases List.mem_cons.mp hm with rfl | hm
    · have hnone : ((ms.flatMap (tasksOf cfg tip)).filter fun t =>
          t.contractAddress = m.contractAddress) = [] := by
        refine List.filter_eq_nil_iff.mpr fun t ht heq => ?_
        obtain ⟨m', hm', ht⟩ := List.mem_flatMap.mp ht
        exact hne m' hm' ((of_decide_eq_true heq).symm.trans (hown m' t ht))
      rw [hself, hnone, List.append_nil]
    · rw [hother m₀ (hne m hm), List.nil_append, ih hrest hm]

/-- Batches follow one another from the first. -/
theorem batches_follow (c : String) (size tip n start : ℕ) : ∃ e,
    Chained BlockRangeTask.fromBlock (fun t => some (t.toBlock + 1)) start
      (batches c size tip n start) e := by
  induction n generalizing start with
  | zero => exact ⟨start, rfl⟩
  | succ n ih =>
    unfold batches
    split
    · split
      · exact ⟨start, rfl⟩
      · exact ⟨start, rfl⟩
      · obtain ⟨e, he⟩ := ih _
        exact ⟨e, rfl, _, rfl, he⟩
    · exact ⟨start, rfl⟩

/-- The operations that fetch, up to the answer of the provider. -/
def Op.Fetches : Op → Prop
  | .poll _ => True
  | .take => True
  | .fetched _ _ => True
  | .fetchFailed _ => True
  | _ => False

/-- **A step that fetches leaves the tables, the frontiers and what is ready.** -/
theorem step_fetches (h : step cfg op s = some s') (hop : op.Fetches) :
    ∃ tasks fetches results,
      s' = { s with tasks := tasks, fetches := fetches, results := results } := by
  cases op with
  | poll current =>
    cases h
    exact ⟨_, _, _, rfl⟩
  | take =>
    change s.take = some s' at h
    unfold take at h
    split at h
    · cases h
    · split at h <;> cases h <;> exact ⟨_, _, _, rfl⟩
  | fetched i events =>
    obtain ⟨fetch, -, hpure⟩ := Option.bind_eq_some_iff.mp h
    cases hpure
    exact ⟨_, _, _, rfl⟩
  | fetchFailed i =>
    obtain ⟨fetch, -, hpure⟩ := Option.bind_eq_some_iff.mp h
    split at hpure <;> cases hpure <;> exact ⟨_, _, _, rfl⟩
  | _ => exact hop.elim

/-- **Where everything on its way comes from**: tasks from a poll, fetches from tasks, results from
fetches, what waits or is ready from results. -/
structure Origins (cfg : IndexerConfig) (op : Op) (s s' : ParallelIndexer) : Prop where
  tasks : ∀ t ∈ s'.tasks, t ∈ s.tasks ∨
    ∃ current, op = .poll current ∧
      t ∈ dispatch cfg s.repository (current.toNat - cfg.confirmations)
  fetches : ∀ f ∈ s'.fetches, f ∈ s.fetches ∨
    f.startedAt = s.rollbacks.length ∧ (f.task ∈ s.tasks ∨ ∃ f₀ ∈ s.fetches, f₀.task = f.task)
  results : ∀ r ∈ s'.results, r ∈ s.results ∨
    ∃ i, ∃ f ∈ s.fetches[i]?, op = .fetched i r.events ∧ r.task = f.task ∧
      r.fetchedAt = f.startedAt
  pending : ∀ r ∈ s'.stateManager.pending, r ∈ s.results ∨ r ∈ s.stateManager.pending
  ready : ∀ r ∈ s'.ready, (r ∈ s.results ∨ r ∈ s.stateManager.pending) ∨ r ∈ s.ready

theorem Origins.of_eq (ht : s'.tasks = s.tasks) (hf : s'.fetches = s.fetches)
    (hr : s'.results = s.results) (hp : s'.stateManager.pending = s.stateManager.pending)
    (hready : s'.ready = s.ready) : Origins cfg op s s' where
  tasks _ h := .inl (ht ▸ h)
  fetches _ h := .inl (hf ▸ h)
  results _ h := .inl (hr ▸ h)
  pending _ h := .inr (hp ▸ h)
  ready _ h := .inr (hready ▸ h)

theorem take_origins (h : s.take = some s') :
    Origins cfg op s s' ∧ s'.rollbacks = s.rollbacks := by
  unfold take at h
  split at h
  · cases h
  · next task tasks htasks =>
    have hsub : ∀ t ∈ tasks, t ∈ s.tasks := fun t ht => htasks ▸ List.mem_cons_of_mem task ht
    split at h <;> cases h
    · exact ⟨⟨fun t ht => .inl (hsub t ht), fun _ => .inl, fun _ => .inl, fun _ => .inr,
        fun _ => .inr⟩, rfl⟩
    · refine ⟨⟨fun t ht => .inl (hsub t ht), fun f hf => ?_, fun _ => .inl, fun _ => .inr,
        fun _ => .inr⟩, rfl⟩
      refine (List.mem_append.mp hf).imp id fun hf => ?_
      rw [List.mem_singleton.mp hf]
      exact ⟨rfl, .inl (htasks ▸ List.mem_cons_self)⟩

theorem fetched_origins {i : ℕ} {events : List CreateEvent} (h : s.fetched i events = some s') :
    Origins cfg (.fetched i events) s s' ∧ s'.rollbacks = s.rollbacks := by
  obtain ⟨fetch, hi, hpure⟩ := Option.bind_eq_some_iff.mp h
  cases hpure
  refine ⟨⟨fun _ => .inl, fun f hf => .inl (List.mem_of_mem_eraseIdx hf), fun r hr => ?_,
    fun _ => .inr, fun _ => .inr⟩, rfl⟩
  refine (List.mem_append.mp hr).imp id fun hr => ?_
  rw [List.mem_singleton.mp hr]
  exact ⟨i, fetch, hi, rfl, rfl, rfl⟩

theorem fetchFailed_origins {i : ℕ} (h : s.fetchFailed cfg i = some s') :
    Origins cfg op s s' ∧ s'.rollbacks = s.rollbacks := by
  obtain ⟨fetch, hi, hpure⟩ := Option.bind_eq_some_iff.mp h
  split at hpure <;> cases hpure
  · refine ⟨⟨fun _ => .inl, fun f hf => ?_, fun _ => .inl, fun _ => .inr, fun _ => .inr⟩, rfl⟩
    refine (List.mem_or_eq_of_mem_set hf).imp id fun hf => ?_
    rw [hf]
    exact ⟨rfl, .inr ⟨fetch, List.mem_of_getElem? hi, rfl⟩⟩
  · exact ⟨⟨fun _ => .inl, fun f hf => .inl (List.mem_of_mem_eraseIdx hf), fun _ => .inl,
      fun _ => .inr, fun _ => .inr⟩, rfl⟩

theorem receive_origins (h : s.receive = some s') :
    Origins cfg op s s' ∧ s'.rollbacks = s.rollbacks := by
  obtain ⟨result, results, sm, ready, -, hresults, hreg, rfl⟩ := receive_effect h
  have hmem : ∀ r, r ∈ ready ∨ r ∈ sm.pending → r ∈ s.results ∨ r ∈ s.stateManager.pending := by
    intro r hr
    refine (StateManager.registered_of_handed hreg hr).imp (fun hr => ?_) id
    rw [hr, hresults]
    exact List.mem_cons_self
  refine ⟨⟨fun _ => .inl, fun _ => .inl, fun r hr => .inl ?_, fun r hr => hmem r (.inr hr),
    fun r hr => .inl (hmem r (.inl hr))⟩, rfl⟩
  rw [hresults]
  exact List.mem_cons_of_mem result hr

/-- **Every step, where what it leaves comes from.** -/
theorem step_origins (h : step cfg op s = some s') :
    Origins cfg op s s' ∧
      ((∀ b, op ≠ .rollbackTo b) → s'.rollbacks = s.rollbacks) := by
  cases op with
  | restart =>
    obtain ⟨-, rfl⟩ := launch_effect h
    refine ⟨⟨fun t ht => (by cases ht), fun f hf => (by cases hf), fun r hr => (by cases hr),
      fun r hr => (by cases hr), fun r hr => (by cases hr)⟩, fun _ => rfl⟩
  | registerContract c start => cases h; exact ⟨.of_eq rfl rfl rfl rfl rfl, fun _ => rfl⟩
  | poll current =>
    cases h
    refine ⟨⟨fun t ht => ?_, fun _ => .inl, fun _ => .inl, fun _ => .inr, fun _ => .inr⟩,
      fun _ => rfl⟩
    exact (List.mem_append.mp ht).imp id fun ht => ⟨current, rfl, ht⟩
  | take => exact (take_origins h).imp id fun h _ => h
  | fetched i events => exact (fetched_origins h).imp id fun h _ => h
  | fetchFailed i => exact (fetchFailed_origins h).imp id fun h _ => h
  | receive => exact (receive_origins h).imp id fun h _ => h
  | commit insert update =>
    obtain ⟨batch, ready, hready, rfl⟩ := commit_effect h
    refine ⟨⟨fun _ => .inl, fun _ => .inl, fun _ => .inl, fun _ => .inr, fun r hr => .inr ?_⟩,
      fun _ => rfl⟩
    rw [hready]
    exact List.mem_cons_of_mem batch hr
  | signalReorg b => cases h; exact ⟨.of_eq rfl rfl rfl rfl rfl, fun _ => rfl⟩
  | rollbackTo b =>
    cases h
    exact ⟨⟨fun _ => .inl, fun _ => .inl, fun _ => .inl,
      fun r hr => .inr (StateManager.rollbackTo_pending.mp hr).1, fun _ => .inr⟩,
      fun hb => absurd rfl (hb b)⟩
  | deleteEventsFromBlock b => cases h; exact ⟨.of_eq rfl rfl rfl rfl rfl, fun _ => rfl⟩
  | resetMetadata c b =>
    obtain ⟨db, -, hpure⟩ := Option.bind_eq_some_iff.mp h
    cases hpure
    exact ⟨.of_eq rfl rfl rfl rfl rfl, fun _ => rfl⟩
  | clearReorg => cases h; exact ⟨.of_eq rfl rfl rfl rfl rfl, fun _ => rfl⟩

end ParallelIndexer

open ParallelIndexer

/-! ## The sequential indexer -/

/-- What the outside makes of one attempt at a batch. -/
structure Attempt where
  /-- The events of the blocks; `none` if the provider or the parser fails. -/
  logs : Option (List CreateEvent)
  /-- The chunk the database refuses. -/
  insert : Option ℕ
  /-- Whether the cache is refreshed and the subscribers are told. -/
  cache : Bool
  deriving DecidableEq, Repr

structure IndexerService where
  repository : Repository
  /-- What is left of the poll. -/
  batches : List BlockRangeTask

namespace IndexerService

/-- Index the blocks of one contract, and say whether all of it succeeded. -/
def indexBlockRange (db : Repository) (task : BlockRangeTask) (a : Attempt) : Repository × Bool :=
  if task.fromBlock > task.toBlock then (db, false)
  else
    match a.logs with
    | none => (db, false)
    | some events =>
      if events = [] then (db, true)
      else
        let stored := db.createEventsBatch events a.insert
        (stored.1, stored.2 && a.cache)

/-- Try a batch again, until an attempt succeeds or none is left. -/
def retry (db : Repository) (task : BlockRangeTask) : List Attempt → Repository
  | [] => db
  | a :: attempts =>
    let tried := indexBlockRange db task a
    if tried.2 then tried.1 else retry tried.1 task attempts

/-- Work off the next batch.  Where the last indexed block cannot be written the service stops, and
the rest of the poll with it. -/
def indexBatch (cfg : IndexerConfig) (s : IndexerService) (first : Attempt)
    (retries : List Attempt) (update : Bool) : Option IndexerService :=
  match s.batches with
  | [] => none
  | task :: batches =>
    let tried := indexBlockRange s.repository task first
    if tried.2 then
      if update then
        some (match tried.1.updateMetadata task.contractAddress task.toBlock with
          | some db => ⟨db, batches⟩
          | none => ⟨tried.1, []⟩)
      else some ⟨tried.1, []⟩
    else some ⟨retry tried.1 task (retries.take cfg.maxRetries), batches⟩

/-- The actions, with what comes from outside. -/
inductive Op where
  /-- A new process on the tables the last one left. -/
  | restart
  | registerContract (contractAddress : String) (startBlock : UInt64)
  | poll (currentBlock : UInt64)
  | indexBatch (first : Attempt) (retries : List Attempt) (update : Bool)
  deriving DecidableEq, Repr

/-- One step; `none` if it is not possible. -/
def step (cfg : IndexerConfig) (op : Op) (s : IndexerService) : Option IndexerService :=
  match op with
  | .restart => some { s with batches := [] }
  | .registerContract c start => some { s with
      repository := s.repository.getOrCreateMetadata c start.toNat }
  | .poll current =>
    if s.batches = [] then
      let confirmedTip := current.toNat - cfg.confirmations
      some { s with batches := s.repository.getActiveMetadata.flatMap (tasksOf cfg confirmedTip) }
    else none
  | .indexBatch first retries update => s.indexBatch cfg first retries update

def initial : IndexerService := ⟨Repository.empty, []⟩

end IndexerService

end StellarLend.Indexer
