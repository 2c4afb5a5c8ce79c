import StellarLend.Indexer.Pipeline

/-!
# Indexer/Gaps — whether the blocks up to the last indexed one are all there

Storing the events of a batch and moving the last indexed block are two statements, and either may
fail.  A batch that could not be stored is passed over — by the parallel indexer because its
frontier is past it already, by the sequential one because its loop goes on — and the next batch
that succeeds moves the last indexed block past it.

The start block itself is in a gap from the first: a registration makes it the last indexed block,
and fetching starts with the block after.
-/

namespace StellarLend.Indexer

open Foundations Reassembly

variable {cfg : IndexerConfig} (chain : String → ℕ → List CreateEvent)

/-! ## What the blocks hold -/

/-- The events of a range of blocks, of a chain that says what each block holds. -/
def logs (t : BlockRangeTask) : List CreateEvent :=
  (List.range' t.fromBlock (t.toBlock + 1 - t.fromBlock)).flatMap (chain t.contractAddress)

/-- The events of the blocks after `start` and before `stop` are stored. -/
def StoredBetween (db : Repository) (c : String) (start stop : ℕ) : Prop :=
  ∀ b, start < b → b < stop → ∀ e ∈ chain c b, db.Stored e

variable {chain} {db db' : Repository} {c : String} {start stop : ℕ}

theorem mem_logs {t : BlockRangeTask} {e : CreateEvent} :
    e ∈ logs chain t ↔
      ∃ b, t.fromBlock ≤ b ∧ b ≤ t.toBlock ∧ e ∈ chain t.contractAddress b := by
  rw [logs, List.mem_flatMap]
  refine exists_congr fun b => ?_
  rw [List.mem_range'_1]
  constructor
  · rintro ⟨⟨hle, hlt⟩, he⟩
    exact ⟨hle, by omega, he⟩
  · rintro ⟨hle, hto, he⟩
    exact ⟨⟨hle, by omega⟩, he⟩

theorem StoredBetween.mono (h : StoredBetween chain db c start stop)
    (hgrows : ∀ e, db.Stored e → db'.Stored e) : StoredBetween chain db' c start stop :=
  fun b hb hlt e he => hgrows e (h b hb hlt e he)

/-- A range that is stored goes on where the blocks before it end. -/
theorem StoredBetween.extend {t : BlockRangeTask}
    (h : StoredBetween chain db t.contractAddress start t.fromBlock)
    (hstored : ∀ e ∈ logs chain t, db.Stored e) :
    StoredBetween chain db t.contractAddress start (t.toBlock + 1) := by
  intro b hb hlt e he
  rcases Nat.lt_or_ge b t.fromBlock with hbefore | hin
  · exact h b hb hbefore e he
  · exact hstored e (mem_logs.mpr ⟨b, hin, by omega, he⟩)

/-! ## Rows whose blocks are all there -/

variable (chain) in
/-- The row of a contract whose start block is empty and whose later blocks, up to the last indexed
one, are stored. -/
structure Row.Complete (db : Repository) (m : IndexingMetadata) : Prop where
  active : m.isActive = true
  bounded : m.lastIndexedBlock ≤ I64.MAX
  startEmpty : chain m.contractAddress m.startBlock = []
  stored : StoredBetween chain db m.contractAddress m.startBlock
    (I64.toU64 m.lastIndexedBlock + 1)

variable (chain) in
/-- All rows are complete. -/
def Complete (db : Repository) : Prop := ∀ m ∈ db.metadata, Row.Complete chain db m

/-- Events more do no harm. -/
theorem Complete.grow (h : Complete chain db) (hm : db'.metadata = db.metadata)
    (hgrows : ∀ e, db.Stored e → db'.Stored e) : Complete chain db' := by
  intro m hmem
  have hrow := h m (hm ▸ hmem)
  exact ⟨hrow.active, hrow.bounded, hrow.startEmpty, hrow.stored.mono hgrows⟩

/-- A registration is complete if the start block has no events. -/
theorem Complete.register (h : Complete chain db) (hstart : start ≤ U64.MAX)
    (hempty : ¬ db.HasRow c → chain c start = []) :
    Complete chain (db.getOrCreateMetadata c start) := by
  have hgrows : ∀ e, db.Stored e → (db.getOrCreateMetadata c start).Stored e := fun e he => by
    rwa [Repository.Stored, Repository.getOrCreateMetadata_events]
  intro m hm
  rcases Repository.mem_getOrCreateMetadata.mp hm with hm | ⟨hnew, rfl⟩
  · have hrow := h m hm
    exact ⟨hrow.active, hrow.bounded, hrow.startEmpty, hrow.stored.mono hgrows⟩
  · refine ⟨rfl, I64.ofU64_le_max hstart, hempty hnew, fun b hb hlt => ?_⟩
    rw [I64.toU64_ofU64 hstart] at hlt
    exact absurd hlt (Nat.not_lt.mpr hb)

/-- An update is complete if it goes no further than what is stored. -/
theorem Complete.update {last : ℕ} (h : Complete chain db) (hlast : last ≤ U64.MAX)
    (hstored : ∀ m ∈ db.metadata, m.contractAddress = c →
      StoredBetween chain db c m.startBlock (last + 1))
    (hupdate : db.updateMetadata c last = some db') : Complete chain db' := by
  obtain ⟨-, hevents, hmetadata⟩ := Repository.updateMetadata_effect hupdate
  have hgrows : ∀ e, db.Stored e → db'.Stored e := fun e he => by
    rwa [Repository.Stored, hevents]
  intro m' hm'
  rw [hmetadata] at hm'
  obtain ⟨m, hm, rfl⟩ := List.mem_map.mp hm'
  have hrow := h m hm
  by_cases hc : m.contractAddress = c
  · have hmoved : (m.moved c last).lastIndexedBlock = I64.ofU64 last :=
      IndexingMetadata.moved_lastIndexedBlock hc
    refine ⟨by simpa using hrow.active, ?_, by simpa using hrow.startEmpty, ?_⟩
    · rw [hmoved]
      exact I64.ofU64_le_max hlast
    · rw [hmoved, I64.toU64_ofU64 hlast, IndexingMetadata.moved_contractAddress,
        IndexingMetadata.moved_startBlock, hc]
      exact (hstored m hm hc).mono hgrows
  · rw [IndexingMetadata.moved_of_ne hc]
    exact ⟨hrow.active, hrow.bounded, hrow.startEmpty, hrow.stored.mono hgrows⟩

/-- What is fetched first is at most the block after the last indexed one. -/
theorem IndexingMetadata.firstBlock_le {m : IndexingMetadata} {b : ℕ} (h : m.firstBlock = some b) :
    b ≤ I64.toU64 m.lastIndexedBlock + 1 := by
  unfold IndexingMetadata.firstBlock at h
  split at h
  · cases h
    unfold I64.toU64
    omega
  · cases h

/-! ## Committing -/

/-- The database takes every chunk of the events. -/
def Taken (events : List CreateEvent) (insert : Option ℕ) : Prop :=
  ∀ chunk ∈ insert, events.length ≤ chunk * Repository.CHUNK

instance (events : List CreateEvent) (insert : Option ℕ) : Decidable (Taken events insert) :=
  inferInstanceAs (Decidable (∀ chunk ∈ insert, _))

theorem createEventsBatch_of_taken {events : List CreateEvent} {insert : Option ℕ}
    (h : Taken events insert) : (db.createEventsBatch events insert).2 = true := by
  unfold Repository.createEventsBatch
  split
  · rfl
  · next chunk =>
    rw [if_neg (Nat.not_lt.mpr (h chunk rfl))]

/-- Writing a batch loses no event, and a batch that the database takes is stored; the rows are as
before, or the contract's is moved. -/
theorem commitBatch_effect (db : Repository) {batch : BlockRangeResult} {insert : Option ℕ}
    (update : Bool)
    (h : Taken batch.events insert) :
    ∃ stored : Repository, (∀ e, db.Stored e → stored.Stored e) ∧
      (∀ e ∈ batch.events, stored.Stored e) ∧ stored.metadata = db.metadata ∧
      (ParallelIndexer.commitBatch db batch insert update = stored ∨
        stored.updateMetadata batch.contract batch.task.toBlock =
          some (ParallelIndexer.commitBatch db batch insert update)) := by
  have hstored : ∃ stored : Repository,
      (if batch.events = [] then (db, true) else db.createEventsBatch batch.events insert) =
        (stored, true) ∧ (∀ e, db.Stored e → stored.Stored e) ∧
      (∀ e ∈ batch.events, stored.Stored e) ∧ stored.metadata = db.metadata := by
    split
    · next hnil =>
      refine ⟨db, rfl, fun _ he => he, fun e he => ?_, rfl⟩
      rw [hnil] at he
      cases he
    · have hok : (db.createEventsBatch batch.events insert).2 = true := createEventsBatch_of_taken h
      refine ⟨(db.createEventsBatch batch.events insert).1, Prod.ext rfl hok, fun e he => ?_,
        fun e he => ?_, Repository.createEventsBatch_metadata _ _⟩
      · exact Repository.stored_createEventsBatch insert he
      · exact Repository.stored_of_createEventsBatch hok he
  obtain ⟨stored, heq, hgrows, hevents, hmetadata⟩ := hstored
  refine ⟨stored, hgrows, hevents, hmetadata, ?_⟩
  unfold ParallelIndexer.commitBatch
  simp only [heq, Bool.true_and]
  split
  · rcases stored.updateMetadata batch.contract batch.task.toBlock with _ | db'
    · exact .inl rfl
    · exact .inr rfl
  · exact .inl rfl

/-! ## The parallel indexer -/

namespace ParallelIndexer

variable {s s' : ParallelIndexer} {op : Op} {ops : List Op}

variable (chain) in
/-- The chain is what it is: the provider answers with its events, and no reorg is handled. -/
def Steady (s : ParallelIndexer) (op : Op) : Prop :=
  match op with
  | .fetched i events => ∀ f ∈ s.fetches[i]?, events = logs chain f.task
  | .signalReorg _ | .rollbackTo _ | .deleteEventsFromBlock _ | .resetMetadata _ _
  | .clearReorg => False
  | _ => True

variable (chain) in
/-- A new contract's start block has no events, and the database takes every batch. -/
def Upheld (s : ParallelIndexer) (op : Op) : Prop :=
  match op with
  | .registerContract c start => ¬ s.repository.HasRow c → chain c start.toNat = []
  | .commit insert _ => ∀ batch ∈ s.ready.head?, Taken batch.events insert
  | _ => True

instance (s : ParallelIndexer) (op : Op) : Decidable (Steady chain s op) :=
  match op with
  | .fetched i _ => inferInstanceAs (Decidable (∀ f ∈ s.fetches[i]?, _))
  | .signalReorg _ | .rollbackTo _ | .deleteEventsFromBlock _ | .resetMetadata _ _
  | .clearReorg => .isFalse id
  | .restart | .registerContract _ _ | .poll _ | .take | .fetchFailed _ | .receive
  | .commit _ _ => .isTrue trivial

instance (s : ParallelIndexer) (op : Op) : Decidable (Upheld chain s op) :=
  match op with
  | .registerContract c _ => inferInstanceAs (Decidable (¬ s.repository.HasRow c → _))
  | .commit _ _ => inferInstanceAs (Decidable (∀ batch ∈ s.ready.head?, _))
  | .fetched _ _ | .signalReorg _ | .rollbackTo _ | .deleteEventsFromBlock _
  | .resetMetadata _ _ | .clearReorg | .restart | .poll _ | .take | .fetchFailed _
  | .receive => .isTrue trivial

variable (chain) in
/-- Everything that is on its way holds what its blocks do. -/
def Genuine (s : ParallelIndexer) : Prop :=
  ∀ r, r ∈ s.results ∨ r ∈ s.stateManager.pending ∨ r ∈ s.ready → r.events = logs chain r.task

variable (chain) in
/-- The rows are complete, each has its frontier, and what is ready for a contract goes on from
where its stored blocks end up to its frontier. -/
structure Gapless (s : ParallelIndexer) : Prop where
  complete : Complete chain s.repository
  rows : ∀ c f, s.stateManager.commitFrontier c = some f → s.repository.HasRow c
  ready : ∀ r ∈ s.ready, s.repository.HasRow r.contract
  committing : ∀ m ∈ s.repository.metadata, ∃ f g,
    s.stateManager.commitFrontier m.contractAddress = some f ∧
      Contiguous g (rangesOf m.contractAddress s.ready) f ∧
      StoredBetween chain s.repository m.contractAddress m.startBlock g

theorem Genuine.step (h : Genuine chain s) (hs : step cfg op s = some s')
    (hC : Steady chain s op) : Genuine chain s' := by
  obtain ⟨ho, -⟩ := step_origins hs
  rintro r (hr | hr | hr)
  · rcases ho.results r hr with hr | ⟨i, f, hi, rfl, htask, -⟩
    · exact h r (.inl hr)
    · rw [htask]
      exact hC f hi
  · exact h r ((ho.pending r hr).imp id .inl)
  · exact h r ((ho.ready r hr).elim (fun hr => hr.imp id .inl) fun hr => .inr (.inr hr))

/-- A step that leaves the tables, the frontiers and what is ready keeps them gapless. -/
theorem Gapless.of_eq (h : Gapless chain s) (hdb : s'.repository = s.repository)
    (hf : s'.stateManager.commitFrontier = s.stateManager.commitFrontier)
    (hr : s'.ready = s.ready) : Gapless chain s' := by
  refine ⟨?_, ?_, ?_, ?_⟩
  · rw [hdb]
    exact h.complete
  · rw [hdb, hf]
    exact h.rows
  · rw [hdb, hr]
    exact h.ready
  · rw [hdb, hf, hr]
    exact h.committing

/-- A new process starts each contract after its last indexed block. -/
theorem Gapless.launch (h : Gapless chain s)
    (hs : ParallelIndexer.launch s.repository s.rollbacks = some s') : Gapless chain s' := by
  obtain ⟨hall, heq⟩ := launch_effect hs
  have hdb : s'.repository = s.repository := by rw [heq]
  have hready : s'.ready = [] := by rw [heq]
  refine ⟨hdb ▸ h.complete, fun c f hf => ?_, fun r hr => ?_, fun m hm => ?_⟩
  · obtain ⟨m, hm, hc, -⟩ := (launch_frontier hs).mp hf
    rw [hdb]
    exact Repository.hasRow_iff.mpr ⟨m, (Repository.mem_getActiveMetadata.mp hm).1, hc⟩
  · rw [hready] at hr
    cases hr
  · rw [hdb] at hm
    have hrow := h.complete m hm
    have hactive := Repository.mem_getActiveMetadata.mpr ⟨hm, hrow.active⟩
    obtain ⟨f, hf⟩ := Option.isSome_iff_exists.mp (hall m hactive)
    refine ⟨f, f, (launch_frontier hs).mpr ⟨m, hactive, rfl, hf⟩, ?_, ?_⟩
    · rw [hready]
      rfl
    · rw [hdb]
      intro b hb hlt
      exact hrow.stored b hb (lt_of_lt_of_le hlt (IndexingMetadata.firstBlock_le hf))

/-- A registration adds a row with nothing to store yet. -/
theorem Gapless.registerContract {start : ℕ} (h : Gapless chain s) (hstart : start ≤ U64.MAX)
    (hempty : ¬ s.repository.HasRow c → chain c start = []) :
    Gapless chain (s.registerContract c start) := by
  have hcomplete := h.complete.register hstart hempty
  by_cases hrow : s.repository.HasRow c
  · -- the contract has its row and its frontier
    obtain ⟨m, hm, hc⟩ := Repository.hasRow_iff.mp hrow
    obtain ⟨f, -, hf, -⟩ := h.committing m hm
    refine h.of_eq ?_ ?_ rfl
    · exact dif_pos hrow
    · rw [hc] at hf
      exact if_neg (by rw [hf]; exact Option.some_ne_none f)
  · have hnone : s.stateManager.commitFrontier c = none :=
      Option.eq_none_iff_forall_ne_some.mpr fun f hf => hrow (h.rows c f hf)
    have hfrontier : (s.registerContract c start).stateManager.commitFrontier =
        Function.update s.stateManager.commitFrontier c (some start) := if_pos hnone
    have hmem : ∀ m, m ∈ (s.repository.getOrCreateMetadata c start).metadata ↔
        m ∈ s.repository.metadata ∨ m = ⟨c, I64.ofU64 start, true, start⟩ := fun m => by
      rw [Repository.mem_getOrCreateMetadata, and_iff_right hrow]
    refine ⟨hcomplete, fun c' f hf => ?_, fun r hr =>
      Repository.hasRow_getOrCreateMetadata c start (h.ready r hr), fun m hm => ?_⟩
    · rw [hfrontier] at hf
      by_cases hc : c' = c
      · exact Repository.hasRow_iff.mpr ⟨_, (hmem _).mpr (.inr rfl), hc.symm⟩
      · rw [Function.update_of_ne hc] at hf
        exact Repository.hasRow_getOrCreateMetadata c start (h.rows c' f hf)
    · rcases (hmem m).mp hm with hold | rfl
      · obtain ⟨f, g, hf, hchain, hbetween⟩ := h.committing m hold
        have hc : m.contractAddress ≠ c := fun hc =>
          hrow (Repository.hasRow_iff.mpr ⟨m, hold, hc⟩)
        refine ⟨f, g, ?_, hchain, hbetween.mono fun e he =>
          Repository.stored_getOrCreateMetadata c start he⟩
        rw [hfrontier, Function.update_of_ne hc]
        exact hf
      · have hnothing : rangesOf c s.ready = [] := by
          refine List.eq_nil_iff_forall_not_mem.mpr fun t ht => ?_
          obtain ⟨r, hr, hrc, -⟩ := mem_rangesOf.mp ht
          exact hrow (hrc ▸ h.ready r hr)
        refine ⟨start, start, ?_, ?_, fun b hb hlt => absurd hlt (Nat.lt_asymm hb)⟩
        · rw [hfrontier, Function.update_self]
        · change Contiguous start (rangesOf c s.ready) start
          rw [hnothing]
          rfl

/-- An arrival hands back what goes on from the frontier. -/
theorem Gapless.receive (h : Gapless chain s) (hs : s.receive = some s') : Gapless chain s' := by
  obtain ⟨result, results, sm, ready, hready, -, hreg, rfl⟩ := receive_effect hs
  rcases StateManager.registerResult_effect hreg with ⟨-, rfl, rfl⟩ | ⟨f, next, hr⟩
  · exact h.of_eq rfl rfl hready.symm
  · have hrow : s.repository.HasRow result.contract := h.rows _ _ hr.before
    refine ⟨h.complete, fun c g hg => ?_, fun r hmem => ?_, fun m hm => ?_⟩
    · change sm.commitFrontier c = some g at hg
      rw [hr.after] at hg
      by_cases hc : c = result.contract
      · exact hc ▸ hrow
      · rw [Function.update_of_ne hc] at hg
        exact h.rows c g hg
    · exact (hr.drained.own r hmem) ▸ hrow
    · obtain ⟨e, g, he, hchain, hstored⟩ := h.committing m hm
      rw [hready] at hchain
      obtain rfl : g = e := hchain
      by_cases hc : result.contract = m.contractAddress
      · have hfe : f = g := Option.some.inj (hr.before.symm.trans (hc ▸ he))
        refine ⟨next, g, ?_, ?_, hstored⟩
        · change sm.commitFrontier _ = _
          rw [hr.after, ← hc, Function.update_self]
        · have hgo := hr.contiguous
          rw [hc, hfe] at hgo
          exact hgo
      · refine ⟨g, g, ?_, ?_, hstored⟩
        · change sm.commitFrontier _ = _
          rw [hr.after, Function.update_of_ne (Ne.symm hc)]
          exact he
        · change Contiguous g (rangesOf m.contractAddress ready) g
          rw [hr.others hc]
          rfl

/-- A batch that is stored is where the stored blocks of its contract go on. -/
theorem Gapless.stored {batch : BlockRangeResult} {ready : List BlockRangeResult}
    {stored : Repository} (h : Gapless chain s) (hready : s.ready = batch :: ready)
    (hgenuine : batch.events = logs chain batch.task)
    (hgrows : ∀ e, s.repository.Stored e → stored.Stored e)
    (hevents : ∀ e ∈ batch.events, stored.Stored e) {m : IndexingMetadata}
    (hm : m ∈ s.repository.metadata) :
    (m.contractAddress = batch.contract → batch.task.toBlock < U64.MAX ∧
      StoredBetween chain stored m.contractAddress m.startBlock (batch.task.toBlock + 1)) ∧
    ∃ f g, s.stateManager.commitFrontier m.contractAddress = some f ∧
      Contiguous g (rangesOf m.contractAddress ready) f ∧
      StoredBetween chain stored m.contractAddress m.startBlock g := by
  obtain ⟨f, g, hf, hchain, hbetween⟩ := h.committing m hm
  rw [hready] at hchain
  by_cases hc : batch.contract = m.contractAddress
  · have hranges : rangesOf m.contractAddress (batch :: ready) =
        batch.task :: rangesOf m.contractAddress ready := by simp [rangesOf, hc]
    rw [hranges] at hchain
    obtain ⟨hg, l, hl, hrest⟩ := hchain
    obtain ⟨hmax, rfl⟩ := BlockRangeTask.next_eq_some.mp hl
    have hext : StoredBetween chain stored m.contractAddress m.startBlock
        (batch.task.toBlock + 1) := by
      rw [← hc]
      refine StoredBetween.extend ?_ fun e he => hevents e (hgenuine ▸ he)
      rw [hg]
      have hbefore := hbetween.mono hgrows
      rw [← hc] at hbefore
      exact hbefore
    exact ⟨fun _ => ⟨hmax, hext⟩, f, _, hf, hrest, hext⟩
  · have hranges : rangesOf m.contractAddress (batch :: ready) =
        rangesOf m.contractAddress ready := by simp [rangesOf, hc]
    rw [hranges] at hchain
    exact ⟨fun hc' => absurd hc'.symm hc, f, g, hf, hchain, hbetween.mono hgrows⟩

/-- A batch that the database takes leaves no gap, whether the last indexed block is moved or
not. -/
theorem Gapless.commit {insert : Option ℕ} {update : Bool} (h : Gapless chain s)
    (hgenuine : Genuine chain s) (htaken : ∀ batch ∈ s.ready.head?, Taken batch.events insert)
    (hs : s.commit insert update = some s') : Gapless chain s' := by
  obtain ⟨batch, ready, hready, rfl⟩ := commit_effect hs
  have hbatch : batch ∈ s.ready := hready ▸ List.mem_cons_self
  obtain ⟨stored, hgrows, hevents, hmetadata, hdb⟩ := commitBatch_effect s.repository update
    (htaken batch (by rw [hready]; rfl))
  have hgo := fun {m} =>
    h.stored (m := m) hready (hgenuine batch (.inr (.inr hbatch))) hgrows hevents
  have hcomplete : Complete chain stored := h.complete.grow hmetadata hgrows
  have hrows : ∀ c, s.repository.HasRow c → stored.HasRow c := fun c hc => by
    rwa [Repository.HasRow, hmetadata]
  rcases hdb with hdb | hdb
  · refine ⟨hdb ▸ hcomplete, fun c f hf => ?_, fun r hr => ?_, fun m hm => ?_⟩
    · exact hdb ▸ hrows c (h.rows c f hf)
    · exact hdb ▸ hrows _ (h.ready r (hready ▸ List.mem_cons_of_mem batch hr))
    · dsimp only at hm ⊢
      rw [hdb] at hm ⊢
      exact (hgo (hmetadata ▸ hm)).2
  · obtain ⟨hrow, hdbEvents, hdbMetadata⟩ := Repository.updateMetadata_effect hdb
    have hmoved : ∀ c, stored.HasRow c →
        (commitBatch s.repository batch insert update).HasRow c := fun c hc => by
      rwa [Repository.HasRow, hdbMetadata, List.map_map,
        IndexingMetadata.contractAddress_comp_moved]
    have hlast : batch.task.toBlock ≤ U64.MAX := by
      obtain ⟨m, hm, hc⟩ := Repository.hasRow_iff.mp hrow
      exact ((hgo (hmetadata ▸ hm)).1 hc).1.le
    refine ⟨?_, fun c f hf => ?_, fun r hr => ?_, fun m hm => ?_⟩
    · refine hcomplete.update hlast (fun m hm hc => ?_) hdb
      exact hc ▸ ((hgo (hmetadata ▸ hm)).1 hc).2
    · exact hmoved c (hrows c (h.rows c f hf))
    · exact hmoved _ (hrows _ (h.ready r (hready ▸ List.mem_cons_of_mem batch hr)))
    · dsimp only at hm ⊢
      rw [hdbMetadata] at hm
      obtain ⟨m₀, hm₀, rfl⟩ := List.mem_map.mp hm
      obtain ⟨-, f, g, hf, hchain, hbetween⟩ := hgo (hmetadata ▸ hm₀)
      rw [IndexingMetadata.moved_contractAddress, IndexingMetadata.moved_startBlock]
      refine ⟨f, g, hf, hchain, hbetween.mono fun e he => ?_⟩
      rwa [Repository.Stored, hdbEvents]

/-- **Every step that is upheld, on a chain that is what it is, keeps the tables gapless.** -/
theorem Gapless.step (h : Gapless chain s) (hgenuine : Genuine chain s)
    (hs : step cfg op s = some s') (hsteady : Steady chain s op) (hC : Upheld chain s op) :
    Gapless chain s' := by
  have hfetch : op.Fetches → Gapless chain s' := fun hop => by
    obtain ⟨_, _, _, rfl⟩ := step_fetches hs hop
    exact h.of_eq rfl rfl rfl
  cases op with
  | restart => exact h.launch hs
  | registerContract c start =>
    cases hs
    exact h.registerContract (Nat.le_of_lt_succ start.toNat_lt) hC
  | poll current => exact hfetch trivial
  | take => exact hfetch trivial
  | fetched i events => exact hfetch trivial
  | fetchFailed i => exact hfetch trivial
  | receive => exact h.receive hs
  | commit insert update => exact h.commit hgenuine hC hs
  | _ => exact hsteady.elim

end ParallelIndexer

/-! ## The sequential indexer -/

/-- The provider answers, and the database takes the events. -/
def Attempt.Stores (a : Attempt) : Prop := ∃ events ∈ a.logs, Taken events a.insert

instance (a : Attempt) : Decidable a.Stores :=
  match h : a.logs with
  | none => .isFalse fun ⟨events, hevents, _⟩ => by simp [h] at hevents
  | some events =>
    decidable_of_iff (Taken events a.insert) ⟨fun ht => ⟨events, h, ht⟩, fun ⟨_, hmem, ht⟩ =>
      (Option.some.inj (h.symm.trans hmem)) ▸ ht⟩

namespace IndexerService

variable {s s' : IndexerService} {op : Op} {ops : List Op} {task : BlockRangeTask}

variable (chain) in
/-- The chain is what it is: the provider answers with its events. -/
def Steady (s : IndexerService) (op : Op) : Prop :=
  match op with
  | .indexBatch first retries _ => ∀ task ∈ s.batches.head?, ∀ a ∈ first :: retries,
      ∀ events ∈ a.logs, events = logs chain task
  | _ => True

variable (chain) in
/-- A new contract's start block has no events, and a batch that no attempt stores is the last of
its contract in the poll. -/
def Upheld (cfg : IndexerConfig) (s : IndexerService) (op : Op) : Prop :=
  match op with
  | .registerContract c start => ¬ s.repository.HasRow c → chain c start.toNat = []
  | .indexBatch first retries _ =>
    (∃ a ∈ first :: retries.take cfg.maxRetries, a.Stores) ∨
      ∀ task ∈ s.batches.head?, ∀ later ∈ s.batches.tail,
        later.contractAddress ≠ task.contractAddress
  | _ => True

instance (s : IndexerService) (op : Op) : Decidable (Steady chain s op) :=
  match op with
  | .indexBatch first retries _ => inferInstanceAs (Decidable (∀ task ∈ s.batches.head?,
      ∀ a ∈ first :: retries, ∀ events ∈ a.logs, events = logs chain task))
  | .restart | .registerContract _ _ | .poll _ => .isTrue trivial

instance (s : IndexerService) (op : Op) : Decidable (Upheld chain cfg s op) :=
  match op with
  | .registerContract c _ => inferInstanceAs (Decidable (¬ s.repository.HasRow c → _))
  | .indexBatch _ _ _ => inferInstanceAs (Decidable (_ ∨ ∀ task ∈ s.batches.head?,
      ∀ later ∈ s.batches.tail, _))
  | .restart | .poll _ => .isTrue trivial

/-- The batches left of one contract. -/
def batchesOf (c : String) (ts : List BlockRangeTask) : List BlockRangeTask :=
  ts.filter fun t => t.contractAddress = c

variable (chain) in
/-- The rows are complete, and what is left of a contract's poll goes on from where its stored
blocks end. -/
structure Gapless (s : IndexerService) : Prop where
  complete : Complete chain s.repository
  bounded : ∀ t ∈ s.batches, t.toBlock ≤ U64.MAX
  rows : ∀ t ∈ s.batches, s.repository.HasRow t.contractAddress
  queued : ∀ m ∈ s.repository.metadata, ∃ g e,
    Chained BlockRangeTask.fromBlock (fun t => some (t.toBlock + 1)) g
      (batchesOf m.contractAddress s.batches) e ∧
    (batchesOf m.contractAddress s.batches ≠ [] →
      StoredBetween chain s.repository m.contractAddress m.startBlock g)

/-- What attempts at a batch do: nothing to the rows, and no event is lost. -/
structure Attempted (db db' : Repository) : Prop where
  metadata : db'.metadata = db.metadata
  grows : ∀ e, db.Stored e → db'.Stored e

theorem indexBlockRange_effect (db : Repository) {a : Attempt}
    (h : ∀ events ∈ a.logs, events = logs chain task) :
    Attempted db (indexBlockRange db task a).1 ∧
      ((indexBlockRange db task a).2 = true ∨ a.Stores →
        ∀ e ∈ logs chain task, (indexBlockRange db task a).1.Stored e) := by
  unfold indexBlockRange
  split
  · next hempty =>
    refine ⟨⟨rfl, fun _ he => he⟩, fun _ e he => ?_⟩
    obtain ⟨b, hfrom, hto, -⟩ := mem_logs.mp he
    omega
  · split
    · next hnone =>
      refine ⟨⟨rfl, fun _ he => he⟩, ?_⟩
      rintro (hok | ⟨events, hevents, -⟩)
      · cases hok
      · rw [hnone] at hevents
        cases hevents
    · next events hsome =>
      have hlogs : events = logs chain task := h events hsome
      split
      · next hnil =>
        refine ⟨⟨rfl, fun _ he => he⟩, fun _ e he => ?_⟩
        rw [← hlogs, hnil] at he
        cases he
      · refine ⟨⟨Repository.createEventsBatch_metadata _ _, fun e he =>
          Repository.stored_createEventsBatch a.insert he⟩, fun hok e he => ?_⟩
        have htaken : (db.createEventsBatch events a.insert).2 = true := by
          rcases hok with hok | ⟨events', hevents, ht⟩
          · exact (Bool.and_eq_true_iff.mp hok).1
          · obtain rfl : events = events' := Option.some.inj (hsome.symm.trans hevents)
            exact createEventsBatch_of_taken ht
        exact Repository.stored_of_createEventsBatch htaken (hlogs ▸ he)

theorem retry_effect (db : Repository) (attempts : List Attempt)
    (h : ∀ a ∈ attempts, ∀ events ∈ a.logs, events = logs chain task) :
    Attempted db (retry db task attempts) ∧
      ((∃ a ∈ attempts, a.Stores) →
        ∀ e ∈ logs chain task, (retry db task attempts).Stored e) := by
  induction attempts generalizing db with
  | nil => exact ⟨⟨rfl, fun _ he => he⟩, fun ⟨a, ha, _⟩ => (by cases ha)⟩
  | cons a attempts ih =>
    obtain ⟨htried, hstored⟩ := indexBlockRange_effect db (h a List.mem_cons_self)
    unfold retry
    dsimp only
    split
    · next hok => exact ⟨htried, fun _ => hstored (.inl hok)⟩
    · obtain ⟨hrest, hlater⟩ := ih (indexBlockRange db task a).1 fun b hb =>
        h b (List.mem_cons_of_mem a hb)
      refine ⟨⟨hrest.metadata.trans htried.metadata, fun e he =>
        hrest.grows e (htried.grows e he)⟩, ?_⟩
      rintro ⟨b, hb, hstores⟩ e he
      rcases List.mem_cons.mp hb with rfl | hb
      · exact hrest.grows e (hstored (.inr hstores) e he)
      · exact hlater ⟨b, hb, hstores⟩ e he

/-- The stored blocks of a batch's contract go on with it. -/
theorem Gapless.extend {batches : List BlockRangeTask} {db' : Repository} (h : Gapless chain s)
    (hs : s.batches = task :: batches) (hd : Attempted s.repository db')
    (hstored : ∀ e ∈ logs chain task, db'.Stored e) {m : IndexingMetadata}
    (hm : m ∈ s.repository.metadata) (hc : m.contractAddress = task.contractAddress) :
    StoredBetween chain db' m.contractAddress m.startBlock (task.toBlock + 1) := by
  obtain ⟨g, e, hchain, hbetween⟩ := h.queued m hm
  have hcons : batchesOf m.contractAddress s.batches =
      task :: batchesOf m.contractAddress batches := by simp [hs, batchesOf, hc]
  rw [hcons] at hchain hbetween
  obtain ⟨hg, -⟩ := hchain
  have hbefore := (hbetween (List.cons_ne_nil _ _)).mono hd.grows
  rw [hc, ← hg] at hbefore
  rw [hc]
  exact hbefore.extend hstored

/-- A batch that is stored, or the last of its contract, may be passed over. -/
theorem Gapless.next {batches : List BlockRangeTask} {db' : Repository} (h : Gapless chain s)
    (hs : s.batches = task :: batches) (hd : Attempted s.repository db')
    (hok : (∀ e ∈ logs chain task, db'.Stored e) ∨
      ∀ later ∈ batches, later.contractAddress ≠ task.contractAddress) :
    Gapless chain ⟨db', batches⟩ := by
  have hmem : ∀ t ∈ batches, t ∈ s.batches := fun t ht => hs ▸ List.mem_cons_of_mem task ht
  refine ⟨h.complete.grow hd.metadata hd.grows, fun t ht => h.bounded t (hmem t ht),
    fun t ht => ?_, fun m hm => ?_⟩
  · have hrow := h.rows t (hmem t ht)
    rwa [Repository.HasRow, ← hd.metadata] at hrow
  · have hm₀ : m ∈ s.repository.metadata := hd.metadata ▸ hm
    obtain ⟨g, e, hchain, hbetween⟩ := h.queued m hm₀
    by_cases hc : task.contractAddress = m.contractAddress
    · have hcons : batchesOf m.contractAddress s.batches =
          task :: batchesOf m.contractAddress batches := by simp [hs, batchesOf, hc]
      rw [hcons] at hchain
      obtain ⟨-, l, hl, hrest⟩ := hchain
      obtain rfl : task.toBlock + 1 = l := Option.some.inj hl
      refine ⟨_, e, hrest, fun hne => ?_⟩
      rcases hok with hstored | hlast
      · exact h.extend hs hd hstored hm₀ hc.symm
      · obtain ⟨t, ht⟩ := List.exists_mem_of_ne_nil _ hne
        obtain ⟨ht, htc⟩ := List.mem_filter.mp ht
        exact absurd ((of_decide_eq_true htc).trans hc.symm) (hlast t ht)
    · have hsame : batchesOf m.contractAddress s.batches =
          batchesOf m.contractAddress batches := by simp [hs, batchesOf, hc]
      rw [hsame] at hchain hbetween
      exact ⟨g, e, hchain, fun hne => (hbetween hne).mono hd.grows⟩

/-- With nothing left of the poll only the rows count. -/
theorem gapless_of_complete (h : Complete chain db) : Gapless chain ⟨db, []⟩ := by
  refine ⟨h, fun t ht => (by cases ht), fun t ht => (by cases ht), fun m hm => ?_⟩
  exact ⟨0, 0, rfl, fun hne => absurd rfl hne⟩

/-- The last indexed block may be moved to the end of what is stored. -/
theorem Gapless.update {last : ℕ} (h : Gapless chain s) (hlast : last ≤ U64.MAX)
    (hstored : ∀ m ∈ s.repository.metadata, m.contractAddress = c →
      StoredBetween chain s.repository c m.startBlock (last + 1))
    (hupdate : s.repository.updateMetadata c last = some db') :
    Gapless chain ⟨db', s.batches⟩ := by
  obtain ⟨-, hevents, hmetadata⟩ := Repository.updateMetadata_effect hupdate
  refine ⟨h.complete.update hlast hstored hupdate, h.bounded, fun t ht => ?_, fun m hm => ?_⟩
  · have hrow := h.rows t ht
    change db'.HasRow t.contractAddress
    rwa [Repository.HasRow, hmetadata, List.map_map, IndexingMetadata.contractAddress_comp_moved]
  · dsimp only at hm
    rw [hmetadata] at hm
    obtain ⟨m₀, hm₀, rfl⟩ := List.mem_map.mp hm
    obtain ⟨g, e, hchain, hbetween⟩ := h.queued m₀ hm₀
    rw [IndexingMetadata.moved_contractAddress, IndexingMetadata.moved_startBlock]
    refine ⟨g, e, hchain, fun hne => (hbetween hne).mono fun e he => ?_⟩
    rwa [Repository.Stored, hevents]

/-- A batch of the sequential indexer leaves no gap if it is stored or the last of its contract. -/
theorem Gapless.indexBatch {first : Attempt} {retries : List Attempt} {update : Bool}
    (h : Gapless chain s) (hsteady : Steady chain s (.indexBatch first retries update))
    (hC : Upheld chain cfg s (.indexBatch first retries update))
    (hs : s.indexBatch cfg first retries update = some s') : Gapless chain s' := by
  unfold IndexerService.indexBatch at hs
  split at hs
  · cases hs
  · next task batches hbatches =>
    have hanswers := hsteady task (by rw [hbatches]; rfl)
    obtain ⟨htried, hstored⟩ := indexBlockRange_effect s.repository
      (hanswers first List.mem_cons_self)
    dsimp only at hs
    split at hs
    · next hok =>
      have hnext := h.next hbatches htried (.inl (hstored (.inl hok)))
      split at hs
      · split at hs <;> cases hs
        · next db hdb =>
          refine hnext.update (h.bounded task (hbatches ▸ List.mem_cons_self)) (fun m hm hc => ?_)
            hdb
          exact hc ▸ h.extend hbatches htried (hstored (.inl hok)) (htried.metadata ▸ hm) hc
        · exact gapless_of_complete hnext.complete
      · cases hs
        exact gapless_of_complete hnext.complete
    · cases hs
      obtain ⟨hretried, hagain⟩ := retry_effect (indexBlockRange s.repository task first).1
        (retries.take cfg.maxRetries) fun a ha =>
          hanswers a (List.mem_cons_of_mem first (List.mem_of_mem_take ha))
      refine h.next hbatches ⟨hretried.metadata.trans htried.metadata, fun e he =>
        hretried.grows e (htried.grows e he)⟩ ?_
      rcases hC with ⟨a, ha, hstores⟩ | hlast
      · refine .inl fun e he => ?_
        rcases List.mem_cons.mp ha with rfl | ha
        · exact hretried.grows e (hstored (.inr hstores) e he)
        · exact hagain ⟨a, ha, hstores⟩ e he
      · refine .inr fun later hlater => ?_
        rw [hbatches] at hlast
        exact hlast task rfl later hlater

/-- A poll lists what follows the last indexed blocks. -/
theorem Gapless.poll {tip : ℕ} (h : Gapless chain s) (htip : tip ≤ U64.MAX) :
    Gapless chain { s with
      batches := s.repository.getActiveMetadata.flatMap (ParallelIndexer.tasksOf cfg tip) } := by
  have hpairwise : s.repository.getActiveMetadata.Pairwise fun m m' =>
      m.contractAddress ≠ m'.contractAddress :=
    (List.pairwise_map.mp s.repository.uniqueContracts).filter _
  refine ⟨h.complete, fun t ht => ?_, fun t ht => ?_, fun m hm => ?_⟩
  · obtain ⟨m, -, ht⟩ := List.mem_flatMap.mp ht
    exact (ParallelIndexer.mem_tasksOf ht).2.trans htip
  · obtain ⟨m, hm, ht⟩ := List.mem_flatMap.mp ht
    exact Repository.hasRow_iff.mpr ⟨m, (Repository.mem_getActiveMetadata.mp hm).1,
      (ParallelIndexer.mem_tasksOf ht).1.symm⟩
  · have hrow := h.complete m hm
    have hactive := Repository.mem_getActiveMetadata.mpr ⟨hm, hrow.active⟩
    have hown : batchesOf m.contractAddress
        (s.repository.getActiveMetadata.flatMap (ParallelIndexer.tasksOf cfg tip)) =
          ParallelIndexer.tasksOf cfg tip m := ParallelIndexer.filter_tasksOf hpairwise hactive
    dsimp only
    rw [hown, ParallelIndexer.tasksOf]
    rcases hf : m.firstBlock with _ | f
    · exact ⟨0, 0, rfl, fun hne => absurd rfl hne⟩
    · obtain ⟨e, he⟩ := ParallelIndexer.batches_follow m.contractAddress cfg.batchSize tip
        (tip + 1 - f) f
      refine ⟨f, e, he, fun _ b hb hlt => hrow.stored b hb ?_⟩
      exact lt_of_lt_of_le hlt (IndexingMetadata.firstBlock_le hf)

/-- **Every step that is upheld, on a chain that is what it is, keeps the tables gapless.** -/
theorem Gapless.step (h : Gapless chain s) (hs : step cfg op s = some s')
    (hsteady : Steady chain s op) (hC : Upheld chain cfg s op) : Gapless chain s' := by
  cases op with
  | restart =>
    cases hs
    exact gapless_of_complete h.complete
  | registerContract c start =>
    cases hs
    have hmax : start.toNat ≤ U64.MAX := Nat.le_of_lt_succ start.toNat_lt
    by_cases hrow : s.repository.HasRow c
    · have hsame : s.repository.getOrCreateMetadata c start.toNat = s.repository := dif_pos hrow
      rwa [hsame]
    · have hcomplete := h.complete.register hmax hC
      refine ⟨hcomplete, h.bounded, fun t ht =>
        Repository.hasRow_getOrCreateMetadata c start.toNat (h.rows t ht), fun m hm => ?_⟩
      rcases Repository.mem_getOrCreateMetadata.mp hm with hm | ⟨-, rfl⟩
      · obtain ⟨g, e, hchain, hbetween⟩ := h.queued m hm
        exact ⟨g, e, hchain, fun hne => (hbetween hne).mono fun e he =>
          Repository.stored_getOrCreateMetadata c start.toNat he⟩
      · -- no batch is of a contract without a row
        have hnone : batchesOf c s.batches = [] :=
          List.filter_eq_nil_iff.mpr fun t ht htc =>
            hrow (of_decide_eq_true htc ▸ h.rows t ht)
        exact ⟨0, 0, by rw [hnone]; rfl, fun hne => absurd hnone hne⟩
  | poll current =>
    change (if s.batches = [] then _ else _) = _ at hs
    split at hs <;> cases hs
    have hlt := current.toNat_lt
    exact h.poll (by unfold U64.MAX; omega)
  | indexBatch first retries update => exact h.indexBatch hsteady hC hs

end IndexerService

/-! ## Both indexers -/

namespace Sample

def event (b : ℕ) : CreateEvent := ⟨"a", "Transfer", b, "0x", b, "null"⟩

/-- The contract is registered and fetched by a new process; the results wait. -/
def fetchedBoth : List ParallelIndexer.Op :=
  [.registerContract "a" 0, .restart, .poll 2, .take, .take, .fetchFailed 0,
    .fetched 1 [event 2], .fetched 0 [event 1], .receive, .receive]

/-- Both batches are stored, though the first does not move the last indexed block. -/
def stored : List ParallelIndexer.Op := fetchedBoth ++ [.commit none false, .commit none true]

/-- The database refuses the first batch, and takes the second. -/
def refused : List ParallelIndexer.Op := fetchedBoth ++ [.commit (some 0) true, .commit none true]

/-- An attempt that succeeds, and one that the provider fails. -/
def succeeds (b : ℕ) : Attempt := ⟨some [event b], none, true⟩
def fails : Attempt := ⟨none, none, true⟩

end Sample

end StellarLend.Indexer
