import StellarLend.Indexer.Reorgs

/-!
# Indexer/Frontier — the next block to fetch and the next block to commit

The dispatcher fetches a contract from the block after the last indexed one on; the state manager
hands results back from its frontier on.  Nobody compares the two.  A new process sets the frontier
by the metadata, so they agree; so do a rollback and the reset of the metadata, for a block above
zero, while nothing is on its way.  A registration sets the last indexed block *and* the frontier to
the start block, so that the pipeline waits for a block that nobody fetches.
-/

namespace StellarLend.Indexer

open Foundations Reassembly ParallelIndexer

variable {cfg : IndexerConfig} {s s' : ParallelIndexer} {op : Op} {ops : List Op} {c : String}
  {db : Repository}

/-- The ranges the dispatcher sends for a contract. -/
def dispatched (cfg : IndexerConfig) (db : Repository) (tip : ℕ) (c : String) :
    List BlockRangeTask :=
  (dispatch cfg db tip).filter fun t => t.contractAddress = c

/-- **A contract is committed where it is fetched**: the first range that is dispatched for it
starts at its frontier, and once results of all dispatched ranges are in, in whatever order, all its
own have been handed back. -/
def Fed (cfg : IndexerConfig) (s : ParallelIndexer) (c : String) : Prop :=
  ∀ m ∈ s.repository.getActiveMetadata, m.contractAddress = c → ∀ tip,
    (∀ t ∈ (dispatched cfg s.repository tip c).head?,
      s.stateManager.commitFrontier c = some t.fromBlock) ∧
    (tip < U64.MAX → ∀ rs : List BlockRangeResult,
      (rs.map BlockRangeResult.task).Perm (dispatch cfg s.repository tip) →
      ∃ sm handed, s.stateManager.registerAll rs = some (sm, handed) ∧
        rangesOf c handed = dispatched cfg s.repository tip c)

/-- **Both start in step**: at the start, after every restart, after the registration of a contract
that has no frontier, and after every reorg that is handled without interruption. -/
structure StartsInStep (cfg : IndexerConfig) (s : ParallelIndexer) (ops : List Op) : Prop where
  start : ∀ c, Fed cfg s c
  restart : ∀ ys zs s', ops = ys ++ .restart :: zs →
    step cfg .restart (run (step cfg) s ys) = some s' → ∀ c, Fed cfg s' c
  registered : ∀ ys c b zs, ops = ys ++ .registerContract c b :: zs →
    (run (step cfg) s ys).stateManager.commitFrontier c = none →
    Fed cfg ((run (step cfg) s ys).registerContract c b.toNat) c
  reorg : ∀ ys b zs, ops = ys ++ handleReorg (run (step cfg) s ys).repository b ++ zs →
    ∀ c, Fed cfg (run (step cfg) s (ys ++ handleReorg (run (step cfg) s ys).repository b)) c

/-- A registered contract has a row already; a rollback goes to a block above zero, each contract
waits for the block after its last indexed one, and no result that it keeps is pending. -/
def InStep (s : ParallelIndexer) (op : Op) : Prop :=
  match op with
  | .registerContract c _ => s.repository.HasRow c
  | .rollbackTo b =>
    0 < b.toNat ∧ (b.toNat : ℤ) ≤ I64.MAX ∧
      (∀ m ∈ s.repository.getActiveMetadata, -1 ≤ m.lastIndexedBlock ∧
        s.stateManager.commitFrontier m.contractAddress = m.firstBlock) ∧
      ∀ r ∈ s.stateManager.pending, b.toNat ≤ r.start
  | _ => True

instance (s : ParallelIndexer) (op : Op) : Decidable (InStep s op) :=
  match op with
  | .registerContract c _ => inferInstanceAs (Decidable (s.repository.HasRow c))
  | .rollbackTo _ => inferInstanceAs (Decidable (_ ∧ _ ∧ _ ∧ _))
  | .fetched _ _ | .signalReorg _ | .deleteEventsFromBlock _ | .resetMetadata _ _ | .clearReorg
  | .restart | .poll _ | .take | .fetchFailed _ | .receive | .commit _ _ => .isTrue trivial

/-! ## Where fetching starts -/

theorem head_batches {size tip n start : ℕ} {t : BlockRangeTask}
    (h : t ∈ (batches c size tip n start).head?) : t.fromBlock = start := by
  unfold batches at h
  split at h
  · cases h
  · split at h
    · split at h
      · cases h
      · cases h
      · cases h
        rfl
    · cases h

/-- Batches of at least one block are valid ranges. -/
theorem valid_of_mem_batches {size tip n start : ℕ} {t : BlockRangeTask} (hsize : 0 < size)
    (h : t ∈ batches c size tip n start) : t.Valid := by
  induction n generalizing start with
  | zero => cases h
  | succ n ih =>
    unfold batches at h
    split at h
    · next hle =>
      split at h
      · cases h
      · cases h
      · next stop hstop =>
        obtain ⟨-, heq⟩ := U64.checkedAdd_eq_some.mp hstop
        rcases List.mem_cons.mp h with rfl | h
        · change start ≤ min stop tip
          omega
        · exact ih h
    · cases h

/-- What is dispatched for a contract with a row is what its row makes, unless nothing is. -/
theorem dispatched_eq {m : IndexingMetadata} (hm : m ∈ db.getActiveMetadata) (tip : ℕ) :
    dispatched cfg db tip m.contractAddress = tasksOf cfg tip m ∧
        (∀ m ∈ db.getActiveMetadata, m.firstBlock.isSome) ∨
      dispatch cfg db tip = [] := by
  unfold dispatched dispatch
  split
  · next hall =>
    have hpairwise : db.getActiveMetadata.Pairwise fun m m' =>
        m.contractAddress ≠ m'.contractAddress :=
      (List.pairwise_map.mp db.uniqueContracts).filter _
    exact .inl ⟨filter_tasksOf hpairwise hm, hall⟩
  · exact .inr rfl

/-- Every dispatched range is valid, and ends at the tip or before. -/
theorem valid_of_mem_dispatch {tip : ℕ} {t : BlockRangeTask} (hsize : 0 < cfg.batchSize)
    (h : t ∈ dispatch cfg db tip) : t.Valid ∧ t.toBlock ≤ tip := by
  unfold dispatch at h
  split at h
  · obtain ⟨m, -, ht⟩ := List.mem_flatMap.mp h
    refine ⟨?_, (mem_tasksOf ht).2⟩
    unfold tasksOf at ht
    rcases hf : m.firstBlock with _ | f <;> rw [hf] at ht
    · cases ht
    · exact valid_of_mem_batches hsize ht
  · cases h

/-- Ranges below the largest block number that follow one another are contiguous. -/
theorem contiguous_of_follow {k e : ℕ} {ts : List BlockRangeTask}
    (h : Chained BlockRangeTask.fromBlock (fun t => some (t.toBlock + 1)) k ts e)
    (hmax : ∀ t ∈ ts, t.toBlock < U64.MAX) : Contiguous k ts e := by
  induction ts generalizing k with
  | nil => exact h
  | cons t ts ih =>
    obtain ⟨hk, l, hl, hrest⟩ := h
    have hnext : t.next = some l :=
      BlockRangeTask.next_eq_some.mpr ⟨hmax t List.mem_cons_self, Option.some.inj hl⟩
    exact ⟨hk, l, hnext, ih hrest fun u hu => hmax u (List.mem_cons_of_mem t hu)⟩

/-- **A contract whose frontier is the first block to fetch is fed**, if nothing is pending. -/
theorem fed_of_frontier (hsize : 0 < cfg.batchSize) (hpending : s.stateManager.pending = [])
    (hfrontier : ∀ m ∈ s.repository.getActiveMetadata, m.contractAddress = c →
      s.stateManager.commitFrontier c = m.firstBlock) : Fed cfg s c := by
  rintro m hm rfl tip
  have hf := hfrontier m hm rfl
  refine ⟨fun t ht => ?_, fun htip rs hrs => ?_⟩
  · rcases dispatched_eq hm tip with ⟨heq, -⟩ | hnil
    · rw [heq, tasksOf] at ht
      rcases hfirst : m.firstBlock with _ | f <;> rw [hfirst] at ht
      · cases ht
      · rw [hf, hfirst, head_batches ht]
    · rw [dispatched, hnil] at ht
      cases ht
  · have hmem : ∀ r ∈ rs, r.task ∈ dispatch cfg s.repository tip := fun r hr =>
      hrs.mem_iff.mp (List.mem_map_of_mem hr)
    have hvalid : ∀ r ∈ rs, r.task.Valid := fun r hr => (valid_of_mem_dispatch hsize (hmem r hr)).1
    have hmax : ∀ r ∈ rs, r.task.toBlock < U64.MAX := fun r hr =>
      lt_of_le_of_lt (valid_of_mem_dispatch hsize (hmem r hr)).2 htip
    obtain ⟨⟨sm, handed⟩, hreg⟩ := Option.isSome_iff_exists.mp
      (registerAll_isSome hmax fun r hr => by rw [hpending] at hr; cases hr)
    refine ⟨sm, handed, hreg, ?_⟩
    rcases dispatched_eq hm tip with ⟨heq, hall⟩ | hnil
    · obtain ⟨f, hfirst⟩ := Option.isSome_iff_exists.mp (hall m hm)
      obtain ⟨e, hsettled⟩ := (settled_of_noPending (hf.trans hfirst) hpending).registerAll
        hvalid hreg
      have hchain : ∃ e, Contiguous f (dispatched cfg s.repository tip m.contractAddress) e := by
        obtain ⟨e, hfollow⟩ := batches_follow m.contractAddress cfg.batchSize tip (tip + 1 - f) f
        refine ⟨e, contiguous_of_follow ?_ fun t ht => ?_⟩
        · rw [heq, tasksOf, hfirst]
          exact hfollow
        · exact lt_of_le_of_lt (valid_of_mem_dispatch hsize (List.mem_of_mem_filter ht)).2 htip
      obtain ⟨g, hg⟩ := hchain
      refine (hsettled.inOrder hvalid).tiled _ g hg fun t => ?_
      rw [mem_rangesOf, dispatched, List.mem_filter]
      constructor
      · rintro ⟨ht, hc⟩
        obtain ⟨r, hr, rfl⟩ := List.mem_map.mp (hrs.mem_iff.mpr ht)
        exact ⟨r, hr, of_decide_eq_true hc, rfl⟩
      · rintro ⟨r, hr, hc, rfl⟩
        exact ⟨hmem r hr, decide_eq_true hc⟩
    · rw [hnil, List.perm_nil, List.map_eq_nil_iff] at hrs
      subst hrs
      cases hreg
      rw [dispatched, hnil]
      rfl

/-! ## Starting, registering -/

/-- A new process feeds every contract. -/
theorem fed_launch (hsize : 0 < cfg.batchSize) {rollbacks : List ℕ}
    (h : launch db rollbacks = some s) : Fed cfg s c := by
  obtain ⟨hall, heq⟩ := launch_effect h
  refine fed_of_frontier hsize (by rw [heq]; rfl) ?_
  rintro m hm rfl
  have hm' : m ∈ db.getActiveMetadata := by rwa [heq] at hm
  obtain ⟨f, hf⟩ := Option.isSome_iff_exists.mp (hall m hm')
  rw [hf]
  exact (launch_frontier h).mpr ⟨m, hm', rfl, hf⟩

/-- Every contract that is indexed has a frontier. -/
def Covered (s : ParallelIndexer) : Prop :=
  ∀ m ∈ s.repository.getActiveMetadata, s.stateManager.commitFrontier m.contractAddress ≠ none

theorem covered_launch {rollbacks : List ℕ} (h : launch db rollbacks = some s) : Covered s := by
  obtain ⟨hall, heq⟩ := launch_effect h
  intro m hm
  have hm' : m ∈ db.getActiveMetadata := by rwa [heq] at hm
  obtain ⟨f, hf⟩ := Option.isSome_iff_exists.mp (hall m hm')
  rw [(launch_frontier h).mpr ⟨m, hm', rfl, hf⟩]
  exact Option.some_ne_none f

/-- A step that moves rows, and takes no frontier away, leaves every contract covered. -/
theorem Covered.of_moved (h : Covered s)
    (hrows : ∀ m ∈ s'.repository.metadata, ∃ m₀ ∈ s.repository.metadata,
      m₀.contractAddress = m.contractAddress ∧ m₀.isActive = m.isActive)
    (hfrontier : ∀ c, s.stateManager.commitFrontier c ≠ none →
      s'.stateManager.commitFrontier c ≠ none) : Covered s' := by
  intro m hm
  obtain ⟨hm, hactive⟩ := Repository.mem_getActiveMetadata.mp hm
  obtain ⟨m₀, hm₀, hc, hsame⟩ := hrows m hm
  exact hc ▸ hfrontier _ (h m₀ (Repository.mem_getActiveMetadata.mpr ⟨hm₀, hsame.trans hactive⟩))

/-- Rows after an update are rows of the same contracts. -/
theorem rows_of_updateMetadata {db' : Repository} {last : ℕ}
    (h : db.updateMetadata c last = some db') : ∀ m ∈ db'.metadata, ∃ m₀ ∈ db.metadata,
      m₀.contractAddress = m.contractAddress ∧ m₀.isActive = m.isActive := by
  obtain ⟨-, -, hmetadata⟩ := Repository.updateMetadata_effect h
  intro m hm
  rw [hmetadata] at hm
  obtain ⟨m₀, hm₀, rfl⟩ := List.mem_map.mp hm
  exact ⟨m₀, hm₀, IndexingMetadata.moved_contractAddress.symm,
    IndexingMetadata.moved_isActive.symm⟩

/-- Rows after a batch is written are rows of the same contracts. -/
theorem rows_of_commitBatch {batch : BlockRangeResult} {insert : Option ℕ} {update : Bool} :
    ∀ m ∈ (commitBatch db batch insert update).metadata, ∃ m₀ ∈ db.metadata,
      m₀.contractAddress = m.contractAddress ∧ m₀.isActive = m.isActive := by
  have hstored : ∀ b : Repository × Bool, b = (if batch.events = [] then (db, true)
      else db.createEventsBatch batch.events insert) → b.1.metadata = db.metadata := by
    rintro b rfl
    split
    · rfl
    · exact Repository.createEventsBatch_metadata _ _
  unfold commitBatch
  dsimp only
  generalize hb : (if batch.events = [] then (db, true)
    else db.createEventsBatch batch.events insert) = b
  have hmetadata := hstored b hb.symm
  split
  · rcases hupdate : b.1.updateMetadata batch.contract batch.task.toBlock with _ | db'
    · exact fun m hm => ⟨m, hmetadata ▸ hm, rfl, rfl⟩
    · intro m hm
      rw [← hmetadata]
      exact rows_of_updateMetadata hupdate m hm
  · exact fun m hm => ⟨m, hmetadata ▸ hm, rfl, rfl⟩

/-- A registration gives a contract without a frontier one. -/
theorem Covered.registerContract (h : Covered s) (c : String) (start : ℕ) :
    Covered (s.registerContract c start) := by
  have hkept : ∀ c', s.stateManager.commitFrontier c' ≠ none ∨ c' = c →
      (s.registerContract c start).stateManager.commitFrontier c' ≠ none := by
    intro c' hc'
    unfold ParallelIndexer.registerContract
    dsimp only
    split
    · by_cases hc : c' = c
      · rw [hc, Function.update_self]
        exact Option.some_ne_none _
      · rw [Function.update_of_ne hc]
        exact hc'.resolve_right hc
    · next hsome =>
      exact hc'.elim id fun hc => hc ▸ hsome
  intro m hm
  obtain ⟨hm, hactive⟩ := Repository.mem_getActiveMetadata.mp hm
  rcases Repository.mem_getOrCreateMetadata.mp hm with hm | ⟨-, rfl⟩
  · exact hkept _ (.inl (h m (Repository.mem_getActiveMetadata.mpr ⟨hm, hactive⟩)))
  · exact hkept c (.inr rfl)

/-- A result that is registered moves a frontier on. -/
theorem Covered.receive (h : Covered s) (hs : s.receive = some s') : Covered s' := by
  obtain ⟨result, results, sm, ready, -, -, hreg, rfl⟩ := receive_effect hs
  refine h.of_moved (fun m hm => ⟨m, hm, rfl, rfl⟩) fun c hc => ?_
  change sm.commitFrontier c ≠ none
  rcases StateManager.registerResult_effect hreg with ⟨-, -, rfl⟩ | ⟨f, next, hr⟩
  · exact hc
  · rw [hr.after]
    by_cases hcr : c = result.contract
    · rw [hcr, Function.update_self]
      exact Option.some_ne_none next
    · rwa [Function.update_of_ne hcr]

/-- **Every step keeps every indexed contract covered.** -/
theorem Covered.step (hs : step cfg op s = some s') (h : Covered s) : Covered s' := by
  have hfetch : op.Fetches → Covered s' := fun hop => by
    obtain ⟨_, _, _, rfl⟩ := step_fetches hs hop
    exact h
  cases op with
  | restart => exact covered_launch hs
  | registerContract c start =>
    cases hs
    exact h.registerContract c start.toNat
  | poll current => exact hfetch trivial
  | take => exact hfetch trivial
  | fetched i events => exact hfetch trivial
  | fetchFailed i => exact hfetch trivial
  | receive => exact h.receive hs
  | commit insert update =>
    obtain ⟨batch, ready, -, rfl⟩ := commit_effect hs
    exact h.of_moved rows_of_commitBatch fun _ hc => hc
  | signalReorg b => cases hs; exact h
  | rollbackTo b =>
    cases hs
    refine h.of_moved (fun m hm => ⟨m, hm, rfl, rfl⟩) fun c hc => ?_
    obtain ⟨f, hf⟩ := Option.ne_none_iff_exists'.mp hc
    change (s.stateManager.commitFrontier c).map _ ≠ none
    rw [hf]
    exact Option.some_ne_none _
  | deleteEventsFromBlock b => cases hs; exact h
  | resetMetadata c b =>
    obtain ⟨db, hdb, hpure⟩ := Option.bind_eq_some_iff.mp hs
    cases hpure
    exact h.of_moved (rows_of_updateMetadata hdb) fun _ hc => hc
  | clearReorg => cases hs; exact h

/-- The registration of a contract that has a row and no frontier changes nothing that is
fetched. -/
theorem fed_registerContract {b : ℕ} (h : Covered s)
    (hnone : s.stateManager.commitFrontier c = none) (hrow : s.repository.HasRow c) :
    Fed cfg (s.registerContract c b) c := by
  have hdb : (s.registerContract c b).repository = s.repository := dif_pos hrow
  intro m hm hc
  rw [hdb] at hm
  exact absurd (hc ▸ hnone) (h m hm)

/-! ## Reorgs -/

/-- The row, with a new last block if its contract is one of these. -/
def reset (cs : List String) (last : ℕ) (m : IndexingMetadata) : IndexingMetadata :=
  if m.contractAddress ∈ cs then { m with lastIndexedBlock := I64.ofU64 last } else m

/-- Resetting contracts one after another resets the rows of all of them, and nothing else. -/
theorem run_resets (cfg : IndexerConfig) (b : UInt64) {cs : List String}
    (hrows : ∀ c ∈ cs, s.repository.HasRow c) :
    ∃ db, run (step cfg) s (cs.map fun c => .resetMetadata c b) = { s with repository := db } ∧
      db.metadata = s.repository.metadata.map (reset cs (b.toNat - 1)) := by
  induction cs generalizing s with
  | nil =>
    refine ⟨s.repository, rfl, ?_⟩
    have hid : reset [] (b.toNat - 1) = id := funext fun m => if_neg List.not_mem_nil
    rw [hid, List.map_id]
  | cons c cs ih =>
    obtain ⟨db₁, hupdate⟩ := Option.isSome_iff_exists.mp
      (Repository.updateMetadata_isSome (b.toNat - 1) (hrows c List.mem_cons_self))
    obtain ⟨-, -, hmetadata⟩ := Repository.updateMetadata_effect hupdate
    have hstep : step cfg (.resetMetadata c b) s = some { s with repository := db₁ } :=
      Option.bind_eq_some_iff.mpr ⟨db₁, hupdate, rfl⟩
    obtain ⟨db, hrun, hdb⟩ := ih (s := { s with repository := db₁ }) fun c' hc' => by
      rw [Repository.HasRow, hmetadata, List.map_map, IndexingMetadata.contractAddress_comp_moved]
      exact hrows c' (List.mem_cons_of_mem c hc')
    refine ⟨db, ?_, ?_⟩
    · rw [List.map_cons, run_cons, exec_of_some hstep, hrun]
    · rw [hdb]
      change db₁.metadata.map _ = _
      rw [hmetadata, List.map_map]
      refine List.map_congr_left fun m _ => ?_
      change reset cs (b.toNat - 1) (m.moved c (b.toNat - 1)) = _
      unfold reset
      rw [IndexingMetadata.moved_contractAddress]
      by_cases hc : m.contractAddress = c
      · simp [IndexingMetadata.moved, hc]
      · simp [IndexingMetadata.moved_of_ne hc, hc]

/-- A frontier that is the first block to fetch, and the first block to fetch, are rolled back
alike. -/
theorem firstBlock_reset {m : IndexingMetadata} {cs : List String} {b : ℕ} (hb : 0 < b)
    (hmax : (b : ℤ) ≤ I64.MAX) (hlast : -1 ≤ m.lastIndexedBlock) (hsome : m.firstBlock ≠ none)
    (hcs : m.contractAddress ∈ cs ↔ I64.ofU64 b ≤ m.lastIndexedBlock) :
    (m.firstBlock.map fun f => if f > b then b else f) = (reset cs (b - 1) m).firstBlock := by
  have hcast : I64.ofU64 b = b := if_pos hmax
  have hcast' : I64.ofU64 (b - 1) = (b : ℤ) - 1 := by
    have hle : ((b - 1 : ℕ) : ℤ) ≤ I64.MAX := by omega
    rw [I64.ofU64, if_pos hle]
    omega
  have hlt : m.lastIndexedBlock < I64.MAX := by
    by_contra hnot
    exact hsome (if_neg hnot)
  have hfirst : m.firstBlock = some (I64.toU64 (m.lastIndexedBlock + 1)) := if_pos hlt
  have hvalue := I64.toU64_of_nonneg (x := m.lastIndexedBlock + 1) (by omega) (by omega)
  rw [hcast] at hcs
  rw [hfirst, Option.map_some]
  by_cases hmem : m.contractAddress ∈ cs
  · have hle : (b : ℤ) ≤ m.lastIndexedBlock := hcs.mp hmem
    have hback := I64.toU64_of_nonneg (x := (b : ℤ)) (by omega) hmax
    have hlast' : (reset cs (b - 1) m).lastIndexedBlock = (b : ℤ) - 1 := by
      rw [reset, if_pos hmem, hcast']
    rw [IndexingMetadata.firstBlock, hlast', if_pos (by omega), Int.sub_add_cancel,
      if_pos (by omega)]
    exact congrArg some (by omega)
  · have hgt : ¬ (b : ℤ) ≤ m.lastIndexedBlock := fun hle => hmem (hcs.mpr hle)
    rw [reset, if_neg hmem, hfirst, if_neg (by omega)]

/-- The contracts of some indexed rows, one row each. -/
theorem mem_contracts_filter {p : IndexingMetadata → Bool} {m : IndexingMetadata}
    (hm : m ∈ db.getActiveMetadata) : m.contractAddress ∈
      (db.getActiveMetadata.filter p).map IndexingMetadata.contractAddress ↔ p m = true := by
  rw [List.mem_map]
  constructor
  · rintro ⟨m', hm', hc⟩
    obtain ⟨hm', hp⟩ := List.mem_filter.mp hm'
    obtain rfl := Repository.eq_of_contract (Repository.mem_getActiveMetadata.mp hm').1
      (Repository.mem_getActiveMetadata.mp hm).1 hc
    exact hp
  · exact fun hp => ⟨m, List.mem_filter.mpr ⟨hm, hp⟩, rfl⟩

/-- **A reorg that is handled without interruption, while nothing that it keeps is on its way, feeds
every contract.** -/
theorem fed_handleReorg {b : UInt64} (hsize : 0 < cfg.batchSize) (h : Covered s)
    (hC : InStep s (.rollbackTo b)) :
    Fed cfg (run (step cfg) s (handleReorg s.repository b)) c := by
  obtain ⟨hb, hmax, haligned, hpending⟩ := hC
  have hsplit : handleReorg s.repository b =
      [.signalReorg b, .rollbackTo b, .deleteEventsFromBlock b] ++
        ((s.repository.getActiveMetadata.filter fun m =>
          I64.ofU64 b.toNat ≤ m.lastIndexedBlock).map IndexingMetadata.contractAddress).map
            (fun c => .resetMetadata c b) ++ [.clearReorg] := by
    rw [List.map_map]
    rfl
  generalize hcs : (s.repository.getActiveMetadata.filter fun m =>
    I64.ofU64 b.toNat ≤ m.lastIndexedBlock).map IndexingMetadata.contractAddress = cs at hsplit
  have hmem : ∀ m ∈ s.repository.getActiveMetadata,
      m.contractAddress ∈ cs ↔ I64.ofU64 b.toNat ≤ m.lastIndexedBlock := by
    intro m hm
    rw [← hcs, mem_contracts_filter hm, decide_eq_true_iff]
  have hrows : ∀ c ∈ cs, s.repository.HasRow c := by
    intro c hc
    rw [← hcs] at hc
    obtain ⟨m, hm, rfl⟩ := List.mem_map.mp hc
    exact List.mem_map_of_mem (Repository.mem_getActiveMetadata.mp (List.mem_of_mem_filter hm)).1
  rw [hsplit, run_append, run_append]
  obtain ⟨db, hrun, hdb⟩ := run_resets cfg b
    (s := run (step cfg) s [.signalReorg b, .rollbackTo b, .deleteEventsFromBlock b]) hrows
  rw [hrun]
  refine fed_of_frontier hsize ?_ ?_
  · -- every pending result starts at the block or later, and is dropped
    change s.stateManager.pending.filter _ = []
    refine List.filter_eq_nil_iff.mpr fun r hr hlt => ?_
    exact absurd (of_decide_eq_true hlt) (Nat.not_lt.mpr (hpending r hr))
  · rintro m' hm' rfl
    obtain ⟨hm', hactive⟩ := Repository.mem_getActiveMetadata.mp hm'
    change m' ∈ db.metadata at hm'
    rw [hdb] at hm'
    obtain ⟨m, hm, rfl⟩ := List.mem_map.mp hm'
    have hkept : (reset cs (b.toNat - 1) m).contractAddress = m.contractAddress ∧
        (reset cs (b.toNat - 1) m).isActive = m.isActive := by
      unfold reset
      split <;> exact ⟨rfl, rfl⟩
    have hm₀ : m ∈ s.repository.getActiveMetadata :=
      Repository.mem_getActiveMetadata.mpr ⟨hm, hkept.2.symm.trans hactive⟩
    obtain ⟨hlast, hfrontier⟩ := haligned m hm₀
    rw [hkept.1]
    change (s.stateManager.commitFrontier m.contractAddress).map _ = _
    rw [hfrontier]
    exact firstBlock_reset hb hmax hlast (hfrontier ▸ h m hm₀) (hmem m hm₀)

/-! ## Runs -/

/-- **Where contracts are registered with a row, and rollbacks to a block above zero find every
contract waiting for the block after its last indexed one, fetching and committing start in
step.** -/
theorem startsInStep_of_inStep (cfg : IndexerConfig) (db : Repository) (s : ParallelIndexer)
    (ops : List Op) (hsize : 0 < cfg.batchSize) (hs : launch db [] = some s)
    (hC : Meets (step cfg) InStep s ops) : StartsInStep cfg s ops := by
  have hcovered : ∀ ys, Covered (run (step cfg) s ys) := fun ys =>
    run_invariant (fun _ _ _ hx h => Covered.step hx h) ys (covered_launch hs)
  refine ⟨fun c => fed_launch hsize hs, ?_, ?_, ?_⟩
  · rintro ys zs s' - hrestart c
    exact fed_launch hsize hrestart
  · rintro ys c b zs rfl hnone
    exact fed_registerContract (hcovered ys) hnone ((meets_append.mp hC).2.1 rfl)
  · rintro ys b zs rfl c
    have hys := (meets_append.mp (meets_append.mp hC).1).2
    rw [run_append]
    exact fed_handleReorg hsize (hcovered ys) (hys.2.1 rfl)

namespace Sample

/-- A contract indexed up to block 100. -/
def indexed : Repository :=
  { Repository.empty with
    metadata := [⟨"a", 100, true, 0⟩]
    uniqueContracts := List.nodup_singleton _ }

/-- The contract is registered, a poll is worked off, a reorg is handled, and the process is started
again. -/
def inStep : List Op :=
  [.registerContract "a" 0, .poll 150, .take, .fetched 0 [], .receive, .commit none true,
    .signalReorg 120, .rollbackTo 120, .deleteEventsFromBlock 120, .resetMetadata "a" 120,
    .clearReorg, .restart]

/-- The process that starts on such tables. -/
def launched : ParallelIndexer := (launch indexed []).get (by decide)

theorem launch_indexed : launch indexed [] = some launched := (Option.some_get _).symm

end Sample

theorem startsInStep_of_inStep_indexed :
    StartsInStep Sample.config Sample.launched Sample.inStep :=
  startsInStep_of_inStep Sample.config Sample.indexed Sample.launched Sample.inStep (by decide)
    Sample.launch_indexed (by decide)

theorem not_startsInStep :
    ¬ StartsInStep Sample.config initial [.registerContract "a" 5] ∧
    ¬ StartsInStep Sample.config Sample.launched (handleReorg Sample.launched.repository 0) := by
  constructor
  · intro h
    have hfirst := (h.registered [] "a" 5 [] rfl rfl ⟨"a", 5, true, 5⟩ (by decide) rfl 10).1
    revert hfirst
    decide
  · intro h
    have hfirst := (h.reorg [] 0 [] (List.append_nil _).symm "a" ⟨"a", 0, true, 0⟩
      (by decide) rfl 10).1
    revert hfirst
    decide

end StellarLend.Indexer
