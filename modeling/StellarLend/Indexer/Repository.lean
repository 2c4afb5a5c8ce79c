import StellarLend.Foundations.Checked
import StellarLend.Foundations.Quorum

/-!
# Indexer/Repository — the tables the indexers write

Two tables: the events, which a transaction and the index of the log in it identify, and one row for
each contract with the last block that is indexed.  The columns are 64-bit signed, the program's
block numbers 64-bit unsigned, and the casts between them keep the bits.
-/

namespace StellarLend.Indexer

open Foundations

/-! ## Events -/

/-- An event as the parser makes it of a log. -/
structure CreateEvent where
  contractAddress : String
  eventName : String
  blockNumber : ℕ
  transactionHash : String
  logIndex : ℕ
  eventData : String
  deriving DecidableEq, Repr

/-- What the table tells events apart by. -/
def CreateEvent.key (event : CreateEvent) : String × ℕ := (event.transactionHash, event.logIndex)

/-! ## Metadata -/

/-- The progress of one contract. -/
structure IndexingMetadata where
  contractAddress : String
  lastIndexedBlock : ℤ
  isActive : Bool
  /-- The start block of the registration that made the row: the table forgets it, and no function
  reads it. -/
  startBlock : ℕ
  deriving DecidableEq, Repr

/-- The first block the program fetches for a contract, `(last_indexed_block + 1) as u64`: `none`
where the addition overflows. -/
def IndexingMetadata.firstBlock (m : IndexingMetadata) : Option ℕ :=
  if m.lastIndexedBlock < I64.MAX then some (I64.toU64 (m.lastIndexedBlock + 1)) else none

/-- The row once its contract is indexed up to a block; another contract's stays as it is. -/
def IndexingMetadata.moved (contractAddress : String) (lastBlock : ℕ) (m : IndexingMetadata) :
    IndexingMetadata :=
  if m.contractAddress = contractAddress then { m with lastIndexedBlock := I64.ofU64 lastBlock }
  else m

namespace IndexingMetadata

variable {c : String} {last : ℕ} {m : IndexingMetadata}

@[simp] theorem moved_contractAddress : (m.moved c last).contractAddress = m.contractAddress := by
  unfold moved
  split <;> rfl

@[simp] theorem moved_startBlock : (m.moved c last).startBlock = m.startBlock := by
  unfold moved
  split <;> rfl

@[simp] theorem moved_isActive : (m.moved c last).isActive = m.isActive := by
  unfold moved
  split <;> rfl

theorem moved_of_ne (h : m.contractAddress ≠ c) : m.moved c last = m := if_neg h

theorem moved_lastIndexedBlock (h : m.contractAddress = c) :
    (m.moved c last).lastIndexedBlock = I64.ofU64 last := by rw [moved, if_pos h]

theorem contractAddress_comp_moved : contractAddress ∘ moved c last = contractAddress :=
  funext fun _ => moved_contractAddress

end IndexingMetadata

/-! ## The repository -/

/-- The tables, with the uniqueness they are declared with. -/
structure Repository where
  events : List CreateEvent
  metadata : List IndexingMetadata
  uniqueEvents : (events.map CreateEvent.key).Nodup
  uniqueContracts : (metadata.map IndexingMetadata.contractAddress).Nodup

namespace Repository

def empty : Repository := ⟨[], [], List.nodup_nil, List.nodup_nil⟩

/-- An event that is in the table. -/
def Stored (db : Repository) (event : CreateEvent) : Prop :=
  event.key ∈ db.events.map CreateEvent.key

instance (db : Repository) (event : CreateEvent) : Decidable (db.Stored event) :=
  inferInstanceAs (Decidable (_ ∈ _))

/-- A contract that has a row. -/
def HasRow (db : Repository) (contractAddress : String) : Prop :=
  contractAddress ∈ db.metadata.map IndexingMetadata.contractAddress

instance (db : Repository) (contractAddress : String) : Decidable (db.HasRow contractAddress) :=
  inferInstanceAs (Decidable (_ ∈ _))

/-- Insert a row; one whose transaction and log index are there already is left as it is. -/
def insertRow (db : Repository) (event : CreateEvent) : Repository :=
  if h : db.Stored event then db
  else
    { db with
      events := db.events ++ [event]
      uniqueEvents := by
        rw [List.map_append]
        exact nodup_snoc db.uniqueEvents h }

/-- How many rows one statement inserts. -/
def CHUNK : ℕ := 1000

/-- Insert events, a statement for each chunk, and say whether all of them succeeded.  `failing` is
the first chunk the database refuses: those before it stay. -/
def createEventsBatch (db : Repository) (events : List CreateEvent) (failing : Option ℕ) :
    Repository × Bool :=
  match failing with
  | none => (events.foldl insertRow db, true)
  | some chunk =>
    if chunk * CHUNK < events.length then
      ((events.take (chunk * CHUNK)).foldl insertRow db, false)
    else (events.foldl insertRow db, true)

/-- Delete the events of a block and of later ones. -/
def deleteEventsFromBlock (db : Repository) (blockNumber : ℕ) : Repository :=
  { db with
    events := db.events.filter fun row => ¬ I64.ofU64 blockNumber ≤ I64.ofU64 row.blockNumber
    uniqueEvents := db.uniqueEvents.sublist (List.filter_sublist.map _) }

/-- Make the row of a contract, unless it has one. -/
def getOrCreateMetadata (db : Repository) (contractAddress : String) (startBlock : ℕ) :
    Repository :=
  if h : db.HasRow contractAddress then db
  else
    { db with
      metadata := db.metadata ++ [⟨contractAddress, I64.ofU64 startBlock, true, startBlock⟩]
      uniqueContracts := by
        rw [List.map_append]
        exact nodup_snoc db.uniqueContracts h }

/-- Write the last indexed block of a contract; `none` if it has no row. -/
def updateMetadata (db : Repository) (contractAddress : String) (lastBlock : ℕ) :
    Option Repository :=
  if db.HasRow contractAddress then
    some
      { db with
        metadata := db.metadata.map (IndexingMetadata.moved contractAddress lastBlock)
        uniqueContracts := by
          rw [List.map_map, IndexingMetadata.contractAddress_comp_moved]
          exact db.uniqueContracts }
  else none

/-- The rows of the contracts that are indexed. -/
def getActiveMetadata (db : Repository) : List IndexingMetadata :=
  db.metadata.filter fun m => m.isActive

/-! ## What the statements do -/

variable {db db' : Repository} {event : CreateEvent} {c : String}

@[simp] theorem mem_getActiveMetadata {m : IndexingMetadata} :
    m ∈ db.getActiveMetadata ↔ m ∈ db.metadata ∧ m.isActive = true := by
  simp [getActiveMetadata]

theorem hasRow_iff : db.HasRow c ↔ ∃ m ∈ db.metadata, m.contractAddress = c := List.mem_map

/-- A contract has one row. -/
theorem eq_of_contract {m m' : IndexingMetadata} (hm : m ∈ db.metadata) (hm' : m' ∈ db.metadata)
    (h : m.contractAddress = m'.contractAddress) : m = m' :=
  List.inj_on_of_nodup_map db.uniqueContracts hm hm' h

@[simp] theorem insertRow_metadata : (db.insertRow event).metadata = db.metadata := by
  unfold insertRow
  split <;> rfl

/-- After its insertion an event is stored, and no other is lost. -/
theorem stored_insertRow {other : CreateEvent} :
    (db.insertRow event).Stored other ↔ db.Stored other ∨ event.key = other.key := by
  unfold insertRow
  split
  · next hstored =>
    refine ⟨.inl, fun h => h.elim id fun hkey => ?_⟩
    rw [Stored, ← hkey]
    exact hstored
  · simp [Stored, eq_comm]

@[simp] theorem insertRows_metadata (events : List CreateEvent) :
    (events.foldl insertRow db).metadata = db.metadata := by
  induction events generalizing db with
  | nil => rfl
  | cons event events ih => rw [List.foldl_cons, ih, insertRow_metadata]

theorem stored_insertRows {events : List CreateEvent} :
    (events.foldl insertRow db).Stored event ↔
      db.Stored event ∨ ∃ e ∈ events, e.key = event.key := by
  induction events generalizing db with
  | nil => simp
  | cons e events ih => simp [ih, stored_insertRow, or_assoc]

@[simp] theorem createEventsBatch_metadata (events : List CreateEvent) (failing : Option ℕ) :
    (db.createEventsBatch events failing).1.metadata = db.metadata := by
  unfold createEventsBatch
  split
  · exact insertRows_metadata events
  · split
    · exact insertRows_metadata _
    · exact insertRows_metadata events

/-- No batch loses an event. -/
theorem stored_createEventsBatch {events : List CreateEvent} (failing : Option ℕ)
    (h : db.Stored event) : (db.createEventsBatch events failing).1.Stored event := by
  unfold createEventsBatch
  split
  · exact stored_insertRows.mpr (.inl h)
  · split <;> exact stored_insertRows.mpr (.inl h)

/-- A batch that succeeds stores its events. -/
theorem stored_of_createEventsBatch {events : List CreateEvent} {failing : Option ℕ}
    (hok : (db.createEventsBatch events failing).2 = true) (hevent : event ∈ events) :
    (db.createEventsBatch events failing).1.Stored event := by
  have hall : (events.foldl insertRow db).Stored event :=
    stored_insertRows.mpr (.inr ⟨event, hevent, rfl⟩)
  unfold createEventsBatch at hok ⊢
  split
  · exact hall
  · split
    · simp_all
    · exact hall

/-- A new row says what it was registered with; an old one stays. -/
theorem mem_getOrCreateMetadata {start : ℕ} {m : IndexingMetadata} :
    m ∈ (db.getOrCreateMetadata c start).metadata ↔
      m ∈ db.metadata ∨ ¬ db.HasRow c ∧ m = ⟨c, I64.ofU64 start, true, start⟩ := by
  unfold getOrCreateMetadata
  split
  · next hrow => simp [hrow]
  · next hrow => simp [hrow]

@[simp] theorem getOrCreateMetadata_events {start : ℕ} :
    (db.getOrCreateMetadata c start).events = db.events := by
  unfold getOrCreateMetadata
  split <;> rfl

/-- A registration keeps the events. -/
theorem stored_getOrCreateMetadata (c : String) (start : ℕ) {e : CreateEvent} (h : db.Stored e) :
    (db.getOrCreateMetadata c start).Stored e := by
  rwa [Stored, getOrCreateMetadata_events]

/-- A registration keeps the rows. -/
theorem hasRow_getOrCreateMetadata (c : String) (start : ℕ) {c' : String} (h : db.HasRow c') :
    (db.getOrCreateMetadata c start).HasRow c' := by
  obtain ⟨m, hm, hc⟩ := hasRow_iff.mp h
  exact hasRow_iff.mpr ⟨m, mem_getOrCreateMetadata.mpr (.inl hm), hc⟩

/-- The rows after an update. -/
theorem updateMetadata_effect {last : ℕ} (h : db.updateMetadata c last = some db') :
    db.HasRow c ∧ db'.events = db.events ∧
      db'.metadata = db.metadata.map (IndexingMetadata.moved c last) := by
  unfold updateMetadata at h
  split at h
  · next hrow =>
    cases h
    exact ⟨hrow, rfl, rfl⟩
  · cases h

/-- A contract that has a row can be updated. -/
theorem updateMetadata_isSome (last : ℕ) (h : db.HasRow c) :
    (db.updateMetadata c last).isSome := by
  rw [updateMetadata, if_pos h]
  rfl

end Repository

end StellarLend.Indexer
