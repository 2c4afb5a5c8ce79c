import StellarLend.Foundations.IndexedMap
import StellarLend.Foundations.Run
import StellarLend.Lending.Storage

/-!
# DataStore/Contract — a key-value store with named backups

An admin and the writers the admin granted save values under keys.  The entries are storage items of
their own, which the host does not enumerate, so the contract keeps an index of their keys and a
count beside them.  A backup is what the index leads to at that moment; a restore removes what the
index leads to now and writes the backup.
-/

namespace StellarLend.DataStore

open Foundations Call
open Lending (Address)

/-! ## Data -/

/-- A string or byte array of the host. -/
abbrev Bytes : Type := List UInt8

def MAX_KEY_LEN : ℕ := 64
def MAX_VALUE_LEN : ℕ := 4096
def MAX_ENTRIES : ℕ := 1000
def MAX_BACKUP_NAME : ℕ := 32

inductive DataStoreError where
  | alreadyInitialized
  | notAuthorized
  | keyTooLong
  | valueTooLarge
  | keyNotFound
  | backupNotFound
  | storeFull
  | backupNameTooLong
  | notInitialized
  | invalidVersion
  deriving DecidableEq, Repr

/-- The keys of the contract. -/
structure Storage where
  admin : Option Address
  writers : Option (List Address)
  schemaVersion : Option ℕ
  entryCount : Option ℕ
  entry : Bytes → Option Bytes
  /-- The keys of a snapshot and their values. -/
  backup : Bytes → Option (List Bytes × List Bytes)
  keyIndex : Option (List Bytes)

/-- A freshly deployed contract. -/
def Storage.empty : Storage where
  admin := none
  writers := none
  schemaVersion := none
  entryCount := none
  entry := fun _ => none
  backup := fun _ => none
  keyIndex := none

/-- What an invocation finds around it: the addresses that signed it. -/
structure Env where
  auths : List Address

/-- An invocation of the contract, or a part of one. -/
abbrev Invocation (α : Type) : Type := Call Env Storage DataStoreError α

/-- `address.require_auth()`. -/
abbrev requireAuth (a : Address) : Invocation Unit := Call.requireAuth Env.auths a

def getWriters (s : Storage) : List Address := s.writers.getD []
def getEntryCount (s : Storage) : ℕ := s.entryCount.getD 0
def getKeyIndex (s : Storage) : List Bytes := s.keyIndex.getD []
def getSchemaVersion (s : Storage) : ℕ := s.schemaVersion.getD 0

/-! ## Guards -/

def assertInitialized : Invocation Unit := do
  let admin ← view Storage.admin
  failIf (admin = none) .notInitialized

def assertAdmin (caller : Address) : Invocation Unit := do
  let admin ← view Storage.admin
  let admin ← okOr admin .notInitialized
  failIf (caller ≠ admin) .notAuthorized

def assertCanWrite (caller : Address) : Invocation Unit := do
  let admin ← view Storage.admin
  let admin ← okOr admin .notInitialized
  let writers ← view getWriters
  failIf (caller ≠ admin ∧ caller ∉ writers) .notAuthorized

/-! ## Entry points -/

/-- The source's `init`. -/
def initStore (admin : Address) : Invocation Unit := do
  requireAuth admin
  let current ← view Storage.admin
  failIf (current.isSome = true) .alreadyInitialized
  store fun s =>
    { s with
      admin := some admin
      schemaVersion := some 0
      entryCount := some 0
      writers := some []
      keyIndex := some [] }

def grantWriter (caller writer : Address) : Invocation Unit := do
  requireAuth caller
  assertAdmin caller
  let writers ← view getWriters
  onlyIf (writer ∉ writers) (store fun s => { s with writers := some (writers ++ [writer]) })

def revokeWriter (caller writer : Address) : Invocation Unit := do
  requireAuth caller
  assertAdmin caller
  let writers ← view getWriters
  store fun s => { s with writers := some (writers.filter (· ≠ writer)) }

/-- The store with a new key in the index. -/
def indexed (key : Bytes) (s : Storage) : Storage :=
  { s with keyIndex := some (getKeyIndex s ++ [key]), entryCount := some (getEntryCount s + 1) }

/-- The store with an entry written. -/
def withEntry (key value : Bytes) (s : Storage) : Storage :=
  { s with entry := Function.update s.entry key (some value) }

def dataSave (caller : Address) (key value : Bytes) : Invocation Unit := do
  requireAuth caller
  assertInitialized
  assertCanWrite caller
  failIf (MAX_KEY_LEN < key.length) .keyTooLong
  failIf (MAX_VALUE_LEN < value.length) .valueTooLarge
  let stored ← view fun s => s.entry key
  onlyIf (stored = none) do
    let count ← view getEntryCount
    failIf (MAX_ENTRIES ≤ count) .storeFull
    store (indexed key)
  store (withEntry key value)

/-- Reads only, and panics with the error. -/
def dataLoad (s : Storage) (key : Bytes) : Except DataStoreError Bytes :=
  if s.admin = none then .error .notInitialized
  else
    match s.entry key with
    | some value => .ok value
    | none => .error .keyNotFound

/-- The walk over the index: the keys that have an entry, and their values. -/
def snapshot (entry : Bytes → Option Bytes) : List Bytes → List Bytes × List Bytes
  | [] => ([], [])
  | k :: ks =>
    match entry k with
    | some v => (k :: (snapshot entry ks).1, v :: (snapshot entry ks).2)
    | none => snapshot entry ks

/-- The store with a snapshot under a name. -/
def withBackup (name : Bytes) (snap : List Bytes × List Bytes) (s : Storage) : Storage :=
  { s with backup := Function.update s.backup name (some snap) }

def dataBackup (caller : Address) (backupName : Bytes) : Invocation Unit := do
  requireAuth caller
  assertInitialized
  assertCanWrite caller
  failIf (MAX_BACKUP_NAME < backupName.length) .backupNameTooLong
  let snap ← view fun s => snapshot s.entry (getKeyIndex s)
  store (withBackup backupName snap)

/-- The keys of a snapshot with their values, by position; `none` is a missing value, which traps.
-/
def snapshotPairs : List Bytes → List Bytes → Option (List (Bytes × Bytes))
  | [], _ => some []
  | k :: ks, v :: vs => (snapshotPairs ks vs).map ((k, v) :: ·)
  | _ :: _, [] => none

/-- The store after a restore: the indexed entries removed, and the pairs of the snapshot written
and indexed in their order. -/
def restored (ps : List (Bytes × Bytes)) (s : Storage) : Storage :=
  { s with
    entry := writePairs (eraseKeys s.entry (getKeyIndex s)) ps
    keyIndex := some (ps.map Prod.fst)
    entryCount := some ps.length }

def dataRestore (caller : Address) (backupName : Bytes) : Invocation Unit := do
  requireAuth caller
  assertInitialized
  assertAdmin caller
  let snap ← view fun s => s.backup backupName
  let (snapKeys, snapVals) ← okOr snap .backupNotFound
  let ps ← orTrap (snapshotPairs snapKeys snapVals)
  store (restored ps)

/-- The memo goes to an event only. -/
def dataMigrateBumpVersion (caller : Address) (newVersion : ℕ) (memo : Option Bytes) :
    Invocation Unit := do
  requireAuth caller
  assertInitialized
  assertAdmin caller
  let current ← view getSchemaVersion
  failIf (newVersion ≤ current) .invalidVersion
  failIf (∃ m ∈ memo, 128 < m.length) .valueTooLarge
  store fun s => { s with schemaVersion := some newVersion }

/-! ## The machine -/

/-- A call of an entry point. -/
inductive Op where
  | init (admin : Address)
  | grantWriter (caller writer : Address)
  | revokeWriter (caller writer : Address)
  | dataSave (caller : Address) (key value : Bytes)
  | dataBackup (caller : Address) (backupName : Bytes)
  | dataRestore (caller : Address) (backupName : Bytes)
  | dataMigrateBumpVersion (caller : Address) (newVersion : ℕ) (memo : Option Bytes)
  deriving DecidableEq

/-- A transaction: a call and what it finds around it. -/
structure Tx where
  env : Env
  op : Op

/-- The store after a call that succeeded. -/
def Op.apply (op : Op) (e : Env) (s : Storage) : Option Storage :=
  match op with
  | .init admin => commit (initStore admin) e s
  | .grantWriter caller writer => commit (DataStore.grantWriter caller writer) e s
  | .revokeWriter caller writer => commit (DataStore.revokeWriter caller writer) e s
  | .dataSave caller key value => commit (DataStore.dataSave caller key value) e s
  | .dataBackup caller name => commit (DataStore.dataBackup caller name) e s
  | .dataRestore caller name => commit (DataStore.dataRestore caller name) e s
  | .dataMigrateBumpVersion caller version memo =>
    commit (DataStore.dataMigrateBumpVersion caller version memo) e s

/-- The store after a transaction that succeeded. -/
def step (tx : Tx) (s : Storage) : Option Storage := tx.op.apply tx.env s

/-- **The state of the contract after a sequence of transactions on a fresh deployment.** -/
def ledger (txs : List Tx) : Storage := run step Storage.empty txs

end StellarLend.DataStore
