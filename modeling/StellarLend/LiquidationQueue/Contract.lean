import Mathlib.Order.OrderDual
import StellarLend.Foundations.Scan
import StellarLend.HelloWorld.Contract

/-!
# LiquidationQueue/Contract — the queue of liquidators

A liquidator registers an unhealthy borrower; whoever works the queue asks for the next entry and
processes it.  Entries are numbered and never removed: what ends one is its status.  The queue reads
positions and the admin from the rest of the contract, whose calls are steps of the same machine.
-/

namespace StellarLend.LiquidationQueue

open Foundations Call Function
open Lending (Address)
open HelloWorld (LendingError)

/-! ## Data -/

def MAX_QUEUE_SIZE : UInt32 := 1000
def QUEUE_ENTRY_EXPIRATION : ℕ := 86400
def LIQUIDATION_THRESHOLD_BPS : ℤ := 10000
def SEVERE_HEALTH_MULTIPLIER : ℤ := 2
def CRITICAL_HEALTH_MULTIPLIER : ℤ := 3
def SEVERE_HEALTH_THRESHOLD_BPS : ℤ := 8000
def CRITICAL_HEALTH_THRESHOLD_BPS : ℤ := 5000

inductive QueueEntryStatus where
  | pending
  | processing
  | completed
  | expired
  | cancelled
  deriving DecidableEq, Repr

structure LiquidationQueueEntry where
  id : ℕ
  borrower : Address
  liquidator : Address
  healthFactor : ℤ
  priorityScore : ℤ
  queuedAt : ℕ
  expiresAt : ℕ
  status : QueueEntryStatus
  debtValue : ℤ
  collateralValue : ℤ
  deriving DecidableEq

structure QueueConfig where
  maxQueueSize : UInt32
  entryExpiration : ℕ
  fifoEnabled : Bool
  priorityEnabled : Bool
  deriving DecidableEq

/-- The source's `QueueConfig::default()`. -/
def defaultConfig : QueueConfig where
  maxQueueSize := MAX_QUEUE_SIZE
  entryExpiration := QUEUE_ENTRY_EXPIRATION
  fifoEnabled := true
  priorityEnabled := true

/-- The keys of `liquidation_queue.rs`, and those of the rest of the contract. -/
structure Storage where
  config : Option QueueConfig
  nextId : Option ℕ
  entry : ℕ → Option LiquidationQueueEntry
  protocol : HelloWorld.Storage

/-- A freshly deployed contract. -/
def Storage.empty : Storage where
  config := none
  nextId := none
  entry := fun _ => none
  protocol := HelloWorld.Storage.empty

/-- An invocation of the contract, or a part of one. -/
abbrev Invocation (α : Type) : Type := Call HelloWorld.Env Storage LendingError α

/-- `address.require_auth()`. -/
abbrev requireAuth (a : Address) : Invocation Unit := Call.requireAuth HelloWorld.Env.auths a

/-! ## Reading and writing -/

def getQueueConfig (s : Storage) : QueueConfig := s.config.getD defaultConfig
def getNextId (s : Storage) : ℕ := s.nextId.getD 0
def getQueueEntry (s : Storage) (entryId : ℕ) : Option LiquidationQueueEntry := s.entry entryId

/-- `persistent().set(LiquidationQueueEntry(id), entry)`. -/
def setEntry (entryId : ℕ) (entry : LiquidationQueueEntry) (s : Storage) : Storage :=
  { s with entry := update s.entry entryId (some entry) }

def LiquidationQueueEntry.withStatus (entry : LiquidationQueueEntry) (status : QueueEntryStatus) :
    LiquidationQueueEntry := { entry with status := status }

/-- The entry, if it is pending. -/
def pendingEntry (s : Storage) (entryId : ℕ) : Option LiquidationQueueEntry :=
  (getQueueEntry s entryId).filter fun entry => entry.status = .pending

def getPendingQueueEntries (s : Storage) : List LiquidationQueueEntry :=
  (List.range (getNextId s)).filterMap (pendingEntry s)

/-! ## Health -/

/-- The source's `analytics::get_user_position_summary`. -/
def getUserPositionSummary (s : Storage) (user : Address) : Option HelloWorld.Position :=
  s.protocol.books.position user

/-- The source's `analytics::calculate_health_factor`, its errors renamed by the caller. -/
def calculateHealthFactor (user : Address) : Invocation ℤ := do
  let stored ← view fun s => getUserPositionSummary s user
  let position ← okOr stored .invalidState
  if position.debt = 0 then pure I128.MAX
  else do
    let weighted ← orTrap (I128.checkedMul position.collateral 10000)
    okOr (I128.checkedDiv weighted position.debt) .invalidState

/-- How much a health factor counts. -/
def healthMultiplier (healthFactor : ℤ) : ℤ :=
  if healthFactor ≤ CRITICAL_HEALTH_THRESHOLD_BPS then CRITICAL_HEALTH_MULTIPLIER
  else if healthFactor ≤ SEVERE_HEALTH_THRESHOLD_BPS then SEVERE_HEALTH_MULTIPLIER
  else 1

/-- `none` is an overflow, which traps. -/
def calculatePriorityScore (healthFactor debtValue : ℤ) : Option ℤ := do
  let baseScore ← I128.checkedSub 10000 healthFactor
  let debtBonus := min (debtValue.tdiv 1000000) 1000
  let weighted ← I128.checkedMul baseScore (healthMultiplier healthFactor)
  I128.checkedAdd weighted debtBonus

/-! ## Entry points -/

/-- Nobody is asked for a signature. -/
def initializeQueue (config : QueueConfig) : Invocation Unit :=
  store fun s => { s with config := some config, nextId := some 0 }

def registerLiquidationInterest (liquidator borrower : Address) : Invocation ℕ := do
  requireAuth liquidator
  let healthFactor ← calculateHealthFactor borrower
  failIf (LIQUIDATION_THRESHOLD_BPS ≤ healthFactor) .invalidState
  let config ← view getQueueConfig
  let queue ← view getPendingQueueEntries
  failIf (config.maxQueueSize.toNat ≤ queue.length) .limitExceeded
  let stored ← view fun s => getUserPositionSummary s borrower
  let position ← okOr stored .dataNotFound
  let priorityScore ← orTrap (calculatePriorityScore healthFactor position.debt)
  let entryId ← view getNextId
  let now ← asks HelloWorld.Env.timestamp
  let expiresAt ← orTrap (U64.checkedAdd now config.entryExpiration)
  store (setEntry entryId
    { id := entryId
      borrower := borrower
      liquidator := liquidator
      healthFactor := healthFactor
      priorityScore := priorityScore
      queuedAt := now
      expiresAt := expiresAt
      status := .pending
      debtValue := position.debt
      collateralValue := position.collateral })
  let nextId ← orTrap (U64.checkedAdd entryId 1)
  store fun s => { s with nextId := some nextId }
  pure entryId

/-- The walk of `cleanup_expired_entries` over some ids. -/
def sweep (now : ℕ) : List ℕ → ℕ → Invocation ℕ
  | [], cleaned => pure cleaned
  | entryId :: ids, cleaned => do
    let stored ← view fun s => getQueueEntry s entryId
    match stored with
    | some entry =>
      if entry.status = .pending ∧ entry.expiresAt < now then do
        store (setEntry entryId (entry.withStatus .expired))
        let cleaned ← orTrap (U32.checkedAdd cleaned 1)
        sweep now ids cleaned
      else sweep now ids cleaned
    | none => sweep now ids cleaned

def cleanupExpiredEntries : Invocation ℕ := do
  let now ← asks HelloWorld.Env.timestamp
  let nextId ← view getNextId
  sweep now (List.range nextId) 0

/-- The best of the queue: by score, or by age. -/
def selectEntry (config : QueueConfig) (queue : List LiquidationQueueEntry) :
    Option LiquidationQueueEntry :=
  if config.priorityEnabled then
    scan LiquidationQueueEntry.priorityScore (-2 ^ 127) queue
  else
    scan (fun entry => OrderDual.toDual entry.queuedAt) (OrderDual.toDual U64.MAX) queue

def getNextLiquidation : Invocation (Option LiquidationQueueEntry) := do
  let config ← view getQueueConfig
  let queue ← view getPendingQueueEntries
  if queue = [] then pure none
  else do
    let _ ← cleanupExpiredEntries
    let queue ← view getPendingQueueEntries
    pure (selectEntry config queue)

/-- An entry is marked as processing and then as completed; nothing is liquidated. -/
def processQueueLiquidation (entryId : ℕ) (executor : Address) : Invocation Unit := do
  requireAuth executor
  let stored ← view fun s => getQueueEntry s entryId
  let entry ← okOr stored .dataNotFound
  failIf (entry.status ≠ .pending) .invalidState
  let now ← asks HelloWorld.Env.timestamp
  if entry.expiresAt < now then do
    store (setEntry entryId (entry.withStatus .expired))
    fail .invalidState
  else do
    let currentHealth ← calculateHealthFactor entry.borrower
    if LIQUIDATION_THRESHOLD_BPS ≤ currentHealth then do
      store (setEntry entryId (entry.withStatus .cancelled))
      fail .invalidState
    else do
      store (setEntry entryId (entry.withStatus .processing))
      store (setEntry entryId (entry.withStatus .completed))

def cancelQueueEntry (entryId : ℕ) (caller : Address) : Invocation Unit := do
  requireAuth caller
  let stored ← view fun s => getQueueEntry s entryId
  let entry ← okOr stored .dataNotFound
  let admin ← view fun s => HelloWorld.getAdmin s.protocol
  let admin ← okOr admin .unauthorized
  failIf (caller ≠ entry.liquidator ∧ caller ≠ admin) .unauthorized
  failIf (entry.status ≠ .pending) .invalidState
  store (setEntry entryId (entry.withStatus .cancelled))

/-! ## The machine -/

/-- A call of an entry point. -/
inductive Op where
  | initializeQueue (config : QueueConfig)
  | registerLiquidationInterest (liquidator borrower : Address)
  | getNextLiquidation
  | processQueueLiquidation (entryId : ℕ) (executor : Address)
  | cancelQueueEntry (entryId : ℕ) (caller : Address)
  | cleanupExpiredQueueEntries
  -- the rest of the contract
  | core (op : HelloWorld.Op)
  deriving DecidableEq

/-- A transaction: a call and what it finds around it. -/
structure Tx where
  env : HelloWorld.Env
  op : Op

/-- The store after a call that succeeded. -/
def Op.apply (op : Op) (e : HelloWorld.Env) (s : Storage) : Option Storage :=
  match op with
  | .initializeQueue config => commit (LiquidationQueue.initializeQueue config) e s
  | .registerLiquidationInterest liquidator borrower =>
    commit (LiquidationQueue.registerLiquidationInterest liquidator borrower) e s
  | .getNextLiquidation => commit LiquidationQueue.getNextLiquidation e s
  | .processQueueLiquidation id executor =>
    commit (LiquidationQueue.processQueueLiquidation id executor) e s
  | .cancelQueueEntry id caller => commit (LiquidationQueue.cancelQueueEntry id caller) e s
  | .cleanupExpiredQueueEntries => commit cleanupExpiredEntries e s
  | .core op => (op.apply e s.protocol).map fun t => { s with protocol := t }

/-- The store after a transaction that succeeded. -/
def step (tx : Tx) (s : Storage) : Option Storage := tx.op.apply tx.env s

/-- **The state of the contract after a sequence of transactions on a fresh deployment.** -/
def ledger (txs : List Tx) : Storage := run step Storage.empty txs

end StellarLend.LiquidationQueue
