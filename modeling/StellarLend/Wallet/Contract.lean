import StellarLend.Foundations.Run
import StellarLend.Lending.Storage

/-!
# Wallet/Contract — an institutional wallet and the batches it executes

    propose ──▸ approve ──▸ … ──▸ execute          start_recovery ──▸ execute_recovery

Admins propose batches of contract calls and approve them, and with enough approvals one of them
executes the batch.  The admins, the threshold and the guardians are set by the wallet itself, that
is, by a batch that calls back into it.  A guardian can replace the admins after a delay.

Whether the wallet may be called while it executes a batch is for the host to say: `Env.reentry` is
how deep its calls of itself may nest, and zero where the host refuses every such call.  A call back
through another contract is always refused.
-/

namespace StellarLend.Wallet

open Foundations Call
open Lending (Address)

/-! ## Data -/

inductive WalletError where
  | notInitialized
  | alreadyInitialized
  | unauthorized
  | invalidThreshold
  | invalidAdmins
  | proposalNotFound
  | alreadyVoted
  | proposalNotActive
  | insufficientApprovals
  | executionFailed
  | invalidBatch
  deriving DecidableEq, Repr

structure MultisigConfig where
  threshold : ℕ
  deriving DecidableEq, Repr

structure RecoveryRequest where
  newAdmins : List Address
  newThreshold : ℕ
  initiatedAt : ℕ
  deriving DecidableEq, Repr

/-- An argument of a contract call. -/
inductive Val where
  | address (a : Address)
  | addresses (as : List Address)
  | u32 (n : ℕ)
  | u64 (n : ℕ)
  | other
  deriving DecidableEq, Repr

structure Transaction where
  contract : Address
  function : String
  args : List Val
  deriving DecidableEq, Repr

inductive ProposalStatus where
  | active
  | executed
  | cancelled
  deriving DecidableEq, Repr

structure Proposal where
  id : ℕ
  proposer : Address
  description : String
  batch : List Transaction
  status : ProposalStatus
  createdAt : ℕ
  deriving DecidableEq, Repr

structure AuditEntry where
  actor : Address
  action : String
  timestamp : ℕ
  deriving DecidableEq, Repr

/-- An approval, with the admins of that moment. -/
structure Endorsement where
  proposalId : ℕ
  approver : Address
  admins : List Address
  deriving DecidableEq, Repr

/-- The execution of a batch, with the admins, the threshold and the approvals it found. -/
structure Execution where
  proposalId : ℕ
  admins : List Address
  threshold : ℕ
  approvals : List Address
  deriving DecidableEq, Repr

/-- The keys of the contract.  The last three fields are no keys: they are the approvals given and
the batches executed so far, and what was asked of other contracts, in order. -/
structure Storage where
  config : Option MultisigConfig
  admins : Option (List Address)
  nextProposalId : Option ℕ
  proposal : ℕ → Option Proposal
  approvals : ℕ → Option (List Address)
  auditTrail : ℕ → Option (List AuditEntry)
  guardians : Option (List Address)
  guardianThreshold : Option ℕ
  recoveryRequest : Option RecoveryRequest
  endorsements : List Endorsement
  executions : List Execution
  calls : List Transaction

/-- A freshly deployed contract. -/
def Storage.empty : Storage where
  config := none
  admins := none
  nextProposalId := none
  proposal := fun _ => none
  approvals := fun _ => none
  auditTrail := fun _ => none
  guardians := none
  guardianThreshold := none
  recoveryRequest := none
  endorsements := []
  executions := []
  calls := []

/-- What a transaction finds around it. -/
structure Env where
  timestamp : ℕ
  /-- The addresses that signed the transaction. -/
  auths : List Address
  /-- How deep the wallet's calls of itself may nest. -/
  reentry : ℕ
  /-- Whether another contract returns from a call, after what was asked of others so far. -/
  accepts : List Transaction → Transaction → Bool

/-- What an invocation finds around it: the transaction, the wallet's address, and whether the
wallet is who calls. -/
structure Frame where
  env : Env
  self : Address
  bySelf : Bool

/-- An invocation of the contract, or a part of one. -/
abbrev Invocation (α : Type) : Type := Call Frame Storage WalletError α

/-- The address's authorisation is accepted: it signed, or it is the wallet and calls itself. -/
def Frame.Authorises (f : Frame) (a : Address) : Prop :=
  if a = f.self then f.bySelf = true else a ∈ f.env.auths

instance (f : Frame) (a : Address) : Decidable (f.Authorises a) :=
  inferInstanceAs (Decidable (if a = f.self then f.bySelf = true else a ∈ f.env.auths))

/-- `address.require_auth()`. -/
def requireAuth (a : Address) : Invocation Unit := Call.require fun f => f.Authorises a

@[simp] theorem requireAuth_ok {a : Address} {f : Frame} {s s' : Storage} {u : Unit} :
    requireAuth a f s = .ok u s' ↔ f.Authorises a ∧ s = s' := by
  simp [requireAuth]

/-- `env.current_contract_address().require_auth()`. -/
def requireSelf : Invocation Unit := do
  let self ← asks Frame.self
  requireAuth self

@[simp] theorem requireSelf_ok {f : Frame} {s s' : Storage} {u : Unit} :
    requireSelf f s = .ok u s' ↔ f.bySelf = true ∧ s = s' := by
  simp [requireSelf, Frame.Authorises, and_comm]

/-! ## Storage -/

def getAdmins (s : Storage) : List Address := s.admins.getD []
def getApprovals (s : Storage) (id : ℕ) : List Address := (s.approvals id).getD []
def getAuditTrail (s : Storage) (id : ℕ) : List AuditEntry := (s.auditTrail id).getD []
def getGuardians (s : Storage) : List Address := s.guardians.getD []
def getGuardianThreshold (s : Storage) : ℕ := s.guardianThreshold.getD 0

def getConfig : Invocation MultisigConfig := do
  let config ← view Storage.config
  okOr config .notInitialized

def withProposal (id : ℕ) (p : Proposal) (s : Storage) : Storage :=
  { s with proposal := Function.update s.proposal id (some p) }

/-- The store with other approvals of a proposal, the last of which was just given. -/
def withApprovals (id : ℕ) (approvals : List Address) (approver : Address) (s : Storage) :
    Storage :=
  { s with
    approvals := Function.update s.approvals id (some approvals)
    endorsements := s.endorsements ++ [⟨id, approver, getAdmins s⟩] }

def withAuditEntry (id : ℕ) (entry : AuditEntry) (s : Storage) : Storage :=
  { s with
    auditTrail := Function.update s.auditTrail id (some (getAuditTrail s id ++ [entry])) }

def addAuditEntry (id : ℕ) (actor : Address) (action : String) : Invocation Unit := do
  let now ← asks fun f => f.env.timestamp
  store (withAuditEntry id ⟨actor, action, now⟩)

/-! ## Entry points -/

/-- The source's `initialize`. -/
def initializeWallet (admins : List Address) (threshold : ℕ) : Invocation Unit := do
  let current ← view Storage.config
  failIf (current.isSome = true) .alreadyInitialized
  failIf (admins = []) .invalidAdmins
  failIf (threshold = 0 ∨ admins.length < threshold) .invalidThreshold
  store fun s => { s with config := some ⟨threshold⟩, admins := some admins }

/-- Returns the proposal's identifier. -/
def propose (proposer : Address) (description : String) (batch : List Transaction) :
    Invocation ℕ := do
  requireAuth proposer
  let admins ← view getAdmins
  failIf (proposer ∉ admins) .unauthorized
  failIf (batch = []) .invalidBatch
  let id ← view fun s => s.nextProposalId.getD 0
  let next ← orTrap (U64.checkedAdd id 1)
  store fun s => { s with nextProposalId := some next }
  let now ← asks fun f => f.env.timestamp
  store (withProposal id ⟨id, proposer, description, batch, .active, now⟩)
  store (withApprovals id [proposer] proposer)
  addAuditEntry id proposer "propose"
  pure id

def approve (approver : Address) (proposalId : ℕ) : Invocation Unit := do
  requireAuth approver
  let admins ← view getAdmins
  failIf (approver ∉ admins) .unauthorized
  let proposal ← view fun s => s.proposal proposalId
  let proposal ← okOr proposal .proposalNotFound
  failIf (proposal.status ≠ .active) .proposalNotActive
  let approvals ← view fun s => getApprovals s proposalId
  failIf (approver ∈ approvals) .alreadyVoted
  store (withApprovals proposalId (approvals ++ [approver]) approver)
  addAuditEntry proposalId approver "approve"

def addAdmin (newAdmin : Address) : Invocation Unit := do
  requireSelf
  let admins ← view getAdmins
  failIf (newAdmin ∈ admins) .invalidAdmins
  store fun s => { s with admins := some (admins ++ [newAdmin]) }

def removeAdmin (admin : Address) : Invocation Unit := do
  requireSelf
  let admins ← view getAdmins
  failIf (admin ∉ admins) .invalidAdmins
  let config ← getConfig
  failIf ((admins.filter (· ≠ admin)).length < config.threshold) .invalidThreshold
  store fun s => { s with admins := some (admins.filter (· ≠ admin)) }

def setThreshold (threshold : ℕ) : Invocation Unit := do
  requireSelf
  let admins ← view getAdmins
  failIf (threshold = 0 ∨ admins.length < threshold) .invalidThreshold
  let _ ← getConfig
  store fun s => { s with config := some ⟨threshold⟩ }

def setGuardians (guardians : List Address) (threshold : ℕ) : Invocation Unit := do
  requireSelf
  failIf (guardians = [] ∨ threshold = 0 ∨ guardians.length < threshold) .invalidThreshold
  store fun s => { s with guardians := some guardians, guardianThreshold := some threshold }

def startRecovery (guardian : Address) (newAdmins : List Address) (newThreshold : ℕ) :
    Invocation Unit := do
  requireAuth guardian
  let guardians ← view getGuardians
  failIf (guardian ∉ guardians) .unauthorized
  failIf (newAdmins = [] ∨ newThreshold = 0 ∨ newAdmins.length < newThreshold) .invalidThreshold
  let now ← asks fun f => f.env.timestamp
  store fun s => { s with recoveryRequest := some ⟨newAdmins, newThreshold, now⟩ }

/-- The guardian threshold is read and not used. -/
def executeRecovery (guardian : Address) : Invocation Unit := do
  requireAuth guardian
  let guardians ← view getGuardians
  let _threshold ← view getGuardianThreshold
  failIf (guardian ∉ guardians) .unauthorized
  let request ← view Storage.recoveryRequest
  let request ← okOr request .proposalNotFound
  let now ← asks fun f => f.env.timestamp
  let due ← orTrap (U64.checkedAdd request.initiatedAt 86400)
  failIf (now < due) .executionFailed
  store fun s =>
    { s with
      admins := some request.newAdmins
      config := some ⟨request.newThreshold⟩
      recoveryRequest := none }

/-! ## Batches -/

/-- A call of an entry point. -/
inductive Op where
  | initializeWallet (admins : List Address) (threshold : ℕ)
  | propose (proposer : Address) (description : String) (batch : List Transaction)
  | approve (approver : Address) (proposalId : ℕ)
  | execute (executor : Address) (proposalId : ℕ)
  | addAdmin (newAdmin : Address)
  | removeAdmin (admin : Address)
  | setThreshold (threshold : ℕ)
  | setGuardians (guardians : List Address) (threshold : ℕ)
  | startRecovery (guardian : Address) (newAdmins : List Address) (newThreshold : ℕ)
  | executeRecovery (guardian : Address)
  | getProposal (id : ℕ)
  deriving DecidableEq

/-- The entry point a call of the wallet by itself reaches; `none` traps.  A batch expects calls to
return nothing, so those that always return something trap too: `propose`, and the views but one. -/
def Transaction.toOp (tx : Transaction) : Option Op :=
  match tx.function, tx.args with
  | "initialize", [.addresses admins, .u32 threshold] => some (.initializeWallet admins threshold)
  | "approve", [.address approver, .u64 id] => some (.approve approver id)
  | "execute", [.address executor, .u64 id] => some (.execute executor id)
  | "add_admin", [.address newAdmin] => some (.addAdmin newAdmin)
  | "remove_admin", [.address admin] => some (.removeAdmin admin)
  | "set_threshold", [.u32 threshold] => some (.setThreshold threshold)
  | "set_guardians", [.addresses guardians, .u32 threshold] =>
    some (.setGuardians guardians threshold)
  | "start_recovery", [.address guardian, .addresses newAdmins, .u32 newThreshold] =>
    some (.startRecovery guardian newAdmins newThreshold)
  | "execute_recovery", [.address guardian] => some (.executeRecovery guardian)
  | "get_proposal", [.u64 id] => some (.getProposal id)
  | _, _ => none

/-- Ask another contract; a refusal traps. -/
def askContract (tx : Transaction) : Invocation Unit := do
  let accepted ← look fun f s => f.env.accepts s.calls tx
  require fun _ => accepted
  store fun s => { s with calls := s.calls ++ [tx] }

/-- `env.invoke_contract`, where `again` is how the wallet is called by itself. -/
def invokeContract (again : Op → Invocation Unit) (tx : Transaction) : Invocation Unit := do
  let self ← asks Frame.self
  if tx.contract = self then do
    let op ← orTrap tx.toOp
    again op
  else askContract tx

/-- The calls of a batch, one after the other. -/
def invokeAll (again : Op → Invocation Unit) : List Transaction → Invocation Unit
  | [] => pure ()
  | tx :: txs => do
    invokeContract again tx
    invokeAll again txs

/-- The store after a batch is done. -/
def finished (id : ℕ) (p : Proposal) (x : Execution) (s : Storage) : Storage :=
  { withProposal id { p with status := .executed } s with executions := s.executions ++ [x] }

def execute (again : Op → Invocation Unit) (executor : Address) (proposalId : ℕ) :
    Invocation Unit := do
  requireAuth executor
  let admins ← view getAdmins
  failIf (executor ∉ admins) .unauthorized
  let proposal ← view fun s => s.proposal proposalId
  let proposal ← okOr proposal .proposalNotFound
  failIf (proposal.status ≠ .active) .proposalNotActive
  let config ← getConfig
  let approvals ← view fun s => getApprovals s proposalId
  failIf (approvals.length < config.threshold) .insufficientApprovals
  invokeAll again proposal.batch
  -- the status is written after the batch, over whatever the batch did to the proposal
  store (finished proposalId proposal ⟨proposalId, admins, config.threshold, approvals⟩)
  addAuditEntry proposalId executor "execute"

/-! ## The machine -/

def entry (again : Op → Invocation Unit) : Op → Invocation Unit
  | .initializeWallet admins threshold => initializeWallet admins threshold
  | .propose proposer description batch => do
    let _ ← propose proposer description batch
    pure ()
  | .approve approver id => approve approver id
  | .execute executor id => execute again executor id
  | .addAdmin newAdmin => addAdmin newAdmin
  | .removeAdmin admin => removeAdmin admin
  | .setThreshold threshold => setThreshold threshold
  | .setGuardians guardians threshold => setGuardians guardians threshold
  | .startRecovery guardian newAdmins newThreshold => startRecovery guardian newAdmins newThreshold
  | .executeRecovery guardian => executeRecovery guardian
  | .getProposal id => do
    let proposal ← view fun s => s.proposal id
    require fun f => f.bySelf = true → proposal = none

/-- An invocation by the wallet itself, where an error traps. -/
def bySelf (x : Invocation Unit) : Invocation Unit := fun f s =>
  match x { f with bySelf := true } s with
  | .ok u s' => .ok u s'
  | .err _ _ => .trap
  | .trap => .trap

@[simp] theorem bySelf_ok {x : Invocation Unit} {f : Frame} {s s' : Storage} {u : Unit} :
    bySelf x f s = .ok u s' ↔ x { f with bySelf := true } s = .ok u s' := by
  unfold bySelf
  cases x { f with bySelf := true } s <;> simp

/-- A call of the wallet by itself, where `n` more may nest. -/
def again : ℕ → Op → Invocation Unit
  | 0, _ => require fun _ => false
  | n + 1, op => bySelf (entry (again n) op)

/-- A transaction: a call and what it finds around it. -/
structure Tx where
  env : Env
  op : Op

/-- The store after a transaction that succeeded. -/
def step (wallet : Address) (tx : Tx) (s : Storage) : Option Storage :=
  commit (entry (again tx.env.reentry) tx.op) ⟨tx.env, wallet, false⟩ s

/-- **The state of the wallet after a sequence of transactions on a fresh deployment.** -/
def ledger (wallet : Address) (txs : List Tx) : Storage := run (step wallet) Storage.empty txs

/-- The last transaction acts on what the others left. -/
theorem ledger_snoc (wallet : Address) (txs : List Tx) (tx : Tx) :
    ledger wallet (txs ++ [tx]) = exec (step wallet) (ledger wallet txs) tx := run_snoc ..

/-! ## Sample parties, and a wallet of theirs -/

namespace Sample

def self : Address := ⟨0⟩
def alice : Address := ⟨1⟩
def bob : Address := ⟨2⟩
def carol : Address := ⟨3⟩
def dave : Address := ⟨4⟩

/-- A transaction at a time, signed by some addresses, in which the wallet may call itself but not
from such a call. -/
def envAt (now : ℕ) (auths : List Address) : Env := ⟨now, auths, 1, fun _ _ => true⟩

/-- A wallet whose two guardians recover it together. -/
def guarded : List Tx :=
  [⟨envAt 0 [], .initializeWallet [alice] 1⟩,
   ⟨envAt 1 [alice], .propose alice "guardians"
     [⟨self, "set_guardians", [.addresses [bob, carol], .u32 2]⟩]⟩,
   ⟨envAt 2 [alice], .execute alice 0⟩,
   ⟨envAt 3 [bob], .startRecovery bob [dave] 1⟩]

end Sample

end StellarLend.Wallet
