import StellarLend.Governance.Storage

/-!
# Governance/Councils — admins, guardians and the recovery of an admin

    start_recovery ──▸ approve_recovery … ──▸ execute_recovery

A guardian asks to replace an admin of the multisig, other guardians approve, and anybody executes
once there are enough approvals.  A request that expired is removed on the way to an error, and the
error takes the removal back.
-/

namespace StellarLend.Governance

open Foundations Call
open Lending (Address)

/-- `caller` is the admin of governance. -/
def requireAdmin (caller : Address) : Invocation Unit := do
  requireAuth caller
  let admin ← getAdmin
  failIf (caller ≠ admin) .unauthorized

/-! ## The multisig -/

def setMultisigConfig (caller : Address) (admins : List Address) (threshold : ℕ) :
    Invocation Unit := do
  requireAdmin caller
  failIf (admins = [] ∨ threshold = 0 ∨ admins.length < threshold) .invalidMultisigConfig
  store fun s => { s with multisigConfig := some ⟨admins, threshold⟩ }

def setMultisigAdmins (caller : Address) (admins : List Address) : Invocation Unit := do
  let config ← getMultisigConfig
  setMultisigConfig caller admins config.threshold

def setMultisigThreshold (caller : Address) (threshold : ℕ) : Invocation Unit := do
  let config ← getMultisigConfig
  setMultisigConfig caller config.admins threshold

/-- The duplicate check is here only. -/
def msSetAdmins (caller : Address) (admins : List Address) (threshold : ℕ) :
    Invocation Unit := do
  failIf (admins = [] ∨ threshold = 0 ∨ admins.length < threshold) .invalidMultisigConfig
  failIf (¬ admins.Nodup) .invalidMultisigConfig
  setMultisigConfig caller admins threshold

/-! ## Guardians -/

/-- `get(GuardianConfig)`, or `GuardianNotFound`. -/
def getGuardianConfig : Invocation GuardianConfig := do
  let stored ← view Storage.guardianConfig
  okOr stored .guardianNotFound

def addGuardian (caller guardian : Address) : Invocation Unit := do
  requireAdmin caller
  let config ← view fun s => s.guardianConfig.getD ⟨[], 1⟩
  failIf (guardian ∈ config.guardians) .guardianAlreadyExists
  store fun s =>
    { s with guardianConfig := some { config with guardians := config.guardians ++ [guardian] } }

/-- The threshold is lowered to the number of guardians that are left. -/
def removeGuardian (caller guardian : Address) : Invocation Unit := do
  requireAdmin caller
  let config ← getGuardianConfig
  failIf (guardian ∉ config.guardians) .guardianNotFound
  let guardians := config.guardians.filter (· ≠ guardian)
  store fun s =>
    { s with guardianConfig := some ⟨guardians, min config.threshold guardians.length⟩ }

def setGuardianThreshold (caller : Address) (threshold : ℕ) : Invocation Unit := do
  requireAdmin caller
  let config ← getGuardianConfig
  failIf (threshold = 0 ∨ config.guardians.length < threshold) .invalidGuardianConfig
  store fun s => { s with guardianConfig := some { config with threshold := threshold } }

/-! ## Recovery -/

/-- The approvals on record for the request. -/
def recoveryApprovals (s : Storage) : List Address := s.recoveryApprovals.getD []

/-- The request and the initiator's approval, as both modules store them. -/
def openRecovery (initiator oldAdmin newAdmin : Address) : Invocation Unit := do
  let current ← view Storage.recoveryRequest
  failIf (current.isSome = true) .recoveryInProgress
  let now ← asks HelloWorld.Env.timestamp
  let expiresAt ← orTrap (U64.checkedAdd now DEFAULT_RECOVERY_PERIOD)
  store fun s =>
    { s with
      recoveryRequest := some ⟨oldAdmin, newAdmin, initiator, now, expiresAt⟩
      recoveryApprovals := some [initiator] }

/-- One more approval, as both modules store it. -/
def recordApproval (approver : Address) : Invocation Unit := do
  let approvals ← view recoveryApprovals
  failIf (approver ∈ approvals) .alreadyVoted
  store fun s => { s with recoveryApprovals := some (approvals ++ [approver]) }

/-- The request, unless it has expired. -/
def pendingRecovery : Invocation RecoveryRequest := do
  let stored ← view Storage.recoveryRequest
  let request ← okOr stored .noRecoveryInProgress
  let now ← asks HelloWorld.Env.timestamp
  onlyIf (request.expiresAt < now) do
    store fun s => { s with recoveryRequest := none }
    fail .proposalExpired
  pure request

/-- The old admin goes and the new one comes last. -/
def replaceAdmin (request : RecoveryRequest) (admins : List Address) : List Address :=
  admins.filter (· ≠ request.oldAdmin) ++ [request.newAdmin]

/-- `remove(RecoveryRequest)` and `remove(RecoveryApprovals)`. -/
def closeRecovery (s : Storage) : Storage :=
  { s with recoveryRequest := none, recoveryApprovals := none }

def startRecovery (initiator oldAdmin newAdmin : Address) : Invocation Unit := do
  requireAuth initiator
  let config ← getGuardianConfig
  failIf (initiator ∉ config.guardians) .unauthorized
  openRecovery initiator oldAdmin newAdmin

def approveRecovery (approver : Address) : Invocation Unit := do
  requireAuth approver
  let config ← getGuardianConfig
  failIf (approver ∉ config.guardians) .unauthorized
  let request ← view Storage.recoveryRequest
  failIf (request = none) .noRecoveryInProgress
  recordApproval approver

/-- Approvals are counted, whoever gave them. -/
def executeRecovery (executor : Address) : Invocation Unit := do
  requireAuth executor
  let config ← getGuardianConfig
  let request ← pendingRecovery
  let approvals ← view recoveryApprovals
  failIf (approvals.length < config.threshold) .insufficientApprovals
  let multisig ← getMultisigConfig
  store fun s =>
    { s with
      multisigConfig := some { multisig with admins := replaceAdmin request multisig.admins } }
  store closeRecovery

/-! ## The second module

No function of it asks for a signature. -/

namespace Recovery

def requireMultisigAdmin (caller : Address) : Invocation Unit := do
  let stored ← view Storage.multisigAdmins
  let admins ← okOr stored .unauthorized
  failIf (caller ∉ admins) .unauthorized

def setGuardians (caller : Address) (guardians : List Address) (threshold : ℕ) :
    Invocation Unit := do
  requireMultisigAdmin caller
  failIf (guardians = []) .invalidGuardianConfig
  failIf (threshold = 0 ∨ guardians.length < threshold) .invalidGuardianConfig
  failIf (¬ guardians.Nodup) .invalidGuardianConfig
  store fun s => { s with guardians := some guardians, guardianThreshold := some threshold }

def addGuardian (caller guardian : Address) : Invocation Unit := do
  requireMultisigAdmin caller
  let guardians ← view fun s => s.guardians.getD []
  failIf (guardian ∈ guardians) .guardianAlreadyExists
  store fun s => { s with guardians := some (guardians ++ [guardian]) }

/-- The threshold stays. -/
def removeGuardian (caller guardian : Address) : Invocation Unit := do
  requireMultisigAdmin caller
  let stored ← view Storage.guardians
  let guardians ← okOr stored .guardianNotFound
  failIf (guardian ∉ guardians) .guardianNotFound
  store fun s => { s with guardians := some (guardians.filter (· ≠ guardian)) }

def setGuardianThreshold (caller : Address) (threshold : ℕ) : Invocation Unit := do
  requireMultisigAdmin caller
  let guardians ← view fun s => s.guardians.getD []
  failIf (threshold = 0 ∨ guardians.length < threshold) .invalidGuardianConfig
  store fun s => { s with guardianThreshold := some threshold }

def requireGuardian (caller : Address) : Invocation Unit := do
  let stored ← view Storage.guardians
  let guardians ← okOr stored .unauthorized
  failIf (caller ∉ guardians) .unauthorized

def startRecovery (initiator oldAdmin newAdmin : Address) : Invocation Unit := do
  requireGuardian initiator
  openRecovery initiator oldAdmin newAdmin

def approveRecovery (approver : Address) : Invocation Unit := do
  requireGuardian approver
  let _ ← pendingRecovery
  recordApproval approver

/-- The approvals needed here. -/
def getGuardianThreshold (s : Storage) : ℕ := s.guardianThreshold.getD 1

def executeRecovery (_executor : Address) : Invocation Unit := do
  let request ← pendingRecovery
  let threshold ← view getGuardianThreshold
  let approvals ← view recoveryApprovals
  failIf (approvals.length < threshold) .insufficientApprovals
  store fun s =>
    { s with multisigAdmins := some (replaceAdmin request (s.multisigAdmins.getD [])) }
  store closeRecovery

end Recovery

end StellarLend.Governance
