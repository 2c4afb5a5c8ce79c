import StellarLend.Foundations.Run
import StellarLend.Bridge.Storage

/-!
# Bridge/Contract — the entry points

Anyone submits a message; registered validators approve or reject it; with enough approvals, none
against and the wait over, anyone has it paid out.  Approving two messages that contradict each
other costs a validator stake, and invalidates both.
-/

namespace StellarLend.Bridge

open Foundations Call
open Lending (Address)

/-! ## Bridges -/

def init (admin : Address) : Invocation Unit := do
  let current ← view Storage.admin
  failIf (current.isSome = true) .alreadyInitialised
  store fun s =>
    { s with
      admin := some admin
      securityConfig := some defaultSecurityConfig
      stats := some defaultStats }

def registerBridge (caller : Address) (bridgeId : String) (feeBps : ℕ) (minAmount : ℤ) :
    Invocation Unit := do
  requireAdmin caller
  validateId bridgeId
  failIf (MAX_FEE_BPS < feeBps) .feeTooHigh
  failIf (minAmount < 0) .negativeMinAmount
  let existing ← view fun s => s.bridge bridgeId
  failIf (existing.isSome = true) .bridgeAlreadyExists
  store (saveBridge bridgeId ⟨bridgeId, feeBps, minAmount, true, 0, 0⟩)
  store fun s => { s with bridgeList := some (bridgeList s ++ [bridgeId]) }

def setBridgeFee (caller : Address) (bridgeId : String) (feeBps : ℕ) : Invocation Unit := do
  requireAdmin caller
  failIf (MAX_FEE_BPS < feeBps) .feeTooHigh
  let cfg ← loadBridge bridgeId
  store (saveBridge bridgeId { cfg with feeBps := feeBps })

def setBridgeActive (caller : Address) (bridgeId : String) (active : Bool) : Invocation Unit := do
  requireAdmin caller
  let cfg ← loadBridge bridgeId
  store (saveBridge bridgeId { cfg with active := active })

/-- The product is taken in 256 bits, which hold it. -/
def computeFee (amount : ℤ) (feeBps : ℕ) : Option ℤ := do
  let product ← I256.mul amount feeBps
  let fee ← I256.div product 10000
  pure ((I256.toI128 fee).getD 0)

def bridgeDeposit (sender : Address) (bridgeId : String) (amount : ℤ) : Invocation ℤ := do
  requireAuth sender
  let paused ← view fun s => s.bridgeAcceptancePaused.getD false
  failIf (paused = true) .bridgeAcceptancePaused
  failIf (amount ≤ 0) .amountNotPositive
  let cfg ← loadBridge bridgeId
  failIf (cfg.active = false) .bridgeInactive
  failIf (amount < cfg.minAmount) .amountBelowMinimum
  let fee ← orTrap (computeFee amount cfg.feeBps)
  let net ← okOr (I128.checkedSub amount fee) .overflow
  let totalDeposited ← okOr (I128.checkedAdd cfg.totalDeposited amount) .overflow
  store (saveBridge bridgeId { cfg with totalDeposited := totalDeposited })
  pure net

/-- The recipient is named and not used. -/
def bridgeWithdraw (caller : Address) (bridgeId : String) (_recipient : Address) (amount : ℤ) :
    Invocation Unit := do
  requireAdmin caller
  failIf (amount ≤ 0) .amountNotPositive
  let cfg ← loadBridge bridgeId
  failIf (amount < cfg.minAmount) .amountBelowMinimum
  let totalWithdrawn ← okOr (I128.checkedAdd cfg.totalWithdrawn amount) .overflow
  store (saveBridge bridgeId { cfg with totalWithdrawn := totalWithdrawn })

/-! ## Administration -/

def setBridgeAcceptancePaused (caller : Address) (paused : Bool) : Invocation Unit := do
  requireAdmin caller
  store fun s => { s with bridgeAcceptancePaused := some paused }

def setBridgeSecurityConfig (caller : Address) (cfg : SecurityConfig) : Invocation Unit := do
  requireAdmin caller
  validateSecurityConfig cfg
  store fun s => { s with securityConfig := some cfg }

def registerValidator (caller validator : Address) (stake : ℤ) : Invocation Unit := do
  requireAdmin caller
  failIf (stake ≤ 0) .invalidValidatorStake
  let existing ← view fun s => s.validator validator
  failIf (existing.isSome = true) .validatorAlreadyExists
  store (saveValidator validator ⟨stake, true, 0, 0⟩)
  store fun s => { s with validatorList := some (validatorList s ++ [validator]) }

def setValidatorActive (caller validator : Address) (active : Bool) : Invocation Unit := do
  requireAdmin caller
  let record ← loadValidator validator
  store (saveValidator validator { record with active := active })

def closeChannelEmergency (caller : Address) (channelId reason : String) : Invocation Unit := do
  requireAdmin caller
  let state ← view fun s => loadChannelState s channelId
  store (saveChannelState channelId { state with emergencyClosed := true, reason := reason })
  store (withStats fun stats =>
    { stats with emergencyClosures := U64.saturatingAdd stats.emergencyClosures 1 })

def reopenChannel (caller : Address) (channelId : String) : Invocation Unit := do
  requireAdmin caller
  let state ← view fun s => loadChannelState s channelId
  store (saveChannelState channelId { state with emergencyClosed := false, reason := "" })

def transferAdmin (caller newAdmin : Address) : Invocation Unit := do
  requireAdmin caller
  store fun s => { s with admin := some newAdmin }

/-! ## Messages -/

/-- What a message is known by where it comes from. -/
def CrossChainMessageInput.sourceKey (input : CrossChainMessageInput) : SourceMessageKey :=
  ⟨input.channelId, input.sourceChain, input.sourceTxId, input.nonce⟩

/-- The message a submission stores. -/
def CrossChainMessageInput.message (input : CrossChainMessageInput) (messageId sequence : ℕ)
    (cfg : SecurityConfig) : CrossChainMessage where
  messageId := messageId
  bridgeId := input.bridgeId
  channelId := input.channelId
  sourceChain := input.sourceChain
  sourceTxId := input.sourceTxId
  sourceHeight := input.sourceHeight
  nonce := input.nonce
  recipient := input.recipient
  amount := input.amount
  payloadVersion := input.payloadVersion
  submittedAtLedger := sequence
  finalityLedger :=
    U32.saturatingAdd sequence (max cfg.minFinalityLedgers cfg.optimisticDelayLedgers)
  approvals := 0
  rejections := 0
  executed := false
  invalidated := false

/-- A refusal that counts as an anomaly of the channel. -/
def refuseMessage (channelId reason : String) (err : ContractError) : Invocation Unit := do
  store (recordChannelAnomaly channelId reason)
  fail err

def submitCrossChainMessage (caller : Address) (input : CrossChainMessageInput) :
    Invocation ℕ := do
  requireAuth caller
  validateId input.bridgeId
  validateId input.channelId
  validateId input.sourceChain
  failIf (input.amount ≤ 0) .amountNotPositive
  let cfg ← view loadSecurityConfig
  onlyIf (input.payloadVersion ≠ cfg.supportedMessageVersion)
    (refuseMessage input.channelId "unsupported_message_version" .invalidMessageVersion)
  let bridge ← loadBridge input.bridgeId
  failIf (input.amount < bridge.minAmount) .amountBelowMinimum
  let channel ← view fun s => loadChannelState s input.channelId
  failIf (channel.emergencyClosed = true) .channelClosed
  let known ← view fun s => s.messageSource input.sourceKey
  onlyIf (known.isSome = true) do
    store (withStats fun stats =>
      { stats with replayRejections := U64.saturatingAdd stats.replayRejections 1 })
    refuseMessage input.channelId "replay_detected" .replayDetected
  onlyIf (channel.lastObservedNonce ≠ 0 ∧ input.nonce ≤ channel.lastObservedNonce)
    (refuseMessage input.channelId "out_of_order_nonce" .invalidMessageOrdering)
  onlyIf (channel.lastObservedHeight ≠ 0 ∧ input.sourceHeight < channel.lastObservedHeight)
    (refuseMessage input.channelId "source_height_regression" .invalidMessageOrdering)
  let messageId ← nextMessageId
  let sequence ← asks Env.sequence
  store (saveChannelState input.channelId
    { channel with lastObservedNonce := input.nonce, lastObservedHeight := input.sourceHeight })
  store (saveSource input.sourceKey messageId)
  store (saveMessage (input.message messageId sequence cfg))
  store (withStats fun stats =>
    { stats with totalMessages := U64.saturatingAdd stats.totalMessages 1 })
  pure messageId

def attestCrossChainMessage (validator : Address) (messageId : ℕ) (approve : Bool) :
    Invocation Unit := do
  requireAuth validator
  let record ← loadValidator validator
  failIf (record.active = false) .validatorInactive
  let message ← loadMessage messageId
  failIf (message.executed = true) .messageAlreadyExecuted
  failIf (message.invalidated = true) .messageInvalidated
  let previous ← view fun s => s.messageAttestation messageId validator
  failIf (previous.isSome = true) .duplicateAttestation
  store (saveAttestation messageId validator approve)
  if approve = true then do
    store (saveValidator validator
      { record with approvals := U32.saturatingAdd record.approvals 1 })
    store (saveMessage { message with approvals := U32.saturatingAdd message.approvals 1 })
  else do
    store (recordChannelAnomaly message.channelId "validator_rejection")
    store (saveMessage { message with rejections := U32.saturatingAdd message.rejections 1 })

def executeVerifiedWithdrawal (caller : Address) (messageId : ℕ) : Invocation Unit := do
  requireAuth caller
  let cfg ← view loadSecurityConfig
  let message ← loadMessage messageId
  failIf (message.executed = true) .messageAlreadyExecuted
  failIf (message.invalidated = true) .messageInvalidated
  failIf (message.approvals < cfg.minValidatorSignatures) .quorumNotReached
  let sequence ← asks Env.sequence
  failIf (sequence < message.finalityLedger) .messageNotFinal
  onlyIf (0 < message.rejections) do
    store (withStats fun stats =>
      { stats with rejectedMessages := U64.saturatingAdd stats.rejectedMessages 1 })
    fail .messageRejected
  let channel ← view fun s => loadChannelState s message.channelId
  failIf (channel.emergencyClosed = true) .channelClosed
  let bridge ← loadBridge message.bridgeId
  failIf (message.amount < bridge.minAmount) .amountBelowMinimum
  let totalWithdrawn ← okOr (I128.checkedAdd bridge.totalWithdrawn message.amount) .overflow
  store (saveBridge message.bridgeId { bridge with totalWithdrawn := totalWithdrawn })
  store (saveMessage { message with executed := true })
  store (withStats fun stats =>
    { stats with executedMessages := U64.saturatingAdd stats.executedMessages 1 })

/-! ## Slashing -/

def messagePayloadMatches (a b : CrossChainMessage) : Bool :=
  a.bridgeId = b.bridgeId ∧ a.channelId = b.channelId ∧ a.sourceChain = b.sourceChain ∧
    a.sourceTxId = b.sourceTxId ∧ a.sourceHeight = b.sourceHeight ∧ a.nonce = b.nonce ∧
    a.recipient = b.recipient ∧ a.amount = b.amount ∧ a.payloadVersion = b.payloadVersion

/-- Two messages that claim one event of the source. -/
def sameSource (a b : CrossChainMessage) : Bool :=
  a.channelId = b.channelId ∧ a.sourceChain = b.sourceChain ∧
    (a.nonce = b.nonce ∨ a.sourceTxId = b.sourceTxId)

/-- A stake is never too small to be slashed. -/
def slashAmount (stake : ℤ) (slashBps : ℕ) : ℤ :=
  let slash := (I128.saturatingMul stake slashBps).tdiv 10000
  if slash = 0 ∧ 0 < stake then 1 else slash

/-- The record after a slashing. -/
def ValidatorRecord.slashed (slashBps : ℕ) (record : ValidatorRecord) : ValidatorRecord :=
  let amount := slashAmount record.stake slashBps
  let stake := I128.saturatingSub record.stake amount
  { record with
    stake := stake
    slashedTotal := I128.saturatingAdd record.slashedTotal amount
    active := if stake ≤ 0 then false else record.active }

/-- The loop over the validators: whoever approved both messages is slashed. -/
def slashApprovers (firstMessageId secondMessageId slashBps : ℕ) :
    List Address → Invocation (List Address)
  | [] => pure []
  | validator :: validators => do
    let firstVote ← view fun s => s.messageAttestation firstMessageId validator
    let secondVote ← view fun s => s.messageAttestation secondMessageId validator
    if firstVote = some true ∧ secondVote = some true then do
      let record ← loadValidator validator
      store (saveValidator validator (record.slashed slashBps))
      store (withStats fun stats => { stats with slashes := U64.saturatingAdd stats.slashes 1 })
      let slashed ← slashApprovers firstMessageId secondMessageId slashBps validators
      pure (validator :: slashed)
    else slashApprovers firstMessageId secondMessageId slashBps validators

def slashConflictingMessages (caller : Address) (firstMessageId secondMessageId : ℕ) :
    Invocation (List Address) := do
  requireAuth caller
  let first ← loadMessage firstMessageId
  let second ← loadMessage secondMessageId
  failIf (sameSource first second = false ∨ messagePayloadMatches first second = true)
    .conflictingMessages
  let validators ← view validatorList
  let cfg ← view loadSecurityConfig
  let slashed ← slashApprovers firstMessageId secondMessageId cfg.slashBps validators
  failIf (slashed = []) .nothingToSlash
  store (saveMessage { first with invalidated := true })
  store (saveMessage { second with invalidated := true })
  store (recordChannelAnomaly first.channelId "conflicting_message_attestations")
  pure slashed

/-! ## Transactions -/

/-- A call of the contract. -/
inductive Op where
  | init (admin : Address)
  | registerBridge (caller : Address) (bridgeId : String) (feeBps : ℕ) (minAmount : ℤ)
  | setBridgeFee (caller : Address) (bridgeId : String) (feeBps : ℕ)
  | setBridgeActive (caller : Address) (bridgeId : String) (active : Bool)
  | bridgeDeposit (sender : Address) (bridgeId : String) (amount : ℤ)
  | bridgeWithdraw (caller : Address) (bridgeId : String) (recipient : Address) (amount : ℤ)
  | setBridgeAcceptancePaused (caller : Address) (paused : Bool)
  | setBridgeSecurityConfig (caller : Address) (cfg : SecurityConfig)
  | registerValidator (caller validator : Address) (stake : ℤ)
  | setValidatorActive (caller validator : Address) (active : Bool)
  | submitCrossChainMessage (caller : Address) (input : CrossChainMessageInput)
  | attestCrossChainMessage (validator : Address) (messageId : ℕ) (approve : Bool)
  | executeVerifiedWithdrawal (caller : Address) (messageId : ℕ)
  | slashConflictingMessages (caller : Address) (firstMessageId secondMessageId : ℕ)
  | closeChannelEmergency (caller : Address) (channelId reason : String)
  | reopenChannel (caller : Address) (channelId : String)
  | transferAdmin (caller newAdmin : Address)
  deriving DecidableEq

/-- A transaction: a call and what it finds around it. -/
structure Tx where
  env : Env
  op : Op

/-- The store after a transaction that succeeded. -/
def step (tx : Tx) (s : Storage) : Option Storage :=
  match tx.op with
  | .init admin => commit (Bridge.init admin) tx.env s
  | .registerBridge caller bridgeId feeBps minAmount =>
    commit (Bridge.registerBridge caller bridgeId feeBps minAmount) tx.env s
  | .setBridgeFee caller bridgeId feeBps =>
    commit (Bridge.setBridgeFee caller bridgeId feeBps) tx.env s
  | .setBridgeActive caller bridgeId active =>
    commit (Bridge.setBridgeActive caller bridgeId active) tx.env s
  | .bridgeDeposit sender bridgeId amount =>
    commit (Bridge.bridgeDeposit sender bridgeId amount) tx.env s
  | .bridgeWithdraw caller bridgeId recipient amount =>
    commit (Bridge.bridgeWithdraw caller bridgeId recipient amount) tx.env s
  | .setBridgeAcceptancePaused caller paused =>
    commit (Bridge.setBridgeAcceptancePaused caller paused) tx.env s
  | .setBridgeSecurityConfig caller cfg =>
    commit (Bridge.setBridgeSecurityConfig caller cfg) tx.env s
  | .registerValidator caller validator stake =>
    commit (Bridge.registerValidator caller validator stake) tx.env s
  | .setValidatorActive caller validator active =>
    commit (Bridge.setValidatorActive caller validator active) tx.env s
  | .submitCrossChainMessage caller input =>
    commit (Bridge.submitCrossChainMessage caller input) tx.env s
  | .attestCrossChainMessage validator messageId approve =>
    commit (Bridge.attestCrossChainMessage validator messageId approve) tx.env s
  | .executeVerifiedWithdrawal caller messageId =>
    commit (Bridge.executeVerifiedWithdrawal caller messageId) tx.env s
  | .slashConflictingMessages caller first second =>
    commit (Bridge.slashConflictingMessages caller first second) tx.env s
  | .closeChannelEmergency caller channelId reason =>
    commit (Bridge.closeChannelEmergency caller channelId reason) tx.env s
  | .reopenChannel caller channelId => commit (Bridge.reopenChannel caller channelId) tx.env s
  | .transferAdmin caller newAdmin => commit (Bridge.transferAdmin caller newAdmin) tx.env s

/-- **The state of the contract after a sequence of transactions on a fresh deployment.** -/
def ledger (txs : List Tx) : Storage := run step Storage.empty txs

theorem ledger_snoc (txs : List Tx) (tx : Tx) :
    ledger (txs ++ [tx]) = exec step (ledger txs) tx := run_snoc ..

end StellarLend.Bridge
