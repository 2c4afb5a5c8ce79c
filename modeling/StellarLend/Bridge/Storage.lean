import StellarLend.Lending.Storage

/-!
# Bridge/Storage — what the bridge stores

A bridge counts what is deposited and withdrawn under its name.  Messages of other chains are
numbered as they arrive; validators attest them one by one, and an attestation is a record of its
own beside the two counters on the message.
-/

namespace StellarLend.Bridge

open Foundations Call
open Lending (Address)

/-! ## Data -/

/-- The errors of the contract. -/
inductive ContractError where
  | alreadyInitialised
  | notInitialised
  | unauthorised
  | bridgeAlreadyExists
  | bridgeNotFound
  | bridgeInactive
  | feeTooHigh
  | invalidBridgeIdLen
  | invalidBridgeIdChar
  | negativeMinAmount
  | amountNotPositive
  | amountBelowMinimum
  | overflow
  | bridgeAcceptancePaused
  | validatorAlreadyExists
  | validatorNotFound
  | validatorInactive
  | invalidValidatorStake
  | messageAlreadyExists
  | messageNotFound
  | duplicateAttestation
  | quorumNotReached
  | messageNotFinal
  | messageAlreadyExecuted
  | messageInvalidated
  | replayDetected
  | channelClosed
  | invalidMessageVersion
  | invalidSecurityConfig
  | conflictingMessages
  | nothingToSlash
  | messageRejected
  | invalidMessageOrdering
  deriving DecidableEq, Repr

def MAX_FEE_BPS : ℕ := 1000
def MAX_ID_LEN : ℕ := 64
def DEFAULT_MIN_VALIDATOR_SIGNATURES : ℕ := 2
def DEFAULT_MIN_FINALITY_LEDGERS : ℕ := 3
def DEFAULT_OPTIMISTIC_DELAY_LEDGERS : ℕ := 2
def DEFAULT_SLASH_BPS : ℕ := 2500
def DEFAULT_SUPPORTED_MESSAGE_VERSION : ℕ := 1
def DEFAULT_ANOMALY_CLOSE_THRESHOLD : ℕ := 3

/-- A bridge, and what went through it. -/
structure BridgeConfig where
  bridgeId : String
  feeBps : ℕ
  minAmount : ℤ
  active : Bool
  totalDeposited : ℤ
  totalWithdrawn : ℤ
  deriving DecidableEq, Repr

/-- The rules of the messages. -/
structure SecurityConfig where
  minValidatorSignatures : ℕ
  minFinalityLedgers : ℕ
  optimisticDelayLedgers : ℕ
  slashBps : ℕ
  supportedMessageVersion : ℕ
  anomalyCloseThreshold : ℕ
  deriving DecidableEq, Repr

/-- A validator's stake and record. -/
structure ValidatorRecord where
  stake : ℤ
  active : Bool
  slashedTotal : ℤ
  /-- How many messages the validator approved. -/
  approvals : ℕ
  deriving DecidableEq, Repr

/-- Whether a channel is open, and what went wrong in it. -/
structure ChannelState where
  emergencyClosed : Bool
  anomalyCount : ℕ
  lastObservedNonce : ℕ
  lastObservedHeight : ℕ
  reason : String
  deriving DecidableEq, Repr

/-- What happened to the messages. -/
structure BridgeSecurityStats where
  totalMessages : ℕ
  executedMessages : ℕ
  rejectedMessages : ℕ
  replayRejections : ℕ
  anomalyEvents : ℕ
  slashes : ℕ
  emergencyClosures : ℕ
  deriving DecidableEq, Repr

/-- What a message is known by at its source. -/
structure SourceMessageKey where
  channelId : String
  sourceChain : String
  sourceTxId : String
  nonce : ℕ
  deriving DecidableEq, Repr

/-- A message, as the bridge stores it. -/
structure CrossChainMessage where
  messageId : ℕ
  bridgeId : String
  channelId : String
  sourceChain : String
  sourceTxId : String
  sourceHeight : ℕ
  nonce : ℕ
  recipient : Address
  amount : ℤ
  payloadVersion : ℕ
  submittedAtLedger : ℕ
  finalityLedger : ℕ
  approvals : ℕ
  rejections : ℕ
  executed : Bool
  invalidated : Bool
  deriving DecidableEq, Repr

/-- What a message is submitted with. -/
structure CrossChainMessageInput where
  bridgeId : String
  channelId : String
  sourceChain : String
  sourceTxId : String
  sourceHeight : ℕ
  nonce : ℕ
  recipient : Address
  amount : ℤ
  payloadVersion : ℕ
  deriving DecidableEq, Repr

/-! ## The store -/

/-- The keys of the contract. -/
structure Storage where
  admin : Option Address
  bridge : String → Option BridgeConfig
  bridgeList : Option (List String)
  bridgeAcceptancePaused : Option Bool
  securityConfig : Option SecurityConfig
  validator : Address → Option ValidatorRecord
  validatorList : Option (List Address)
  channel : String → Option ChannelState
  message : ℕ → Option CrossChainMessage
  messageSource : SourceMessageKey → Option ℕ
  messageAttestation : ℕ → Address → Option Bool
  nextMessageId : Option ℕ
  stats : Option BridgeSecurityStats

/-- A freshly deployed contract. -/
def Storage.empty : Storage where
  admin := none
  bridge := fun _ => none
  bridgeList := none
  bridgeAcceptancePaused := none
  securityConfig := none
  validator := fun _ => none
  validatorList := none
  channel := fun _ => none
  message := fun _ => none
  messageSource := fun _ => none
  messageAttestation := fun _ _ => none
  nextMessageId := none
  stats := none

/-- What an invocation finds around it. -/
structure Env where
  /-- The ledger sequence number. -/
  sequence : ℕ
  /-- The authorisations the host accepts for this invocation, by address. -/
  auths : List Address

/-- An invocation of the contract, or a part of one. -/
abbrev Invocation (α : Type) : Type := Call Env Storage ContractError α

/-- `address.require_auth()`. -/
abbrev requireAuth (a : Address) : Invocation Unit := Call.requireAuth Env.auths a

/-! ## Reading and writing -/

def defaultSecurityConfig : SecurityConfig where
  minValidatorSignatures := DEFAULT_MIN_VALIDATOR_SIGNATURES
  minFinalityLedgers := DEFAULT_MIN_FINALITY_LEDGERS
  optimisticDelayLedgers := DEFAULT_OPTIMISTIC_DELAY_LEDGERS
  slashBps := DEFAULT_SLASH_BPS
  supportedMessageVersion := DEFAULT_SUPPORTED_MESSAGE_VERSION
  anomalyCloseThreshold := DEFAULT_ANOMALY_CLOSE_THRESHOLD

def defaultStats : BridgeSecurityStats := ⟨0, 0, 0, 0, 0, 0, 0⟩

def defaultChannelState : ChannelState := ⟨false, 0, 0, 0, ""⟩

def loadAdmin : Invocation Address := do
  let admin ← view Storage.admin
  okOr admin .notInitialised

/-- The caller signed, and is the stored admin. -/
def requireAdmin (caller : Address) : Invocation Unit := do
  requireAuth caller
  let admin ← loadAdmin
  failIf (caller ≠ admin) .unauthorised

def loadSecurityConfig (s : Storage) : SecurityConfig :=
  s.securityConfig.getD defaultSecurityConfig

def loadStats (s : Storage) : BridgeSecurityStats := s.stats.getD defaultStats

/-- The statistics, changed. -/
def withStats (mutate : BridgeSecurityStats → BridgeSecurityStats) (s : Storage) : Storage :=
  { s with stats := some (mutate (loadStats s)) }

/-- No setting is zero, and the slashed share is a rate. -/
def validateSecurityConfig (cfg : SecurityConfig) : Invocation Unit :=
  failIf (cfg.minValidatorSignatures = 0 ∨ cfg.minFinalityLedgers = 0 ∨
    cfg.optimisticDelayLedgers = 0 ∨ cfg.slashBps = 0 ∨ 10000 < cfg.slashBps ∨
    cfg.supportedMessageVersion = 0 ∨ cfg.anomalyCloseThreshold = 0) .invalidSecurityConfig

/-- The length of an identifier is its length in bytes. -/
def validateId (id : String) : Invocation Unit :=
  failIf (id.utf8ByteSize = 0 ∨ MAX_ID_LEN < id.utf8ByteSize) .invalidBridgeIdLen

def loadBridge (bridgeId : String) : Invocation BridgeConfig := do
  let cfg ← view fun s => s.bridge bridgeId
  okOr cfg .bridgeNotFound

def saveBridge (bridgeId : String) (cfg : BridgeConfig) (s : Storage) : Storage :=
  { s with bridge := Function.update s.bridge bridgeId (some cfg) }

def bridgeList (s : Storage) : List String := s.bridgeList.getD []

def validatorList (s : Storage) : List Address := s.validatorList.getD []

def loadValidator (validator : Address) : Invocation ValidatorRecord := do
  let record ← view fun s => s.validator validator
  okOr record .validatorNotFound

def saveValidator (validator : Address) (record : ValidatorRecord) (s : Storage) : Storage :=
  { s with validator := Function.update s.validator validator (some record) }

def loadChannelState (s : Storage) (channelId : String) : ChannelState :=
  (s.channel channelId).getD defaultChannelState

def saveChannelState (channelId : String) (state : ChannelState) (s : Storage) : Storage :=
  { s with channel := Function.update s.channel channelId (some state) }

/-- The channel is closed once the anomalies reach the threshold. -/
def recordChannelAnomaly (channelId reason : String) (s : Storage) : Storage :=
  let channel := loadChannelState s channelId
  let count := U32.saturatingAdd channel.anomalyCount 1
  let channel := { channel with anomalyCount := count, reason := reason }
  let closes := (loadSecurityConfig s).anomalyCloseThreshold ≤ count
  let s := if closes then withStats (fun stats =>
    { stats with emergencyClosures := U64.saturatingAdd stats.emergencyClosures 1 }) s else s
  let channel := if closes then { channel with emergencyClosed := true } else channel
  withStats (fun stats => { stats with anomalyEvents := U64.saturatingAdd stats.anomalyEvents 1 })
    (saveChannelState channelId channel s)

/-- The number the next message gets.  It saturates. -/
def nextMessageId : Invocation ℕ := do
  let current ← view fun s => s.nextMessageId.getD 0
  let next := U64.saturatingAdd current 1
  store fun s => { s with nextMessageId := some next }
  pure next

/-- A message by its number. -/
def loadMessage (messageId : ℕ) : Invocation CrossChainMessage := do
  let message ← view fun s => s.message messageId
  okOr message .messageNotFound

def saveMessage (message : CrossChainMessage) (s : Storage) : Storage :=
  { s with message := Function.update s.message message.messageId (some message) }

/-- `persistent().set(MessageAttestation((message_id, validator)), approve)`. -/
def saveAttestation (messageId : ℕ) (validator : Address) (approve : Bool) (s : Storage) :
    Storage :=
  { s with
    messageAttestation := Function.update s.messageAttestation messageId
      (Function.update (s.messageAttestation messageId) validator (some approve)) }

/-- `persistent().set(MessageSource(source_key), message_id)`. -/
def saveSource (key : SourceMessageKey) (messageId : ℕ) (s : Storage) : Storage :=
  { s with messageSource := Function.update s.messageSource key (some messageId) }

end StellarLend.Bridge
