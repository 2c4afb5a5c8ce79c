import StellarLend.HelloWorld.Oracle

/-!
# HelloWorld/Storage — what the core contract stores, and what it is called with

The keys of the contract, one field each and grouped by the module that owns them; a key that takes
an argument is a partial function of it, and `none` is an absent entry.  Symbols are strings.

`transfers` is no key: it is the token movements the contract has asked for, in order.  The answers
of the token contracts may depend on them.
-/

namespace StellarLend.HelloWorld

open Foundations Call
open Lending (Address)

/-! ## Errors -/

/-- The codebook every entry point answers from. -/
inductive LendingError where
  | unauthorized
  | invalidAmount
  | invalidAsset
  | invalidParameter
  | insufficientBalance
  | insufficientCollateral
  | insufficientCollateralRatio
  | overflow
  | protocolPaused
  | reentrancy
  | notInitialized
  | alreadyInitialized
  | dataNotFound
  | divisionByZero
  | noDebt
  | assetNotEnabled
  | limitExceeded
  | invalidState
  | priceUnavailable
  | insufficientLiquidity
  | invalidCallback
  | callbackFailed
  | notRepaid
  | treasuryNotSet
  | insufficientReserve
  | invalidFee
  | governanceRequired
  | governanceError
  | commitRequired
  | commitNotFound
  | commitNotReady
  | commitExpired
  | feeCapExceeded
  | notFound
  | alreadyExists
  deriving DecidableEq, Repr

/-! ## Deposit module: positions, analytics, reserves -/

structure AssetParams where
  depositEnabled : Bool
  collateralFactor : ℤ
  maxDeposit : ℤ
  borrowFeeBps : ℤ
  deriving DecidableEq, Repr

/-- A user's position. -/
structure Position where
  collateral : ℤ
  debt : ℤ
  borrowInterest : ℤ
  lastAccrualTime : ℕ
  deriving DecidableEq, Repr

/-- An entry of the activity log.  Its metadata map is always empty. -/
structure Activity where
  user : Address
  activityType : String
  amount : ℤ
  asset : Option Address
  timestamp : ℕ
  deriving DecidableEq, Repr

structure UserAnalytics where
  totalDeposits : ℤ
  totalBorrows : ℤ
  totalWithdrawals : ℤ
  totalRepayments : ℤ
  collateralValue : ℤ
  debtValue : ℤ
  collateralizationRatio : ℤ
  activityScore : ℤ
  transactionCount : ℕ
  firstInteraction : ℕ
  lastActivity : ℕ
  riskLevel : ℤ
  loyaltyTier : ℕ
  deriving DecidableEq, Repr

structure ProtocolAnalytics where
  totalDeposits : ℤ
  totalBorrows : ℤ
  totalValueLocked : ℤ
  deriving DecidableEq, Repr

/-- The per-user records: collateral in aggregate and by asset, position, borrow index. -/
structure Books where
  collateralBalance : Address → Option ℤ
  position : Address → Option Position
  userAssetCollateral : Address → Address → Option ℤ
  userAssetList : Address → Option (List Address)
  userBorrowIndex : Address → Option ℤ

inductive CreditScoreChangeReason where
  | onTimeRepayment
  | lateRepayment
  | liquidation
  | healthyPosition
  | newUser
  deriving DecidableEq, Repr

structure CreditScoreSnapshot where
  score : ℤ
  timestamp : ℕ
  reason : CreditScoreChangeReason
  deriving DecidableEq, Repr

structure CreditScore where
  user : Address
  score : ℤ
  onTimeRepayments : ℕ
  lateRepayments : ℕ
  liquidations : ℕ
  totalBorrowed : ℤ
  totalRepaid : ℤ
  lastUpdated : ℕ
  history : List CreditScoreSnapshot
  deriving DecidableEq, Repr

/-- What is recorded about activity. -/
structure Stats where
  protocolAnalytics : Option ProtocolAnalytics
  userAnalytics : Address → Option UserAnalytics
  activityLog : Option (List Activity)
  creditScore : Address → Option CreditScore

/-! ## Risk, interest, treasury -/

structure RiskParams where
  minCollateralRatio : ℤ
  liquidationThreshold : ℤ
  closeFactor : ℤ
  liquidationIncentive : ℤ
  lastUpdate : ℕ
  deriving DecidableEq, Repr

structure RiskConfig where
  pauseSwitches : String → Option Bool
  minCollateralRatio : ℤ
  liquidationThreshold : ℤ
  closeFactor : ℤ
  liquidationIncentive : ℤ
  lastUpdate : ℕ

structure Risk where
  riskParamsConfig : Option RiskParams
  riskConfig : Option RiskConfig
  emergencyPause : Option Bool

/-- The global index, scaled by `INDEX_SCALE`. -/
structure LendingIndex where
  borrowIndex : ℤ
  supplyIndex : ℤ
  lastUpdate : ℕ
  deriving DecidableEq, Repr

structure InterestRateConfig where
  baseRateBps : ℤ
  kinkUtilizationBps : ℤ
  multiplierBps : ℤ
  jumpMultiplierBps : ℤ
  rateFloorBps : ℤ
  rateCeilingBps : ℤ
  spreadBps : ℤ
  emergencyAdjustmentBps : ℤ
  lastUpdate : ℕ
  deriving DecidableEq, Repr

structure Interest where
  interestRateConfig : Option InterestRateConfig
  lendingIndex : Option LendingIndex

structure TreasuryFeeConfig where
  interestFeeBps : ℤ
  liquidationFeeBps : ℤ
  deriving DecidableEq, Repr

structure FlashLoanConfig where
  feeBps : ℤ
  maxAmount : ℤ
  minAmount : ℤ
  deriving DecidableEq, Repr

/-- Reserves and what feeds them. -/
structure Treasury where
  treasuryAddress : Option Address
  feeConfig : Option TreasuryFeeConfig
  protocolReserve : Option Address → Option ℤ
  flashLoanConfig : Option FlashLoanConfig
  flashLoanPauseSwitches : Option (String → Option Bool)

/-! ## Circuit breaker of the liquidations -/

inductive CircuitBreakerStatus where
  | active
  | paused
  | emergency
  deriving DecidableEq, Repr

inductive CircuitBreakerReason where
  | oracleFailure
  | flashCrash
  | excessiveLiquidations
  | manualActivation
  | systemMaintenance
  deriving DecidableEq, Repr

structure CircuitBreakerState where
  status : CircuitBreakerStatus
  activatedAt : ℕ
  activatedBy : Address
  cooldownPeriod : ℕ
  autoDeactivateAt : Option ℕ
  reason : CircuitBreakerReason
  deriving DecidableEq, Repr

structure CircuitBreakerConfig where
  cooldownPeriod : ℕ
  autoDeactivateEnabled : Bool
  whitelistEnabled : Bool
  deriving DecidableEq, Repr

structure Breaker where
  config : Option CircuitBreakerConfig
  state : Option CircuitBreakerState
  whitelist : Option (List Address)

/-! ## Gateways: rate limits, intents, commit and reveal -/

structure RateLimitConfig where
  windowSeconds : ℕ
  maxCallsPerWindow : ℕ
  burstCalls : ℕ
  graceBurstCalls : ℕ
  deriving DecidableEq, Repr

/-- Tokens are scaled by `TOKEN_SCALE`. -/
structure BucketState where
  tokens : ℤ
  lastRefill : ℕ
  deriving DecidableEq, Repr

structure RateLimits where
  opConfig : String → Option RateLimitConfig
  opPoolConfig : String → Address → Option RateLimitConfig
  userBucket : Address → String → Address → Option BucketState
  globalBucket : String → Address → Option BucketState
  userGrace : Address → String → Option Bool

inductive SensitiveOperation where
  | borrow
  | withdraw
  | liquidate
  deriving DecidableEq, Repr

inductive TxOrderingHint where
  | default
  | privateMempool
  | batchAuction
  | delayedReveal
  deriving DecidableEq, Repr

structure MevProtectionConfig where
  commitDelaySecs : ℕ
  commitExpirySecs : ℕ
  suspiciousWindowSecs : ℕ
  feeSmoothingBps : ℤ
  baseProtectionFeeBps : ℤ
  surgeProtectionFeeBps : ℤ
  sandwichThresholdBps : ℤ
  privateMempoolEnabled : Bool
  batchingEnabled : Bool
  deriving DecidableEq, Repr

structure PendingCommit where
  id : ℕ
  owner : Address
  operation : SensitiveOperation
  asset : Option Address
  secondaryAsset : Option Address
  borrower : Option Address
  amount : ℤ
  maxFeeBps : ℤ
  hint : TxOrderingHint
  committedAt : ℕ
  revealAfter : ℕ
  expiresAt : ℕ
  commitLedger : ℕ
  deriving DecidableEq, Repr

structure OrderingObservation where
  actor : Address
  amount : ℤ
  timestamp : ℕ
  deriving DecidableEq, Repr

structure OrderingStats where
  suspiciousSequences : ℕ
  sandwichAlerts : ℕ
  lastAlertTimestamp : ℕ
  lastEffectiveFeeBps : ℤ
  deriving DecidableEq, Repr

structure Mev where
  config : Option MevProtectionConfig
  nextCommitId : Option ℕ
  commit : ℕ → Option PendingCommit
  orderingStats : Option OrderingStats
  latestObservation : String → Option Address → Option OrderingObservation
  previousObservation : String → Option Address → Option OrderingObservation
  smoothedFee : String → Option Address → Option ℤ

/-! ## The store -/

/-- A token movement the contract asks a token contract for.  With a spender it is a
`transfer_from`, without one a `transfer`. -/
structure Transfer where
  token : Address
  spender : Option Address
  sender : Address
  recipient : Address
  amount : ℤ
  deriving DecidableEq, Repr

structure Storage where
  admin : Option Address
  role : String → Address → Option Bool
  assetParams : Address → Option AssetParams
  /-- The deposit module's own switches, read by four operations and written by none. -/
  pauseSwitches : Option (String → Option Bool)
  nativeAssetAddress : Option Address
  books : Books
  stats : Stats
  risk : Risk
  interest : Interest
  treasury : Treasury
  breaker : Breaker
  oracle : OracleStore
  rateLimits : RateLimits
  nextNonce : Address → String → Option ℕ
  mev : Mev
  transfers : List Transfer

/-- A freshly deployed contract. -/
def Storage.empty : Storage where
  admin := none
  role := fun _ _ => none
  assetParams := fun _ => none
  pauseSwitches := none
  nativeAssetAddress := none
  books := ⟨fun _ => none, fun _ => none, fun _ _ => none, fun _ => none, fun _ => none⟩
  stats := ⟨none, fun _ => none, none, fun _ => none⟩
  risk := ⟨none, none, none⟩
  interest := ⟨none, none⟩
  treasury := ⟨none, none, fun _ => none, none, none⟩
  breaker := ⟨none, none, none⟩
  oracle := .empty
  rateLimits := ⟨fun _ => none, fun _ _ => none, fun _ _ _ => none, fun _ _ => none,
    fun _ _ => none⟩
  nextNonce := fun _ _ => none
  mev := ⟨none, none, fun _ => none, none, fun _ _ => none, fun _ _ => none, fun _ _ => none⟩
  transfers := []

/-! ## The surroundings of a call -/

/-- The typed payload an intent is authorised for. -/
inductive IntentArgs where
  | borrow (user : Address) (asset : Option Address) (amount : ℤ)
  | liquidate (liquidator borrower : Address) (debtAsset collateralAsset : Option Address)
      (debtAmount : ℤ)
  deriving DecidableEq, Repr

structure IntentPayload where
  contract : Address
  operation : String
  nonce : ℕ
  expiresAt : ℕ
  args : IntentArgs
  deriving DecidableEq, Repr

/-- What an invocation finds around it.  `none` is an external call that traps. -/
structure Env where
  timestamp : ℕ
  /-- The ledger sequence number. -/
  sequence : ℕ
  currentContractAddress : Address
  /-- The authorisations the host accepts for this invocation, by address. -/
  auths : List Address
  /-- The payloads for which the host accepts an address's authorisation. -/
  intentAuths : List (Address × IntentPayload)
  /-- `balance(holder)` of a token, after the movements asked for so far. -/
  balance : List Transfer → Address → Address → Option ℤ
  /-- Whether a token accepts a movement, after those asked for so far. -/
  accepts : List Transfer → Transfer → Bool
  /-- Whether the callback of a flash loan returns. -/
  onFlashLoan : List Transfer → Address → Address → Address → ℤ → ℤ → Bool

/-- An invocation of the core contract, or a part of one. -/
abbrev Invocation (ε α : Type) : Type := Call Env Storage ε α

/-- `address.require_auth()`. -/
abbrev requireAuth {ε : Type} (a : Address) : Invocation ε Unit := Call.requireAuth Env.auths a

/-- `token.balance(holder)`. -/
def tokenBalance {ε : Type} (token holder : Address) : Invocation ε ℤ := do
  let answer ← look fun e s => e.balance s.transfers token holder
  orTrap answer

/-- Ask a token contract for a movement; a refusal traps. -/
def moveTokens {ε : Type} (t : Transfer) : Invocation ε Unit := do
  let accepted ← look fun e s => e.accepts s.transfers t
  require fun _ => accepted
  store fun s => { s with transfers := s.transfers ++ [t] }

/-- `token.transfer(contract, recipient, amount)`. -/
def transferOut {ε : Type} (token recipient : Address) (amount : ℤ) : Invocation ε Unit := do
  let self ← asks Env.currentContractAddress
  moveTokens ⟨token, none, self, recipient, amount⟩

/-- `token.transfer_from(contract, sender, contract, amount)`. -/
def transferIn {ε : Type} (token sender : Address) (amount : ℤ) : Invocation ε Unit := do
  let self ← asks Env.currentContractAddress
  moveTokens ⟨token, some self, sender, self, amount⟩

/-- A computation of the oracle within an invocation. -/
def ofOracle {ε α : Type} (x : Call ℕ OracleStore ε α) : Invocation ε α :=
  zoom Env.timestamp Storage.oracle (fun o s => { s with oracle := o }) x

end StellarLend.HelloWorld
