import Mathlib.Algebra.Order.Floor.Ring
import Mathlib.Data.Rat.Floor

/-!
# Insurance/Types — claims, and what is recorded about them

`oracle/src/claims/types.ts`.  A claim's identifier, a random one in the source, is its number in
the order of submission.  Amounts are in the smallest unit of the asset, instants are seconds, and
percentages are exact.  The actor of an audit entry is text in the source: the service, which calls
itself `system`, is told apart here from an address.
-/

namespace StellarLend.Insurance

/-! ## Enumerations -/

/-- Where a claim stands. -/
inductive ClaimStatus where
  | pending
  | verifying
  | approved
  | rejected
  | paidOut
  | disputed
  | pendingManual
  | cancelled
  deriving DecidableEq, Repr

/-- The status as the source spells it. -/
def ClaimStatus.text : ClaimStatus → String
  | .pending => "PENDING"
  | .verifying => "VERIFYING"
  | .approved => "APPROVED"
  | .rejected => "REJECTED"
  | .paidOut => "PAID_OUT"
  | .disputed => "DISPUTED"
  | .pendingManual => "PENDING_MANUAL"
  | .cancelled => "CANCELLED"

/-- Why a claim is turned down. -/
inductive RejectionReason where
  | fraudDetected
  | oraclePriceUnavailable
  | insufficientCoverage
  | invalidAmount
  | unsupportedAsset
  | staleOraclePrice
  | claimExpired
  | duplicateClaim
  | policyNotActive
  deriving DecidableEq, Repr

/-- How much a signal weighs. -/
inductive FraudSeverity where
  | low
  | medium
  | high
  | critical
  deriving DecidableEq, Repr

/-- What a signal is about. -/
inductive FraudSignalType where
  | velocity
  | amountAnomaly
  | suspiciousTiming
  | duplicateClaim
  | blacklistedAddress
  deriving DecidableEq, Repr

/-- The type as the source spells it. -/
def FraudSignalType.text : FraudSignalType → String
  | .velocity => "VELOCITY"
  | .amountAnomaly => "AMOUNT_ANOMALY"
  | .suspiciousTiming => "SUSPICIOUS_TIMING"
  | .duplicateClaim => "DUPLICATE_CLAIM"
  | .blacklistedAddress => "BLACKLISTED_ADDRESS"

/-- How a dispute ends. -/
inductive DisputeResolution where
  | approved
  | rejected
  | escalated
  deriving DecidableEq, Repr

/-- The resolution as the source spells it. -/
def DisputeResolution.text : DisputeResolution → String
  | .approved => "APPROVED"
  | .rejected => "REJECTED"
  | .escalated => "ESCALATED"

/-- What was wrong with a verification. -/
inductive VerificationErrorCode where
  | oracleUnavailable
  | priceStale
  | amountExceedsCoverage
  | invalidAmount
  | unsupportedAsset
  | lossTimestampInFuture
  | lossBeforeCoverage
  | lowOracleConfidence
  deriving DecidableEq, Repr

/-! ## Verification and payout -/

/-- What the oracle answers. -/
structure OracleVerificationData where
  priceAtVerification : ℤ
  priceTimestamp : ℤ
  confidence : ℚ
  sources : List String
  verifiedAt : ℤ
  deriving DecidableEq

/-- One thing that was wrong. -/
structure ClaimVerificationError where
  code : VerificationErrorCode
  message : String
  deriving DecidableEq

/-- The outcome of a verification. -/
structure ClaimVerificationResult where
  isValid : Bool
  oracleData : Option OracleVerificationData
  errors : List ClaimVerificationError
  deriving DecidableEq

/-- A payout, and how it came about. -/
structure PayoutResult where
  grossAmount : ℤ
  cappedAmount : ℤ
  deductibleAmount : ℤ
  netPayoutAmount : ℤ
  oraclePriceUsed : ℤ
  usdValue : ℤ
  confidenceDiscount : ℚ
  calculatedAt : ℤ
  deriving DecidableEq

/-! ## Fraud detection -/

/-- One signal. -/
structure FraudSignal where
  type : FraudSignalType
  severity : FraudSeverity
  message : String
  detectedAt : ℤ
  deriving DecidableEq

/-- The signals, and their score. -/
structure FraudDetectionResult where
  isFraudulent : Bool
  signals : List FraudSignal
  maxSeverity : Option FraudSeverity
  riskScore : ℕ
  deriving DecidableEq

/-! ## Claims -/

/-- Who changed a claim. -/
inductive Actor where
  | system
  | address (a : String)
  deriving DecidableEq

/-- One change of a claim's status. -/
structure ClaimHistoryEntry where
  fromStatus : Option ClaimStatus
  toStatus : ClaimStatus
  actor : Actor
  description : String
  timestamp : ℤ
  deriving DecidableEq

/-- A claim, as the service stores it. -/
structure InsuranceClaim where
  id : ℕ
  claimantAddress : String
  asset : String
  claimedAmount : ℤ
  coverageLimit : ℤ
  lossDescription : String
  lossTimestamp : ℤ
  submittedAt : ℤ
  coveragePurchasedAt : ℤ
  status : ClaimStatus
  verificationResult : Option ClaimVerificationResult
  payoutResult : Option PayoutResult
  rejectionReason : Option RejectionReason
  rejectionDetails : Option String
  fraudSignals : List FraudSignal
  history : List ClaimHistoryEntry
  payoutTransactionHash : Option String
  deriving DecidableEq

/-- What a claim is submitted with. -/
structure ClaimSubmissionRequest where
  claimantAddress : String
  asset : String
  claimedAmount : ℤ
  coverageLimit : ℤ
  lossDescription : String
  lossTimestamp : ℤ
  coveragePurchasedAt : ℤ
  deriving DecidableEq

/-- A dispute, as the service stores it. -/
structure DisputeRecord where
  claimId : ℕ
  disputantAddress : String
  reason : String
  evidence : List String
  openedAt : ℤ
  resolution : Option DisputeResolution
  resolvedBy : Option String
  resolutionNotes : Option String
  resolvedAt : Option ℤ
  deriving DecidableEq

/-- What the price aggregator answers with. -/
structure AggregatedPrice where
  price : ℤ
  timestamp : ℤ
  confidence : ℚ
  sources : List String
  deriving DecidableEq

/-- The settings of the service. -/
structure ClaimsServiceConfig where
  maxClaimsInMemory : ℕ
  minOracleConfidence : ℚ
  maxPriceAgeSeconds : ℤ
  deductiblePercent : ℚ
  velocityThreshold : ℤ
  velocityWindowSeconds : ℤ
  minCoverageAgeSeconds : ℤ
  amountAnomalyMultiplier : ℤ
  fallbackToPendingManual : Bool
  deriving DecidableEq

/-- The source's defaults. -/
def DEFAULT_CONFIG : ClaimsServiceConfig where
  maxClaimsInMemory := 10000
  minOracleConfidence := 80
  maxPriceAgeSeconds := 300
  deductiblePercent := 5
  velocityThreshold := 3
  velocityWindowSeconds := 3600
  minCoverageAgeSeconds := 300
  amountAnomalyMultiplier := 5
  fallbackToPendingManual := true

end StellarLend.Insurance
