import StellarLend.Insurance.Types

/-!
# Insurance/Checks — fraud detection, oracle verification and payout calculation

`fraud-detector.ts`, `claim-verifier.ts` and `payout-calculator.ts`, in the configuration that the
claims service makes them with.  None keeps state: each is a function of the claim, of what it is
compared with and of the instant.  A verification has two halves, before and after the price is
awaited; the instant is read in the first.
-/

namespace StellarLend.Insurance

variable (cfg : ClaimsServiceConfig) (now : ℤ) (claim : InsuranceClaim)

/-! ## Fraud detection -/

def anomalyMinDataPoints : ℕ := 3
def fraudRiskThreshold : ℕ := 60

def SEVERITY_SCORE : FraudSeverity → ℕ
  | .low => 10
  | .medium => 25
  | .high => 50
  | .critical => 100

section FraudDetector

variable (allClaims : List InsuranceClaim)

def checkVelocity : Option FraudSignal :=
  let windowStart := now - cfg.velocityWindowSeconds
  let recentClaims := allClaims.filter fun c =>
    c.claimantAddress = claim.claimantAddress ∧ windowStart ≤ c.submittedAt ∧ c.id ≠ claim.id
  let count := recentClaims.length + 1
  let window := cfg.velocityWindowSeconds
  if cfg.velocityThreshold ≤ recentClaims.length then
    some ⟨.velocity, .high, s!"Address submitted {count} claims within {window}s", now⟩
  else none

def checkAmountAnomaly : Option FraudSignal :=
  let assetClaims := allClaims.filter fun c => c.asset = claim.asset ∧ c.id ≠ claim.id
  if assetClaims.length < anomalyMinDataPoints then none
  else
    let total := (assetClaims.map InsuranceClaim.claimedAmount).sum
    let avg := total.tdiv assetClaims.length
    let multiplier := cfg.amountAnomalyMultiplier
    let amount := claim.claimedAmount
    if avg * multiplier < amount then
      some ⟨.amountAnomaly, .medium,
        s!"Claim amount ({amount}) is {multiplier}× above asset average ({avg})", now⟩
    else none

def checkSuspiciousTiming : Option FraudSignal :=
  let coverageAge := claim.submittedAt - claim.coveragePurchasedAt
  let minAge := cfg.minCoverageAgeSeconds
  if coverageAge < minAge then
    some ⟨.suspiciousTiming, .medium,
      s!"Claim submitted only {coverageAge}s after coverage was purchased (min: {minAge}s)", now⟩
  else none

/-- The claims are of one loss: the same claimant, asset and loss timestamp. -/
def InsuranceClaim.SameLoss (c claim : InsuranceClaim) : Prop :=
  c.claimantAddress = claim.claimantAddress ∧ c.asset = claim.asset ∧
    c.lossTimestamp = claim.lossTimestamp

instance (c claim : InsuranceClaim) : Decidable (c.SameLoss claim) :=
  inferInstanceAs (Decidable (_ ∧ _))

def checkDuplicate : Option FraudSignal :=
  (allClaims.find? fun c => c.id ≠ claim.id ∧ c.SameLoss claim).map fun duplicate =>
    let id := duplicate.id
    ⟨.duplicateClaim, .critical, "Duplicate claim detected — same claimant, asset, and loss " ++
      s!"timestamp as claim {id}", now⟩

/-- The first of the signals' severities that scores highest. -/
def highestSeverity (signals : List FraudSignal) : Option FraudSeverity :=
  match signals with
  | [] => none
  | first :: rest =>
    some (rest.foldl (fun max s =>
      if SEVERITY_SCORE max < SEVERITY_SCORE s.severity then s.severity else max) first.severity)

def detect : FraudDetectionResult :=
  let signals := (checkVelocity cfg now claim allClaims).toList ++
    (checkAmountAnomaly cfg now claim allClaims).toList ++
    (checkSuspiciousTiming cfg now claim).toList ++ (checkDuplicate now claim allClaims).toList
  let riskScore := min 100 (signals.map fun s => SEVERITY_SCORE s.severity).sum
  ⟨fraudRiskThreshold ≤ riskScore, signals, highestSeverity signals, riskScore⟩

end FraudDetector

/-! ## Oracle verification -/

/-- What the awaited price settles to. -/
inductive PriceAnswer where
  | threw
  | absent
  | price (p : AggregatedPrice)
  deriving DecidableEq

/-- The checks before the oracle is asked, which none of them needs. -/
def businessRuleErrors : List ClaimVerificationError :=
  (if claim.claimedAmount ≤ 0 then
    [⟨.invalidAmount, "Claimed amount must be greater than zero"⟩] else []) ++
  (if claim.coverageLimit < claim.claimedAmount then
    [⟨.amountExceedsCoverage, "Claimed amount exceeds coverage limit"⟩] else []) ++
  (if now < claim.lossTimestamp then
    [⟨.lossTimestampInFuture, "Loss timestamp cannot be in the future"⟩] else []) ++
  (if claim.lossTimestamp < claim.coveragePurchasedAt then
    [⟨.lossBeforeCoverage, "Loss occurred before coverage was purchased"⟩] else [])

/-- The verification, begun at an instant.  A low confidence is no error in this configuration. -/
def verify (answer : PriceAnswer) : ClaimVerificationResult :=
  let asset := claim.asset
  if businessRuleErrors now claim ≠ [] then ⟨false, none, businessRuleErrors now claim⟩
  else
    match answer with
    | .threw =>
      ⟨false, none, [⟨.oracleUnavailable, "Oracle threw an exception — cannot verify claim"⟩]⟩
    | .absent =>
      ⟨false, none,
        [⟨.oracleUnavailable, s!"Oracle could not provide a price for asset '{asset}'"⟩]⟩
    | .price p =>
      let age := now - p.timestamp
      let maxAge := cfg.maxPriceAgeSeconds
      if maxAge < age then
        ⟨false, none, [⟨.priceStale, s!"Oracle price is {age}s old — exceeds max {maxAge}s"⟩]⟩
      else ⟨true, some ⟨p.price, p.timestamp, p.confidence, p.sources, now⟩, []⟩

/-! ## Payout -/

def SCALE : ℤ := 10000000
def confidenceDiscountRate : ℚ := 1 / 2

/-- The source's `Math.round`: a half rounds up. -/
def round (x : ℚ) : ℤ := ⌊x + 1 / 2⌋

def computeDeductible (cappedAmount : ℤ) : ℤ :=
  if cfg.deductiblePercent ≤ 0 then 0
  else (cappedAmount * round (cfg.deductiblePercent * 1000)).tdiv 100000

/-- The discount for a confidence below the threshold, at most one half. -/
def computeConfidenceDiscount (confidence : ℚ) : ℚ :=
  if cfg.minOracleConfidence ≤ confidence then 0
  else min (1 / 2)
    (max 0 ((cfg.minOracleConfidence - confidence) * confidenceDiscountRate / 100))

/-- The part of the payout that the discount leaves, in millionths. -/
def discountFactor (confidence : ℚ) : ℤ :=
  round ((1 - computeConfidenceDiscount cfg confidence) * 1000000)

/-- What is claimed, up to the coverage. -/
def cappedAmount : ℤ :=
  if claim.coverageLimit < claim.claimedAmount then claim.coverageLimit else claim.claimedAmount

/-- What the deductible leaves of it. -/
def afterDeductible : ℤ :=
  if computeDeductible cfg (cappedAmount claim) < cappedAmount claim then
    cappedAmount claim - computeDeductible cfg (cappedAmount claim)
  else 0

def calculate (oracle : OracleVerificationData) : PayoutResult :=
  let netPayoutAmount :=
    (afterDeductible cfg claim * discountFactor cfg oracle.confidence).tdiv 1000000
  { grossAmount := claim.claimedAmount
    cappedAmount := cappedAmount claim
    deductibleAmount := computeDeductible cfg (cappedAmount claim)
    netPayoutAmount
    oraclePriceUsed := oracle.priceAtVerification
    usdValue := (netPayoutAmount * oracle.priceAtVerification).tdiv SCALE
    confidenceDiscount := computeConfidenceDiscount cfg oracle.confidence
    calculatedAt := now }

end StellarLend.Insurance
