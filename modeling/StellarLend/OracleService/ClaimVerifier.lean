import StellarLend.OracleService.PriceAggregator

/-!
# OracleService/ClaimVerifier — claims verified at the price of the moment

`oracle/src/claims/claim-verifier.ts`, over an aggregator that others use as well.

    verify ──rules──▸ getPrice ⋯ ──▸ age, confidence ──▸ accepted

A claim is verified in one turn, or in several with the answers of providers between them, and a
turn reads the clock once.  The run keeps what the source forgets: when a request began, the
aggregate each cached price was taken from, and what each accepted price was taken from.
-/

namespace StellarLend.OracleService

open Function
open Insurance (InsuranceClaim ClaimVerificationError businessRuleErrors)

/-! ## Verification -/

structure ClaimVerifierConfig where
  maxPriceAgeSeconds : ℚ
  minOracleConfidence : ℚ
  rejectOnLowConfidence : Bool
  deriving DecidableEq

def ClaimVerifierConfig.default : ClaimVerifierConfig := ⟨300, 80, false⟩

structure OracleVerificationData where
  priceAtVerification : ℤ
  priceTimestamp : ℤ
  confidence : Option ℚ
  sources : List String
  verifiedAt : ℤ
  deriving DecidableEq

structure ClaimVerificationResult where
  isValid : Bool
  oracleData : Option OracleVerificationData
  errors : List ClaimVerificationError
  deriving DecidableEq

section Verify

variable (texts : Texts) (cfg : ClaimVerifierConfig) (now : ℤ) (claim : InsuranceClaim)

/-- The errors that the price is refused for, at the second the verification began. -/
def oracleErrors (p : AggregatedPrice) : List ClaimVerificationError :=
  let priceAgeSeconds := now - p.timestamp
  let maxAge := texts.number cfg.maxPriceAgeSeconds
  let threshold := texts.number cfg.minOracleConfidence
  (if cfg.maxPriceAgeSeconds < priceAgeSeconds then
    [⟨.priceStale, s!"Oracle price is {priceAgeSeconds}s old — exceeds max {maxAge}s"⟩]
  else []) ++
  match p.confidence with
  | some confidence =>
    let percent := texts.number confidence
    if confidence < cfg.minOracleConfidence ∧ cfg.rejectOnLowConfidence = true then
      [⟨.lowOracleConfidence, s!"Oracle confidence {percent}% is below threshold {threshold}%"⟩]
    else []
  | none => []

def oracleData (p : AggregatedPrice) : OracleVerificationData :=
  ⟨p.price, p.timestamp, p.confidence, p.sources.map PriceData.source, now⟩

/-- The end of `verify`, once there is an answer. -/
def verify (answer : PriceAnswer) : ClaimVerificationResult :=
  let asset := claim.asset
  match answer with
  | .threw =>
    ⟨false, none, [⟨.oracleUnavailable, "Oracle threw an exception — cannot verify claim"⟩]⟩
  | .absent =>
    ⟨false, none,
      [⟨.oracleUnavailable, s!"Oracle could not provide a price for asset '{asset}'"⟩]⟩
  | .price p =>
    if oracleErrors texts cfg now p ≠ [] then ⟨false, none, oracleErrors texts cfg now p⟩
    else ⟨true, some (oracleData now p), []⟩

end Verify

/-! ## Runs -/

/-- What the service is made with. -/
structure Deployment where
  texts : Texts
  providers : List Provider
  validator : ValidatorConfig
  cacheTtlSeconds : ℚ
  priceHistory : PriceHistoryConfig
  aggregator : AggregatorConfig
  verifier : ClaimVerifierConfig
  createdAt : ℤ

/-- Who asked for a price: the verifier, for a claim since a second, or someone else. -/
inductive Caller where
  | verifier (claim : InsuranceClaim) (startedAt : ℤ)
  | other

/-- A price that a claim was accepted with, when, and the aggregate it was taken from. -/
structure Acceptance where
  now : ℤ
  data : OracleVerificationData
  evidence : AggregatedPrice
  deriving DecidableEq

structure Service where
  aggregator : PriceAggregator
  clock : ℤ
  begun : ℕ
  /-- When a request began. -/
  since : ℕ → ℤ
  waiting : ℕ → Option (Caller × Fetch)
  /-- The aggregate that was cached last, by key. -/
  stored : String → Option AggregatedPrice
  /-- When the request for it began. -/
  storedSince : String → ℤ
  accepted : List Acceptance

/-- A request begins. -/
def Service.begin (now : ℤ) (s : Service) : Service :=
  { s with begun := s.begun + 1, since := update s.since s.begun now }

inductive Event where
  | getPrice (asset : String) (now : ℤ)
  | verify (claim : InsuranceClaim) (now : ℤ)
  | answer (request : ℕ) (raw : Option RawPriceData) (now : ℤ)

def Event.now : Event → ℤ
  | .getPrice _ now => now
  | .verify _ now => now
  | .answer _ _ now => now

namespace Deployment

variable (d : Deployment)

def createAggregator : PriceAggregator :=
  .new d.providers (.new d.validator) (.new d.cacheTtlSeconds) (.new d.priceHistory) d.aggregator
    d.createdAt

def start : Service where
  aggregator := d.createAggregator
  clock := d.createdAt
  begun := 0
  since _ := d.createdAt
  waiting _ := none
  stored _ := none
  storedSince _ := d.createdAt
  accepted := []

def key (asset : String) : String := PriceCache.key d.texts.toUpperCase asset

/-- What a caller does with a price. -/
def acceptances (now : ℤ) (caller : Caller) (p evidence : AggregatedPrice) : List Acceptance :=
  match caller with
  | .verifier claim startedAt =>
    (verify d.texts d.verifier startedAt claim (.price p)).oracleData.toList.map fun data =>
      ⟨now, data, evidence⟩
  | .other => []

/-- The prices that are accepted at the end of a turn. -/
def accepts (now : ℤ) (caller : Caller) (progress : Progress)
    (stored : String → Option AggregatedPrice) : List Acceptance :=
  match progress with
  | .waiting _ => []
  | .cached p => d.acceptances now caller p ((stored (d.key p.asset)).getD p)
  | .fetched (.price p) => d.acceptances now caller p p
  | .fetched .absent => []
  | .fetched .threw => []

/-- The end of a turn. -/
def advance (now : ℤ) (request : ℕ) (caller : Caller) (turn : Progress × PriceAggregator)
    (s : Service) : Service :=
  { s with
    aggregator := turn.2
    clock := now
    waiting := update s.waiting request (turn.1.request.map (Prod.mk caller))
    stored := turn.1.aggregated.elim s.stored fun p => update s.stored (d.key p.asset) (some p)
    storedSince := turn.1.aggregated.elim s.storedSince fun p =>
      update s.storedSince (d.key p.asset) (s.since request)
    accepted := s.accepted ++ d.accepts now caller turn.1 s.stored }

/-- A turn.  The clock does not go back. -/
def step (event : Event) (s : Service) : Option Service :=
  if event.now < s.clock then none
  else
    match event with
    | .getPrice asset now =>
      some (d.advance now s.begun .other (s.aggregator.getPrice d.texts now asset) (s.begin now))
    | .verify claim now =>
      if businessRuleErrors (unixSeconds now) claim ≠ [] then some { s with clock := now }
      else
        some (d.advance now s.begun (.verifier claim (unixSeconds now))
          (s.aggregator.getPrice d.texts now claim.asset) (s.begin now))
    | .answer request raw now =>
      (s.waiting request).map fun (caller, fetch) =>
        d.advance now request caller (s.aggregator.resume d.texts now fetch raw) s

variable {d} {now : ℤ} {caller : Caller} {p evidence : AggregatedPrice} {x : Acceptance}

/-- **A price is accepted for a claim it is not refused for.** -/
theorem mem_acceptances : x ∈ d.acceptances now caller p evidence ↔
    ∃ claim startedAt, caller = .verifier claim startedAt ∧
      oracleErrors d.texts d.verifier startedAt p = [] ∧
        x = ⟨now, oracleData startedAt p, evidence⟩ := by
  cases caller with
  | other => simp [acceptances]
  | verifier claim startedAt =>
    by_cases herrors : oracleErrors d.texts d.verifier startedAt p = []
    · simp [acceptances, verify, herrors, and_assoc]
    · simp [acceptances, verify, herrors, and_assoc]

end Deployment

end StellarLend.OracleService
