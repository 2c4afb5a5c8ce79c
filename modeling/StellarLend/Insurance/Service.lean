import Mathlib.Logic.Function.Basic
import StellarLend.Foundations.Run
import StellarLend.Insurance.Checks

/-!
# Insurance/Service — the claims service

`claim-repository.ts`, `dispute-manager.ts` and `claims-service.ts`.  A claim is one object, shared
by whoever holds it: `claims` has the objects by number, and `store` the numbers that the repository
holds, least recently touched first.  An object that the repository has dropped lives on with the
verification that holds it, and comes back when that saves it.

An asynchronous call runs without interruption up to its `await`, where it leaves a `Verification`
behind, and from there to its end when the price has settled; other calls come in between.  A call
that fails leaves what it did before, if only the place of the claim that it looked up.
-/

namespace StellarLend.Insurance

open Foundations

/-! ## State -/

/-- Which call is waiting for the price. -/
inductive VerificationKind where
  | submission
  | reverification
  deriving DecidableEq

/-- A call that waits for the price, from the instant that its verification began. -/
structure Verification where
  claimId : ℕ
  kind : VerificationKind
  startedAt : ℤ
  deriving DecidableEq

structure ClaimsService where
  claims : ℕ → Option InsuranceClaim
  store : List ℕ
  disputes : ℕ → Option DisputeRecord
  verifications : List Verification
  /-- How many claims were submitted, which is the next number. -/
  submitted : ℕ

def ClaimsService.empty : ClaimsService := ⟨fun _ => none, [], fun _ => none, [], 0⟩

/-! ## Repository -/

/-- The claim with an audit entry and the status it records. -/
def InsuranceClaim.moved (now : ℤ) (toStatus : ClaimStatus) (actor : Actor) (description : String)
    (claim : InsuranceClaim) : InsuranceClaim :=
  { claim with
    status := toStatus
    history := claim.history ++ [⟨some claim.status, toStatus, actor, description, now⟩] }

namespace ClaimsService

/-- The claim as its holders see it after an assignment to its fields. -/
def edit (id : ℕ) (f : InsuranceClaim → InsuranceClaim) (s : ClaimsService) : ClaimsService :=
  { s with claims := Function.update s.claims id ((s.claims id).map f) }

def findById (id : ℕ) (s : ClaimsService) : Option InsuranceClaim × ClaimsService :=
  if id ∈ s.store then (s.claims id, { s with store := s.store.erase id ++ [id] }) else (none, s)

def getAll (s : ClaimsService) : List InsuranceClaim := s.store.filterMap s.claims

variable (cfg : ClaimsServiceConfig)

/-- The claim takes the last place, in a full store that of the one touched least recently. -/
def persist (id : ℕ) (s : ClaimsService) : ClaimsService :=
  let kept :=
    if id ∉ s.store ∧ cfg.maxClaimsInMemory ≤ s.store.length then s.store.tail else s.store
  { s with store := kept.erase id ++ [id] }

def transition (now : ℤ) (id : ℕ) (toStatus : ClaimStatus) (actor : Actor) (description : String)
    (s : ClaimsService) : ClaimsService :=
  let (found, s) := s.findById id
  match found with
  | none => s
  | some _ => (s.edit id (InsuranceClaim.moved now toStatus actor description)).persist cfg id

end ClaimsService

/-- The claim that a submission makes.  The source's `toUpperCase` is `upper`. -/
def newClaim (upper : String → String) (now : ℤ) (id : ℕ) (request : ClaimSubmissionRequest) :
    InsuranceClaim where
  id
  claimantAddress := request.claimantAddress
  asset := upper request.asset
  claimedAmount := request.claimedAmount
  coverageLimit := request.coverageLimit
  lossDescription := request.lossDescription
  lossTimestamp := request.lossTimestamp
  submittedAt := now
  coveragePurchasedAt := request.coveragePurchasedAt
  status := .pending
  verificationResult := none
  payoutResult := none
  rejectionReason := none
  rejectionDetails := none
  fraudSignals := []
  history := [⟨none, .pending, .address request.claimantAddress, "Claim submitted by claimant",
    now⟩]
  payoutTransactionHash := none

def create (upper : String → String) (cfg : ClaimsServiceConfig) (now : ℤ)
    (request : ClaimSubmissionRequest) (s : ClaimsService) : ClaimsService :=
  ClaimsService.persist cfg s.submitted
    { s with
      claims :=
        Function.update s.claims s.submitted (some (newClaim upper now s.submitted request))
      submitted := s.submitted + 1 }

/-! ## Submission and verification -/

structure SubmitClaimResult where
  claim : Option InsuranceClaim
  autoApproved : Bool
  fraudRejected : Bool
  pendingManual : Bool

def errorCodeToRejectionReason : Option VerificationErrorCode → RejectionReason
  | some .oracleUnavailable => .oraclePriceUnavailable
  | some .priceStale => .staleOraclePrice
  | some .amountExceedsCoverage => .insufficientCoverage
  | some .invalidAmount => .invalidAmount
  | some .unsupportedAsset => .unsupportedAsset
  | some .lossBeforeCoverage => .policyNotActive
  | some .lossTimestampInFuture => .policyNotActive
  | _ => .oraclePriceUnavailable

section Calls

variable (upper : String → String) (cfg : ClaimsServiceConfig) (now : ℤ)

/-- A submission up to its `await`; the result is there at once if the claim is found
fraudulent. -/
def submitClaim (request : ClaimSubmissionRequest) (s : ClaimsService) :
    Option SubmitClaimResult × ClaimsService :=
  let id := s.submitted
  let s := (create upper cfg now request s).transition cfg now id .verifying .system
    "Starting fraud analysis and oracle verification"
  let claim := (s.claims id).getD (newClaim upper now id request)
  let fraud := detect cfg now claim (s.getAll.filter fun c => c.id ≠ id)
  let s :=
    if fraud.signals = [] then s
    else (s.edit id fun c => { c with fraudSignals := fraud.signals }).persist cfg id
  let score := fraud.riskScore
  let types := ", ".intercalate (fraud.signals.map fun signal => signal.type.text)
  if fraud.isFraudulent then
    let s := s.transition cfg now id .rejected .system s!"Fraud detected (risk score: {score})"
    let (_, s) := s.findById id
    let s := (s.edit id fun c => { c with
      rejectionReason := some .fraudDetected
      rejectionDetails := some s!"Fraud risk score {score}/100. Signals: {types}" }).persist cfg id
    (some ⟨s.claims id, false, true, false⟩, s)
  else
    (none, { s with verifications := s.verifications ++ [⟨id, .submission, now⟩] })

/-- The errors that send a claim to manual review. -/
def isOracleUnavailable (errors : List ClaimVerificationError) : Bool :=
  errors.any fun e => e.code = .oracleUnavailable ∨ e.code = .priceStale

/-- A submission from its `await` to its end.  It throws if the repository has dropped the claim. -/
def resumeSubmission (id : ℕ) (startedAt : ℤ) (answer : PriceAnswer) (s : ClaimsService) :
    Option SubmitClaimResult × ClaimsService :=
  let (found, s) := s.findById id
  match found with
  | none => (none, s)
  | some claim =>
    let result := verify cfg startedAt claim answer
    let s := (s.edit id fun c => { c with verificationResult := some result }).persist cfg id
    let message := (result.errors.head?.map ClaimVerificationError.message).getD "unknown"
    match result.isValid, result.oracleData with
    | true, some oracle =>
      let payout := calculate cfg now claim oracle
      let s := (s.edit id fun c => { c with payoutResult := some payout }).persist cfg id
      let net := payout.netPayoutAmount
      let asset := claim.asset
      let s := s.transition cfg now id .approved .system
        s!"Oracle verification passed. Payout: {net} {asset}"
      let (claim, s) := s.findById id
      (some ⟨claim, true, false, false⟩, s)
    | _, _ =>
      if isOracleUnavailable result.errors ∧ cfg.fallbackToPendingManual then
        let s := s.transition cfg now id .pendingManual .system
          "Oracle unavailable — claim requires manual review"
        let (claim, s) := s.findById id
        (some ⟨claim, false, false, true⟩, s)
      else
        let s := s.transition cfg now id .rejected .system s!"Verification failed: {message}"
        let (_, s) := s.findById id
        let s := (s.edit id fun c => { c with
          rejectionReason := some (errorCodeToRejectionReason
            (result.errors.head?.map ClaimVerificationError.code))
          rejectionDetails :=
            some ("; ".intercalate (result.errors.map ClaimVerificationError.message)) }).persist
              cfg id
        (some ⟨s.claims id, false, false, false⟩, s)

/-- A re-verification up to its `await`. -/
def verifyClaim (id : ℕ) (s : ClaimsService) : Except String Unit × ClaimsService :=
  let (found, s) := s.findById id
  match found with
  | none => (.error s!"Claim '{id}' not found", s)
  | some claim =>
    let status := claim.status.text
    if claim.status ∉ [.pending, .pendingManual, .verifying] then
      (.error s!"Claim '{id}' cannot be re-verified in status '{status}'", s)
    else
      let s := s.transition cfg now id .verifying .system "Re-verification triggered"
      (.ok (), { s with verifications := s.verifications ++ [⟨id, .reverification, now⟩] })

/-- A re-verification from its `await` to its end.  It has the claim, held or dropped. -/
def resumeReverification (id : ℕ) (startedAt : ℤ) (answer : PriceAnswer) (s : ClaimsService) :
    Option InsuranceClaim × ClaimsService :=
  match s.claims id with
  | none => (none, s)
  | some claim =>
    let result := verify cfg startedAt claim answer
    let s := (s.edit id fun c => { c with verificationResult := some result }).persist cfg id
    match result.isValid, result.oracleData with
    | true, some oracle =>
      let payout := calculate cfg now claim oracle
      let s := (s.edit id fun c => { c with payoutResult := some payout }).persist cfg id
      let s := s.transition cfg now id .approved .system "Re-verification passed"
      s.findById id
    | _, _ =>
      if cfg.fallbackToPendingManual then
        let s := s.transition cfg now id .pendingManual .system "Oracle still unavailable"
        s.findById id
      else
        let s := s.transition cfg now id .rejected .system "Re-verification failed"
        let s := (s.edit id fun c => { c with
          rejectionReason := some (errorCodeToRejectionReason
            (result.errors.head?.map ClaimVerificationError.code)) }).persist cfg id
        s.findById id

/-! ## Payout -/

def processPayout (id : ℕ) (txHash adminAddress : String) (s : ClaimsService) :
    Except String InsuranceClaim × ClaimsService :=
  let (found, s) := s.findById id
  match found with
  | none => (.error s!"Claim '{id}' not found", s)
  | some claim =>
    let status := claim.status.text
    if claim.status ≠ .approved then
      (.error s!"Claim '{id}' must be APPROVED to process payout, got '{status}'", s)
    else
      let s := (s.edit id fun c => { c with payoutTransactionHash := some txHash }).persist cfg id
      let s := s.transition cfg now id .paidOut (.address adminAddress) "Payout dispatched on-chain"
      let (paid, s) := s.findById id
      (.ok (paid.getD claim), s)

/-! ## Disputes -/

inductive DisputeErrorCode where
  | claimNotFound
  | invalidStatus
  | disputeNotFound
  | alreadyResolved
  deriving DecidableEq, Repr

structure DisputeError where
  message : String
  code : DisputeErrorCode
  deriving DecidableEq

def openDispute (id : ℕ) (disputantAddress reason : String) (evidence : List String)
    (s : ClaimsService) : Except DisputeError DisputeRecord × ClaimsService :=
  let (found, s) := s.findById id
  match found with
  | none => (.error ⟨s!"Claim '{id}' not found", .claimNotFound⟩, s)
  | some claim =>
    let status := claim.status.text
    if claim.status ∈ [.disputed, .cancelled, .paidOut] then
      (.error ⟨s!"Claim '{id}' is in status '{status}' and cannot be disputed", .invalidStatus⟩, s)
    else if (s.disputes id).isSome then
      (.error ⟨s!"A dispute is already open for claim '{id}'", .invalidStatus⟩, s)
    else
      let record : DisputeRecord :=
        ⟨id, disputantAddress, reason, evidence, now, none, none, none, none⟩
      let s := { s with disputes := Function.update s.disputes id (some record) }
      (.ok record, s.transition cfg now id .disputed (.address disputantAddress)
        s!"Dispute opened: {reason}")

def mapResolutionToStatus : DisputeResolution → ClaimStatus
  | .approved => .approved
  | .rejected => .rejected
  | .escalated => .pendingManual

/-- The notes as they follow a resolution in its audit entry. -/
def resolutionSuffix (resolutionNotes : Option String) : String :=
  match resolutionNotes with
  | none => ""
  | some notes => if notes = "" then "" else s!" — {notes}"

def resolveDispute (id : ℕ) (resolution : DisputeResolution) (adminAddress : String)
    (resolutionNotes : Option String) (s : ClaimsService) :
    Except DisputeError (Option InsuranceClaim × DisputeRecord) × ClaimsService :=
  let (found, s) := s.findById id
  match found with
  | none => (.error ⟨s!"Claim '{id}' not found", .claimNotFound⟩, s)
  | some claim =>
    match s.disputes id with
    | none => (.error ⟨s!"No dispute found for claim '{id}'", .disputeNotFound⟩, s)
    | some dispute =>
      if dispute.resolution.isSome then
        (.error ⟨s!"Dispute for claim '{id}' has already been resolved", .alreadyResolved⟩, s)
      else if claim.status ≠ .disputed then
        (.error ⟨s!"Claim '{id}' is not in DISPUTED status", .invalidStatus⟩, s)
      else
        let resolved := { dispute with
          resolution := some resolution
          resolvedBy := some adminAddress
          resolutionNotes
          resolvedAt := some now }
        let s := { s with disputes := Function.update s.disputes id (some resolved) }
        let text := resolution.text ++ resolutionSuffix resolutionNotes
        let s := s.transition cfg now id (mapResolutionToStatus resolution) (.address adminAddress)
          s!"Dispute resolved: {text}"
        (.ok (s.claims id, resolved), s)

end Calls

/-! ## The machine -/

inductive Op where
  | submitClaim (request : ClaimSubmissionRequest)
  | verifyClaim (claimId : ℕ)
  /-- A price settles, and the call that waits for it goes on to its end. -/
  | resume (verification : Verification) (answer : PriceAnswer)
  | openDispute (claimId : ℕ) (disputantAddress reason : String) (evidence : List String)
  | resolveDispute (claimId : ℕ) (resolution : DisputeResolution) (adminAddress : String)
      (resolutionNotes : Option String)
  | processPayout (claimId : ℕ) (txHash adminAddress : String)
  | getClaim (claimId : ℕ)
  deriving DecidableEq

structure Event where
  now : ℤ
  op : Op
  deriving DecidableEq

/-- A verification goes on, and is no longer waited for. -/
def resume (cfg : ClaimsServiceConfig) (now : ℤ) (v : Verification) (answer : PriceAnswer)
    (s : ClaimsService) : ClaimsService :=
  let s := { s with verifications := s.verifications.erase v }
  match v.kind with
  | .submission => (resumeSubmission cfg now v.claimId v.startedAt answer s).2
  | .reverification => (resumeReverification cfg now v.claimId v.startedAt answer s).2

/-- The service after an event; only a verification that nobody waits for cannot go on. -/
def step (upper : String → String) (cfg : ClaimsServiceConfig) (event : Event)
    (s : ClaimsService) : Option ClaimsService :=
  match event.op with
  | .submitClaim request => some (submitClaim upper cfg event.now request s).2
  | .verifyClaim id => some (verifyClaim cfg event.now id s).2
  | .resume v answer => if v ∈ s.verifications then some (resume cfg event.now v answer s) else none
  | .openDispute id disputant reason evidence =>
    some (openDispute cfg event.now id disputant reason evidence s).2
  | .resolveDispute id resolution admin notes =>
    some (resolveDispute cfg event.now id resolution admin notes s).2
  | .processPayout id txHash admin => some (processPayout cfg event.now id txHash admin s).2
  | .getClaim id => some (s.findById id).2

/-- The service after a run of events. -/
def serviceAfter (upper : String → String) (cfg : ClaimsServiceConfig) (events : List Event) :
    ClaimsService :=
  run (step upper cfg) ClaimsService.empty events

/-! ## Sample values

What the concrete runs of later modules submit, await and are answered. -/

namespace Sample

/-- Alice claims for what she lost, within her coverage. -/
def request : ClaimSubmissionRequest := ⟨"alice", "XLM", 1000, 2000, "lost", 1000, 100⟩

/-- The verification of the first claim, submitted at five thousand seconds. -/
def awaited : Verification := ⟨0, .submission, 5000⟩

/-- A price that is there, and certain. -/
def priced : PriceAnswer := .price ⟨10000000, 5000, 100, ["binance"]⟩

end Sample

end StellarLend.Insurance
