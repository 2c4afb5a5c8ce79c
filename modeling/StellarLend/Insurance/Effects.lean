import Mathlib.Algebra.Order.BigOperators.Group.List
import StellarLend.Insurance.Service

/-!
# Insurance/Effects — what an event does to the claims

Every call writes one claim at most, and ends with one audit entry more on it (`Effect`).  Where the
repository keeps the claim decides whether a call finds it and what the fraud detection sees, and
nothing else: the calls are chains of `Rewrites` of one claim.
-/

namespace StellarLend.Insurance

open Foundations ClaimsService

variable {upper : String → String} {cfg : ClaimsServiceConfig} {now : ℤ} {s t : ClaimsService}
  {id : ℕ} {c : InsuranceClaim}

/-! ## Rewriting one claim -/

/-- The services differ in one claim, held in the second, and in the order of the store. -/
structure Rewrites (id : ℕ) (c : InsuranceClaim) (s t : ClaimsService) : Prop where
  claims : t.claims = Function.update s.claims id (some c)
  held : id ∈ t.store
  disputes : t.disputes = s.disputes
  verifications : t.verifications = s.verifications
  submitted : t.submitted = s.submitted

theorem Rewrites.self (h : Rewrites id c s t) : t.claims id = some c := by
  rw [h.claims, Function.update_self]

theorem mem_store_persist (s : ClaimsService) (id : ℕ) : id ∈ (s.persist cfg id).store := by
  simp [persist]

/-- A claim that is found is held. -/
theorem Rewrites.of_found (h : s.findById id = (some c, t)) :
    Rewrites id c s t ∧ id ∈ s.store := by
  unfold findById at h
  by_cases hid : id ∈ s.store
  · simp only [hid, if_true, Prod.mk.injEq] at h
    obtain ⟨hc, rfl⟩ := h
    refine ⟨⟨?_, by simp, rfl, rfl, rfl⟩, hid⟩
    rw [← hc, Function.update_eq_self]
  · simp [hid] at h

/-- A claim that is rewritten is found. -/
theorem Rewrites.findById (h : Rewrites id c s t) :
    ∃ u, t.findById id = (some c, u) ∧ Rewrites id c s u := by
  refine ⟨{ t with store := t.store.erase id ++ [id] }, ?_,
    h.claims, by simp, h.disputes, h.verifications, h.submitted⟩
  rw [ClaimsService.findById, if_pos h.held, h.self]

/-- Entering a dispute in both rewrites the same claim. -/
theorem Rewrites.enter (h : Rewrites id c s t) (d : DisputeRecord) :
    Rewrites id c { s with disputes := Function.update s.disputes id (some d) }
      { t with disputes := Function.update t.disputes id (some d) } :=
  ⟨h.claims, h.held, by rw [h.disputes], h.verifications, h.submitted⟩

theorem rewrites_edit (cfg : ClaimsServiceConfig) (h : s.claims id = some c)
    (f : InsuranceClaim → InsuranceClaim) :
    Rewrites id (f c) s ((s.edit id f).persist cfg id) := by
  refine ⟨?_, mem_store_persist .., rfl, rfl, rfl⟩
  rw [← Option.map_some (f := f), ← h]
  rfl

theorem Rewrites.edit (h : Rewrites id c s t) (cfg : ClaimsServiceConfig)
    (f : InsuranceClaim → InsuranceClaim) :
    Rewrites id (f c) s ((t.edit id f).persist cfg id) := by
  have hedit := rewrites_edit cfg h.self f
  refine ⟨?_, hedit.held, h.disputes, h.verifications, h.submitted⟩
  rw [hedit.claims, h.claims, Function.update_idem]

theorem Rewrites.transition (h : Rewrites id c s t) (cfg : ClaimsServiceConfig) (now : ℤ)
    (toStatus : ClaimStatus) (actor : Actor) (description : String) :
    Rewrites id (c.moved now toStatus actor description) s
      (t.transition cfg now id toStatus actor description) := by
  obtain ⟨u, hfound, hu⟩ := h.findById
  simp only [ClaimsService.transition, hfound]
  exact hu.edit cfg _

/-- What holds of the claims that were there, and of the one that is written, holds of all. -/
theorem forall_claims_update {P : ℕ → InsuranceClaim → Prop}
    (ht : t.claims = Function.update s.claims id (some c))
    (hs : ∀ j o, j ≠ id → s.claims j = some o → P j o) (hc : P id c) :
    ∀ j o, t.claims j = some o → P j o := by
  intro j o hj
  rw [ht] at hj
  by_cases hji : j = id
  · rw [hji, Function.update_self] at hj
    cases hj
    rwa [hji]
  · rw [Function.update_of_ne hji] at hj
    exact hs j o hji hj

/-! ## What a claim becomes -/

/-- The claims agree in everything that a submission settles. -/
def SameTerms (c c' : InsuranceClaim) : Prop :=
  c' = { c with
    status := c'.status
    verificationResult := c'.verificationResult
    payoutResult := c'.payoutResult
    rejectionReason := c'.rejectionReason
    rejectionDetails := c'.rejectionDetails
    history := c'.history
    payoutTransactionHash := c'.payoutTransactionHash }

/-- The claim has the status, with an audit entry of how it got there. -/
structure Advances (c c' : InsuranceClaim) (toStatus : ClaimStatus) (actor : Actor) : Prop where
  terms : SameTerms c c'
  status : c'.status = toStatus
  history : ∃ description now,
    c'.history = c.history ++ [⟨some c.status, toStatus, actor, description, now⟩]

theorem advances_moved (c : InsuranceClaim) (toStatus : ClaimStatus) (actor : Actor)
    (description : String) :
    Advances c (c.moved now toStatus actor description) toStatus actor :=
  ⟨rfl, rfl, description, now, rfl⟩

/-! ## Looking up -/

/-- The services differ in the order of the store, and in verifications that ended. -/
structure Idle (s t : ClaimsService) : Prop where
  claims : t.claims = s.claims
  disputes : t.disputes = s.disputes
  verifications : ∀ v ∈ t.verifications, v ∈ s.verifications
  submitted : t.submitted = s.submitted

theorem Idle.refl (s : ClaimsService) : Idle s s := ⟨rfl, rfl, fun _ hv => hv, rfl⟩

theorem findById_idle (s : ClaimsService) (id : ℕ) : Idle s (s.findById id).2 := by
  unfold findById
  split
  · exact ⟨rfl, rfl, fun _ hv => hv, rfl⟩
  · exact .refl s

theorem claims_of_found (h : s.findById id = (some c, t)) : s.claims id = some c := by
  have hheld := (Rewrites.of_found h).2
  have hread : (s.findById id).1 = some c := by rw [h]
  rwa [findById, if_pos hheld] at hread

theorem idle_of_found {found : Option InsuranceClaim} (h : s.findById id = (found, t)) :
    Idle s t := by
  have hidle := findById_idle s id
  rwa [h] at hidle

/-! ## Submissions -/

/-- A claim of the same loss is fraud. -/
theorem detect_of_duplicate {allClaims : List InsuranceClaim} {other : InsuranceClaim}
    (hother : other ∈ allClaims) (hid : other.id ≠ c.id) (hloss : other.SameLoss c) :
    (detect cfg now c allClaims).isFraudulent = true := by
  obtain ⟨signal, hsignal, hcritical⟩ : ∃ signal, checkDuplicate now c allClaims = some signal ∧
      signal.severity = .critical := by
    have hfind : (allClaims.find? fun o => o.id ≠ c.id ∧ o.SameLoss c).isSome := by
      rw [List.find?_isSome]
      exact ⟨other, hother, by simp [hid, hloss]⟩
    obtain ⟨duplicate, hduplicate⟩ := Option.isSome_iff_exists.mp hfind
    rw [checkDuplicate, hduplicate]
    exact ⟨_, rfl, rfl⟩
  have hmem : signal ∈ (detect cfg now c allClaims).signals := by
    simp [detect, hsignal]
  have hsum : 100 ≤ ((detect cfg now c allClaims).signals.map fun s =>
      SEVERITY_SCORE s.severity).sum := by
    have hle := List.le_sum_of_mem (List.mem_map_of_mem (f := fun s : FraudSignal =>
      SEVERITY_SCORE s.severity) hmem)
    rwa [hcritical] at hle
  have hscore : (detect cfg now c allClaims).riskScore = 100 := min_eq_left hsum
  change decide (fraudRiskThreshold ≤ (detect cfg now c allClaims).riskScore) = true
  rw [hscore]
  rfl

theorem mem_store_findById (s : ClaimsService) (id : ℕ) {j : ℕ} (hj : j ∈ s.store) :
    j ∈ (s.findById id).2.store := by
  unfold findById
  split
  · by_cases h : j = id
    · simp [h]
    · simp [List.mem_erase_of_ne h, hj]
  · exact hj

/-- A claim that is held already takes no other's place. -/
theorem mem_store_persist_of_mem (hid : id ∈ s.store) {j : ℕ} (hj : j ∈ s.store) :
    j ∈ (s.persist cfg id).store := by
  simp only [persist, hid, not_true_eq_false, false_and, if_false]
  by_cases h : j = id
  · simp [h]
  · simp [List.mem_erase_of_ne h, hj]

theorem Rewrites.mem_store_transition (h : Rewrites id c s t) (cfg : ClaimsServiceConfig) (now : ℤ)
    (toStatus : ClaimStatus) (actor : Actor) (description : String) {j : ℕ} (hj : j ∈ t.store) :
    j ∈ (t.transition cfg now id toStatus actor description).store := by
  obtain ⟨u, hfound, hu⟩ := h.findById
  have hju : j ∈ u.store := by
    have hmem := mem_store_findById t id hj
    rwa [hfound] at hmem
  simp only [ClaimsService.transition, hfound]
  exact mem_store_persist_of_mem hu.held hju

/-- What a submission leaves: a new claim, which was rejected, or waits for the price and has no
claim of the same loss beside it. -/
structure Submitted (upper : String → String) (cfg : ClaimsServiceConfig) (now : ℤ)
    (request : ClaimSubmissionRequest) (s t : ClaimsService) (c : InsuranceClaim) : Prop where
  claims : t.claims = Function.update s.claims s.submitted (some c)
  disputes : t.disputes = s.disputes
  submitted : t.submitted = s.submitted + 1
  id : c.id = s.submitted
  payoutResult : c.payoutResult = none
  history : ∀ e ∈ c.history, e.toStatus = .pending ∨ e.toStatus = .verifying ∨
    e.toStatus = .rejected
  outcome : c.status = .rejected ∧ t.verifications = s.verifications ∨
    c.status = .verifying ∧
      t.verifications = s.verifications ++ [⟨s.submitted, .submission, now⟩] ∧
      ∀ j ∈ (create upper cfg now request s).store, j ≠ s.submitted → ∀ other,
        s.claims j = some other → other.id ≠ s.submitted → ¬ other.SameLoss c

/-- A submission puts its claim into the store. -/
theorem create_rewrites (upper : String → String) (cfg : ClaimsServiceConfig) (now : ℤ)
    (request : ClaimSubmissionRequest) (s : ClaimsService) :
    Rewrites s.submitted (newClaim upper now s.submitted request)
      { s with submitted := s.submitted + 1 } (create upper cfg now request s) :=
  ⟨rfl, mem_store_persist .., rfl, rfl, rfl⟩

/-- The detection compares a new claim with every claim that is held beside it. -/
theorem mem_compared (h : Rewrites id c s t) {j : ℕ} (hj : j ∈ t.store) (hne : j ≠ id)
    {other : InsuranceClaim} (hother : s.claims j = some other) (hid : other.id ≠ id) :
    other ∈ t.getAll.filter fun c => c.id ≠ id := by
  refine List.mem_filter.mpr ⟨List.mem_filterMap.mpr ⟨j, hj, ?_⟩, by simpa using hid⟩
  rw [h.claims, Function.update_of_ne hne, hother]

/-- **What a submission does.** -/
theorem submitClaim_submitted (upper : String → String) (cfg : ClaimsServiceConfig) (now : ℤ)
    (request : ClaimSubmissionRequest) (s : ClaimsService) :
    ∃ c, Submitted upper cfg now request s (submitClaim upper cfg now request s).2 c := by
  have h1 := create_rewrites upper cfg now request s
  have h2 := h1.transition cfg now .verifying .system
    "Starting fraud analysis and oracle verification"
  have hheld := fun j hj => h1.mem_store_transition cfg now .verifying .system
    "Starting fraud analysis and oracle verification" (j := j) hj
  unfold submitClaim
  simp only [h2.self, Option.getD_some]
  generalize (create upper cfg now request s).transition cfg now s.submitted .verifying .system
    "Starting fraud analysis and oracle verification" = s2 at h2 hheld ⊢
  generalize hfraud : detect cfg now _ _ = fraud
  obtain ⟨c3, h3, hc3⟩ : ∃ c3, Rewrites s.submitted c3 { s with submitted := s.submitted + 1 }
      (if fraud.signals = [] then s2
        else (s2.edit s.submitted fun c => { c with fraudSignals := fraud.signals }).persist cfg
          s.submitted) ∧
      ∃ signals, c3 = { (newClaim upper now s.submitted request).moved now .verifying .system
        "Starting fraud analysis and oracle verification" with fraudSignals := signals } := by
    split
    · exact ⟨_, h2, [], rfl⟩
    · exact ⟨_, h2.edit cfg _, fraud.signals, rfl⟩
  obtain ⟨signals, rfl⟩ := hc3
  generalize (if fraud.signals = [] then s2
    else (s2.edit s.submitted fun c => { c with fraudSignals := fraud.signals }).persist cfg
      s.submitted) = s3 at h3 ⊢
  split
  · -- the claim is rejected at once
    have h4 := h3.transition cfg now .rejected .system
      s!"Fraud detected (risk score: {fraud.riskScore})"
    obtain ⟨s5, hfound, h5⟩ := h4.findById
    simp only [hfound]
    refine ⟨_, (h5.edit cfg _).claims, (h5.edit cfg _).disputes, (h5.edit cfg _).submitted, rfl,
      rfl, ?_, .inl ⟨rfl, (h5.edit cfg _).verifications⟩⟩
    intro e he
    simp [InsuranceClaim.moved, newClaim] at he
    rcases he with rfl | rfl | rfl <;> simp
  · -- the claim waits for the price
    rename_i hclean
    refine ⟨_, h3.claims, h3.disputes, h3.submitted, rfl, rfl, ?_, .inr ⟨rfl, ?_,
      fun j hj hne other hother hid hloss => hclean ?_⟩⟩
    · intro e he
      simp [InsuranceClaim.moved, newClaim] at he
      rcases he with rfl | rfl <;> simp
    · rw [h3.verifications]
    · rw [← hfraud]
      exact detect_of_duplicate (mem_compared h2 (hheld j hj) hne hother hid) hid hloss

/-! ## Verifications -/

/-- A verification is passed with a fresh price, where no business rule is broken. -/
structure Passes (cfg : ClaimsServiceConfig) (startedAt : ℤ) (c : InsuranceClaim)
    (answer : PriceAnswer) (oracle : OracleVerificationData) : Prop where
  rules : businessRuleErrors startedAt c = []
  fresh : ∃ p, answer = .price p ∧ startedAt - p.timestamp ≤ cfg.maxPriceAgeSeconds ∧
    oracle = ⟨p.price, p.timestamp, p.confidence, p.sources, startedAt⟩

/-- **A verification passes, or fails with some errors.** -/
theorem verify_cases (cfg : ClaimsServiceConfig) (startedAt : ℤ) (c : InsuranceClaim)
    (answer : PriceAnswer) :
    (∃ oracle, Passes cfg startedAt c answer oracle ∧
      verify cfg startedAt c answer = ⟨true, some oracle, []⟩) ∨
    ∃ errors, verify cfg startedAt c answer = ⟨false, none, errors⟩ := by
  simp only [verify]
  split
  · exact .inr ⟨_, rfl⟩
  · rename_i hrules
    cases answer with
    | threw => exact .inr ⟨_, rfl⟩
    | absent => exact .inr ⟨_, rfl⟩
    | price p =>
      simp only
      split
      · exact .inr ⟨_, rfl⟩
      · rename_i hage
        exact .inl ⟨_, ⟨not_not.mp hrules, p, rfl, not_lt.mp hage, rfl⟩, rfl⟩

/-- What a verification makes of its claim: approved with a payout if it passes, and otherwise
rejected or left to manual review. -/
inductive Verified (cfg : ClaimsServiceConfig) (now startedAt : ℤ) (answer : PriceAnswer)
    (c c' : InsuranceClaim) : Prop
  | passed (oracle : OracleVerificationData) (passes : Passes cfg startedAt c answer oracle)
      (advances : Advances c c' .approved .system)
      (payout : c'.payoutResult = some (calculate cfg now c oracle))
  | failed (toStatus : ClaimStatus) (status : toStatus = .rejected ∨ toStatus = .pendingManual)
      (advances : Advances c c' toStatus .system) (payout : c'.payoutResult = c.payoutResult)

/-- Whatever the price says, the service gives the claim a status. -/
theorem Verified.advances {startedAt : ℤ} {answer : PriceAnswer} {c' : InsuranceClaim}
    (h : Verified cfg now startedAt answer c c') : ∃ toStatus, Advances c c' toStatus .system := by
  cases h with
  | passed oracle hpasses hadvances => exact ⟨_, hadvances⟩
  | failed toStatus hto hadvances => exact ⟨_, hadvances⟩

/-- **What a submission does once the price has settled**: nothing, where the repository does not
find its claim. -/
theorem resumeSubmission_effect (startedAt : ℤ) (answer : PriceAnswer) :
    Idle s (resumeSubmission cfg now id startedAt answer s).2 ∨
      ∃ c c', id ∈ s.store ∧ s.claims id = some c ∧
        Rewrites id c' s (resumeSubmission cfg now id startedAt answer s).2 ∧
        Verified cfg now startedAt answer c c' := by
  unfold resumeSubmission
  rcases hfound : s.findById id with ⟨_ | c, u⟩
  · exact .inl (idle_of_found hfound)
  obtain ⟨h1, hheld⟩ := Rewrites.of_found hfound
  have hc := claims_of_found hfound
  right
  have h2 := h1.edit cfg fun o => { o with
    verificationResult := some (verify cfg startedAt c answer) }
  obtain ⟨oracle, hpasses, hverify⟩ | ⟨errors, hverify⟩ := verify_cases cfg startedAt c answer <;>
    rw [hverify] at h2 <;> simp only [hverify]
  · generalize hpayout : calculate cfg now c oracle = payout
    have h3 := h2.edit cfg fun o => { o with payoutResult := some payout }
    obtain ⟨u4, hfound4, h4⟩ := (h3.transition cfg now .approved .system
      s!"Oracle verification passed. Payout: {payout.netPayoutAmount} {c.asset}").findById
    simp only [hfound4]
    refine ⟨c, _, hheld, hc, h4, .passed oracle hpasses ⟨rfl, rfl, _, now, rfl⟩ ?_⟩
    rw [hpayout]
    rfl
  · generalize (errors.head?.map ClaimVerificationError.message).getD "unknown" = message
    split
    · obtain ⟨u3, hfound3, h3⟩ := (h2.transition cfg now .pendingManual .system
        "Oracle unavailable — claim requires manual review").findById
      simp only [hfound3]
      exact ⟨c, _, hheld, hc, h3, .failed _ (.inr rfl) ⟨rfl, rfl, _, now, rfl⟩ rfl⟩
    · obtain ⟨u3, hfound3, h3⟩ := (h2.transition cfg now .rejected .system
        s!"Verification failed: {message}").findById
      simp only [hfound3]
      exact ⟨c, _, hheld, hc, h3.edit cfg _, .failed _ (.inl rfl) ⟨rfl, rfl, _, now, rfl⟩ rfl⟩

/-- **What a re-verification does once the price has settled.** -/
theorem resumeReverification_effect (startedAt : ℤ) (answer : PriceAnswer) :
    Idle s (resumeReverification cfg now id startedAt answer s).2 ∨
      ∃ c c', s.claims id = some c ∧
        Rewrites id c' s (resumeReverification cfg now id startedAt answer s).2 ∧
        Verified cfg now startedAt answer c c' := by
  unfold resumeReverification
  cases hc : s.claims id with
  | none => exact .inl (.refl s)
  | some c =>
    right
    have h1 := rewrites_edit cfg hc fun o => { o with
      verificationResult := some (verify cfg startedAt c answer) }
    obtain ⟨oracle, hpasses, hverify⟩ | ⟨errors, hverify⟩ := verify_cases cfg startedAt c answer <;>
      rw [hverify] at h1 <;> simp only [hverify]
    · have h2 := h1.edit cfg fun o => { o with
        payoutResult := some (calculate cfg now c oracle) }
      obtain ⟨u3, hfound3, h3⟩ := (h2.transition cfg now .approved .system
        "Re-verification passed").findById
      simp only [hfound3]
      exact ⟨c, _, rfl, h3, .passed oracle hpasses ⟨rfl, rfl, _, now, rfl⟩ rfl⟩
    · split
      · obtain ⟨u2, hfound2, h2⟩ := (h1.transition cfg now .pendingManual .system
          "Oracle still unavailable").findById
        simp only [hfound2]
        exact ⟨c, _, rfl, h2, .failed _ (.inr rfl) ⟨rfl, rfl, _, now, rfl⟩ rfl⟩
      · have h2 := (h1.transition cfg now .rejected .system
          "Re-verification failed").edit cfg fun o => { o with
            rejectionReason := some (errorCodeToRejectionReason
              (errors.head?.map ClaimVerificationError.code)) }
        obtain ⟨u3, hfound3, h3⟩ := h2.findById
        simp only [hfound3]
        exact ⟨c, _, rfl, h3, .failed _ (.inl rfl) ⟨rfl, rfl, _, now, rfl⟩ rfl⟩

/-! ## Every event -/

/-- One claim is written, and gets a status. -/
structure Writes (s t : ClaimsService) (id : ℕ) (c c' : InsuranceClaim) (toStatus : ClaimStatus)
    (actor : Actor) : Prop where
  found : s.claims id = some c
  claims : t.claims = Function.update s.claims id (some c')
  submitted : t.submitted = s.submitted
  advances : Advances c c' toStatus actor

/-- What an event does: nothing to the claims, or one of six things to one of them. -/
inductive Effect (upper : String → String) (cfg : ClaimsServiceConfig) (event : Event)
    (s t : ClaimsService) : Prop
  | idle (idle : Idle s t)
  | submitted (request : ClaimSubmissionRequest) (op : event.op = .submitClaim request)
      (c : InsuranceClaim) (new : Submitted upper cfg event.now request s t c)
  | reverifies (id : ℕ) (op : event.op = .verifyClaim id) (c c' : InsuranceClaim)
      (writes : Writes s t id c c' .verifying .system)
      (status : c.status = .pending ∨ c.status = .pendingManual ∨ c.status = .verifying)
      (payout : c'.payoutResult = c.payoutResult) (disputes : t.disputes = s.disputes)
      (verifications : t.verifications = s.verifications ++ [⟨id, .reverification, event.now⟩])
  | verified (v : Verification) (answer : PriceAnswer) (op : event.op = .resume v answer)
      (awaited : v ∈ s.verifications) (held : v.kind = .submission → v.claimId ∈ s.store)
      (c c' : InsuranceClaim) (found : s.claims v.claimId = some c)
      (claims : t.claims = Function.update s.claims v.claimId (some c'))
      (submitted : t.submitted = s.submitted)
      (outcome : Verified cfg event.now v.startedAt answer c c')
      (disputes : t.disputes = s.disputes)
      (verifications : t.verifications = s.verifications.erase v)
  | disputed (id : ℕ) (disputant reason : String) (evidence : List String)
      (op : event.op = .openDispute id disputant reason evidence) (c c' : InsuranceClaim)
      (writes : Writes s t id c c' .disputed (.address disputant))
      (status : c.status ≠ .disputed ∧ c.status ≠ .cancelled ∧ c.status ≠ .paidOut)
      (payout : c'.payoutResult = c.payoutResult) (undisputed : s.disputes id = none)
      (disputes : ∃ d, t.disputes = Function.update s.disputes id (some d) ∧ d.resolution = none)
      (verifications : t.verifications = s.verifications)
  | decided (id : ℕ) (resolution : DisputeResolution) (admin : String) (notes : Option String)
      (op : event.op = .resolveDispute id resolution admin notes) (c c' : InsuranceClaim)
      (writes : Writes s t id c c' (mapResolutionToStatus resolution) (.address admin))
      (status : c.status = .disputed) (payout : c'.payoutResult = c.payoutResult)
      (dispute : ∃ d, s.disputes id = some d ∧ d.resolution = none)
      (disputes : ∃ d, t.disputes = Function.update s.disputes id (some d) ∧
        d.resolution = some resolution)
      (verifications : t.verifications = s.verifications)
  | paid (id : ℕ) (txHash admin : String) (op : event.op = .processPayout id txHash admin)
      (c c' : InsuranceClaim) (writes : Writes s t id c c' .paidOut (.address admin))
      (status : c.status = .approved) (payout : c'.payoutResult = c.payoutResult)
      (disputes : t.disputes = s.disputes) (verifications : t.verifications = s.verifications)

theorem verifyClaim_effect :
    Effect upper cfg ⟨now, .verifyClaim id⟩ s (verifyClaim cfg now id s).2 := by
  unfold verifyClaim
  rcases hfound : s.findById id with ⟨_ | c, u⟩
  · exact .idle (idle_of_found hfound)
  simp only
  split
  · exact .idle (idle_of_found hfound)
  · rename_i hstatus
    have h1 := (Rewrites.of_found hfound).1.transition cfg now .verifying .system
      "Re-verification triggered"
    refine .reverifies id rfl c _ ⟨claims_of_found hfound, h1.claims, h1.submitted,
      advances_moved ..⟩ ?_ rfl h1.disputes ?_
    · simpa [List.mem_cons] using not_not.mp hstatus
    · rw [h1.verifications]

theorem openDispute_effect {disputant reason : String} {evidence : List String} :
    Effect upper cfg ⟨now, .openDispute id disputant reason evidence⟩ s
      (openDispute cfg now id disputant reason evidence s).2 := by
  unfold openDispute
  rcases hfound : s.findById id with ⟨_ | c, u⟩
  · exact .idle (idle_of_found hfound)
  have h0 := (Rewrites.of_found hfound).1
  simp only
  split
  · exact .idle (idle_of_found hfound)
  split
  · exact .idle (idle_of_found hfound)
  · rename_i hstatus hnone
    let d : DisputeRecord := ⟨id, disputant, reason, evidence, now, none, none, none, none⟩
    have h1 := (h0.enter d).transition cfg now .disputed (.address disputant)
      s!"Dispute opened: {reason}"
    rw [h0.disputes] at hnone
    exact .disputed id disputant reason evidence rfl c _ ⟨claims_of_found hfound, h1.claims,
      h1.submitted, advances_moved ..⟩ (by simpa using hstatus) rfl (by simpa using hnone)
      ⟨d, h1.disputes, rfl⟩ h1.verifications

theorem resolveDispute_effect {resolution : DisputeResolution} {admin : String}
    {notes : Option String} :
    Effect upper cfg ⟨now, .resolveDispute id resolution admin notes⟩ s
      (resolveDispute cfg now id resolution admin notes s).2 := by
  unfold resolveDispute
  rcases hfound : s.findById id with ⟨_ | c, u⟩
  · exact .idle (idle_of_found hfound)
  have h0 := (Rewrites.of_found hfound).1
  simp only
  split
  · exact .idle (idle_of_found hfound)
  rename_i d hd
  rw [h0.disputes] at hd
  split
  · exact .idle (idle_of_found hfound)
  rename_i hopen
  split
  · exact .idle (idle_of_found hfound)
  rename_i hstatus
  let d' : DisputeRecord := { d with
    resolution := some resolution
    resolvedBy := some admin
    resolutionNotes := notes
    resolvedAt := some now }
  have h1 := (h0.enter d').transition cfg now (mapResolutionToStatus resolution)
    (.address admin) s!"Dispute resolved: {resolution.text ++ resolutionSuffix notes}"
  exact .decided id resolution admin notes rfl c _ ⟨claims_of_found hfound, h1.claims,
    h1.submitted, advances_moved ..⟩ (not_not.mp hstatus) rfl ⟨d, hd, by simpa using hopen⟩
    ⟨d', h1.disputes, rfl⟩ h1.verifications

theorem processPayout_effect {txHash admin : String} :
    Effect upper cfg ⟨now, .processPayout id txHash admin⟩ s
      (processPayout cfg now id txHash admin s).2 := by
  unfold processPayout
  rcases hfound : s.findById id with ⟨_ | c, u⟩
  · exact .idle (idle_of_found hfound)
  simp only
  split
  · exact .idle (idle_of_found hfound)
  · rename_i hstatus
    have h1 := (Rewrites.of_found hfound).1.edit cfg fun o => { o with
      payoutTransactionHash := some txHash }
    obtain ⟨u2, hfound2, h2⟩ := (h1.transition cfg now .paidOut (.address admin)
      "Payout dispatched on-chain").findById
    simp only [hfound2]
    exact .paid id txHash admin rfl c _ ⟨claims_of_found hfound, h2.claims, h2.submitted,
      rfl, rfl, _, now, rfl⟩ (not_not.mp hstatus) rfl h2.disputes h2.verifications

theorem resume_effect {v : Verification} {answer : PriceAnswer} (hv : v ∈ s.verifications) :
    Effect upper cfg ⟨now, .resume v answer⟩ s (resume cfg now v answer s) := by
  have hidle : ∀ {u}, Idle { s with verifications := s.verifications.erase v } u → Idle s u :=
    fun h => ⟨h.claims, h.disputes, fun w hw => List.mem_of_mem_erase (h.verifications w hw),
      h.submitted⟩
  unfold resume
  cases hkind : v.kind with
  | submission =>
    obtain h | ⟨c, c', hheld, hc, h, hout⟩ := resumeSubmission_effect v.startedAt answer
    · exact .idle (hidle h)
    · exact .verified v answer rfl hv (fun _ => hheld) c c' hc h.claims h.submitted hout h.disputes
        h.verifications
  | reverification =>
    obtain h | ⟨c, c', hc, h, hout⟩ := resumeReverification_effect v.startedAt answer
    · exact .idle (hidle h)
    · refine .verified v answer rfl hv (fun hk => ?_) c c' hc h.claims h.submitted hout h.disputes
        h.verifications
      rw [hkind] at hk
      cases hk

/-- **What an event does.** -/
theorem step_effect {event : Event} (h : step upper cfg event s = some t) :
    Effect upper cfg event s t := by
  obtain ⟨now, op⟩ := event
  cases op with
  | submitClaim request =>
    cases h
    obtain ⟨c, hc⟩ := submitClaim_submitted upper cfg now request s
    exact .submitted request rfl c hc
  | verifyClaim id =>
    cases h
    exact verifyClaim_effect
  | resume v answer =>
    simp only [step] at h
    split at h
    · rename_i hv
      cases h
      exact resume_effect hv
    · cases h
  | openDispute id disputant reason evidence =>
    cases h
    exact openDispute_effect
  | resolveDispute id resolution admin notes =>
    cases h
    exact resolveDispute_effect
  | processPayout id txHash admin =>
    cases h
    exact processPayout_effect
  | getClaim id =>
    cases h
    exact .idle (findById_idle s id)

/-- **What an event does, in outline**: nothing to the claims, a new one, or a status for one,
which is then the only one that a new verification can be of. -/
theorem step_writes {event : Event} (h : step upper cfg event s = some t) :
    Idle s t ∨
    (∃ request c, event.op = .submitClaim request ∧ Submitted upper cfg event.now request s t c) ∨
    ∃ id c c' toStatus actor, Writes s t id c c' toStatus actor ∧
      ∀ v ∈ t.verifications, v ∈ s.verifications ∨ v.claimId = id := by
  have hsame : t.verifications = s.verifications → ∀ id : ℕ, ∀ v ∈ t.verifications,
      v ∈ s.verifications ∨ v.claimId = id := fun hv id v hmem => .inl (hv ▸ hmem)
  cases step_effect h with
  | idle hidle => exact .inl hidle
  | submitted request hop c hn => exact .inr (.inl ⟨request, c, hop, hn⟩)
  | reverifies id hop c c' hw hstatus hpayout hd hv =>
    refine .inr (.inr ⟨id, c, c', _, _, hw, fun v hmem => ?_⟩)
    rw [hv, List.mem_append, List.mem_singleton] at hmem
    exact hmem.imp_right fun hself => by rw [hself]
  | verified v answer hop hawaited hheld c c' hfound hclaims hsubmitted hout hd hv =>
    have hkept : ∀ w ∈ t.verifications, w ∈ s.verifications ∨ w.claimId = v.claimId :=
      fun w hw => .inl (List.mem_of_mem_erase (hv ▸ hw))
    obtain ⟨toStatus, hadvances⟩ := hout.advances
    exact .inr (.inr ⟨_, c, c', _, _, ⟨hfound, hclaims, hsubmitted, hadvances⟩, hkept⟩)
  | disputed id disputant reason evidence hop c c' hw hstatus hpayout hnone hd hv =>
    exact .inr (.inr ⟨id, c, c', _, _, hw, hsame hv id⟩)
  | decided id resolution admin notes hop c c' hw hstatus hpayout hopen hd hv =>
    exact .inr (.inr ⟨id, c, c', _, _, hw, hsame hv id⟩)
  | paid id txHash admin hop c c' hw hstatus hpayout hd hv =>
    exact .inr (.inr ⟨id, c, c', _, _, hw, hsame hv id⟩)

end StellarLend.Insurance
