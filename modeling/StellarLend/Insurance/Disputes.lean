import StellarLend.Insurance.Effects

/-!
# Insurance/Disputes — what a dispute holds up

A dispute marks its claim and a payout ends it, and every call but one asks for the status before it
writes another.  The exception is a verification that goes on after its `await`: it writes what its
price says over whatever status the claim has got meanwhile.  So disputes hold up claims, and claims
are paid once, in the runs where no verification goes on over a disputed or a paid claim
(`disputes_held`).
-/

namespace StellarLend.Insurance

open Foundations

variable {upper : String → String} {cfg : ClaimsServiceConfig} {s t : ClaimsService}

/-! ## What is to hold -/

/-- The claim has a dispute that is not resolved. -/
def Unresolved (s : ClaimsService) (id : ℕ) : Prop :=
  ∃ d, s.disputes id = some d ∧ d.resolution = none

/-- How often the claim became paid out, by its audit trail. -/
def InsuranceClaim.payouts (c : InsuranceClaim) : ℕ :=
  c.history.countP fun e => e.toStatus = .paidOut

/-- A claim with an unresolved dispute is disputed, and its payout is refused; and every claim
became paid out once at most. -/
structure DisputesHeld (cfg : ClaimsServiceConfig) (s : ClaimsService) : Prop where
  disputed : ∀ id c, s.claims id = some c → Unresolved s id → c.status = .disputed
  refused : ∀ id, Unresolved s id → ∀ now txHash admin,
    ∃ message, (processPayout cfg now id txHash admin s).1 = .error message
  paidOnce : ∀ id c, s.claims id = some c → c.payouts ≤ 1

/-- No verification goes on over a disputed or a paid claim; one of a submission goes on over a
claim that the repository holds. -/
def LetsStand (s : ClaimsService) (event : Event) : Prop :=
  match event.op with
  | .resume v _ => (v.kind = .submission → v.claimId ∈ s.store) →
      ∀ c ∈ s.claims v.claimId, c.status ≠ .disputed ∧ c.status ≠ .paidOut
  | _ => True

instance (s : ClaimsService) : ∀ event, Decidable (LetsStand s event)
  | ⟨_, .resume v _⟩ => inferInstanceAs (Decidable ((v.kind = .submission → v.claimId ∈ s.store) →
      ∀ c ∈ s.claims v.claimId, c.status ≠ .disputed ∧ c.status ≠ .paidOut))
  | ⟨_, .submitClaim _⟩ => .isTrue trivial
  | ⟨_, .verifyClaim _⟩ => .isTrue trivial
  | ⟨_, .openDispute ..⟩ => .isTrue trivial
  | ⟨_, .resolveDispute ..⟩ => .isTrue trivial
  | ⟨_, .processPayout ..⟩ => .isTrue trivial
  | ⟨_, .getClaim _⟩ => .isTrue trivial

/-! ## The invariant -/

/-- Claims and disputes are of numbers that were given out, an unresolved dispute marks its claim,
and the audit trail has a payout exactly of a claim that is paid out. -/
structure Settled (s : ClaimsService) : Prop where
  numbered : ∀ id c, s.claims id = some c → id < s.submitted
  known : ∀ id d, s.disputes id = some d → id < s.submitted
  disputed : ∀ id c, s.claims id = some c → Unresolved s id → c.status = .disputed
  payouts : ∀ id c, s.claims id = some c → c.payouts = if c.status = .paidOut then 1 else 0

theorem Settled.empty : Settled ClaimsService.empty :=
  ⟨by simp [ClaimsService.empty], by simp [ClaimsService.empty], by simp [ClaimsService.empty],
    by simp [ClaimsService.empty]⟩

theorem Settled.idle (h : Settled s) (hi : Idle s t) : Settled t := by
  have hunresolved : ∀ id, Unresolved t id → Unresolved s id := fun id hu => by
    rwa [Unresolved, hi.disputes] at hu
  refine ⟨?_, ?_, ?_, ?_⟩
  · rw [hi.claims, hi.submitted]
    exact h.numbered
  · rw [hi.disputes, hi.submitted]
    exact h.known
  · rw [hi.claims]
    exact fun id c hc hu => h.disputed id c hc (hunresolved id hu)
  · rw [hi.claims]
    exact h.payouts

theorem Advances.payouts {c c' : InsuranceClaim} {toStatus : ClaimStatus} {actor : Actor}
    (h : Advances c c' toStatus actor) :
    c'.payouts = c.payouts + if toStatus = .paidOut then 1 else 0 := by
  obtain ⟨description, now, hhistory⟩ := h.history
  simp [InsuranceClaim.payouts, hhistory, List.countP_append, List.countP_singleton]

/-- A claim that is not paid out gets another status, which is `disputed` if its dispute is not
resolved then. -/
theorem Settled.write (h : Settled s) {id : ℕ} {c c' : InsuranceClaim} {toStatus : ClaimStatus}
    {actor : Actor} (hw : Writes s t id c c' toStatus actor) (hstatus : c.status ≠ .paidOut)
    (hdisputes : ∀ j, j ≠ id → t.disputes j = s.disputes j)
    (hresolved : Unresolved t id → toStatus = .disputed) : Settled t := by
  refine ⟨?_, fun j d hd => ?_, ?_, ?_⟩
  · rw [hw.submitted]
    exact forall_claims_update hw.claims (fun j o _ => h.numbered j o) (h.numbered id c hw.found)
  · rw [hw.submitted]
    by_cases hji : j = id
    · rw [hji]
      exact h.numbered id c hw.found
    · rw [hdisputes j hji] at hd
      exact h.known j d hd
  · refine forall_claims_update hw.claims (fun j o hji hj hu => ?_) fun hu => ?_
    · rw [Unresolved, hdisputes j hji] at hu
      exact h.disputed j o hj hu
    · rw [hw.advances.status]
      exact hresolved hu
  · refine forall_claims_update hw.claims (fun j o _ => h.payouts j o) ?_
    rw [hw.advances.payouts, hw.advances.status, h.payouts id c hw.found, if_neg hstatus, zero_add]

theorem Settled.submission (h : Settled s) {now : ℤ} {request : ClaimSubmissionRequest}
    {c : InsuranceClaim} (hn : Submitted upper cfg now request s t c) : Settled t := by
  have hstatus : c.status ≠ .paidOut := by
    rcases hn.outcome with ⟨hc, -⟩ | ⟨hc, -⟩ <;> simp [hc]
  have hpayouts : c.payouts = 0 := by
    refine List.countP_eq_zero.mpr fun e he => ?_
    rcases hn.history e he with hto | hto | hto <;> simp [hto]
  refine ⟨?_, fun j d hd => ?_, ?_, ?_⟩
  · rw [hn.submitted]
    refine forall_claims_update hn.claims (fun j o _ hj => ?_) (Nat.lt_succ_self _)
    exact (h.numbered j o hj).trans (Nat.lt_succ_self _)
  · rw [hn.disputes] at hd
    rw [hn.submitted]
    exact (h.known j d hd).trans (Nat.lt_succ_self _)
  · refine forall_claims_update hn.claims (fun j o _ hj hu => ?_) ?_
    · rw [Unresolved, hn.disputes] at hu
      exact h.disputed j o hj hu
    · rintro ⟨d, hd, -⟩
      rw [hn.disputes] at hd
      exact absurd (h.known _ d hd) (lt_irrefl _)
  · refine forall_claims_update hn.claims (fun j o _ => h.payouts j o) ?_
    rw [hpayouts, if_neg hstatus]

/-- **An event that lets disputed and paid claims stand keeps them settled.** -/
theorem Settled.step {event : Event} (h : Settled s) (hC : LetsStand s event)
    (hstep : step upper cfg event s = some t) : Settled t := by
  cases step_effect hstep with
  | idle hidle => exact h.idle hidle
  | submitted request hop c hn => exact h.submission hn
  | reverifies id hop c c' hw hstatus hpayout hd hv =>
    refine h.write hw ?_ (fun j _ => by rw [hd]) fun hu => ?_
    · rcases hstatus with hc | hc | hc <;> simp [hc]
    · rw [Unresolved, hd] at hu
      rw [h.disputed id c hw.found hu] at hstatus
      simp at hstatus
  | verified v answer hop hawaited hheld c c' hfound hclaims hsubmitted hout hd hv =>
    simp only [LetsStand, hop] at hC
    obtain ⟨hnotDisputed, hnotPaid⟩ := hC hheld c hfound
    have hresolved : ¬ Unresolved t v.claimId := fun hu => by
      rw [Unresolved, hd] at hu
      exact hnotDisputed (h.disputed _ c hfound hu)
    obtain ⟨toStatus, hadvances⟩ := hout.advances
    exact h.write ⟨hfound, hclaims, hsubmitted, hadvances⟩ hnotPaid (fun j _ => by rw [hd])
      fun hu => absurd hu hresolved
  | disputed id disputant reason evidence hop c c' hw hstatus hpayout hnone hd hv =>
    obtain ⟨d, hd, -⟩ := hd
    exact h.write hw hstatus.2.2 (fun j hj => by rw [hd, Function.update_of_ne hj]) fun _ => rfl
  | decided id resolution admin notes hop c c' hw hstatus hpayout hopen hd hv =>
    obtain ⟨d, hd, hres⟩ := hd
    refine h.write hw (by simp [hstatus]) (fun j hj => by rw [hd, Function.update_of_ne hj]) ?_
    rintro ⟨d', hd', hnone⟩
    rw [hd, Function.update_self] at hd'
    cases hd'
    rw [hres] at hnone
    cases hnone
  | paid id txHash admin hop c c' hw hstatus hpayout hd hv =>
    refine h.write hw (by simp [hstatus]) (fun j _ => by rw [hd]) fun hu => ?_
    rw [Unresolved, hd] at hu
    rw [h.disputed id c hw.found hu] at hstatus
    cases hstatus

/-! ## Runs -/

theorem Settled.held (h : Settled s) : DisputesHeld cfg s where
  disputed := h.disputed
  refused := by
    intro id hu now txHash admin
    unfold processPayout
    rcases hfound : s.findById id with ⟨_ | c, u⟩
    · exact ⟨_, rfl⟩
    · have hstatus : c.status ≠ .approved := by
        rw [h.disputed id c (claims_of_found hfound) hu]
        simp
      simp only [hstatus, ne_eq, not_false_eq_true, if_true]
      exact ⟨_, rfl⟩
  paidOnce := by
    intro id c hc
    rw [h.payouts id c hc]
    split
    · exact le_rfl
    · exact zero_le_one

/-- **In a run where no verification goes on over a disputed or a paid claim, disputes hold up their
claims, and claims are paid once, in every state.** -/
theorem disputes_held (upper : String → String) (cfg : ClaimsServiceConfig) (events : List Event)
    (hmeets : Meets (step upper cfg) LetsStand ClaimsService.empty events) (past : List Event)
    (hpast : past <+: events) : DisputesHeld cfg (serviceAfter upper cfg past) := by
  obtain ⟨rest, rfl⟩ := hpast
  have hsettled : Settled (serviceAfter upper cfg past) :=
    (meets_append.mp hmeets).1.invariant (fun _ _ _ hstep hC h => h.step hC hstep) .empty
  exact hsettled.held

namespace Sample

/-- The claim is disputed once it is approved, and paid after the dispute. -/
def disputedAfter : List Event :=
  [⟨5000, .submitClaim request⟩, ⟨5001, .resume awaited priced⟩,
    ⟨5002, .openDispute 0 "bob" "not lost" []⟩,
    ⟨5003, .resolveDispute 0 .approved "admin" none⟩, ⟨5004, .processPayout 0 "tx" "admin"⟩]

theorem disputes_held_disputedAfter :
    DisputesHeld DEFAULT_CONFIG (serviceAfter String.toUpper DEFAULT_CONFIG disputedAfter) :=
  disputes_held String.toUpper DEFAULT_CONFIG disputedAfter (by decide) disputedAfter
    (List.prefix_rfl)

/-- The claim is disputed while its price is awaited. -/
def disputedMeanwhile : List Event :=
  [⟨5000, .submitClaim request⟩, ⟨5001, .openDispute 0 "bob" "not lost" []⟩,
    ⟨5002, .resume awaited priced⟩]

/-- The price is not there at first, and two verifications await it then: the second goes on after
the payout that the first one led to. -/
def verifiedTwice : List Event :=
  [⟨5000, .submitClaim request⟩, ⟨5001, .resume awaited .absent⟩, ⟨5002, .verifyClaim 0⟩,
    ⟨5003, .verifyClaim 0⟩, ⟨5004, .resume ⟨0, .reverification, 5002⟩ priced⟩,
    ⟨5005, .processPayout 0 "tx" "admin"⟩, ⟨5006, .resume ⟨0, .reverification, 5003⟩ priced⟩,
    ⟨5007, .processPayout 0 "tx" "admin"⟩]

/-- **A claim is approved over its dispute, and a claim is paid twice.** -/
theorem approved_over_dispute :
    (¬ ∀ upper cfg events, DisputesHeld cfg (serviceAfter upper cfg events)) ∧
      ((serviceAfter String.toUpper DEFAULT_CONFIG verifiedTwice).claims 0).map
        InsuranceClaim.payouts = some 2 := by
  refine ⟨fun h => ?_, by decide⟩
  have hheld := h String.toUpper DEFAULT_CONFIG disputedMeanwhile
  have hstatus : ((serviceAfter String.toUpper DEFAULT_CONFIG disputedMeanwhile).claims 0).map
      InsuranceClaim.status = some .approved := by decide
  have hopen : ((serviceAfter String.toUpper DEFAULT_CONFIG disputedMeanwhile).disputes 0).map
      DisputeRecord.resolution = some none := by decide
  obtain ⟨c, hc, happroved⟩ := Option.map_eq_some_iff.mp hstatus
  obtain ⟨d, hd, hnone⟩ := Option.map_eq_some_iff.mp hopen
  have hdisputed := hheld.disputed 0 c hc ⟨d, hd, hnone⟩
  rw [happroved] at hdisputed
  cases hdisputed

end Sample

end StellarLend.Insurance
