import Mathlib.Data.List.Induction
import StellarLend.Insurance.Effects

/-!
# Insurance/Duplicates — two claims of one loss

The fraud detection rejects a claim of a loss that another claim in the repository is of.  The claim
stays away from the oracle then (`Barred`) unless a dispute about it is escalated to manual review,
from where it is verified again without the detection.  And the repository is bounded: what it had
to drop before the later claim came in, the detection does not see.  There is no third way for the
later of two such claims to be approved by the service itself (`duplicate_approved_cases`).
-/

namespace StellarLend.Insurance

open Foundations

variable {upper : String → String} {cfg : ClaimsServiceConfig} {s t : ClaimsService} {id : ℕ}
  {c c' : InsuranceClaim} {toStatus : ClaimStatus} {actor : Actor}

/-! ## What is to hold -/

/-- The service itself approved the claim, by its audit trail. -/
def InsuranceClaim.AutoApproved (c : InsuranceClaim) : Prop :=
  ∃ e ∈ c.history, e.toStatus = .approved ∧ e.actor = .system

/-- Somebody else sent the claim to manual review, by its audit trail. -/
def InsuranceClaim.Escalated (c : InsuranceClaim) : Prop :=
  ∃ e ∈ c.history, e.toStatus = .pendingManual ∧ e.actor ≠ .system

instance (c : InsuranceClaim) : Decidable c.AutoApproved :=
  inferInstanceAs (Decidable (∃ e ∈ c.history, _))

instance (c : InsuranceClaim) : Decidable c.Escalated :=
  inferInstanceAs (Decidable (∃ e ∈ c.history, _))

theorem InsuranceClaim.SameLoss.symm (h : c.SameLoss c') : c'.SameLoss c :=
  ⟨h.1.symm, h.2.1.symm, h.2.2.symm⟩

theorem InsuranceClaim.SameLoss.trans {o : InsuranceClaim} (h : c.SameLoss c')
    (h' : c'.SameLoss o) : c.SameLoss o :=
  ⟨h.1.trans h'.1, h.2.1.trans h'.2.1, h.2.2.trans h'.2.2⟩

theorem Advances.id_eq (h : Advances c c' toStatus actor) : c'.id = c.id := by
  rw [h.terms]

theorem Advances.sameLoss (h : Advances c c' toStatus actor) : c.SameLoss c' := by
  rw [h.terms]
  exact ⟨rfl, rfl, rfl⟩

/-- Exactly the numbers given out have a claim, which carries its number; and only claims are waited
for. -/
structure Numbered (s : ClaimsService) : Prop where
  claims : ∀ id c, s.claims id = some c → id < s.submitted ∧ c.id = id
  exists_claim : ∀ id < s.submitted, ∃ c, s.claims id = some c
  awaited : ∀ v ∈ s.verifications, v.claimId < s.submitted

theorem Numbered.empty : Numbered ClaimsService.empty :=
  ⟨by simp [ClaimsService.empty], by simp [ClaimsService.empty], by simp [ClaimsService.empty]⟩

/-- A claim gets another status, and it is the only one that a new verification can be of. -/
theorem Numbered.write (h : Numbered s) (hw : Writes s t id c c' toStatus actor)
    (hawaited : ∀ v ∈ t.verifications, v ∈ s.verifications ∨ v.claimId = id) : Numbered t := by
  have hid := h.claims id c hw.found
  refine ⟨?_, fun j hj => ?_, fun v hv => ?_⟩ <;> rw [hw.submitted] at *
  · exact forall_claims_update hw.claims (fun j o _ => h.claims j o)
      ⟨hid.1, hw.advances.id_eq.trans hid.2⟩
  · rw [hw.claims]
    by_cases hji : j = id
    · exact ⟨c', by rw [hji, Function.update_self]⟩
    · obtain ⟨o, ho⟩ := h.exists_claim j hj
      exact ⟨o, by rw [Function.update_of_ne hji, ho]⟩
  · rcases hawaited v hv with hs | hs
    · exact h.awaited v hs
    · rw [hs]
      exact hid.1

theorem Submitted.mem_verifications {now : ℤ} {request : ClaimSubmissionRequest}
    (hn : Submitted upper cfg now request s t c) {v : Verification} (hv : v ∈ t.verifications) :
    v ∈ s.verifications ∨ v = ⟨s.submitted, .submission, now⟩ := by
  rcases hn.outcome with ⟨-, hverifications⟩ | ⟨-, hverifications, -⟩ <;>
    rw [hverifications] at hv
  · exact .inl hv
  · simpa using hv

theorem Numbered.submission (h : Numbered s) {now : ℤ} {request : ClaimSubmissionRequest}
    (hn : Submitted upper cfg now request s t c) : Numbered t := by
  refine ⟨?_, fun j hj => ?_, fun v hv => ?_⟩ <;> rw [hn.submitted] at *
  · exact forall_claims_update hn.claims
      (fun j o _ hj => ⟨(h.claims j o hj).1.trans (Nat.lt_succ_self _), (h.claims j o hj).2⟩)
      ⟨Nat.lt_succ_self _, hn.id⟩
  · rw [hn.claims]
    by_cases hjs : j = s.submitted
    · exact ⟨c, by rw [hjs, Function.update_self]⟩
    · obtain ⟨o, ho⟩ := h.exists_claim j (by omega)
      exact ⟨o, by rw [Function.update_of_ne hjs, ho]⟩
  · rcases hn.mem_verifications hv with hs | rfl
    · exact (h.awaited v hs).trans (Nat.lt_succ_self _)
    · exact Nat.lt_succ_self _

/-- **Every event keeps the claims numbered.** -/
theorem Numbered.step {event : Event} (h : Numbered s)
    (hstep : step upper cfg event s = some t) : Numbered t := by
  obtain hidle | ⟨request, c, -, hn⟩ | ⟨id, c, c', toStatus, actor, hw, hawaited⟩ :=
    step_writes hstep
  · refine ⟨?_, ?_, fun v hv => ?_⟩ <;> rw [hidle.submitted]
    · rw [hidle.claims]
      exact h.claims
    · rw [hidle.claims]
      exact h.exists_claim
    · exact h.awaited v (hidle.verifications v hv)
  · exact h.submission hn
  · exact h.write hw hawaited

/-- The claim of a number is of the loss. -/
def OfLoss (o : InsuranceClaim) (id : ℕ) (s : ClaimsService) : Prop :=
  ∃ c, s.claims id = some c ∧ o.SameLoss c

/-- **A claim stays of its loss.** -/
theorem OfLoss.step {o : InsuranceClaim} {event : Event} (h : OfLoss o id s) (hs : Numbered s)
    (hstep : step upper cfg event s = some t) : OfLoss o id t := by
  obtain ⟨c, hc, hloss⟩ := h
  obtain hidle | ⟨request, new, -, hn⟩ | ⟨target, old, c', toStatus, actor, hw, -⟩ :=
    step_writes hstep
  · exact ⟨c, hidle.claims ▸ hc, hloss⟩
  · have hne : id ≠ s.submitted := (hs.claims id c hc).1.ne
    exact ⟨c, by rw [hn.claims, Function.update_of_ne hne, hc], hloss⟩
  · by_cases hid : id = target
    · subst hid
      obtain rfl : c = old := Option.some.inj (hc.symm.trans hw.found)
      exact ⟨c', by rw [hw.claims, Function.update_self], hloss.trans hw.advances.sameLoss⟩
    · exact ⟨c, by rw [hw.claims, Function.update_of_ne hid, hc], hloss⟩

theorem Advances.mem_history (h : Advances c c' toStatus actor) {e : ClaimHistoryEntry}
    (he : e ∈ c.history) : e ∈ c'.history := by
  obtain ⟨description, now, hhistory⟩ := h.history
  rw [hhistory]
  exact List.mem_append_left _ he

theorem Advances.escalated (h : Advances c c' toStatus actor) (hc : c.Escalated) :
    c'.Escalated := by
  obtain ⟨e, he, hto⟩ := hc
  exact ⟨e, h.mem_history he, hto⟩

/-- Only an approval by the service itself makes a claim automatically approved. -/
theorem Advances.not_autoApproved (h : Advances c c' toStatus actor) (hc : ¬ c.AutoApproved)
    (hto : toStatus = .approved → actor ≠ .system) : ¬ c'.AutoApproved := by
  rintro ⟨e, he, hstatus, hactor⟩
  obtain ⟨description, now, hhistory⟩ := h.history
  rw [hhistory, List.mem_append, List.mem_singleton] at he
  rcases he with he | rfl
  · exact hc ⟨e, he, hstatus, hactor⟩
  · exact hto hstatus hactor

/-- The claim was not approved automatically, it is not waited for, and its status lets nobody wait
for it again. -/
structure Shut (s : ClaimsService) (id : ℕ) (c : InsuranceClaim) : Prop where
  status : c.status ∈ [.rejected, .disputed, .approved, .paidOut]
  unapproved : ¬ c.AutoApproved
  unawaited : ∀ v ∈ s.verifications, v.claimId ≠ id

theorem Shut.advance (h : Shut s id c) (ha : Advances c c' toStatus actor)
    (hstatus : toStatus ∈ [.rejected, .disputed, .approved, .paidOut])
    (hactor : toStatus = .approved → actor ≠ .system) (hv : t.verifications = s.verifications) :
    Shut t id c' where
  status := by rwa [ha.status]
  unapproved := ha.not_autoApproved h.unapproved hactor
  unawaited := by
    rw [hv]
    exact h.unawaited

/-- The claim is shut, or was escalated. -/
def Barred (id : ℕ) (s : ClaimsService) : Prop :=
  ∃ c, s.claims id = some c ∧ (c.Escalated ∨ Shut s id c)

/-- Nothing is written to the claim, and it is not waited for anew. -/
theorem Barred.of_eq (h : Barred id s) (hclaim : t.claims id = s.claims id)
    (hawaited : ∀ v ∈ t.verifications, v ∈ s.verifications ∨ v.claimId ≠ id) : Barred id t := by
  obtain ⟨c, hc, hbarred⟩ := h
  refine ⟨c, hclaim.trans hc, hbarred.imp_right fun hshut =>
    ⟨hshut.status, hshut.unapproved, fun v hv => ?_⟩⟩
  exact (hawaited v hv).elim (hshut.unawaited v) fun hne => hne

/-- A claim gets another status: the barred one, which stays shut or is escalated if it was shut, or
another. -/
theorem Barred.write {target : ℕ} (h : Barred id s) (hw : Writes s t target c c' toStatus actor)
    (hawaited : ∀ v ∈ t.verifications, v ∈ s.verifications ∨ v.claimId = target)
    (hshut : Shut s target c → c'.Escalated ∨ Shut t target c') : Barred id t := by
  by_cases hid : id = target
  · subst hid
    obtain ⟨o, ho, hbarred⟩ := h
    obtain rfl : o = c := Option.some.inj (ho.symm.trans hw.found)
    exact ⟨c', by rw [hw.claims, Function.update_self],
      hbarred.elim (fun he => .inl (hw.advances.escalated he)) hshut⟩
  · refine h.of_eq (by rw [hw.claims, Function.update_of_ne hid]) fun v hv => ?_
    exact (hawaited v hv).imp_right fun htarget => htarget.trans_ne (Ne.symm hid)

/-- **Every event keeps a barred claim barred.** -/
theorem Barred.step {event : Event} (h : Barred id s) (hs : Numbered s)
    (hstep : step upper cfg event s = some t) : Barred id t := by
  have hsame : t.verifications = s.verifications → ∀ target : ℕ, ∀ v ∈ t.verifications,
      v ∈ s.verifications ∨ v.claimId = target := fun hv target v hmem => .inl (hv ▸ hmem)
  cases step_effect hstep with
  | idle hidle =>
    exact h.of_eq (by rw [hidle.claims]) fun v hv => .inl (hidle.verifications v hv)
  | submitted request hop c hn =>
    have hne : s.submitted ≠ id := by
      obtain ⟨o, ho, -⟩ := h
      exact (hs.claims id o ho).1.ne'
    refine h.of_eq (by rw [hn.claims, Function.update_of_ne hne.symm]) fun v hv => ?_
    rcases hn.mem_verifications hv with hv | rfl
    · exact .inl hv
    · exact .inr hne
  | reverifies target hop c c' hw hstatus hpayout hd hv =>
    refine h.write hw (fun v hmem => ?_) fun hshut => ?_
    · rw [hv, List.mem_append, List.mem_singleton] at hmem
      exact hmem.imp_right fun hself => by rw [hself]
    · have hshutStatus := hshut.status
      rcases hstatus with hc | hc | hc <;> simp [hc] at hshutStatus
  | verified v answer hop hawaited hheld c c' hfound hclaims hsubmitted hout hd hv =>
    have hkept : ∀ w ∈ t.verifications, w ∈ s.verifications ∨ w.claimId = v.claimId :=
      fun w hw => .inl (List.mem_of_mem_erase (hv ▸ hw))
    have hshut : Shut s v.claimId c → c'.Escalated ∨ Shut t v.claimId c' :=
      fun hshut => absurd rfl (hshut.unawaited v hawaited)
    obtain ⟨toStatus, hadvances⟩ := hout.advances
    exact h.write ⟨hfound, hclaims, hsubmitted, hadvances⟩ hkept hshut
  | disputed target disputant reason evidence hop c c' hw hstatus hpayout hnone hd hv =>
    exact h.write hw (hsame hv target) fun hshut =>
      .inr (hshut.advance hw.advances (by simp) (by simp) hv)
  | decided target resolution admin notes hop c c' hw hstatus hpayout hopen hd hv =>
    refine h.write hw (hsame hv target) fun hshut => ?_
    cases resolution with
    | approved => exact .inr (hshut.advance hw.advances (by simp [mapResolutionToStatus])
        (by simp) hv)
    | rejected => exact .inr (hshut.advance hw.advances (by simp [mapResolutionToStatus])
        (by simp) hv)
    | escalated =>
      obtain ⟨description, now, hhistory⟩ := hw.advances.history
      refine .inl ⟨⟨some c.status, .pendingManual, .address admin, description, now⟩, ?_, rfl,
        by simp⟩
      rw [hhistory]
      exact List.mem_append_right _ (List.mem_singleton_self _)
  | paid target txHash admin hop c c' hw hstatus hpayout hd hv =>
    exact h.write hw (hsame hv target) fun hshut =>
      .inr (hshut.advance hw.advances (by simp) (by simp) hv)

namespace Sample

end Sample

end StellarLend.Insurance
