import StellarLend.Wallet.Nesting

/-!
# Wallet/Authority — who executes batches and who changes the admins

Approvals are counted as they were given: an approver was an admin then, and no approver counts
twice, but whether the approver is an admin still is not asked.  The admins and the threshold change
by a batch or by a recovery.  A recovery takes one guardian and a day; the guardian threshold, which
`set_guardians` takes care to keep within reach, is not asked for (`seized_recovery`).
-/

namespace StellarLend.Wallet

open Foundations Call
open Lending (Address)

variable {wallet : Address} {s t s' : Storage} {id : ℕ}

/-! ## Approvals -/

/-- The approval was given, by an admin of that moment. -/
def GivenByAdmin (s : Storage) (id : ℕ) (a : Address) : Prop :=
  ∃ y ∈ s.endorsements, y.proposalId = id ∧ y.approver = a ∧ a ∈ y.admins

/-- The execution found enough approvals, of different addresses and each given by an admin. -/
structure Execution.Approved (s : Storage) (x : Execution) : Prop where
  enough : x.threshold ≤ x.approvals.length
  distinct : x.approvals.Nodup
  given : ∀ a ∈ x.approvals, GivenByAdmin s x.proposalId a

/-- Approvals are of different addresses and given by admins, those on record and those that
executions found. -/
structure Endorsed (s : Storage) : Prop where
  distinct : ∀ id, (getApprovals s id).Nodup
  given : ∀ id, ∀ a ∈ getApprovals s id, GivenByAdmin s id a
  executed : ∀ x ∈ s.executions, x.Approved s

theorem GivenByAdmin.mono {a : Address} (h : GivenByAdmin s id a)
    (hst : s.endorsements ⊆ t.endorsements) : GivenByAdmin t id a := by
  obtain ⟨y, hy, hrest⟩ := h
  exact ⟨y, hst hy, hrest⟩

theorem Execution.Approved.mono {x : Execution} (h : x.Approved s)
    (hst : s.endorsements ⊆ t.endorsements) : x.Approved t :=
  ⟨h.enough, h.distinct, fun a ha => (h.given a ha).mono hst⟩

/-- Where there are the same approvals and executions, they are as good. -/
theorem Endorsed.of_same (hs : Endorsed s) (happrovals : t.approvals = s.approvals)
    (hendorsements : t.endorsements = s.endorsements) (hexecutions : t.executions = s.executions) :
    Endorsed t := by
  have hmono : s.endorsements ⊆ t.endorsements := by rw [hendorsements]; exact List.Subset.refl _
  have hsame : ∀ id, getApprovals t id = getApprovals s id := fun id => by
    rw [getApprovals, happrovals, getApprovals]
  refine ⟨fun id => ?_, fun id a ha => ?_, fun x hx => ?_⟩
  · rw [hsame]
    exact hs.distinct id
  · rw [hsame] at ha
    exact (hs.given id a ha).mono hmono
  · rw [hexecutions] at hx
    exact (hs.executed x hx).mono hmono

/-- Approvals given to a proposal by an admin. -/
theorem Endorsed.withApprovals (id : ℕ) {approvals : List Address} {approver : Address}
    (hs : Endorsed s) (hadmin : approver ∈ getAdmins s) (hdistinct : approvals.Nodup)
    (hgiven : ∀ a ∈ approvals, a = approver ∨ GivenByAdmin s id a) :
    Endorsed (withApprovals id approvals approver s) := by
  have hmono : s.endorsements ⊆ (Wallet.withApprovals id approvals approver s).endorsements :=
    List.subset_append_left ..
  have happrovals : ∀ id', getApprovals (Wallet.withApprovals id approvals approver s) id' =
      if id' = id then approvals else getApprovals s id' := by
    intro id'
    change (Function.update s.approvals id _ id').getD [] = _
    rw [Function.update_apply]
    split <;> rfl
  refine ⟨fun id' => ?_, fun id' a ha => ?_, fun x hx => (hs.executed x hx).mono hmono⟩
  · rw [happrovals]
    split
    · exact hdistinct
    · exact hs.distinct id'
  · rw [happrovals] at ha
    split at ha <;> rename_i hid
    · subst hid
      rcases hgiven a ha with rfl | hold
      · exact ⟨⟨id', a, getAdmins s⟩, List.mem_append_right _ (List.mem_singleton_self _), rfl, rfl,
          hadmin⟩
      · exact hold.mono hmono
    · exact (hs.given id' a ha).mono hmono

/-- A transaction of the run started the recovery. -/
def Started (wallet : Address) (txs : List Tx) (request : RecoveryRequest) : Prop :=
  ∃ ys tx zs, txs = ys ++ tx :: zs ∧ request.initiatedAt = tx.env.timestamp ∧
    (ledger wallet (ys ++ [tx])).recoveryRequest = some request

/-- The recovery under way is the one from before, or a call started it just now. -/
theorem recoveryRequest_carried (env : Env) (wallet : Address) :
    Carried env wallet fun s t => ∀ request, t.recoveryRequest = some request →
      s.recoveryRequest = some request ∨ request.initiatedAt = env.timestamp where
  refl s request h := .inl h
  trans s t r hst htr request h := (htr request h).elim (hst request) .inr
  change b op s s' h request hrequest := by
    cases h with
    | startRecovery guardian newAdmins newThreshold hauth hguardian hpos hle =>
      obtain rfl := Option.some.inj hrequest
      exact .inr rfl
    | executeRecovery guardian r hauth hguardian hr hdue => cases hrequest
    | _ => exact .inl hrequest
  asked s tx request h := .inl h
  executed n b s executor id p config t h hst request hrequest := hst request hrequest

theorem started_of_recoveryRequest {request : RecoveryRequest} {txs : List Tx}
    (h : (ledger wallet txs).recoveryRequest = some request) : Started wallet txs request := by
  induction txs using List.reverseRecOn with
  | nil => cases h
  | append_singleton ys tx ih =>
    have hcases : (ledger wallet (ys ++ [tx])).recoveryRequest = some request →
        (ledger wallet ys).recoveryRequest = some request ∨
          request.initiatedAt = tx.env.timestamp := by
      rw [ledger_snoc]
      refine exec_induction (P := fun t : Storage => t.recoveryRequest = some request → _) Or.inl
        fun s' hstep => ?_
      exact step_carried (recoveryRequest_carried tx.env wallet) hstep request
    rcases hcases h with hold | hnow
    · obtain ⟨xs, x, zs, rfl, htime, hrequest⟩ := ih hold
      exact ⟨xs, x, zs ++ [tx], by simp, htime, hrequest⟩
    · exact ⟨ys, tx, [], rfl, hnow, h⟩

/-! ## Changes of the admins -/

/-- The admins and the threshold are as before. -/
def SameAuthority (s s' : Storage) : Prop := s'.admins = s.admins ∧ s'.config = s.config

/-- The transaction sets up the wallet. -/
def SetUp (tx : Tx) (s s' : Storage) : Prop :=
  s.config = none ∧ ∃ admins threshold, tx.op = .initializeWallet admins threshold ∧
    s'.admins = some admins ∧ s'.config = some ⟨threshold⟩

/-- The transaction is a guardian's, and executes a recovery that the run started a day ago. -/
def ByRecovery (wallet : Address) (ys : List Tx) (tx : Tx) (s' : Storage) : Prop :=
  ∃ guardian request, tx.op = .executeRecovery guardian ∧ guardian ∈ tx.env.auths ∧
    guardian ∈ getGuardians (ledger wallet ys) ∧
    (ledger wallet ys).recoveryRequest = some request ∧ Started wallet ys request ∧
    request.initiatedAt + 86400 ≤ tx.env.timestamp ∧
    s'.admins = some request.newAdmins ∧ s'.config = some ⟨request.newThreshold⟩

/-- Who signs a transaction is no wallet that calls itself. -/
theorem mem_auths_of_authorises {env : Env} {a : Address}
    (h : (Frame.mk env wallet false).Authorises a) : a ∈ env.auths := by
  unfold Frame.Authorises at h
  split at h
  · cases h
  · exact h

/-- A change that is no batch leaves the admins and the threshold, or sets up the wallet, or is a
recovery. -/
theorem Change.authority {ys : List Tx} {env : Env} {op : Op}
    (h : Change ⟨env, wallet, false⟩ (ledger wallet ys) op s') :
    SameAuthority (ledger wallet ys) s' ∨ SetUp ⟨env, op⟩ (ledger wallet ys) s' ∨
      ByRecovery wallet ys ⟨env, op⟩ s' := by
  cases h with
  | initializeWallet admins threshold hconfig hpos hle =>
    exact .inr (.inl ⟨hconfig, admins, threshold, rfl, rfl, rfl⟩)
  | executeRecovery guardian request hauth hguardian hrequest hdue =>
    exact .inr (.inr ⟨guardian, request, rfl, mem_auths_of_authorises hauth, hguardian, hrequest,
      started_of_recoveryRequest hrequest, hdue, rfl, rfl⟩)
  | addAdmin newAdmin hself => cases hself
  | removeAdmin admin config hself => cases hself
  | setThreshold threshold config hself => cases hself
  | setGuardians guardians threshold hself => cases hself
  | _ => exact .inl ⟨rfl, rfl⟩

namespace Sample

def seizure : Tx := ⟨envAt 86403 [bob], .executeRecovery bob⟩

end Sample

end StellarLend.Wallet
