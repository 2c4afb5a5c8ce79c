import StellarLend.Foundations.History
import StellarLend.Foundations.IndexedMap
import StellarLend.Foundations.Quorum
import StellarLend.Upgrade.Effects

/-!
# Upgrade/Authority — who stands behind an execution

    approve, approve, …      an approver is removed      execute: the list is counted

An execution counts the approvals on the proposal, whoever gave them.  An approval of an address
that was removed since still counts; where that makes the difference, fewer approvers stand behind
the execution than it asks for.

`Registry` tells approvers and proposals apart: no approver is listed twice and the admin is one of
them; no approval of a proposal is counted twice; and a proposal is made under a number that no
proposal had before.
-/

namespace StellarLend.Upgrade

open Foundations Call Function
open Lending (Address)

variable {s s' : Storage} {tx : Tx} {caller approver : Address} {id : ℕ}
  {proposal : UpgradeProposal} {hash : WasmHash} {n : ℕ}

/-! ## The registry -/

/-- The approvers and the proposals are as the contract keeps them. -/
structure Registry (s : Storage) : Prop where
  members : (approvers s).Nodup
  admin : ∀ a, s.admin = some a → a ∈ approvers s
  unused : s.admin = none → ∀ id, s.proposal id = none
  unversioned : s.admin = none → version s = 0
  numbered : ∀ id, nextId s ≤ id → s.proposal id = none
  approvals : ∀ id proposal, s.proposal id = some proposal → proposal.approvals.Nodup

namespace Registry

theorem empty : Registry Storage.empty where
  members := List.nodup_nil
  admin _ h := by cases h
  unused _ _ := rfl
  unversioned _ := rfl
  numbered _ _ := rfl
  approvals _ _ h := by cases h

/-- The admin is the only approver, and no proposal is there. -/
theorem initialized {admin : Address} (hs : Registry s) (h : Initialized s admin hash n s') :
    Registry s' := by
  rw [h.after]
  refine ⟨List.nodup_singleton _, ?_, fun hnone => absurd hnone (Option.some_ne_none _),
    fun hnone => absurd hnone (Option.some_ne_none _), fun id _ => hs.unused h.fresh id,
    hs.approvals⟩
  rintro a ⟨⟩
  exact List.mem_singleton.mpr rfl

theorem joined (hs : Registry s) (h : Joined s caller approver s') : Registry s' := by
  rw [h.after]
  split
  case isTrue => exact hs
  case isFalse hfresh =>
    exact ⟨nodup_snoc hs.members hfresh, fun a ha => List.mem_append_left _ (hs.admin a ha),
      hs.unused, hs.unversioned, hs.numbered, hs.approvals⟩

theorem left (hs : Registry s) (h : Left s caller approver s') : Registry s' := by
  rw [h.after]
  split
  case isTrue =>
    refine ⟨hs.members.erase _, fun a ha => ?_, hs.unused, hs.unversioned, hs.numbered,
      hs.approvals⟩
    obtain rfl := Option.some.inj (h.admin.symm.trans ha)
    exact (List.mem_erase_of_ne h.other.symm).mpr (hs.admin _ h.admin)
  case isFalse => exact hs

/-- Rewriting one proposal, with approvals that are not repeated. -/
theorem saveProposal (hs : Registry s) (hadmin : s.admin ≠ none) (hid : id < nextId s)
    (hnodup : proposal.approvals.Nodup) : Registry (saveProposal id proposal s) where
  members := hs.members
  admin := hs.admin
  unused hnone := absurd hnone hadmin
  unversioned := hs.unversioned
  numbered k hk := (update_of_ne (hid.trans_le hk).ne' _ _).trans (hs.numbered k hk)
  approvals := forall_update hs.approvals hnodup

/-- A proposal that is there has a number below the next. -/
theorem lt_nextId (hs : Registry s) (h : s.proposal id = some proposal) : id < nextId s := by
  by_contra hle
  rw [hs.numbered id (not_lt.mp hle)] at h
  cases h

/-- A proposal is made after the contract is set up. -/
theorem admin_ne_none (hs : Registry s) (h : s.proposal id = some proposal) : s.admin ≠ none := by
  intro hnone
  rw [hs.unused hnone id] at h
  cases h

/-- The new proposal takes the next number. -/
theorem proposed (hs : Registry s) (h : Proposed s caller hash n s') : Registry s' := by
  rw [h.after]
  refine ⟨hs.members, hs.admin, fun hnone => ?_, hs.unversioned, fun k hk => ?_,
    forall_update hs.approvals (List.nodup_singleton _)⟩
  · exact absurd (h.admin.symm.trans hnone) (Option.some_ne_none _)
  · have hlt : nextId s < k := hk
    exact (update_of_ne hlt.ne' _ _).trans (hs.numbered k hlt.le)

/-- Who approves did not approve before. -/
theorem approved (hs : Registry s) (h : Approved s caller id proposal s') : Registry s' := by
  rw [h.after]
  refine hs.saveProposal (hs.admin_ne_none h.proposal_eq) (hs.lt_nextId h.proposal_eq) ?_
  exact nodup_snoc (hs.approvals id _ h.proposal_eq) h.fresh

theorem executed (hs : Registry s) (h : Executed s caller id proposal hash s') : Registry s' := by
  have hnodup : proposal.approvals.Nodup := hs.approvals id _ h.proposal_eq
  have hstarted := hs.admin_ne_none h.proposal_eq
  rw [h.after]
  have hcurrent : Registry { s with
      currentWasmHash := some proposal.newWasmHash
      currentVersion := some proposal.newVersion } :=
    ⟨hs.members, hs.admin, hs.unused, fun hnone => absurd hnone hstarted, hs.numbered, hs.approvals⟩
  exact hcurrent.saveProposal hstarted (hs.lt_nextId h.proposal_eq)
    hnodup

theorem rolledBack (hs : Registry s) (h : RolledBack s caller id proposal hash n s') :
    Registry s' := by
  have hnodup : proposal.approvals.Nodup := hs.approvals id _ h.proposal_eq
  have hstarted := hs.admin_ne_none h.proposal_eq
  rw [h.after]
  have hcurrent : Registry { s with currentWasmHash := some hash, currentVersion := some n } :=
    ⟨hs.members, hs.admin, hs.unused, fun hnone => absurd hnone hstarted, hs.numbered, hs.approvals⟩
  exact hcurrent.saveProposal hstarted (hs.lt_nextId h.proposal_eq)
    hnodup

/-- **Every step keeps the registry.** -/
theorem step (hs : Registry s) (hstep : Upgrade.step tx s = some s') : Registry s' := by
  have heffect := step_effect hstep
  obtain ⟨e, op⟩ := tx
  cases op
  case init => exact hs.initialized heffect
  case addApprover => exact hs.joined heffect
  case removeApprover => exact hs.left heffect
  case upgradePropose => exact hs.proposed heffect
  case upgradeApprove =>
    obtain ⟨proposal, h⟩ := heffect
    exact hs.approved h
  case upgradeExecute =>
    obtain ⟨proposal, hash, h⟩ := heffect
    exact hs.executed h
  case upgradeRollback =>
    obtain ⟨proposal, hash, n, h⟩ := heffect
    exact hs.rolledBack h

/-- **The registry is kept along every run.** -/
theorem ledger (txs : List Tx) : Registry (ledger txs) :=
  run_invariant (fun _ _ _ hstep hs => hs.step hstep) txs empty

end Registry

/-! ## Executions -/

/-- The proposal a transaction executes. -/
def Op.executes : Op → List ℕ
  | .upgradeExecute _ id => [id]
  | _ => []

/-- The proposals a run executes, first to last. -/
def executions (txs : List Tx) : List ℕ :=
  history step (fun _ tx => tx.op.executes) Storage.empty txs

/-- The approvals on record for a proposal. -/
def approvalsOf (s : Storage) (id : ℕ) : List Address :=
  (s.proposal id).elim [] UpgradeProposal.approvals

/-- Executions are of different proposals, each approved by as many approvers of the moment as it
asks for; approvers are not listed twice, the admin is one of them, and a removal leaves enough of
them. -/
structure Authorized (txs : List Tx) : Prop where
  once : (executions txs).Nodup
  approved : ∀ ys tx, ys ++ [tx] <+: txs → (step tx (ledger ys)).isSome = true →
    ∀ id ∈ tx.op.executes, required (ledger ys) ≤
      (standing (approvers (ledger ys)) (approvalsOf (ledger ys) id)).card
  members : ∀ ys, ys <+: txs → (approvers (ledger ys)).Nodup
  admin : ∀ ys, ys <+: txs → ∀ a, (ledger ys).admin = some a → a ∈ approvers (ledger ys)
  removal : ∀ ys e caller approver s', ys ++ [⟨e, .removeApprover caller approver⟩] <+: txs →
    step ⟨e, .removeApprover caller approver⟩ (ledger ys) = some s' →
    approver ∈ approvers (ledger ys) → required s' ≤ (approvers s').length

/-- The proposal is neither executed nor rolled back. -/
def UpgradeProposal.Open (proposal : UpgradeProposal) : Prop :=
  proposal.stage ≠ .executed ∧ proposal.stage ≠ .rolledBack

/-- No approver is removed who approved a proposal that is still open. -/
def ApproversStay (s : Storage) (tx : Tx) : Prop :=
  ∀ caller approver, tx.op = .removeApprover caller approver →
    ∀ id proposal, s.proposal id = some proposal → proposal.Open → approver ∉ proposal.approvals

/-! ## Once -/

/-- A proposal is over: executed, and perhaps rolled back. -/
def Over (s : Storage) (id : ℕ) : Prop :=
  ∃ proposal, s.proposal id = some proposal ∧
    (proposal.stage = .executed ∨ proposal.stage = .rolledBack)

/-- A step changes proposals that are not over, and ends at most one. -/
theorem Over.step (hs : Registry s) (hover : Over s id) (hstep : step tx s = some s') :
    Over s' id := by
  obtain ⟨proposal, hproposal, hstage⟩ := hover
  have hkept : ∀ {k : ℕ} {new : UpgradeProposal}, s'.proposal = update s.proposal k (some new) →
      (k = id → new.stage = .executed ∨ new.stage = .rolledBack) → Over s' id := by
    intro k new hafter hnew
    rcases eq_or_ne k id with rfl | hne
    · exact ⟨new, by rw [hafter, update_self], hnew rfl⟩
    · exact ⟨proposal, by rw [hafter, update_of_ne hne.symm, hproposal], hstage⟩
  have heffect := step_effect hstep
  obtain ⟨e, op⟩ := tx
  cases op
  case init => exact ⟨proposal, by rw [heffect.after]; exact hproposal, hstage⟩
  case addApprover =>
    refine ⟨proposal, ?_, hstage⟩
    rw [Joined.after heffect]
    split <;> exact hproposal
  case removeApprover =>
    refine ⟨proposal, ?_, hstage⟩
    rw [Left.after heffect]
    split <;> exact hproposal
  case upgradePropose =>
    refine hkept (k := nextId s) (by rw [Proposed.after heffect]; rfl) fun hid => ?_
    exact absurd hid (hs.lt_nextId hproposal).ne'
  case upgradeApprove caller k =>
    obtain ⟨pending, h⟩ := heffect
    refine hkept (k := k) (by rw [h.after]; rfl) fun hid => ?_
    obtain rfl := Option.some.inj ((hid ▸ h.proposal_eq).symm.trans hproposal)
    rcases h.pending with hpending | hpending <;> simp [hpending] at hstage
  case upgradeExecute caller k =>
    obtain ⟨pending, hash, h⟩ := heffect
    exact hkept (k := k) (by rw [h.after]; rfl) fun _ => .inl rfl
  case upgradeRollback caller k =>
    obtain ⟨executed, hash, n, h⟩ := heffect
    exact hkept (k := k) (by rw [h.after]; rfl) fun _ => .inr rfl

/-- The executed proposals are over and different. -/
structure Ended (h : List ℕ) (s : Storage) : Prop where
  registry : Registry s
  nodup : h.Nodup
  allOver : ∀ id ∈ h, Over s id

/-- A transaction executes one proposal or none. -/
theorem Op.executes_cases (op : Op) :
    op.executes = [] ∨ ∃ caller id, op = .upgradeExecute caller id := by
  cases op
  case upgradeExecute caller id => exact .inr ⟨caller, id, rfl⟩
  all_goals exact .inl rfl

/-- **What was executed is over**, and is not executed again. -/
theorem Ended.step {h : List ℕ} (hs : Ended h s) (hstep : step tx s = some s') :
    Ended (h ++ tx.op.executes) s' := by
  have hover : ∀ id ∈ h, Over s' id := fun id hid => (hs.allOver id hid).step hs.registry hstep
  refine ⟨hs.registry.step hstep, ?_, ?_⟩
  all_goals
    obtain ⟨e, op⟩ := tx
    obtain hnone | ⟨caller, id, rfl⟩ := op.executes_cases
  · rw [hnone, List.append_nil]
    exact hs.nodup
  · obtain ⟨proposal, hash, hexecuted⟩ := step_effect hstep
    refine nodup_snoc hs.nodup fun ha => ?_
    obtain ⟨proposal', hproposal', hstage⟩ := hs.allOver _ ha
    obtain rfl := Option.some.inj (hexecuted.proposal_eq.symm.trans hproposal')
    exact hstage.elim hexecuted.pending.1 hexecuted.pending.2
  · rw [hnone, List.append_nil]
    exact hover
  · intro k hk
    obtain hk | hk := List.mem_append.mp hk
    · exact hover k hk
    · obtain rfl := List.mem_singleton.mp hk
      obtain ⟨proposal, hash, hexecuted⟩ := step_effect hstep
      exact ⟨_, by rw [hexecuted.after]; exact update_self .., .inl rfl⟩

/-- **No proposal is executed twice**, in any run. -/
theorem executions_nodup (txs : List Tx) : (executions txs).Nodup :=
  (history_invariant (I := Ended) (h := []) (fun _ _ _ _ hstep hs => hs.step hstep) txs
    ⟨Registry.empty, List.nodup_nil, fun _ h => absurd h List.not_mem_nil⟩).nodup

/-! ## By those who are approvers -/

/-- Who approved a proposal that is still open is an approver. -/
structure Upheld (s : Storage) : Prop where
  registry : Registry s
  present : ∀ id proposal, s.proposal id = some proposal → proposal.Open →
    ∀ a ∈ proposal.approvals, a ∈ approvers s

namespace Upheld

theorem empty : Upheld Storage.empty := ⟨Registry.empty, fun _ _ h => by cases h⟩

/-- One proposal is rewritten, and the approvers stay. -/
theorem rewritten (hs : Upheld s) (hregistry : Registry s')
    (happrovers : approvers s' = approvers s)
    (hafter : s'.proposal = update s.proposal id (some proposal))
    (hnew : proposal.Open → ∀ a ∈ proposal.approvals, a ∈ approvers s) : Upheld s' := by
  refine ⟨hregistry, ?_⟩
  rw [hafter, happrovers]
  exact forall_update hs.present hnew

theorem joined (hs : Upheld s) (h : Joined s caller approver s') : Upheld s' := by
  refine ⟨hs.registry.joined h, ?_⟩
  rw [h.after]
  split
  case isTrue => exact hs.present
  case isFalse =>
    exact fun id proposal hproposal hopen a ha =>
      List.mem_append_left _ (hs.present id proposal hproposal hopen a ha)

/-- Who leaves has no approval on an open proposal. -/
theorem left (hs : Upheld s) (h : Left s caller approver s')
    (hstay : ∀ id proposal, s.proposal id = some proposal → proposal.Open →
      approver ∉ proposal.approvals) : Upheld s' := by
  refine ⟨hs.registry.left h, ?_⟩
  rw [h.after]
  split
  case isTrue =>
    intro id proposal hproposal hopen a ha
    have hne : a ≠ approver := ne_of_mem_of_not_mem ha (hstay id proposal hproposal hopen)
    exact (List.mem_erase_of_ne hne).mpr (hs.present id proposal hproposal hopen a ha)
  case isFalse => exact hs.present

/-- **Where approvers of open proposals stay, a step keeps it that who approved is an approver.** -/
theorem step (hs : Upheld s) (hstep : Upgrade.step tx s = some s') (hC : ApproversStay s tx) :
    Upheld s' := by
  have hregistry := hs.registry.step hstep
  have heffect := step_effect hstep
  obtain ⟨e, op⟩ := tx
  cases op
  case init =>
    refine ⟨hregistry, fun id proposal hproposal => ?_⟩
    rw [heffect.after] at hproposal
    cases (hs.registry.unused heffect.fresh id).symm.trans hproposal
  case addApprover => exact hs.joined heffect
  case removeApprover caller approver => exact hs.left heffect (hC caller approver rfl)
  case upgradePropose =>
    refine hs.rewritten hregistry (by rw [Proposed.after heffect]; rfl)
      (by rw [Proposed.after heffect]; rfl) fun _ a ha => ?_
    obtain rfl := List.mem_singleton.mp ha
    exact hs.registry.admin _ heffect.admin
  case upgradeApprove caller id =>
    obtain ⟨proposal, h⟩ := heffect
    refine hs.rewritten hregistry (by rw [h.after]; rfl) (by rw [h.after]; rfl) fun _ a ha => ?_
    have hopen : proposal.Open := by
      rcases h.pending with hpending | hpending <;> simp [UpgradeProposal.Open, hpending]
    rcases List.mem_append.mp ha with ha | ha
    · exact hs.present id proposal h.proposal_eq hopen a ha
    · obtain rfl := List.mem_singleton.mp ha
      exact h.member
  case upgradeExecute =>
    obtain ⟨proposal, hash, h⟩ := heffect
    exact hs.rewritten hregistry (by rw [h.after]; rfl) (by rw [h.after]; rfl)
      fun hopen => absurd rfl hopen.1
  case upgradeRollback =>
    obtain ⟨proposal, hash, n, h⟩ := heffect
    exact hs.rewritten hregistry (by rw [h.after]; rfl) (by rw [h.after]; rfl)
      fun hopen => absurd rfl hopen.2

theorem ledger {txs : List Tx} (h : Meets Upgrade.step ApproversStay Storage.empty txs) :
    Upheld (ledger txs) :=
  h.invariant (fun _ _ _ hstep hC hs => hs.step hstep hC) empty

/-- **An execution is backed by as many approvers as it asks for**: it counts a list of approvers
who are all there. -/
theorem enough (hs : Upheld s) {hash : WasmHash} (h : Executed s caller id proposal hash s') :
    required s ≤ (standing (approvers s) (approvalsOf s id)).card := by
  have hof : approvalsOf s id = proposal.approvals := by
    rw [approvalsOf, h.proposal_eq]
    rfl
  rw [hof]
  exact le_card_standing_of_mem (hs.registry.approvals id proposal h.proposal_eq)
    (hs.present id proposal h.proposal_eq h.pending) h.enough

end Upheld

/-- Enough approvers are left. -/
theorem Left.length_le (h : Left s caller approver s') (hmem : approver ∈ approvers s) :
    required s' ≤ (approvers s').length := by
  rw [h.after, if_pos hmem]
  exact h.enough hmem

/-- **A run is authorized if no approver of an open proposal is removed in it.** -/
theorem authorized_of_approversStay {txs : List Tx}
    (h : Meets step ApproversStay Storage.empty txs) : Authorized txs := by
  refine ⟨executions_nodup txs, ?_, fun ys _ => (Registry.ledger ys).members,
    fun ys _ => (Registry.ledger ys).admin, ?_⟩
  · rintro ys ⟨e, op⟩ ⟨zs, rfl⟩ hsome id hid
    obtain ⟨s', hstep⟩ := Option.isSome_iff_exists.mp hsome
    obtain hnone | ⟨caller, k, rfl⟩ := op.executes_cases
    · rw [hnone] at hid
      cases hid
    · obtain rfl := List.mem_singleton.mp hid
      obtain ⟨proposal, hash, hexecuted⟩ := step_effect hstep
      rw [List.append_assoc] at h
      exact (Upheld.ledger (meets_append.mp h).1).enough hexecuted
  · intro ys e caller approver s' _ hstep hmem
    exact (step_effect hstep).length_le hmem

/-! ## Approvers who leave -/

namespace Sample

def admin : Address := ⟨0⟩
def alice : Address := ⟨1⟩
def bob : Address := ⟨2⟩

def signed (a : Address) (op : Op) : Tx := ⟨⟨[a]⟩, op⟩

/-- Three approvers, of whom two are needed. -/
def deploy : List Tx :=
  [signed admin (.init admin 0 2), signed admin (.addApprover admin alice),
    signed admin (.addApprover admin bob)]

/-- Alice approves and is removed; with her approval, the admin's own is enough. -/
def removal : List Tx :=
  deploy ++ [signed admin (.upgradePropose admin 1 1), signed alice (.upgradeApprove alice 1),
    signed admin (.removeApprover admin alice)]

def execution : Tx := signed admin (.upgradeExecute admin 1)

/-- Bob, who did not approve, is removed. -/
def departure : List Tx :=
  deploy ++ [signed admin (.upgradePropose admin 1 1), signed alice (.upgradeApprove alice 1),
    signed admin (.removeApprover admin bob)]

end Sample

theorem authorized_of_approversStay_departure :
    Authorized (Sample.departure ++ [Sample.execution]) := by
  refine authorized_of_approversStay ⟨fun _ _ _ h => ?_, fun _ _ _ h => ?_, fun _ _ _ h => ?_,
    fun _ _ _ h => ?_, fun _ _ _ h => ?_, fun _ _ _ h id proposal hproposal _ => ?_,
    fun _ _ _ h => ?_, trivial⟩
  case refine_6 =>
    cases h
    have hlt : id < 2 := (Registry.ledger (Sample.departure.take 5)).lt_nextId hproposal
    have hall : ∀ k < 2, ∀ p ∈ (ledger (Sample.departure.take 5)).proposal k,
        Sample.bob ∉ p.approvals := by decide
    exact hall id hlt proposal hproposal
  all_goals cases h

theorem not_authorized_removal : ¬ Authorized (Sample.removal ++ [Sample.execution]) := by
  intro h
  have happroved := h.approved Sample.removal Sample.execution (List.prefix_refl _)
    (by decide) 1 (by decide)
  revert happroved
  decide

end StellarLend.Upgrade
