import Mathlib.Tactic.IntervalCases
import StellarLend.Foundations.History
import StellarLend.Foundations.Quorum
import StellarLend.Governance.Steps

/-!
# Governance/Succession — the recovery of an admin

    start ──▸ approve … ──▸ (a guardian is removed) ──▸ execute
    start ──▸ (the request expires) ──▸ start ✗

An execution counts the approvals on record, whoever gave them, so an approval of somebody who is no
guardian any more still counts.  And a request that has expired stays where it is: the calls that
remove it fail with the removal, and the next start fails for it.
-/

namespace StellarLend.Governance

open Foundations Call Function
open Lending (Address)

variable {e : HelloWorld.Env} {s s' : Storage} {tx : Tx}

/-! ## What happened to a request -/

inductive RecoveryAct where
  | started (initiator oldAdmin newAdmin : Address)
  | approved (approver : Address)
  | executed
  deriving DecidableEq

/-- What a call does to the request, in either module. -/
def Op.recoveryActs : Op → List RecoveryAct
  | .startRecovery initiator oldAdmin newAdmin => [.started initiator oldAdmin newAdmin]
  | .approveRecovery approver => [.approved approver]
  | .executeRecovery _ => [.executed]
  | .recovery (.startRecovery initiator oldAdmin newAdmin) =>
    [.started initiator oldAdmin newAdmin]
  | .recovery (.approveRecovery approver) => [.approved approver]
  | .recovery (.executeRecovery _) => [.executed]
  | _ => []

theorem Op.recoveryActs_of_quiet {op : Op} (h : op.onCouncils = false) : op.recoveryActs = [] := by
  cases op <;> first | rfl | cases h

/-- What a transaction does to the request, and when. -/
def Tx.recoveryEvents (tx : Tx) : List (ℕ × RecoveryAct) :=
  tx.op.recoveryActs.map fun act => (tx.env.timestamp, act)

/-- What a run did to requests, first to last. -/
def recoveryEvents (txs : List Tx) : List (ℕ × RecoveryAct) :=
  history step (fun _ tx => tx.recoveryEvents) Storage.empty txs

/-- A request and who approved it when. -/
structure Proceeding where
  request : RecoveryRequest
  approvals : List (ℕ × Address)
  deriving DecidableEq

/-- A start opens a proceeding, an approval goes on with it, an execution closes it. -/
def Proceeding.after (pr : Option Proceeding) : ℕ × RecoveryAct → Option Proceeding
  | (now, .started initiator oldAdmin newAdmin) =>
    some ⟨requestOf now initiator oldAdmin newAdmin, [(now, initiator)]⟩
  | (now, .approved approver) =>
    pr.map fun pr => { pr with approvals := pr.approvals ++ [(now, approver)] }
  | (_, .executed) => none

/-- The proceeding that is open after some events. -/
def proceeding (h : List (ℕ × RecoveryAct)) : Option Proceeding := h.foldl Proceeding.after none

theorem proceeding_snoc (h : List (ℕ × RecoveryAct)) (event : ℕ × RecoveryAct) :
    proceeding (h ++ [event]) = Proceeding.after (proceeding h) event := by
  rw [proceeding, List.foldl_append]
  rfl

/-- Who approved the request before it expired. -/
def Proceeding.timely (pr : Proceeding) : List Address :=
  (pr.approvals.filter (·.1 ≤ pr.request.expiresAt)).map Prod.snd

/-- A guardian starts a recovery, and no request is in the way but an expired one. -/
def Startable (s : Storage) (tx : Tx) : Prop :=
  ∃ initiator oldAdmin newAdmin g, tx.op = .startRecovery initiator oldAdmin newAdmin ∧
    initiator ∈ tx.env.auths ∧ s.guardianConfig = some g ∧ initiator ∈ g.guardians ∧
    tx.env.timestamp + DEFAULT_RECOVERY_PERIOD ≤ U64.MAX ∧
    ∀ r, s.recoveryRequest = some r → r.expiresAt < tx.env.timestamp

/-- Every execution is of a request that enough guardians of the moment approved before it expired,
and an expired request is in nobody's way. -/
structure Recoverable (txs : List Tx) : Prop where
  approved : ∀ ys tx zs s', txs = ys ++ tx :: zs → step tx (ledger ys) = some s' →
    ∀ executor, tx.op = .executeRecovery executor → ∃ pr g,
      proceeding (recoveryEvents ys) = some pr ∧
      (ledger ys).recoveryRequest = some pr.request ∧ (ledger ys).guardianConfig = some g ∧
      g.threshold ≤ (standing g.guardians pr.timely).card
  restarted : ∀ ys tx zs, txs = ys ++ tx :: zs → Startable (ledger ys) tx →
    (step tx (ledger ys)).isSome = true

/-- No guardian is removed whose approval is on record, and who starts or approves through
`recovery.rs` is a guardian of governance. -/
def GuardiansStay (s : Storage) (tx : Tx) : Prop :=
  match tx.op with
  | .removeGuardian _ guardian => guardian ∉ recoveryApprovals s
  | .recovery (.startRecovery initiator _ _) => initiator ∈ (guardianConfig s).guardians
  | .recovery (.approveRecovery approver) => approver ∈ (guardianConfig s).guardians
  | _ => True

/-! ## The request on record -/

/-- The store has the open proceeding, and nobody approved twice. -/
structure Tracked (h : List (ℕ × RecoveryAct)) (s : Storage) : Prop where
  request : s.recoveryRequest = (proceeding h).map Proceeding.request
  approvals : ∀ pr, proceeding h = some pr → recoveryApprovals s = pr.approvals.map Prod.snd
  nodup : (recoveryApprovals s).Nodup

namespace Tracked

variable {h : List (ℕ × RecoveryAct)}

theorem empty : Tracked [] Storage.empty where
  request := rfl
  approvals _ hpr := by cases hpr
  nodup := List.nodup_nil

theorem kept (hs : Tracked h s) (hrequest : s'.recoveryRequest = s.recoveryRequest)
    (happrovals : s'.recoveryApprovals = s.recoveryApprovals) : Tracked h s' := by
  have hsame : recoveryApprovals s' = recoveryApprovals s := by
    rw [recoveryApprovals, happrovals, recoveryApprovals]
  exact ⟨hrequest.trans hs.request, fun pr hpr => hsame.trans (hs.approvals pr hpr),
    hsame ▸ hs.nodup⟩

theorem started {initiator oldAdmin newAdmin : Address}
    (hstart : RecoveryStarted e s initiator oldAdmin newAdmin s') :
    Tracked (h ++ [(e.timestamp, .started initiator oldAdmin newAdmin)]) s' := by
  rw [hstart.after]
  refine ⟨?_, fun pr hpr => ?_, List.nodup_singleton initiator⟩
  · rw [proceeding_snoc]
    rfl
  · rw [proceeding_snoc] at hpr
    cases hpr
    rfl

theorem approved {approver : Address} (hs : Tracked h s)
    (happrove : RecoveryApproved s approver s') :
    Tracked (h ++ [(e.timestamp, .approved approver)]) s' := by
  rw [happrove.after]
  refine ⟨?_, fun pr' hpr => ?_, nodup_snoc hs.nodup happrove.fresh⟩
  · rw [proceeding_snoc]
    change s.recoveryRequest = _
    rw [hs.request, Proceeding.after, Option.map_map]
    rfl
  · rw [proceeding_snoc] at hpr
    obtain ⟨pr, hbefore, rfl⟩ := Option.map_eq_some_iff.mp hpr
    change recoveryApprovals s ++ [approver] = _
    rw [hs.approvals pr hbefore, List.map_append]
    rfl

theorem closed : Tracked (h ++ [(e.timestamp, .executed)]) (closeRecovery s) := by
  refine ⟨?_, fun pr hpr => ?_, List.nodup_nil⟩
  · rw [proceeding_snoc]
    rfl
  · rw [proceeding_snoc] at hpr
    cases hpr

theorem step (hs : Tracked h s) (hstep : Governance.step tx s = some s') :
    Tracked (h ++ tx.recoveryEvents) s' := by
  obtain ⟨e, op⟩ := tx
  have hnone : op.recoveryActs = [] → s'.recoveryRequest = s.recoveryRequest →
      s'.recoveryApprovals = s.recoveryApprovals → Tracked (h ++ Tx.recoveryEvents ⟨e, op⟩) s' := by
    intro hacts hrequest happrovals
    rw [Tx.recoveryEvents, hacts, List.map_nil, List.append_nil]
    exact hs.kept hrequest happrovals
  cases step_councils hstep with
  | quiet hquiet hsame =>
    exact hnone (Op.recoveryActs_of_quiet hquiet) hsame.recoveryRequest hsame.recoveryApprovals
  | setUp hafter | multisigSet hafter | adminsSet _ hafter | thresholdSet _ hafter
  | distinctSet _ hafter | guardianAdded hafter | guardianRemoved hafter
  | guardianThresholdSet hafter =>
    exact hnone rfl (by rw [hafter.after]) (by rw [hafter.after])
  | recoveryStarted _ _ hstart => exact started hstart
  | recoveryApproved _ _ _ happrove => exact hs.approved happrove
  | recoveryExecuted hexecute =>
    rw [hexecute.after]
    exact closed
  | recovery hstep =>
    cases hstep with
    | guardiansSet hafter => exact hnone rfl (by rw [hafter.after]) (by rw [hafter.after])
    | guardianAdded | guardianRemoved | thresholdSet => exact hnone rfl rfl rfl
    | started hstart => exact started hstart
    | approved happrove => exact hs.approved happrove
    | executed hexecute =>
      rw [hexecute.after]
      exact closed

theorem ledger (txs : List Tx) : Tracked (recoveryEvents txs) (ledger txs) :=
  history_invariant (I := Tracked) (h := []) (fun _ _ _ _ hstep hs => hs.step hstep) txs empty

end Tracked

/-! ## The clock -/

/-- Whoever approves in a proceeding does so in an event. -/
theorem mem_proceeding {h : List (ℕ × RecoveryAct)} {pr : Proceeding}
    (hpr : proceeding h = some pr) : ∀ x ∈ pr.approvals, ∃ event ∈ h, event.1 = x.1 := by
  induction h using List.reverseRecOn generalizing pr with
  | nil => cases hpr
  | append_singleton h event ih =>
    rw [proceeding_snoc] at hpr
    have hlast : ∃ event' ∈ h ++ [event], event'.1 = event.1 :=
      ⟨event, List.mem_append_right _ List.mem_cons_self, rfl⟩
    obtain ⟨now, act⟩ := event
    intro x hx
    cases act with
    | started =>
      cases hpr
      obtain rfl := List.mem_singleton.mp hx
      exact hlast
    | approved =>
      obtain ⟨pr, hbefore, rfl⟩ := Option.map_eq_some_iff.mp hpr
      rcases List.mem_append.mp hx with hx | hx
      · obtain ⟨event, hevent, htime⟩ := ih hbefore x hx
        exact ⟨event, List.mem_append_left _ hevent, htime⟩
      · obtain rfl := List.mem_singleton.mp hx
        exact hlast
    | executed => cases hpr

/-- **What is executed in time was approved in time.** -/
theorem timely_eq {ys zs : List Tx} {pr : Proceeding} (hclock : Clocked (ys ++ tx :: zs))
    (hpr : proceeding (recoveryEvents ys) = some pr)
    (hintime : tx.env.timestamp ≤ pr.request.expiresAt) :
    pr.timely = recoveryApprovals (ledger ys) := by
  rw [(Tracked.ledger ys).approvals pr hpr, Proceeding.timely, List.filter_eq_self.mpr]
  intro x hx
  obtain ⟨event, hevent, htime⟩ := mem_proceeding hpr x hx
  obtain ⟨y, hy, t, hrecorded⟩ := mem_history hevent
  obtain ⟨act, -, rfl⟩ := List.mem_map.mp hrecorded
  have hbefore : y.env.timestamp ≤ tx.env.timestamp :=
    (List.pairwise_append.mp hclock).2.2 y hy tx List.mem_cons_self
  rw [decide_eq_true_eq, ← htime]
  exact hbefore.trans hintime

/-! ## Approvals of guardians -/

/-- Who approved is a guardian, and guardians are appointed by an admin. -/
structure Endorsed (s : Storage) : Prop where
  founded : s.admin = none → s.guardianConfig = none
  present : ∀ a ∈ recoveryApprovals s, a ∈ (guardianConfig s).guardians

namespace Endorsed

theorem empty : Endorsed Storage.empty := ⟨fun _ => rfl, fun _ h => absurd h List.not_mem_nil⟩

theorem approvals_eq_nil (hs : Endorsed s) (hnone : s.admin = none) : recoveryApprovals s = [] := by
  refine List.eq_nil_iff_forall_not_mem.mpr fun a ha => ?_
  have hmem := hs.present a ha
  rw [guardianConfig, hs.founded hnone] at hmem
  cases hmem

theorem kept (hs : Endorsed s) (hadmin : s'.admin = s.admin)
    (hconfig : s'.guardianConfig = s.guardianConfig)
    (happrovals : s'.recoveryApprovals = s.recoveryApprovals) : Endorsed s' := by
  have hguardians : guardianConfig s' = guardianConfig s := by
    rw [guardianConfig, hconfig, guardianConfig]
  have hsame : recoveryApprovals s' = recoveryApprovals s := by
    rw [recoveryApprovals, happrovals, recoveryApprovals]
  refine ⟨fun hnone => hconfig.trans (hs.founded (hadmin.symm.trans hnone)), ?_⟩
  rw [hguardians, hsame]
  exact hs.present

/-- The guardians change, and everybody who approved is one of the new ones. -/
theorem reappointed (hs : Endorsed s) {g : GuardianConfig} (hadmin : s.admin ≠ none)
    (hstay : ∀ a ∈ recoveryApprovals s, a ∈ (guardianConfig s).guardians → a ∈ g.guardians) :
    Endorsed { s with guardianConfig := some g } :=
  ⟨fun hnone => absurd hnone hadmin, fun a ha => hstay a ha (hs.present a ha)⟩

theorem started (hs : Endorsed s) {initiator oldAdmin newAdmin : Address}
    (hmem : initiator ∈ (guardianConfig s).guardians)
    (hstart : RecoveryStarted e s initiator oldAdmin newAdmin s') : Endorsed s' := by
  rw [hstart.after]
  refine ⟨hs.founded, fun a ha => ?_⟩
  obtain rfl := List.mem_singleton.mp ha
  exact hmem

theorem approved (hs : Endorsed s) {approver : Address}
    (hmem : approver ∈ (guardianConfig s).guardians)
    (happrove : RecoveryApproved s approver s') : Endorsed s' := by
  rw [happrove.after]
  refine ⟨hs.founded, fun a ha => ?_⟩
  rcases List.mem_append.mp ha with ha | ha
  · exact hs.present a ha
  · obtain rfl := List.mem_singleton.mp ha
    exact hmem

theorem closed (hfounded : s.admin = none → s.guardianConfig = none) :
    Endorsed (closeRecovery s) := ⟨hfounded, fun _ h => absurd h List.not_mem_nil⟩

theorem guardianConfig_of_eq {g : GuardianConfig} (h : s.guardianConfig = some g) :
    guardianConfig s = g := by
  rw [guardianConfig, h]
  rfl

/-- **Where guardians who approved stay, a step keeps it that who approved is a guardian.** -/
theorem step (hs : Endorsed s) (hstep : Governance.step tx s = some s') (hC : GuardiansStay s tx) :
    Endorsed s' := by
  obtain ⟨e, op⟩ := tx
  cases step_councils hstep with
  | quiet _ hsame => exact hs.kept hsame.admin hsame.guardianConfig hsame.recoveryApprovals
  | setUp hafter =>
    rw [hafter.after]
    refine ⟨fun hnone => absurd hnone (Option.some_ne_none _), fun a ha => ?_⟩
    exact absurd (hs.approvals_eq_nil hafter.fresh ▸ ha) List.not_mem_nil
  | multisigSet hafter | adminsSet _ hafter | thresholdSet _ hafter | distinctSet _ hafter =>
    exact hs.kept (by rw [hafter.after]) (by rw [hafter.after]) (by rw [hafter.after])
  | guardianAdded hafter =>
    rw [hafter.after]
    refine hs.reappointed (hafter.admin_eq ▸ Option.some_ne_none _) fun a _ ha => ?_
    exact List.mem_append_left _ ha
  | guardianRemoved hafter =>
    rw [hafter.after]
    refine hs.reappointed (hafter.admin_eq ▸ Option.some_ne_none _) fun a happroved ha => ?_
    rw [guardianConfig_of_eq hafter.config_eq] at ha
    exact List.mem_filter.mpr ⟨ha, by simpa using ne_of_mem_of_not_mem happroved hC⟩
  | guardianThresholdSet hafter =>
    rw [hafter.after]
    refine hs.reappointed (hafter.admin_eq ▸ Option.some_ne_none _) fun a _ ha => ?_
    rwa [guardianConfig_of_eq hafter.config_eq] at ha
  | recoveryStarted hg hmem hstart =>
    exact hs.started (by rwa [guardianConfig_of_eq hg]) hstart
  | recoveryApproved hg hmem _ happrove =>
    exact hs.approved (by rwa [guardianConfig_of_eq hg]) happrove
  | recoveryExecuted hexecute =>
    rw [hexecute.after]
    exact closed hs.founded
  | recovery hstep =>
    cases hstep with
    | guardiansSet hafter =>
      exact hs.kept (by rw [hafter.after]) (by rw [hafter.after]) (by rw [hafter.after])
    | guardianAdded | guardianRemoved | thresholdSet => exact hs.kept rfl rfl rfl
    | started hstart => exact hs.started hC hstart
    | approved happrove => exact hs.approved hC happrove
    | executed hexecute =>
      rw [hexecute.after]
      exact closed hs.founded

theorem ledger {txs : List Tx} (h : Meets Governance.step GuardiansStay Storage.empty txs) :
    Endorsed (ledger txs) :=
  h.invariant (fun _ _ _ hstep hC hs => hs.step hstep hC) empty

end Endorsed

/-! ## Runs -/

/-- A guardian's start succeeds where there is no request. -/
theorem Startable.step_isSome (h : Startable s tx) (hfree : s.recoveryRequest = none) :
    (step tx s).isSome = true := by
  obtain ⟨e, op⟩ := tx
  obtain ⟨initiator, oldAdmin, newAdmin, g, rfl, hsigned, hg, hmem, hbound, -⟩ := h
  have hrun : ∃ s', startRecovery initiator oldAdmin newAdmin e s = .ok () s' := by
    simp [startRecovery, openRecovery, hsigned, hg, hmem, hfree, hbound]
  obtain ⟨s', hrun⟩ := hrun
  exact Option.isSome_iff_exists.mpr ⟨s', commit_eq_some.mpr ⟨(), hrun⟩⟩

/-- **A run recovers admins as it should if no guardian leaves in it whose approval is on record,
and none starts a recovery while an expired request is.** -/
theorem recoverable_of_guardiansStay {txs : List Tx} (hclock : Clocked txs)
    (h : Meets step GuardiansStay Storage.empty txs)
    (hfree : ∀ ys tx zs, txs = ys ++ tx :: zs → Startable (ledger ys) tx →
      (ledger ys).recoveryRequest = none) : Recoverable txs := by
  refine ⟨?_, fun ys tx zs htxs hstart => hstart.step_isSome (hfree ys tx zs htxs hstart)⟩
  rintro ys ⟨e, op⟩ zs s' rfl hstep executor rfl
  obtain ⟨_, hrun⟩ := commit_eq_some.mp hstep
  obtain ⟨g, r, _, hexecuted⟩ := executeRecovery_effect hrun
  obtain ⟨pr, hpr, rfl⟩ := Option.map_eq_some_iff.mp
    ((Tracked.ledger ys).request.symm.trans hexecuted.request_eq)
  have hpresent := (Endorsed.ledger (meets_append.mp h).1).present
  rw [Endorsed.guardianConfig_of_eq hexecuted.guardians_eq] at hpresent
  refine ⟨pr, g, hpr, hexecuted.request_eq, hexecuted.guardians_eq, ?_⟩
  rw [timely_eq hclock hpr hexecuted.inTime]
  exact le_card_standing_of_mem (Tracked.ledger ys).nodup hpresent hexecuted.enough

/-! ## Guardians who leave -/

namespace Sample

/-- Three guardians, of whom two are needed, and two of them approve. -/
def approvedRecovery : List Tx :=
  [deploy, signed alices 1 admin (.addGuardian admin alice),
    signed alices 1 admin (.addGuardian admin bob),
    signed alices 1 admin (.addGuardian admin token),
    signed alices 1 admin (.setGuardianThreshold admin 2),
    signed alices 2 alice (.startRecovery alice admin alice),
    signed alices 3 bob (.approveRecovery bob)]

def succession : Tx := signed alices 5 alice (.executeRecovery alice)

/-- Bob, who approved, is removed before the execution. -/
def removal : Tx := signed alices 4 admin (.removeGuardian admin bob)

/-- The guardian who did not approve is removed before the execution. -/
def successionAfterDeparture : List Tx :=
  approvedRecovery ++ [signed alices 4 admin (.removeGuardian admin token), succession]

end Sample

theorem recoverable_of_guardiansStay_departure : Recoverable Sample.successionAfterDeparture := by
  refine recoverable_of_guardiansStay (by decide) ⟨fun _ => trivial, fun _ => trivial,
    fun _ => trivial, fun _ => trivial, fun _ => trivial, fun _ => trivial, fun _ => trivial,
    fun _ => ?_, fun _ => trivial, trivial⟩ ?_
  · have hother : Sample.token ∉ recoveryApprovals (ledger Sample.approvedRecovery) := by decide
    exact hother
  · rintro ys tx zs htxs ⟨_, _, _, _, hop, -⟩
    have hlength : ys.length < 9 := by
      have htotal : 9 = ys.length + (zs.length + 1) :=
        (congrArg List.length htxs).trans List.length_append
      omega
    have hys : ys = Sample.successionAfterDeparture.take ys.length := by
      rw [htxs, List.take_left]
    have htx : Sample.successionAfterDeparture[ys.length]? = some tx := by
      rw [htxs, List.getElem?_append_right le_rfl, Nat.sub_self]
      rfl
    rw [hys]
    clear hys htxs
    generalize ys.length = n at hlength htx
    interval_cases n <;> cases htx <;> cases hop
    decide

theorem not_recoverable_removal :
    ¬ Recoverable (Sample.approvedRecovery ++ [Sample.removal, Sample.succession]) := by
  intro h
  have hsome : (step Sample.succession
      (ledger (Sample.approvedRecovery ++ [Sample.removal]))).isSome = true := by decide
  obtain ⟨s', hstep⟩ := Option.isSome_iff_exists.mp hsome
  obtain ⟨pr, g, hpr, -, hg, henough⟩ := h.approved (Sample.approvedRecovery ++ [Sample.removal])
    Sample.succession [] s' rfl hstep Sample.alice rfl
  have hproceeding : proceeding (recoveryEvents (Sample.approvedRecovery ++ [Sample.removal])) =
      some ⟨requestOf 2 Sample.alice Sample.admin Sample.alice,
        [(2, Sample.alice), (3, Sample.bob)]⟩ := by decide
  have hguardians : (ledger (Sample.approvedRecovery ++ [Sample.removal])).guardianConfig =
      some ⟨[Sample.alice, Sample.token], 2⟩ := by decide
  obtain rfl := Option.some.inj (hproceeding.symm.trans hpr)
  obtain rfl := Option.some.inj (hguardians.symm.trans hg)
  revert henough
  decide

end StellarLend.Governance
