import StellarLend.Foundations.Quorum
import StellarLend.Governance.Registry

/-!
# Governance/Membership — councils that can decide

Four lists of members are kept, three of them with a threshold.  Most calls that write them check
what they write; `Careful` names the ones that do not, each with what it would have to check, and a
run keeps its councils sound exactly if those calls are made with care.
-/

namespace StellarLend.Governance

open Foundations Call Function
open Lending (Address)

variable {e : HelloWorld.Env} {s s' : Storage} {tx : Tx}

/-! ## Councils -/

/-- The bodies with a threshold, once they are configured: the guardians of governance are when
there has been one. -/
inductive Council (s : Storage) : List Address → ℕ → Prop
  | multisig {m : MultisigConfig} (h : s.multisigConfig = some m) : Council s m.admins m.threshold
  | guardians {g : GuardianConfig} (h : s.guardianConfig = some g) (hset : g ≠ ⟨[], 1⟩) :
      Council s g.guardians g.threshold
  | recoveryGuardians {l : List Address} (h : s.guardians = some l) :
      Council s l (Recovery.getGuardianThreshold s)

/-- Councils are sound, and no admin is listed twice. -/
structure WellFormed (s : Storage) : Prop where
  multisig : ∀ m, s.multisigConfig = some m → Sound m.admins m.threshold
  guardians : ∀ g, s.guardianConfig = some g → g ≠ ⟨[], 1⟩ → Sound g.guardians g.threshold
  recoveryGuardians : ∀ l, s.guardians = some l → Sound l (Recovery.getGuardianThreshold s)
  recoveryAdmins : ∀ l, s.multisigAdmins = some l → l.Nodup

theorem WellFormed.council {l : List Address} {n : ℕ} (hs : WellFormed s) (h : Council s l n) :
    Sound l n := by
  cases h with
  | multisig h => exact hs.multisig _ h
  | guardians h hset => exact hs.guardians _ h hset
  | recoveryGuardians h => exact hs.recoveryGuardians _ h

/-- In every state councils are sound, so that there is a quorum and nobody is none. -/
structure Quorate (txs : List Tx) : Prop where
  wellFormed : ∀ ys, ys <+: txs → WellFormed (ledger ys)
  quorum : ∀ ys, ys <+: txs → ∀ l n, Council (ledger ys) l n →
    (∃ Q : Finset Address, (∀ a ∈ Q, a ∈ l) ∧ Q.card = n) ∧ ¬ n ≤ ([] : List Address).length

/-- What the calls that do not check would have to: lists given without repetitions, a guardian left
after one is removed, enough of them in the second module, and a new admin that is none already. -/
def Careful (s : Storage) (tx : Tx) : Prop :=
  match tx.op with
  | .setMultisigConfig _ admins _ => admins.Nodup
  | .setMultisigAdmins _ admins => admins.Nodup
  | .removeGuardian _ _ => 1 < (guardianConfig s).guardians.length
  | .executeRecovery _ => ∀ r m, s.recoveryRequest = some r → s.multisigConfig = some m →
    r.newAdmin ∈ m.admins → r.newAdmin = r.oldAdmin
  | .recovery (.removeGuardian _ _) =>
    Recovery.getGuardianThreshold s < (s.guardians.getD []).length
  | .recovery (.executeRecovery _) => ∀ r, s.recoveryRequest = some r →
    r.newAdmin ∈ s.multisigAdmins.getD [] → r.newAdmin = r.oldAdmin
  | _ => True

/-! ## One council at a time -/

namespace WellFormed

theorem empty : WellFormed Storage.empty := ⟨nofun, nofun, nofun, nofun⟩

/-- The councils are all that counts. -/
theorem congr (h : SameCouncils s s') : WellFormed s' ↔ WellFormed s := by
  have hthreshold : Recovery.getGuardianThreshold s' = Recovery.getGuardianThreshold s := by
    rw [Recovery.getGuardianThreshold, h.guardianThreshold, Recovery.getGuardianThreshold]
  constructor
  · rintro ⟨hm, hg, hl, ha⟩
    rw [h.multisigConfig] at hm
    rw [h.guardianConfig] at hg
    rw [h.guardians, hthreshold] at hl
    rw [h.multisigAdmins] at ha
    exact ⟨hm, hg, hl, ha⟩
  · rintro ⟨hm, hg, hl, ha⟩
    refine ⟨?_, ?_, ?_, ?_⟩
    · rwa [h.multisigConfig]
    · rwa [h.guardianConfig]
    · rwa [h.guardians, hthreshold]
    · rwa [h.multisigAdmins]

/-- Whether there is a request does not matter. -/
theorem request_iff {request : Option RecoveryRequest} {approvals : Option (List Address)} :
    WellFormed { s with recoveryRequest := request, recoveryApprovals := approvals } ↔
      WellFormed s :=
  ⟨fun h => ⟨h.multisig, h.guardians, h.recoveryGuardians, h.recoveryAdmins⟩,
    fun h => ⟨h.multisig, h.guardians, h.recoveryGuardians, h.recoveryAdmins⟩⟩

theorem multisig_iff {m : MultisigConfig} (hs : WellFormed s) :
    WellFormed { s with multisigConfig := some m } ↔ Sound m.admins m.threshold := by
  refine ⟨fun h => h.multisig m rfl, fun h => ⟨?_, hs.guardians, hs.recoveryGuardians,
    hs.recoveryAdmins⟩⟩
  rintro _ ⟨⟩
  exact h

theorem guardians_iff {g : GuardianConfig} (hs : WellFormed s) (hset : g ≠ ⟨[], 1⟩) :
    WellFormed { s with guardianConfig := some g } ↔ Sound g.guardians g.threshold := by
  refine ⟨fun h => h.guardians g rfl hset, fun h => ⟨hs.multisig, ?_, hs.recoveryGuardians,
    hs.recoveryAdmins⟩⟩
  rintro _ ⟨⟩ -
  exact h

theorem recoveryGuardians_iff {l : List Address} (hs : WellFormed s) :
    WellFormed { s with guardians := some l } ↔ Sound l (Recovery.getGuardianThreshold s) := by
  refine ⟨fun h => h.recoveryGuardians l rfl, fun h => ⟨hs.multisig, hs.guardians, ?_,
    hs.recoveryAdmins⟩⟩
  rintro _ ⟨⟩
  exact h

theorem recoveryAdmins_iff {l : List Address} (hs : WellFormed s) :
    WellFormed { s with multisigAdmins := some l } ↔ l.Nodup := by
  refine ⟨fun h => h.recoveryAdmins l rfl, fun h => ⟨hs.multisig, hs.guardians,
    hs.recoveryGuardians, ?_⟩⟩
  rintro _ ⟨⟩
  exact h

/-! ## Each call -/

theorem setUp {a : Address} {c : GovernanceConfig} (hs : WellFormed s) (h : SetUp s a c s') :
    WellFormed s' := by
  rw [h.after]
  refine ⟨?_, ?_, hs.recoveryGuardians, hs.recoveryAdmins⟩
  · rintro _ ⟨⟩
    exact ⟨List.nodup_singleton a, Nat.one_pos, le_rfl⟩
  · rintro _ ⟨⟩ hset
    exact absurd rfl hset

theorem multisigSet_iff {caller : Address} {admins : List Address} {n : ℕ} (hs : WellFormed s)
    (h : MultisigSet s caller admins n s') : admins.Nodup ↔ WellFormed s' := by
  rw [h.after, hs.multisig_iff]
  exact ⟨fun hnodup => ⟨hnodup, h.positive, h.le⟩, Sound.nodup⟩

theorem guardianAdded {caller guardian : Address} (hs : WellFormed s)
    (h : GuardianAdded s caller guardian s') : WellFormed s' := by
  rw [h.after, hs.guardians_iff]
  · -- the first guardian meets the threshold of one
    have hfirst : guardianConfig s = ⟨[], 1⟩ ∨
        Sound (guardianConfig s).guardians (guardianConfig s).threshold := by
      unfold guardianConfig
      rcases hg : s.guardianConfig with _ | g
      · exact .inl rfl
      · exact or_iff_not_imp_left.mpr (hs.guardians g hg)
    rcases hfirst with hfirst | hsound
    · rw [hfirst]
      exact ⟨List.nodup_singleton guardian, Nat.one_pos, le_rfl⟩
    · exact hsound.append h.fresh
  · intro hempty
    cases (List.append_eq_nil_iff.mp (congrArg GuardianConfig.guardians hempty)).2

theorem guardianRemoved_iff {caller guardian : Address} {g : GuardianConfig} (hs : WellFormed s)
    (h : GuardianRemoved s caller guardian g s') :
    1 < (guardianConfig s).guardians.length ↔ WellFormed s' := by
  have hset : g ≠ ⟨[], 1⟩ := by
    rintro rfl
    cases h.member
  have hsound := hs.guardians g h.config_eq hset
  have hlength := Sound.length_filter_ne hsound.nodup h.member
  have hpositive := hsound.positive
  rw [h.after, hs.guardians_iff, guardianConfig, h.config_eq, Option.getD_some]
  · refine ⟨fun hlt => ⟨hsound.nodup.filter _, ?_, min_le_right _ _⟩, fun hsound' => ?_⟩
    · exact lt_min hpositive (by omega)
    · have hleft := (lt_min_iff.mp hsound'.positive).2
      omega
  · -- without guardians the threshold is zero
    intro hempty
    have hnone : g.guardians.filter (· ≠ guardian) = [] := congrArg GuardianConfig.guardians hempty
    have hone : min g.threshold (g.guardians.filter (· ≠ guardian)).length = 1 :=
      congrArg GuardianConfig.threshold hempty
    rw [hnone, List.length_nil, Nat.min_zero] at hone
    exact absurd hone Nat.zero_ne_one

theorem guardianThresholdSet {caller : Address} {n : ℕ} {g : GuardianConfig} (hs : WellFormed s)
    (h : GuardianThresholdSet s caller n g s') : WellFormed s' := by
  have hpositive := h.positive
  have hle := h.le
  have hset : ∀ {k : ℕ}, (⟨g.guardians, k⟩ : GuardianConfig) ≠ ⟨[], 1⟩ := by
    intro k hempty
    rw [congrArg GuardianConfig.guardians hempty, List.length_nil] at hle
    omega
  rw [h.after, hs.guardians_iff hset]
  exact ⟨(hs.guardians g h.config_eq hset).nodup, hpositive, hle⟩

theorem recoveryExecuted_iff {g : GuardianConfig} {r : RecoveryRequest} {m : MultisigConfig}
    (hs : WellFormed s) (h : RecoveryExecuted e s g r m s') :
    (r.newAdmin ∈ m.admins → r.newAdmin = r.oldAdmin) ↔ WellFormed s' := by
  rw [h.after, closeRecovery, request_iff, hs.multisig_iff]
  exact (hs.multisig m h.multisig_eq).replace_iff.symm

theorem secondExecuted_iff {r : RecoveryRequest} (hs : WellFormed s)
    (h : Recovery.RecoveryExecuted e s r s') :
    (r.newAdmin ∈ s.multisigAdmins.getD [] → r.newAdmin = r.oldAdmin) ↔ WellFormed s' := by
  have hnodup : (s.multisigAdmins.getD []).Nodup := by
    rcases hl : s.multisigAdmins with _ | l
    · exact List.nodup_nil
    · exact hs.recoveryAdmins l hl
  rw [h.after, closeRecovery, request_iff, hs.recoveryAdmins_iff]
  exact (Sound.replace_nodup_iff hnodup).symm

end WellFormed

/-! ## The second module's threshold -/

/-- A threshold is only ever set with guardians. -/
def Unset (s : Storage) : Prop := s.guardians = none → s.guardianThreshold = none

theorem Unset.step (hs : Unset s) (hstep : Governance.step tx s = some s') : Unset s' := by
  obtain ⟨e, op⟩ := tx
  intro hnone
  cases step_councils hstep with
  | quiet _ h => rw [h.guardianThreshold, hs (h.guardians ▸ hnone)]
  | setUp h | multisigSet h | adminsSet _ h | thresholdSet _ h | distinctSet _ h | guardianAdded h
  | guardianRemoved h | guardianThresholdSet h | recoveryStarted _ _ h | recoveryApproved _ _ _ h
  | recoveryExecuted h =>
    rw [h.after] at hnone ⊢
    exact hs hnone
  | recovery h =>
    cases h with
    | guardiansSet h =>
      rw [h.after] at hnone
      cases hnone
    | guardianAdded | guardianRemoved => cases hnone
    | thresholdSet hpos hle =>
      have hempty : s.guardians = none := hnone
      rw [hempty] at hle
      exact absurd (hpos.trans_le hle) (lt_irrefl 0)
    | started h | approved h | executed h =>
      rw [h.after] at hnone ⊢
      exact hs hnone

/-! ## Runs -/

theorem careful_of_quiet {op : Op} (hquiet : op.onCouncils = false) : Careful s ⟨e, op⟩ := by
  cases op <;> trivial

/-- **A step keeps the councils sound exactly if it is careful.** -/
theorem careful_iff (hs : WellFormed s) (hunset : Unset s) (hstep : step tx s = some s') :
    Careful s tx ↔ WellFormed s' := by
  obtain ⟨e, op⟩ := tx
  cases step_councils hstep with
  | quiet hquiet h => exact iff_of_true (careful_of_quiet hquiet) ((WellFormed.congr h).mpr hs)
  | setUp h => exact iff_of_true trivial (hs.setUp h)
  | multisigSet h => exact hs.multisigSet_iff h
  | adminsSet _ h => exact hs.multisigSet_iff h
  | thresholdSet hm h =>
    exact iff_of_true trivial ((hs.multisigSet_iff h).mp (hs.multisig _ hm).nodup)
  | distinctSet hnodup h => exact iff_of_true trivial ((hs.multisigSet_iff h).mp hnodup)
  | guardianAdded h => exact iff_of_true trivial (hs.guardianAdded h)
  | guardianRemoved h => exact hs.guardianRemoved_iff h
  | guardianThresholdSet h => exact iff_of_true trivial (hs.guardianThresholdSet h)
  | recoveryStarted _ _ h =>
    rw [h.after, WellFormed.request_iff]
    exact iff_of_true trivial hs
  | recoveryApproved _ _ _ h =>
    rw [h.after]
    exact iff_of_true trivial (WellFormed.request_iff.mpr hs)
  | recoveryExecuted h =>
    rw [← hs.recoveryExecuted_iff h]
    refine ⟨fun hcareful => hcareful _ _ h.request_eq h.multisig_eq, fun hnew r m hr hm => ?_⟩
    obtain rfl := Option.some.inj (hr.symm.trans h.request_eq)
    obtain rfl := Option.some.inj (hm.symm.trans h.multisig_eq)
    exact hnew
  | recovery h =>
    cases h with
    | guardiansSet h =>
      rw [h.after]
      refine iff_of_true trivial ⟨hs.multisig, hs.guardians, ?_, hs.recoveryAdmins⟩
      rintro _ ⟨⟩
      exact ⟨h.nodup, h.positive, h.le⟩
    | guardianAdded hfresh =>
      refine iff_of_true trivial (hs.recoveryGuardians_iff.mpr ?_)
      rcases hl : s.guardians with _ | l
      · rw [Recovery.getGuardianThreshold, hunset hl]
        exact ⟨List.nodup_singleton _, Nat.one_pos, le_rfl⟩
      · rw [hl] at hfresh
        exact (hs.recoveryGuardians l hl).append hfresh
    | guardianRemoved hl hmem =>
      rw [hs.recoveryGuardians_iff, (hs.recoveryGuardians _ hl).filter_iff hmem, Careful, hl,
        Option.getD_some]
    | thresholdSet hpos hle =>
      refine iff_of_true trivial ⟨hs.multisig, hs.guardians, fun l hl => ?_, hs.recoveryAdmins⟩
      have hbefore : s.guardians = some l := hl
      rw [hbefore, Option.getD_some] at hle
      exact ⟨(hs.recoveryGuardians l hbefore).nodup, hpos, hle⟩
    | started h =>
      rw [h.after, WellFormed.request_iff]
      exact iff_of_true trivial hs
    | approved h =>
      rw [h.after]
      exact iff_of_true trivial (WellFormed.request_iff.mpr hs)
    | executed h =>
      rw [← hs.secondExecuted_iff h]
      refine ⟨fun hcareful => hcareful _ h.request_eq, fun hnew r hr => ?_⟩
      obtain rfl := Option.some.inj (hr.symm.trans h.request_eq)
      exact hnew

/-- **A run keeps its councils sound exactly if each of its steps is careful.** -/
theorem quorate_iff (txs : List Tx) : Quorate txs ↔ Meets step Careful Storage.empty txs := by
  have hthroughout : Meets step Careful Storage.empty txs ↔
      ∀ ys, ys <+: txs → WellFormed (ledger ys) ∧ Unset (ledger ys) :=
    meets_iff_throughout (I := fun s => WellFormed s ∧ Unset s)
      (fun _ _ _ hstep hs => (careful_iff hs.1 hs.2 hstep).trans
        (and_iff_left (hs.2.step hstep)).symm) ⟨WellFormed.empty, fun _ => rfl⟩
  rw [hthroughout]
  constructor
  · intro h ys hys
    exact ⟨h.wellFormed ys hys, run_invariant (fun _ _ _ hstep hs => hs.step hstep) ys fun _ => rfl⟩
  · intro h
    exact ⟨fun ys hys => (h ys hys).1, fun ys hys l n hc => ((h ys hys).1.council hc).quorum⟩

/-! ## An admin listed twice -/

namespace Sample

/-- Two approvals are asked for, and there is one admin to give them. -/
def doubled : Tx := signed alices 1 admin (.setMultisigConfig admin [alice, alice] 2)

end Sample

theorem not_quorate_doubled : ¬ Quorate [Sample.deploy, Sample.doubled] := by
  intro h
  have hsound := (h.wellFormed _ (List.prefix_refl _)).multisig ⟨[Sample.alice, Sample.alice], 2⟩
    (by decide)
  exact absurd hsound.nodup (by decide)

end StellarLend.Governance
