import Mathlib.Data.List.Chain
import StellarLend.Governance.Steps

/-!
# Governance/Delegation — who delegates to whom

    alice ──record──▸ bob            key of alice: a record
    alice ◂──list──── bob            key of bob:   a list

A delegation is a record under the delegator and an entry in a list under the delegatee, and the two
share one key.  What is on record fits together in every state (`Paired`), but at a price: an
address has room for one of the two, and reading one as the other traps.  So a delegatee takes one
delegator in its life, and never delegates itself.
-/

namespace StellarLend.Governance

open Foundations Call Function
open Lending (Address)

variable {e : HelloWorld.Env} {s s' : Storage} {tx : Tx} {op : Op} {a b d : Address}
  {record : DelegationRecord}

/-! ## Views -/

/-- The delegation of an address. -/
def currentRecord (s : Storage) (a : Address) : Option DelegationRecord :=
  match s.delegationRecord a with
  | some (.record record) => some record
  | _ => none

/-- The stored delegators of an address. -/
def reverseList (s : Storage) (d : Address) : List Address :=
  match s.delegationRecord d with
  | some (.delegators delegators) => delegators
  | _ => []

/-- One address delegates to another. -/
def Delegates (s : Storage) (a b : Address) : Prop :=
  ∃ record ∈ currentRecord s a, record.delegatee = b

theorem currentRecord_eq_some :
    currentRecord s a = some record ↔ s.delegationRecord a = some (.record record) := by
  unfold currentRecord
  split <;> simp_all

theorem mem_reverseList : a ∈ reverseList s d ↔
    ∃ delegators, s.delegationRecord d = some (.delegators delegators) ∧ a ∈ delegators := by
  unfold reverseList
  split <;> simp_all

/-! ## What a call does -/

@[simp] theorem setDelegation_self (entry : Option DelegationEntry) :
    (setDelegation a entry s).delegationRecord a = entry := update_self ..

theorem setDelegation_of_ne (entry : Option DelegationEntry) (h : b ≠ a) :
    (setDelegation a entry s).delegationRecord b = s.delegationRecord b := update_of_ne h ..

/-- The store after a delegation. -/
def delegated (now : ℕ) (a b : Address) (s : Storage) : Storage :=
  setDelegation b (some (.delegators [a])) (setDelegation a (some (.record ⟨a, b, now, 1⟩)) s)

/-- **A delegation succeeds exactly if neither address has anything under its key.** -/
theorem delegateVote_ok {u : Unit} :
    delegateVote a b e s = .ok u s' ↔ a ∈ e.auths ∧ a ≠ b ∧
      isVoteLocked e.timestamp s a = false ∧ s.delegationRecord a = none ∧
        s.delegationRecord b = none ∧ delegated e.timestamp a b s = s' := by
  simp only [delegateVote, getDelegationDepth, bind_ok, requireAuth_ok, failIf_ok, asks_ok, view_ok,
    store_ok, getDelegators_ok, getDelegationRecord_ok, pure_ok, Bool.not_eq_true,
    Option.isSome_eq_false_iff, Option.isNone_iff_eq_none, and_assoc, exists_and_left,
    exists_eq_left', exists_const]
  refine and_congr_right fun _ => and_congr_right fun hne => and_congr_right fun _ =>
    and_congr_right fun hnone => ?_
  constructor
  · rintro ⟨depth, t, ⟨record, hrecord, rfl, rfl⟩, -, delegators, hread, rfl⟩
    rw [setDelegation_of_ne _ (Ne.symm hne)] at hread
    rcases hread with ⟨hfree, rfl⟩ | hlist
    · obtain rfl : record = none := by
        rcases record with _ | record
        · rfl
        · cases hrecord.symm.trans hfree
      exact ⟨hfree, rfl⟩
    · rcases record with _ | record <;> cases hrecord.symm.trans hlist
  · rintro ⟨hfree, rfl⟩
    refine ⟨0, s, ⟨none, hfree, rfl, rfl⟩, by decide, [], .inl ⟨?_, rfl⟩, rfl⟩
    rwa [setDelegation_of_ne _ (Ne.symm hne)]

/-- The store after a revocation. -/
def revoked (a d : Address) (delegators : List Address) (s : Storage) : Storage :=
  setDelegation a none (setDelegation d (some (.delegators (delegators.filter (· ≠ a)))) s)

/-- **A revocation succeeds exactly if the delegator has a record and the key of the delegatee is no
record.** -/
theorem revokeDelegation_ok {u : Unit} :
    revokeDelegation a e s = .ok u s' ↔ a ∈ e.auths ∧ ∃ record delegators,
      s.delegationRecord a = some (.record record) ∧
        (s.delegationRecord record.delegatee = none ∧ delegators = [] ∨
          s.delegationRecord record.delegatee = some (.delegators delegators)) ∧
        revoked a record.delegatee delegators s = s' := by
  simp only [revokeDelegation, bind_ok, requireAuth_ok, getDelegationRecord_ok, ↓okOr_seq,
    getDelegators_ok, ↓store_seq, store_ok, and_assoc, exists_and_left, exists_eq_left',
    exists_const]
  refine and_congr_right fun _ => ?_
  constructor
  · rintro ⟨stored, hstored, record, rfl, delegators, hread, rfl⟩
    exact ⟨record, hstored, delegators, hread, rfl⟩
  · rintro ⟨record, hstored, delegators, hread, rfl⟩
    exact ⟨some record, hstored, record, rfl, delegators, hread, rfl⟩

/-- The calls that write delegations. -/
def Op.onDelegations : Op → Bool
  | .delegateVote .. | .revokeDelegation .. => true
  | _ => false

theorem takeVotePowerSnapshot_delegations {id : ℕ} {voter token : Address} {u : Unit}
    (h : takeVotePowerSnapshot id voter token e s = .ok u s') :
    s'.delegationRecord = s.delegationRecord := by
  simp only [takeVotePowerSnapshot, balance_seq, asks_seq, store_ok] at h
  obtain ⟨_, -, rfl⟩ := h
  rfl

/-- A call on ballots leaves the delegations. -/
theorem BallotStep.delegations (h : BallotStep e s op s') (hop : op.onBallots = true) :
    s'.delegationRecord = s.delegationRecord := by
  cases h with
  | quiet hquiet => cases hop.symm.trans hquiet
  | createdApproved h happroved =>
    exact happroved.after ▸ h.after ▸ rfl
  | _ =>
    rename_i h
    exact h.after ▸ rfl

/-- A call on councils leaves the delegations. -/
theorem CouncilStep.delegations (h : CouncilStep e s op s') (hop : op.onCouncils = true) :
    s'.delegationRecord = s.delegationRecord := by
  cases h with
  | quiet hquiet => cases hop.symm.trans hquiet
  | recovery h =>
    cases h with
    | guardianAdded | guardianRemoved | thresholdSet => rfl
    | _ =>
      rename_i h
      exact h.after ▸ rfl
  | _ =>
    rename_i h
    exact h.after ▸ rfl

/-- **Every other call leaves the delegations.** -/
theorem step_delegations (hop : op.onDelegations = false) (h : step ⟨e, op⟩ s = some s') :
    s'.delegationRecord = s.delegationRecord := by
  by_cases hballots : op.onBallots = true
  · exact (step_ballots h).delegations hballots
  by_cases hcouncils : op.onCouncils = true
  · exact (step_councils h).delegations hcouncils
  cases op <;> first | exact absurd rfl hballots | exact absurd rfl hcouncils | skip
  case delegateVote => cases hop
  case revokeDelegation => cases hop
  case core =>
    obtain ⟨_, -, rfl⟩ := coreStep_effect h
    rfl
  all_goals obtain ⟨_, h⟩ := commit_eq_some.mp h
  case simulateProposal =>
    obtain ⟨_, _, h⟩ := simulateProposal_effect h
    rw [h.after]
  case takeVotePowerSnapshot => exact takeVotePowerSnapshot_delegations h

/-! ## What is on record fits together -/

/-- **A record names a delegatee whose list holds the delegator, and the other way round.** -/
structure Paired (s : Storage) : Prop where
  record : ∀ a record, s.delegationRecord a = some (.record record) →
    record.depth = 1 ∧ s.delegationRecord record.delegatee = some (.delegators [a])
  delegators : ∀ d l, s.delegationRecord d = some (.delegators l) → l = [] ∨ ∃ a record, l = [a] ∧
    s.delegationRecord a = some (.record record) ∧ record.delegatee = d

theorem Paired.congr (hs : Paired s) (h : s'.delegationRecord = s.delegationRecord) :
    Paired s' where
  record a r ha := by
    rw [h] at ha ⊢
    exact hs.record a r ha
  delegators d l hd := by
    rw [h] at hd ⊢
    exact hs.delegators d l hd

/-- Two free addresses become delegator and delegatee. -/
theorem Paired.delegated {now : ℕ} (hs : Paired s) (hne : a ≠ b)
    (ha : s.delegationRecord a = none) (hb : s.delegationRecord b = none) :
    Paired (delegated now a b s) where
  record c record hc := by
    unfold Governance.delegated at hc ⊢
    have hcb : c ≠ b := by
      rintro rfl
      simp at hc
    rw [setDelegation_of_ne _ hcb] at hc
    rcases eq_or_ne c a with rfl | hca
    · obtain rfl : (⟨c, b, now, 1⟩ : DelegationRecord) = record := by simpa using hc
      exact ⟨rfl, setDelegation_self _⟩
    rw [setDelegation_of_ne _ hca] at hc
    obtain ⟨hdepth, hlist⟩ := hs.record c record hc
    have hdb : record.delegatee ≠ b := fun h => by simp [h, hb] at hlist
    have hda : record.delegatee ≠ a := fun h => by simp [h, ha] at hlist
    rw [setDelegation_of_ne _ hdb, setDelegation_of_ne _ hda]
    exact ⟨hdepth, hlist⟩
  delegators d l hd := by
    unfold Governance.delegated at hd ⊢
    rcases eq_or_ne d b with rfl | hdb
    · obtain rfl : [a] = l := by simpa using hd
      refine .inr ⟨a, ⟨a, d, now, 1⟩, rfl, ?_, rfl⟩
      rw [setDelegation_of_ne _ hne, setDelegation_self]
    rw [setDelegation_of_ne _ hdb] at hd
    have hda : d ≠ a := by
      rintro rfl
      simp at hd
    rw [setDelegation_of_ne _ hda] at hd
    obtain rfl | ⟨c, record, rfl, hc, rfl⟩ := hs.delegators d l hd
    · exact .inl rfl
    have hcb : c ≠ b := fun h => by simp [h, hb] at hc
    have hca : c ≠ a := fun h => by simp [h, ha] at hc
    refine .inr ⟨c, record, rfl, ?_, rfl⟩
    rw [setDelegation_of_ne _ hcb, setDelegation_of_ne _ hca, hc]

/-- A revocation empties the list of the delegatee. -/
theorem Paired.revoked (hs : Paired s) (ha : s.delegationRecord a = some (.record record)) :
    Paired (revoked a record.delegatee [a] s) where
  record c r hc := by
    unfold Governance.revoked at hc ⊢
    have hca : c ≠ a := by
      rintro rfl
      simp at hc
    rw [setDelegation_of_ne _ hca] at hc
    have hcd : c ≠ record.delegatee := by
      rintro rfl
      simp at hc
    rw [setDelegation_of_ne _ hcd] at hc
    obtain ⟨hdepth, hlist⟩ := hs.record c r hc
    have hrd : r.delegatee ≠ record.delegatee := fun h => by
      rw [h, (hs.record a record ha).2] at hlist
      exact hca (by simpa using hlist.symm)
    have hra : r.delegatee ≠ a := fun h => by simp [h, ha] at hlist
    rw [setDelegation_of_ne _ hra, setDelegation_of_ne _ hrd]
    exact ⟨hdepth, hlist⟩
  delegators d l hd := by
    unfold Governance.revoked at hd ⊢
    have hda : d ≠ a := by
      rintro rfl
      simp at hd
    rw [setDelegation_of_ne _ hda] at hd
    rcases eq_or_ne d record.delegatee with rfl | hdd
    · refine .inl ?_
      simpa using hd.symm
    rw [setDelegation_of_ne _ hdd] at hd
    obtain rfl | ⟨c, r, rfl, hc, rfl⟩ := hs.delegators d l hd
    · exact .inl rfl
    have hca : c ≠ a := fun h => by
      rw [h, ha] at hc
      obtain rfl : record = r := by simpa using hc
      exact hdd rfl
    have hcd : c ≠ record.delegatee := fun h => by
      rw [h, (hs.record a record ha).2] at hc
      simp at hc
    refine .inr ⟨c, r, rfl, ?_, rfl⟩
    rw [setDelegation_of_ne _ hca, setDelegation_of_ne _ hcd, hc]

theorem step_paired (h : step tx s = some s') (hs : Paired s) : Paired s' := by
  obtain ⟨e, op⟩ := tx
  by_cases hop : op.onDelegations = false
  · exact hs.congr (step_delegations hop h)
  cases op <;> first | exact absurd rfl hop | skip
  case delegateVote a b =>
    obtain ⟨_, h⟩ := commit_eq_some.mp h
    obtain ⟨-, hne, -, ha, hb, rfl⟩ := delegateVote_ok.mp h
    exact hs.delegated hne ha hb
  case revokeDelegation a =>
    obtain ⟨_, h⟩ := commit_eq_some.mp h
    obtain ⟨-, record, delegators, ha, hread, rfl⟩ := revokeDelegation_ok.mp h
    have hlist := (hs.record a record ha).2
    obtain rfl : delegators = [a] := by
      rcases hread with ⟨hnone, -⟩ | hsome
      · cases hlist.symm.trans hnone
      · simpa using hsome.symm.trans hlist
    exact hs.revoked ha

theorem ledger_paired (txs : List Tx) : Paired (ledger txs) :=
  have hempty : Paired Storage.empty := ⟨nofun, nofun⟩
  run_invariant (fun _ _ _ hstep hs => step_paired hstep hs) txs hempty

/-! ## The two sides agree -/

/-- The list of a delegatee holds who delegates to it. -/
theorem Paired.mem_reverseList (hs : Paired s) : a ∈ reverseList s d ↔ Delegates s a d := by
  rw [Governance.mem_reverseList]
  constructor
  · rintro ⟨l, hl, ha⟩
    obtain rfl | ⟨b, record, rfl, hb, rfl⟩ := hs.delegators d l hl
    · simp at ha
    · obtain rfl : a = b := by simpa using ha
      exact ⟨record, currentRecord_eq_some.mpr hb, rfl⟩
  · rintro ⟨record, hrecord, rfl⟩
    exact ⟨[a], (hs.record a record (currentRecord_eq_some.mp hrecord)).2, by simp⟩

theorem Paired.reverseList_nodup (hs : Paired s) (d : Address) : (reverseList s d).Nodup := by
  unfold reverseList
  split
  next l hl =>
    obtain rfl | ⟨a, _, rfl, -, -⟩ := hs.delegators d l hl <;> simp
  next => exact List.nodup_nil

/-- A delegatee does not delegate. -/
theorem Paired.not_delegates (hs : Paired s) (h : Delegates s a b) : ¬ Delegates s b d := by
  obtain ⟨record, hrecord, rfl⟩ := h
  rintro ⟨r, hr, -⟩
  have hlist := (hs.record a record (currentRecord_eq_some.mp hrecord)).2
  cases (currentRecord_eq_some.mp hr).symm.trans hlist

/-- So a chain of delegations has one link. -/
theorem Paired.path_length_le {path : List Address} (hs : Paired s)
    (h : path.IsChain (Delegates s)) : path.length ≤ 2 := by
  match path, h with
  | [], _ | [_], _ | [_, _], _ => simp
  | a :: b :: c :: path, h =>
    obtain ⟨hab, hrest⟩ := List.isChain_cons_cons.mp h
    exact absurd (List.isChain_cons_cons.mp hrest).1 (hs.not_delegates hab)

theorem Paired.depth_le (hs : Paired s) (h : record ∈ currentRecord s a) :
    record.depth ≤ MAX_DELEGATION_DEPTH := by
  rw [(hs.record a record (currentRecord_eq_some.mp h)).1]
  decide

/-- **Whoever delegates can take it back.** -/
theorem Paired.revocation (hs : Paired s) (hsigned : a ∈ e.auths)
    (h : (currentRecord s a).isSome) : (step ⟨e, .revokeDelegation a⟩ s).isSome := by
  obtain ⟨record, hrecord⟩ := Option.isSome_iff_exists.mp h
  have ha := currentRecord_eq_some.mp hrecord
  have hcall : revokeDelegation a e s = .ok () (Governance.revoked a record.delegatee [a] s) :=
    revokeDelegation_ok.mpr
      ⟨hsigned, record, [a], ha, .inr (hs.record a record ha).2, rfl⟩
  exact Option.isSome_iff_exists.mpr ⟨_, commit_eq_some.mpr ⟨(), hcall⟩⟩

/-! ## Which delegations succeed -/

/-- The rules of depth and lock: a signed call of a voter that is not locked and delegates to
nobody yet, to another whose own delegation is not too deep. -/
structure Allowed (e : HelloWorld.Env) (s : Storage) (a b : Address) : Prop where
  signed : a ∈ e.auths
  other : a ≠ b
  unlocked : isVoteLocked e.timestamp s a = false
  free : currentRecord s a = none
  shallow : (currentRecord s b).elim 0 (·.depth) < MAX_DELEGATION_DEPTH

/-- The delegator never had a delegator, and the delegatee has neither a delegator nor a
delegatee. -/
def Unattached (s : Storage) (a b : Address) : Prop :=
  (∀ l, s.delegationRecord a ≠ some (.delegators l)) ∧ s.delegationRecord b = none

theorem currentRecord_eq_none : currentRecord s a = none ∧
    (∀ l, s.delegationRecord a ≠ some (.delegators l)) ↔ s.delegationRecord a = none := by
  unfold currentRecord
  split
  next record h => simp [h]
  next h =>
    rcases hentry : s.delegationRecord a with _ | record | l
    · simp
    · exact absurd hentry (h record)
    · simp

/-- **An allowed delegation succeeds exactly if both keys are free for it.** -/
theorem Allowed.isSome_iff (h : Allowed e s a b) :
    (step ⟨e, .delegateVote a b⟩ s).isSome ↔ Unattached s a b := by
  constructor
  · intro hsome
    obtain ⟨s', hstep⟩ := Option.isSome_iff_exists.mp hsome
    obtain ⟨_, hcall⟩ := commit_eq_some.mp hstep
    obtain ⟨-, -, -, ha, hb, -⟩ := delegateVote_ok.mp hcall
    exact ⟨(currentRecord_eq_none.mpr ha).2, hb⟩
  · rintro ⟨hlist, hb⟩
    have ha := currentRecord_eq_none.mp ⟨h.free, hlist⟩
    have hcall : delegateVote a b e s = .ok () (delegated e.timestamp a b s) :=
      delegateVote_ok.mpr ⟨h.signed, h.other, h.unlocked, ha, hb, rfl⟩
    exact Option.isSome_iff_exists.mpr ⟨_, commit_eq_some.mpr ⟨(), hcall⟩⟩

/-- **In every state the contract can reach, the list of a delegatee is the set of those whose
record names it, no chain is too deep, who delegates can take it back, and an allowed delegation
succeeds exactly if its two keys are free for it.** -/
theorem delegation_mapping (txs : List Tx) :
    (∀ d, (reverseList (ledger txs) d).Nodup ∧
      ∀ a, a ∈ reverseList (ledger txs) d ↔ Delegates (ledger txs) a d) ∧
    (∀ a, ∀ record ∈ currentRecord (ledger txs) a, record.depth ≤ MAX_DELEGATION_DEPTH) ∧
    (∀ path : List Address, path.IsChain (Delegates (ledger txs)) →
      path.length ≤ MAX_DELEGATION_DEPTH + 1) ∧
    (∀ e a, a ∈ e.auths → (currentRecord (ledger txs) a).isSome →
      (step ⟨e, .revokeDelegation a⟩ (ledger txs)).isSome) ∧
    ∀ e a b, Allowed e (ledger txs) a b →
      ((step ⟨e, .delegateVote a b⟩ (ledger txs)).isSome ↔ Unattached (ledger txs) a b) := by
  have hs := ledger_paired txs
  refine ⟨fun d => ⟨hs.reverseList_nodup d, fun a => hs.mem_reverseList⟩,
    fun _ _ h => hs.depth_le h, fun path h => ?_, fun _ _ hsigned h => hs.revocation hsigned h,
    fun _ _ _ h => h.isSome_iff⟩
  exact (hs.path_length_le h).trans (by decide)

namespace Sample

def carol : Address := ⟨3⟩

/-- Alice delegates to carol. -/
def aliceToCarol : List Tx := [signed alices 1 alice (.delegateVote alice carol)]

/-- Bob may delegate to carol as well. -/
def bobToCarol : Tx := signed alices 2 bob (.delegateVote bob carol)

/-- **The second delegation to one delegatee is allowed and fails, also after the first is taken
back.** -/
theorem second_delegator_refused :
    Allowed bobToCarol.env (ledger aliceToCarol) bob carol ∧
      step bobToCarol (ledger aliceToCarol) = none ∧
      step bobToCarol (ledger (aliceToCarol ++
        [signed alices 2 alice (.revokeDelegation alice)])) = none := by
  refine ⟨⟨?_, ?_, ?_, ?_, ?_⟩, ?_, ?_⟩ <;> decide

end Sample

end StellarLend.Governance
