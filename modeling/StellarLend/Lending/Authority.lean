import StellarLend.Lending.Buckets
import Mathlib.Data.List.Induction

/-!
# Lending/Authority — who may change a position

A call changes the records of a user only through an act on that user's position, and the paths to
the acts authenticate: a direct call is signed, a delegated batch is validated call by call, a
commitment is pending and was created by its owner (`committedBy_of_recorded`).  The token receiver
hook is the exception: it asks neither the user nor the token contract.  `changes_warranted_iff`
says that it is the only one.
-/

namespace StellarLend.Lending

open Foundations Call

variable {e : Env} {s t s' : Storage} {u : Address}

/-! ## The records of a user -/

/-- The stores hold the same debt and collateral records of a user. -/
structure SamePosition (s t : Storage) (u : Address) : Prop where
  debts : SameRecords s t u
  collateral : t.borrowUserCollateral u = s.borrowUserCollateral u
  vault : t.userCollateral u = s.userCollateral u

theorem SamePosition.refl (s : Storage) (u : Address) : SamePosition s s u :=
  ⟨⟨rfl, rfl, rfl⟩, rfl, rfl⟩

theorem SamePosition.trans {w : Storage} (h : SamePosition s t u) (k : SamePosition t w u) :
    SamePosition s w u :=
  ⟨h.debts.trans k.debts, k.collateral.trans h.collateral, k.vault.trans h.vault⟩

theorem SamePositions.position (h : SamePositions s t) (u : Address) : SamePosition s t u :=
  ⟨h.debts.records u, congrFun h.collateral u, congrFun h.vault u⟩

/-- **An act leaves the other users' records alone.** -/
theorem actStep_other {a : Act} (h : actStep e a s = some s') (hu : a.user ≠ u) :
    SamePosition s s' u := by
  have he := actStep_effect h
  refine ⟨actStep_records_other h (Ne.symm hu), ?_, ?_⟩
  · rcases a with _ | _ | _ | _ | _ | _
    · exact (congrFun he.collateral u).trans (Function.update_of_ne (Ne.symm hu) ..)
    · exact congrFun he.collateral u
    · exact congrFun he.collateral u
    · rw [he.store]
      exact Function.update_of_ne (Ne.symm hu) ..
    · rw [he.store]
      rfl
    · obtain ⟨_, hs'⟩ := he.store
      rw [hs']
      rfl
  · rcases a with _ | _ | _ | _ | _ | _
    · exact congrFun he.vault u
    · exact congrFun he.vault u
    · exact congrFun he.vault u
    · rw [he.store]
      rfl
    · rw [he.store]
      exact Function.update_of_ne (Ne.symm hu) ..
    · obtain ⟨_, hs'⟩ := he.store
      rw [hs']
      exact Function.update_of_ne (Ne.symm hu) ..

/-- **A call that changes a user's records performs an act on the user's position.** -/
theorem act_of_changed {tx : Tx} (h : step tx s = some s') (hu : ¬ SamePosition s s' u) :
    ∃ a ∈ tx.op.acts s, a.user = u := by
  by_contra hnone
  simp only [not_exists, not_and] at hnone
  have hacts : EachAct (fun _ _ a => a.user ≠ u) s tx :=
    meets_of_forall fun a ha _ => hnone a ha
  exact hu (step_invariant (I := (SamePosition s · u))
    (fun _ _ _ ha hne hs => hs.trans (actStep_other ha hne))
    (fun _ _ hset hs => hs.trans (hset.positions.position u)) h hacts (.refl s u))

/-! ## Credits -/

/-- The act is one a user gains by: a repayment or an addition of collateral. -/
def Act.Credits : Act → Prop
  | .repay .. => True
  | .depositCollateral .. => True
  | .deposit .. => True
  | _ => False

/-- **A repayment changes the record of its bucket.** -/
theorem repaid_changes {user asset : Address} {amount : ℤ} {r : RateType}
    (h : Repaid e s user asset amount r s') : ¬ SamePosition s s' user := by
  intro hsame
  obtain ⟨accrued, paid, _, hcalc, _, hpaid, _, _, hd⟩ := h.debts
  have hrec := hd.debtRecord r user
  rw [debtRecord_savedDebt, if_pos ⟨rfl, rfl⟩] at hrec
  have hold : debtRecord s r user = debtRecord s' r user := by
    rcases r with _ | _
    · exact hsame.debts.variableDebt.symm
    · exact hsame.debts.stableDebt.symm
  rw [hrec] at hold
  have hbucket : bucketOf e s user asset r = _ :=
    congrArg (fun p => { p with rateType := r })
      (getDebtPosition_of_record (e := e) hold (some asset))
  have haccrued : accrued = 0 := accrued_at_once (congrArg DebtPosition.lastUpdate hbucket) hcalc
  have hprincipal := congrArg DebtPosition.borrowedAmount hbucket
  have hinterest := congrArg DebtPosition.interestAccrued hbucket
  have hpos := h.amount_pos
  simp only at hprincipal hinterest
  omega

/-- **An addition of borrow collateral changes the collateral record.** -/
theorem collateralAdded_changes {user asset : Address} {amount : ℤ}
    (h : CollateralAdded s user asset amount s') : ¬ SamePosition s s' user := by
  intro hsame
  have hamount : (getCollateralPosition s user).amount + amount =
      (getCollateralPosition s user).amount := by
    have hwrite := getCollateralPosition_of_update (congrArg Storage.borrowUserCollateral h.store)
      user
    rw [if_pos rfl, getCollateralPosition, hsame.collateral] at hwrite
    exact (congrArg BorrowCollateral.amount hwrite).symm
  have hpos := h.amount_pos
  omega

/-- The hook credits the sender. -/
theorem hook_credits {token sender : Address} {amount : ℤ} {payload : List Val} {a : Act}
    (hact : hookActs token sender amount payload = [a]) : a.Credits ∧ a.user = sender := by
  unfold hookActs at hact
  split at hact <;> cases hact <;> exact ⟨trivial, rfl⟩

/-- **A credit by the hook changes the sender's records.** -/
theorem hook_changes {token sender : Address} {amount : ℤ} {payload : List Val} {a : Act}
    (hact : hookActs token sender amount payload = [a]) (ha : actStep e a s = some s') :
    ¬ SamePosition s s' sender := by
  have he := actStep_effect ha
  unfold hookActs at hact
  split at hact <;> cases hact
  · exact collateralAdded_changes he
  · exact repaid_changes he

/-! ## Commitments -/

/-- The owner of the commitment a call creates. -/
def Op.creates : Op → Option Address
  | .createBorrowCommitment owner .. => some owner
  | _ => none

/-- In the history, the user signed a call that created the commitment. -/
def CommittedBy (u : Address) (id : ℕ) (history : List Tx) : Prop :=
  ∃ ys tx zs s', history = ys ++ tx :: zs ∧ tx.op.creates = some u ∧ u ∈ tx.env.auths ∧
    step tx (ledger ys) = some s' ∧ (ledger ys).nextId.getD 0 = id

theorem CommittedBy.extend {id : ℕ} {history : List Tx} (h : CommittedBy u id history) (tx : Tx) :
    CommittedBy u id (history ++ [tx]) := by
  obtain ⟨ys, x, zs, s', rfl, hrest⟩ := h
  exact ⟨ys, x, zs ++ [tx], s', by simp, hrest⟩

/-- A commitment rewritten for its owner keeps the owners. -/
theorem owner_of_withCommitment {id id₀ : ℕ} {c c₀ c₁ : BorrowCommitment}
    (hc : (withCommitment id₀ c₁ s).commitment id = some c) (hc₀ : s.commitment id₀ = some c₀)
    (howner : c₁.owner = c₀.owner) :
    ∃ c', s.commitment id = some c' ∧ c'.owner = c.owner := by
  change Function.update s.commitment id₀ (some c₁) id = some c at hc
  by_cases hid : id = id₀
  · subst hid
    rw [Function.update_self] at hc
    cases hc
    exact ⟨c₀, hc₀, howner.symm⟩
  · rw [Function.update_of_ne hid] at hc
    exact ⟨c, hc, rfl⟩

/-- **What a call does to the commitments**: it creates one, or keeps their owners. -/
theorem step_commitment {tx : Tx} {id : ℕ} {c : BorrowCommitment} (h : step tx s = some s')
    (hc : s'.commitment id = some c) :
    (∃ c₀, s.commitment id = some c₀ ∧ c₀.owner = c.owner) ∨
      tx.op.creates = some c.owner ∧ c.owner ∈ tx.env.auths ∧ s.nextId.getD 0 = id := by
  by_cases hop : tx.op.MovesCommitments
  · obtain ⟨e, op⟩ := tx
    cases op <;> first | exact hop.elim | skip
    all_goals
      simp only [step, Op.apply, commit_eq_some] at h
      obtain ⟨r, h⟩ := h
    case createBorrowCommitment =>
      obtain ⟨hauth, c₀, howner, -, rfl⟩ := createBorrowCommitment_ok h
      change Function.update s.commitment _ _ id = _ at hc
      by_cases hid : id = s.nextId.getD 0
      · rw [hid, Function.update_self] at hc
        cases hc
        rw [howner]
        exact .inr ⟨rfl, hauth, hid.symm⟩
      · rw [Function.update_of_ne hid] at hc
        exact .inl ⟨c, hc, rfl⟩
    case cancelBorrowCommitment owner id₀ =>
      obtain ⟨c₀, hc₀, rfl⟩ := cancelBorrowCommitment_ok h
      exact .inl (owner_of_withCommitment hc hc₀ rfl)
    case executeBorrowCommitment id₀ =>
      obtain ⟨c₀, t, hc₀, -, -, hact, rfl⟩ := (executeBorrowCommitment_ok h).store
      rw [← (actStep_frame hact).commitment] at hc₀ ⊢
      exact .inl (owner_of_withCommitment hc hc₀ rfl)
  · have hsame : s'.commitment = s.commitment :=
      step_invariant (C := fun _ _ _ => True) (I := fun t => t.commitment = s.commitment)
        (fun _ _ _ ha _ hs => (actStep_frame ha).commitment.trans hs)
        (fun _ _ hset hs => (hset.commitments hop).trans hs) h
        (meets_of_forall fun _ _ _ => trivial) rfl
    exact .inl ⟨c, by rw [← hsame, hc], rfl⟩

/-- **Every commitment on record was created by its owner.** -/
theorem committedBy_of_recorded {history : List Tx} {id : ℕ} {c : BorrowCommitment}
    (h : (ledger history).commitment id = some c) : CommittedBy c.owner id history := by
  induction history using List.reverseRecOn generalizing c with
  | nil => cases h
  | append_singleton history tx ih =>
    rw [ledger_snoc] at h
    cases hstep : step tx (ledger history) with
    | none =>
      rw [exec_of_none hstep] at h
      exact (ih h).extend tx
    | some s' =>
      rw [exec_of_some hstep] at h
      obtain ⟨c₀, hc₀, howner⟩ | ⟨hcreates, hauth, hid⟩ := step_commitment hstep h
      · rw [← howner]
        exact (ih hc₀).extend tx
      · exact ⟨history, tx, [], s', rfl, hcreates, hauth, hstep, hid⟩

/-! ## Warrants -/

/-- What can justify a change of a user's records by a call after a history: the user signed it, a
live delegation of the user covers every call of the batch, the user created the pending commitment
it executes, or it is a credit and the asset's token contract signed it. -/
inductive Warranted (history : List Tx) (tx : Tx) (u : Address) : Prop where
  | signed (h : u ∈ tx.env.auths)
  | delegated (delegate : Address) (nonce deadline : ℕ) (calls : List MetaCall) (s' : Storage)
      (hop : tx.op = .executeDelegated u delegate nonce deadline calls)
      (h : BatchExecuted tx.env (ledger history) u delegate nonce deadline calls s')
  | committed (id : ℕ) (c : BorrowCommitment) (hop : tx.op = .executeBorrowCommitment id)
      (hc : (ledger history).commitment id = some c) (hpending : c.status = .pending)
      (howner : c.owner = u) (h : CommittedBy u id history)
  | credited (token : Address) (amount : ℤ) (payload : List Val)
      (hop : tx.op = .receive token u amount payload)
      (hcredit : ∀ a ∈ tx.op.acts (ledger history), a.Credits) (h : token ∈ tx.env.auths)

/-- If the call is the token receiver hook, then the sender or the token contract signed it. -/
def HookSigned (tx : Tx) : Prop :=
  match tx.op with
  | .receive token sender _ _ => sender ∈ tx.env.auths ∨ token ∈ tx.env.auths
  | _ => True

/-- **Every path but the hook is warranted**, and so is the hook if it is signed. -/
theorem warranted_of_changed {history : List Tx} {tx : Tx}
    (h : step tx (ledger history) = some s') (hC : HookSigned tx)
    (hu : ¬ SamePosition (ledger history) s' u) : Warranted history tx u := by
  obtain ⟨a, ha, hau⟩ := act_of_changed h hu
  rcases hd : tx.op.direct with _ | b
  · obtain ⟨e, op⟩ := tx
    cases op <;> simp only [Op.acts, List.not_mem_nil] at ha <;>
      simp only [Op.direct, reduceCtorEq] at hd <;>
      simp only [step, Op.apply, commit_eq_some] at h <;> obtain ⟨r, h⟩ := h
    case executeDelegated delegator delegate nonce deadline calls =>
      obtain ⟨c, -, rfl⟩ := List.mem_map.mp ha
      obtain rfl : delegator = u := by
        rw [← hau]
        unfold MetaCall.act
        split <;> rfl
      exact .delegated delegate nonce deadline calls s' rfl (executeDelegated_ok h)
    case receive token sender amount payload =>
      obtain ⟨b, hb, -⟩ := receive_ok h
      obtain ⟨hcredit, hsender⟩ := hook_credits hb
      rw [hb, List.mem_singleton] at ha
      subst ha
      obtain rfl := hsender.symm.trans hau
      refine hC.elim .signed fun htoken => .credited token amount payload rfl ?_ htoken
      simp only [Op.acts, hb, List.mem_singleton, forall_eq]
      exact hcredit
    case executeBorrowCommitment id =>
      obtain ⟨c, t, hc, hpending, -, -, -⟩ := (executeBorrowCommitment_ok h).store
      simp only [hc, Option.map_some, Option.toList_some, List.mem_singleton] at ha
      subst ha
      exact .committed id c rfl hc hpending hau (hau ▸ committedBy_of_recorded hc)
  · rw [(Op.direct_acts hd _).1, List.mem_singleton] at ha
    rw [← hau, ha]
    exact .signed (step_direct h hd).1

/-- **Every change of a user's records is warranted exactly when every call of the hook is signed by
the sender or by the token contract.** -/
theorem changes_warranted_iff {txs : List Tx} :
    (∀ ys tx zs s' u, txs = ys ++ tx :: zs → step tx (ledger ys) = some s' →
      ¬ SamePosition (ledger ys) s' u → Warranted ys tx u) ↔
      Meets step (fun _ tx => HookSigned tx) Storage.empty txs := by
  rw [meets_iff]
  constructor
  · rintro hall ys ⟨e, op⟩ zs s' htxs hstep
    unfold HookSigned
    split
    · rename_i token sender amount payload hop
      obtain rfl : op = _ := hop
      obtain ⟨r, h⟩ := commit_eq_some.mp hstep
      obtain ⟨a, hact, ha⟩ := receive_ok h
      cases hall ys _ zs s' sender htxs hstep (hook_changes hact ha) with
      | signed h => exact .inl h
      | delegated _ _ _ _ _ hop => cases hop
      | committed _ _ hop => cases hop
      | credited _ _ _ hop _ h =>
        cases hop
        exact .inr h
    · trivial
  · intro hmeets ys tx zs s' u htxs hstep hu
    exact warranted_of_changed hstep (hmeets ys tx zs s' htxs hstep) hu

namespace Sample

/-- Bob calls the hook in Alice's name: nothing is transferred, and nobody else signs. -/
def forgedHook : Tx := ⟨envAt 5 [bob], .receive xlm alice 100 [.symbol "deposit"]⟩

end Sample

/-- Alice is credited collateral that nobody transferred. -/
theorem forged_hook_unwarranted :
    ∃ s', step Sample.forgedHook (ledger [Sample.deploy]) = some s' ∧
      ¬ SamePosition (ledger [Sample.deploy]) s' Sample.alice ∧
      ¬ Warranted [Sample.deploy] Sample.forgedHook Sample.alice := by
  have hrun : ((step Sample.forgedHook (ledger [Sample.deploy])).map fun s' =>
      ((ledger [Sample.deploy]).borrowUserCollateral Sample.alice,
        s'.borrowUserCollateral Sample.alice)) = some (none, some ⟨100, Sample.xlm⟩) := by
    decide
  obtain ⟨s', hstep, hs'⟩ := Option.map_eq_some_iff.mp hrun
  obtain ⟨hbefore, hafter⟩ := Prod.mk.inj hs'
  refine ⟨s', hstep, fun hsame => ?_, fun hw => ?_⟩
  · rw [hsame.collateral, hbefore] at hafter
    cases hafter
  · cases hw with
    | signed h => exact absurd h (by decide)
    | delegated _ _ _ _ _ hop => cases hop
    | committed _ _ hop => cases hop
    | credited _ _ _ hop _ h =>
      cases hop
      exact absurd h (by decide)

end StellarLend.Lending
