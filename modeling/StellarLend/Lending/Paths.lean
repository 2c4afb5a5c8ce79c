import StellarLend.Lending.Effects
import StellarLend.Lending.Contract

/-!
# Lending/Paths — the inner functions that write positions, and the paths that lead to them

Many entry points reach the same few inner functions.  An `Act` is a run of one of those on one
user's position, without the authorisation and pause checks of the path taken to it, and `actStep`
is the machine they make.  `Act.Effect` says what an act does; `Settlement` takes the calls of the
contract apart into acts.

`Op.acts` lists the acts of a call.  For every path there is one lemma that says what a call that
took it has checked and what it did: a direct call is signed by its user and not paused
(`step_direct`), a delegated batch has a delegation for each of its calls, a commitment is pending,
and the token receiver hook checks nothing.
-/

namespace StellarLend.Lending

open Foundations Call

section

/-! ## Acts -/

/-- A run of an inner function on a user's position. -/
inductive Act where
  | borrow (user asset : Address) (amount : ℤ) (collateralAsset : Address) (collateralAmount : ℤ)
      (rateType : RateType)
  | repay (user asset : Address) (amount : ℤ) (rateType : Option RateType)
  | switchRateType (user asset : Address) (toRateType : RateType)
  | depositCollateral (user asset : Address) (amount : ℤ)
  | deposit (user asset : Address) (amount : ℤ)
  | withdraw (user asset : Address) (amount : ℤ)
  deriving DecidableEq

/-- Whose position the act is on. -/
def Act.user : Act → Address
  | .borrow user .. => user
  | .repay user .. => user
  | .switchRateType user .. => user
  | .depositCollateral user .. => user
  | .deposit user .. => user
  | .withdraw user .. => user

/-- The store after an act that succeeded. -/
def actStep (e : Env) (a : Act) (s : Storage) : Option Storage :=
  match a with
  | .borrow user asset amount casset camount rate =>
    commit (borrowInner user asset amount casset camount rate .trustedCommitment) e s
  | .repay user asset amount none => commit (Borrow.repay user asset amount) e s
  | .repay user asset amount (some rate) => commit (Borrow.repayWithRate user asset amount rate) e s
  | .switchRateType user asset rate => commit (Borrow.switchRateType user asset rate) e s
  | .depositCollateral user asset amount => commit (Borrow.deposit user asset amount) e s
  | .deposit user asset amount => commit (depositWithAuth user asset amount false) e s
  | .withdraw user asset amount => commit (withdrawWithAuth user asset amount false) e s

/-- The bucket a repayment that names none goes to. -/
def repayBucket (e : Env) (s : Storage) (user asset : Address) : RateType :=
  if (getDebtPosition e s user (some asset) .variable).Owing then .variable else .stable

/-- What an act does. -/
def Act.Effect (e : Env) (s : Storage) : Act → Storage → Prop
  | .borrow user asset amount casset camount rate =>
    Borrowed e s user asset amount casset camount rate
  | .repay user asset amount rate =>
    Repaid e s user asset amount (rate.getD (repayBucket e s user asset))
  | .switchRateType user asset rate => Switched e s user asset rate
  | .depositCollateral user asset amount => CollateralAdded s user asset amount
  | .deposit user asset amount => VaultDeposited e s user asset amount
  | .withdraw user asset amount => VaultWithdrawn e s user asset amount

variable {e : Env} {s t s' : Storage} {r : Unit}

theorem repay_ok {user asset : Address} {amount : ℤ}
    (h : Borrow.repay user asset amount e s = .ok r s') :
    Repaid e s user asset amount (repayBucket e s user asset) s' := by
  simp only [Borrow.repay, look_seq] at h
  unfold repayBucket
  split at h <;> rename_i howing
  · rw [if_pos howing]
    exact repayWithRate_ok h
  · rw [if_neg howing]
    exact repayWithRate_ok h

/-- **What an act that succeeds does.** -/
theorem actStep_effect {a : Act} (h : actStep e a s = some s') : a.Effect e s s' := by
  rcases a with _ | ⟨user, asset, amount, _ | rate⟩ | _ | _ | _ | _ <;>
    obtain ⟨_, h⟩ := commit_eq_some.mp h
  · exact (borrowInner_ok h).2
  · exact repay_ok h
  · exact repayWithRate_ok h
  · exact switchRateType_ok h
  · exact borrowDeposit_ok h
  · exact (depositWithAuth_ok h).2
  · exact (withdrawWithAuth_ok h).2

theorem actStep_frame {a : Act} (h : actStep e a s = some s') : Frame s s' := by
  have he := actStep_effect h
  rcases a with _ | _ | _ | _ | _ | _
  · exact he.frame
  · exact he.frame
  · exact he.frame
  · exact CollateralAdded.frame he
  · exact VaultDeposited.frame he
  · exact VaultWithdrawn.frame he

/-! ## Rate parameters -/

/-- A store in a frame of a valid one is valid if its average rate comes from a valid store. -/
theorem RatesValid.frame (h : RatesValid s) (hf : Frame s s') (ht : RatesValid t)
    (hst : s'.stableRateState = t.stableRateState) : RatesValid s' where
  config := by
    rw [Frame] at hf
    rw [hf]
    exact h.config
  average := by
    rw [hst]
    exact ht.average
  premium := by
    rw [Frame] at hf
    rw [hf]
    exact h.premium
  switchFee := by
    rw [Frame] at hf
    rw [hf]
    exact h.switchFee

/-- **Every act keeps the rate parameters valid.** -/
theorem RatesValid.act {a : Act} (h : RatesValid s) (ha : actStep e a s = some s') :
    RatesValid s' := by
  have hf := actStep_frame ha
  have he := actStep_effect ha
  rcases a with _ | _ | _ | _ | _ | _
  · obtain ⟨_, _, t, u, ht, hu, hst, _⟩ := he.debts
    exact h.frame hf (((calculateInterest_refreshes ht).trans (bucketRateBps_ok hu).1).rates h) hst
  · obtain ⟨_, _, t, ht, hst, _⟩ := he.debts
    exact h.frame hf ((calculateInterest_refreshes ht).rates h) hst
  · obtain ⟨_, _, t, u, ht, hu, hst, _⟩ := he.debts
    exact h.frame hf (((calculateInterest_refreshes ht).trans (bucketRateBps_ok hu).1).rates h) hst
  · refine h.frame hf h ?_
    rw [he.store]
    rfl
  · refine h.frame hf h ?_
    rw [he.store]
    rfl
  · refine h.frame hf h ?_
    obtain ⟨_, hs⟩ := he.store
    rw [hs]
    rfl

/-- **No act stores a stable rate where there was none.** -/
theorem actStep_dormant {a : Act} (ha : actStep e a s = some s') (h : s.stableRateState = none) :
    s'.stableRateState = none := by
  have he := actStep_effect ha
  rcases a with _ | _ | _ | _ | _ | _
  · obtain ⟨_, _, t, u, ht, hu, hst, _⟩ := he.debts
    rw [hst]
    exact ((calculateInterest_refreshes ht).trans (bucketRateBps_ok hu).1).dormant h
  · obtain ⟨_, _, t, ht, hst, _⟩ := he.debts
    rw [hst]
    exact (calculateInterest_refreshes ht).dormant h
  · obtain ⟨_, _, t, u, ht, hu, hst, _⟩ := he.debts
    rw [hst]
    exact ((calculateInterest_refreshes ht).trans (bucketRateBps_ok hu).1).dormant h
  · rw [he.store]
    exact h
  · rw [he.store]
    exact h
  · obtain ⟨_, hs⟩ := he.store
    rw [hs]
    exact h

end

/-! ## The paths from the entry points -/

section

variable {e : Env} {s t s' : Storage}

/-! ## The acts of a call -/

/-- The act of a call of a delegated batch. -/
def MetaCall.act (delegator : Address) (c : MetaCall) : Act :=
  match c.action with
  | .deposit => .deposit delegator c.asset c.amount
  | .withdraw => .withdraw delegator c.asset c.amount
  | .borrow => .borrow delegator c.asset c.amount (c.collateralAsset.getD delegator)
    (c.collateralAmount.getD 0) .variable
  | .repay => .repay delegator c.asset c.amount none
  | .depositCollateral => .depositCollateral delegator c.asset c.amount

/-- The act a payload of the token receiver hook asks for. -/
def hookActs (tokenAsset sender : Address) (amount : ℤ) (payload : List Val) : List Act :=
  match payload.head?.bind Val.toSymbol with
  | some "deposit" => [.depositCollateral sender tokenAsset amount]
  | some "repay" => [.repay sender tokenAsset amount none]
  | _ => []

/-- The act of executing a commitment. -/
def BorrowCommitment.act (s : Storage) (c : BorrowCommitment) : Act :=
  .borrow c.owner c.borrowAsset (fillAmount s c) c.collateralAsset
    ((collateralFill c (fillAmount s c)).getD 0) .variable

/-- The pause flag an act is meant to be under; none for a switch of the rate type. -/
def Act.pauseType : Act → Option PauseType
  | .borrow .. => some .borrow
  | .repay .. => some .repay
  | .switchRateType .. => none
  | .depositCollateral .. => some .deposit
  | .deposit .. => some .deposit
  | .withdraw .. => some .withdraw

/-- The acts a call performs if it succeeds. -/
def Op.acts (s : Storage) : Op → List Act
  | .borrow user asset amount casset camount => [.borrow user asset amount casset camount .variable]
  | .borrowWithRate user asset amount casset camount rate =>
    [.borrow user asset amount casset camount rate]
  | .repay user asset amount => [.repay user asset amount none]
  | .repayWithRate user asset amount rate => [.repay user asset amount (some rate)]
  | .switchRateType user asset rate => [.switchRateType user asset rate]
  | .deposit user asset amount => [.deposit user asset amount]
  | .depositCollateral user asset amount => [.depositCollateral user asset amount]
  | .withdraw user asset amount => [.withdraw user asset amount]
  | .receive token sender amount payload => hookActs token sender amount payload
  | .executeBorrowCommitment id => ((s.commitment id).map fun c => c.act s).toList
  | .executeDelegated delegator _ _ _ calls => calls.map (MetaCall.act delegator)
  | _ => []

/-- The store the acts of a call start from: a delegated batch uses up a nonce first. -/
def Op.start (s : Storage) : Op → Storage
  | .executeDelegated delegator .. => withNonce delegator (getNonce s delegator + 1) s
  | _ => s

/-- Only a direct call borrows at the stable rate. -/
theorem Op.mem_acts_stable {op : Op} {user asset casset : Address} {amount camount : ℤ}
    (h : .borrow user asset amount casset camount .stable ∈ op.acts s) :
    op = .borrowWithRate user asset amount casset camount .stable := by
  cases op
  case receive =>
    simp only [Op.acts, hookActs] at h
    split at h <;> simp at h
  case executeBorrowCommitment => simp only [acts, BorrowCommitment.act, Option.mem_toList,
    Option.map_eq_some_iff, Act.borrow.injEq, reduceCtorEq, and_false, exists_false] at h
  case executeDelegated =>
    obtain ⟨c, -, hc⟩ := List.mem_map.mp h
    unfold MetaCall.act at hc
    split at hc <;> cases hc
  all_goals simp [Op.acts] at h
  obtain ⟨rfl, rfl, rfl, rfl, rfl, rfl⟩ := h
  rfl

/-! ## Direct calls -/

theorem borrowInner_signed {user asset casset : Address} {amount camount : ℤ}
    {rateType : RateType} :
    borrowInner user asset amount casset camount rateType .requireUserSignature e s = .ok r s' ↔
      user ∈ e.auths ∧
        borrowInner user asset amount casset camount rateType .trustedCommitment e s =
          .ok r s' :=
  onlyIf_requireAuth_ok rfl (by decide)

theorem depositWithAuth_signed {user asset : Address} {amount r : ℤ} :
    depositWithAuth user asset amount true e s = .ok r s' ↔
      user ∈ e.auths ∧ depositWithAuth user asset amount false e s = .ok r s' :=
  onlyIf_requireAuth_ok rfl (by decide)

theorem withdrawWithAuth_signed {user asset : Address} {amount r : ℤ} :
    withdrawWithAuth user asset amount true e s = .ok r s' ↔
      user ∈ e.auths ∧ withdrawWithAuth user asset amount false e s = .ok r s' :=
  onlyIf_requireAuth_ok rfl (by decide)

/-- The act of a call a user makes on the own position. -/
def Op.direct : Op → Option Act
  | .borrow user asset amount casset camount =>
    some (.borrow user asset amount casset camount .variable)
  | .borrowWithRate user asset amount casset camount rate =>
    some (.borrow user asset amount casset camount rate)
  | .repay user asset amount => some (.repay user asset amount none)
  | .repayWithRate user asset amount rate => some (.repay user asset amount (some rate))
  | .switchRateType user asset rate => some (.switchRateType user asset rate)
  | .deposit user asset amount => some (.deposit user asset amount)
  | .depositCollateral user asset amount => some (.depositCollateral user asset amount)
  | .withdraw user asset amount => some (.withdraw user asset amount)
  | _ => none

/-- **A direct call** is signed by the user, not paused, and its act and nothing else. -/
theorem step_direct {tx : Tx} {a : Act} (h : step tx s = some s') (ha : tx.op.direct = some a) :
    a.user ∈ tx.env.auths ∧ (∀ k, a.pauseType = some k → isPaused s k = false) ∧
      actStep tx.env a s = some s' := by
  obtain ⟨e, op⟩ := tx
  cases op <;> simp only [Op.direct, reduceCtorEq, Option.some.injEq] at ha <;> subst ha <;>
    simp only [step, Op.apply, commit_eq_some] at h <;> obtain ⟨r, h⟩ := h
  case borrow =>
    obtain ⟨hauth, h⟩ := borrowInner_signed.mp h
    refine ⟨hauth, ?_, commit_eq_some.mpr ⟨r, h⟩⟩
    rintro _ ⟨⟩
    exact (borrowInner_ok h).2.unpaused
  case borrowWithRate =>
    obtain ⟨hauth, h⟩ := borrowInner_signed.mp h
    refine ⟨hauth, ?_, commit_eq_some.mpr ⟨r, h⟩⟩
    rintro _ ⟨⟩
    exact (borrowInner_ok h).2.unpaused
  case repay =>
    simp [LendingContract.repay] at h
    exact ⟨h.1, by rintro _ ⟨⟩; exact h.2.1, commit_eq_some.mpr ⟨r, h.2.2⟩⟩
  case repayWithRate =>
    simp [LendingContract.repayWithRate] at h
    exact ⟨h.1, by rintro _ ⟨⟩; exact h.2.1, commit_eq_some.mpr ⟨r, h.2.2⟩⟩
  case switchRateType =>
    simp [LendingContract.switchRateType] at h
    exact ⟨h.1, by rintro _ ⟨⟩, commit_eq_some.mpr ⟨r, h.2.2⟩⟩
  case deposit =>
    simp [LendingContract.deposit, Deposit.deposit] at h
    obtain ⟨hauth, hd⟩ := depositWithAuth_signed.mp h.2
    exact ⟨hauth, by rintro _ ⟨⟩; exact h.1, commit_eq_some.mpr ⟨r, hd⟩⟩
  case depositCollateral =>
    simp [LendingContract.depositCollateral] at h
    exact ⟨h.1, by rintro _ ⟨⟩; exact h.2.1, commit_eq_some.mpr ⟨r, h.2.2⟩⟩
  case withdraw =>
    simp [LendingContract.withdraw, Withdraw.withdraw] at h
    obtain ⟨hauth, hw⟩ := withdrawWithAuth_signed.mp h.2
    exact ⟨hauth, by rintro _ ⟨⟩; exact h.1, commit_eq_some.mpr ⟨r, hw⟩⟩

/-- A direct call performs its own act. -/
theorem Op.direct_acts {op : Op} {a : Act} (h : op.direct = some a) (s : Storage) :
    op.acts s = [a] ∧ op.start s = s := by
  cases op <;> simp only [Op.direct, reduceCtorEq, Option.some.injEq] at h <;> subst h <;>
    exact ⟨rfl, rfl⟩

/-! ## Indirect calls -/

theorem triggerMet_ok {trigger : PriceTrigger} {b : Bool}
    (h : triggerMet trigger e s = .ok b t) : t = s := by
  simp only [triggerMet, readPrice, bind_ok, view_ok, okOr_ok, asks_ok, orTrap_ok, pure_ok] at h
  obtain ⟨_, _, ⟨_, _, ⟨-, rfl⟩, _, _, ⟨-, rfl⟩, _, _, ⟨-, rfl⟩, -, rfl⟩, -, rfl⟩ := h
  rfl

theorem anyTriggerMet_ok {triggers : List PriceTrigger} {b : Bool}
    (h : anyTriggerMet triggers e s = .ok b t) : t = s := by
  induction triggers with
  | nil => exact (pure_ok.mp h).2.symm
  | cons trigger ts ih =>
    simp only [anyTriggerMet, bind_ok] at h
    obtain ⟨met, _, hmet, h⟩ := h
    obtain rfl := triggerMet_ok hmet
    split at h
    · exact (pure_ok.mp h).2.symm
    · exact ih h

theorem allTriggersMet_ok {triggers : List PriceTrigger} {b : Bool}
    (h : allTriggersMet triggers e s = .ok b t) : t = s := by
  induction triggers with
  | nil => exact (pure_ok.mp h).2.symm
  | cons trigger ts ih =>
    simp only [allTriggersMet, bind_ok] at h
    obtain ⟨met, _, hmet, h⟩ := h
    obtain rfl := triggerMet_ok hmet
    split at h
    · exact ih h
    · exact (pure_ok.mp h).2.symm

theorem triggersSatisfied_ok {triggers : List PriceTrigger} {combiner : TriggerCombiner} {b : Bool}
    (h : triggersSatisfied triggers combiner e s = .ok b t) : t = s := by
  unfold triggersSatisfied at h
  split at h
  · simp at h
  · rcases combiner with _ | _
    · exact anyTriggerMet_ok h
    · exact allTriggersMet_ok h

/-- What a successful creation of a commitment has checked and what it leaves behind: a pending
commitment of the owner, under the next identifier. -/
structure CommitmentCreated (e : Env) (s : Storage) (owner : Address) (s' : Storage) : Prop where
  authorized : owner ∈ e.auths
  store : ∃ c : BorrowCommitment, c.owner = owner ∧ c.status = .pending ∧
    s' = { withCommitment (s.nextId.getD 0) c s with nextId := some (s.nextId.getD 0 + 1) }

/-- **What creating a commitment does.** -/
theorem createBorrowCommitment_ok {owner basset casset : Address} {triggers : List PriceTrigger}
    {combiner : TriggerCombiner} {bamount camount : ℤ} {fill expiry id : ℕ}
    (h : Commitments.createBorrowCommitment owner triggers combiner basset casset bamount camount
      fill expiry e s = .ok id s') : CommitmentCreated e s owner s' := by
  simp only [Commitments.createBorrowCommitment, setCommitment, requireAuth_seq, failIf_seq, not_lt,
    not_or, not_le, mapErr_seq, ofExcept_ok, asks_seq, view_seq, store_seq, orTrap_seq,
    nextU64_eq_some, Nat.reducePow, pure_ok, ↓existsAndEq, and_true, exists_and_right] at h
  obtain ⟨hauth, -, -, -, -, -, -, -, rfl⟩ := h
  exact ⟨hauth, _, rfl, rfl, rfl⟩

/-- **What cancelling a commitment does.** -/
theorem cancelBorrowCommitment_ok {owner : Address} {id : ℕ}
    (h : Commitments.cancelBorrowCommitment owner id e s = .ok r s') :
    ∃ c, s.commitment id = some c ∧ s' = withCommitment id { c with status := .cancelled } s := by
  simp only [Commitments.cancelBorrowCommitment, ne_eq, setCommitment, requireAuth_seq, view_seq,
    okOr_seq, failIf_seq, Decidable.not_not, store_ok] at h
  obtain ⟨-, c, hc, -, -, rfl⟩ := h
  exact ⟨c, hc, rfl⟩

/-- What a successful execution of a commitment has checked and what it leaves behind. -/
structure CommitmentExecuted (e : Env) (s : Storage) (id : ℕ) (s' : Storage) : Prop where
  store : ∃ c t, s.commitment id = some c ∧ c.status = .pending ∧
    e.timestamp ≤ c.expiryTimestamp ∧ actStep e (c.act s) s = some t ∧
    s' = withCommitment id { c with status := .executed } t

/-- What executing a commitment runs through, step by step. -/
theorem executeBorrowCommitment_steps {id : ℕ}
    (h : Commitments.executeBorrowCommitment id e s = .ok r s') :
    ∃ c collateral t, s.commitment id = some c ∧ c.status = .pending ∧
      e.timestamp ≤ c.expiryTimestamp ∧
      triggersSatisfied c.triggers c.combiner e s = .ok true s ∧
      I128.saturatingDiv (I128.saturatingMul c.borrowAmount c.minFillBps) 10000 ≤ fillAmount s c ∧
      collateralFill c (fillAmount s c) = some collateral ∧
      borrowFromCommitment c.owner c.borrowAsset (fillAmount s c) c.collateralAsset collateral e s =
        .ok () t ∧ s' = withCommitment id { c with status := .executed } t := by
  simp only [Commitments.executeBorrowCommitment, setCommitment, bind_ok, view_ok, okOr_ok,
    failIf_ok, asks_ok, onlyIf_ok, fail_ok, orTrap_ok, mapErr_ok, ofExcept_ok, store_ok, and_assoc,
    exists_and_left, exists_eq_left', exists_const, and_false] at h
  obtain ⟨c, hc, hpending, hlate, _, hs, satisfied, _, htriggers, hsatisfied, hleast, -, collateral,
    hcollateral, -, _, -, _, t, hborrow, hs'⟩ := h
  have hle : ¬ c.expiryTimestamp < e.timestamp := fun hlt => (hlate hlt).elim fun _ hf => hf
  obtain rfl := hs hle
  obtain rfl := triggersSatisfied_ok htriggers
  obtain rfl : satisfied = true := by simpa using hsatisfied
  exact ⟨c, collateral, t, hc, not_ne_iff.mp hpending, not_lt.mp hle, htriggers, not_lt.mp hleast,
    hcollateral, hborrow, hs'.symm⟩

/-- **What executing a commitment does.** -/
theorem executeBorrowCommitment_ok {id : ℕ}
    (h : Commitments.executeBorrowCommitment id e s = .ok r s') : CommitmentExecuted e s id s' := by
  obtain ⟨c, collateral, t, hc, hpending, hle, -, -, hcollateral, hborrow, hs'⟩ :=
    executeBorrowCommitment_steps h
  refine ⟨c, t, hc, hpending, hle, commit_eq_some.mpr ⟨(), ?_⟩, hs'⟩
  rw [hcollateral]
  exact hborrow

/-- What a delegated call has checked and what it does. -/
theorem executeAction_ok {delegator : Address} {c : MetaCall}
    (h : executeAction delegator c e s = .ok r s') :
    (∀ k, (c.act delegator).pauseType = some k → isPaused s k = false) ∧
      actStep e (c.act delegator) s = some s' := by
  unfold executeAction at h
  rcases hc : c.action with _ | _ | _ | _ | _ <;>
    simp [hc, failIfPaused, asUnauthorized, borrowTrusted] at h <;>
    simp only [MetaCall.act, hc, actStep, commit_eq_some]
  · exact ⟨by rintro _ ⟨⟩; exact h.1, h.2⟩
  · exact ⟨by rintro _ ⟨⟩; exact h.1, h.2⟩
  · obtain ⟨hpaused, camount, hcasset, amount, hcamount, r, h⟩ := h
    rw [hcasset, hcamount]
    exact ⟨by rintro _ ⟨⟩; exact hpaused, r, h⟩
  · exact ⟨by rintro _ ⟨⟩; exact h.1, h.2⟩
  · exact ⟨by rintro _ ⟨⟩; exact h.1, h.2⟩

/-- **A batch performs its calls one after the other**, each under a delegation and none paused. -/
theorem executeCalls_ok {registry delegator delegate : Address} {calls : List MetaCall}
    (h : executeCalls registry delegator delegate calls e s = .ok r s') :
    chain (actStep e) s (calls.map (MetaCall.act delegator)) = some s' ∧
      (∀ c ∈ calls, e.validate registry delegator delegate c.action.permission = some true) ∧
      ∀ c ∈ calls, ∀ k, (c.act delegator).pauseType = some k → isPaused s k = false := by
  induction calls generalizing s with
  | nil => exact ⟨congrArg some (pure_ok.mp h).2, by simp, by simp⟩
  | cons c cs ih =>
    simp only [executeCalls, validateDelegation, bind_ok, ↓asks_seq, ↓orTrap_seq, failIf_ok,
      Bool.not_eq_false, ↓existsAndEq, and_true, exists_const] at h
    obtain ⟨hvalid, _, t, hc, hcs⟩ := h
    obtain ⟨hpaused, hact⟩ := executeAction_ok hc
    obtain ⟨hchain, hall, hunpaused⟩ := ih hcs
    refine ⟨?_, List.forall_mem_cons.mpr ⟨hvalid, hall⟩, List.forall_mem_cons.mpr ⟨hpaused, ?_⟩⟩
    · rw [List.map_cons, chain_cons, hact]
      exact hchain
    · intro c' hc' k hk
      rw [← isPaused_congr (actStep_frame hact).pauseState]
      exact hunpaused c' hc' k hk

/-- What a successful batch has checked and what it leaves behind. -/
structure BatchExecuted (e : Env) (s : Storage) (delegator delegate : Address) (nonce deadline : ℕ)
    (calls : List MetaCall) (s' : Storage) : Prop where
  authorized : delegate ∈ e.auths
  live : deadline ≠ 0 → e.timestamp ≤ deadline
  nonce_eq : nonce = getNonce s delegator
  delegated : ∃ registry, s.delegationRegistry = some registry ∧
    ∀ c ∈ calls, e.validate registry delegator delegate c.action.permission = some true
  unpaused : ∀ c ∈ calls, ∀ k, (c.act delegator).pauseType = some k → isPaused s k = false
  store : chain (actStep e) (withNonce delegator (getNonce s delegator + 1) s)
    (calls.map (MetaCall.act delegator)) = some s'

/-- What a delegated batch runs through before its calls. -/
theorem executeDelegated_steps {delegator delegate : Address} {nonce deadline : ℕ}
    {calls : List MetaCall}
    (h : Meta.executeDelegated delegator delegate nonce deadline calls e s = .ok r s') :
    delegate ∈ e.auths ∧ (deadline ≠ 0 → e.timestamp ≤ deadline) ∧ nonce = getNonce s delegator ∧
      ∃ registry, s.delegationRegistry = some registry ∧
        executeCalls registry delegator delegate calls e
          (withNonce delegator (getNonce s delegator + 1) s) = .ok r s' := by
  simp only [Meta.executeDelegated, setNonce, requireAuth_seq, asks_seq, failIf_seq, view_seq,
    orTrap_seq, nextU64_eq_some, store_seq, okOr_seq, and_assoc, exists_and_left, exists_eq_left']
    at h
  obtain ⟨hauth, hlive, hnonce, -, registry, hregistry, hcalls⟩ := h
  exact ⟨hauth, fun h0 => not_lt.mp fun hlt => hlive ⟨h0, hlt⟩, not_ne_iff.mp hnonce, registry,
    hregistry, hcalls⟩

/-- **What a delegated batch does.** -/
theorem executeDelegated_ok {delegator delegate : Address} {nonce deadline : ℕ}
    {calls : List MetaCall}
    (h : Meta.executeDelegated delegator delegate nonce deadline calls e s = .ok r s') :
    BatchExecuted e s delegator delegate nonce deadline calls s' := by
  obtain ⟨hauth, hlive, hnonce, registry, hreg, hcalls⟩ := executeDelegated_steps h
  obtain ⟨hchain, hall, hunpaused⟩ := executeCalls_ok hcalls
  exact ⟨hauth, hlive, hnonce, ⟨registry, hreg, hall⟩, hunpaused, hchain⟩

/-- A flash loan writes nothing. -/
theorem flashLoan_ok {receiver asset : Address} {amount : ℤ}
    (h : LendingContract.flashLoan receiver asset amount e s = .ok r s') : s = s' := by
  simp only [LendingContract.flashLoan, view_seq, failIf_seq, failIf_ok, asks_seq, orTrap_seq,
    require_seq] at h
  obtain ⟨-, -, _, -, -, _, -, -, _, -, _, -, -, hs'⟩ := h
  exact hs'

/-- **What the token receiver hook does**: the act its payload asks for, and no check besides. -/
theorem receive_ok {token sender : Address} {amount : ℤ} {payload : List Val}
    (h : TokenReceiver.receive token sender amount payload e s = .ok r s') :
    ∃ a, hookActs token sender amount payload = [a] ∧ actStep e a s = some s' := by
  simp only [TokenReceiver.receive, failIf_seq, okOr_seq, orTrap_seq] at h
  obtain ⟨-, first, hfirst, action, haction, h⟩ := h
  have hname : payload.head?.bind Val.toSymbol = some action := by rw [hfirst]; exact haction
  unfold hookActs
  rw [hname]
  split at h
  · rename_i hdep
    rw [hdep]
    exact ⟨_, rfl, commit_eq_some.mpr ⟨r, h⟩⟩
  · split at h
    · rename_i hrep
      rw [hrep]
      exact ⟨_, rfl, commit_eq_some.mpr ⟨r, h⟩⟩
    · simp at h

/-! ## The rate model -/

/-- The rate model is updated, with the signature of the stored admin. -/
structure RateModelUpdated (e : Env) (s s' : Storage) : Prop where
  signed : ∀ admin, getAdmin s = some admin → admin ∈ e.auths
  store : ∃ update next, nextConfig (getConfig e s) update e.timestamp = .ok next ∧
    s' = { s with borrowInterestRate := some next }

theorem updateConfig_ok {caller : Address} {update : InterestRateConfigUpdate}
    {r : InterestRateConfig × InterestRateConfig}
    (h : updateConfig caller update e s = .ok r s') : RateModelUpdated e s s' := by
  simp only [updateConfig, requireAuth_seq, view_seq, okOr_seq, failIf_seq, look_seq, asks_seq,
    ofExcept_seq, store_seq, pure_ok] at h
  obtain ⟨hauth, stored, hadmin, hcaller, next, hnext, -, rfl⟩ := h
  refine ⟨fun admin ha => ?_, update, next, hnext, rfl⟩
  obtain rfl : stored = admin := Option.some.inj (hadmin.symm.trans ha)
  rw [← not_not.mp hcaller]
  exact hauth

theorem updateInterestRateModel_ok {caller : Address} {update : InterestRateConfigUpdate}
    (h : LendingContract.updateInterestRateModel caller update e s = .ok r s') :
    RateModelUpdated e s s' := by
  obtain ⟨_, _, hupdate, h⟩ := bind_ok.mp h
  obtain ⟨-, rfl⟩ := pure_ok.mp h
  exact updateConfig_ok (mapErr_ok.mp hupdate)

theorem setVariableBorrowRateBps_ok {admin : Address} {rateBps : ℤ}
    (h : Borrow.setVariableBorrowRateBps admin rateBps e s = .ok r s') :
    RateModelUpdated e s s' := by
  simp only [Borrow.setVariableBorrowRateBps, view_seq, okOr_seq, failIf_seq, requireAuth_seq,
    requireAuthAgain_seq, mapErr_seq, pure_ok] at h
  obtain ⟨_, -, -, -, -, -, _, _, hupdate, -, rfl⟩ := h
  exact updateConfig_ok hupdate

/-! ## Setup and configuration -/

/-- The store after the borrow settings are initialised: what was read by default is written. -/
def withBorrowSettings (e : Env) (ceiling minBorrow : ℤ) (s : Storage) : Storage :=
  { s with
    borrowDebtCeiling := some ceiling
    borrowMinAmount := some minBorrow
    borrowInterestRate := some (getConfig e s)
    stableRatePremiumBps := some (getStableRatePremiumBps s)
    stableRateRecalcIntervalSecs := some (getStableRateRecalcIntervalSecs s)
    rateSwitchFeeBps := some (getRateSwitchFeeBps s) }

theorem initializeBorrowSettings_store {ε : Type} {ceiling minBorrow : ℤ} :
    (Borrow.initializeBorrowSettings ceiling minBorrow : Invocation ε Unit) e s = .ok r s' ↔
      withBorrowSettings e ceiling minBorrow s = s' := by
  simp only [Borrow.initializeBorrowSettings, setDefaultIfMissing, Option.or_some, store_seq,
    store_ok, asks_seq, seq_assoc]
  rfl

/-- The first initialisation names the admin and initialises the borrow settings. -/
theorem initializeProtocol_ok {admin : Address} {ceiling minBorrow : ℤ}
    (h : LendingContract.initializeProtocol admin ceiling minBorrow e s = .ok r s') :
    getAdmin s = none ∧
      withBorrowSettings e ceiling minBorrow { s with protocolAdmin := some admin } = s' := by
  simp only [LendingContract.initializeProtocol, bind_ok, view_ok, ↓failIf_seq, ↓store_seq,
    store_ok, initializeBorrowSettings_store, setDefaultIfMissing, ↓asks_seq, and_assoc,
    exists_and_left, exists_eq_left', exists_const, Option.not_isSome_iff_eq_none] at h
  exact h

theorem setStablecoinConfig_ok {admin asset : Address} {config : StablecoinConfig}
    (h : Borrow.setStablecoinConfig admin asset config e s = .ok r s') :
    { s with assetStablecoinConfig :=
        Function.update s.assetStablecoinConfig asset (some config) } = s' :=
  store_ok.mp (requireAdmin_seq.mp h).2.2

/-- The flash loan fee is set with the signature of the stored admin. -/
theorem setFlashLoanFeeBps_ok {feeBps : ℤ}
    (h : LendingContract.setFlashLoanFeeBps feeBps e s = .ok r s') :
    (∃ admin, getAdmin s = some admin ∧ admin ∈ e.auths) ∧
      { s with flashLoanFeeBps := some feeBps } = s' := by
  simp only [LendingContract.setFlashLoanFeeBps, view_seq, okOr_seq, requireAuth_seq, failIf_seq,
    store_ok] at h
  obtain ⟨admin, hadmin, hauth, -, hs⟩ := h
  exact ⟨⟨admin, hadmin, hauth⟩, hs⟩

theorem setRiskAlertThresholds_ok {admin : Address} {th : RiskAlertThresholds}
    (h : LendingContract.setRiskAlertThresholds admin th e s = .ok r s') :
    { s with riskAlertThresholds := some th, lastEmittedTier := some 0 } = s' := by
  simp only [LendingContract.setRiskAlertThresholds, requireAuth_seq, view_seq, okOr_seq,
    failIf_seq, store_ok] at h
  obtain ⟨-, _, -, -, -, -, -, -, hs⟩ := h
  exact hs

/-! ## Views -/

/-- A view that is a value read from the store, up to a refresh, refreshes the store at most. -/
theorem reading_refreshes {ε α : Type} {x : Invocation ε α} {o : Option α} {v : α}
    (hx : ∃ u, MayRefresh e s u ∧ x e s = orTrap o e u) (h : x e s = .ok v t) :
    o = some v ∧ MayRefresh e s t := by
  obtain ⟨u, hu, heq⟩ := hx
  obtain ⟨hv, rfl⟩ := orTrap_ok.mp (heq.symm.trans h)
  exact ⟨hv, hu⟩

theorem getUserPosition_refreshes {ε : Type} {user : Address} {v : UserPositionSummary}
    (h : (Views.getUserPosition user : Invocation ε UserPositionSummary) e s = .ok v t) :
    MayRefresh e s t := by
  simp only [Views.getUserPosition, bind_ok, view_ok, look_ok, orTrap_ok, pure_ok] at h
  obtain ⟨_, _, ⟨-, rfl⟩, _, _, hp, _, _, ⟨-, rfl⟩, _, _, ⟨-, rfl⟩, _, _, ⟨-, rfl⟩, _, _,
    ⟨-, rfl⟩, _, _, ⟨-, rfl⟩, _, _, ⟨-, rfl⟩, -, rfl⟩ := h
  exact (reading_refreshes (getUserDebt_eq user e s) hp).2

/-- The calls that read a user's position. -/
def Op.Views : Op → Prop
  | .getUserDebt .. => True
  | .getUserDebtWithRate .. => True
  | .getDebtBalance .. => True
  | .getDebtValue .. => True
  | .getHealthFactor .. => True
  | .getUserPosition .. => True
  | _ => False

/-- **A view refreshes the store at most.** -/
theorem step_views {tx : Tx} (h : step tx s = some t) (hop : tx.op.Views) : RefreshesRate s t := by
  obtain ⟨e, op⟩ := tx
  cases op <;> first | exact absurd hop id | skip
  all_goals
    simp only [step, Op.apply, commit_eq_some] at h
    obtain ⟨r, h⟩ := h
  case getUserDebt => exact (reading_refreshes (getUserDebt_eq _ _ _) h).2.refreshes
  case getUserDebtWithRate =>
    exact (reading_refreshes (getUserDebtWithRate_eq _ _ _ _) h).2.refreshes
  case getDebtBalance => exact (reading_refreshes (getDebtBalance_eq _ _ _) h).2.refreshes
  case getDebtValue => exact (reading_refreshes (getDebtValue_eq _ _ _) h).2.refreshes
  case getHealthFactor => exact (reading_refreshes (getHealthFactor_eq _ _ _) h).2.refreshes
  case getUserPosition => exact (getUserPosition_refreshes h).refreshes

/-! ## Bad debt -/

/-- The store after bad debt of a user is booked. -/
def booked (user : Address) (amount : ℤ) (s : Storage) : Storage :=
  LendingContract.withBadDebtUser user (LendingContract.getUserBadDebt s user + amount)
    (LendingContract.withBadDebtTotal (LendingContract.getTotalBadDebt s + amount) s)

theorem addBadDebt_ok {ε : Type} {user : Address} {amount : ℤ}
    (h : (LendingContract.addBadDebt user amount : Invocation ε Unit) e s = .ok r s') :
    s' = booked user amount s := by
  simp only [LendingContract.addBadDebt, bind_ok, view_ok, orTrap_ok, store_ok,
    I128.checkedAdd_eq_some] at h
  obtain ⟨_, _, ⟨rfl, rfl⟩, _, _, ⟨⟨-, rfl⟩, rfl⟩, _, _, rfl, _, _, ⟨rfl, rfl⟩, _, _,
    ⟨⟨-, rfl⟩, rfl⟩, rfl⟩ := h
  rfl

/-- What a successful liquidation has checked and what it leaves behind: it books what the payment
leaves uncovered of the debt's value. -/
structure Liquidated (e : Env) (s : Storage) (liquidator borrower : Address) (repayAmount : ℤ)
    (s' : Storage) : Prop where
  authorized : liquidator ∈ e.auths
  unpaused : isPaused s .liquidation = false
  store : ∃ debtValue health u, reportedDebtValue e s borrower = some debtValue ∧
    reportedHealth e s borrower = some health ∧ health < 10000 ∧ RefreshesRate s u ∧
    (repayAmount < debtValue ∧ s' = booked borrower (debtValue - repayAmount) u ∨
      debtValue ≤ repayAmount ∧ s' = u)

/-- **What a liquidation does.** -/
theorem liquidate_ok {liquidator borrower debtAsset casset : Address} {amount : ℤ}
    (h : LendingContract.liquidate liquidator borrower debtAsset casset amount e s = .ok r s') :
    Liquidated e s liquidator borrower amount s' := by
  simp only [LendingContract.liquidate, bind_ok, requireAuth_ok, view_ok, failIf_ok, onlyIf_ok,
    orTrap_ok, I128.checkedSub_eq_some, not_le, not_lt] at h
  obtain ⟨_, _, ⟨hauth, rfl⟩, _, _, ⟨rfl, rfl⟩, _, _, ⟨hp, rfl⟩, dv, t, hdv, health, u, hh, _, _,
    ⟨hlt, rfl⟩, hless, hmore⟩ := h
  obtain ⟨hvalue, ht⟩ := reading_refreshes (getDebtValue_eq borrower e s) hdv
  obtain ⟨hhealth, hu⟩ := reading_refreshes (getHealthFactor_eq borrower e t) hh
  rw [ht.reportedHealth] at hhealth
  refine ⟨hauth, by simpa using hp, dv, health, u, hvalue, hhealth, hlt,
    ht.refreshes.trans hu.refreshes, ?_⟩
  by_cases hc : amount < dv
  · obtain ⟨_, _, ⟨⟨-, rfl⟩, rfl⟩, hadd⟩ := hless hc
    exact .inl ⟨hc, addBadDebt_ok hadd⟩
  · exact .inr ⟨not_lt.mp hc, (hmore (not_lt.mp hc)).symm⟩

/-- The amount of bad debt a recovery takes off. -/
def recovered (s : Storage) (amount : ℤ) : ℤ := min (LendingContract.getTotalBadDebt s) amount

/-- **What a recovery does.** -/
theorem recoverBadDebt_ok {admin : Address} {amount : ℤ}
    (h : LendingContract.recoverBadDebt admin amount e s = .ok r s') :
    getAdmin s = some admin ∧ admin ∈ e.auths ∧ amount ≤ LendingContract.getReserves s ∧
      s' = LendingContract.withBadDebtTotal (LendingContract.getTotalBadDebt s - recovered s amount)
        (LendingContract.withReserves (LendingContract.getReserves s - recovered s amount) s) := by
  have hmin : (if LendingContract.getTotalBadDebt s < amount then LendingContract.getTotalBadDebt s
      else amount) = recovered s amount := by
    unfold recovered
    split <;> omega
  simp only [LendingContract.recoverBadDebt, requireAdmin_seq, view_seq, failIf_seq, not_lt,
    orTrap_seq, I128.checkedSub_eq_some, store_seq, store_ok, hmin, and_assoc, exists_and_left,
    exists_eq_left'] at h
  obtain ⟨hadmin, hauth, hle, -, -, hs⟩ := h
  exact ⟨hadmin, hauth, hle, hs.symm⟩

end

end StellarLend.Lending
