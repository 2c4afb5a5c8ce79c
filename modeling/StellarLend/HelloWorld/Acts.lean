import StellarLend.HelloWorld.Contract
import StellarLend.HelloWorld.Effects

/-!
# HelloWorld/Acts — the operations on positions, and the paths to them

Five operations move a position.  An `Act` is a run of one of them without the gateway it was
reached through, `Op.act` the act of a call, and `Op.Passes` its gateway: nothing, the limiter, an
intent and the limiter, or a reveal.  `step_passes` takes a successful call apart into the two, and
what a gateway writes is its own (`Gate`).  Every other call is `Quiet`: it leaves the records
alone.

A reveal acts on what was committed, so its act is read off the store.
-/

namespace StellarLend.HelloWorld

open Foundations Call
open Lending (Address)

variable {e : Env} {s t s' : Storage}

/-! ## Acts -/

/-- A run of an operation on a position. -/
inductive Act where
  | deposit (user : Address) (asset : Option Address) (amount : ℤ)
  | borrow (user : Address) (asset : Option Address) (amount : ℤ)
  | repay (user : Address) (asset : Option Address) (amount : ℤ)
  | withdraw (user : Address) (asset : Option Address) (amount : ℤ)
  | liquidate (liquidator borrower : Address) (debtAsset collateralAsset : Option Address)
      (debtAmount : ℤ)
  deriving DecidableEq

/-- The store after an act that succeeded. -/
def Act.apply (a : Act) (e : Env) (s : Storage) : Option Storage :=
  match a with
  | .deposit user asset amount => commit (depositCollateral user asset amount) e s
  | .borrow user asset amount => commit (borrowAsset user asset amount) e s
  | .repay user asset amount => commit (repayDebt user asset amount) e s
  | .withdraw user asset amount => commit (withdrawCollateral user asset amount) e s
  | .liquidate liquidator borrower dasset casset amount =>
    commit (HelloWorld.liquidate liquidator borrower dasset casset amount) e s

/-- What an act that succeeds does. -/
def Act.Effect (e : Env) (s : Storage) : Act → Storage → Prop
  | .deposit user asset amount => Deposited e s user asset amount
  | .borrow user asset amount => Borrowed e s user asset amount
  | .repay user _ amount => Repaid e s user amount
  | .withdraw user asset amount => Withdrawn e s user asset amount
  | .liquidate _ borrower dasset casset amount => fun s' =>
    ∃ p value amounts, Liquidated e s borrower dasset casset amount p value amounts s'

theorem Act.effect {a : Act} (h : a.apply e s = some s') : a.Effect e s s' := by
  cases a <;> obtain ⟨_, h⟩ := commit_eq_some.mp h
  · exact depositCollateral_ok h
  · exact borrowAsset_ok h
  · exact repayDebt_ok h
  · exact withdrawCollateral_ok h
  · exact liquidate_ok h

theorem Act.frame {a : Act} (h : a.apply e s = some s') : Frame s s' := by
  have heffect := a.effect h
  cases a
  · exact heffect.frame
  · exact heffect.frame
  · exact heffect.frame
  · exact heffect.frame
  · obtain ⟨_, _, _, heffect⟩ := heffect
    exact heffect.frame

/-- An act leaves the oracle's set-up alone. -/
theorem Act.sameSetup {a : Act} (h : a.apply e s = some s') : SameSetup s s' := by
  cases a <;> obtain ⟨_, h⟩ := commit_eq_some.mp h
  · exact (depositCollateral_counted h).2.2
  · exact (borrowAsset_counted h).2.2.2.1
  · exact (repayDebt_counted h).2.1
  · exact (withdrawCollateral_counted h).2.2
  · exact (liquidate_counted h).2.2

/-! ## The paths to them -/

/-- The act a call performs if it succeeds. -/
def Op.act (s : Storage) : Op → Option Act
  | .depositCollateral user asset amount => some (.deposit user asset amount)
  | .borrowAsset user asset amount => some (.borrow user asset amount)
  | .borrowAssetIntent _ user asset amount _ _ => some (.borrow user asset amount)
  | .repayDebt user asset amount => some (.repay user asset amount)
  | .withdrawCollateral user asset amount => some (.withdraw user asset amount)
  | .liquidate liquidator borrower dasset casset amount =>
    some (.liquidate liquidator borrower dasset casset amount)
  | .liquidateIntent _ liquidator borrower dasset casset amount _ _ =>
    some (.liquidate liquidator borrower dasset casset amount)
  | .revealBorrowProtected user id =>
    (s.mev.commit id).map fun c => .borrow user c.asset c.amount
  | .revealWithdrawProtected user id =>
    (s.mev.commit id).map fun c => .withdraw user c.asset c.amount
  | .revealLiquidationProtected liquidator id =>
    (s.mev.commit id).bind fun c => c.borrower.map fun borrower =>
      .liquidate liquidator borrower c.asset c.secondaryAsset c.amount
  | _ => none

/-- The gateways write their own keys only. -/
def Gate (s t : Storage) : Prop :=
  t = { s with rateLimits := t.rateLimits, nextNonce := t.nextNonce, mev := t.mev }

theorem Gate.refl (s : Storage) : Gate s s := rfl

theorem Gate.trans {u : Storage} (h : Gate s t) (h' : Gate t u) : Gate s u := by
  unfold Gate at h h' ⊢
  rw [h', h]

theorem Gate.books (h : Gate s t) : t.books = s.books := by
  rw [Gate] at h
  rw [h]

theorem Gate.risk (h : Gate s t) : t.risk = s.risk := by
  rw [Gate] at h
  rw [h]

theorem Gate.oracle (h : Gate s t) : t.oracle = s.oracle := by
  rw [Gate] at h
  rw [h]

theorem Gate.assetParams (h : Gate s t) : t.assetParams = s.assetParams := by
  rw [Gate] at h
  rw [h]

/-- The capacity `consume` uses. -/
def capacityOf (s : Storage) (user : Address) (op : String) (pool : Address) : ℤ :=
  capacityTokens (getPoolConfig s op pool) (isGraceEnabled s user op)

/-- **What an accepted call does**: nothing if it is bypassed, else a unit is taken twice. -/
theorem consume_ok {caller user pool : Address} {op : String} {r : Unit}
    (h : consume caller user op pool e s = .ok r s') :
    isBypassed s caller = true ∧ s' = s ∨ isBypassed s caller = false ∧ ∃ bucket shared,
      takeUnit e.timestamp (s.rateLimits.userBucket user op pool) (getPoolConfig s op pool)
        (capacityOf s user op pool) = .ok bucket ∧
      takeUnit e.timestamp (s.rateLimits.globalBucket op pool) (getPoolConfig s op pool)
        (capacityOf s user op pool) = .ok shared ∧
      s' = withGlobalBucket op pool shared (withUserBucket user op pool bucket s) := by
  simp only [consume, view_seq] at h
  split at h
  next hbypassed =>
    obtain ⟨-, rfl⟩ := pure_ok.mp h
    exact .inl ⟨hbypassed, rfl⟩
  next hbypassed =>
    simp only [asks_seq, view_seq, ofExcept_seq, store_seq, store_ok] at h
    obtain ⟨bucket, hbucket, shared, hshared, rfl⟩ := h
    exact .inr ⟨by simpa using hbypassed, bucket, shared, hbucket, hshared, rfl⟩

theorem consume_gate {caller user pool : Address} {op : String} {r : Unit}
    (h : consume caller user op pool e s = .ok r s') : Gate s s' := by
  obtain ⟨-, rfl⟩ | ⟨-, bucket, shared, -, -, rfl⟩ := consume_ok h
  · exact .refl _
  · rfl

theorem limited_gate {caller user : Address} {op : String} {asset : Option Address} {r : Unit}
    (h : limited caller user op asset e s = .ok r s') : Gate s s' := by
  simp only [limited, asks_seq, mapErr_ok] at h
  exact consume_gate h

theorem requireIntentAuth_ok {user : Address} {op : String} {nonce expiresAt : ℕ}
    {args : IntentArgs} {r : Unit}
    (h : requireIntentAuth user op nonce expiresAt args e s = .ok r s') :
    Gate s s' ∧ (user, ⟨e.currentContractAddress, op, nonce, expiresAt, args⟩) ∈ e.intentAuths := by
  simp only [requireIntentAuth, requireAuthForArgs, asks_seq, failIf_seq, view_seq, require_seq,
    store_ok, decide_eq_true_eq] at h
  obtain ⟨-, -, hauth, rfl⟩ := h
  exact ⟨rfl, hauth⟩

theorem reveal_ok {α : Type} {owner : Address} {id : ℕ} {operation : SensitiveOperation}
    {result : PendingCommit → Option α} {a : α}
    (h : reveal owner id operation result e s = .ok a s') :
    Gate s s' ∧ owner ∈ e.auths ∧ ∃ c, s.mev.commit id = some c ∧ result c = some a := by
  simp only [reveal, validateReveal, loadCommit, bind_ok, requireAuth_ok, view_ok, okOr_ok,
    failIf_ok, asks_ok, store_ok, pure_ok, and_assoc, exists_and_left, exists_eq_left',
    exists_const] at h
  obtain ⟨hauth, c, t, ⟨c', hc, -, -, -, -, rfl, rfl⟩, -, b, hb, rfl, rfl⟩ := h
  exact ⟨rfl, hauth, c', hc, hb⟩

/-- What a call does before its act. -/
def Op.Passes (e : Env) (s : Storage) : Op → Storage → Prop
  | .borrowAsset user asset _ => fun t => limited user user "borrow" asset e s = .ok () t
  | .borrowAssetIntent relayer user asset amount nonce expiresAt => fun t => ∃ u,
    requireIntentAuth user "borrow" nonce expiresAt (.borrow user asset amount) e s = .ok () u ∧
      limited relayer user "borrow" asset e u = .ok () t
  | .liquidate liquidator _ debtAsset _ _ => fun t =>
    limited liquidator liquidator "liquidate" debtAsset e s = .ok () t
  | .liquidateIntent relayer liquidator borrower debtAsset collateralAsset debtAmount nonce
      expiresAt => fun t => ∃ u,
    requireIntentAuth liquidator "liquidate" nonce expiresAt
      (.liquidate liquidator borrower debtAsset collateralAsset debtAmount) e s = .ok () u ∧
      limited relayer liquidator "liquidate" debtAsset e u = .ok () t
  | .revealBorrowProtected user id => fun t => ∃ r, revealBorrow user id e s = .ok r t
  | .revealWithdrawProtected user id => fun t => ∃ r, revealWithdraw user id e s = .ok r t
  | .revealLiquidationProtected liquidator id => fun t =>
    ∃ r, revealLiquidation liquidator id e s = .ok r t
  | _ => fun t => t = s

/-- **A call that performs an act passes its gateway, and then performs it.** -/
theorem step_passes {tx : Tx} {a : Act} (h : step tx s = some s') (ha : tx.op.act s = some a) :
    ∃ t, tx.op.Passes tx.env s t ∧ a.apply tx.env t = some s' := by
  obtain ⟨e, op⟩ := tx
  cases op <;> simp only [Op.act, Option.some.injEq, Option.map_eq_some_iff,
    Option.bind_eq_some_iff, reduceCtorEq] at ha <;>
    simp only [step, Op.apply, commit_eq_some] at h <;> obtain ⟨r, h⟩ := h
  case depositCollateral | repayDebt | withdrawCollateral =>
    subst ha
    exact ⟨s, rfl, commit_eq_some.mpr ⟨r, mapErr_ok.mp h⟩⟩
  case borrowAsset =>
    subst ha
    obtain ⟨_, t, hlimited, h⟩ := bind_ok.mp h
    exact ⟨t, hlimited, commit_eq_some.mpr ⟨r, mapErr_ok.mp h⟩⟩
  case borrowAssetIntent =>
    subst ha
    simp only [HelloContract.borrowAssetIntent, bind_ok, requireAuth_ok, mapErr_ok, and_assoc,
      exists_and_left, exists_eq_left', exists_const] at h
    obtain ⟨-, _, u, hintent, _, t, hlimited, h⟩ := h
    exact ⟨t, ⟨u, hintent, hlimited⟩, commit_eq_some.mpr ⟨r, h⟩⟩
  case liquidate =>
    subst ha
    simp only [HelloContract.liquidate, bind_ok, requireAuth_ok, mapErr_ok, and_assoc,
      exists_and_left, exists_eq_left', exists_const] at h
    obtain ⟨-, _, t, hlimited, h⟩ := h
    exact ⟨t, hlimited, commit_eq_some.mpr ⟨r, h⟩⟩
  case liquidateIntent =>
    subst ha
    simp only [HelloContract.liquidateIntent, bind_ok, requireAuth_ok, mapErr_ok, and_assoc,
      exists_and_left, exists_eq_left', exists_const] at h
    obtain ⟨-, _, u, hintent, _, t, hlimited, h⟩ := h
    exact ⟨t, ⟨u, hintent, hlimited⟩, commit_eq_some.mpr ⟨r, h⟩⟩
  case revealBorrowProtected | revealWithdrawProtected =>
    obtain ⟨c, hc, rfl⟩ := ha
    simp only [HelloContract.revealBorrowProtected, HelloContract.revealWithdrawProtected, bind_ok,
      mapErr_ok] at h
    obtain ⟨result, t, hreveal, h⟩ := h
    obtain ⟨-, -, c', hc', hresult⟩ := reveal_ok hreveal
    obtain rfl : c = c' := Option.some.inj (hc.symm.trans hc')
    obtain rfl := Option.some.inj hresult
    exact ⟨t, ⟨_, hreveal⟩, commit_eq_some.mpr ⟨r, h⟩⟩
  case revealLiquidationProtected =>
    obtain ⟨c, hc, borrower, hborrower, rfl⟩ := ha
    simp only [HelloContract.revealLiquidationProtected, bind_ok, mapErr_ok] at h
    obtain ⟨result, t, hreveal, h⟩ := h
    obtain ⟨-, -, c', hc', hresult⟩ := reveal_ok hreveal
    obtain rfl : c = c' := Option.some.inj (hc.symm.trans hc')
    rw [hborrower, Option.map_some, Option.some.injEq] at hresult
    subst hresult
    exact ⟨t, ⟨_, hreveal⟩, commit_eq_some.mpr ⟨r, h⟩⟩

theorem Op.Passes.gate {op : Op} (h : op.Passes e s t) : Gate s t := by
  cases op
  case borrowAsset | liquidate => exact limited_gate h
  case borrowAssetIntent | liquidateIntent =>
    obtain ⟨u, hintent, hlimited⟩ := h
    exact (requireIntentAuth_ok hintent).1.trans (limited_gate hlimited)
  case revealBorrowProtected | revealWithdrawProtected | revealLiquidationProtected =>
    obtain ⟨r, hreveal⟩ := h
    exact (reveal_ok hreveal).1
  all_goals
    obtain rfl : t = s := h
    exact .refl t

/-- **A call that performs an act is a gateway and then the act.** -/
theorem step_act {tx : Tx} {a : Act} (h : step tx s = some s') (ha : tx.op.act s = some a) :
    ∃ t, Gate s t ∧ a.apply tx.env t = some s' := by
  obtain ⟨t, hpasses, hact⟩ := step_passes h ha
  exact ⟨t, hpasses.gate, hact⟩

end StellarLend.HelloWorld
