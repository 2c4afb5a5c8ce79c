import StellarLend.Foundations.Numbering
import StellarLend.HelloWorld.Quiet
import StellarLend.HelloWorld.RateLimits

/-!
# HelloWorld/Intents — which calls are limited, and which nonces are accepted

    borrow_asset             limiter ──▸ borrow
    borrow_asset_intent      nonce ──▸ limiter ──▸ borrow
    reveal_borrow_protected  commit ──▸ borrow

Two of the three ways to a borrow or a liquidation pass the limiter.  The third does not, so a call
is charged exactly if it is no such reveal, or its owner is exempt.  Nonces are numbers of a counter
for each user and operation.
-/

namespace StellarLend.HelloWorld

open Foundations Call Function
open Lending (Address)

variable {e : Env} {s t s' : Storage} {tx : Tx} {op : Op} {user caller pool : Address}
  {name : String} {asset : Option Address} {a : Act}

/-! ## Charges -/

/-- What an act is limited as: its actor, its operation and its asset. -/
def Act.limit : Act → Option (Address × String × Option Address)
  | .borrow user asset _ => some (user, "borrow", asset)
  | .liquidate liquidator _ debtAsset _ _ => some (liquidator, "liquidate", debtAsset)
  | _ => none

/-- Who makes a call that may be limited. -/
def Op.submitter : Op → Option Address
  | .borrowAsset user .. => some user
  | .borrowAssetIntent relayer .. => some relayer
  | .liquidate liquidator .. => some liquidator
  | .liquidateIntent relayer .. => some relayer
  | .revealBorrowProtected user _ => some user
  | .revealLiquidationProtected liquidator _ => some liquidator
  | _ => none

/-- A unit was taken from the user's bucket and from the pool's. -/
def Consumed (e : Env) (s : Storage) (user : Address) (op : String) (pool : Address)
    (s' : Storage) : Prop := ∃ bucket shared,
  takeUnit e.timestamp (s.rateLimits.userBucket user op pool) (getPoolConfig s op pool)
    (capacityOf s user op pool) = .ok bucket ∧
  takeUnit e.timestamp (s.rateLimits.globalBucket op pool) (getPoolConfig s op pool)
    (capacityOf s user op pool) = .ok shared ∧
  s'.rateLimits.userBucket user op pool = some bucket ∧
  s'.rateLimits.globalBucket op pool = some shared

/-- A completed borrow or liquidation took its actor's unit, unless its caller is exempt. -/
def Charged (e : Env) (s : Storage) (op : Op) (s' : Storage) : Prop :=
  ∀ a user name asset, op.act s = some a → a.limit = some (user, name, asset) →
    (∃ caller ∈ op.submitter, isBypassed s caller = true) ∨
      Consumed e s user name (poolOf e asset) s'

/-- A borrow or a liquidation is revealed by an exempt owner only. -/
def Exempt (s : Storage) (tx : Tx) : Prop :=
  ∀ owner, (∃ id, tx.op = .revealBorrowProtected owner id ∨
    tx.op = .revealLiquidationProtected owner id) → isBypassed s owner = true

theorem consumed_of_consume {r : Unit} (h : consume caller user name pool e s = .ok r t)
    (ht : s'.rateLimits = t.rateLimits) :
    isBypassed s caller = true ∨ Consumed e s user name pool s' := by
  obtain ⟨hbypassed, -⟩ | ⟨-, bucket, shared, hbucket, hshared, rfl⟩ := consume_ok h
  · exact .inl hbypassed
  · refine .inr ⟨bucket, shared, hbucket, hshared, ?_, ?_⟩ <;> rw [ht]
    · simp [withGlobalBucket, withUserBucket]
    · simp [withGlobalBucket]

/-- A bucket with a unit taken out is another bucket. -/
theorem takeUnit_ne {now : ℕ} {b : BucketState} {cfg : RateLimitConfig} {cap : ℤ} :
    takeUnit now (some b) cfg cap ≠ .ok b := by
  intro h
  simp only [takeUnit, Option.getD_some, except_bind_ok] at h
  obtain ⟨b', hrefill, h⟩ := h
  split at h
  · cases h
  simp only [except_bind_ok, orErr_ok, I128.checkedSub_eq_some] at h
  obtain ⟨_, ⟨-, rfl⟩, h⟩ := h
  obtain rfl := refillBucket_eq hrefill
  have hb := Except.ok.inj h
  have htokens := congrArg BucketState.tokens hb
  have hlast := congrArg BucketState.lastRefill hb
  dsimp only at htokens hlast
  rw [levelAt_some, if_pos (by omega), TOKEN_SCALE] at htokens
  omega

/-- Nothing is consumed where the limiter's records stay. -/
theorem not_consumed (h : s'.rateLimits = s.rateLimits) : ¬ Consumed e s user name pool s' := by
  rintro ⟨bucket, shared, hbucket, -, hkept, -⟩
  rw [h] at hkept
  rw [hkept] at hbucket
  exact takeUnit_ne hbucket

/-- An intent does not look at the limiter's records. -/
theorem requireIntentAuth_effect {nonce expiresAt : ℕ} {args : IntentArgs} {r : Unit}
    (h : requireIntentAuth user name nonce expiresAt args e s = .ok r t) :
    nonce = nextNonce s user name ∧
      t = withNextNonce user name (U64.saturatingAdd (nextNonce s user name) 1) s := by
  simp only [requireIntentAuth, requireAuthForArgs, asks_seq, failIf_seq, view_seq, require_seq,
    store_ok, not_not] at h
  obtain ⟨-, hnonce, -, rfl⟩ := h
  exact ⟨hnonce, rfl⟩

theorem reveal_kept {α : Type} {owner : Address} {id : ℕ} {kind : SensitiveOperation}
    {result : PendingCommit → Option α} {r : α} (h : reveal owner id kind result e s = .ok r t) :
    t.rateLimits = s.rateLimits ∧ t.nextNonce = s.nextNonce := by
  simp only [reveal, validateReveal, loadCommit, bind_ok, requireAuth_ok, view_ok, okOr_ok,
    failIf_ok, asks_ok, store_ok, pure_ok, and_assoc, exists_and_left, exists_eq_left',
    exists_const] at h
  obtain ⟨-, c, u, ⟨c', -, -, -, -, -, rfl, rfl⟩, -, b, -, rfl, rfl⟩ := h
  exact ⟨rfl, rfl⟩

/-- Where nothing is consumed, a call is charged exactly if its caller is exempt. -/
theorem charged_iff_of_unlimited {owner : Address} (hact : op.act s = some a)
    (hlimit : a.limit = some (owner, name, asset)) (hcaller : op.submitter = some owner)
    (hkept : s'.rateLimits = s.rateLimits) : Charged e s op s' ↔ isBypassed s owner = true := by
  constructor
  · intro hcharged
    obtain ⟨caller, hmem, hbypassed⟩ | hconsumed := hcharged a owner name asset hact hlimit
    · obtain rfl : owner = caller := Option.some.inj (hcaller.symm.trans hmem)
      exact hbypassed
    · exact absurd hconsumed (not_consumed hkept)
  · exact fun hbypassed _ _ _ _ _ _ => .inl ⟨owner, hcaller, hbypassed⟩

theorem charged_iff_of_act (h : step ⟨e, op⟩ s = some s') (hact : op.act s = some a) :
    Charged e s op s' ↔ Exempt s ⟨e, op⟩ := by
  obtain ⟨t, hpasses, ha⟩ := step_passes h hact
  have hkept := (a.frame ha).rateLimits
  have hcharged (hall : ∀ user name asset, a.limit = some (user, name, asset) →
      (∃ caller ∈ op.submitter, isBypassed s caller = true) ∨
        Consumed e s user name (poolOf e asset) s') : Charged e s op s' := by
    intro a' user name asset ha'
    obtain rfl : a = a' := Option.some.inj (hact.symm.trans ha')
    exact hall user name asset
  cases op <;> try cases hact
  case depositCollateral | repayDebt | withdrawCollateral =>
    exact iff_of_true (hcharged fun _ _ _ hlimit => by cases hlimit)
      fun owner howner => by simp at howner
  case borrowAsset | liquidate =>
    refine iff_of_true (hcharged fun _ _ _ hlimit => ?_) fun owner howner => by simp at howner
    cases hlimit
    exact (consumed_of_consume (limited_ok.mp hpasses) hkept).imp_left fun hbypassed =>
      ⟨_, rfl, hbypassed⟩
  case borrowAssetIntent | liquidateIntent =>
    refine iff_of_true (hcharged fun _ _ _ hlimit => ?_) fun owner howner => by simp at howner
    cases hlimit
    obtain ⟨u, hintent, hlimited⟩ := hpasses
    obtain ⟨-, rfl⟩ := requireIntentAuth_effect hintent
    exact (consumed_of_consume (limited_ok.mp hlimited) hkept).imp_left fun hbypassed =>
      ⟨_, rfl, hbypassed⟩
  case revealWithdrawProtected user id =>
    refine iff_of_true (hcharged fun _ _ _ hlimit => ?_) fun owner howner => by simp at howner
    obtain ⟨c, -, rfl⟩ := Option.map_eq_some_iff.mp hact
    cases hlimit
  case revealBorrowProtected user id =>
    obtain ⟨r, hreveal⟩ := hpasses
    obtain ⟨c, -, rfl⟩ := Option.map_eq_some_iff.mp hact
    rw [charged_iff_of_unlimited hact rfl rfl (hkept.trans (reveal_kept hreveal).1)]
    simp [Exempt]
  case revealLiquidationProtected liquidator id =>
    obtain ⟨r, hreveal⟩ := hpasses
    obtain ⟨c, -, hborrower⟩ := Option.bind_eq_some_iff.mp hact
    obtain ⟨borrower, -, rfl⟩ := Option.map_eq_some_iff.mp hborrower
    rw [charged_iff_of_unlimited hact rfl rfl (hkept.trans (reveal_kept hreveal).1)]
    simp [Exempt]

/-- **A call is charged exactly if it passes the limiter or is exempt.** -/
theorem charged_iff (h : step ⟨e, op⟩ s = some s') : Charged e s op s' ↔ Exempt s ⟨e, op⟩ := by
  rcases hact : op.act s with _ | a
  · refine iff_of_true (fun a _ _ _ ha _ => by cases hact.symm.trans ha) fun owner howner => ?_
    obtain ⟨id, rfl | rfl⟩ := howner <;> exact absurd hact (reveal_acts h rfl)
  · exact charged_iff_of_act h hact

/-! ## Nonces -/

/-- The intent a call carries: the user, the operation and the nonce. -/
def Op.intent : Op → Option (Address × String × ℕ)
  | .borrowAssetIntent _ user _ _ nonce _ => some (user, "borrow", nonce)
  | .liquidateIntent _ liquidator _ _ _ _ nonce _ => some (liquidator, "liquidate", nonce)
  | _ => none

/-- The nonce a call carries for a user and an operation. -/
def accepts (user : Address) (name : String) (_ : Storage) (tx : Tx) : List ℕ :=
  match tx.op.intent with
  | some (u, n, nonce) => if u = user ∧ n = name then [nonce] else []
  | none => []

/-- The nonces of a user and an operation that a run accepts. -/
def accepted (user : Address) (name : String) (txs : List Tx) : List ℕ :=
  history step (accepts user name) Storage.empty txs

theorem nextNonce_withNextNonce {u : Address} {n : String} {m : ℕ} :
    nextNonce (withNextNonce u n m s) user name =
      if u = user ∧ n = name then m else nextNonce s user name := by
  unfold nextNonce withNextNonce
  rcases eq_or_ne u user with rfl | hu
  · rcases eq_or_ne n name with rfl | hn
    · simp
    · simp [update_of_ne (Ne.symm hn), hn]
  · simp [update_of_ne (Ne.symm hu), hu]

theorem consume_nextNonce {r : Unit} (h : limited caller user name asset e s = .ok r t) :
    t.nextNonce = s.nextNonce := (consume_sameGates (limited_ok.mp h)).nextNonce

/-- **A call takes the nonce its intent carries, and leaves the others.** -/
theorem step_nonce (h : step ⟨e, op⟩ s = some s') :
    op.intent = none ∧ s'.nextNonce = s.nextNonce ∨
      ∃ user name, op.intent = some (user, name, nextNonce s user name) ∧
        s'.nextNonce = (withNextNonce user name
          (U64.saturatingAdd (nextNonce s user name) 1) s).nextNonce := by
  rcases hact : op.act s with _ | a
  · refine .inl ⟨?_, ?_⟩
    · cases op <;> first | rfl | cases hact
    by_cases hop : op.onCommits = false
    · exact (step_sameGates h hact hop).nextNonce
    cases op <;> first | exact absurd rfl hop | obtain ⟨_, h⟩ := commit_eq_some.mp h
    case commitBorrowProtected | commitWithdrawProtected | commitLiquidationProtected =>
      simp [HelloContract.commitBorrowProtected, HelloContract.commitWithdrawProtected,
        HelloContract.commitLiquidationProtected, createCommit, nextCommitId] at h
      obtain ⟨-, -, -, -, rfl⟩ := h
      rfl
    case cancelMevCommit =>
      simp only [cancelCommit, loadCommit, ne_eq, requireAuth_seq, view_seq, okOr_seq, failIf_seq,
        Decidable.not_not, store_ok, seq_assoc] at h
      obtain ⟨-, -, -, -, rfl⟩ := h
      rfl
  obtain ⟨t, hpasses, ha⟩ := step_passes h hact
  have hkept := (a.frame ha).sameGates.nextNonce
  clear h
  cases op <;> first | cases hact; done | skip
  case depositCollateral | repayDebt | withdrawCollateral =>
    obtain rfl : t = s := hpasses
    exact .inl ⟨rfl, hkept⟩
  case borrowAsset | liquidate => exact .inl ⟨rfl, hkept.trans (consume_nextNonce hpasses)⟩
  case borrowAssetIntent | liquidateIntent =>
    obtain ⟨u, hintent, hlimited⟩ := hpasses
    obtain ⟨rfl, rfl⟩ := requireIntentAuth_effect hintent
    exact .inr ⟨_, _, rfl, hkept.trans (consume_nextNonce hlimited)⟩
  case revealBorrowProtected | revealWithdrawProtected | revealLiquidationProtected =>
    obtain ⟨r, hreveal⟩ := hpasses
    exact .inl ⟨rfl, hkept.trans (reveal_kept hreveal).2⟩

/-- **A step accepts the next nonce of a user and an operation, or none.** -/
theorem step_accepts (h : step tx s = some s') :
    accepts user name s tx = [] ∧ nextNonce s' user name = nextNonce s user name ∨
      accepts user name s tx = [nextNonce s user name] ∧
        nextNonce s' user name = min (nextNonce s user name + 1) U64.MAX := by
  obtain ⟨e, op⟩ := tx
  obtain ⟨hop, hkept⟩ | ⟨u, n, hop, hkept⟩ := step_nonce h
  · refine .inl ⟨by rw [accepts, hop], ?_⟩
    rw [nextNonce, hkept, nextNonce]
  have hnext : nextNonce s' user name =
      nextNonce (withNextNonce u n (U64.saturatingAdd (nextNonce s u n) 1) s) user name := by
    unfold nextNonce at hkept ⊢
    rw [hkept]
  rw [nextNonce_withNextNonce] at hnext
  by_cases hkey : u = user ∧ n = name
  · obtain ⟨rfl, rfl⟩ := hkey
    refine .inr ⟨by simp [accepts, hop], ?_⟩
    rw [hnext, if_pos ⟨rfl, rfl⟩]
    rfl
  · exact .inl ⟨by simp [accepts, hop, hkey], by rw [hnext, if_neg hkey]⟩

theorem accepted_eq (user : Address) (name : String) (txs : List Tx) :
    accepted user name txs = numbers U64.MAX 0 (accepted user name txs).length := by
  have hstart : nextNonce Storage.empty user name ≤ U64.MAX := Nat.zero_le _
  exact history_numbers (fun _ _ _ => step_accepts) hstart txs

/-- **In every run, the completed borrows and liquidations are all charged exactly if those that are
revealed are revealed by exempt owners; and the nonces accepted are 0, 1, 2, … exactly until they
run out.** -/
theorem limited_and_numbered (txs : List Tx) :
    ((∀ ys tx zs s', txs = ys ++ tx :: zs → step tx (ledger ys) = some s' →
      Charged tx.env (ledger ys) tx.op s') ↔ Meets step Exempt Storage.empty txs) ∧
    ∀ user name, accepted user name txs = List.range (accepted user name txs).length ↔
      (accepted user name txs).length ≤ U64.MAX + 1 := by
  constructor
  · exact (meets_iff_steps (C := Exempt) (I := fun _ => True)
      (P := fun s tx s' => Charged tx.env s tx.op s')
      (fun _ _ _ h _ => (charged_iff h).symm) (fun _ _ _ _ _ _ => trivial) trivial).symm
  · intro user name
    rw [← numbers_eq_range, ← accepted_eq]

namespace Sample

/-- Alice pledges and commits to a borrow. -/
def aliceCommitted : List Tx := [
  deploy,
  ⟨envAt 2 [admin], .updateAssetConfig usdc ⟨true, 10000, 0, 0⟩⟩,
  ⟨envAt 3 [admin], .updatePriceFeed admin usdc 1000000000 8 admin⟩,
  ⟨envAt 5 [alice], .depositCollateral alice (some usdc) 1000⟩,
  ⟨envAt 6 [alice], .commitBorrowProtected alice none 5000 50 .default⟩]

/-- Alice reveals it. -/
def aliceReveals : Tx := ⟨envAt 40 [alice], .revealBorrowProtected alice 1⟩

/-- **Alice's borrow is completed, and is not charged.** -/
theorem revealed_unlimited :
    (step aliceReveals (ledger aliceCommitted)).isSome ∧
      ¬ Charged aliceReveals.env (ledger aliceCommitted) aliceReveals.op
        (ledger (aliceCommitted ++ [aliceReveals])) := by
  refine ⟨by decide, fun hcharged => ?_⟩
  have hact : aliceReveals.op.act (ledger aliceCommitted) = some (.borrow alice none 5000) := by
    decide
  obtain ⟨caller, hcaller, hbypassed⟩ | ⟨bucket, -, -, -, hbucket, -⟩ :=
    hcharged _ alice "borrow" none hact rfl
  · obtain rfl : alice = caller := Option.some.inj hcaller
    have hnot : isBypassed (ledger aliceCommitted) alice = false := by decide
    exact absurd (hnot.symm.trans hbypassed) (by decide)
  · have hnone : (ledger (aliceCommitted ++ [aliceReveals])).rateLimits.userBucket alice "borrow"
        core = none := by decide
    cases hnone.symm.trans hbucket

end Sample

end StellarLend.HelloWorld
