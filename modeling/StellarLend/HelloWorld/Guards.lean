import StellarLend.HelloWorld.Acts

/-!
# HelloWorld/Guards — who may move a user's funds, and what a pause stops

A position's user is asked on the side paths, by the signed payload of an intent and by the
signature under a reveal, and nowhere on the main one: the four entry points take the user from
their arguments and pass it on, and no module behind them asks.  `funds_authorised_iff` says that
this is the only gap.

    pause registries          deposit   borrow, withdraw, repay   liquidate
    risk configuration          —                  —                 asked
    emergency pause           asked                —                 asked
    deposit module's own      asked              asked                 —

The admin sets the switches of the risk configuration and the emergency pause.  Nothing sets the
deposit module's own switches.  `pause_stops_iff` says that what gets past a pause is what the table
leaves out.
-/

namespace StellarLend.HelloWorld

open Foundations Call
open Lending (Address)

section

variable {s s' : Storage} {tx : Tx} {user : Address}

/-- Whose funds an act moves on that user's own behalf. -/
def Act.fundsOf : Act → Option Address
  | .deposit user .. => some user
  | .borrow user .. => some user
  | .repay user .. => some user
  | .withdraw user .. => some user
  | .liquidate .. => none

/-- The user authorised the call: with a signature, or with the payload of the intent it is. -/
def AuthorisedBy (user : Address) (tx : Tx) : Prop :=
  user ∈ tx.env.auths ∨ ∃ relayer asset amount nonce expiresAt,
    tx.op = .borrowAssetIntent relayer user asset amount nonce expiresAt ∧
      (user, ⟨tx.env.currentContractAddress, "borrow", nonce, expiresAt,
        .borrow user asset amount⟩) ∈ tx.env.intentAuths

/-- A direct call of one of the four entry points is signed by the user it names. -/
def DirectSigned (tx : Tx) : Prop :=
  match tx.op with
  | .depositCollateral user .. => user ∈ tx.env.auths
  | .borrowAsset user .. => user ∈ tx.env.auths
  | .repayDebt user .. => user ∈ tx.env.auths
  | .withdrawCollateral user .. => user ∈ tx.env.auths
  | _ => True

/-- **A successful call that moves a user's funds is authorised by the user exactly if it is signed
where it is direct.** -/
theorem authorised_iff {a : Act} (h : step tx s = some s') (ha : tx.op.act s = some a)
    (huser : a.fundsOf = some user) : AuthorisedBy user tx ↔ DirectSigned tx := by
  obtain ⟨e, op⟩ := tx
  cases op <;> simp only [Op.act, Option.some.injEq, Option.map_eq_some_iff,
    Option.bind_eq_some_iff, reduceCtorEq] at ha
  case depositCollateral | borrowAsset | repayDebt | withdrawCollateral =>
    subst ha
    obtain rfl := Option.some.inj huser
    simp [AuthorisedBy, DirectSigned]
  case borrowAssetIntent relayer user asset amount nonce expiresAt =>
    subst ha
    obtain rfl := Option.some.inj huser
    obtain ⟨r, h⟩ := commit_eq_some.mp h
    simp only [HelloContract.borrowAssetIntent, requireAuth_seq, mapErr_seq] at h
    obtain ⟨-, _, t, hintent, -⟩ := h
    exact ⟨fun _ => trivial, fun _ => .inr ⟨relayer, asset, amount, nonce, expiresAt, rfl,
      (requireIntentAuth_ok hintent).2⟩⟩
  case revealBorrowProtected | revealWithdrawProtected =>
    obtain ⟨c, -, rfl⟩ := ha
    obtain rfl := Option.some.inj huser
    obtain ⟨r, h⟩ := commit_eq_some.mp h
    obtain ⟨_, t, hreveal, -⟩ := bind_ok.mp h
    exact ⟨fun _ => trivial, fun _ => .inl (reveal_ok (mapErr_ok.mp hreveal)).2.1⟩
  case liquidate | liquidateIntent =>
    subst ha
    cases huser
  case revealLiquidationProtected =>
    obtain ⟨c, -, borrower, -, rfl⟩ := ha
    cases huser

/-- **Along a run every call that moves a user's funds is authorised by the user if and only if the
direct calls are all signed by the user they name.** -/
theorem funds_authorised_iff {txs : List Tx} :
    (∀ ys tx zs s' a user, txs = ys ++ tx :: zs → step tx (ledger ys) = some s' →
      tx.op.act (ledger ys) = some a → a.fundsOf = some user → AuthorisedBy user tx) ↔
      Meets step (fun _ tx => DirectSigned tx) Storage.empty txs := by
  rw [meets_iff]
  constructor
  · intro hall ys tx zs s' htxs hstep
    by_contra hunsigned
    have hmoves : ∃ a user, tx.op.act (ledger ys) = some a ∧ a.fundsOf = some user := by
      unfold DirectSigned at hunsigned
      split at hunsigned
      all_goals first
        | exact absurd trivial hunsigned
        | next user asset amount hop => exact ⟨_, user, by rw [hop]; rfl, rfl⟩
    obtain ⟨a, user, ha, huser⟩ := hmoves
    have hauthorised := hall ys tx zs s' a user htxs hstep ha huser
    exact hunsigned ((authorised_iff hstep ha huser).mp hauthorised)
  · intro hmeets ys tx zs s' a user htxs hstep ha huser
    exact (authorised_iff hstep ha huser).mpr (hmeets ys tx zs s' htxs hstep)

namespace Sample

/-- Alice deposits, and somebody borrows in her name without any signature. -/
def borrowedInName : List Tx :=
  [deploy, ⟨envAt 5 [alice], .depositCollateral alice none 1000⟩,
    ⟨envAt 6 [], .borrowAsset alice none 100⟩]

end Sample

/-- A borrow that nobody signed succeeds, and leaves its user with a debt of 100. -/
theorem borrowed_unsigned :
    ¬ ∀ ys tx zs s' a user, Sample.borrowedInName = ys ++ tx :: zs →
      step tx (ledger ys) = some s' → tx.op.act (ledger ys) = some a → a.fundsOf = some user →
        AuthorisedBy user tx := by
  intro hall
  have hrun : (step ⟨Sample.envAt 6 [], .borrowAsset Sample.alice none 100⟩
      (ledger (Sample.borrowedInName.take 2))).isSome := by decide
  obtain ⟨s', hs'⟩ := Option.isSome_iff_exists.mp hrun
  obtain hauth | ⟨_, _, _, _, _, hop, -⟩ := hall (Sample.borrowedInName.take 2) _ [] s' _ _ rfl hs'
    rfl rfl
  · exact absurd hauth (by decide)
  · cases hop

end

/-! ## What a pause stops -/

section

variable {e : Env} {s t s' : Storage}

/-- The switch that should stop an act. -/
def Act.pauseSwitch : Act → String
  | .deposit .. => "pause_deposit"
  | .borrow .. => "pause_borrow"
  | .repay .. => "pause_repay"
  | .withdraw .. => "pause_withdraw"
  | .liquidate .. => "pause_liquidate"

/-- What an operation does not ask for is not in force: the switch of a deposit; either pause of a
borrow, a repayment and a withdrawal. -/
def NothingUnasked (s : Storage) (a : Act) : Prop :=
  match a with
  | .deposit .. => isOperationPaused s a.pauseSwitch = false
  | .liquidate .. => True
  | a => checkOperationPaused s a.pauseSwitch = false

theorem checkOperationPaused_eq_false {operation : String} :
    checkOperationPaused s operation = false ↔
      isEmergencyPaused s = false ∧ isOperationPaused s operation = false := by
  unfold checkOperationPaused
  cases isEmergencyPaused s <;> simp

theorem isOperationPaused_congr (h : t.risk = s.risk) (operation : String) :
    isOperationPaused t operation = isOperationPaused s operation := by
  unfold isOperationPaused getRiskConfig getRiskParams
  rw [h]

theorem checkOperationPaused_congr (h : t.risk = s.risk) (operation : String) :
    checkOperationPaused t operation = checkOperationPaused s operation := by
  unfold checkOperationPaused isEmergencyPaused
  rw [h, isOperationPaused_congr h]

/-! ## What the operations ask -/

theorem depositCollateral_unpaused {user : Address} {asset : Option Address} {amount r : ℤ}
    (h : depositCollateral user asset amount e s = .ok r s') : isEmergencyPaused s = false := by
  simp only [depositCollateral, failIf_seq, view_seq] at h
  obtain ⟨-, -, hemergency, -⟩ := h
  simpa using hemergency

/-- A liquidation asks for both, after the breaker. -/
theorem liquidationGate_unpaused {liquidator : Address} {dasset casset : Option Address}
    {amount : ℤ} {r : Unit} (h : liquidationGate liquidator dasset casset amount e s = .ok r s') :
    checkOperationPaused s "pause_liquidate" = false := by
  have hrisk : s'.risk = s.risk := by
    rw [(liquidationGate_ok h).2]
  simp only [liquidationGate, requireOperationNotPaused, bind_ok, ↓failIf_seq, failIf_ok, ↓view_seq,
    ↓asks_seq, mapErr_ok, and_assoc, exists_and_left, exists_eq_left', exists_const] at h
  obtain ⟨-, _, t, -, -, hemergency, hswitch, -, -, rfl⟩ := h
  rw [← checkOperationPaused_congr hrisk, checkOperationPaused_eq_false]
  exact ⟨by simpa using hemergency, by simpa using hswitch⟩

/-- **An act that succeeds is not paused**, if no pause it does not ask for is in force. -/
theorem Act.unpaused {a : Act} (h : a.apply e s = some s') (ha : NothingUnasked s a) :
    checkOperationPaused s a.pauseSwitch = false := by
  cases a with
  | deposit user asset amount =>
    obtain ⟨_, h⟩ := commit_eq_some.mp h
    exact checkOperationPaused_eq_false.mpr ⟨depositCollateral_unpaused h, ha⟩
  | borrow user asset amount => exact ha
  | repay user asset amount => exact ha
  | withdraw user asset amount => exact ha
  | liquidate liquidator borrower dasset casset amount =>
    obtain ⟨_, h⟩ := commit_eq_some.mp h
    obtain ⟨_, _, hgate, -⟩ := bind_ok.mp h
    exact liquidationGate_unpaused hgate

theorem nothingUnasked_of_unpaused {a : Act} (h : checkOperationPaused s a.pauseSwitch = false) :
    NothingUnasked s a := by
  cases a with
  | deposit user asset amount => exact (checkOperationPaused_eq_false.mp h).2
  | liquidate liquidator borrower dasset casset amount => trivial
  | borrow user asset amount => exact h
  | repay user asset amount => exact h
  | withdraw user asset amount => exact h

/-- **What a call completes was not paused exactly if nothing was in force that it does not ask
for.** -/
theorem step_unpaused_iff {tx : Tx} {a : Act} (h : step tx s = some s')
    (ha : tx.op.act s = some a) :
    checkOperationPaused s a.pauseSwitch = false ↔ NothingUnasked s a := by
  refine ⟨nothingUnasked_of_unpaused, fun hunasked => ?_⟩
  obtain ⟨t, hgate, hact⟩ := step_act h ha
  rw [← checkOperationPaused_congr hgate.risk]
  refine a.unpaused hact ?_
  cases a with
  | deposit user asset amount => exact (isOperationPaused_congr hgate.risk _).trans hunasked
  | liquidate liquidator borrower dasset casset amount => trivial
  | borrow user asset amount => exact (checkOperationPaused_congr hgate.risk _).trans hunasked
  | repay user asset amount => exact (checkOperationPaused_congr hgate.risk _).trans hunasked
  | withdraw user asset amount => exact (checkOperationPaused_congr hgate.risk _).trans hunasked

/-- **While an operation is paused no entry point completes it: this holds exactly of the runs in
which no deposit succeeds with its switch set, and no borrow, repayment or withdrawal with its
switch set or under the emergency pause.** -/
theorem pause_stops_iff {txs : List Tx} :
    (∀ ys tx zs, txs = ys ++ tx :: zs → ∀ a, tx.op.act (ledger ys) = some a →
      checkOperationPaused (ledger ys) a.pauseSwitch = true → step tx (ledger ys) = none) ↔
      Meets step (fun s tx => ∀ a, tx.op.act s = some a → NothingUnasked s a) Storage.empty
        txs := by
  rw [meets_iff]
  constructor
  · intro hall ys tx zs s' htxs hstep a ha
    refine nothingUnasked_of_unpaused (Bool.eq_false_iff.mpr fun hpaused => ?_)
    have hnone := hall ys tx zs htxs a ha hpaused
    rw [show step tx (ledger ys) = some s' from hstep] at hnone
    cases hnone
  · intro hmeets ys tx zs htxs a ha hpaused
    cases hstep : step tx (ledger ys) with
    | none => rfl
    | some s' =>
      have hopen := (step_unpaused_iff hstep ha).mpr (hmeets ys tx zs s' htxs hstep a ha)
      rw [hopen] at hpaused
      cases hpaused

namespace Sample

/-- Alice has collateral, and the admin sets the emergency pause. -/
def pausedAll : List Tx :=
  [deploy, ⟨envAt 2 [alice], .depositCollateral alice none 1000⟩,
    ⟨envAt 3 [admin], .setEmergencyPause admin true⟩]

def borrowPaused : Tx := ⟨envAt 4 [alice], .borrowAsset alice none 100⟩

end Sample

/-- A borrow completes under the emergency pause. -/
theorem pause_passed_borrow :
    ¬ ∀ ys tx zs, Sample.pausedAll ++ [Sample.borrowPaused] = ys ++ tx :: zs →
      ∀ a, tx.op.act (ledger ys) = some a →
        checkOperationPaused (ledger ys) a.pauseSwitch = true → step tx (ledger ys) = none := by
  intro hall
  have hpaused : checkOperationPaused (ledger Sample.pausedAll) "pause_borrow" = true := by
    decide
  have hpasses : (step Sample.borrowPaused (ledger Sample.pausedAll)).isSome = true := by
    decide
  rw [hall Sample.pausedAll Sample.borrowPaused [] rfl _ rfl hpaused] at hpasses
  cases hpasses

end

end StellarLend.HelloWorld
