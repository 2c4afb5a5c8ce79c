import StellarLend.Lending.Settlement

/-!
# Lending/Pausing — what a pause flag stops

A pause flag is checked on the way to an operation, and on some ways it is not: the token receiver
hook goes straight to the inner functions, and a switch of the rate type has no flag of its own,
though it closes a debt and opens another.  `paused_blocks_iff` says that these two are all that
gets past a flag.
-/

namespace StellarLend.Lending

open Foundations Call

variable {s s' : Storage}

/-- The kinds of operation an act completes.  A switch of the rate type pays off a debt and borrows
another. -/
def Act.kinds (a : Act) : List PauseType :=
  match a with
  | .switchRateType .. => [.borrow, .repay]
  | a => a.pauseType.toList

/-- The kinds of operation a call completes. -/
def Op.kinds (s : Storage) (op : Op) : List PauseType :=
  match op with
  | .liquidate .. => [.liquidation]
  | op => (op.acts s).flatMap Act.kinds

/-- If the call is the token receiver hook or a switch of the rate type, then nothing it completes
is paused. -/
def ChecksPause (s : Storage) (tx : Tx) : Prop :=
  match tx.op with
  | .receive .. => ∀ k ∈ tx.op.kinds s, isPaused s k = false
  | .switchRateType .. => ∀ k ∈ tx.op.kinds s, isPaused s k = false
  | _ => True

theorem kinds_eq_pauseType {a : Act} (h : ∀ user asset rate, a ≠ .switchRateType user asset rate) :
    a.kinds = a.pauseType.toList := by
  rcases a with _ | _ | _ | _ | _ | _ <;> first | rfl | exact absurd rfl (h _ _ _)

/-- No batch switches a rate type. -/
theorem kinds_metaCall (delegator : Address) (c : MetaCall) :
    (c.act delegator).kinds = (c.act delegator).pauseType.toList := by
  refine kinds_eq_pauseType fun user asset rate hc => ?_
  unfold MetaCall.act at hc
  split at hc <;> cases hc

/-- **What a successful call completes is not paused**, if it checks. -/
theorem unpaused_of_step {tx : Tx} (h : step tx s = some s') (hC : ChecksPause s tx) :
    ∀ k ∈ tx.op.kinds s, isPaused s k = false := by
  intro k hk
  rcases hd : tx.op.direct with _ | a
  · obtain ⟨e, op⟩ := tx
    cases op <;> simp only [Op.kinds, Op.acts, List.flatMap_nil, List.not_mem_nil] at hk <;>
      simp only [Op.direct, reduceCtorEq] at hd <;>
      simp only [step, Op.apply, commit_eq_some] at h <;> obtain ⟨r, h⟩ := h
    case executeDelegated delegator delegate nonce deadline calls =>
      obtain ⟨a, ha, hka⟩ := List.mem_flatMap.mp hk
      obtain ⟨c, hc, rfl⟩ := List.mem_map.mp ha
      rw [kinds_metaCall, Option.mem_toList] at hka
      exact (executeDelegated_ok h).unpaused c hc k hka
    case liquidate =>
      rw [List.mem_singleton] at hk
      rw [hk]
      exact (liquidate_ok h).unpaused
    case receive => exact hC k hk
    case executeBorrowCommitment =>
      obtain ⟨c, t, hc, -, -, hact, -⟩ := (executeBorrowCommitment_ok h).store
      simp only [hc, Option.map_some, Option.toList_some, List.flatMap_singleton] at hk
      obtain rfl : k = .borrow := List.mem_singleton.mp hk
      have he : Borrowed _ _ _ _ _ _ _ _ _ := actStep_effect hact
      exact he.unpaused
  · by_cases hswitch : ∃ user asset rate, tx.op = .switchRateType user asset rate
    · obtain ⟨user, asset, rate, hop⟩ := hswitch
      simp only [ChecksPause, hop] at hC
      rw [hop] at hk
      exact hC k hk
    · have hacts : tx.op.kinds s = a.kinds := by
        have hone := (Op.direct_acts hd s).1
        unfold Op.kinds
        split
        · rename_i hop
          rw [hop] at hd
          cases hd
        · rw [hone, List.flatMap_singleton]
      have hne : ∀ user asset rate, a ≠ .switchRateType user asset rate := by
        rintro user asset rate rfl
        refine hswitch ⟨user, asset, rate, ?_⟩
        revert hd
        cases tx.op <;> simp [Op.direct]
      rw [hacts, kinds_eq_pauseType hne, Option.mem_toList] at hk
      exact (step_direct h hd).2.1 k hk

/-- **While a kind of operation is paused, no call of a run completes it and every attempt changes
nothing: this holds exactly when no call of the token receiver hook and no switch of a rate type
completes a paused kind.** -/
theorem paused_blocks_iff {txs : List Tx} :
    (∀ ys tx zs, txs = ys ++ tx :: zs → ∀ k ∈ tx.op.kinds (ledger ys),
      isPaused (ledger ys) k = true →
        step tx (ledger ys) = none ∧ ledger (ys ++ [tx]) = ledger ys) ↔
      Meets step ChecksPause Storage.empty txs := by
  rw [meets_iff]
  constructor
  · intro hall ys tx zs s' htxs hstep
    have hunpaused : ∀ k ∈ tx.op.kinds (ledger ys), isPaused (ledger ys) k = false := by
      intro k hk
      by_contra hpaused
      have hnone := (hall ys tx zs htxs k hk (by simpa using hpaused)).1
      rw [show step tx (ledger ys) = some s' from hstep] at hnone
      cases hnone
    unfold ChecksPause
    split
    · exact hunpaused
    · exact hunpaused
    · trivial
  · intro hmeets ys tx zs htxs k hk hpaused
    have hnone : step tx (ledger ys) = none := by
      cases hstep : step tx (ledger ys) with
      | none => rfl
      | some s' =>
        rw [unpaused_of_step hstep (hmeets ys tx zs s' htxs hstep) k hk] at hpaused
        cases hpaused
    refine ⟨hnone, ?_⟩
    rw [ledger_snoc, exec_of_none hnone]

namespace Sample

/-- Deposits are paused. -/
def pausedDeposits : List Tx := [deploy, ⟨envAt 1 [admin], .setPause admin .deposit true⟩]

/-- The token contract reports a transfer by Alice to be added to her collateral. -/
def tokenDeposit : Tx := ⟨envAt 5 [xlm], .receive xlm alice 100 [.symbol "deposit"]⟩

end Sample

/-- A deposit through the hook completes while deposits are paused. -/
theorem paused_deposit_passes :
    ¬ ∀ ys tx zs, Sample.pausedDeposits ++ [Sample.tokenDeposit] = ys ++ tx :: zs →
      ∀ k ∈ tx.op.kinds (ledger ys), isPaused (ledger ys) k = true →
        step tx (ledger ys) = none ∧ ledger (ys ++ [tx]) = ledger ys := by
  intro hall
  have hpaused : isPaused (ledger Sample.pausedDeposits) .deposit = true := by decide
  have hpasses : (step Sample.tokenDeposit (ledger Sample.pausedDeposits)).isSome = true := by
    decide
  have hkind : PauseType.deposit ∈ Sample.tokenDeposit.op.kinds (ledger Sample.pausedDeposits) := by
    decide
  rw [(hall Sample.pausedDeposits Sample.tokenDeposit [] rfl .deposit hkind hpaused).1] at hpasses
  cases hpasses

end StellarLend.Lending
