import StellarLend.Foundations.Quorum
import StellarLend.Wallet.Effects
import Mathlib.Logic.Relation

/-!
# Wallet/Nesting — no batch is executed twice

The status of a proposal is written after its batch, so a batch that led back to its own execution
would find the proposal still active.  It would also find itself, and so on without end: a batch
that comes to an end leads to executions only along a chain that ends (`acc_of_batch`), and what it
executed lies on such a chain (`leads_of_batch`).  Hence a batch does not execute its own proposal,
and afterwards the status keeps it from being executed again (`Logged`).
-/

namespace StellarLend.Wallet

open Foundations Call Relation
open Lending (Address)

variable {env : Env} {wallet : Address} {s t s' : Storage} {u : Unit} {b : Bool} {n : ℕ}

/-! ## Proposals stay -/

/-- There is no proposal yet under the next identifier or above. -/
def Fresh (s : Storage) : Prop := ∀ id, s.nextProposalId.getD 0 ≤ id → s.proposal id = none

/-- The proposals on record stay, with their batches. -/
def Extends (s t : Storage) : Prop :=
  ∀ id p, s.proposal id = some p → ∃ p', t.proposal id = some p' ∧ p'.batch = p.batch

theorem Extends.refl (s : Storage) : Extends s s := fun _ p hp => ⟨p, hp, rfl⟩

theorem Extends.trans {r : Storage} (h : Extends r s) (k : Extends s t) : Extends r t := by
  intro id p hp
  obtain ⟨p', hp', hb⟩ := h id p hp
  obtain ⟨p'', hp'', hb'⟩ := k id p' hp'
  exact ⟨p'', hp'', hb'.trans hb⟩

theorem extends_of_eq (h : t.proposal = s.proposal) : Extends s t := by
  rw [Extends, h]
  exact Extends.refl s

/-- The end of an execution leaves the proposals on record, if its batch did. -/
theorem Executed.extends {ag : Op → Invocation Unit} {f : Frame} {executor : Address} {id : ℕ}
    {p : Proposal} {config : MultisigConfig} (h : Executed ag f s executor id p config t)
    (hst : Extends s t) : Extends t (afterExecution f s executor id p config t) := by
  intro id' p' hp'
  change ∃ q, Function.update t.proposal id _ id' = some q ∧ _
  by_cases hid : id' = id
  · subst hid
    obtain ⟨q, hq, hbatch⟩ := hst id' p h.proposal
    obtain rfl : q = p' := Option.some.inj (hq.symm.trans hp')
    exact ⟨_, Function.update_self .., hbatch.symm⟩
  · exact ⟨p', by rw [Function.update_of_ne hid, hp'], rfl⟩

/-- **Every call leaves the proposals on record.** -/
theorem extends_carried (env : Env) (wallet : Address) :
    Carried env wallet fun s t => Fresh s → Fresh t ∧ Extends s t where
  refl s hs := ⟨hs, Extends.refl s⟩
  trans s t r hst htr hs :=
    ⟨(htr (hst hs).1).1, (hst hs).2.trans (htr (hst hs).1).2⟩
  change b op s s' h hs := by
    cases h with
    | propose proposer description batch id hauth hadmin hid =>
      refine ⟨fun id' hle => ?_, fun id' p hp => ?_⟩
      · change id + 1 ≤ id' at hle
        change Function.update s.proposal id _ id' = none
        rw [Function.update_of_ne (by omega)]
        exact hs id' (by omega)
      · have hne : id' ≠ id := by
          rintro rfl
          rw [hs id' hid.le] at hp
          cases hp
        exact ⟨p, by rw [← hp]; exact Function.update_of_ne hne .., rfl⟩
    | _ => exact ⟨hs, extends_of_eq rfl⟩
  asked s tx hs := ⟨hs, extends_of_eq rfl⟩
  executed n b s executor id p config t h hst hs := by
    obtain ⟨ht, hext⟩ := hst hs
    refine ⟨fun id' hle => ?_, hext.trans (h.extends hext)⟩
    have hne : id' ≠ id := by
      rintro rfl
      obtain ⟨q, hq, -⟩ := hext id' p h.proposal
      rw [ht id' hle] at hq
      cases hq
    change Function.update t.proposal id _ id' = none
    rw [Function.update_of_ne hne]
    exact ht id' hle

/-! ## What a batch leads to -/

/-- The batch has the wallet execute the proposal. -/
def Executes (wallet : Address) (batch : List Transaction) (id : ℕ) : Prop :=
  ∃ tx ∈ batch, tx.contract = wallet ∧ ∃ executor, tx.toOp = some (.execute executor id)

/-- The batch of the second proposal has the wallet execute the first. -/
def Leads (wallet : Address) (s : Storage) (q p : ℕ) : Prop :=
  ∃ pr, s.proposal p = some pr ∧ Executes wallet pr.batch q

/-- The proposals whose batches were executed. -/
def executedIds (s : Storage) : List ℕ := s.executions.map Execution.proposalId

theorem executedIds_afterExecution (f : Frame) (s : Storage) (executor : Address) (id : ℕ)
    (p : Proposal) (config : MultisigConfig) (t : Storage) :
    executedIds (afterExecution f s executor id p config t) = executedIds t ++ [id] :=
  List.map_append

/-- What a call of a batch does: it executes a proposal by a batch of its own, or nothing. -/
theorem invokeContract_executes {tx : Transaction} (hs : Fresh s)
    (h : invokeContract (again n) tx ⟨env, wallet, b⟩ s = .ok u s') :
    (∃ executor id p t m, tx.contract = wallet ∧ tx.toOp = some (.execute executor id) ∧ m < n ∧
      s.proposal id = some p ∧ invokeAll (again m) p.batch ⟨env, wallet, true⟩ s = .ok () t ∧
      Extends t s' ∧ executedIds s' = executedIds t ++ [id]) ∨
    (¬ ∃ executor id, tx.contract = wallet ∧ tx.toOp = some (.execute executor id)) ∧
      executedIds s' = executedIds s := by
  rcases invokeContract_ok h with ⟨hself, op, hop, hagain⟩ | ⟨hother, rfl⟩
  · obtain ⟨m, rfl, hentry⟩ := again_ok hagain
    cases op with
    | execute executor id =>
      obtain ⟨p, config, t, hexec, rfl⟩ := execute_ok hentry
      obtain ⟨-, hst⟩ := (extends_carried env wallet).batch hexec.batch hs
      refine .inl ⟨executor, id, p, t, m, hself, hop, Nat.lt_succ_self m, hexec.proposal,
        hexec.batch, hexec.extends hst, executedIds_afterExecution ..⟩
    | _ =>
      refine .inr ⟨?_, ?_⟩
      · rintro ⟨_, _, -, hop'⟩
        rw [hop] at hop'
        cases hop'
      · rw [executedIds, (entry_change (by exact trivial) hentry).executions, executedIds]
  · exact .inr ⟨fun ⟨_, _, hself, _⟩ => hother hself, rfl⟩

/-- **A batch that comes to an end leads to executions along chains that end.** -/
theorem acc_of_batch {T : Storage} {batch : List Transaction}
    (h : invokeAll (again n) batch ⟨env, wallet, b⟩ s = .ok u t) (hs : Fresh s)
    (hT : Extends t T) {id : ℕ} (hid : Executes wallet batch id) : Acc (Leads wallet T) id := by
  induction n using Nat.strong_induction_on generalizing b batch s t u id with
  | _ n ihn =>
    induction batch generalizing s with
    | nil =>
      obtain ⟨_, htx, -⟩ := hid
      cases htx
    | cons tx txs ih =>
      obtain ⟨_, r, hfirst, hrest⟩ := bind_ok.mp h
      obtain ⟨hr, hsr⟩ := (extends_carried env wallet).call hfirst hs
      obtain ⟨-, hrt⟩ := (extends_carried env wallet).batch hrest hr
      obtain ⟨tx', htx', hself, executor, hop⟩ := hid
      rcases List.mem_cons.mp htx' with rfl | hmem
      · obtain ⟨executor', id', p, t', m, -, hop', hm, hp, hbatch, ht'r, -⟩ | ⟨hnone, -⟩ :=
          invokeContract_executes hs hfirst
        · obtain ⟨rfl, rfl⟩ : executor' = executor ∧ id' = id := by
            rw [hop] at hop'
            cases hop'
            exact ⟨rfl, rfl⟩
          refine .intro _ fun q hq => ?_
          obtain ⟨pr, hpr, hq⟩ := hq
          obtain ⟨p', hp', hsame⟩ := hsr.trans (hrt.trans hT) id' p hp
          obtain rfl : p' = pr := Option.some.inj (hp'.symm.trans hpr)
          rw [hsame] at hq
          exact ihn m hm hbatch hs (ht'r.trans (hrt.trans hT)) hq
        · exact absurd ⟨executor, id, hself, hop⟩ hnone
      · exact ih hrest hr ⟨tx', hmem, hself, executor, hop⟩

/-- **What a batch executed, it leads to.** -/
theorem leads_of_batch {T : Storage} {batch : List Transaction}
    (h : invokeAll (again n) batch ⟨env, wallet, b⟩ s = .ok u t) (hs : Fresh s)
    (hT : Extends t T) {id : ℕ} (hid : id ∈ executedIds t) :
    id ∈ executedIds s ∨
      ∃ q, Executes wallet batch q ∧ ReflTransGen (Leads wallet T) id q := by
  induction n using Nat.strong_induction_on generalizing b batch s t u id with
  | _ n ihn =>
    induction batch generalizing s with
    | nil =>
      obtain ⟨-, rfl⟩ := pure_ok.mp h
      exact .inl hid
    | cons tx txs ih =>
      obtain ⟨_, r, hfirst, hrest⟩ := bind_ok.mp h
      obtain ⟨hr, hsr⟩ := (extends_carried env wallet).call hfirst hs
      obtain ⟨-, hrt⟩ := (extends_carried env wallet).batch hrest hr
      obtain hold | ⟨q, ⟨tx', hmem, hrun⟩, hq⟩ := ih hrest hr
      · obtain ⟨executor, id', p, t', m, hself, hop, hm, hp, hbatch, ht'r, hids⟩ | ⟨-, hids⟩ :=
          invokeContract_executes hs hfirst
        · have hruns : Executes wallet (tx :: txs) id' :=
            ⟨tx, List.mem_cons_self, hself, executor, hop⟩
          rw [hids, List.mem_append, List.mem_singleton] at hold
          obtain hinner | rfl := hold
          · obtain hbefore | ⟨q, hq, hchain⟩ :=
              ihn m hm hbatch hs (ht'r.trans (hrt.trans hT)) hinner
            · exact .inl hbefore
            · obtain ⟨p', hp', hsame⟩ := hsr.trans (hrt.trans hT) id' p hp
              exact .inr ⟨id', hruns, hchain.tail ⟨p', hp', hsame ▸ hq⟩⟩
          · exact .inr ⟨id, hruns, .refl⟩
        · rw [hids] at hold
          exact .inl hold
      · exact .inr ⟨q, ⟨tx', List.mem_cons_of_mem tx hmem, hrun⟩, hq⟩

theorem not_transGen_self {α : Type} {r : α → α → Prop} {a : α} (h : Acc r a) :
    ¬ TransGen r a a := by
  have hacc := h.transGen
  induction hacc with
  | intro x _ ih => exact fun hx => ih x hx (h.inv_of_transGen hx) hx

/-- **A batch does not execute its own proposal.** -/
theorem Executed.not_again {executor : Address} {id : ℕ} {p : Proposal} {config : MultisigConfig}
    (h : Executed (again n) ⟨env, wallet, b⟩ s executor id p config t) (hs : Fresh s)
    (hid : id ∉ executedIds s) : id ∉ executedIds t := by
  intro hmem
  obtain ⟨-, hst⟩ := (extends_carried env wallet).batch h.batch hs
  obtain ⟨p', hp', hsame⟩ := hst id p h.proposal
  obtain hold | ⟨q, hq, hchain⟩ := leads_of_batch h.batch hs (Extends.refl t) hmem
  · exact hid hold
  · have hacc : Acc (Leads wallet t) id := by
      refine .intro _ fun q' hq' => ?_
      obtain ⟨pr, hpr, hq'⟩ := hq'
      obtain rfl : p' = pr := Option.some.inj (hp'.symm.trans hpr)
      exact acc_of_batch h.batch hs (Extends.refl t) (hsame ▸ hq')
    exact not_transGen_self hacc (.tail' hchain ⟨p', hp', hsame ▸ hq⟩)

/-! ## Every call -/

/-- The proposals whose batches were executed have that status, each once. -/
structure Logged (s : Storage) : Prop where
  fresh : Fresh s
  executed : ∀ id ∈ executedIds s, ∃ p, s.proposal id = some p ∧ p.status = .executed
  once : (executedIds s).Nodup

/-- A proposal that is active was not executed. -/
theorem Logged.not_executed {id : ℕ} {p : Proposal} (hs : Logged s) (hp : s.proposal id = some p)
    (hactive : p.status = .active) : id ∉ executedIds s := by
  intro hmem
  obtain ⟨p', hp', hexecuted⟩ := hs.executed id hmem
  obtain rfl : p' = p := Option.some.inj (hp'.symm.trans hp)
  rw [hactive] at hexecuted
  cases hexecuted

/-- **Every call executes proposals that were not executed yet.** -/
theorem logged_carried (env : Env) (wallet : Address) :
    Carried env wallet fun s t => Logged s → Logged t where
  refl s hs := hs
  trans s t r hst htr hs := htr (hst hs)
  change b op s s' h hs := by
    have hfresh := ((extends_carried env wallet).change b op s s' h hs.fresh).1
    cases h with
    | propose proposer description batch id hauth hadmin hid =>
      refine ⟨hfresh, fun id' hmem => ?_, hs.once⟩
      obtain ⟨p, hp, hexecuted⟩ := hs.executed id' hmem
      have hne : id' ≠ id := by
        rintro rfl
        rw [hs.fresh id' hid.le] at hp
        cases hp
      exact ⟨p, by rw [← hp]; exact Function.update_of_ne hne .., hexecuted⟩
    | _ => exact ⟨hfresh, hs.executed, hs.once⟩
  asked s tx hs := ⟨hs.fresh, hs.executed, hs.once⟩
  executed n b s executor id p config t h hst hs := by
    have ht := hst hs
    obtain ⟨hfresh, -⟩ := (extends_carried env wallet).executed n b s executor id p config t h
      (fun hf => (extends_carried env wallet).batch h.batch hf) hs.fresh
    refine ⟨hfresh, fun id' hmem => ?_, ?_⟩
    · change ∃ q, Function.update t.proposal id _ id' = some q ∧ _
      by_cases hne : id' = id
      · exact ⟨_, by rw [hne, Function.update_self], rfl⟩
      · rw [executedIds_afterExecution, List.mem_append, List.mem_singleton,
          or_iff_left hne] at hmem
        rw [Function.update_of_ne hne]
        exact ht.executed id' hmem
    · rw [executedIds_afterExecution]
      exact nodup_snoc ht.once (h.not_again hs.fresh (hs.not_executed h.proposal h.active))

theorem Logged.step {tx : Tx} (hs : Logged s) (h : step wallet tx s = some s') : Logged s' :=
  step_carried (logged_carried tx.env wallet) h hs

end StellarLend.Wallet
