import StellarLend.Wallet.Contract

/-!
# Wallet/Effects — what a call of the wallet does, and what a batch of calls does

An entry point but `execute` makes one `Change`.  An execution runs calls, of other contracts and of
the wallet itself, and those may be executions again.  **`Carried.entry`** is the rule for that: a
relation between stores that single changes, calls of others and the end of an execution keep to is
kept to by every call, however deep the calls nest.
-/

namespace StellarLend.Wallet

open Foundations Call
open Lending (Address)

variable {f : Frame} {s t s' : Storage} {u : Unit}

/-! ## Single changes -/

/-- What a call does that executes no batch. -/
inductive Change (f : Frame) (s : Storage) : Op → Storage → Prop where
  | initializeWallet (admins : List Address) (threshold : ℕ) (hconfig : s.config = none)
      (hpos : 0 < threshold) (hle : threshold ≤ admins.length) :
      Change f s (.initializeWallet admins threshold)
        { s with config := some ⟨threshold⟩, admins := some admins }
  | propose (proposer : Address) (description : String) (batch : List Transaction) (id : ℕ)
      (hauth : f.Authorises proposer) (hadmin : proposer ∈ getAdmins s)
      (hid : s.nextProposalId.getD 0 = id) :
      Change f s (.propose proposer description batch)
        (withAuditEntry id ⟨proposer, "propose", f.env.timestamp⟩
          (withApprovals id [proposer] proposer
            (withProposal id ⟨id, proposer, description, batch, .active, f.env.timestamp⟩
              { s with nextProposalId := some (id + 1) })))
  | approve (approver : Address) (id : ℕ) (p : Proposal) (hauth : f.Authorises approver)
      (hadmin : approver ∈ getAdmins s) (hp : s.proposal id = some p) (hactive : p.status = .active)
      (hnew : approver ∉ getApprovals s id) :
      Change f s (.approve approver id)
        (withAuditEntry id ⟨approver, "approve", f.env.timestamp⟩
          (withApprovals id (getApprovals s id ++ [approver]) approver s))
  | addAdmin (newAdmin : Address) (hself : f.bySelf = true) (hnew : newAdmin ∉ getAdmins s) :
      Change f s (.addAdmin newAdmin) { s with admins := some (getAdmins s ++ [newAdmin]) }
  | removeAdmin (admin : Address) (config : MultisigConfig) (hself : f.bySelf = true)
      (hconfig : s.config = some config)
      (hle : config.threshold ≤ ((getAdmins s).filter (· ≠ admin)).length) :
      Change f s (.removeAdmin admin)
        { s with admins := some ((getAdmins s).filter (· ≠ admin)) }
  | setThreshold (threshold : ℕ) (config : MultisigConfig) (hself : f.bySelf = true)
      (hconfig : s.config = some config) (hpos : 0 < threshold)
      (hle : threshold ≤ (getAdmins s).length) :
      Change f s (.setThreshold threshold) { s with config := some ⟨threshold⟩ }
  | setGuardians (guardians : List Address) (threshold : ℕ) (hself : f.bySelf = true)
      (hpos : 0 < threshold) (hle : threshold ≤ guardians.length) :
      Change f s (.setGuardians guardians threshold)
        { s with guardians := some guardians, guardianThreshold := some threshold }
  | startRecovery (guardian : Address) (newAdmins : List Address) (newThreshold : ℕ)
      (hauth : f.Authorises guardian) (hguardian : guardian ∈ getGuardians s)
      (hpos : 0 < newThreshold) (hle : newThreshold ≤ newAdmins.length) :
      Change f s (.startRecovery guardian newAdmins newThreshold)
        { s with recoveryRequest := some ⟨newAdmins, newThreshold, f.env.timestamp⟩ }
  | executeRecovery (guardian : Address) (request : RecoveryRequest) (hauth : f.Authorises guardian)
      (hguardian : guardian ∈ getGuardians s) (hrequest : s.recoveryRequest = some request)
      (hdue : request.initiatedAt + 86400 ≤ f.env.timestamp) :
      Change f s (.executeRecovery guardian)
        { s with
          admins := some request.newAdmins
          config := some ⟨request.newThreshold⟩
          recoveryRequest := none }
  | getProposal (id : ℕ) (hnone : f.bySelf = true → s.proposal id = none) :
      Change f s (.getProposal id) s

theorem Change.executions {op : Op} (h : Change f s op s') : s'.executions = s.executions := by
  cases h <;> rfl

/-- The call is no execution of a batch. -/
def Op.Single : Op → Prop
  | .execute _ _ => False
  | _ => True

/-- **What a call does that executes no batch.** -/
theorem entry_change {again : Op → Invocation Unit} {op : Op} (hop : op.Single)
    (h : entry again op f s = .ok u s') : Change f s op s' := by
  cases op with
  | execute executor id => exact hop.elim
  | initializeWallet admins threshold =>
    simp only [entry, initializeWallet, view_seq, failIf_seq, Bool.not_eq_true,
      Option.isSome_eq_false_iff, Option.isNone_iff_eq_none, not_or, not_lt, store_ok] at h
    obtain ⟨hconfig, -, ⟨hpos, hle⟩, rfl⟩ := h
    exact .initializeWallet admins threshold hconfig (Nat.pos_of_ne_zero hpos) hle
  | propose proposer description batch =>
    simp only [entry, propose, addAuditEntry, bind_ok, requireAuth_ok, ↓view_seq, ↓failIf_seq,
      Decidable.not_not, ↓orTrap_seq, U64.checkedAdd_eq_some, ↓store_seq, ↓asks_seq, ↓existsAndEq,
      and_true, pure_ok, exists_const, true_and, exists_eq_right, exists_and_left, ↓seq_assoc] at h
    obtain ⟨hauth, hadmin, -, -, rfl⟩ := h
    exact .propose proposer description batch _ hauth hadmin rfl
  | approve approver id =>
    simp only [entry, approve, ne_eq, addAuditEntry, bind_ok, requireAuth_ok, ↓view_seq,
      ↓failIf_seq, Decidable.not_not, ↓okOr_seq, ↓store_seq, store_ok, ↓asks_seq, ↓existsAndEq,
      and_true, exists_const] at h
    obtain ⟨hauth, hadmin, p, hp, hactive, hnew, rfl⟩ := h
    exact .approve approver id p hauth hadmin hp hactive hnew
  | addAdmin newAdmin =>
    simp only [entry, addAdmin, bind_ok, requireSelf_ok, ↓view_seq, ↓failIf_seq, store_ok,
      ↓existsAndEq, and_true, exists_const] at h
    obtain ⟨hself, hnew, rfl⟩ := h
    exact .addAdmin newAdmin hself hnew
  | removeAdmin admin =>
    simp only [entry, removeAdmin, getConfig, bind_ok, requireSelf_ok, view_ok, failIf_ok, okOr_ok,
      store_ok, not_lt] at h
    obtain ⟨_, _, ⟨hself, rfl⟩, _, _, ⟨rfl, rfl⟩, _, _, ⟨-, rfl⟩, config, _,
      ⟨_, _, ⟨rfl, rfl⟩, hconfig, rfl⟩, _, _, ⟨hle, rfl⟩, rfl⟩ := h
    exact .removeAdmin admin config hself hconfig hle
  | setThreshold threshold =>
    simp only [entry, setThreshold, getConfig, bind_ok, requireSelf_ok, ↓view_seq, ↓failIf_seq,
      not_or, not_lt, ↓okOr_seq, store_ok, ↓existsAndEq, and_true, exists_and_right, exists_const,
      ↓seq_assoc] at h
    obtain ⟨hself, ⟨hpos, hle⟩, ⟨config, hconfig⟩, rfl⟩ := h
    exact .setThreshold threshold config hself hconfig (Nat.pos_of_ne_zero hpos) hle
  | setGuardians guardians threshold =>
    simp only [entry, setGuardians, bind_ok, requireSelf_ok, ↓failIf_seq, not_or, not_lt, store_ok,
      ↓existsAndEq, and_true, exists_const] at h
    obtain ⟨hself, ⟨-, hpos, hle⟩, rfl⟩ := h
    exact .setGuardians guardians threshold hself (Nat.pos_of_ne_zero hpos) hle
  | startRecovery guardian newAdmins newThreshold =>
    simp only [entry, startRecovery, bind_ok, requireAuth_ok, ↓view_seq, ↓failIf_seq,
      Decidable.not_not, not_or, not_lt, ↓asks_seq, store_ok, ↓existsAndEq, and_true, exists_const]
      at h
    obtain ⟨hauth, hguardian, ⟨-, hpos, hle⟩, rfl⟩ := h
    exact .startRecovery guardian newAdmins newThreshold hauth hguardian (Nat.pos_of_ne_zero hpos)
      hle
  | executeRecovery guardian =>
    simp only [entry, executeRecovery, bind_ok, requireAuth_ok, ↓view_seq, ↓failIf_seq,
      Decidable.not_not, ↓okOr_seq, ↓asks_seq, ↓orTrap_seq, U64.checkedAdd_eq_some, not_lt,
      store_ok, ↓existsAndEq, and_true, exists_const] at h
    obtain ⟨hauth, hguardian, request, hrequest, -, hdue, rfl⟩ := h
    exact .executeRecovery guardian request hauth hguardian hrequest hdue
  | getProposal id =>
    simp only [entry, decide_implies, dite_eq_ite, Bool.if_true_right, Bool.decide_eq_true, bind_ok,
      view_ok, require_ok, Bool.or_eq_true, Bool.not_eq_eq_eq_not, Bool.not_true, decide_eq_true_eq,
      exists_eq_right_right, ↓existsAndEq, true_and] at h
    obtain ⟨rfl, hnone⟩ := h
    exact .getProposal id fun hself => hnone.resolve_left (by rw [hself]; exact Bool.noConfusion)

/-! ## Batches -/

/-- The store after an execution whose batch ended in `t`. -/
def afterExecution (f : Frame) (s : Storage) (executor : Address) (id : ℕ) (p : Proposal)
    (config : MultisigConfig) (t : Storage) : Storage :=
  withAuditEntry id ⟨executor, "execute", f.env.timestamp⟩
    (finished id p ⟨id, getAdmins s, config.threshold, getApprovals s id⟩ t)

/-- What a successful execution has found and what it leaves behind. -/
structure Executed (again : Op → Invocation Unit) (f : Frame) (s : Storage) (executor : Address)
    (id : ℕ) (p : Proposal) (config : MultisigConfig) (t : Storage) : Prop where
  authorized : f.Authorises executor
  admin : executor ∈ getAdmins s
  proposal : s.proposal id = some p
  active : p.status = .active
  configured : s.config = some config
  approved : config.threshold ≤ (getApprovals s id).length
  batch : invokeAll again p.batch f s = .ok () t

/-- **What an execution does.** -/
theorem execute_ok {again : Op → Invocation Unit} {executor : Address} {id : ℕ}
    (h : execute again executor id f s = .ok u s') :
    ∃ p config t, Executed again f s executor id p config t ∧
      s' = afterExecution f s executor id p config t := by
  simp only [execute, ne_eq, getConfig, addAuditEntry, bind_ok, requireAuth_ok, ↓view_seq,
    ↓failIf_seq, Decidable.not_not, ↓okOr_seq, not_lt, ↓store_seq, store_ok, ↓asks_seq,
    ↓existsAndEq, and_true, exists_const, ↓seq_assoc] at h
  obtain ⟨hauth, hadmin, p, hp, hactive, config, hconfig, happroved, _, t, hbatch, rfl⟩ := h
  exact ⟨p, config, t, ⟨hauth, hadmin, hp, hactive, hconfig, happroved, hbatch⟩, rfl⟩

/-- What a call of a batch does: the wallet calls itself, or it asks another contract. -/
theorem invokeContract_ok {again : Op → Invocation Unit} {tx : Transaction}
    (h : invokeContract again tx f s = .ok u s') :
    (tx.contract = f.self ∧ ∃ op, tx.toOp = some op ∧ again op f s = .ok u s') ∨
      tx.contract ≠ f.self ∧ s' = { s with calls := s.calls ++ [tx] } := by
  simp only [invokeContract, asks_seq] at h
  split at h <;> rename_i hself
  · simp only [orTrap_seq] at h
    obtain ⟨op, hop, h⟩ := h
    exact .inl ⟨hself, op, hop, h⟩
  · simp [askContract] at h
    exact .inr ⟨hself, h.2.symm⟩

/-- The wallet calls itself where one more call may nest. -/
theorem again_ok {n : ℕ} {op : Op} (h : again n op f s = .ok u s') :
    ∃ m, n = m + 1 ∧ entry (again m) op { f with bySelf := true } s = .ok u s' := by
  cases n with
  | zero => simp [again] at h
  | succ m => exact ⟨m, rfl, by simpa [again] using h⟩

/-! ## Calls that nest -/

/-- Every call of a transaction takes a store to a related one, if single changes do, calls of other
contracts, and executions whose batch does. -/
structure Carried (env : Env) (wallet : Address) (P : Storage → Storage → Prop) : Prop where
  refl : ∀ s, P s s
  trans : ∀ s t u, P s t → P t u → P s u
  change : ∀ b op s s', Change ⟨env, wallet, b⟩ s op s' → P s s'
  asked : ∀ s tx, P s { s with calls := s.calls ++ [tx] }
  executed : ∀ n b s executor id p config t,
    Executed (again n) ⟨env, wallet, b⟩ s executor id p config t → P s t →
    P s (afterExecution ⟨env, wallet, b⟩ s executor id p config t)

namespace Carried

variable {env : Env} {wallet : Address} {P : Storage → Storage → Prop}

theorem invokeContract {ag : Op → Invocation Unit} (h : Carried env wallet P)
    (hag : ∀ b op s s' u, ag op ⟨env, wallet, b⟩ s = .ok u s' → P s s') {tx : Transaction}
    {b : Bool} (hcall : invokeContract ag tx ⟨env, wallet, b⟩ s = .ok u s') : P s s' := by
  rcases invokeContract_ok hcall with ⟨-, op, -, hop⟩ | ⟨-, rfl⟩
  · exact hag b op s s' u hop
  · exact h.asked s tx

theorem invokeAll {ag : Op → Invocation Unit} (h : Carried env wallet P)
    (hag : ∀ b op s s' u, ag op ⟨env, wallet, b⟩ s = .ok u s' → P s s') {batch : List Transaction}
    {b : Bool} (hrun : invokeAll ag batch ⟨env, wallet, b⟩ s = .ok u s') : P s s' := by
  induction batch generalizing s with
  | nil =>
    obtain ⟨-, rfl⟩ := pure_ok.mp hrun
    exact h.refl s
  | cons tx txs ih =>
    obtain ⟨_, t, hfirst, hrest⟩ := bind_ok.mp hrun
    exact h.trans s t s' (h.invokeContract hag hfirst) (ih hrest)

theorem entry_of_again {n : ℕ} (h : Carried env wallet P)
    (hag : ∀ b op s s' u, again n op ⟨env, wallet, b⟩ s = .ok u s' → P s s') {b : Bool} {op : Op}
    (hop : entry (again n) op ⟨env, wallet, b⟩ s = .ok u s') : P s s' := by
  cases op with
  | execute executor id =>
    obtain ⟨p, config, t, hexec, rfl⟩ := execute_ok hop
    exact h.executed n b s executor id p config t hexec (h.invokeAll hag hexec.batch)
  | _ => exact h.change b _ s s' (entry_change (by exact trivial) hop)

theorem again (h : Carried env wallet P) :
    ∀ (n : ℕ) (b : Bool) (op : Op) (s s' : Storage) (u : Unit),
      again n op ⟨env, wallet, b⟩ s = .ok u s' → P s s' := by
  intro n
  induction n with
  | zero =>
    intro b op s s' u hop
    obtain ⟨_, hm, -⟩ := again_ok hop
    cases hm
  | succ n ih =>
    intro b op s s' u hop
    obtain ⟨m, hm, hentry⟩ := again_ok hop
    obtain rfl := Nat.succ.inj hm
    exact h.entry_of_again ih hentry

/-- **What single changes and ends of executions keep to, every call keeps to.** -/
theorem entry (h : Carried env wallet P) {n : ℕ} {b : Bool} {op : Op}
    (hop : entry (Wallet.again n) op ⟨env, wallet, b⟩ s = .ok u s') : P s s' :=
  h.entry_of_again (h.again n) hop

/-- And so does each call of a batch. -/
theorem call (h : Carried env wallet P) {n : ℕ} {b : Bool} {tx : Transaction}
    (hcall : Wallet.invokeContract (Wallet.again n) tx ⟨env, wallet, b⟩ s = .ok u s') : P s s' :=
  h.invokeContract (h.again n) hcall

/-- And so does the batch. -/
theorem batch (h : Carried env wallet P) {n : ℕ} {b : Bool} {batch : List Transaction}
    (hrun : Wallet.invokeAll (Wallet.again n) batch ⟨env, wallet, b⟩ s = .ok u s') : P s s' :=
  h.invokeAll (h.again n) hrun

end Carried

/-- **A transaction keeps to what its calls keep to.** -/
theorem step_carried {wallet : Address} {tx : Tx} {P : Storage → Storage → Prop}
    (h : Carried tx.env wallet P) (hstep : step wallet tx s = some s') : P s s' := by
  obtain ⟨_, hop⟩ := commit_eq_some.mp hstep
  exact h.entry hop

end StellarLend.Wallet
