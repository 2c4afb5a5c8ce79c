import StellarLend.Foundations.Journal
import StellarLend.Lending.Delegation

/-!
# Lending/Registry — the lending contract and the registries of delegations

`contracts/delegation-registry/src/lib.rs`, with `contracts/lending/src/meta.rs`.

    delegator ──grant, revoke──▸ registry ◂──validate── lending ◂──execute_delegated── delegate

Two contracts that are called in any order, and the second asks the first.  What a registry has for
a pair is what its delegator said last (`delegation_eq_some_iff`), so a change of a user's records
that the user has not signed goes back to a grant that the user has (`change_covered`).
-/

namespace StellarLend.Lending

open Foundations Call Function

/-! ## The registry -/

inductive DelegationError where
  | unauthorized
  | invalidExpiry
  deriving DecidableEq, Repr

structure Delegation where
  permissions : ℕ
  /-- Zero is never. -/
  expiry : ℕ
  deriving DecidableEq, Repr

structure RegistryEnv where
  timestamp : ℕ
  auths : List Address

abbrev RegistryStorage : Type := Address → Address → Option Delegation

abbrev RegistryInvocation : Type := Call RegistryEnv RegistryStorage DelegationError Unit

def delegationValid (now : ℕ) (d : Delegation) (requiredPermission : ℕ) : Bool :=
  if d.expiry ≠ 0 ∧ d.expiry ≤ now then false else d.permissions &&& requiredPermission ≠ 0

namespace DelegationRegistry

variable (delegator delegate : Address)

def set (d : Option Delegation) (s : RegistryStorage) : RegistryStorage :=
  update s delegator (update (s delegator) delegate d)

def grant (permissions expiry : ℕ) : RegistryInvocation := do
  Call.requireAuth RegistryEnv.auths delegator
  let now ← asks RegistryEnv.timestamp
  failIf (expiry ≠ 0 ∧ expiry ≤ now) .invalidExpiry
  store (set delegator delegate (some ⟨permissions, expiry⟩))

def revoke : RegistryInvocation := do
  Call.requireAuth RegistryEnv.auths delegator
  store (set delegator delegate none)

def get (s : RegistryStorage) : Option Delegation := s delegator delegate

def validate (permission now : ℕ) (s : RegistryStorage) : Bool :=
  match get delegator delegate s with
  | some d => delegationValid now d permission
  | none => false

end DelegationRegistry

inductive RegistryOp where
  | grant (delegator delegate : Address) (permissions expiry : ℕ)
  | revoke (delegator delegate : Address)
  deriving DecidableEq

structure RegistryTx where
  /-- The registry that is called. -/
  registry : Address
  env : RegistryEnv
  op : RegistryOp

def RegistryTx.step (tx : RegistryTx) (s : RegistryStorage) : Option RegistryStorage :=
  match tx.op with
  | .grant delegator delegate permissions expiry =>
    commit (DelegationRegistry.grant delegator delegate permissions expiry) tx.env s
  | .revoke delegator delegate => commit (DelegationRegistry.revoke delegator delegate) tx.env s

namespace RegistryTx

def delegator (tx : RegistryTx) : Address :=
  match tx.op with
  | .grant delegator .. => delegator
  | .revoke delegator _ => delegator

def delegate (tx : RegistryTx) : Address :=
  match tx.op with
  | .grant _ delegate .. => delegate
  | .revoke _ delegate => delegate

/-- What the call leaves for its pair. -/
def word (tx : RegistryTx) : Option Delegation :=
  match tx.op with
  | .grant _ _ permissions expiry => some ⟨permissions, expiry⟩
  | .revoke .. => none

/-- The delegator signed the call, and what is granted has not expired. -/
def Accepted (tx : RegistryTx) : Prop :=
  tx.delegator ∈ tx.env.auths ∧ ∀ d, tx.word = some d → d.expiry = 0 ∨ tx.env.timestamp < d.expiry

/-- **A call that is accepted says what the registry has for its pair.** -/
theorem step_eq_some {tx : RegistryTx} {s s' : RegistryStorage} :
    tx.step s = some s' ↔
      tx.Accepted ∧ DelegationRegistry.set tx.delegator tx.delegate tx.word s = s' := by
  obtain ⟨registry, e, _ | _⟩ := tx
  · simp only [step, commit_eq_some, DelegationRegistry.grant, bind_ok, requireAuth_ok, asks_ok,
      failIf_ok, store_ok, Accepted, RegistryTx.delegator, RegistryTx.delegate, word,
      Option.some.injEq, forall_eq']
    constructor
    · rintro ⟨_, _, _, ⟨hauth, rfl⟩, _, _, ⟨rfl, rfl⟩, _, _, ⟨hlive, rfl⟩, rfl⟩
      exact ⟨⟨hauth, by omega⟩, rfl⟩
    · rintro ⟨⟨hauth, hlive⟩, rfl⟩
      exact ⟨(), (), s, ⟨hauth, rfl⟩, _, s, ⟨rfl, rfl⟩, (), s, ⟨by omega, rfl⟩, rfl⟩
  · simp only [step, commit_eq_some, DelegationRegistry.revoke, bind_ok, requireAuth_ok, store_ok,
      Accepted, RegistryTx.delegator, RegistryTx.delegate, word, reduceCtorEq, false_implies,
      implies_true, and_true]
    constructor
    · rintro ⟨_, _, _, ⟨hauth, rfl⟩, rfl⟩
      exact ⟨hauth, rfl⟩
    · rintro ⟨hauth, rfl⟩
      exact ⟨(), (), s, ⟨hauth, rfl⟩, rfl⟩

end RegistryTx

/-! ## Both contracts -/

/-- The lending contract, and a registry at every address. -/
structure World where
  lending : Storage
  registries : Address → RegistryStorage

inductive WorldTx where
  | lending (tx : Tx)
  | registry (tx : RegistryTx)

namespace World

def empty : World := ⟨Storage.empty, fun _ _ _ => none⟩

/-- What a lending call finds: the registries answer from what they hold. -/
def answers (w : World) (tx : Tx) : Tx :=
  { tx with
    env.validate := fun registry delegator delegate permission =>
      some (DelegationRegistry.validate delegator delegate permission tx.env.timestamp
        (w.registries registry)) }

def step (tx : WorldTx) (w : World) : Option World :=
  match tx with
  | .lending tx => (Lending.step (w.answers tx) w.lending).map fun s => { w with lending := s }
  | .registry tx => (tx.step (w.registries tx.registry)).map fun s =>
    { w with registries := update w.registries tx.registry s }

def after (txs : List WorldTx) : World := run step empty txs

/-- The lending calls that succeeded, with what they found. -/
def lendingTxs (txs : List WorldTx) : List Tx :=
  history step (fun w tx =>
    match tx with
    | .lending tx => [w.answers tx]
    | .registry _ => []) empty txs

theorem lending_after (txs : List WorldTx) : (after txs).lending = ledger (lendingTxs txs) := by
  refine history_invariant (I := fun (txs : List Tx) (w : World) => w.lending = ledger txs)
    (h := []) (fun h w tx w' hstep hw => ?_) txs rfl
  cases tx with
  | lending tx =>
    obtain ⟨s, hs, rfl⟩ := Option.map_eq_some_iff.mp hstep
    change s = ledger (h ++ [w.answers tx])
    rw [ledger_snoc, ← hw, exec_of_some hs]
  | registry tx =>
    obtain ⟨s, -, rfl⟩ := Option.map_eq_some_iff.mp hstep
    change w.lending = ledger (h ++ [])
    rw [List.append_nil, hw]

/-! ## The last word -/

variable {registry delegator delegate u : Address} {permission now : ℕ} {txs : List WorldTx}
  {tx : Tx} {w' : World} {d : Delegation}

/-- The registry changes what it has for the pair. -/
def Rewrites (registry delegator delegate : Address) : WorldTx → Prop
  | .lending _ => False
  | .registry tx =>
    tx.registry = registry ∧ tx.delegator = delegator ∧ tx.delegate = delegate ∧ tx.Accepted

/-- **A registry has what the delegator said last.** -/
theorem delegation_eq_some_iff :
    (after txs).registries registry delegator delegate = some d ↔
      ∃ tx, LastWith (Rewrites registry delegator delegate) txs (.registry tx) ∧
        tx.word = some d := by
  induction txs using List.reverseRecOn with
  | nil =>
    refine ⟨fun h => (by cases h), ?_⟩
    rintro ⟨tx, hlast, -⟩
    exact absurd hlast not_lastWith_nil
  | append_singleton txs x ih =>
    rw [after, run_snoc, ← after]
    have hother : ¬ Rewrites registry delegator delegate x →
        (exec step (after txs) x).registries registry delegator delegate =
          (after txs).registries registry delegator delegate := by
      intro hx
      refine exec_induction (P := fun w : World => w.registries registry delegator delegate = _)
        rfl fun w' hw' => ?_
      cases x with
      | lending tx =>
        obtain ⟨s, -, rfl⟩ := Option.map_eq_some_iff.mp hw'
        rfl
      | registry tx =>
        obtain ⟨s, hs, rfl⟩ := Option.map_eq_some_iff.mp hw'
        obtain ⟨haccepted, rfl⟩ := RegistryTx.step_eq_some.mp hs
        change update (after txs).registries tx.registry _ registry delegator delegate = _
        by_cases hregistry : registry = tx.registry
        · subst hregistry
          rw [update_self, DelegationRegistry.set]
          by_cases hdelegator : delegator = tx.delegator
          · subst hdelegator
            rw [update_self, update_of_ne]
            rintro rfl
            exact hx ⟨rfl, rfl, rfl, haccepted⟩
          · rw [update_of_ne hdelegator]
        · rw [update_of_ne hregistry]
    by_cases hx : Rewrites registry delegator delegate x
    · cases x with
      | lending tx => exact absurd hx id
      | registry tx =>
        obtain ⟨rfl, rfl, rfl, haccepted⟩ := hx
        have hs := RegistryTx.step_eq_some (s := (after txs).registries tx.registry).mpr
          ⟨haccepted, rfl⟩
        have hstep : step (.registry tx) (after txs) = some _ := Option.map_eq_some_iff.mpr
          ⟨_, hs, rfl⟩
        rw [exec_of_some hstep]
        change update (after txs).registries tx.registry _ _ tx.delegator tx.delegate = _ ↔ _
        rw [update_self, DelegationRegistry.set, update_self, update_self]
        constructor
        · exact fun hword => ⟨tx, (lastWith_snoc_of_pos ⟨rfl, rfl, rfl, haccepted⟩).mpr rfl, hword⟩
        · rintro ⟨tx', hlast, hword⟩
          cases (lastWith_snoc_of_pos ⟨rfl, rfl, rfl, haccepted⟩).mp hlast
          exact hword
    · simp only [hother hx, ih, lastWith_snoc_of_neg hx]

/-- What the delegator said last is a grant of the permission, which has not expired. -/
def Granted (txs : List WorldTx) (registry delegator delegate : Address) (permission now : ℕ) :
    Prop :=
  ∃ e permissions expiry, LastWith (Rewrites registry delegator delegate) txs
      (.registry ⟨registry, e, .grant delegator delegate permissions expiry⟩) ∧
    delegator ∈ e.auths ∧ permissions &&& permission ≠ 0 ∧ (expiry = 0 ∨ now < expiry)

/-- **The registry confirms a delegation exactly if its delegator has granted it.** -/
theorem validate_iff_granted :
    DelegationRegistry.validate delegator delegate permission now
        ((after txs).registries registry) = true ↔
      Granted txs registry delegator delegate permission now := by
  have hvalid : ∀ d : Delegation, delegationValid now d permission = true ↔
      d.permissions &&& permission ≠ 0 ∧ (d.expiry = 0 ∨ now < d.expiry) := fun d => by
    rw [delegationValid]
    split_ifs with h
    · simp only [false_iff, not_and, not_or]
      omega
    · simp only [decide_eq_true_eq, ne_eq]
      exact ⟨fun hd => ⟨hd, by omega⟩, And.left⟩
  rw [DelegationRegistry.validate, DelegationRegistry.get]
  constructor
  · intro h
    split at h
    next d hd =>
      obtain ⟨⟨_, e, op⟩, hlast, hword⟩ := delegation_eq_some_iff.mp hd
      obtain ⟨past, rest, htxs, hlast⟩ := hlast
      obtain ⟨rfl, rfl, rfl, hauth, -⟩ := hlast.1
      cases op with
      | revoke => cases hword
      | grant delegator delegate permissions expiry =>
        cases hword
        exact ⟨e, permissions, expiry, ⟨past, rest, htxs, hlast⟩, hauth, (hvalid _).mp h⟩
    next => cases h
  · rintro ⟨e, permissions, expiry, hlast, -, hlive⟩
    rw [delegation_eq_some_iff.mpr ⟨_, hlast, rfl⟩]
    exact (hvalid _).mpr hlive

/-! ## Changes -/

/-- What can justify a change of a user's records: the user signed it, or granted all that is done,
or created the commitment that is executed; or the token's contract reports a credit. -/
inductive Covered (txs : List WorldTx) (tx : Tx) (u : Address) : Prop where
  | signed (h : u ∈ tx.env.auths)
  | granted (registry delegate : Address) (nonce deadline : ℕ) (calls : List MetaCall)
      (hop : tx.op = .executeDelegated u delegate nonce deadline calls)
      (hregistry : (after txs).lending.delegationRegistry = some registry)
      (hdelegate : delegate ∈ tx.env.auths)
      (h : ∀ c ∈ calls, Granted txs registry u delegate c.action.permission tx.env.timestamp)
  | committed (id : ℕ) (c : BorrowCommitment) (hop : tx.op = .executeBorrowCommitment id)
      (hc : (after txs).lending.commitment id = some c) (hpending : c.status = .pending)
      (h : CommittedBy u id (lendingTxs txs))
  | credited (token : Address) (amount : ℤ) (payload : List Val)
      (hop : tx.op = .receive token u amount payload) (h : token ∈ tx.env.auths)

/-- **Whatever the two contracts are called with and in which order, a user's records only change
by what the user has signed or committed to, by what the user's last word to the registry allows a
delegate, and by credits that a token reports**, where the hook is signed. -/
theorem change_covered (h : step (.lending tx) (after txs) = some w') (hC : HookSigned tx)
    (hu : ¬ SamePosition (after txs).lending w'.lending u) : Covered txs tx u := by
  obtain ⟨s, hs, rfl⟩ := Option.map_eq_some_iff.mp h
  rw [lending_after] at hs hu
  have hwarranted : Warranted _ ((after txs).answers tx) u := warranted_of_changed hs hC hu
  cases hwarranted with
  | signed h => exact .signed h
  | delegated delegate nonce deadline calls s' hop hbatch =>
    obtain ⟨registry, hregistry, hvalid⟩ := hbatch.delegated
    refine .granted registry delegate nonce deadline calls hop ?_ hbatch.authorized fun c hc => ?_
    · rw [lending_after, hregistry]
    · exact validate_iff_granted.mp (Option.some.inj (hvalid c hc))
  | committed id c hop hc hpending _ h =>
    exact .committed id c hop (by rw [lending_after, hc]) hpending h
  | credited token amount payload hop _ h => exact .credited token amount payload hop h

namespace Sample

open Lending.Sample

/-- Alice lets Bob deposit collateral for her until 100. -/
def grantToBob : List WorldTx :=
  [.lending deploy, .lending ⟨envAt 0 [admin], .setDelegationRegistry admin delegationRegistry⟩,
    .registry ⟨delegationRegistry, ⟨0, [alice]⟩, .grant alice bob 16 100⟩]

def bobDeposits : Tx :=
  ⟨envAt 99 [bob], .executeDelegated alice bob 0 0 [⟨.depositCollateral, xlm, 50000, none, none⟩]⟩

end Sample

/-- Bob deposits collateral for Alice. -/
theorem grantToBob_covers : Covered Sample.grantToBob Sample.bobDeposits Lending.Sample.alice := by
  have hrun : ((step (.lending Sample.bobDeposits) (after Sample.grantToBob)).map fun w' =>
      ((after Sample.grantToBob).lending.borrowUserCollateral Lending.Sample.alice,
        w'.lending.borrowUserCollateral Lending.Sample.alice)) =
      some (none, some ⟨50000, Lending.Sample.xlm⟩) := by
    decide
  obtain ⟨w', hstep, hw'⟩ := Option.map_eq_some_iff.mp hrun
  obtain ⟨hbefore, hafter⟩ := Prod.mk.inj hw'
  refine change_covered hstep trivial fun hsame => ?_
  rw [hsame.collateral, hbefore] at hafter
  cases hafter

end World

end StellarLend.Lending
