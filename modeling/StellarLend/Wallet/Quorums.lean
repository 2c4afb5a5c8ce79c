import StellarLend.Foundations.Quorum
import StellarLend.Wallet.Nesting

/-!
# Wallet/Quorums — thresholds within reach

A threshold is compared with the length of a list, and the list may name somebody twice: where
`add_admin` refuses who is an admin already, `initialize`, `set_guardians` and `start_recovery` take
any list that is long enough (`repeated_admin`).  Lists that name nobody twice keep every threshold
within reach (`quorum_kept`), those of batches included, and of the batches that these execute.
-/

namespace StellarLend.Wallet

open Foundations Call
open Lending (Address)

variable {env : Env} {wallet : Address} {f : Frame} {s t s' : Storage} {u : Unit} {n : ℕ} {op : Op}

/-! ## Lists that name nobody twice -/

/-- The list that a call hands over names nobody twice. -/
def Op.Distinct : Op → Prop
  | .initializeWallet admins _ => admins.Nodup
  | .setGuardians guardians _ => guardians.Nodup
  | .startRecovery _ newAdmins _ => newAdmins.Nodup
  | _ => True

instance (op : Op) : Decidable op.Distinct := by
  unfold Op.Distinct
  split <;> infer_instance

/-- The proposal that a call executes. -/
def Op.proposal (s : Storage) : Op → Option Proposal
  | .execute _ id => s.proposal id
  | _ => none

/-- The lists of a call name nobody twice, nor do those of the calls of its batch, as deep as calls
may nest. -/
def NamesOnce (wallet : Address) (s : Storage) : ℕ → Op → Prop
  | 0, op => op.Distinct
  | n + 1, op => op.Distinct ∧ ∀ p ∈ op.proposal s, ∀ tx ∈ p.batch, tx.contract = wallet →
      ∀ op' ∈ tx.toOp, NamesOnce wallet s n op'

instance decidableNamesOnce (wallet : Address) (s : Storage) :
    ∀ (n : ℕ) (op : Op), Decidable (NamesOnce wallet s n op)
  | 0, op => inferInstanceAs (Decidable op.Distinct)
  | n + 1, op =>
    have := decidableNamesOnce wallet s n
    inferInstanceAs (Decidable (op.Distinct ∧ _))

theorem NamesOnce.distinct (h : NamesOnce wallet s n op) : op.Distinct := by
  cases n with
  | zero => exact h
  | succ n => exact h.1

/-- The condition is about the batches of the proposals on record. -/
theorem NamesOnce.mono (h : NamesOnce wallet s n op) (hts : Extends t s) :
    NamesOnce wallet t n op := by
  induction n generalizing op with
  | zero => exact h
  | succ n ih =>
    refine ⟨h.1, fun p hp tx htx hself op' hop' => ?_⟩
    cases op with
    | execute executor id =>
      obtain ⟨p', hp', hsame⟩ := hts id p hp
      exact ih (h.2 p' hp' tx (hsame ▸ htx) hself op' hop')
    | _ => cases hp

/-! ## Thresholds within reach -/

/-- The admins and the guardians are sound, and those that a recovery would make admins. -/
structure Quorate (s : Storage) : Prop where
  admins : ∀ config, s.config = some config → Sound (getAdmins s) config.threshold
  guardians : ∀ guardians, s.guardians = some guardians → Sound guardians (getGuardianThreshold s)
  request : ∀ request, s.recoveryRequest = some request →
    Sound request.newAdmins request.newThreshold

/-- Where the parties are the same, they are as sound. -/
theorem Quorate.of_same (hs : Quorate s) (hconfig : t.config = s.config)
    (hadmins : t.admins = s.admins) (hguardians : t.guardians = s.guardians)
    (hthreshold : t.guardianThreshold = s.guardianThreshold)
    (hrequest : t.recoveryRequest = s.recoveryRequest) : Quorate t := by
  refine ⟨?_, ?_, ?_⟩
  · rw [hconfig, getAdmins, hadmins]
    exact hs.admins
  · rw [hguardians, getGuardianThreshold, hthreshold]
    exact hs.guardians
  · rw [hrequest]
    exact hs.request

/-- **A change keeps them sound, if its list names nobody twice.** -/
theorem Quorate.change (hs : Quorate s) (h : Change f s op s') (hop : op.Distinct) :
    Quorate s' := by
  cases h with
  | initializeWallet admins threshold hconfig hpos hle =>
    refine ⟨fun config hconfig' => ?_, hs.guardians, hs.request⟩
    obtain rfl := Option.some.inj hconfig'
    exact ⟨hop, hpos, hle⟩
  | addAdmin newAdmin hself hnew =>
    exact ⟨fun config hconfig => (hs.admins config hconfig).append hnew, hs.guardians, hs.request⟩
  | removeAdmin admin config hself hconfig hle =>
    refine ⟨fun config' hconfig' => ?_, hs.guardians, hs.request⟩
    obtain rfl := Option.some.inj (hconfig.symm.trans hconfig')
    have hsound := hs.admins config hconfig
    exact ⟨hsound.nodup.filter _, hsound.positive, hle⟩
  | setThreshold threshold config hself hconfig hpos hle =>
    refine ⟨fun config' hconfig' => ?_, hs.guardians, hs.request⟩
    obtain rfl := Option.some.inj hconfig'
    exact ⟨(hs.admins config hconfig).nodup, hpos, hle⟩
  | setGuardians guardians threshold hself hpos hle =>
    refine ⟨hs.admins, fun guardians' hguardians => ?_, hs.request⟩
    obtain rfl := Option.some.inj hguardians
    exact ⟨hop, hpos, hle⟩
  | startRecovery guardian newAdmins newThreshold hauth hguardian hpos hle =>
    refine ⟨hs.admins, hs.guardians, fun request hrequest => ?_⟩
    obtain rfl := Option.some.inj hrequest
    exact ⟨hop, hpos, hle⟩
  | executeRecovery guardian request hauth hguardian hrequest hdue =>
    refine ⟨fun config hconfig => ?_, hs.guardians, fun request' hrequest' => ?_⟩
    · obtain rfl := Option.some.inj hconfig
      exact hs.request request hrequest
    · cases hrequest'
  | _ => exact hs.of_same rfl rfl rfl rfl rfl

/-! ## Calls that nest -/

/-- What a wallet calls of itself is no proposal, so it puts no batch on record. -/
theorem extends_of_toOp {tx : Transaction} (hop : tx.toOp = some op) (h : Change f s op s') :
    Extends s' s := by
  cases h with
  | propose proposer description batch id hauth hadmin hid =>
    unfold Transaction.toOp at hop
    split at hop <;> cases hop
  | _ => exact extends_of_eq rfl

/-- What a wallet calls of itself keeps the parties sound, at a depth. -/
def Guarded (env : Env) (wallet : Address) (n : ℕ) : Prop :=
  ∀ (b : Bool) (tx : Transaction) (op : Op) (s s' : Storage) (u : Unit), tx.toOp = some op →
    again n op ⟨env, wallet, b⟩ s = .ok u s' → (∀ m, n = m + 1 → NamesOnce wallet s m op) →
    Quorate s → Quorate s' ∧ Extends s' s

theorem Guarded.invokeAll {b : Bool} {batch : List Transaction} (hn : Guarded env wallet n)
    (h : invokeAll (again n) batch ⟨env, wallet, b⟩ s = .ok u t)
    (hbatch : ∀ tx ∈ batch, tx.contract = wallet → ∀ op ∈ tx.toOp, ∀ m, n = m + 1 →
      NamesOnce wallet s m op) (hs : Quorate s) : Quorate t ∧ Extends t s := by
  induction batch generalizing s with
  | nil =>
    obtain ⟨-, rfl⟩ := pure_ok.mp h
    exact ⟨hs, Extends.refl s⟩
  | cons tx txs ih =>
    obtain ⟨_, r, hfirst, hrest⟩ := bind_ok.mp h
    have hr : Quorate r ∧ Extends r s := by
      rcases invokeContract_ok hfirst with ⟨hself, op, hop, hagain⟩ | ⟨-, rfl⟩
      · exact hn b tx op s r _ hop hagain (hbatch tx List.mem_cons_self hself op hop) hs
      · exact ⟨hs.of_same rfl rfl rfl rfl rfl, extends_of_eq rfl⟩
    obtain ⟨ht, htr⟩ := ih hrest (fun tx' htx' hself op hop m hm =>
      (hbatch tx' (List.mem_cons_of_mem tx htx') hself op hop m hm).mono hr.2) hr.1
    exact ⟨ht, htr.trans hr.2⟩

theorem Guarded.execute {b : Bool} {executor : Address} {id : ℕ} (hn : Guarded env wallet n)
    (h : execute (again n) executor id ⟨env, wallet, b⟩ s = .ok u s')
    (hop : NamesOnce wallet s n (.execute executor id)) (hs : Quorate s) :
    Quorate s' ∧ Extends s' s := by
  obtain ⟨p, config, t, hexec, rfl⟩ := execute_ok h
  have hbatch : ∀ tx ∈ p.batch, tx.contract = wallet → ∀ op ∈ tx.toOp, ∀ m, n = m + 1 →
      NamesOnce wallet s m op := by
    rintro tx htx hself op hop' m rfl
    exact hop.2 p hexec.proposal tx htx hself op hop'
  obtain ⟨ht, hts⟩ := hn.invokeAll hexec.batch hbatch hs
  refine ⟨ht.of_same rfl rfl rfl rfl rfl, fun id' p' hp' => ?_⟩
  change Function.update t.proposal id _ id' = some p' at hp'
  by_cases hid : id' = id
  · subst hid
    rw [Function.update_self] at hp'
    obtain rfl := Option.some.inj hp'
    exact ⟨p, hexec.proposal, rfl⟩
  · rw [Function.update_of_ne hid] at hp'
    exact hts id' p' hp'

/-- **At every depth, what a wallet calls of itself keeps the parties sound.** -/
theorem guarded (env : Env) (wallet : Address) (n : ℕ) : Guarded env wallet n := by
  induction n with
  | zero =>
    intro b tx op s s' u _ h
    obtain ⟨m, hm, -⟩ := again_ok h
    cases hm
  | succ n ih =>
    intro b tx op s s' u hop h hnames hs
    obtain ⟨m, hm, hentry⟩ := again_ok h
    obtain rfl := Nat.succ.inj hm
    have honce := hnames n rfl
    cases op with
    | execute executor id => exact ih.execute hentry honce hs
    | _ =>
      have hchange := entry_change (by exact trivial) hentry
      exact ⟨hs.change hchange honce.distinct, extends_of_toOp hop hchange⟩

theorem Quorate.step {tx : Tx} (hs : Quorate s) (h : step wallet tx s = some s')
    (htx : NamesOnce wallet s tx.env.reentry tx.op) : Quorate s' := by
  obtain ⟨_, hentry⟩ := commit_eq_some.mp h
  obtain ⟨env, op⟩ := tx
  cases op with
  | execute executor id => exact ((guarded env wallet env.reentry).execute hentry htx hs).1
  | _ => exact hs.change (entry_change (by exact trivial) hentry) htx.distinct

/-! ## Every run -/

/-- The thresholds are within reach of as many different parties. -/
structure QuorumKept (s : Storage) : Prop where
  admins : ∀ config, s.config = some config →
    1 ≤ config.threshold ∧ config.threshold ≤ (getAdmins s).toFinset.card
  guardians : ∀ guardians, s.guardians = some guardians →
    1 ≤ getGuardianThreshold s ∧ getGuardianThreshold s ≤ guardians.toFinset.card

theorem Quorate.kept (hs : Quorate s) : QuorumKept s where
  admins config hconfig := (hs.admins config hconfig).within
  guardians guardians hguardians := (hs.guardians guardians hguardians).within

/-- **Along a run whose lists name nobody twice, every threshold is within reach.** -/
theorem quorum_kept {txs : List Tx}
    (h : Meets (step wallet) (fun s tx => NamesOnce wallet s tx.env.reentry tx.op) Storage.empty
      txs) : ∀ ys, ys <+: txs → QuorumKept (ledger wallet ys) := by
  rintro ys ⟨zs, rfl⟩
  have hempty : Quorate Storage.empty :=
    ⟨fun _ hconfig => (by cases hconfig), fun _ hguardians => (by cases hguardians),
      fun _ hrequest => (by cases hrequest)⟩
  have hys := (meets_append.mp h).1
  exact (hys.invariant (fun _ _ _ hstep htx hs => hs.step hstep htx) hempty).kept

namespace Sample

/-- The guardians' recovery is due, and its admin takes the wallet's two guardians down to one. -/
def reformed : List Tx :=
  guarded ++ [⟨envAt 86403 [carol], .executeRecovery carol⟩,
    ⟨envAt 86404 [dave], .propose dave "admins"
      [⟨self, "add_admin", [.address alice]⟩, ⟨self, "set_threshold", [.u32 2]⟩,
        ⟨self, "set_guardians", [.addresses [carol], .u32 1]⟩]⟩,
    ⟨envAt 86405 [dave], .execute dave 1⟩]

/-- Somebody is to approve twice. -/
def twice : List Tx := [⟨envAt 0 [], .initializeWallet [alice, alice] 2⟩]

end Sample

open Sample in
/-- A recovery and the batch after it keep the thresholds within reach. -/
theorem quorum_kept_reformed :
    ((ledger self reformed).config = some ⟨2⟩ ∧ getGuardianThreshold (ledger self reformed) = 1) ∧
      ∀ ys, ys <+: reformed → QuorumKept (ledger self ys) :=
  ⟨by decide, quorum_kept (by decide)⟩

open Sample in
/-- **A threshold of two is out of reach of one admin named twice.** -/
theorem repeated_admin : ¬ QuorumKept (ledger self twice) := by
  intro h
  obtain ⟨-, hle⟩ := h.admins ⟨2⟩ (by decide)
  exact absurd hle (by decide)

end StellarLend.Wallet
