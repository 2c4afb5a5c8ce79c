import StellarLend.Upgrade.Authority

/-!
# Upgrade/Timeline — which release is in force

    initial ◂── executed ◂── executed ◂── executed, in force

A timeline keeps the executed proposals that were not rolled back, the latest first, and what is in
force is the latest of them.  The contract keeps no timeline: a proposal remembers what was in force
before it.  The two agree as long as versions rise and the latest is rolled back first.
-/

namespace StellarLend.Upgrade

open Foundations Call Function
open Lending (Address)

variable {s s' : Storage} {tx : Tx} {caller : Address} {id : ℕ}

/-! ## Timelines -/

/-- What is in force: a hash and a version. -/
structure Release where
  hash : WasmHash
  version : ℕ
  deriving DecidableEq

/-- What puts a release in force or takes it out. -/
inductive Event where
  | started (release : Release)
  | executed (id : ℕ) (release : Release)
  | rolledBack (id : ℕ)
  deriving DecidableEq

/-- What was in force first, and the executed proposals that were not rolled back, the latest
first. -/
structure Timeline where
  initial : Option Release
  live : List (ℕ × Release)

namespace Timeline

def empty : Timeline := ⟨none, []⟩

/-- The latest of the executed proposals that were not rolled back, or what was in force first. -/
def active (t : Timeline) : Option Release :=
  match t.live with
  | [] => t.initial
  | (_, release) :: _ => some release

/-- The proposal in force. -/
def latest (t : Timeline) : Option ℕ := t.live.head?.map Prod.fst

/-- A timeline after one more event. -/
def record (t : Timeline) : Event → Timeline
  | .started release => { t with initial := some release }
  | .executed id release => { t with live := (id, release) :: t.live }
  | .rolledBack id => { t with live := t.live.filter fun entry => entry.1 ≠ id }

/-- The timeline of a sequence of events. -/
def of (events : List Event) : Timeline := events.foldl record empty

theorem of_append (h k : List Event) : of (h ++ k) = k.foldl record (of h) := List.foldl_append

end Timeline

/-! ## What the contract does -/

/-- What is in force. -/
def inForce (s : Storage) : Option Release := s.currentWasmHash.map fun hash => ⟨hash, version s⟩

/-- What a proposal puts in force. -/
def UpgradeProposal.release (proposal : UpgradeProposal) : Release :=
  ⟨proposal.newWasmHash, proposal.newVersion⟩

/-- What a transaction adds to the timeline. -/
def Op.events (s : Storage) : Op → List Event
  | .init _ hash _ => [.started ⟨hash, 0⟩]
  | .upgradeExecute _ id => (s.proposal id).toList.map fun proposal => .executed id proposal.release
  | .upgradeRollback _ id => [.rolledBack id]
  | _ => []

/-- The timeline of a run. -/
def timeline (txs : List Tx) : Timeline :=
  .of (history step (fun s tx => tx.op.events s) Storage.empty txs)

/-- What is in force is always the latest executed proposal that was not rolled back; an execution
raises the version; and only rolling back the proposal in force lowers it. -/
structure TimelineKept (txs : List Tx) : Prop where
  active : ∀ ys, ys <+: txs → inForce (ledger ys) = (timeline ys).active
  raises : ∀ ys tx s', ys ++ [tx] <+: txs → step tx (ledger ys) = some s' →
    tx.op.executes ≠ [] → version (ledger ys) < version s'
  lowers : ∀ ys tx s', ys ++ [tx] <+: txs → step tx (ledger ys) = some s' →
    version s' < version (ledger ys) → ∃ caller id, tx.op = .upgradeRollback caller id ∧
      (timeline ys).latest = some id

/-- A proposal is executed over a lower version, and rolled back while its version is in force. -/
def InOrder (s : Storage) (tx : Tx) : Prop :=
  match tx.op with
  | .upgradeExecute _ id => ∀ proposal ∈ s.proposal id, version s < proposal.newVersion
  | .upgradeRollback _ id => ∀ proposal ∈ s.proposal id, proposal.newVersion = version s
  | _ => True

/-! ## The chain of predecessors -/

/-- The proposals of the list remember each other: each was executed over what the next one put in
force, and the last over the initial release. -/
def Chain (s : Storage) (initial : Option Release) : List (ℕ × Release) → Option Release → Prop
  | [], current => current = initial
  | (id, release) :: live, current => current = some release ∧
      ∃ proposal prev, s.proposal id = some proposal ∧ proposal.stage = .executed ∧
        proposal.release = release ∧ proposal.prevWasmHash = some prev.hash ∧
        proposal.prevVersion = some prev.version ∧ prev.version < release.version ∧
        Chain s initial live (some prev)

namespace Chain

variable {initial current : Option Release} {live : List (ℕ × Release)}

theorem active (h : Chain s initial live current) :
    current = (Timeline.mk initial live).active := by
  rcases live with _ | ⟨⟨id, release⟩, live⟩
  · exact h
  · exact h.1

theorem executed (h : Chain s initial live current) {entry : ℕ × Release} (hmem : entry ∈ live) :
    ∃ proposal, s.proposal entry.1 = some proposal ∧ proposal.stage = .executed ∧
      proposal.release = entry.2 := by
  induction live generalizing current with
  | nil => cases hmem
  | cons first live ih =>
    obtain ⟨-, proposal, prev, hproposal, hstage, hrelease, -, -, -, hrest⟩ := h
    obtain rfl | hmem := List.mem_cons.mp hmem
    · exact ⟨proposal, hproposal, hstage, hrelease⟩
    · exact ih hrest hmem

/-- A proposal of the chain was executed over a lower version. -/
theorem prevVersion_lt (h : Chain s initial live current) {entry : ℕ × Release}
    (hmem : entry ∈ live) {proposal : UpgradeProposal} {n : ℕ}
    (hproposal : s.proposal entry.1 = some proposal) (hprev : proposal.prevVersion = some n) :
    n < entry.2.version := by
  induction live generalizing current with
  | nil => cases hmem
  | cons first live ih =>
    obtain ⟨-, executed, prev, hexecuted, -, -, -, hversion, hlt, hrest⟩ := h
    obtain rfl | hmem := List.mem_cons.mp hmem
    · obtain rfl := Option.some.inj (hproposal.symm.trans hexecuted)
      obtain rfl := Option.some.inj (hprev.symm.trans hversion)
      exact hlt
    · exact ih hrest hmem

/-- Versions fall towards the past. -/
theorem version_le (h : Chain s initial live current) {entry : ℕ × Release} (hmem : entry ∈ live) :
    ∃ release, current = some release ∧ entry.2.version ≤ release.version := by
  induction live generalizing current with
  | nil => cases hmem
  | cons first live ih =>
    obtain ⟨rfl, proposal, prev, -, -, -, -, -, hlt, hrest⟩ := h
    refine ⟨_, rfl, ?_⟩
    obtain rfl | hmem := List.mem_cons.mp hmem
    · exact le_rfl
    · obtain ⟨release, hprev, hle⟩ := ih hrest hmem
      obtain rfl := Option.some.inj hprev
      exact hle.trans hlt.le

/-- The chain is read off the proposals in it alone. -/
theorem congr (h : Chain s initial live current)
    (hsame : ∀ entry ∈ live, s'.proposal entry.1 = s.proposal entry.1) :
    Chain s' initial live current := by
  induction live generalizing current with
  | nil => exact h
  | cons first live ih =>
    obtain ⟨hcurrent, proposal, prev, hproposal, hrest⟩ := h
    obtain ⟨hstage, hrelease, hhash, hversion, hlt, hrest⟩ := hrest
    refine ⟨hcurrent, proposal, prev, ?_, hstage, hrelease, hhash, hversion, hlt, ih hrest ?_⟩
    · rw [hsame first (List.mem_cons_self ..), hproposal]
    · exact fun entry hmem => hsame entry (List.mem_cons_of_mem _ hmem)

end Chain

/-- The contract is linked to a timeline. -/
structure Linked (t : Timeline) (s : Storage) : Prop where
  registry : Registry s
  chain : Chain s t.initial t.live (inForce s)
  nodup : (t.live.map Prod.fst).Nodup
  complete : ∀ id proposal, s.proposal id = some proposal → proposal.stage = .executed →
    ∃ release, (id, release) ∈ t.live

namespace Linked

variable {t : Timeline}

theorem empty : Linked .empty Storage.empty where
  registry := .empty
  chain := rfl
  nodup := List.nodup_nil
  complete _ _ h := by cases h

theorem active (h : Linked t s) : inForce s = t.active := h.chain.active

/-- A proposal that was not executed is in no chain. -/
theorem ne_of_pending (h : Linked t s) {proposal : UpgradeProposal}
    (hproposal : s.proposal id = some proposal) (hpending : proposal.stage ≠ .executed) :
    ∀ entry ∈ t.live, entry.1 ≠ id := by
  rintro entry hmem rfl
  obtain ⟨executed, hexecuted, hstage, -⟩ := h.chain.executed hmem
  obtain rfl := Option.some.inj (hproposal.symm.trans hexecuted)
  exact hpending hstage

/-- Nothing changes but the approvers and the proposals that were not executed. -/
theorem kept (h : Linked t s) (hregistry : Registry s') (hforce : inForce s' = inForce s)
    (hsame : ∀ id proposal, proposal.stage = .executed →
      (s'.proposal id = some proposal ↔ s.proposal id = some proposal)) : Linked t s' where
  registry := hregistry
  chain := by
    rw [hforce]
    refine h.chain.congr fun entry hmem => ?_
    obtain ⟨proposal, hproposal, hstage, -⟩ := h.chain.executed hmem
    rw [hproposal, (hsame _ _ hstage).mpr hproposal]
  nodup := h.nodup
  complete id proposal hproposal hstage :=
    h.complete id proposal ((hsame _ _ hstage).mp hproposal) hstage

/-- A proposal is rewritten that neither was executed nor is. -/
theorem rewritten (h : Linked t s) (hregistry : Registry s') (hforce : inForce s' = inForce s)
    {new : UpgradeProposal} (hafter : s'.proposal = update s.proposal id (some new))
    (hnew : new.stage ≠ .executed)
    (hold : ∀ proposal, s.proposal id = some proposal → proposal.stage ≠ .executed) :
    Linked t s' := by
  refine h.kept hregistry hforce fun k proposal hstage => ?_
  rw [hafter, update_apply]
  split
  case isTrue hk =>
    refine iff_of_false ?_ fun hproposal => hold proposal (hk ▸ hproposal) hstage
    rintro ⟨⟩
    exact hnew hstage
  case isFalse => exact Iff.rfl

end Linked

/-! ## Starting, executing, rolling back -/

/-- The version in force is that of the release. -/
theorem version_of_inForce {release : Release} (h : inForce s = some release) :
    version s = release.version := by
  rw [inForce, Option.map_eq_some_iff] at h
  obtain ⟨hash, -, rfl⟩ := h
  rfl

namespace Linked

variable {t : Timeline} {proposal : UpgradeProposal} {hash : WasmHash} {n : ℕ}

theorem initialized {admin : Address} (h : Linked t s) (hinit : Initialized s admin hash n s') :
    Linked (t.record (.started ⟨hash, 0⟩)) s' := by
  have hlive : t.live = [] := by
    refine List.eq_nil_iff_forall_not_mem.mpr fun entry hmem => ?_
    obtain ⟨proposal, hproposal, -⟩ := h.chain.executed hmem
    rw [h.registry.unused hinit.fresh] at hproposal
    cases hproposal
  have hregistry := h.registry.initialized hinit
  have hproposals : s'.proposal = s.proposal := by rw [hinit.after]
  refine ⟨hregistry, ?_, h.nodup, fun id q hq hstage => h.complete id q (hproposals ▸ hq) hstage⟩
  change Chain s' (some ⟨hash, 0⟩) t.live (inForce s')
  rw [hlive, hinit.after]
  rfl

/-- An execution over a lower version is linked to the timeline with one more entry. -/
theorem executed (h : Linked t s) (hexec : Executed s caller id proposal hash s')
    (hnewer : version s < proposal.newVersion) :
    Linked (t.record (.executed id proposal.release)) s' := by
  have hne := h.ne_of_pending hexec.proposal_eq hexec.pending.1
  have hafter : s'.proposal = update s.proposal id (some
      { proposal with
        prevWasmHash := some hash
        prevVersion := some (version s)
        stage := .executed }) := by
    rw [hexec.after]
    rfl
  have hforce : inForce s = some ⟨hash, version s⟩ := by
    rw [inForce, hexec.hash_eq]
    rfl
  refine ⟨h.registry.executed hexec, ⟨?_, ?_⟩, ?_, ?_⟩
  · rw [hexec.after]
    rfl
  · have hself := congrFun hafter id
    rw [update_self] at hself
    refine ⟨_, ⟨hash, version s⟩, hself, rfl, rfl, rfl, rfl, hnewer, ?_⟩
    rw [← hforce]
    refine h.chain.congr fun entry hmem => ?_
    rw [hafter, update_of_ne (hne entry hmem)]
  · refine List.nodup_cons.mpr ⟨fun hmem => ?_, h.nodup⟩
    obtain ⟨entry, hentry, heq⟩ := List.mem_map.mp hmem
    exact hne entry hentry heq
  · intro k q hq hstage
    rw [hafter, update_apply] at hq
    split at hq
    case isTrue hk => exact ⟨proposal.release, hk ▸ List.mem_cons_self ..⟩
    case isFalse =>
      obtain ⟨release, hmem⟩ := h.complete k q hq hstage
      exact ⟨release, List.mem_cons_of_mem _ hmem⟩

/-- An executed proposal is in force exactly if its version is. -/
theorem latest_iff (h : Linked t s) (hproposal : s.proposal id = some proposal)
    (hstage : proposal.stage = .executed) :
    proposal.newVersion = version s ↔ t.latest = some id := by
  obtain ⟨release, hmem⟩ := h.complete id proposal hproposal hstage
  obtain ⟨executed, hexecuted, -, hrelease⟩ := h.chain.executed hmem
  obtain rfl := Option.some.inj (hproposal.symm.trans hexecuted)
  have hversion : proposal.newVersion = release.version := congrArg Release.version hrelease
  have hchain := h.chain
  have hnodup := h.nodup
  rw [Timeline.latest]
  rcases hlive : t.live with _ | ⟨⟨first, front⟩, rest⟩
  · rw [hlive] at hmem
    cases hmem
  rw [hlive] at hchain hnodup hmem
  obtain ⟨hforce, _, prev, -, -, -, -, -, hlt, hrest⟩ := hchain
  rw [version_of_inForce hforce, hversion]
  obtain heq | hmem := List.mem_cons.mp hmem
  · obtain ⟨rfl, rfl⟩ := Prod.mk.inj heq
    exact iff_of_true rfl rfl
  · obtain ⟨release', hprev, hle⟩ := hrest.version_le hmem
    obtain rfl := Option.some.inj hprev
    refine iff_of_false (hle.trans_lt hlt).ne fun hfirst => ?_
    obtain rfl : first = id := Option.some.inj hfirst
    exact (List.nodup_cons.mp hnodup).1 (List.mem_map.mpr ⟨_, hmem, rfl⟩)

/-- Rolling back the proposal in force is linked to the timeline without it. -/
theorem rolledBack (h : Linked t s) (hback : RolledBack s caller id proposal hash n s')
    (hlatest : t.latest = some id) : Linked (t.record (.rolledBack id)) s' := by
  have hafter : s'.proposal =
      update s.proposal id (some { proposal with stage := .rolledBack }) := by
    rw [hback.after]
    rfl
  have hforce' : inForce s' = some ⟨hash, n⟩ := by
    rw [hback.after]
    rfl
  have hchain := h.chain
  have hnodup := h.nodup
  have hcomplete := h.complete
  rcases hlive : t.live with _ | ⟨⟨first, front⟩, rest⟩
  · rw [Timeline.latest, hlive] at hlatest
    cases hlatest
  rw [Timeline.latest, hlive] at hlatest
  obtain rfl : first = id := Option.some.inj hlatest
  rw [hlive] at hchain hnodup hcomplete
  obtain ⟨-, executed, ⟨prevHash, prevVersion⟩, hexecuted, -, -, hhash, hversion, -, hrest⟩ :=
    hchain
  obtain rfl := Option.some.inj (hback.proposal_eq.symm.trans hexecuted)
  obtain rfl := Option.some.inj (hback.hash_eq.symm.trans hhash)
  obtain rfl := Option.some.inj (hback.version_eq.symm.trans hversion)
  have hnot : ∀ entry ∈ rest, entry.1 ≠ first := by
    intro entry hmem heq
    exact (List.nodup_cons.mp hnodup).1 (List.mem_map.mpr ⟨entry, hmem, heq⟩)
  have hfilter : (t.live.filter fun entry => entry.1 ≠ first) = rest := by
    rw [hlive, List.filter_cons_of_neg (by simp), List.filter_eq_self]
    exact fun entry hmem => decide_eq_true (hnot entry hmem)
  refine ⟨h.registry.rolledBack hback, ?_, ?_, ?_⟩
  · change Chain s' t.initial (t.live.filter fun entry => entry.1 ≠ first) (inForce s')
    rw [hfilter, hforce']
    refine hrest.congr fun entry hmem => ?_
    rw [hafter, update_of_ne (hnot entry hmem)]
  · change ((t.live.filter fun entry => entry.1 ≠ first).map Prod.fst).Nodup
    rw [hfilter]
    exact (List.nodup_cons.mp hnodup).2
  · intro k q hq hstage
    change ∃ release, (k, release) ∈ t.live.filter fun entry => entry.1 ≠ first
    rw [hfilter]
    rw [hafter, update_apply] at hq
    split at hq
    case isTrue => rw [← Option.some.inj hq] at hstage; cases hstage
    case isFalse hk =>
      obtain ⟨release, hmem⟩ := hcomplete k q hq hstage
      exact ⟨release, (List.mem_cons.mp hmem).resolve_left fun heq => hk (Prod.mk.inj heq).1⟩

/-- **Every step taken in order is a step of the timeline.** -/
theorem step (h : Linked t s) (hstep : Upgrade.step tx s = some s') (horder : InOrder s tx) :
    Linked ((tx.op.events s).foldl Timeline.record t) s' := by
  have hregistry := h.registry.step hstep
  have heffect := step_effect hstep
  obtain ⟨e, op⟩ := tx
  cases op
  case init => exact h.initialized heffect
  case addApprover =>
    have hafter := Joined.after heffect
    split at hafter
    case isTrue => exact hafter ▸ h
    case isFalse =>
      exact h.kept hregistry (by rw [hafter]; rfl) fun _ _ _ => by rw [hafter]
  case removeApprover =>
    have hafter := Left.after heffect
    split at hafter
    case isTrue => exact h.kept hregistry (by rw [hafter]; rfl) fun _ _ _ => by rw [hafter]
    case isFalse => exact hafter ▸ h
  case upgradePropose =>
    refine h.rewritten hregistry (by rw [Proposed.after heffect]; rfl)
      (by rw [Proposed.after heffect]; rfl) ?_ fun proposal hproposal => ?_
    · rw [proposalOf]
      dsimp only
      split <;> simp
    · rw [h.registry.numbered _ le_rfl] at hproposal
      cases hproposal
  case upgradeApprove =>
    obtain ⟨proposal, happroved⟩ := heffect
    have hpending : proposal.stage ≠ .executed := by
      rcases happroved.pending with hstage | hstage <;> simp [hstage]
    refine h.rewritten hregistry (by rw [happroved.after]; rfl) (by rw [happroved.after]; rfl) ?_
      fun other hother => ?_
    · rw [UpgradeProposal.approvedBy]
      dsimp only
      split
      · simp
      · exact hpending
    · obtain rfl := Option.some.inj (happroved.proposal_eq.symm.trans hother)
      exact hpending
  case upgradeExecute =>
    obtain ⟨proposal, hash, hexec⟩ := heffect
    rw [Op.events, hexec.proposal_eq]
    exact h.executed hexec (horder proposal hexec.proposal_eq)
  case upgradeRollback =>
    obtain ⟨proposal, hash, n, hback⟩ := heffect
    exact h.rolledBack hback
      ((h.latest_iff hback.proposal_eq hback.executed).mp (horder proposal hback.proposal_eq))

end Linked

/-! ## The order -/

/-- What a step has to do to the release in force. -/
structure Orderly (t : Timeline) (s : Storage) (tx : Tx) (s' : Storage) : Prop where
  active : inForce s' = ((tx.op.events s).foldl Timeline.record t).active
  raises : tx.op.executes ≠ [] → version s < version s'
  lowers : version s' < version s →
    ∃ caller id, tx.op = .upgradeRollback caller id ∧ t.latest = some id

/-- Only an execution and a rollback change the version. -/
theorem version_eq_of_step (hstep : step tx s = some s') (hregistry : Registry s)
    (hexecute : tx.op.executes = [])
    (hrollback : ∀ caller id, tx.op ≠ .upgradeRollback caller id) : version s' = version s := by
  have heffect := step_effect hstep
  obtain ⟨e, op⟩ := tx
  cases op
  case init =>
    rw [hregistry.unversioned heffect.fresh, heffect.after]
    rfl
  case addApprover =>
    rw [Joined.after heffect]
    split <;> rfl
  case removeApprover =>
    rw [Left.after heffect]
    split <;> rfl
  case upgradePropose =>
    rw [Proposed.after heffect]
    rfl
  case upgradeApprove =>
    obtain ⟨proposal, happroved⟩ := heffect
    rw [happroved.after]
    rfl
  case upgradeExecute => exact absurd hexecute (List.cons_ne_nil _ _)
  case upgradeRollback caller id => exact absurd rfl (hrollback caller id)

theorem Op.inOrder_cases (op : Op) : (∃ caller id, op = .upgradeExecute caller id) ∨
    (∃ caller id, op = .upgradeRollback caller id) ∨
      op.executes = [] ∧ ∀ caller id, op ≠ .upgradeRollback caller id := by
  cases op
  case upgradeExecute caller id => exact .inl ⟨caller, id, rfl⟩
  case upgradeRollback caller id => exact .inr (.inl ⟨caller, id, rfl⟩)
  all_goals exact .inr (.inr ⟨rfl, fun _ _ h => by cases h⟩)

namespace Linked

variable {t : Timeline}

/-- A step in order does with the release in force what it has to. -/
theorem orderly (h : Linked t s) (hstep : Upgrade.step tx s = some s') (horder : InOrder s tx) :
    Orderly t s tx s' := by
  have hactive := (h.step hstep horder).active
  obtain ⟨e, op⟩ := tx
  obtain ⟨caller, id, rfl⟩ | ⟨caller, id, rfl⟩ | ⟨hexecute, hrollback⟩ := op.inOrder_cases
  · obtain ⟨proposal, hash, hexec⟩ := step_effect hstep
    have hlt : version s < version s' := by
      rw [hexec.after]
      exact horder proposal hexec.proposal_eq
    exact ⟨hactive, fun _ => hlt, fun hlower => absurd hlower hlt.asymm⟩
  · obtain ⟨proposal, hash, n, hback⟩ := step_effect hstep
    refine ⟨hactive, fun hne => absurd rfl hne, fun _ => ⟨caller, id, rfl, ?_⟩⟩
    exact (h.latest_iff hback.proposal_eq hback.executed).mp (horder proposal hback.proposal_eq)
  · refine ⟨hactive, fun hne => absurd hexecute hne, fun hlower => ?_⟩
    rw [version_eq_of_step hstep h.registry hexecute hrollback] at hlower
    exact absurd hlower (lt_irrefl _)

/-- Rolling back another proposal than the one in force leaves a version in force that is older than
that of the latest. -/
theorem inOrder_rollback {e : Env} (h : Linked t s)
    (hstep : Upgrade.step ⟨e, .upgradeRollback caller id⟩ s = some s')
    (hactive : inForce s' = (t.record (.rolledBack id)).active) :
    InOrder s ⟨e, .upgradeRollback caller id⟩ := by
  obtain ⟨proposal, hash, n, hback⟩ := step_effect hstep
  have hforce' : inForce s' = some ⟨hash, n⟩ := by
    rw [hback.after]
    rfl
  intro proposal' hproposal'
  obtain rfl := Option.some.inj (hback.proposal_eq.symm.trans hproposal')
  rw [h.latest_iff hback.proposal_eq hback.executed]
  by_contra hother
  obtain ⟨release, hmem⟩ := h.complete id proposal hback.proposal_eq hback.executed
  have hprev : n < release.version := h.chain.prevVersion_lt hmem hback.proposal_eq hback.version_eq
  obtain ⟨current, hforce, hle⟩ := h.chain.version_le hmem
  have hlatest := h.active
  rw [hforce'] at hactive
  rw [Timeline.latest] at hother
  rcases hlive : t.live with _ | ⟨⟨first, front⟩, rest⟩
  · rw [hlive] at hmem
    cases hmem
  have hfirst : first ≠ id := by
    rintro rfl
    exact hother (by rw [hlive]; rfl)
  rw [Timeline.active, Timeline.record, hlive, List.filter_cons_of_pos (by simpa using hfirst)]
    at hactive
  rw [Timeline.active, hlive, hforce] at hlatest
  obtain rfl := Option.some.inj hactive
  obtain rfl := Option.some.inj hlatest
  exact absurd (hprev.trans_le hle) (lt_irrefl n)

/-- **A step does with the release in force what it has to exactly if it is taken in order.** -/
theorem inOrder_iff (h : Linked t s) (hstep : Upgrade.step tx s = some s') :
    InOrder s tx ↔ Orderly t s tx s' := by
  refine ⟨h.orderly hstep, fun horderly => ?_⟩
  obtain ⟨e, op⟩ := tx
  cases op
  case upgradeExecute caller id =>
    obtain ⟨proposal, hash, hexec⟩ := step_effect hstep
    intro proposal' hproposal'
    obtain rfl := Option.some.inj (hexec.proposal_eq.symm.trans hproposal')
    have hlt := horderly.raises (List.cons_ne_nil _ _)
    rwa [hexec.after] at hlt
  case upgradeRollback => exact h.inOrder_rollback hstep horderly.active
  all_goals trivial

end Linked

/-! ## Runs -/

/-- The timeline of a run, one step later. -/
theorem timeline_snoc {ys : List Tx} (hstep : step tx (ledger ys) = some s') :
    timeline (ys ++ [tx]) = (tx.op.events (ledger ys)).foldl Timeline.record (timeline ys) := by
  have hhistory := history_snoc (fun s tx => Op.events s tx.op) hstep
  rw [timeline, hhistory, Timeline.of_append]
  rfl

theorem linked_of_meets {txs : List Tx} (h : Meets step InOrder Storage.empty txs) :
    Linked (timeline txs) (ledger txs) :=
  h.history_invariant (I := fun events s => Linked (.of events) s) (h := [])
    (fun events s tx s' hstep horder hlinked => by
      rw [Timeline.of_append]
      exact hlinked.step hstep horder) Linked.empty

/-- **The timeline is kept along exactly the runs that execute proposals over lower versions only,
and roll a proposal back only while its version is in force.** -/
theorem timelineKept_iff (txs : List Tx) :
    TimelineKept txs ↔ Meets step InOrder Storage.empty txs := by
  constructor
  · intro h
    refine (meets_iff_recorded (h := []) (I := fun events s => Linked (.of events) s)
      (P := fun events s tx s' => Orderly (.of events) s tx s')
      (fun events s tx s' hstep hlinked => hlinked.inOrder_iff hstep)
      (fun events s tx s' hstep horder hlinked => by
        rw [Timeline.of_append]
        exact hlinked.step hstep horder) Linked.empty).mpr fun ys tx zs s' htxs hstep => ?_
    have hpre : ys ++ [tx] <+: txs := ⟨zs, by rw [htxs, List.append_assoc, List.singleton_append]⟩
    refine ⟨?_, h.raises ys tx s' hpre hstep, h.lowers ys tx s' hpre hstep⟩
    have hactive := h.active _ hpre
    have hafter : ledger (ys ++ [tx]) = s' := by
      rw [ledger_snoc]
      exact exec_of_some hstep
    rwa [hafter, timeline_snoc hstep] at hactive
  · intro h
    have horderly : ∀ ys tx s', ys ++ [tx] <+: txs → step tx (ledger ys) = some s' →
        Orderly (timeline ys) (ledger ys) tx s' := by
      rintro ys tx s' ⟨zs, rfl⟩ hstep
      have hparts := meets_append.mp (meets_append.mp h).1
      exact (linked_of_meets hparts.1).orderly hstep
        (hparts.2.1 (Option.isSome_of_mem (Option.mem_def.mpr hstep)))
    refine ⟨?_, fun ys tx s' hpre hstep => (horderly ys tx s' hpre hstep).raises,
      fun ys tx s' hpre hstep => (horderly ys tx s' hpre hstep).lowers⟩
    rintro ys ⟨zs, rfl⟩
    exact (linked_of_meets (meets_append.mp h).1).active

/-! ## An older proposal executed later -/

namespace Sample

/-- One approver is enough; version 1 is proposed before version 2 and executed after it. -/
def overtaken : List Tx :=
  [signed admin (.init admin 0 1), signed admin (.upgradePropose admin 1 1),
    signed admin (.upgradePropose admin 2 2), signed admin (.upgradeExecute admin 2)]

def late : Tx := signed admin (.upgradeExecute admin 1)

end Sample

theorem not_timelineKept_overtaken : ¬ TimelineKept (Sample.overtaken ++ [Sample.late]) := by
  intro h
  have hsome : (step Sample.late (ledger Sample.overtaken)).isSome = true := by decide
  obtain ⟨s', hstep⟩ := Option.isSome_iff_exists.mp hsome
  have hraises := h.raises Sample.overtaken Sample.late s' (List.prefix_refl _) hstep (by decide)
  have hafter : exec step (ledger Sample.overtaken) Sample.late = s' := exec_of_some hstep
  rw [← hafter] at hraises
  revert hraises
  decide

end StellarLend.Upgrade
