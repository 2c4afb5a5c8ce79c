import Mathlib.Data.List.Nodup
import StellarLend.Merkle.Tree

/-!
# Merkle/Soundness — the proof service, and what its verdict on a proof says

`api/src/services/merkleProof.service.ts`: the registry is a map in insertion order, and the tree is
rebuilt from all its accounts on every change.  `verifyProof` is a method of the service, and reads
nothing of it.

The service hands out proofs of its own tree (`generateProof_verifies`), but its verdict on a proof
compares the climb with the root in that proof.  A digest that names itself as the root of a tree of
one leaf passes, whatever the registry holds, and so does every proof made from another tree.
-/

namespace StellarLend.Merkle

/-! ## The registry -/

structure AccountState where
  userAddress : String
  collateral : String
  debt : String
  lastUpdated : ℤ

/-- The leaf of an account. -/
def AccountState.leaf (a : AccountState) : String :=
  hashAccountState a.userAddress a.collateral a.debt a.lastUpdated

/-- The accounts in insertion order, one for each address. -/
structure Registry where
  accounts : List AccountState
  nodup : (accounts.map AccountState.userAddress).Nodup

namespace Registry

/-- A replaced account keeps its place. -/
def replace (state : AccountState) (a : AccountState) : AccountState :=
  if a.userAddress = state.userAddress then state else a

theorem userAddress_replace (state a : AccountState) :
    (replace state a).userAddress = a.userAddress := by
  rw [replace]
  split
  · exact Eq.symm ‹_›
  · rfl

theorem map_userAddress_replace (state : AccountState) (accounts : List AccountState) :
    (accounts.map (replace state)).map AccountState.userAddress =
      accounts.map AccountState.userAddress := by
  rw [List.map_map]
  exact List.map_congr_left fun a _ => userAddress_replace state a

/-- `accountRegistry.set(state.userAddress, state)` -/
def set (r : Registry) (state : AccountState) : Registry :=
  if h : state.userAddress ∈ r.accounts.map AccountState.userAddress then
    { accounts := r.accounts.map (replace state)
      nodup := by rw [map_userAddress_replace]; exact r.nodup }
  else
    { accounts := r.accounts ++ [state]
      nodup := by
        rw [List.map_append, List.map_singleton]
        exact r.nodup.append (List.nodup_singleton _) (by simpa using h) }

theorem set_ne_nil (r : Registry) (state : AccountState) : (r.set state).accounts ≠ [] := by
  rw [set]
  split
  · rename_i h
    intro hnil
    rw [List.map_eq_nil_iff.mp hnil] at h
    exact absurd h (by simp)
  · simp

/-- `accounts.findIndex((a) => a.userAddress === userAddress)`, none for `-1`. -/
def findIndex (r : Registry) (userAddress : String) : Option ℕ :=
  r.accounts.findIdx? fun a => a.userAddress == userAddress

end Registry

/-! ## The service -/

structure TreeSnapshot where
  root : String
  depth : ℕ
  leafCount : ℕ
  createdAt : ℤ

structure Service where
  accountRegistry : Registry
  currentTree : Option MerkleTree
  treeSnapshot : Option TreeSnapshot

/-- An error with the status that the API answers with. -/
structure ServiceError where
  message : String
  status : Option ℕ
deriving DecidableEq

structure Verdict where
  valid : Bool
  root : String
deriving DecidableEq

namespace Service

variable (sha256 : String → String)

def initial : Service where
  accountRegistry := { accounts := [], nodup := List.nodup_nil }
  currentTree := none
  treeSnapshot := none

/-- `rebuildTree`; the constructor refuses only the empty list, which is asked for first. -/
def rebuildTree (s : Service) (now : ℤ) : Service :=
  match MerkleTree.new sha256 (s.accountRegistry.accounts.map AccountState.leaf) with
  | .error _ => { s with currentTree := none, treeSnapshot := none }
  | .ok t =>
    { s with
      currentTree := some t
      treeSnapshot := some {
        root := t.root sha256
        depth := t.depth sha256
        leafCount := s.accountRegistry.accounts.length
        createdAt := now } }

/-- `upsertAccount`; an update without a time of its own gets the present one. -/
def upsertAccount (s : Service) (userAddress collateral debt : String) (lastUpdated : Option ℤ)
    (now : ℤ) : Service :=
  let state : AccountState := ⟨userAddress, collateral, debt, lastUpdated.getD now⟩
  rebuildTree sha256 { s with accountRegistry := s.accountRegistry.set state } now

def generateProof (s : Service) (userAddress : String) : Except ServiceError MerkleProof :=
  match s.currentTree with
  | none => .error ⟨"No account tree available", some 503⟩
  | some t =>
    match s.accountRegistry.findIndex userAddress with
    | none => .error ⟨"Account not found in registry", some 404⟩
    | some index => (t.getProof sha256 index).mapError fun message => ⟨message, none⟩

/-- The proof is compared with the root that it brings along; the service's tree is not asked. -/
def verifyProof (_ : Service) (proof : MerkleProof) : Verdict :=
  ⟨verify sha256 proof, proof.root⟩

/-! ## Reachable services -/

/-- The services that updates lead to. -/
inductive Reachable : Service → Prop
  | initial : Reachable initial
  | upsert {s : Service} (h : Reachable s) (userAddress collateral debt : String)
      (lastUpdated : Option ℤ) (now : ℤ) :
      Reachable (s.upsertAccount sha256 userAddress collateral debt lastUpdated now)

variable {sha256}

@[simp] theorem rebuildTree_accountRegistry (s : Service) (now : ℤ) :
    (s.rebuildTree sha256 now).accountRegistry = s.accountRegistry := by
  rw [rebuildTree]
  split <;> rfl

/-- A rebuilt tree is over the registry's accounts, and there is one if there are accounts. -/
theorem rebuildTree_currentTree (s : Service) (now : ℤ)
    (h : s.accountRegistry.accounts ≠ []) : ∃ t, (s.rebuildTree sha256 now).currentTree = some t ∧
      t.leaves = s.accountRegistry.accounts.map fun a => sha256 a.leaf := by
  have hne : s.accountRegistry.accounts.map AccountState.leaf ≠ [] := by simpa using h
  rw [rebuildTree, MerkleTree.new, dif_neg hne]
  exact ⟨_, rfl, by simp⟩

/-- **Once there are accounts, the tree is the one over them.** -/
theorem Reachable.currentTree {s : Service} (hs : Reachable sha256 s)
    (h : s.accountRegistry.accounts ≠ []) : ∃ t, s.currentTree = some t ∧
      t.leaves = s.accountRegistry.accounts.map fun a => sha256 a.leaf := by
  cases hs with
  | initial => exact absurd rfl h
  | upsert _ userAddress collateral debt lastUpdated now =>
    rw [upsertAccount, rebuildTree_accountRegistry]
    exact rebuildTree_currentTree _ now (Registry.set_ne_nil _ _)

end Service

/-! ## Verdicts -/

open Foundations HashTree

section Soundness

variable (sha256 : String → String)

/-- A valid proof names the digest that the current tree has at the place claimed. -/
def LeafSound (s : Service) : Prop :=
  ∀ t, s.currentTree = some t → ∀ proof, (s.verifyProof sha256 proof).valid = true →
    0 ≤ proof.index ∧ t.leaves[proof.index.toNat]? = some proof.leaf

/-- No proof made from another tree is valid. -/
def RejectsForeign (s : Service) : Prop :=
  ∀ t, s.currentTree = some t → ∀ leaves u, MerkleTree.new sha256 leaves = .ok u →
    u.leaves ≠ t.leaves → ∀ (index : ℤ) proof, u.getProof sha256 index = .ok proof →
      (s.verifyProof sha256 proof).valid = false

variable {sha256}

/-- **A leaf with neighbours all the way up gets a proof from the service that it accepts.** -/
theorem Service.generateProof_verifies {s : Service} (hs : Service.Reachable sha256 s)
    {userAddress : String} {i : ℕ} (hi : s.accountRegistry.findIndex userAddress = some i)
    (hp : Paired s.accountRegistry.accounts.length i) :
    ∃ proof, s.generateProof sha256 userAddress = .ok proof ∧
      (s.verifyProof sha256 proof).valid = true := by
  have hlt : i < s.accountRegistry.accounts.length :=
    (List.findIdx?_eq_some_iff_getElem.mp hi).1
  obtain ⟨t, ht, hleaves⟩ := hs.currentTree (List.ne_nil_of_length_pos (by omega))
  have hlen : t.leaves.length = s.accountRegistry.accounts.length := by
    rw [hleaves, List.length_map]
  have hit : i < t.leaves.length := by rwa [hlen]
  refine ⟨t.proofAt sha256 i hit, ?_, verify_of_paired t hit (by rwa [hlen])⟩
  rw [generateProof, ht]
  simp only [hi, getProof_eq t hit]
  rfl

/-- A digest passes for the only leaf of the tree whose root it is. -/
theorem verify_self (leaf : String) (index : ℤ) : verify sha256 ⟨leaf, index, [], leaf⟩ = true :=
  beq_self_eq_true leaf

/-- The first leaf has neighbours all the way up. -/
theorem paired_zero (n : ℕ) : Paired n 0 := by
  intro k hk
  rw [Nat.zero_div]
  exact hk

variable (sha256) in
/-- The proof of the first leaf of any tree is valid. -/
theorem verify_first (s : Service) (u : MerkleTree) :
    ∃ proof, u.getProof sha256 0 = .ok proof ∧ (s.verifyProof sha256 proof).valid = true := by
  have hpos : 0 < u.leaves.length := List.length_pos_iff.mpr u.nonempty
  exact ⟨u.proofAt sha256 0 hpos, getProof_eq u hpos, verify_of_paired u hpos (paired_zero _)⟩

/-- Some text is not this one. -/
theorem append_ne (text : String) : text ++ "0" ≠ text := by
  intro he
  have hlen : text.length + 1 = text.length := by
    conv_rhs => rw [← he, String.length_append]
    rfl
  omega

theorem not_leafSound {s : Service} {t : MerkleTree} (ht : s.currentTree = some t) :
    ¬ LeafSound sha256 s := by
  intro h
  have hpos : 0 < t.leaves.length := List.length_pos_iff.mpr t.nonempty
  obtain ⟨-, hleaf⟩ := h t ht ⟨t.leaves[0] ++ "0", 0, [], t.leaves[0] ++ "0"⟩ (verify_self _ _)
  rw [Int.toNat_zero, List.getElem?_eq_getElem hpos] at hleaf
  exact append_ne _ (Option.some.inj hleaf).symm

theorem not_rejectsForeign {s : Service} {t : MerkleTree} (ht : s.currentTree = some t) :
    ¬ RejectsForeign sha256 s := by
  intro h
  have hne : List.replicate (t.leaves.length + 1) "" ≠ [] := by simp
  have hother : (List.replicate (t.leaves.length + 1) "").map sha256 ≠ t.leaves := by
    intro he
    have hlen := congrArg List.length he
    simp at hlen
  obtain ⟨proof, hproof, hvalid⟩ := verify_first sha256 s
    { leaves := (List.replicate (t.leaves.length + 1) "").map sha256, nonempty := by simp }
  rw [h t ht _ _ (new_eq hne) hother 0 proof hproof] at hvalid
  cases hvalid

/-- **The verdict says nothing about the current tree**: every text is valid at every place for the
tree of which it would be the root, every tree has a proof that is valid, and so a valid proof need
not name a leaf of the current tree, nor is a proof of another tree rejected. -/
theorem verifyProof_unsound {s : Service} {t : MerkleTree} (ht : s.currentTree = some t) :
    (∀ leaf index, s.verifyProof sha256 ⟨leaf, index, [], leaf⟩ = ⟨true, leaf⟩) ∧
      (∀ u : MerkleTree,
        ∃ proof, u.getProof sha256 0 = .ok proof ∧ (s.verifyProof sha256 proof).valid = true) ∧
      ¬ LeafSound sha256 s ∧ ¬ RejectsForeign sha256 s :=
  ⟨fun leaf index => congrArg (Verdict.mk · leaf) (verify_self leaf index),
    verify_first sha256 s, not_leafSound ht, not_rejectsForeign ht⟩

end Soundness

namespace Sample

/-- A registry of one account. -/
def registry : Service := Service.initial.upsertAccount sha256 "GALICE" "500" "0" (some 1) 1

theorem registry_leaves : ∃ t, registry.currentTree = some t ∧
    t.leaves = [sha256 "GALICE:500:0:1"] := ⟨_, rfl, rfl⟩

theorem registry_unsound : ¬ LeafSound sha256 registry ∧ ¬ RejectsForeign sha256 registry := by
  obtain ⟨t, ht, -⟩ := registry_leaves
  exact (verifyProof_unsound ht).2.2

/-- Only one text is hashed for this registry, so nothing collides; and yet a text that is no digest
at all passes for its first leaf. -/
theorem forged_proof_accepted :
    (∀ data ∈ ["GALICE:500:0:1"], ∀ data' ∈ ["GALICE:500:0:1"],
      sha256 data = sha256 data' → data = data') ∧
    (registry.verifyProof sha256 ⟨"forged", 0, [], "forged"⟩).valid = true ∧
    ¬ LeafSound sha256 registry := by
  refine ⟨by simp, verify_self _ _, fun h => ?_⟩
  obtain ⟨t, ht, hleaves⟩ := registry_leaves
  obtain ⟨-, hleaf⟩ := h t ht ⟨"forged", 0, [], "forged"⟩ (verify_self _ _)
  rw [hleaves] at hleaf
  have hlen := congrArg String.length (Option.some.inj hleaf)
  rw [length_sha256] at hlen
  exact absurd hlen (by decide)

end Sample

end StellarLend.Merkle
