import Mathlib.Data.List.Nodup
import StellarLend.Foundations.HashTree
import StellarLend.Foundations.Sha256

/-!
# Merkle/Tree — the Merkle tree of the account registry, and which leaves' proofs verify

`api/src/utils/merkleTree.ts`, line by line, over the hash function of the runtime as a parameter.
Digests are text.  `build` hashes an unpaired last node with itself; `getProof` records no sibling
for it, and `verify` hashes only what is recorded.

A leaf's proof therefore verifies where every node on its way up has a neighbour (`Paired`),
whatever the hash function; where one has none, a digest that the root depends on is never formed,
and the proof fails unless the hash function collides or runs in circles (`Ideal`).
-/

namespace StellarLend.Merkle

open Foundations HashTree

/-! ## The order of text -/

/-- The UTF-16 code units of a character. -/
def codeUnitsOf (c : Char) : List ℕ :=
  if c.toNat < 0x10000 then [c.toNat]
  else [0xD800 + (c.toNat - 0x10000) / 0x400, 0xDC00 + (c.toNat - 0x10000) % 0x400]

/-- `<=` on texts, given as code units: the first difference decides, then the length. -/
def unitsLe : List ℕ → List ℕ → Bool
  | [], _ => true
  | _ :: _, [] => false
  | a :: as, b :: bs => decide (a < b) || (a == b && unitsLe as bs)

/-- `left <= right` -/
def textLe (left right : String) : Bool :=
  unitsLe (left.toList.flatMap codeUnitsOf) (right.toList.flatMap codeUnitsOf)

/-! ## Hashing -/

/-- The text that stands for a pair, whichever way round it is given. -/
def canonical (pair : String × String) : String :=
  if textLe pair.1 pair.2 then pair.1 ++ pair.2 else pair.2 ++ pair.1

section Tree

variable (sha256 : String → String)

def hashPair (left right : String) : String := sha256 (canonical (left, right))

/-! ## Proofs -/

/-- The position is text in a request: anything but `left` is taken for `right`. -/
structure Sibling where
  hash : String
  position : String
deriving DecidableEq

structure MerkleProof where
  leaf : String
  index : ℤ
  siblings : List Sibling
  root : String
deriving DecidableEq

def Sibling.onLeft (sibling : Sibling) : Bool := sibling.position == "left"

/-- `MerkleTree.verify`: the proof's own root is what the climb is compared with. -/
def verify (proof : MerkleProof) : Bool :=
  proof.siblings.foldl (fun current sibling =>
    if sibling.onLeft then hashPair sha256 sibling.hash current
    else hashPair sha256 current sibling.hash) proof.leaf == proof.root

/-! ## Trees -/

/-- The levels of the tree over these leaves. -/
def build (leaves : List String) : List (List String) := levels (hashPair sha256) leaves

/-- A tree is made by its constructor only, which hashes the leaves and refuses an empty list. -/
structure MerkleTree where
  leaves : List String
  nonempty : leaves ≠ []

namespace MerkleTree

/-- `new MerkleTree(leaves)` -/
def new (leaves : List String) : Except String MerkleTree :=
  if h : leaves = [] then .error "MerkleTree requires at least one leaf"
  else .ok { leaves := leaves.map sha256, nonempty := by simpa using h }

variable (t : MerkleTree)

/-- The levels, from the leaves up. -/
def tree : List (List String) := build sha256 t.leaves

/-- The levels above the leaves. -/
def upper : List (List String) := above (hashPair sha256) t.leaves.length t.leaves

theorem isSome_root (t : MerkleTree) : (top t.leaves (t.upper sha256)).isSome :=
  isSome_top t.nonempty (by omega)

/-- The first node of the last level. -/
def root : String := (top t.leaves (t.upper sha256)).get (t.isSome_root sha256)

def depth : ℕ := (t.tree sha256).length - 1

/-- The siblings that `getProof` collects, from the leaves up. -/
def siblingsOf (index : ℕ) : List (Bool × String) :=
  siblings t.leaves (t.upper sha256) index

def getProof (index : ℤ) : Except String MerkleProof :=
  if h : index < 0 ∨ t.leaves.length ≤ index then
    .error s!"Leaf index {index} out of bounds"
  else
    .ok {
      leaf := t.leaves[index.toNat]
      index
      siblings := (t.siblingsOf sha256 index.toNat).map fun s =>
        ⟨s.2, if s.1 then "left" else "right"⟩
      root := t.root sha256 }

/-- `verify` of a tree: the tree itself plays no part. -/
def verify (_ : MerkleTree) (proof : MerkleProof) : Bool := Merkle.verify sha256 proof

end MerkleTree

end Tree

def hashAccountState (userAddress collateral debt : String) (timestamp : ℤ) : String :=
  s!"{userAddress}:{collateral}:{debt}:{timestamp}"

section Completeness

variable {sha256 : String → String}

/-! ## The proof that a tree hands out -/

@[simp] theorem onLeft_of_bool (hash : String) (b : Bool) :
    Sibling.onLeft ⟨hash, if b then "left" else "right"⟩ = b := by
  cases b <;> simp [Sibling.onLeft]

/-- Verifying a proof is climbing with its siblings. -/
theorem verify_eq_climb (leaf root : String) (index : ℤ) (ss : List (Bool × String)) :
    verify sha256 ⟨leaf, index, ss.map fun s => ⟨s.2, if s.1 then "left" else "right"⟩, root⟩ =
      (climb (hashPair sha256) leaf ss == root) := by
  rw [verify, List.foldl_map]
  simp only [onLeft_of_bool]
  rfl

/-- The proof of a leaf of the tree. -/
def MerkleTree.proofAt (sha256 : String → String) (t : MerkleTree) (i : ℕ)
    (hi : i < t.leaves.length) : MerkleProof where
  leaf := t.leaves[i]
  index := i
  siblings := (t.siblingsOf sha256 i).map fun s => ⟨s.2, if s.1 then "left" else "right"⟩
  root := t.root sha256

theorem getProof_eq (t : MerkleTree) {i : ℕ} (hi : i < t.leaves.length) :
    t.getProof sha256 i = .ok (t.proofAt sha256 i hi) := by
  rw [MerkleTree.getProof, dif_neg (by omega)]
  rfl

theorem new_eq {leaves : List String} (h : leaves ≠ []) : MerkleTree.new sha256 leaves =
    .ok { leaves := leaves.map sha256, nonempty := by simpa using h } := dif_neg h

/-- The proof of a leaf verifies exactly if the climb from it ends at the root. -/
theorem verify_proofAt (t : MerkleTree) {i : ℕ} (hi : i < t.leaves.length) :
    verify sha256 (t.proofAt sha256 i hi) = true ↔ top t.leaves (t.upper sha256) =
      some (climb (hashPair sha256) t.leaves[i] (t.siblingsOf sha256 i)) := by
  rw [MerkleTree.proofAt, verify_eq_climb, beq_iff_eq, MerkleTree.root]
  constructor
  · intro h
    rw [h, Option.some_get]
  · intro h
    simp only [h, Option.get_some]

/-! ## Hash functions without accidents -/

/-- The pairs hashed in building the tree and in checking the proof of a leaf. -/
def MerkleTree.hashed (sha256 : String → String) (t : MerkleTree) (i : ℕ) :
    List (String × String) :=
  built (hashPair sha256) t.leaves.length t.leaves ++
    climbed (hashPair sha256) (t.leaves.getD i "") (t.siblingsOf sha256 i)

/-- On these pairs the hash function does what it is chosen for: no two texts collide, and no digest
is part of a text that it depends on, in that digests can be ranked above the parts they are made
of. -/
structure Ideal (sha256 : String → String) (hashed : List (String × String)) : Prop where
  length : ∀ data, (sha256 data).length = 64
  injective : ∀ p ∈ hashed, ∀ q ∈ hashed,
    sha256 (canonical p) = sha256 (canonical q) → canonical p = canonical q
  acyclic : ∃ rank : String → ℕ, ∀ p ∈ hashed,
    rank p.1 < rank (hashPair sha256 p.1 p.2) ∧ rank p.2 < rank (hashPair sha256 p.1 p.2)

/-- Two digests can be told apart when they stand one after the other. -/
theorem append_inj_of_length {a b c d : String} (ha : a.length = 64) (hc : c.length = 64)
    (h : a ++ b = c ++ d) : a = c ∧ b = d := by
  have hlist : a.toList ++ b.toList = c.toList ++ d.toList := by
    rw [← String.toList_append, ← String.toList_append, h]
  have hlen : a.toList.length = c.toList.length := by
    rw [String.length_toList, String.length_toList, ha, hc]
  obtain ⟨hac, hbd⟩ := List.append_inj hlist hlen
  exact ⟨String.toList_injective hac, String.toList_injective hbd⟩

/-- The text that stands for a pair of digests tells the pair, up to the order of the two. -/
theorem eq_of_canonical {p q : String × String} (hp : p.1.length = 64 ∧ p.2.length = 64)
    (hq : q.1.length = 64 ∧ q.2.length = 64) (h : canonical p = canonical q) :
    p = q ∨ p = q.swap := by
  obtain ⟨a, b⟩ := p
  obtain ⟨c, d⟩ := q
  rw [canonical, canonical] at h
  split at h <;> split at h
  · obtain ⟨rfl, rfl⟩ := append_inj_of_length hp.1 hq.1 h
    exact .inl rfl
  · obtain ⟨rfl, rfl⟩ := append_inj_of_length hp.1 hq.2 h
    exact .inr rfl
  · obtain ⟨rfl, rfl⟩ := append_inj_of_length hp.2 hq.1 h
    exact .inr rfl
  · obtain ⟨rfl, rfl⟩ := append_inj_of_length hp.2 hq.2 h
    exact .inl rfl

/-- **Such a hash function combines one-way**, on pairs of digests. -/
theorem Ideal.oneWay {hashed : List (String × String)} (h : Ideal sha256 hashed) :
    ∃ rank, OneWay (hashPair sha256) rank
      fun p => p ∈ hashed ∧ p.1.length = 64 ∧ p.2.length = 64 := by
  obtain ⟨rank, hrank⟩ := h.acyclic
  refine ⟨rank, fun hp hq he => ?_, fun hp => (hrank _ hp.1).1, fun hp => (hrank _ hp.1).2⟩
  exact eq_of_canonical hp.2 hq.2 (h.injective _ hp.1 _ hq.1 he)

/-- All texts hashed above the leaves are made of digests. -/
theorem hashed_length (hlen : ∀ data, (sha256 data).length = 64) {t : MerkleTree} {i : ℕ}
    (hi : i < t.leaves.length) (ht : ∀ leaf ∈ t.leaves, leaf.length = 64) :
    ∀ p ∈ t.hashed sha256 i, p.1.length = 64 ∧ p.2.length = 64 := by
  have hpair : ∀ l r, (hashPair sha256 l r).length = 64 := fun l r => hlen _
  have hleaf : (t.leaves.getD i "").length = 64 := by
    rw [List.getD_eq_getElem?_getD, List.getElem?_eq_getElem hi]
    exact ht _ (List.getElem_mem hi)
  have hsiblings : ∀ s ∈ t.siblingsOf sha256 i, s.2.length = 64 :=
    forall_siblings (Q := fun node : String => node.length = 64) hpair ht
  intro p hp
  rcases List.mem_append.mp hp with hp | hp
  · exact forall_built (Q := fun node : String => node.length = 64) hpair ht p hp
  · exact forall_climbed (Q := fun node : String => node.length = 64) hpair hleaf hsiblings p hp

/-! ## Which proofs verify -/

/-- **Where every node on the way up has a neighbour, the proof verifies.** -/
theorem verify_of_paired (t : MerkleTree) {i : ℕ} (hi : i < t.leaves.length)
    (hp : Paired t.leaves.length i) : verify sha256 (t.proofAt sha256 i hi) = true :=
  (verify_proofAt t hi).mpr (climb_siblings (List.getElem?_eq_getElem hi) (by omega) hp)

/-- **Where one has none, it does not.** -/
theorem paired_of_verify (t : MerkleTree) {i : ℕ} (hi : i < t.leaves.length)
    (ht : ∀ leaf ∈ t.leaves, leaf.length = 64) (hideal : Ideal sha256 (t.hashed sha256 i))
    (hv : verify sha256 (t.proofAt sha256 i hi) = true) : Paired t.leaves.length i := by
  obtain ⟨rank, hrank⟩ := hideal.oneWay
  have hleaf : t.leaves.getD i "" = t.leaves[i] := by
    rw [List.getD_eq_getElem?_getD, List.getElem?_eq_getElem hi]
    rfl
  have hP : ∀ p ∈ t.hashed sha256 i,
      p ∈ t.hashed sha256 i ∧ p.1.length = 64 ∧ p.2.length = 64 := fun p hp =>
    ⟨hp, hashed_length hideal.length hi ht p hp⟩
  refine hrank.paired_of_climb (List.getElem?_eq_getElem hi) (by omega)
    (fun p hp => hP p (List.mem_append_left _ hp))
    (fun p hp => hP p (List.mem_append_right _ ?_)) ((verify_proofAt t hi).mp hv)
  rwa [hleaf]

/-- **The proof of a leaf verifies where every node on its way up has a neighbour, and, for a hash
function without accidents, only there.** -/
theorem getProof_verifies_iff (sha256 : String → String) (leaves : List String) (i : ℕ)
    (hi : i < leaves.length) :
    ∃ t proof, MerkleTree.new sha256 leaves = .ok t ∧ t.getProof sha256 i = .ok proof ∧
      (Paired leaves.length i → verify sha256 proof = true) ∧
      (Ideal sha256 (t.hashed sha256 i) → verify sha256 proof = true → Paired leaves.length i) := by
  have hne : leaves ≠ [] := List.ne_nil_of_length_pos (by omega)
  have hlen : (leaves.map sha256).length = leaves.length := List.length_map ..
  refine ⟨_, _, new_eq hne, getProof_eq _ (by rwa [hlen]), fun hp => ?_, fun hideal hv => ?_⟩
  · exact verify_of_paired _ _ (by rwa [hlen])
  · rw [← hlen]
    refine paired_of_verify _ _ (fun leaf hleaf => ?_) hideal hv
    obtain ⟨data, -, rfl⟩ := List.mem_map.mp hleaf
    exact hideal.length data

/-- A tree accepts all its proofs exactly if the number of its leaves is a power of two. -/
theorem verify_all_iff (t : MerkleTree) (ht : ∀ leaf ∈ t.leaves, leaf.length = 64)
    (hideal : ∀ i, Ideal sha256 (t.hashed sha256 i)) :
    (∀ i, ∀ hi : i < t.leaves.length, verify sha256 (t.proofAt sha256 i hi) = true) ↔
      ∃ d, t.leaves.length = 2 ^ d := by
  rw [← forall_paired_iff (List.length_pos_iff.mpr t.nonempty)]
  exact forall₂_congr fun i hi =>
    ⟨paired_of_verify t hi ht (hideal i), verify_of_paired t hi⟩

end Completeness

namespace Sample

/-- The digests that three leaves hash to, and those of the pairs hashed above them. -/
def a : String := "ca978112ca1bbdcafac231b39a23dc4da786eff8147c4e72b9807785afee48bb"

def b : String := "3e23e8160039594a33894f6564e1b1348bbd7a0088d42c4acb73eeaed59c009d"

def c : String := "2e7d2c03a9507ae265ecf5b5356885a53393a2029d241394997265a1a25aefc6"

def ab : String := "ab19ec537f09499b26f0f62eed7aefad46ab9f498e06a7328ce8e8ef90da6d86"

def cc : String := "d50c873877f38fcbc56dbe836b9d979912efcb587ed8eea919372d403b5c2bd4"

def root : String := "69b606bf5ab36a173feea06d34d379564dc24fcb4b4302ca4b07a4cf58af5d0c"

def stray : String := "155b494f578496566a681dc80a12509c647b4167614bd6c9a060e4a6b9896a88"

theorem sha256_leaves : ["a", "b", "c"].map sha256 = [a, b, c] := by
  have ha : sha256 "a" = a := sha256_ofList (by decide)
  have hb : sha256 "b" = b := sha256_ofList (by decide)
  have hc : sha256 "c" = c := sha256_ofList (by decide)
  rw [List.map_cons, List.map_cons, List.map_cons, List.map_nil, ha, hb, hc]

/-- The hash of a pair of given texts. -/
theorem sha256_canonical_ofList {cs ds digits : List Char}
    (h : (Sha256.digest (Sha256.utf8
      (if unitsLe (cs.flatMap codeUnitsOf) (ds.flatMap codeUnitsOf) then cs ++ ds
        else ds ++ cs))).flatMap (Sha256.hexDigits 8) = digits) :
    sha256 (canonical (String.ofList cs, String.ofList ds)) = String.ofList digits := by
  rw [canonical, textLe, String.toList_ofList, String.toList_ofList]
  split at h
  · rename_i hle
    rw [if_pos hle]
    exact sha256_append_ofList h
  · rename_i hle
    rw [if_neg hle]
    exact sha256_append_ofList h

/-- The pairs that are hashed, the last of them to the digest that the last leaf's proof leads
to. -/
theorem sha256_pairs : sha256 (canonical (a, b)) = ab ∧ sha256 (canonical (c, c)) = cc ∧
    sha256 (canonical (ab, cc)) = root ∧ sha256 (canonical (ab, c)) = stray :=
  ⟨sha256_canonical_ofList (by decide +kernel), sha256_canonical_ofList (by decide +kernel),
    sha256_canonical_ofList (by decide +kernel), sha256_canonical_ofList (by decide +kernel)⟩

/-- Leaves before their parent, their parent before the root. -/
def rank (node : String) : ℕ :=
  if node ∈ [a, b, c] then 0 else if node ∈ [ab, cc] then 1 else 2

theorem paired_three : Paired 3 0 := by
  refine (paired_iff (by decide)).mpr ⟨by decide, (paired_iff (by decide)).mpr ⟨by decide, ?_⟩⟩
  exact paired_of_le (by decide)

theorem not_paired_three : ¬ Paired 3 2 := fun h =>
  absurd ((paired_iff (by decide)).mp h).1 (by decide)

/-- The hashing of three leaves, and of the last one's proof, meets no accident. -/
theorem ideal_three : Ideal sha256 [(a, b), (c, c), (ab, cc), (ab, c)] where
  length := length_sha256
  injective := fun p hp q hq he => congrArg canonical <| List.inj_on_of_nodup_map
    (f := fun p => sha256 (canonical p)) (by
      simp only [List.map_cons, List.map_nil, sha256_pairs]
      decide) hp hq he
  acyclic := by
    refine ⟨rank, ?_⟩
    simp only [List.forall_mem_cons, hashPair, sha256_pairs]
    decide

theorem hashed_three {t : MerkleTree} (ht : t.leaves = [a, b, c]) :
    t.hashed sha256 2 = [(a, b), (c, c), (ab, cc), (ab, c)] := by
  rw [MerkleTree.hashed, MerkleTree.siblingsOf, MerkleTree.upper, ht]
  simp [built, above, pairUp, pairs, siblings, neighbour, climbed, joined, hashPair,
    sha256_pairs]

theorem leaves_three {t : MerkleTree} (hnew : MerkleTree.new sha256 ["a", "b", "c"] = .ok t) :
    t.leaves = [a, b, c] := by
  obtain rfl := Except.ok.inj ((new_eq (by decide)).symm.trans hnew)
  exact sha256_leaves

/-- Of three leaves, the first one's proof verifies, and the last one's does not. -/
theorem getProof_verifies_three :
    (∃ t proof, MerkleTree.new sha256 ["a", "b", "c"] = .ok t ∧
      t.getProof sha256 0 = .ok proof ∧ verify sha256 proof = true) ∧
    ∃ t proof, MerkleTree.new sha256 ["a", "b", "c"] = .ok t ∧
      t.getProof sha256 2 = .ok proof ∧ ¬ verify sha256 proof = true := by
  constructor
  · obtain ⟨t, proof, hnew, hproof, hpaired, -⟩ :=
      getProof_verifies_iff sha256 ["a", "b", "c"] 0 (by decide)
    exact ⟨t, proof, hnew, hproof, hpaired paired_three⟩
  · obtain ⟨t, proof, hnew, hproof, -, hideal⟩ :=
      getProof_verifies_iff sha256 ["a", "b", "c"] 2 (by decide)
    refine ⟨t, proof, hnew, hproof, fun hv => not_paired_three (hideal ?_ hv)⟩
    rw [hashed_three (leaves_three hnew)]
    exact ideal_three

/-- The climb from the third leaf skips its pair with itself, and ends beside the root. -/
theorem climb_three {t : MerkleTree} (ht : t.leaves = [a, b, c]) :
    top t.leaves (t.upper sha256) = some root ∧
      climb (hashPair sha256) c (t.siblingsOf sha256 2) = stray := by
  rw [MerkleTree.siblingsOf, MerkleTree.upper, ht]
  simp [above, pairUp, pairs, siblings, neighbour, climb, join, hashPair, sha256_pairs]

/-- Of three leaves, the last one's proof is refused. -/
theorem last_of_three_refused : ¬ ∀ (leaves : List String) (i : ℕ), i < leaves.length →
    ∃ t proof, MerkleTree.new sha256 leaves = .ok t ∧ t.getProof sha256 i = .ok proof ∧
      verify sha256 proof = true := by
  intro hall
  obtain ⟨t, proof, hnew, hproof, hv⟩ := hall ["a", "b", "c"] 2 (by decide)
  have ht : t.leaves = [a, b, c] := leaves_three hnew
  have hi : 2 < t.leaves.length := by rw [ht]; decide
  obtain rfl := Except.ok.inj ((getProof_eq t hi).symm.trans hproof)
  obtain ⟨htop, hclimb⟩ := climb_three ht
  have hleaf : t.leaves[2] = c := by simp [ht]
  have he := (verify_proofAt t hi).mp hv
  rw [htop, hleaf, hclimb] at he
  exact absurd (Option.some.inj he) (by decide)

end Sample

end StellarLend.Merkle
