/-
  Tundra.Inclusion

  What an accepted Merkle proof means.  The root of a header is the root over
  the ids of a block (`Merkle.root`): the honest branch of every position is
  accepted, and a branch as long as the tree is deep is accepted only for the
  tree's own leaf and siblings.
-/

import Tundra.Esplora
import Tundra.Lib.Merkle
import Tundra.Fixture.Chain

namespace Tundra
namespace Esplora

open Checked Merkle

variable {State Wallet : Type} {env : ChainEnv State Wallet}

theorem txid_eq_of_bytes {a b : Txid} (h : a.bytes = b.bytes) : a = b := by
  cases a
  cases b
  cases h
  rfl

/-- Two nodes, hashed; a node has 32 bytes, as an id has. -/
def pairHash (env : ChainEnv State Wallet) (hsize : ∀ bytes, (env.sha256d bytes).length = 32)
    (left right : Txid) : Txid :=
  ⟨env.sha256d (left.bytes ++ right.bytes), hsize _⟩

theorem foldBranch_eq (hsize : ∀ bytes, (env.sha256d bytes).length = 32) (txid : Txid) (pos : Nat)
    (merkle : List Txid) :
    foldBranch env txid.bytes pos merkle =
      ((climb (pairHash env hsize) txid pos merkle).1.bytes,
        (climb (pairHash env hsize) txid pos merkle).2) := by
  induction merkle generalizing txid pos with
  | nil => rfl
  | cons sibling rest ih =>
      rw [foldBranch, climb]
      by_cases heven : pos % 2 = 0
      · simp only [heven, if_true]
        exact ih (pairHash env hsize txid sibling) (pos / 2)
      · simp only [heven, if_false]
        exact ih (pairHash env hsize sibling txid) (pos / 2)

/-- The check of a proof, in terms of the climb. -/
theorem verifyProof_iff (hsize : ∀ bytes, (env.sha256d bytes).length = 32) {txid : Txid}
    {proof : Proof} {header : Header} {height : Nat} :
    verifyProof env txid proof header height = .ok () ↔
      proof.blockHeight = height ∧ proof.merkle.length ≤ 32 ∧
        (climb (pairHash env hsize) txid proof.pos proof.merkle).2 = 0 ∧
        (climb (pairHash env hsize) txid proof.pos proof.merkle).1.bytes = header.merkleRoot := by
  rw [verifyProof, foldBranch_eq hsize]
  simp only [bind_eq_ok, require_eq_ok, exists_unit, not_or, not_not, Nat.not_lt]
  exact and_assoc

/-- No pair hashed for a proof hashes like another pair of the tree. -/
def Distinct (env : ChainEnv State Wallet) (hashed tree : List (Txid × Txid)) : Prop :=
  ∀ x ∈ hashed, ∀ y ∈ tree,
    env.sha256d (x.1.bytes ++ x.2.bytes) = env.sha256d (y.1.bytes ++ y.2.bytes) → x = y

/-- The proofs that a block's header accepts.  Double SHA-256 is assumed
    injective only on the pairs that are hashed: to 32 bytes no function is
    injective on all pairs. -/
theorem merkle_proof_exact (hsize : ∀ bytes, (env.sha256d bytes).length = 32) {leaves : List Txid}
    (hne : leaves ≠ []) (hdepth : depth leaves.length ≤ 32) {header : Header}
    (hroot : (root (pairHash env hsize) leaves).map Txid.bytes = some header.merkleRoot)
    (height : Nat) :
    ∃ tree, completed leaves = some tree ∧ leaves <+: tree.leaves ∧
      tree.leaves.length = 2 ^ depth leaves.length ∧
      (∀ pos txid, leaves[pos]? = some txid →
        verifyProof env txid ⟨height, tree.siblings (pairHash env hsize) pos, pos⟩ header height =
          .ok ()) ∧
      (∀ txid pos merkle, merkle.length = depth leaves.length →
        Distinct env (climbed (pairHash env hsize) txid pos merkle)
          (tree.pairs (pairHash env hsize)) →
        verifyProof env txid ⟨height, merkle, pos⟩ header height = .ok () →
        tree.leaves[pos]? = some txid ∧ merkle = tree.siblings (pairHash env hsize) pos) ∧
      ∀ txid proof header' height', 2 ^ proof.merkle.length ≤ proof.pos →
        verifyProof env txid proof header' height' ≠ .ok () := by
  obtain ⟨tree, htree⟩ : ∃ tree, completed leaves = some tree :=
    root_eq_some (List.map_eq_nil_iff.not.mpr hne)
  have hperfect := perfect_completed htree
  have hleaves := leaves_completed htree
  have hhash : (tree.hash (pairHash env hsize)).bytes = header.merkleRoot := by
    rw [root_eq_hash, htree] at hroot
    exact Option.some.inj hroot
  refine ⟨tree, htree, hleaves, hperfect.length_leaves, fun pos txid htxid => ?_,
    fun txid pos merkle hlength hdistinct h => ?_, fun txid proof header' height' hpos h => ?_⟩
  · have hleaf : tree.leaves[pos]? = some txid := by
      obtain ⟨extra, hextra⟩ := hleaves
      rw [← hextra, List.getElem?_append_left (List.getElem?_eq_some_iff.mp htxid).1, htxid]
    have hclimb : climb (pairHash env hsize) txid pos (tree.siblings (pairHash env hsize) pos) =
        (tree.hash (pairHash env hsize), 0) := by
      have hclimb := @climb_siblings _ (pairHash env hsize) _ _ hperfect _ _ hleaf 0
      rwa [Nat.mul_zero, Nat.add_zero] at hclimb
    rw [verifyProof_iff hsize, hclimb]
    exact ⟨rfl, (hperfect.length_siblings pos).symm ▸ hdepth, rfl, hhash⟩
  · obtain ⟨-, -, hzero, hreached⟩ := (verifyProof_iff hsize).mp h
    have hclimb : climb (pairHash env hsize) txid pos merkle =
        (tree.hash (pairHash env hsize), 0) := by
      refine Prod.ext ?_ hzero
      exact txid_eq_of_bytes (hreached.trans hhash.symm)
    obtain ⟨p, hp, hleaf, hsiblings⟩ := siblings_of_climb hperfect hlength hclimb
      fun x hx y hy heq => hdistinct x hx y hy (congrArg Txid.bytes heq)
    rw [Nat.mul_zero, Nat.add_zero] at hp
    exact ⟨hp ▸ hleaf, hp ▸ hsiblings⟩
  · obtain ⟨-, -, hzero, -⟩ := (verifyProof_iff hsize).mp h
    rw [climb_pos] at hzero
    exact absurd (Nat.div_eq_zero_iff_lt (Nat.two_pow_pos _) |>.mp hzero) (by omega)

/-! ## A block of three -/

section
open Fixture

def threeLeaves : List Txid :=
  [txidOfBytes fundingTxid, txidOfBytes paymentTxid, txidOfBytes selfTxid]

/-- The pairs of the three leaves, their last one with itself, and the root. -/
def pairDigests : List (Bytes × Bytes) :=
  let first := bigEndian 32 0x04df660dca16c617a92867d0f54806b8c3db5d1293aa5fc47c0c73ec3d8d02e1
  let last := bigEndian 32 0x3866be485a734214ef0b3de5264971f4b2a6dedc54a87630f597f6110635fc24
  [(fundingTxid ++ paymentTxid, first), (selfTxid ++ selfTxid, last), (first ++ last,
    bigEndian 32 0x1c847d862d3c22389c61577e06f1367a9aa58db6e18c36edc200f902daab2058)]

def pairDigest (bytes : Bytes) : Bytes :=
  (txidOfBytes ((pairDigests.lookup bytes).getD [])).bytes

/-- The fixture's environment with double SHA-256 of the pairs. -/
def threeEnv : ChainEnv TestWallet TestWallet := { chainEnv with sha256d := pairDigest }

def threeHeader : Header where
  version := 4
  prevBlockhash := genesisHash .regtest
  merkleRoot := bigEndian 32 0x1c847d862d3c22389c61577e06f1367a9aa58db6e18c36edc200f902daab2058
  time := 0
  bits := 0x207fffff
  nonce := 0

theorem threeEnv_size (bytes : Bytes) : (threeEnv.sha256d bytes).length = 32 := Txid.size _

def threeTree : Merkle.Tree Txid :=
  .node (.node (.leaf (txidOfBytes fundingTxid)) (.leaf (txidOfBytes paymentTxid)))
    (.node (.leaf (txidOfBytes selfTxid)) (.leaf (txidOfBytes selfTxid)))

theorem completed_three : completed threeLeaves = some threeTree := by
  simp [completed, threeLeaves, threeTree, root, level]

theorem depth_three : depth threeLeaves.length = 2 := by
  show depth 3 = 2
  simp [depth]

theorem root_three :
    (root (pairHash threeEnv threeEnv_size) threeLeaves).map Txid.bytes =
      some threeHeader.merkleRoot := by
  rw [root_eq_hash, completed_three]
  have h : pairDigest (pairDigest (fundingTxid ++ paymentTxid) ++ pairDigest (selfTxid ++ selfTxid)) =
      threeHeader.merkleRoot := by decide
  exact congrArg some h

/-- The branch of the place that the last leaf has once more. -/
def duplicateBranch : List Txid :=
  [txidOfBytes selfTxid, txidOfBytes (pairDigest (fundingTxid ++ paymentTxid))]

theorem distinct_three :
    Distinct threeEnv
      (climbed (pairHash threeEnv threeEnv_size) (txidOfBytes selfTxid) 3 duplicateBranch)
      (threeTree.pairs (pairHash threeEnv threeEnv_size)) := by
  have h : ∀ x ∈ climbed (fun l r : Txid => txidOfBytes (pairDigest (l.bytes ++ r.bytes)))
      (txidOfBytes selfTxid) 3 duplicateBranch,
      ∀ y ∈ threeTree.pairs (fun l r : Txid => txidOfBytes (pairDigest (l.bytes ++ r.bytes))),
      pairDigest (x.1.bytes ++ x.2.bytes) = pairDigest (y.1.bytes ++ y.2.bytes) → x = y := by
    decide
  have hpair : pairHash threeEnv threeEnv_size =
      fun l r : Txid => txidOfBytes (pairDigest (l.bytes ++ r.bytes)) := by
    funext l r
    exact txid_eq_of_bytes (List.take_left' (threeEnv_size _)).symm
  rw [hpair]
  exact h

theorem accepted_three :
    verifyProof threeEnv (txidOfBytes selfTxid) ⟨7, duplicateBranch, 3⟩ threeHeader 7 = .ok () := by
  decide

theorem merkle_proof_exact_three :
    (∀ pos txid, threeLeaves[pos]? = some txid →
      ∃ merkle, verifyProof threeEnv txid ⟨7, merkle, pos⟩ threeHeader 7 = .ok ()) ∧
    threeTree.leaves[3]? = some (txidOfBytes selfTxid) := by
  obtain ⟨tree, htree, -, -, hhonest, hsound, -⟩ := merkle_proof_exact threeEnv_size
    (show threeLeaves ≠ [] from List.cons_ne_nil _ _) (by rw [depth_three]; decide) root_three 7
  refine ⟨fun pos txid h => ⟨_, hhonest pos txid h⟩, ?_⟩
  obtain rfl : threeTree = tree := Option.some.inj (completed_three.symm.trans htree)
  refine (hsound (txidOfBytes selfTxid) 3 duplicateBranch depth_three.symm ?_ ?_).1
  · exact distinct_three
  · exact accepted_three

end

end Esplora
end Tundra
