import Mathlib.Algebra.Group.Nat.Defs
import Mathlib.Data.Nat.Pairing
import Mathlib.Order.Bounds.Defs
import VirtualHsm.CS.MerkleTree

/-!
# The Merkle tree of the chain adapter

The Go package builds a tree over record hashes with sorted-pair keccak256, produces inclusion
proofs and checks them. A node is a 32-byte hash there. Here nodes are any linearly ordered type
(`bytes.Compare` is such an order) and `keccak256` is any function of the two halves of its 64-byte
input, since no function from 64 bytes to 32 could be injective.
-/

namespace VirtualHsm.Merkle

open CS

/-- How a Go call fails: with an error value, or in a run-time panic. -/
inductive Fault
  | error (text : String)
  | panic
  deriving DecidableEq, Repr

/-- `xs[i]` of a slice. -/
def index {α : Type*} (xs : List α) (i : Nat) : Except Fault α :=
  match xs[i]? with
  | some x => .ok x
  | none => .error .panic

/-- A record's contribution to the tree. The record id beside it is for logging only. -/
structure Leaf (Node : Type*) where
  hash : Node
  deriving DecidableEq, Repr

structure Tree (Node : Type*) where
  leaves : List Node
  /-- `levels[0]` are the leaves, the last level is the root alone. -/
  levels : List (List Node)
  deriving DecidableEq, Repr

structure Proof (Node : Type*) where
  leaf : Node
  /-- Sibling hashes from the leaf to the root. -/
  path : List Node
  deriving DecidableEq, Repr

variable {Node : Type*} [LinearOrder Node] (keccak256 : Node → Node → Node)

/-- The smaller hash goes first. -/
def hashPair (a b : Node) : Node :=
  if a ≤ b then keccak256 a b else keccak256 b a

/-- The outer loop of `Build`: a level of more than one node gets the level above it appended. -/
def buildLevels (levels : List (List Node)) (current : List Node) : List (List Node) :=
  if h : 1 < current.length then
    have := length_pairUp_lt (hashPair keccak256) h
    let next := pairUp (hashPair keccak256) current
    buildLevels (levels ++ [next]) next
  else levels
termination_by current.length

def build (leaves : List (Leaf Node)) : Except Fault (Tree Node) :=
  if leaves = [] then .error (.error "cannot build merkle tree from zero leaves")
  else
    let leafHashes := leaves.map Leaf.hash
    .ok ⟨leafHashes, buildLevels keccak256 [leafHashes] leafHashes⟩

def Tree.root (t : Tree Node) : Except Fault Node := do
  let top ← index t.levels (t.levels.length - 1)
  index top 0

/-- The index `ProofFor` reads at one level: the neighbour's, or its own where there is none. -/
def siblingIdx (levelNodes : List Node) (idx : Nat) : Nat :=
  let sibling := if idx % 2 = 0 then idx + 1 else idx - 1
  if sibling < levelNodes.length then sibling else idx

/-- The loop of `ProofFor` over all levels but the last. -/
def siblingPath : List (List Node) → Nat → Except Fault (List Node)
  | levelNodes :: above :: rest, idx => do
    let sibling ← index levelNodes (siblingIdx levelNodes idx)
    let path ← siblingPath (above :: rest) (idx / 2)
    return sibling :: path
  | _, _ => .ok []

def Tree.proofFor (t : Tree Node) (leafIndex : Int) : Except Fault (Proof Node) := do
  if leafIndex < 0 ∨ t.leaves.length ≤ leafIndex then
    .error (.error ("leaf index " ++ toString leafIndex ++ " out of range (have " ++
      toString t.leaves.length ++ " leaves)"))
  else
    let path ← siblingPath t.levels leafIndex.toNat
    let leaf ← index t.leaves leafIndex.toNat
    return ⟨leaf, path⟩

def verify (proof : Proof Node) (root : Node) : Bool :=
  proof.path.foldl (hashPair keccak256) proof.leaf = root

/-! ### Hashing a pair -/

theorem hashPair_comm (a b : Node) : hashPair keccak256 a b = hashPair keccak256 b a := by
  unfold hashPair
  rcases lt_trichotomy a b with h | rfl | h
  · rw [if_pos h.le, if_neg h.not_ge]
  · rfl
  · rw [if_neg h.not_ge, if_pos h.le]

theorem pair_eq_of_hashPair_eq {keccak256 : Node → Node → Node}
    (hinj : Function.Injective2 keccak256) (a b c d : Node)
    (h : hashPair keccak256 a b = hashPair keccak256 c d) : a = c ∧ b = d ∨ a = d ∧ b = c := by
  unfold hashPair at h
  split_ifs at h
  · exact .inl (hinj h)
  · exact .inr (hinj h)
  · exact .inr (hinj h).symm
  · exact .inl (hinj h).symm

/-! ### The tree that is built -/

theorem buildLevels_eq (levels : List (List Node)) (current : List Node) :
    buildLevels keccak256 (levels ++ [current]) current =
      levels ++ treeLevels (hashPair keccak256) current := by
  induction current using treeLevels_induction (hashPair keccak256) generalizing levels with
  | last current h =>
    rw [buildLevels, dif_neg (Nat.not_lt.mpr h), treeLevels_of_le _ h]
  | step current h ih =>
    rw [buildLevels, dif_pos h, treeLevels_of_lt _ h, ih, List.append_assoc,
      List.singleton_append]

theorem build_eq {leaves : List (Leaf Node)} (hne : leaves ≠ []) :
    build keccak256 leaves = .ok ⟨leaves.map Leaf.hash,
      treeLevels (hashPair keccak256) (leaves.map Leaf.hash)⟩ := by
  rw [build, if_neg hne]
  exact congrArg (fun levels => Except.ok (Tree.mk _ levels)) (buildLevels_eq keccak256 [] _)

theorem index_of_getElem? {α : Type*} {xs : List α} {i : Nat} {x : α} (h : xs[i]? = some x) :
    index xs i = .ok x := by
  rw [index, h]

omit [LinearOrder Node] in
theorem Tree.root_eq {t : Tree Node} {top : Node} (h : t.levels.getLast? = some [top]) :
    t.root = .ok top := by
  rw [List.getLast?_eq_getElem?] at h
  rw [Tree.root, index_of_getElem? h]
  rfl

/-- Combining a node with what `ProofFor` takes for its sibling gives the node above. -/
theorem exists_sibling {current : List Node} {idx : Nat} (hidx : idx < current.length) :
    ∃ sibling, index current (siblingIdx current idx) = .ok sibling ∧
      (pairUp (hashPair keccak256) current)[idx / 2]? =
        some (hashPair keccak256 (current.get ⟨idx, hidx⟩) sibling) := by
  have hself : current[idx]? = some (current.get ⟨idx, hidx⟩) := List.getElem?_eq_getElem hidx
  rw [getElem?_pairUp]
  rcases Nat.mod_two_eq_zero_or_one idx with hpar | hpar
  · have hdouble : 2 * (idx / 2) = idx := by omega
    rw [hdouble, hself]
    by_cases hnext : idx + 1 < current.length
    · have hsib := List.getElem?_eq_getElem hnext
      rw [hsib]
      refine ⟨_, index_of_getElem? (i := siblingIdx current idx) ?_, rfl⟩
      rw [siblingIdx, if_pos hpar, if_pos hnext, hsib]
      rfl
    · -- The odd one out is paired with itself.
      have hsib : current[idx + 1]? = none := List.getElem?_eq_none (Nat.not_lt.mp hnext)
      rw [hsib]
      refine ⟨_, index_of_getElem? (i := siblingIdx current idx) ?_, rfl⟩
      rw [siblingIdx, if_pos hpar, if_neg hnext, hself]
      rfl
  · -- A right child: the tree puts its left neighbour first, the proof combines in the other order.
    have hdouble : 2 * (idx / 2) = idx - 1 := by omega
    have hprev : idx - 1 < current.length := by omega
    have hodd : ¬ idx % 2 = 0 := by omega
    have hsib := List.getElem?_eq_getElem hprev
    rw [hdouble, Nat.sub_add_cancel (by omega), hself, hsib]
    refine ⟨_, index_of_getElem? (i := siblingIdx current idx) ?_,
      congrArg some (hashPair_comm keccak256 _ _)⟩
    rw [siblingIdx, if_neg hodd, if_pos hprev, hsib]

/-- The path from a position climbs to the top, with one sibling for each level below it. -/
theorem exists_siblingPath {current : List Node} {idx : Nat} {top : Node}
    (htop : (treeLevels (hashPair keccak256) current).getLast? = some [top])
    (hidx : idx < current.length) :
    ∃ path, siblingPath (treeLevels (hashPair keccak256) current) idx = .ok path ∧
      path.length + 1 = (treeLevels (hashPair keccak256) current).length ∧
      path.foldl (hashPair keccak256) (current.get ⟨idx, hidx⟩) = top := by
  induction current using treeLevels_induction (hashPair keccak256) generalizing idx with
  | last current h =>
    rw [treeLevels_of_le _ h] at htop ⊢
    obtain rfl : current = [top] := Option.some.inj htop
    obtain rfl : idx = 0 := Nat.lt_one_iff.mp hidx
    exact ⟨[], rfl, rfl, rfl⟩
  | step current h ih =>
    obtain ⟨above, hcons⟩ := exists_treeLevels_eq_cons (hashPair keccak256)
      (pairUp (hashPair keccak256) current)
    obtain ⟨sibling, hsib, hparent⟩ := exists_sibling keccak256 hidx
    obtain ⟨hhalf, hnode⟩ := List.getElem?_eq_some_iff.mp hparent
    rw [getLast?_treeLevels_of_lt _ h] at htop
    rw [treeLevels_of_lt _ h]
    -- The sibling on this level, then the path of the node above the two.
    obtain ⟨path, hpath, hlength, hclimb⟩ := ih htop hhalf
    refine ⟨sibling :: path, ?_, congrArg (· + 1) hlength, ?_⟩
    · rw [hcons] at hpath ⊢
      rw [siblingPath, hsib, hpath]
      rfl
    · rw [List.foldl_cons, ← hnode]
      exact hclimb

/-- The root that `Build` gives a list of leaves is the top of the levels over their hashes. -/
theorem top_of_build {leaves : List (Leaf Node)} {tree : Tree Node} {root : Node}
    (hbuild : build keccak256 leaves = .ok tree) (hroot : tree.root = .ok root) :
    (treeLevels (hashPair keccak256) (leaves.map Leaf.hash)).getLast? = some [root] := by
  have hne : leaves ≠ [] := by
    rintro rfl
    cases hbuild
  rw [build_eq keccak256 hne] at hbuild
  cases hbuild
  have hhashes : leaves.map Leaf.hash ≠ [] := mt List.map_eq_nil_iff.mp hne
  obtain ⟨top, htop⟩ := getLast_treeLevels (hashPair keccak256) hhashes
  obtain rfl : top = root := Except.ok.inj ((Tree.root_eq htop).symm.trans hroot)
  exact htop

/-! ### Completeness -/

/-- `Build` returns for every non-empty list a tree with one node at the top, and every index in
range has a proof for its leaf that verifies against it; the proof has one sibling for each level
below the top, the least number of doublings that reaches the number of leaves. -/
theorem build_complete (leaves : List (Leaf Node)) (hne : leaves ≠ []) :
    ∃ tree root, build keccak256 leaves = .ok tree ∧ tree.levels.getLast? = some [root] ∧
      tree.root = .ok root ∧ ∀ i (hi : i < leaves.length), ∃ proof, tree.proofFor i = .ok proof ∧
        proof.leaf = (leaves.get ⟨i, hi⟩).hash ∧
        proof.path.length = tree.levels.length - 1 ∧
        IsLeast {k | leaves.length ≤ 2 ^ k} proof.path.length ∧
        verify keccak256 proof root = true := by
  have hhashes : leaves.map Leaf.hash ≠ [] := mt List.map_eq_nil_iff.mp hne
  obtain ⟨top, htop⟩ := getLast_treeLevels (hashPair keccak256) hhashes
  refine ⟨_, top, build_eq keccak256 hne, htop, Tree.root_eq htop, fun i hi => ?_⟩
  have hidx : i < (leaves.map Leaf.hash).length := (List.length_map _).symm ▸ hi
  obtain ⟨path, hpath, hlength, hclimb⟩ := exists_siblingPath keccak256 htop hidx
  have hclog : path.length = Nat.clog 2 leaves.length := by
    rw [length_treeLevels, List.length_map] at hlength
    exact Nat.succ.inj hlength
  refine ⟨⟨(leaves.map Leaf.hash).get ⟨i, hidx⟩, path⟩, ?_, ?_, ?_, ?_, decide_eq_true hclimb⟩
  · -- The index is a signed number in the source.
    have hrange : ¬ ((i : Int) < 0 ∨ ((leaves.map Leaf.hash).length : Int) ≤ i) := by omega
    rw [Tree.proofFor, if_neg hrange, Int.toNat_natCast, hpath,
      index_of_getElem? (List.getElem?_eq_getElem hidx)]
    rfl
  · simp
  · exact Nat.eq_sub_of_add_eq hlength
  · rw [hclog]
    exact ⟨Nat.le_pow_clog Nat.one_lt_two _,
      fun k hk => (Nat.clog_le_iff_le_pow Nat.one_lt_two).mpr hk⟩

/-- The odd leaf of five under a pairing function of the naturals. -/
theorem build_complete_five : ∃ tree root proof,
    build Nat.pair [⟨7⟩, ⟨3⟩, ⟨7⟩, ⟨0⟩, ⟨5⟩] = .ok tree ∧ tree.root = .ok root ∧
      tree.proofFor 4 = .ok proof ∧ proof.leaf = 5 ∧ verify Nat.pair proof root = true := by
  obtain ⟨tree, root, hbuild, -, hroot, hproofs⟩ :=
    build_complete Nat.pair [⟨7⟩, ⟨3⟩, ⟨7⟩, ⟨0⟩, ⟨5⟩] (List.cons_ne_nil _ _)
  obtain ⟨proof, hproof, hleaf, -, -, hverify⟩ := hproofs 4 (by decide)
  exact ⟨tree, root, proof, hbuild, hroot, hproof, hleaf, hverify⟩

/-! ### Soundness -/

/-- A proof that verifies against the root of a list of leaves is for one of these leaves. -/
def InclusionSound (leaves : List (Leaf Node)) (proof : Proof Node) : Prop :=
  ∀ tree root, build keccak256 leaves = .ok tree → tree.root = .ok root →
    verify keccak256 proof root = true → ∃ l ∈ leaves, l.hash = proof.leaf

theorem build_oneTwo : build Nat.pair [⟨1⟩, ⟨2⟩] = .ok ⟨[1, 2], [[1, 2], [Nat.pair 1 2]]⟩ := by
  simp [build, buildLevels, pairUp, hashPair]

/-- **The Merkle root binds the batch.** Two lists of leaves of one length with the same root have
the same hashes, and are permutations of each other if their number is a power of two. -/
theorem root_binds {keccak256 : Node → Node → Node} (hinj : Function.Injective2 keccak256)
    {leaves leaves' : List (Leaf Node)} (hlength : leaves.length = leaves'.length)
    {tree tree' : Tree Node} {root : Node} (hbuild : build keccak256 leaves = .ok tree)
    (hbuild' : build keccak256 leaves' = .ok tree') (hroot : tree.root = .ok root)
    (hroot' : tree'.root = .ok root) :
    {x | x ∈ leaves.map Leaf.hash} = {x | x ∈ leaves'.map Leaf.hash} ∧
      ∀ k, leaves.length = 2 ^ k → (leaves.map Leaf.hash).Perm (leaves'.map Leaf.hash) := by
  have hpair := pair_eq_of_hashPair_eq hinj
  have htop := top_of_build keccak256 hbuild hroot
  have htop' := top_of_build keccak256 hbuild' hroot'
  have hmap : (leaves.map Leaf.hash).length = (leaves'.map Leaf.hash).length := by simp [hlength]
  constructor
  · ext x
    exact ⟨mem_of_top_eq hpair hmap htop htop', mem_of_top_eq hpair hmap.symm htop' htop⟩
  · intro k hk
    exact perm_of_top_eq hpair (by simpa using hk) (by simpa [hlength] using hk) htop htop'

theorem root_binds_oneTwo : ([1, 2] : List Nat).Perm [2, 1] := by
  have hinj : Function.Injective2 Nat.pair := fun _ _ _ _ => Nat.pair_eq_pair.mp
  have hlength : ([⟨1⟩, ⟨2⟩] : List (Leaf Nat)).length = ([⟨2⟩, ⟨1⟩] : List (Leaf Nat)).length := rfl
  have hswapped : build Nat.pair [⟨2⟩, ⟨1⟩] = .ok ⟨[2, 1], [[2, 1], [Nat.pair 1 2]]⟩ := by
    simp [build, buildLevels, pairUp, hashPair]
  exact (root_binds hinj hlength build_oneTwo hswapped rfl rfl).2 1 rfl

end VirtualHsm.Merkle
