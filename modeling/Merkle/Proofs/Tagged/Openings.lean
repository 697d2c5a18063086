import Merkle.Hash.Fnv
import Merkle.Proofs.Opening.Soundness
import Merkle.Proofs.Tagged.Messages

/-! Under a tagged hasher, whatever path is accepted opens a leaf of the tree at its own index. -/

namespace Merkle

variable {size : Nat} {hash : Bytes → Vector UInt8 size} {tree : Tree (Hasher.tagged hash)}
  {encoded messages : List Bytes}

/--
A climb that crosses some levels at the top of the tree starts at the slot below them.

The digests of all messages are faithful, so the climb has no collision to leave the tree by.
-/
theorem Faithful.climb_agrees (faithful : Faithful hash messages) (commits : tree.Commits encoded)
    (stored : ∀ message ∈ tree.messages encoded, message ∈ messages)
    {digest : Vector UInt8 size} {place : Nat} {path : List (Vector UInt8 size)}
    (followed : ∀ pair ∈ climbPairs (Hasher.tagged hash) digest place path,
      Hasher.nodeMessage pair.1 pair.2 ∈ messages)
    (shallow : path.length ≤ tree.depth) (inside : place < levelWidth path.length)
    (reaches : climb (Hasher.tagged hash) digest place path = tree.root) :
    digest = tree.node (levelWidth path.length + place) ∧
      path = (siblingSlots (levelWidth path.length + place)).map tree.node := by
  -- The path is followed from the slot that it starts at, where the tree can be compared.
  have level := log2_levelWidth_add inside
  have wide := levelWidth_le_levelWidth shallow
  rw [← commits.perfect.capacity_eq] at wide
  rw [← climb_levelWidth_add] at reaches
  rcases climb_root_binding commits.perfect.merged (by omega) (by omega) level.symm reaches with
    agree | ⟨height, pair, crossed, found, differ, same⟩
  · exact agree
  · -- Both pairs are hashed, so their merges tell them apart.
    rw [climbPairs_levelWidth_add] at found
    have parent : 1 ≤ (levelWidth path.length + place) >>> (height + 1) :=
      one_le_shiftRight (by omega) crossed
    have above := shiftRight_succ_le height (levelWidth path.length + place)
    have hashed := stored _ (Tree.nodeMessage_mem_messages encoded parent
      (Nat.lt_of_le_of_lt above (by omega)))
    exact absurd (faithful.merge_inj hashed (followed pair (List.mem_of_getElem? found)) same)
      differ

/-- A path to the root is not shorter than the tree is deep. -/
theorem Faithful.depth_le_length (faithful : Faithful hash messages)
    (commits : tree.Commits encoded)
    (stored : ∀ message ∈ tree.messages encoded, message ∈ messages) {bytes : Bytes}
    {index : Nat} {path : List (Vector UInt8 size)}
    (followed : ∀ message ∈ climbMessages hash bytes index path, message ∈ messages)
    (inside : index < levelWidth path.length)
    (reaches : climb (Hasher.tagged hash) (hash (Hasher.leafMessage bytes)) index path =
      tree.root) : tree.depth ≤ path.length := by
  apply Nat.le_of_not_lt
  intro shorter
  -- The path would start at a slot above the leaves, which holds a merge.
  obtain ⟨start, _⟩ := faithful.climb_agrees commits stored
    (fun pair member => followed _ (nodeMessage_mem_climbMessages member)) (by omega) inside reaches
  have above := levelWidth_le_levelWidth shorter
  rw [← commits.perfect.capacity_eq, levelWidth_succ] at above
  have wide := levelWidth_pos path.length
  have named : 1 ≤ levelWidth path.length + index := by omega
  rw [commits.perfect.merged _ named (by omega)] at start
  -- A leaf with the digest of a merge would confuse their tags.
  have leaf := followed _ (leafMessage_mem_climbMessages bytes index path)
  have hashed := stored _ (Tree.nodeMessage_mem_messages encoded named (by omega))
  exact faithful.leaf_ne_node leaf hashed start

/-- A path to the root is not longer than the tree is deep. -/
theorem Faithful.length_le_depth (faithful : Faithful hash messages)
    (commits : tree.Commits encoded)
    (stored : ∀ message ∈ tree.messages encoded, message ∈ messages) {digest : Vector UInt8 size}
    {index : Nat} {path : List (Vector UInt8 size)}
    (followed : ∀ pair ∈ climbPairs (Hasher.tagged hash) digest index path,
      Hasher.nodeMessage pair.1 pair.2 ∈ messages)
    (inside : index < levelWidth path.length)
    (reaches : climb (Hasher.tagged hash) digest index path = tree.root) :
    path.length ≤ tree.depth := by
  apply Nat.le_of_not_lt
  intro longer
  -- The upper part of the path has the right length, and starts at a leaf slot.
  let low := path.take (path.length - tree.depth)
  let high := path.drop (path.length - tree.depth)
  have split : low ++ high = path := List.take_append_drop _ _
  have lowLength : low.length = path.length - tree.depth := by
    simp only [low, List.length_take]
    omega
  have highLength : high.length = tree.depth := by
    simp only [high, List.length_drop]
    omega
  rw [← split, climb_append] at reaches
  rw [← split, climbPairs_append] at followed
  have narrow : index >>> low.length < levelWidth high.length := by
    apply shiftRight_lt_levelWidth
    rw [lowLength, highLength, Nat.sub_add_cancel (by omega)]
    exact inside
  obtain ⟨start, _⟩ := faithful.climb_agrees commits stored
    (fun pair member => followed pair (List.mem_append_right _ member)) (by omega) narrow reaches
  -- The lower part ends with a merge, whose digest would be in that slot.
  have nonempty : low ≠ [] := List.ne_nil_of_length_pos (by omega)
  obtain ⟨pair, member, last⟩ := exists_climb_eq_merge (Hasher.tagged hash) digest index nonempty
  have hashed := followed pair (List.mem_append_left _ member)
  rw [highLength, ← commits.perfect.capacity_eq] at start narrow
  rcases commits.leaf_or_vacant narrow with ⟨other, _, leafHashed, held⟩ | ⟨_, held⟩
  · exact faithful.leaf_ne_node (stored _ leafHashed) hashed
      (held.symm.trans (start.symm.trans last))
  · exact faithful.ne_zero _ hashed (last.symm.trans (start.trans held))

/-- A path to the root has the depth of the tree and opens a leaf with the bytes it starts from. -/
theorem Faithful.opening_binding (faithful : Faithful hash messages)
    (commits : tree.Commits encoded)
    (stored : ∀ message ∈ tree.messages encoded, message ∈ messages) {bytes : Bytes}
    {index : Nat} {path : List (Vector UInt8 size)}
    (followed : ∀ message ∈ climbMessages hash bytes index path, message ∈ messages)
    (inside : index < levelWidth path.length)
    (reaches : climb (Hasher.tagged hash) (hash (Hasher.leafMessage bytes)) index path =
      tree.root) :
    path.length = tree.depth ∧ encoded[index]? = some bytes ∧ path = tree.siblingPath index := by
  have merged : ∀ pair ∈
      climbPairs (Hasher.tagged hash) (hash (Hasher.leafMessage bytes)) index path,
      Hasher.nodeMessage pair.1 pair.2 ∈ messages :=
    fun pair member => followed _ (nodeMessage_mem_climbMessages member)
  have length : path.length = tree.depth := Nat.le_antisymm
    (faithful.length_le_depth commits stored merged inside reaches)
    (faithful.depth_le_length commits stored followed inside reaches)
  -- The path starts at a leaf slot, and the digest in it tells the leaf.
  obtain ⟨start, beside⟩ :=
    faithful.climb_agrees commits stored merged (Nat.le_of_eq length) inside reaches
  rw [length, ← commits.perfect.capacity_eq] at start beside inside
  refine ⟨length, ?_, beside⟩
  have leaf := followed _ (leafMessage_mem_climbMessages bytes index path)
  rcases commits.leaf_or_vacant inside with ⟨other, found, hashed, held⟩ | ⟨_, held⟩
  · have same := faithful.inj _ leaf _ (stored _ hashed) (start.trans held)
    rw [found, Hasher.leafMessage_inj.mp same]
  · -- An unused slot holds the zero digest, which no leaf has.
    exact absurd (start.trans held) (faithful.ne_zero _ leaf)

/--
Under a tagged hasher, a leaf is accepted without knowing the depth only if the tree has its bytes
at that index and the path is the tree's own, unless the hashed messages are compromised.
-/
theorem tagged_opening_binding {encoding : LeafEncoding α} {padding : Padding} {leaves : List α}
    (built : Returns (Tree.build (Hasher.tagged hash) encoding padding leaves) tree)
    {other : LeafEncoding β} {index : UInt64} {path : List (Vector UInt8 size)} {leaf : β}
    (accepted : Returns (verify (Hasher.tagged hash) other tree.root index path leaf) true) :
    ∃ encoded bytes, leaves.mapM encoding = .ok encoded ∧ other leaf = .ok bytes ∧
      ((path.length = tree.depth ∧ index.toNat < tree.leafCount ∧
          encoded[index.toNat]? = some bytes ∧
          (tree.openAt index.toNat).value = .ok ⟨index, path⟩) ∨
        Compromised hash
          (tree.messages encoded ++ climbMessages hash bytes index.toNat path)) := by
  obtain ⟨encoded, complete, commits, _⟩ := Tree.commits_of_build built
  obtain ⟨bytes, written, _, verdict⟩ := returns_verify_true_iff.mp accepted
  obtain ⟨_, inside, reaches⟩ := verifyDigest_value_eq_true_iff.mp verdict
  refine ⟨encoded, bytes, complete, written, ?_⟩
  -- The messages of the tree and those of the path are judged together.
  rcases faithful_or_compromised hash
    (tree.messages encoded ++ climbMessages hash bytes index.toNat path) with
    faithful | compromised
  · left
    obtain ⟨length, found, beside⟩ := faithful.opening_binding commits
      (fun _ member => List.mem_append_left _ member)
      (fun _ member => List.mem_append_right _ member) inside reaches
    -- The bytes have a place among the encoded leaves, so the index has a leaf.
    have held : index.toNat < tree.leafCount := by
      rw [commits.leafCount_eq]
      exact (List.getElem?_eq_some_iff.mp found).1
    refine ⟨length, held, found, ?_⟩
    rw [Tree.openAt_value, if_pos held, UInt64.ofNat_toNat, ← beside]
  · exact .inr compromised

/-- The last of three leaves is accepted under its own path. -/
theorem tagged_opening_binding_last :
    let leaves : List Bytes := [[1], [2], [3]]
    let hasher := Hasher.tagged Hash.Fnv.hash
    let tree := Tree.arrange hasher 4 (leaves.map hasher.leaf)
    Returns (Tree.build hasher .raw .zeros leaves) tree ∧
      Returns (verify hasher .raw tree.root 2 (tree.siblingPath 2) [3]) true ∧
      ((tree.openAt 2).value = .ok ⟨2, tree.siblingPath 2⟩ ∨
        Compromised Hash.Fnv.hash
          (tree.messages leaves ++ climbMessages Hash.Fnv.hash [3] 2 (tree.siblingPath 2))) := by
  intro leaves hasher tree
  have built : Returns (Tree.build hasher .raw .zeros leaves) tree := by decide +kernel
  have accepted :
      Returns (verify hasher .raw tree.root 2 (tree.siblingPath 2) [3]) true := by decide +kernel
  obtain ⟨encoded, bytes, complete, written, bound⟩ := tagged_opening_binding built accepted
  -- Each leaf is its own encoding, so the bytes are those of the leaves.
  cases complete
  cases written
  exact ⟨built, accepted, bound.imp (fun held => held.2.2.2) id⟩

end Merkle
