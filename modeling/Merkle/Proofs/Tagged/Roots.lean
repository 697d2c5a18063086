import Merkle.Hash.Fnv
import Merkle.Proofs.Tagged.Messages

/-! Under a tagged hasher, trees with one root were built over the same leaves. -/

namespace Merkle

variable {size : Nat} {hash : Bytes → Vector UInt8 size}
  {tree opposite : Tree (Hasher.tagged hash)} {encoded others messages : List Bytes}

/-- Trees with one root hold the same digests in all slots that the smaller tree has. -/
theorem Faithful.slots_agree (faithful : Faithful hash messages) (commits : tree.Commits encoded)
    (commitsOther : opposite.Commits others)
    (stored : ∀ message ∈ tree.messages encoded, message ∈ messages)
    (storedOther : ∀ message ∈ opposite.messages others, message ∈ messages)
    (smaller : tree.capacity ≤ opposite.capacity) (root : tree.root = opposite.root) {slot : Nat}
    (named : 1 ≤ slot) (inside : slot < 2 * tree.capacity) :
    tree.node slot = opposite.node slot := by
  have mergedOther : ParentsMerge (Hasher.tagged hash) opposite.node tree.capacity :=
    fun parent first last =>
      commitsOther.perfect.merged parent first (Nat.lt_of_lt_of_le last smaller)
  rcases nodes_binding commits.perfect.merged mergedOther root with agree | collide
  · exact agree slot named inside
  · -- Both trees hash what they merge into the slot, so the digest tells what it was.
    obtain ⟨parent, first, last, differ, same⟩ := collide
    have hashed := stored _ (Tree.nodeMessage_mem_messages encoded first last)
    have hashedOther := storedOther _
      (Tree.nodeMessage_mem_messages others first (Nat.lt_of_lt_of_le last smaller))
    exact absurd (faithful.merge_inj hashed hashedOther same) differ

/-- Of two trees with one root, the second has no more leaf slots than the first. -/
theorem Faithful.capacity_le (faithful : Faithful hash messages) (commits : tree.Commits encoded)
    (commitsOther : opposite.Commits others)
    (stored : ∀ message ∈ tree.messages encoded, message ∈ messages)
    (storedOther : ∀ message ∈ opposite.messages others, message ∈ messages)
    (root : tree.root = opposite.root) : opposite.capacity ≤ tree.capacity := by
  apply Nat.le_of_not_lt
  intro smaller
  have some := commits.perfect.leafCount_pos
  have room := commits.perfect.leafCount_le
  -- The first leaf slot of the smaller tree is above the leaf slots of the larger one.
  have agree : tree.node tree.capacity = opposite.node tree.capacity :=
    faithful.slots_agree commits commitsOther stored storedOther (Nat.le_of_lt smaller) root
      (by omega) (by omega)
  rw [commitsOther.perfect.merged _ (by omega) smaller] at agree
  have hashedOther := storedOther _ (Tree.nodeMessage_mem_messages others (by omega) smaller)
  have first : 0 < tree.capacity := by omega
  -- One slot would hold the digest of a leaf and that of a pair.
  rcases commits.leaf_or_vacant first with ⟨bytes, _, hashed, held⟩ | ⟨none, _⟩
  · exact faithful.leaf_ne_node (stored _ hashed) hashedOther (held.symm.trans agree)
  · rw [List.getElem?_eq_none_iff, ← commits.leafCount_eq] at none
    omega

/-- Trees with one root commit to the same byte strings in the same order. -/
theorem Faithful.encoded_eq (faithful : Faithful hash messages) (commits : tree.Commits encoded)
    (commitsOther : opposite.Commits others)
    (stored : ∀ message ∈ tree.messages encoded, message ∈ messages)
    (storedOther : ∀ message ∈ opposite.messages others, message ∈ messages)
    (root : tree.root = opposite.root) : encoded = others := by
  -- Neither capacity is below the other one, so both trees have the same slots.
  have capacity : opposite.capacity = tree.capacity := Nat.le_antisymm
    (faithful.capacity_le commits commitsOther stored storedOther root)
    (faithful.capacity_le commitsOther commits storedOther stored root.symm)
  apply List.ext_getElem?
  intro index
  by_cases inside : index < tree.capacity
  · have agree : tree.node (tree.capacity + index) = opposite.node (tree.capacity + index) :=
      faithful.slots_agree commits commitsOther stored storedOther (Nat.le_of_eq capacity.symm)
        root (by omega) (by omega)
    have held := commits.leaf_or_vacant inside
    have heldOther := commitsOther.leaf_or_vacant (capacity.symm ▸ inside)
    rw [capacity] at heldOther
    -- Both slots are used by leaves of the same bytes, or neither is used.
    rcases held with ⟨bytes, found, hashed, digest⟩ | ⟨none, zero⟩ <;>
      rcases heldOther with ⟨other, foundOther, hashedOther, digestOther⟩ | ⟨noneOther, zeroOther⟩
    · have same := faithful.inj _ (stored _ hashed) _ (storedOther _ hashedOther)
        (digest.symm.trans (agree.trans digestOther))
      rw [found, foundOther, Hasher.leafMessage_inj.mp same]
    · exact absurd (digest.symm.trans (agree.trans zeroOther))
        (faithful.ne_zero _ (stored _ hashed))
    · exact absurd (digestOther.symm.trans (agree.symm.trans zero))
        (faithful.ne_zero _ (storedOther _ hashedOther))
    · rw [none, noneOther]
  · -- Neither tree has a slot at the index.
    have room := commits.perfect.leafCount_le
    have roomOther := commitsOther.perfect.leafCount_le
    rw [commits.leafCount_eq] at room
    rw [commitsOther.leafCount_eq] at roomOther
    rw [List.getElem?_eq_none (by omega), List.getElem?_eq_none (by omega)]

/--
Under a tagged hasher, trees have one root only if they were built over the same byte strings,
as many and in the same order, unless the messages hashed to build them are compromised.
-/
theorem tagged_root_binding {encoding : LeafEncoding α} {padding : Padding} {leaves : List α}
    {encodingOther : LeafEncoding β} {paddingOther : Padding} {leavesOther : List β}
    (built : Returns (Tree.build (Hasher.tagged hash) encoding padding leaves) tree)
    (builtOther :
      Returns (Tree.build (Hasher.tagged hash) encodingOther paddingOther leavesOther) opposite)
    (root : tree.root = opposite.root) :
    ∃ encoded others, leaves.mapM encoding = .ok encoded ∧
      leavesOther.mapM encodingOther = .ok others ∧
      (encoded = others ∨
        Compromised hash (tree.messages encoded ++ opposite.messages others)) := by
  obtain ⟨encoded, complete, commits, _⟩ := Tree.commits_of_build built
  obtain ⟨others, completeOther, commitsOther, _⟩ := Tree.commits_of_build builtOther
  refine ⟨encoded, others, complete, completeOther, ?_⟩
  -- The messages of both trees are judged together.
  rcases faithful_or_compromised hash (tree.messages encoded ++ opposite.messages others) with
    faithful | compromised
  · exact .inl (faithful.encoded_eq commits commitsOther
      (fun _ member => List.mem_append_left _ member)
      (fun _ member => List.mem_append_right _ member) root)
  · exact .inr compromised

/-- Two leaves, and two halves of leaves that are written twice, have one root. -/
theorem tagged_root_binding_doubled :
    let leaves : List Bytes := [[1, 1], [2, 2]]
    let halves : List Bytes := [[1], [2]]
    let hasher := Hasher.tagged Hash.Fnv.hash
    let tree := Tree.arrange hasher 2 (leaves.map hasher.leaf)
    let opposite := Tree.arrange hasher 2 (halves.map fun half => hasher.leaf (half ++ half))
    Returns (Tree.build hasher .raw .zeros leaves) tree ∧
      Returns (Tree.build hasher .doubled .refused halves) opposite ∧
      tree.root = opposite.root ∧
      (halves.mapM LeafEncoding.doubled = .ok leaves ∨
        Compromised Hash.Fnv.hash (tree.messages leaves ++ opposite.messages leaves)) := by
  intro leaves halves hasher tree opposite
  have built : Returns (Tree.build hasher .raw .zeros leaves) tree := by decide +kernel
  -- The halves are written twice, which makes them the bytes of the leaves.
  have builtHalves : Returns (Tree.build hasher .doubled .refused halves) opposite := by
    decide +kernel
  have root : tree.root = opposite.root := by decide +kernel
  obtain ⟨encoded, others, complete, completeHalves, bound⟩ :=
    tagged_root_binding built builtHalves root
  cases complete
  cases completeHalves
  exact ⟨built, builtHalves, root, bound.imp (fun same => congrArg Except.ok same.symm) id⟩

end Merkle
