import Merkle.Proofs.Opening.Format
import Merkle.Proofs.Opening.Completeness
import Merkle.Proofs.Tree.Prehashed

/-! Without tags, the bytes below a slot pass for a leaf of a tree that ends at the slot's level. -/

namespace Merkle

/-- Raw leaves are their own bytes. -/
theorem LeafEncoding.mapM_raw (leaves : List Bytes) : leaves.mapM raw = .ok leaves := by
  -- Raw leaves are encoded by the identity.
  rw [raw, mapM_ofFunction, List.map_id]

namespace Tree

variable {H : Hasher D}

/-- The joined bytes of the two digests below a slot, left one first. -/
def joinedBytes (tree : Tree H) (slot : Nat) : Bytes :=
  -- These are the bytes that a merge without tags hashes.
  H.bytes (tree.children slot).1 ++ H.bytes (tree.children slot).2

/-- The joined bytes below every slot of a level, from left to right. -/
def levelBytes (tree : Tree H) (depth : Nat) : List Bytes :=
  -- The slots of a level are numbered from its width on.
  (List.range (levelWidth depth)).map fun place => tree.joinedBytes (levelWidth depth + place)

/-- A level has one byte string for each of its slots. -/
theorem length_levelBytes (tree : Tree H) (depth : Nat) :
    (tree.levelBytes depth).length = levelWidth depth := by
  -- A level has as many slots as it is wide.
  rw [levelBytes, List.length_map, List.length_range]

namespace Perfect

variable {tree : Tree H}

/-- Where merges hash joined bytes, a slot above the leaves holds the digest of those below it. -/
theorem leaf_joinedBytes (perfect : tree.Perfect) (merges : H.MergesBytes) {slot : Nat}
    (named : 1 ≤ slot) (inside : slot < tree.capacity) :
    H.leaf (tree.joinedBytes slot) = tree.node slot := by
  -- A slot above the leaves holds the merge of the two digests below it.
  rw [perfect.merged slot named inside, joinedBytes, merges]
  rfl

/-- An index that is halved some times exists on the level as many levels above the leaves. -/
theorem checkIndex_shiftRight (perfect : tree.Perfect) {index level : Nat}
    (inside : index < tree.capacity) (within : level ≤ tree.depth) :
    checkIndex (UInt64.ofNat (index >>> level)) (tree.depth - level) = .ok () := by
  -- Halving the index once for each level dropped leaves one that is small enough.
  have shallow := perfect.depth_lt
  have word := perfect.toNat_ofNat_index inside
  have halved : checkIndex (UInt64.ofNat ((UInt64.ofNat index).toNat >>> level))
      (tree.depth - level) = .ok () := by
    apply checkIndex_halved (by omega)
    rw [word, Nat.add_sub_cancel' within, ← perfect.capacity_eq]
    exact inside
  rwa [word] at halved

/-- The rest of the path beside a leaf slot has a sibling for each level above the ancestor. -/
theorem length_drop_siblingPath (perfect : tree.Perfect) {index : Nat}
    (inside : index < tree.capacity) (level : Nat) :
    ((tree.siblingPath index).drop level).length = tree.depth - level := by
  -- The path has one sibling for each level, and the lowest ones are dropped.
  rw [List.length_drop, perfect.length_siblingPath inside]

/-- The rest of the path beside a leaf slot is accepted for a leaf with the bytes below the slot's
ancestor. -/
theorem verifyDigest_joinedBytes [DecidableEq D] (perfect : tree.Perfect) (merges : H.MergesBytes)
    {index level : Nat} (inside : index < tree.capacity) (above : 1 ≤ level)
    (within : level ≤ tree.depth) :
    (verifyDigest H tree.root (UInt64.ofNat (index >>> level)) ((tree.siblingPath index).drop level)
      (H.leaf (tree.joinedBytes ((tree.capacity + index) >>> level)))).value = .ok true := by
  -- An ancestor is above the leaf slots, so it holds the digest of the bytes below it.
  have named : 1 ≤ (tree.capacity + index) >>> level :=
    one_le_shiftRight (by omega) (perfect.log2_slot inside ▸ within)
  have half := shiftRight_succ_le (level - 1) (tree.capacity + index)
  rw [Nat.sub_add_cancel above] at half
  rw [perfect.leaf_joinedBytes merges named (by omega)]
  obtain ⟨shallow, valid⟩ := checkIndex_eq_ok_iff.mp (perfect.checkIndex_shiftRight inside within)
  have halved : index >>> level ≤ index := Nat.shiftRight_le _ _
  rw [verifyDigest_value_eq_true_iff, perfect.length_drop_siblingPath inside]
  refine ⟨shallow, valid, ?_⟩
  rw [perfect.toNat_ofNat_index (by omega)]
  exact perfect.climb_drop_siblingPath inside within

/-- A tree over the bytes below a level has the root of the whole tree. -/
theorem root_arrange_levelBytes (perfect : tree.Perfect) (merges : H.MergesBytes) {depth : Nat}
    (above : depth < tree.depth) :
    (arrange H (levelWidth depth) ((tree.levelBytes depth).map H.leaf)).root = tree.root := by
  -- The level lies above the leaves, so the slots on it are merged.
  have wide : 2 * levelWidth depth ≤ tree.capacity := by
    rw [perfect.capacity_eq, ← levelWidth_succ]
    exact levelWidth_le_levelWidth above
  have positive := levelWidth_pos depth
  have accepted : Padding.zeros.capacity ((tree.levelBytes depth).map H.leaf).length =
      .ok (levelWidth depth) := by
    rw [List.length_map, tree.length_levelBytes]
    exact Padding.capacity_levelWidth _ (Nat.lt_trans above perfect.depth_lt)
  -- Both trees merge on the upper levels, and they agree on the last of these.
  have merged : ParentsMerge H tree.node (levelWidth depth) := fun slot named inside =>
    perfect.merged slot named (by omega)
  have mergedUpper : ParentsMerge H
      (arrange H (levelWidth depth) ((tree.levelBytes depth).map H.leaf)).node (levelWidth depth) :=
    (perfect_arrange accepted).merged
  refine mergedUpper.congr merged (Nat.zero_add depth) (levelWidth_pos 0) ?_
  intro place ranged _
  -- A leaf slot of the upper tree holds the hash of the joined bytes, which is the merge.
  rw [node_arrange_leaf ranged, List.getElem?_map, levelBytes, List.getElem?_map,
    List.getElem?_range ranged]
  exact perfect.leaf_joinedBytes merges (by omega) (by omega)

end Perfect

end Tree

/--
Without tags, openings can be shortened from below, unless the verifier knows the depth.

The bytes below an ancestor of a leaf slot are accepted as a leaf, at the halved index and with the
rest of the path, if they can be counted. At the known depth, the path is refused for its length,
and nothing is hashed. A tree over the bytes below all slots of a level has the same root.
-/
theorem untagged_openings_shorten [DecidableEq D] {H : Hasher D} (merges : H.MergesBytes)
    {tree : Tree H} (constructed : tree.Constructed) {level : Nat} (above : 1 ≤ level)
    (within : level ≤ tree.depth) :
    (∀ index, index < tree.leafCount → ∃ opening, (tree.openAt index).value = .ok opening ∧
      let leaf := tree.joinedBytes ((tree.capacity + index) >>> level)
      let shorter : Opening D := ⟨UInt64.ofNat (index >>> level), opening.path.drop level⟩
      (Returns (shorter.verify H .raw tree.root leaf) true ↔ leaf.length < UInt64.size) ∧
        (∃ bytes, shorter.encode H = .ok bytes) ∧
        shorter.verifyAtDepth H .raw tree.depth tree.root leaf =
          .ok (.failure (.malformedProof (.siblingCount (tree.depth - level) tree.depth)) {})) ∧
      ∀ report, Tree.build H .raw .zeros (tree.levelBytes (tree.depth - level)) = .ok report →
        ∃ shorter, report.value = .ok shorter ∧ shorter.depth = tree.depth - level ∧
          shorter.root = tree.root := by
  have perfect := constructed.perfect
  constructor
  · intro index leafIndex
    have inside : index < tree.capacity := Nat.lt_of_lt_of_le leafIndex perfect.leafCount_le
    have length := perfect.length_drop_siblingPath inside level
    have accepted := perfect.verifyDigest_joinedBytes merges inside above within
    refine ⟨⟨UInt64.ofNat index, tree.siblingPath index⟩,
      by rw [Tree.openAt_value, if_pos leafIndex], ?_, ?_, ?_⟩
    · -- A verdict needs bytes that can be counted, and nothing else can fail.
      constructor
      · intro returned
        obtain ⟨_, written, counted, -⟩ := returns_verify_true_iff.mp returned
        cases written
        exact counted
      · intro counted
        exact returns_verify_true_iff.mpr ⟨_, rfl, counted, accepted⟩
    · have valid := perfect.checkIndex_shiftRight inside within
      rw [← length] at valid
      exact ⟨_, Opening.encode_eq_ok_iff.mpr ⟨valid, rfl⟩⟩
    · -- The path lacks at least one sibling.
      have shorter : ¬tree.depth - level = tree.depth := by omega
      show verifyAtDepth H _ _ _ _ ((tree.siblingPath index).drop level) _ = _
      rw [verifyAtDepth, length, if_neg shorter]
  · intro report finished
    have shallow : tree.depth - level < tree.depth := by omega
    -- The joined bytes are leaves of their own, one for each slot of a power of two.
    have accepted : Padding.zeros.capacity (tree.levelBytes (tree.depth - level)).length =
        .ok (levelWidth (tree.depth - level)) := by
      rw [tree.length_levelBytes]
      exact Padding.capacity_levelWidth _ (Nat.lt_trans shallow perfect.depth_lt)
    obtain ⟨-, same, -⟩ := Tree.ofDigests_of_build finished accepted
      (LeafEncoding.mapM_raw (tree.levelBytes (tree.depth - level)))
    rw [← List.length_map (f := H.leaf)] at accepted
    rw [Tree.ofDigests_of_accepted accepted] at same
    exact ⟨_, same, log2_levelWidth _, perfect.root_arrange_levelBytes merges shallow⟩

/-- Below the right half of a tree over three leaves, one digest is the zero digest of padding. -/
theorem untagged_openings_shorten_vacant :
    let digests := [[1], [2], [3]].map Hasher.fnv.leaf
    let tree := Tree.arrange Hasher.fnv 4 digests
    let leaf := tree.joinedBytes 3
    let shorter : Opening (Vector UInt8 4) := ⟨1, [tree.node 2]⟩
    Hasher.fnv.MergesBytes ∧ tree.Constructed ∧ leaf.length = 8 ∧
      Returns (shorter.verify Hasher.fnv .raw tree.root leaf) true ∧
      shorter.verifyAtDepth Hasher.fnv .raw 2 tree.root leaf =
        .ok (.failure (.malformedProof (.siblingCount 1 2)) {}) ∧
      ∃ upper, Returns (Tree.build Hasher.fnv .raw .zeros (tree.levelBytes 1)) upper ∧
        upper.depth = 1 ∧ upper.root = tree.root := by
  intro digests tree leaf shorter
  have merges : Hasher.fnv.MergesBytes := Hasher.mergesBytes_untagged Hash.Fnv.hash
  have accommodated : Padding.zeros.capacity 3 = .ok 4 :=
    Padding.capacity_eq_ok_iff.mpr (by decide)
  have constructed : tree.Constructed :=
    .ofDigests .zeros digests (Tree.ofDigests_value_eq_ok_iff.mpr ⟨4, accommodated, rfl⟩)
  have deep : tree.depth = 2 := by decide
  -- The joined bytes of the right half pass for a leaf, one level above the leaves.
  have path : (tree.siblingPath 2).drop 1 = [tree.node 2] := by decide +kernel
  have length : leaf.length = 8 := by decide +kernel
  -- The tree over both halves is built from their joined bytes.
  have built : Returns (Tree.build Hasher.fnv .raw .zeros (tree.levelBytes 1))
      (Tree.arrange Hasher.fnv 2 ((tree.levelBytes 1).map Hasher.fnv.leaf)) := by decide +kernel
  obtain ⟨opens, roots⟩ :=
    untagged_openings_shorten merges constructed (Nat.le_refl 1) (by decide)
  obtain ⟨opening, opened, verified, -, refused⟩ := opens 2 (by decide)
  rw [Tree.openAt_value, if_pos (show 2 < tree.leafCount by decide), Except.ok.injEq] at opened
  subst opened
  have slot : (tree.capacity + 2) >>> 1 = 3 := by decide
  have place : UInt64.ofNat (2 >>> 1) = 1 := by decide
  simp only [deep, slot, place, path] at roots verified refused
  obtain ⟨report, finished, -⟩ := built
  obtain ⟨upper, value, level, root⟩ := roots report finished
  refine ⟨merges, constructed, length, verified.mpr ?_, refused,
    upper, ⟨report, finished, value⟩, level, root⟩
  exact Nat.lt_of_le_of_lt (Nat.le_of_eq length) (by decide)

end Merkle
