import Merkle.Proofs.Opening.Format
import Merkle.Proofs.Opening.Soundness

/-! Which byte strings are accepted as an opening of a leaf, and what changing their bytes does. -/

namespace Merkle

variable [DecidableEq D] {H : Hasher D} {tree : Tree H}

/--
Bytes that are read as an opening of the tree's depth, and accepted for a digest, are written from
a slot that holds the digest and the path beside it, unless the opening collides with the tree.
-/
theorem Tree.Perfect.decoded_slot (perfect : tree.Perfect) (exact : H.ReadsExactly) {bytes : Bytes}
    {opening : Opening D} {digest : D} (read : Opening.decode H bytes = .ok opening)
    (length : opening.path.length = tree.depth)
    (accepted : (verifyDigest H tree.root opening.index opening.path digest).value = .ok true) :
    (opening.index.toNat < tree.capacity ∧
        tree.node (tree.capacity + opening.index.toNat) = digest ∧
        (⟨opening.index, tree.siblingPath opening.index.toNat⟩ : Opening D).encode H =
          .ok bytes) ∨
      tree.PathCollision digest opening.index.toNat opening.path := by
  obtain ⟨-, inside, reaches⟩ := verifyDigest_value_eq_true_iff.mp accepted
  rw [length, ← perfect.capacity_eq] at inside
  rcases perfect.climb_eq_root_binding inside length reaches with ⟨start, beside⟩ | collide
  · -- The path is the one beside the slot, and no other bytes are read as this opening.
    refine .inl ⟨inside, start.symm, ?_⟩
    rw [← beside]
    exact Opening.encode_of_decode_exact exact read
  · exact .inr collide

/--
Bytes that are accepted for a committed leaf are those of its own opening or of another slot with
its digest, unless they collide with the tree.
-/
theorem Tree.Commits.decoded_leaf {encoded : List Bytes} (commits : tree.Commits encoded)
    (exact : H.ReadsExactly) {index : Nat} {written : Bytes}
    (stored : encoded[index]? = some written) {bytes : Bytes} {opening : Opening D}
    (read : Opening.decode H bytes = .ok opening)
    (length : opening.path.length = tree.depth)
    (accepted : (verifyDigest H tree.root opening.index opening.path (H.leaf written)).value =
      .ok true) :
    (∃ genuine, (tree.openAt index).value = .ok genuine ∧ genuine.encode H = .ok bytes) ∨
      (opening.index.toNat ≠ index ∧ opening.index.toNat < tree.capacity ∧
        tree.node (tree.capacity + opening.index.toNat) = H.leaf written ∧
        (⟨opening.index, tree.siblingPath opening.index.toNat⟩ : Opening D).encode H =
          .ok bytes) ∨
      tree.PathCollision (H.leaf written) opening.index.toNat opening.path := by
  rcases commits.perfect.decoded_slot exact read length accepted with
    ⟨inside, same, writes⟩ | collide
  · by_cases own : opening.index.toNat = index
    · -- At the leaf's own index, the path beside the slot is what the tree opens to.
      subst own
      have leaf : opening.index.toNat < tree.leafCount := by
        rw [commits.leafCount_eq]
        exact (List.getElem?_eq_some_iff.mp stored).1
      have opened : (tree.openAt opening.index.toNat).value =
          .ok ⟨opening.index, tree.siblingPath opening.index.toNat⟩ := by
        rw [Tree.openAt_value, if_pos leaf, UInt64.ofNat_toNat]
      exact .inl ⟨_, opened, writes⟩
    · exact .inr (.inl ⟨own, inside, same, writes⟩)
  · exact .inr (.inr collide)

/-- A leaf whose bytes can be counted is accepted at a known depth when its digest is. -/
theorem returns_verifyAtDepth_digest_iff {encoding : LeafEncoding α} {leaf : α} {written : Bytes}
    (single : encoding leaf = .ok written) (counted : written.length < UInt64.size)
    {expected : Nat} {root : D} {opening : Opening D} :
    Returns (opening.verifyAtDepth H encoding expected root leaf) true ↔
      opening.path.length = expected ∧
        (verifyDigest H root opening.index opening.path (H.leaf written)).value = .ok true := by
  -- The known depth adds its test, and the leaf adds its encoding, which is given.
  rw [Opening.verifyAtDepth, returns_verifyAtDepth_true_iff, returns_verify_true_iff]
  simp only [single, Except.ok.injEq, exists_eq_left', counted, true_and]

/--
Whatever bytes are accepted as an opening of a leaf are those of a slot with the leaf's digest.

They are the bytes of the leaf's own opening, or those of the path beside another slot that holds
the same digest, unless the opening merges a collision with the tree. Where all slots hold
different digests, changed bytes of an opening are not read, not accepted, or show a collision.
-/
theorem accepted_bytes_binding (exact : H.ReadsExactly) {encoding : LeafEncoding α}
    {padding : Padding} {leaves : List α}
    (built : Returns (Tree.build H encoding padding leaves) tree) {index : Nat} {leaf : α}
    (found : leaves[index]? = some leaf) :
    ∃ written, encoding leaf = .ok written ∧ tree.leafDigest? index = some (H.leaf written) ∧
      (∀ bytes opening, Opening.decode H bytes = .ok opening →
        Returns (opening.verifyAtDepth H encoding tree.depth tree.root leaf) true →
        (∃ genuine, (tree.openAt index).value = .ok genuine ∧ genuine.encode H = .ok bytes) ∨
          (opening.index.toNat ≠ index ∧ opening.index.toNat < tree.capacity ∧
            tree.node (tree.capacity + opening.index.toNat) = H.leaf written ∧
            (⟨opening.index, tree.siblingPath opening.index.toNat⟩ : Opening D).encode H =
              .ok bytes) ∨
          tree.PathCollision (H.leaf written) opening.index.toNat opening.path) ∧
      ((∀ slot, slot < tree.capacity → ∀ other, other < tree.capacity →
          tree.node (tree.capacity + slot) = tree.node (tree.capacity + other) → slot = other) →
        ∀ genuine original changed, (tree.openAt index).value = .ok genuine →
          genuine.encode H = .ok original → changed ≠ original →
          (∃ error, Opening.decode H changed = .error error) ∨
            ∃ opening, Opening.decode H changed = .ok opening ∧
              ((∃ report, opening.verifyAtDepth H encoding tree.depth tree.root leaf =
                  .ok report ∧ report.value ≠ .ok true) ∨
                tree.PathCollision (H.leaf written) opening.index.toNat opening.path)) := by
  obtain ⟨encoded, complete, commits, total⟩ := Tree.commits_of_build built
  obtain ⟨written, single, stored⟩ := LeafEncoding.getElem?_encoded complete found
  -- No leaf has more bytes than all leaves together, so its bytes can be counted.
  have part := (List.sublist_flatten_of_mem (List.mem_of_getElem? stored)).length_le
  have counted : written.length < UInt64.size := Nat.lt_of_le_of_lt part total
  have held := commits.node_leaf index written stored
  have inside : index < tree.leafCount := by
    rw [commits.leafCount_eq]
    exact (List.getElem?_eq_some_iff.mp stored).1
  refine ⟨written, single, held ▸ commits.perfect.leafDigest?_eq index inside, ?_, ?_⟩
  · intro bytes opening read returned
    obtain ⟨length, accepted⟩ := (returns_verifyAtDepth_digest_iff single counted).mp returned
    exact commits.decoded_leaf exact stored read length accepted
  · intro distinct genuine original changed opens writes differ
    cases read : Opening.decode H changed with
    | error error => exact .inl ⟨error, rfl⟩
    | ok opening =>
      refine .inr ⟨opening, rfl, ?_⟩
      obtain ⟨report, finished⟩ : ∃ report,
          opening.verifyAtDepth H encoding tree.depth tree.root leaf = .ok report :=
        verifyAtDepth_isOk tree.depth single counted
      by_cases value : report.value = .ok true
      · right
        obtain ⟨length, accepted⟩ :=
          (returns_verifyAtDepth_digest_iff single counted).mp ⟨report, finished, value⟩
        -- Changed bytes that are read and accepted are those of another opening.
        rcases commits.decoded_leaf exact stored read length accepted with
          ⟨other, opensOther, writesOther⟩ | ⟨apart, range, same, -⟩ | collide
        · -- The leaf has one opening, which is written in one way.
          cases opens.symm.trans opensOther
          exact absurd (Except.ok.inj (writesOther.symm.trans writes)) differ
        · -- A leaf slot with the same digest is the same slot, as all of them differ.
          have slot : index < tree.capacity :=
            Nat.lt_of_lt_of_le inside commits.perfect.leafCount_le
          exact absurd (distinct _ range _ slot (same.trans held.symm)) apart
        · exact collide
      · exact .inl ⟨report, finished, value⟩

/--
The path beside the last of three leaves is accepted for the first one, which has the same digest.

Among different leaves, the siblings of the first one are not accepted behind another index.
-/
theorem accepted_bytes_binding_last :
    let leaves : List Bytes := [[1], [2], [1]]
    let others : List Bytes := [[1], [2], [3]]
    let tree := Tree.arrange Hasher.fnv 4 (leaves.map Hasher.fnv.leaf)
    let opposite := Tree.arrange Hasher.fnv 4 (others.map Hasher.fnv.leaf)
    let last : Opening (Vector UInt8 4) := ⟨2, tree.siblingPath 2⟩
    let moved : Opening (Vector UInt8 4) := ⟨1, opposite.siblingPath 0⟩
    Hasher.fnv.ReadsExactly ∧ Returns (Tree.build Hasher.fnv .raw .zeros leaves) tree ∧
      Returns (Tree.build Hasher.fnv .raw .zeros others) opposite ∧
      Returns (last.verifyAtDepth Hasher.fnv .raw tree.depth tree.root [1]) true ∧
      ((∃ genuine, (tree.openAt 0).value = .ok genuine ∧
          genuine.encode Hasher.fnv = .ok (last.format Hasher.fnv)) ∨
        tree.node 6 = Hasher.fnv.leaf [1] ∨
        tree.PathCollision (Hasher.fnv.leaf [1]) 2 last.path) ∧
      ((∃ error, Opening.decode Hasher.fnv (moved.format Hasher.fnv) = .error error) ∨
        ∃ opening, Opening.decode Hasher.fnv (moved.format Hasher.fnv) = .ok opening ∧
          ((∃ report, opening.verifyAtDepth Hasher.fnv .raw opposite.depth opposite.root [1] =
              .ok report ∧ report.value ≠ .ok true) ∨
            opposite.PathCollision (Hasher.fnv.leaf [1]) opening.index.toNat opening.path)) := by
  intro leaves others tree opposite last moved
  have canonical : Hasher.fnv.Canonical := Hasher.canonical_untagged Hash.Fnv.hash
  -- Everything is small enough to be computed, and only the reading is argued.
  have built : Returns (Tree.build Hasher.fnv .raw .zeros leaves) tree := by decide +kernel
  have builtOther : Returns (Tree.build Hasher.fnv .raw .zeros others) opposite := by
    decide +kernel
  have accepted : Returns (last.verifyAtDepth Hasher.fnv .raw tree.depth tree.root [1]) true := by
    decide +kernel
  have read : Opening.decode Hasher.fnv (last.format Hasher.fnv) = .ok last := by
    rw [Opening.decode_format canonical (checkIndex_eq_ok_iff.mpr (by decide +kernel)), if_pos]
    intro digest _
    exact Option.isSome_iff_exists.mpr ⟨digest, Hasher.exactly?_eq_some_iff.mpr rfl⟩
  have opens : (opposite.openAt 0).value = .ok ⟨0, opposite.siblingPath 0⟩ := rfl
  have writes : (⟨0, opposite.siblingPath 0⟩ : Opening (Vector UInt8 4)).encode Hasher.fnv =
      .ok (Opening.format Hasher.fnv ⟨0, opposite.siblingPath 0⟩) :=
    Opening.encode_eq_ok_iff.mpr ⟨checkIndex_eq_ok_iff.mpr (by decide +kernel), rfl⟩
  refine ⟨canonical.bytes_ofBytes?, built, builtOther, accepted, ?_, ?_⟩
  · -- The path beside the last leaf is not the one beside the first, which leaves two ways out.
    have found : leaves[0]? = some [1] := rfl
    obtain ⟨_, written, -, bound, -⟩ :=
      accepted_bytes_binding canonical.bytes_ofBytes? built found
    cases written
    rcases bound _ last read accepted with own | ⟨-, -, held, -⟩ | collide
    · exact .inl own
    · exact .inr (.inl held)
    · exact .inr (.inr collide)
  · -- Only the index was changed, so the bytes differ while the siblings are the same.
    have found : others[0]? = some [1] := rfl
    obtain ⟨_, written, -, -, changes⟩ :=
      accepted_bytes_binding canonical.bytes_ofBytes? builtOther found
    cases written
    exact changes (by decide +kernel) _ _ (moved.format Hasher.fnv) opens writes (by decide +kernel)

end Merkle
