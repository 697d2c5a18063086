import Merkle.Proofs.Tree.Hashing

/-! Which tree building over leaves returns, and what every tree that can be built looks like. -/

namespace Merkle.Tree

variable {H : Hasher D}

/-- Building over leaf digests returns the tree arranged over them, if their number is accepted. -/
theorem ofDigests_value_eq_ok_iff {padding : Padding} {digests : List D} {tree : Tree H} :
    (ofDigests H padding digests).value = .ok tree ↔
      ∃ capacity, padding.capacity digests.length = .ok capacity ∧
        arrange H capacity digests = tree := by
  -- The capacity decides, and the hashes are never consulted.
  unfold ofDigests
  cases padding.capacity digests.length with
  | error error => simp [Report.failure]
  | ok capacity => simp

/-- Building over leaves returns the tree arranged over the digests of their bytes. -/
theorem arrange_of_build {encoding : LeafEncoding α} {padding : Padding} {leaves : List α}
    {tree : Tree H} (built : Returns (build H encoding padding leaves) tree) :
    ∃ capacity encoded, padding.capacity leaves.length = .ok capacity ∧
      leaves.mapM encoding = .ok encoded ∧ tree = arrange H capacity (encoded.map H.leaf) ∧
      encoded.flatten.length < UInt64.size := by
  obtain ⟨report, finished, value⟩ := built
  cases accepted : padding.capacity leaves.length with
  | error error =>
    -- A refused number of leaves returns nothing.
    rw [build_of_refused accepted] at finished
    cases finished
    cases value
  | ok capacity =>
    obtain ⟨hashed, worked⟩ := (build_isOk_iff accepted).mp ⟨report, finished⟩
    cases complete : leaves.mapM encoding with
    | error error =>
      -- A leaf without bytes makes the whole build fail.
      rw [build_of_fails accepted worked complete] at finished
      cases finished
      cases value
    | ok encoded =>
      rw [build_of_encoded accepted worked complete] at finished
      cases finished
      cases value
      -- The bytes of all leaves are counted in a word.
      obtain ⟨-, -, -, total⟩ := outcome_hashLeaves worked
      rw [LeafEncoding.written_eq complete, UInt64.toNat_zero, Nat.zero_add] at total
      exact ⟨capacity, encoded, rfl, rfl, rfl, total ▸ hashed.cost.hashedBytes.toNat_lt⟩

/-- A perfect tree whose leaf slots hold, in order, the digests of the given byte strings. -/
structure Commits (tree : Tree H) (encoded : List Bytes) : Prop where
  /-- The tree has the shape that every tree has. -/
  perfect : tree.Perfect
  /-- There is one leaf for each byte string. -/
  leafCount_eq : tree.leafCount = encoded.length
  /-- The leaf slot of a byte string holds its digest. -/
  node_leaf : ∀ index bytes, encoded[index]? = some bytes →
    tree.node (tree.capacity + index) = H.leaf bytes

/-- A tree built over leaves commits to their bytes, which can be counted together. -/
theorem commits_of_build {encoding : LeafEncoding α} {padding : Padding} {leaves : List α}
    {tree : Tree H} (built : Returns (build H encoding padding leaves) tree) :
    ∃ encoded, leaves.mapM encoding = .ok encoded ∧ tree.Commits encoded ∧
      encoded.flatten.length < UInt64.size := by
  obtain ⟨capacity, encoded, accepted, complete, rfl, counted⟩ := arrange_of_build built
  have count := LeafEncoding.length_encoded complete
  -- The digests are as many as the leaves, so they fit the same slots.
  rw [← count, ← List.length_map (f := H.leaf)] at accepted
  have perfect := perfect_arrange (H := H) accepted
  refine ⟨encoded, complete, ⟨perfect, List.length_map _, ?_⟩, counted⟩
  intro index bytes found
  -- A leaf slot in front of the leaf count is filled with the leaf.
  have leaf : index < (encoded.map H.leaf).length := by
    simpa using (List.getElem?_eq_some_iff.mp found).1
  have slot : index < capacity := Nat.lt_of_lt_of_le leaf perfect.leafCount_le
  rw [capacity_arrange, node_arrange_leaf slot, List.getElem?_map, found]
  rfl

/-- The tree is returned by one of the two ways to build it. -/
inductive Constructed (tree : Tree H) : Prop where
  /-- It is built over leaves of some type. -/
  | build {α : Type} (encoding : LeafEncoding α) (padding : Padding) (leaves : List α)
      (built : Returns (Tree.build H encoding padding leaves) tree)
  /-- It is built over leaf digests. -/
  | ofDigests (padding : Padding) (digests : List D)
      (built : (Tree.ofDigests H padding digests).value = .ok tree)

/-- Every tree that can be built is arranged over some digests, whose number is accepted. -/
theorem Constructed.eq_arrange {tree : Tree H} (constructed : tree.Constructed) :
    ∃ (padding : Padding) (capacity : Nat) (digests : List D),
      padding.capacity digests.length = .ok capacity ∧ tree = arrange H capacity digests := by
  cases constructed with
  | build encoding padding leaves built =>
    -- Leaves are turned into digests first, and these are as many.
    obtain ⟨capacity, encoded, accepted, complete, arranged, -⟩ := arrange_of_build built
    refine ⟨padding, capacity, encoded.map H.leaf, ?_, arranged⟩
    rw [List.length_map, LeafEncoding.length_encoded complete, accepted]
  | ofDigests padding digests built =>
    -- Digests are arranged directly.
    obtain ⟨capacity, accepted, arranged⟩ := ofDigests_value_eq_ok_iff.mp built
    exact ⟨padding, capacity, digests, accepted, arranged.symm⟩

/-- A tree arranged over digests, whose number is accepted, can be built. -/
theorem constructed_arrange {padding : Padding} {digests : List D} {capacity : Nat}
    (accepted : padding.capacity digests.length = .ok capacity) :
    (arrange H capacity digests).Constructed :=
  -- Building over digests cannot fail once their number is accepted.
  .ofDigests padding digests (ofDigests_value_eq_ok_iff.mpr ⟨capacity, accepted, rfl⟩)

/-- Every tree that can be built is perfect. -/
theorem Constructed.perfect {tree : Tree H} (constructed : tree.Constructed) : tree.Perfect := by
  -- All ways of building end in the same arrangement.
  obtain ⟨_, _, _, accepted, rfl⟩ := constructed.eq_arrange
  exact perfect_arrange accepted

/-- A tree that can be built has two slots for each leaf slot, numbered from the unused one. -/
theorem Constructed.size_nodes {tree : Tree H} (constructed : tree.Constructed) :
    tree.nodes.size = 2 * tree.capacity := by
  -- The slots are allocated by the arrangement, before any of them is filled.
  obtain ⟨_, _, _, accepted, rfl⟩ := constructed.eq_arrange
  exact size_nodes_arrange (perfect_arrange (H := H) accepted).leafCount_le

end Merkle.Tree
