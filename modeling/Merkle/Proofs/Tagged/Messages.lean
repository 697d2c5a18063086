import Merkle.Proofs.Path.Binding
import Merkle.Proofs.Tree.Leaves

/-!
The byte strings that a tagged hasher is given while a tree is built or a path is followed. What
they determine, and what it takes for their digests to do so.
-/

namespace Merkle

variable {size : Nat} {hash : Bytes → Vector UInt8 size}

/-- What is hashed to build a tree over leaves with the given bytes. -/
def Tree.messages (leaves : List Bytes) (tree : Tree (Hasher.tagged hash)) : List Bytes :=
  -- Every leaf is hashed, and every slot above the leaf slots.
  leaves.map Hasher.leafMessage ++
    (List.range' 1 (tree.capacity - 1)).map fun slot =>
      Hasher.nodeMessage (tree.children slot).1 (tree.children slot).2

/-- What is hashed to follow a path from a leaf with the given bytes. -/
def climbMessages (hash : Bytes → Vector UInt8 size) (leaf : Bytes) (index : Nat)
    (path : List (Vector UInt8 size)) : List Bytes :=
  -- The leaf is hashed first, then one pair for each sibling.
  Hasher.leafMessage leaf ::
    (climbPairs (Hasher.tagged hash) (hash (Hasher.leafMessage leaf)) index path).map
      fun (left, right) => Hasher.nodeMessage left right

/-- The message of a leaf determines its bytes. -/
theorem Hasher.leafMessage_inj {bytes other : Bytes} :
    leafMessage bytes = leafMessage other ↔ bytes = other := by
  -- Both begin with the same tag, and the rest is the bytes.
  rw [leafMessage, leafMessage, List.cons.injEq, eq_self, true_and]

/-- The message of a node determines the digests of both children. -/
theorem Hasher.nodeMessage_inj {left right other opposite : Vector UInt8 size} :
    nodeMessage left right = nodeMessage other opposite ↔ left = other ∧ right = opposite := by
  rw [nodeMessage, nodeMessage, List.cons.injEq, eq_self, true_and]
  constructor
  · intro same
    -- Digests have one width, so the joined bytes split in one place.
    obtain ⟨first, second⟩ := List.append_inj same (by simp)
    exact ⟨Vector.toList_inj.mp first, Vector.toList_inj.mp second⟩
  · rintro ⟨rfl, rfl⟩
    rfl

/-- No message is both one of a leaf and one of a node. -/
theorem Hasher.leafMessage_ne_nodeMessage (bytes : Bytes) (left right : Vector UInt8 size) :
    leafMessage bytes ≠ nodeMessage left right := by
  -- The tags differ before anything else is compared.
  rw [leafMessage, nodeMessage, Ne, List.cons.injEq]
  rintro ⟨tags, _⟩
  exact absurd tags (by decide)

/-- Among some messages, two different ones have the same digest, or one has the zero digest. -/
def Compromised (hash : Bytes → Vector UInt8 size) (messages : List Bytes) : Prop :=
  -- Only messages that were hashed count, so a collision elsewhere is no excuse.
  (∃ first ∈ messages, ∃ second ∈ messages, first ≠ second ∧ hash first = hash second) ∨
    ∃ message ∈ messages, hash message = Vector.replicate size 0

/-- Among some messages, each is told by its digest, which is not the zero digest. -/
structure Faithful (hash : Bytes → Vector UInt8 size) (messages : List Bytes) : Prop where
  /-- Messages with the same digest are the same. -/
  inj : ∀ first ∈ messages, ∀ second ∈ messages, hash first = hash second → first = second
  /-- The digest of an unused leaf slot belongs to no message. -/
  ne_zero : ∀ message ∈ messages, hash message ≠ Vector.replicate size 0

/-- The digests of some messages are faithful unless the messages are compromised. -/
theorem faithful_or_compromised (hash : Bytes → Vector UInt8 size) (messages : List Bytes) :
    Faithful hash messages ∨ Compromised hash messages := by
  by_cases compromised : Compromised hash messages
  · exact .inr compromised
  · -- Otherwise equal digests have equal messages, and none is zero.
    refine .inl ⟨?_, ?_⟩
    · intro first member second memberOther same
      by_cases equal : first = second
      · exact equal
      · exact absurd (.inl ⟨first, member, second, memberOther, equal, same⟩) compromised
    · intro message member zero
      exact compromised (.inr ⟨message, member, zero⟩)

/-- A leaf and a node never have the same digest, as long as digests are faithful. -/
theorem Faithful.leaf_ne_node {messages : List Bytes} (faithful : Faithful hash messages)
    {bytes : Bytes} {pair : Vector UInt8 size × Vector UInt8 size}
    (leaf : Hasher.leafMessage bytes ∈ messages)
    (node : Hasher.nodeMessage pair.1 pair.2 ∈ messages) :
    hash (Hasher.leafMessage bytes) ≠ (Hasher.tagged hash).merge pair.1 pair.2 := fun same =>
  -- The two messages begin with different tags.
  Hasher.leafMessage_ne_nodeMessage bytes pair.1 pair.2 (faithful.inj _ leaf _ node same)

/-- A merge determines what was merged, as long as digests are faithful. -/
theorem Faithful.merge_inj {messages : List Bytes} (faithful : Faithful hash messages)
    {pair other : Vector UInt8 size × Vector UInt8 size}
    (first : Hasher.nodeMessage pair.1 pair.2 ∈ messages)
    (second : Hasher.nodeMessage other.1 other.2 ∈ messages)
    (same : (Hasher.tagged hash).merge pair.1 pair.2 = (Hasher.tagged hash).merge other.1 other.2) :
    pair = other := by
  -- The digests are those of two messages, which determine the pairs.
  obtain ⟨left, right⟩ := Hasher.nodeMessage_inj.mp (faithful.inj _ first _ second same)
  exact Prod.ext left right

variable {tree : Tree (Hasher.tagged hash)}

/-- The message of every leaf is hashed for the tree. -/
theorem Tree.leafMessage_mem_messages {encoded : List Bytes} {bytes : Bytes}
    (member : bytes ∈ encoded) : Hasher.leafMessage bytes ∈ tree.messages encoded :=
  -- The messages of the leaves come first.
  List.mem_append_left _ (List.mem_map_of_mem member)

/-- The message of every slot above the leaves is hashed for the tree. -/
theorem Tree.nodeMessage_mem_messages (encoded : List Bytes) {slot : Nat} (named : 1 ≤ slot)
    (inside : slot < tree.capacity) :
    Hasher.nodeMessage (childPair tree.node slot).1 (childPair tree.node slot).2 ∈
      tree.messages encoded := by
  -- The messages of the slots follow those of the leaves, numbered from one.
  refine List.mem_append_right _ (List.mem_map.mpr ⟨slot, ?_, rfl⟩)
  exact List.mem_range'_1.mpr (by omega)

/-- The message of the leaf is hashed to follow a path from it. -/
theorem leafMessage_mem_climbMessages (bytes : Bytes) (index : Nat)
    (path : List (Vector UInt8 size)) :
    Hasher.leafMessage bytes ∈ climbMessages hash bytes index path :=
  -- It is hashed first.
  List.mem_cons_self

/-- The message of every pair that a path merges is hashed to follow it. -/
theorem nodeMessage_mem_climbMessages {bytes : Bytes} {index : Nat}
    {path : List (Vector UInt8 size)} {pair : Vector UInt8 size × Vector UInt8 size}
    (member : pair ∈
      climbPairs (Hasher.tagged hash) (hash (Hasher.leafMessage bytes)) index path) :
    Hasher.nodeMessage pair.1 pair.2 ∈ climbMessages hash bytes index path :=
  -- It is hashed after the leaf, level by level.
  List.mem_cons_of_mem _ (List.mem_map.mpr ⟨pair, member, rfl⟩)

/-- A leaf slot holds the digest of a committed leaf's message, or the zero digest. -/
theorem Tree.Commits.leaf_or_vacant {encoded : List Bytes} (commits : tree.Commits encoded)
    {index : Nat} (inside : index < tree.capacity) :
    (∃ bytes, encoded[index]? = some bytes ∧
        Hasher.leafMessage bytes ∈ tree.messages encoded ∧
        tree.node (tree.capacity + index) = hash (Hasher.leafMessage bytes)) ∨
      (encoded[index]? = none ∧ tree.node (tree.capacity + index) = Vector.replicate size 0) := by
  cases found : encoded[index]? with
  | none =>
    -- There are as many leaves as byte strings, so the slot is unused.
    have vacant : encoded.length ≤ index := List.getElem?_eq_none_iff.mp found
    rw [← commits.leafCount_eq] at vacant
    exact .inr ⟨rfl, commits.perfect.node_vacant index vacant inside⟩
  | some bytes =>
    have member : Hasher.leafMessage bytes ∈ tree.messages encoded :=
      leafMessage_mem_messages (List.mem_of_getElem? found)
    exact .inl ⟨bytes, rfl, member, commits.node_leaf index bytes found⟩

end Merkle
