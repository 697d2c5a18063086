import Merkle.Leaf
import Merkle.Tree
import Merkle.Tree.Padding

/-! Building a tree over leaf digests, or over leaves whose hashing is charged. -/

namespace Merkle.Tree

variable {H : Hasher D}

/-- Fills the slots from the given one down to the first from their children. -/
def fillParents (H : Hasher D) : (slot : Nat) → Array D → Array D
  -- Children have greater numbers than their parent, so they are already filled.
  | 0, nodes => nodes
  | slot + 1, nodes =>
    let left := nodes.getD (2 * (slot + 1)) H.zero
    let right := nodes.getD (2 * (slot + 1) + 1) H.zero
    fillParents H slot (nodes.setIfInBounds (slot + 1) (H.merge left right))

/-- Filling adds no slot and drops none. -/
@[simp] theorem size_fillParents (slot : Nat) (nodes : Array D) :
    (fillParents H slot nodes).size = nodes.size := by
  -- Each step replaces one slot in place.
  induction slot generalizing nodes with
  | zero => rfl
  | succ slot ih => simp [fillParents, ih]

/-- Filling leaves the unused slot, and the slots above the one it begins with, as they are. -/
theorem fillParents_outside {slot other : Nat} (outside : other = 0 ∨ slot < other)
    (nodes : Array D) :
    (fillParents H slot nodes).getD other H.zero = nodes.getD other H.zero := by
  induction slot generalizing nodes with
  | zero => rfl
  | succ slot ih =>
    -- The step writes a slot in between, and so do all steps after it.
    rw [fillParents, ih (by omega)]
    simp only [Array.getD_eq_getD_getElem?]
    rw [Array.getElem?_setIfInBounds_ne (by omega)]

/-- A filled slot holds the merge of the slots below it. -/
theorem fillParents_parent {slot other : Nat} (first : 1 ≤ other) (filled : other ≤ slot)
    (nodes : Array D) (room : 2 * slot + 1 < nodes.size) :
    (fillParents H slot nodes).getD other H.zero =
      H.merge ((fillParents H slot nodes).getD (2 * other) H.zero)
        ((fillParents H slot nodes).getD (2 * other + 1) H.zero) := by
  -- The recursion writes the slots downwards, one in each step.
  induction slot generalizing nodes with
  | zero => omega
  | succ slot ih =>
    rw [fillParents]
    by_cases same : other = slot + 1
    · -- The slot is written now, and neither it nor its children change later.
      subst same
      rw [fillParents_outside (by omega), fillParents_outside (by omega),
        fillParents_outside (by omega)]
      simp only [Array.getD_eq_getD_getElem?]
      rw [Array.getElem?_setIfInBounds_self_of_lt (by omega),
        Array.getElem?_setIfInBounds_ne (by omega), Array.getElem?_setIfInBounds_ne (by omega)]
      rfl
    · -- A lower slot is written in a later step, in an array of the same size.
      exact ih (by omega) _ (by rw [Array.size_setIfInBounds]; omega)

/-- The digests of the leaf slots, where unused ones hold the zero digest. -/
def padded (H : Hasher D) (capacity : Nat) (digests : List D) : List D :=
  -- The zero digests stand for leaves that do not exist, and are not hashed.
  digests ++ List.replicate (capacity - digests.length) H.zero

/-- The tree with the given number of leaf slots over some digests. -/
def arrange (H : Hasher D) (capacity : Nat) (digests : List D) : Tree H where
  leafCount := digests.length
  capacity := capacity
  -- Parents follow their children in the order of filling.
  nodes := fillParents H (capacity - 1)
    (List.replicate capacity H.zero ++ padded H capacity digests).toArray

/-- The events that report a new tree. -/
def construction (tree : Tree H) : List Event :=
  -- A tree without unused slots was not padded.
  (if tree.capacity = tree.leafCount then [] else [.padded tree.leafCount tree.capacity]) ++
    [.built tree.leafCount tree.capacity tree.depth (H.bytes tree.root)]

/-- Builds a tree over leaf digests. -/
def ofDigests (H : Hasher D) (padding : Padding) (digests : List D) : Report (Tree H) :=
  match padding.capacity digests.length with
  | .error error => .failure error {}
  | .ok capacity =>
    let tree := arrange H capacity digests
    -- Every slot above the leaves takes one merge, and the counter stops at its greatest value.
    { value := .ok tree
      cost := { nodeHashes := UInt32.ofNatClamp (capacity - 1) }
      events := tree.construction }

/-- The digest of one leaf, whose hash is charged once the leaf is encoded. -/
def hashLeaf (H : Hasher D) (encoding : LeafEncoding α) (leaf : α) : Metered Error D := do
  -- A leaf without an encoding is not counted as hashed.
  let bytes ← Metered.ofPlain (encoding leaf)
  Metered.chargeLeaf bytes.length
  return H.leaf bytes

/-- Builds a tree over leaves. -/
def build (H : Hasher D) (encoding : LeafEncoding α) (padding : Padding) (leaves : List α) :
    Checked (Report (Tree H)) :=
  match padding.capacity leaves.length with
  -- A refused number of leaves costs nothing.
  | .error error => .ok (.failure error {})
  | .ok _ => do
    let hashed ← (leaves.mapM (hashLeaf H encoding)).outcome {}
    match hashed.value with
    | .error error => return .failure error hashed.cost
    | .ok digests => (ofDigests H padding digests).withEarlier hashed.cost

/-- Builds a tree over equal leaves. -/
def buildRepeated (H : Hasher D) (encoding : LeafEncoding α) (padding : Padding) (count : Nat)
    (leaf : α) : Checked (Report (Tree H)) :=
  match padding.capacity count with
  -- A refused number of leaves is never laid out.
  | .error error => .ok (.failure error {})
  | .ok _ =>
    match encoding leaf with
    | .error error => .ok (.failure error {})
    | .ok bytes =>
      -- Neither are leaves that the counters have no room for.
      if count < UInt32.size ∧ count * bytes.length < UInt64.size then
        build H encoding padding (List.replicate count leaf)
      else .error .counter

end Merkle.Tree
