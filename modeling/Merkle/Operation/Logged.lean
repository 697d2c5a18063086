import Merkle.Operation

/-! Operations that write their events to a log while they work, and runs of them under one log. -/

namespace Merkle

/-- A computation under a log, which an overflow leaves as it was last written. -/
abbrev Logged :=
  -- The log is the state of the computation, so an overflow does not lose it.
  EStateM Overflow (List Event)

namespace Logged

/-- Writes an event to the log. -/
def emit (event : Event) : Logged Unit :=
  -- The log grows at its end.
  modify fun log => log ++ [event]

/-- A result that writes nothing, and whose overflow ends the computation. -/
def ofChecked (result : Checked α) : Logged α := fun log =>
  -- The log is passed on in both cases.
  match result with
  | .ok value => .ok value log
  | .error overflow => .error overflow log

end Logged

namespace Tree

variable {H : Hasher D}

/-- Builds a tree over leaf digests under a log. -/
def ofDigestsLogged (H : Hasher D) (padding : Padding) (digests : List D) :
    Logged (Costed (Except Error (Tree H))) :=
  match padding.capacity digests.length with
  | .error error => return ⟨.error error, {}⟩
  | .ok capacity => do
    let tree := arrange H capacity digests
    -- The warning is written before the tree is.
    if capacity ≠ digests.length then
      Logged.emit (.padded digests.length capacity)
    Logged.emit (.built digests.length capacity tree.depth (H.bytes tree.root))
    return ⟨.ok tree, { nodeHashes := UInt32.ofNatClamp (capacity - 1) }⟩

/-- Builds a tree over leaves under a log. -/
def buildLogged (H : Hasher D) (encoding : LeafEncoding α) (padding : Padding) (leaves : List α) :
    Logged (Costed (Except Error (Tree H))) :=
  match padding.capacity leaves.length with
  | .error error => return ⟨.error error, {}⟩
  | .ok _ => do
    let hashed ← Logged.ofChecked ((leaves.mapM (hashLeaf H encoding)).outcome {})
    match hashed.value with
    | .error error => return ⟨.error error, hashed.cost⟩
    | .ok digests =>
      let built ← ofDigestsLogged H padding digests
      -- The costs are summed when the events are written already.
      Logged.ofChecked (built.withEarlier hashed.cost)

/-- Opens a tree under a log. -/
def openAtLogged (tree : Tree H) (index : Nat) : Logged (Costed (Except Error (Opening D))) :=
  -- A refused index is not worth an event.
  if index < tree.leafCount then do
    let path := tree.siblingPath index
    Logged.emit (.opened index tree.depth)
    return .free (.ok ⟨UInt64.ofNat index, path⟩)
  else return .free (.error (.indexOutOfRange index tree.leafCount))

end Tree

section Verification

variable [DecidableEq D] (H : Hasher D) (encoding : LeafEncoding α) (root : D) (index : UInt64)
  (path : List D)

/-- Checks under a log that a path leads from a digest to the root. -/
def verifyDigestLogged (digest : D) : Logged (Costed (Except Error Bool)) :=
  match checkIndex index path.length with
  | .error error => return ⟨.error error, {}⟩
  | .ok () => do
    let computed := climb H digest index.toNat path
    -- Only a path that misses the root is worth an event.
    if computed ≠ root then
      Logged.emit (.mismatched index.toNat path.length (H.bytes root) (H.bytes computed))
    return ⟨.ok (computed = root), { nodeHashes := UInt32.ofNat path.length }⟩

/-- Checks under a log that a path leads from a leaf to the root. -/
def verifyLogged (leaf : α) : Logged (Costed (Except Error Bool)) :=
  match checkIndex index path.length with
  | .error error => return ⟨.error error, {}⟩
  | .ok () =>
    match encoding leaf with
    | .error error => return ⟨.error error, {}⟩
    | .ok bytes => do
      let charged ← Logged.ofChecked (Charge.outcome (Cost.chargeLeaf bytes.length) {})
      let judged ← verifyDigestLogged H root index path (H.leaf bytes)
      -- Here too the costs are summed last.
      Logged.ofChecked (judged.withEarlier charged.cost)

/-- Checks under a log that a path of the expected length leads from a leaf to the root. -/
def verifyAtDepthLogged (expected : Nat) (leaf : α) : Logged (Costed (Except Error Bool)) :=
  -- A path of another length is refused before anything is hashed.
  if path.length = expected then verifyLogged H encoding root index path leaf
  else return ⟨.error (.malformedProof (.siblingCount path.length expected)), {}⟩

end Verification

/-- Performs an operation under a log. -/
def Operation.performLogged [DecidableEq D] {H : Hasher D} :
    Operation H α → Logged (Costed (Except Error (Product H)))
  | .build encoding padding leaves => do
    return (← Tree.buildLogged H encoding padding leaves).mapOk .tree
  | .ofDigests padding digests => do
    return (← Tree.ofDigestsLogged H padding digests).mapOk .tree
  | .openAt tree index => do
    return (← tree.openAtLogged index).mapOk .opening
  | .verify encoding root opening leaf => do
    return (← verifyLogged H encoding root opening.index opening.path leaf).mapOk .verdict
  | .verifyAtDepth encoding expected root opening leaf => do
    return (← verifyAtDepthLogged H encoding root opening.index opening.path expected leaf).mapOk
      .verdict
  | .verifyDigest root opening digest => do
    return (← verifyDigestLogged H root opening.index opening.path digest).mapOk .verdict
  -- Writing and reading openings is not logged at all.
  | .encode opening => return .free ((opening.encode H).map .bytes)
  | .decode bytes => return .free ((Opening.decode H bytes).map .opening)

/-- An operation with the hasher and the leaves that it is about. -/
structure Call where
  /-- The type of digests. -/
  {Digest : Type}
  /-- The type of leaves. -/
  {Leaf : Type}
  /-- Digests can be compared. -/
  [decidable : DecidableEq Digest]
  /-- The hasher of the commitments. -/
  {hasher : Hasher Digest}
  /-- The operation that is performed. -/
  operation : Operation hasher Leaf

namespace Call

instance (call : Call) : DecidableEq call.Digest :=
  call.decidable

/-- The log after a call, however the call ends. -/
def logAfter (call : Call) (log : List Event) : List Event :=
  -- Whatever a call wrote stays written.
  match call.operation.performLogged.run log with
  | .ok _ written => written
  | .error _ written => written

/-- The log after some calls in turn, each of which is made whatever became of those before it. -/
def logAfterAll (calls : List Call) (log : List Event) : List Event :=
  -- Each call continues the log that the one before it left.
  calls.foldl (fun log call => call.logAfter log) log

end Call

end Merkle
