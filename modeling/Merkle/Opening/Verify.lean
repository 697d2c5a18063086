import Merkle.Leaf
import Merkle.Opening
import Merkle.Path
import Merkle.Report

/-! Verification of openings, which needs the root but no tree. -/

namespace Merkle

/-- Checks that a path leads from a digest to the root. -/
def verifyDigest [DecidableEq D] (H : Hasher D) (root : D) (index : UInt64) (path : List D)
    (digest : D) : Report Bool :=
  match checkIndex index path.length with
  | .error error => .failure error {}
  | .ok () =>
    let computed := climb H digest index.toNat path
    -- A wrong digest is a verdict, not an error, and only it is reported.
    { value := .ok (computed = root)
      cost := { nodeHashes := UInt32.ofNat path.length }
      events :=
        if computed = root then []
        else [.mismatched index.toNat path.length (H.bytes root) (H.bytes computed)] }

/-- Checks that a path leads from a leaf to the root. -/
def verify [DecidableEq D] (H : Hasher D) (encoding : LeafEncoding α) (root : D) (index : UInt64)
    (path : List D) (leaf : α) : Checked (Report Bool) :=
  match checkIndex index path.length with
  | .error error => .ok (.failure error {})
  | .ok () =>
    match encoding leaf with
    | .error error => .ok (.failure error {})
    | .ok bytes => do
      -- The leaf is charged first, and the path is charged onto it.
      let charged ← Charge.outcome (Cost.chargeLeaf bytes.length) {}
      (verifyDigest H root index path (H.leaf bytes)).withEarlier charged.cost

/-- Checks that a path of the expected length leads from a leaf to the root. -/
def verifyAtDepth [DecidableEq D] (H : Hasher D) (encoding : LeafEncoding α) (expected : Nat)
    (root : D) (index : UInt64) (path : List D) (leaf : α) : Checked (Report Bool) :=
  -- The length is tested before anything else.
  if path.length = expected then verify H encoding root index path leaf
  else .ok (.failure (.malformedProof (.siblingCount path.length expected)) {})

namespace Opening

/-- Checks that an opening leads from a leaf to the root. -/
def verify [DecidableEq D] (H : Hasher D) (encoding : LeafEncoding α) (root : D)
    (opening : Opening D) (leaf : α) : Checked (Report Bool) :=
  Merkle.verify H encoding root opening.index opening.path leaf

/-- Checks that an opening of the expected depth leads from a leaf to the root. -/
def verifyAtDepth [DecidableEq D] (H : Hasher D) (encoding : LeafEncoding α) (expected : Nat)
    (root : D) (opening : Opening D) (leaf : α) : Checked (Report Bool) :=
  Merkle.verifyAtDepth H encoding expected root opening.index opening.path leaf

end Opening

end Merkle
