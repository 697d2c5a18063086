import Merkle.Opening.Verify
import Merkle.Tree.Build

/-! The calls of the library as data, each with the report that it ends with. -/

namespace Merkle

/-- A call of the library, over leaves of one type and one hasher. -/
inductive Operation {D : Type} (H : Hasher D) (α : Type) where
  /-- Build a tree over leaves. -/
  | build (encoding : LeafEncoding α) (padding : Padding) (leaves : List α)
  /-- Build a tree over leaf digests. -/
  | ofDigests (padding : Padding) (digests : List D)
  /-- Open a tree at an index. -/
  | openAt (tree : Tree H) (index : Nat)
  /-- Verify a leaf. -/
  | verify (encoding : LeafEncoding α) (root : D) (opening : Opening D) (leaf : α)
  /-- Verify a leaf at a known depth. -/
  | verifyAtDepth (encoding : LeafEncoding α) (expected : Nat) (root : D) (opening : Opening D)
      (leaf : α)
  /-- Verify the digest of a leaf. -/
  | verifyDigest (root : D) (opening : Opening D) (digest : D)
  /-- Write an opening. -/
  | encode (opening : Opening D)
  /-- Read an opening. -/
  | decode (bytes : Bytes)

/-- What an operation produces. -/
inductive Product {D : Type} (H : Hasher D) where
  /-- A tree. -/
  | tree (tree : Tree H)
  /-- An opening. -/
  | opening (opening : Opening D)
  /-- The verdict of a verification. -/
  | verdict (valid : Bool)
  /-- The bytes of an opening. -/
  | bytes (bytes : Bytes)

namespace Operation

variable {H : Hasher D}

/-- Performs an operation. -/
def perform [DecidableEq D] : Operation H α → Checked (Report (Product H))
  | .build encoding padding leaves => do
    return (← Tree.build H encoding padding leaves).map .tree
  | .ofDigests padding digests => .ok ((Tree.ofDigests H padding digests).map .tree)
  | .openAt tree index => .ok ((tree.openAt index).map .opening)
  | .verify encoding root opening leaf => do
    return (← opening.verify H encoding root leaf).map .verdict
  | .verifyAtDepth encoding expected root opening leaf => do
    return (← opening.verifyAtDepth H encoding expected root leaf).map .verdict
  | .verifyDigest root opening digest =>
    .ok ((Merkle.verifyDigest H root opening.index opening.path digest).map .verdict)
  -- Reading and writing take no hash and report nothing.
  | .encode opening => .ok { value := (opening.encode H).map .bytes, cost := {} }
  | .decode bytes => .ok { value := (Opening.decode H bytes).map .opening, cost := {} }

end Operation

end Merkle
