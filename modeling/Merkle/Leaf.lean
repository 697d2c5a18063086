import Merkle.Bytes
import Merkle.Error

/-! Encodings of leaves, which fix the bytes that are hashed for each of them. -/

namespace Merkle

/-- The canonical bytes of a leaf, or the reason why it has none. -/
abbrev LeafEncoding (α : Type) := α → Except Error Bytes

namespace LeafEncoding

/-- The encoding by a function that never fails. -/
def ofFunction (write : α → Bytes) : LeafEncoding α :=
  -- Every leaf has bytes, so no leaf is refused.
  fun leaf => .ok (write leaf)

/-- A byte string is its own encoding. -/
def raw : LeafEncoding Bytes :=
  ofFunction id

/-- The bytes from last to first. -/
def reversed : LeafEncoding Bytes :=
  ofFunction List.reverse

/-- The length as a 32-bit word, then the bytes. -/
def lengthPrefixed : LeafEncoding Bytes :=
  -- A length beyond 32 bits loses its high bits.
  ofFunction fun leaf => Bytes.bigEndian 4 leaf.length ++ leaf

/-- The bytes twice. -/
def doubled : LeafEncoding Bytes :=
  ofFunction fun leaf => leaf ++ leaf

/-- No bytes at all, whatever the leaf. -/
def erased : LeafEncoding α :=
  -- All leaves have the same digest.
  ofFunction fun _ => []

/-- The raw bytes of every leaf but the empty one. -/
def nonempty : LeafEncoding Bytes := fun leaf =>
  -- The reason is the wording that a refused leaf is reported with.
  if leaf.isEmpty then .error (.encoding "empty leaf") else raw leaf

/-- The raw bytes of every leaf up to a limit. -/
def upTo (limit : Nat) : LeafEncoding Bytes := fun leaf =>
  -- A leaf of just the limit is written.
  if limit < leaf.length then
    .error (.encoding s!"leaf of {leaf.length} bytes over limit")
  else raw leaf

end LeafEncoding

end Merkle
