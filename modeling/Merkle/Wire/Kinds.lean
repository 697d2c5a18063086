import Merkle.Leaf
import Merkle.Wire.Sorted
import Merkle.Wire.Value

/-! Values of composite kinds, and the leaf encoding that writes structured values. -/

namespace Merkle.Wire

namespace Value

/-- A floating-point number of 32 bits, by its bits. -/
def float32 (bits : UInt32) : Value :=
  -- The bits are written as they are, so every pattern of a NaN keeps its own bytes.
  .nat 4 bits.toNat

/-- A floating-point number of 64 bits, by its bits. -/
def float64 (bits : UInt64) : Value :=
  -- The bits are written as they are, so every pattern of a NaN keeps its own bytes.
  .nat 8 bits.toNat

/-- A successful result. -/
def success (value : Value) : Value :=
  -- Success is the first of the two alternatives of a result.
  .variant 0 [value]

/-- A failed result. -/
def failure (value : Value) : Value :=
  -- Failure is the second of the two alternatives of a result.
  .variant 1 [value]

/-- A map from texts, whose entries are ordered by the code points of their keys. -/
def ofTextMap (entries : List (String × Value)) : Value :=
  -- The order does not depend on how the map was filled.
  .sequence ((sortEntries entries).map fun (key, value) => .tuple [.string key, value])

/-- A map from 64-bit integers, whose entries are ordered by their keys. -/
def ofIntMap (entries : List (Int × Value)) : Value :=
  -- Negative keys come first, although their bytes are greater.
  .sequence ((sortEntries entries).map fun (key, value) => .tuple [.int 8 key, value])

/-- A set of texts in the order of their code points. -/
def ofTextSet (items : List String) : Value :=
  -- A set is ordered like a map whose entries carry nothing.
  .sequence ((sortEntries (items.map fun item => (item, ()))).map fun (item, _) => .string item)

/-- A range of 32-bit integers by its two ends. -/
def range (first last : Int) : Value :=
  -- The two ends are fields of fixed width, so no length is written.
  .tuple [.int 4 first, .int 4 last]

/-- A length of time, where full seconds are carried out of the nanoseconds. -/
def duration (seconds nanoseconds : Nat) : Value :=
  let second := 1000000000
  .tuple [.nat 8 (seconds + nanoseconds / second), .nat 4 (nanoseconds % second)]

/-- An internet address of four or of sixteen bytes. -/
def address (bytes : Bytes) : Value :=
  -- The shorter kind of address is the first alternative.
  .variant (if bytes.length = 4 then 0 else 1) (bytes.map fun byte => .nat 1 byte.toNat)

/-- A path in a file system, which has bytes only when it is text. -/
def path (bytes : Bytes) : Value :=
  -- A system may allow names that are not UTF-8, and these have no encoding.
  match String.fromUTF8? ⟨bytes.toArray⟩ with
  | some text => .string text
  | none => .invalid .pathCharacters

end Value

/-- The bytes of a structured value as a leaf. -/
def leafEncoding : LeafEncoding Value := fun value =>
  -- A fault of the format becomes an error about the leaf.
  value.encode.mapError fun fault => .encoding s!"bincode encode error: {fault.message}"

end Merkle.Wire
