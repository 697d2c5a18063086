import Merkle.Bytes

/-! What a commitment needs from a hash function, and two ways to build it from one over bytes. -/

namespace Merkle

/-- The hash functions of a commitment, over a type of digests. -/
structure Hasher (D : Type) where
  /-- The width of a digest in bytes. -/
  width : Nat
  /-- The placeholder digest of an empty leaf slot. -/
  zero : D
  /-- The digest of an encoded leaf. -/
  leaf : Bytes → D
  /-- The digest of a node from those of its left and right child. -/
  merge : D → D → D
  /-- The bytes of a digest. -/
  bytes : D → Bytes
  /-- The digest with the given bytes, where it is accepted. -/
  ofBytes? : Bytes → Option D

namespace Hasher

/-- Every digest is written in the announced number of bytes. -/
def FixedWidth (H : Hasher D) : Prop :=
  -- Nothing is said of the bytes but how many they are.
  ∀ digest, (H.bytes digest).length = H.width

/-- Nothing but the bytes of a digest is read as the digest. -/
def ReadsExactly (H : Hasher D) : Prop :=
  -- Some digests may be refused, but none is read from other bytes.
  ∀ bytes digest, H.ofBytes? bytes = some digest → H.bytes digest = bytes

/-- Digests and their bytes determine each other. -/
structure Canonical (H : Hasher D) : Prop where
  /-- Every digest has the announced width. -/
  length_bytes : H.FixedWidth
  /-- No two digests have the same bytes. -/
  bytes_inj : ∀ first second, H.bytes first = H.bytes second → first = second
  /-- A digest read from bytes has exactly those bytes. -/
  bytes_ofBytes? : H.ReadsExactly

/-- A byte string of exactly the given size, as a digest. -/
def exactly? (size : Nat) (bytes : Bytes) : Option (Vector UInt8 size) :=
  -- The proof that the sizes agree goes into the vector.
  if fits : bytes.length = size then some ⟨bytes.toArray, by simp [fits]⟩ else none

/-- The hasher that gives leaves and joined digests to a hash function as they are. -/
def untagged {size : Nat} (hash : Bytes → Vector UInt8 size) : Hasher (Vector UInt8 size) where
  width := size
  zero := Vector.replicate size 0
  leaf := hash
  -- A leaf of two digests is hashed as the node above them.
  merge left right := hash (left.toList ++ right.toList)
  bytes digest := digest.toList
  ofBytes? := exactly? size

/-- The byte that is hashed in front of a leaf. -/
def leafTag : UInt8 := 0x00

/-- The byte that is hashed in front of two child digests. -/
def nodeTag : UInt8 := 0x01

/-- The bytes hashed for a leaf, behind their tag. -/
def leafMessage (bytes : Bytes) : Bytes :=
  -- The tag is one byte, so the bytes of the leaf follow unchanged.
  leafTag :: bytes

/-- The bytes hashed for a node, its two child digests behind their tag. -/
def nodeMessage {size : Nat} (left right : Vector UInt8 size) : Bytes :=
  -- Digests have one size, so it is clear where the left one ends.
  nodeTag :: (left.toList ++ right.toList)

/-- The hasher that tells leaves from nodes by a tag in front of the hashed bytes. -/
def tagged {size : Nat} (hash : Bytes → Vector UInt8 size) : Hasher (Vector UInt8 size) where
  width := size
  zero := Vector.replicate size 0
  -- Both messages begin with a tag, which keeps leaves and nodes apart.
  leaf bytes := hash (leafMessage bytes)
  merge left right := hash (nodeMessage left right)
  bytes digest := digest.toList
  ofBytes? := exactly? size

/-- The same hasher, reading only the digests that a test allows. -/
def reading (H : Hasher D) (allowed : D → Bool) : Hasher D :=
  -- Hashing itself may still produce a digest that is never read.
  { H with ofBytes? := fun bytes => (H.ofBytes? bytes).filter allowed }

end Hasher

end Merkle
