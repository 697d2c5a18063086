import Merkle.Hash.Blake2b
import Merkle.Hash.Blake3
import Merkle.Hash.Fnv
import Merkle.Hasher

/-! Hashers over cryptographic hash functions, and two over a checksum that is quick to compute. -/

namespace Merkle.Hasher

/-- BLAKE3 without tags. -/
def blake3 : Hasher (Vector UInt8 32) :=
  untagged Hash.Blake3.hash

/-- BLAKE3 with a tag for leaves and a tag for nodes. -/
def taggedBlake3 : Hasher (Vector UInt8 32) :=
  tagged Hash.Blake3.hash

/-- BLAKE2b with 64-byte digests, without tags. -/
def blake2b : Hasher (Vector UInt8 64) :=
  untagged Hash.Blake2b.hash

/-- The four-byte FNV-1a checksum, without tags. -/
def fnv : Hasher (Vector UInt8 4) :=
  untagged Hash.Fnv.hash

/-- The checksum hasher that refuses to read a digest beginning with the highest byte. -/
def canonicalFnv : Hasher (Vector UInt8 4) :=
  fnv.reading fun digest => digest[0] != 0xff

end Merkle.Hasher
