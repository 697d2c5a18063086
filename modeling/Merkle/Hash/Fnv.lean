import Merkle.Bytes

/-! The 32-bit FNV-1a checksum, a short stand-in where collisions are welcome. -/

namespace Merkle.Hash.Fnv

/-- The checksum of a byte string as a word. -/
def checksum (message : Bytes) : UInt32 :=
  -- Each byte is mixed in before the multiplication.
  message.foldl (fun word byte => (word ^^^ byte.toUInt32) * 0x01000193) 0x811c9dc5

/-- The checksum of a byte string as four bytes, most significant first. -/
def hash (message : Bytes) : Vector UInt8 4 :=
  -- A checksum of 32 bits fills four bytes.
  Bytes.toVector 4 (Bytes.bigEndian 4 (checksum message).toNat)

end Merkle.Hash.Fnv
