import Merkle.Hasher

/-! Which hashers have canonical digests, and what reading gives back of a written digest. -/

namespace Merkle.Hasher

/-- A byte string is read as the digest that consists of exactly its bytes. -/
theorem exactly?_eq_some_iff {size : Nat} {bytes : Bytes} {digest : Vector UInt8 size} :
    exactly? size bytes = some digest ↔ digest.toList = bytes := by
  unfold exactly?
  constructor
  · intro read
    -- Only a string of the right size is read, and its bytes are kept.
    split at read
    · simp only [Option.some.injEq] at read
      subst read
      simp
    · cases read
  · rintro rfl
    simp [Vector.toList]

/-- Digests that are the output of a hash function are canonical. -/
theorem canonical_untagged {size : Nat} (hash : Bytes → Vector UInt8 size) :
    (untagged hash).Canonical where
  -- A digest is a vector of bytes, so it is determined by its list and its length.
  length_bytes digest := by simp [untagged]
  bytes_inj _ _ same := Vector.toList_inj.mp same
  bytes_ofBytes? _ _ read := exactly?_eq_some_iff.mp read

/-- A merge is the digest of the joined bytes, as if these were the bytes of a leaf. -/
def MergesBytes (H : Hasher D) : Prop :=
  -- Such a hasher cannot tell a node from a leaf.
  ∀ left right, H.leaf (H.bytes left ++ H.bytes right) = H.merge left right

/-- Without tags, joined digests and leaves are hashed alike. -/
theorem mergesBytes_untagged {size : Nat} (hash : Bytes → Vector UInt8 size) :
    (untagged hash).MergesBytes :=
  -- Both are the hash of the same bytes.
  fun _ _ => rfl

namespace Canonical

variable {H : Hasher D}

/-- Refusing some digests leaves the others canonical. -/
theorem reading (canonical : H.Canonical) (allowed : D → Bool) :
    (H.reading allowed).Canonical where
  length_bytes := canonical.length_bytes
  bytes_inj := canonical.bytes_inj
  bytes_ofBytes? bytes digest read := by
    -- Whatever passes the test was read by the hasher itself.
    obtain ⟨accepted, -⟩ := Option.filter_eq_some_iff.mp read
    exact canonical.bytes_ofBytes? bytes digest accepted

/-- The bytes of a digest are read as that digest, or refused. -/
theorem ofBytes?_bytes (canonical : H.Canonical) (digest : D) :
    H.ofBytes? (H.bytes digest) = some digest ∨ H.ofBytes? (H.bytes digest) = none := by
  cases read : H.ofBytes? (H.bytes digest) with
  | none => exact .inr rfl
  | some other =>
    -- Another digest would have the same bytes.
    have same := canonical.bytes_ofBytes? _ _ read
    exact .inl (congrArg some (canonical.bytes_inj _ _ same))

end Canonical

end Merkle.Hasher
