/-! Counts of hashing work, added with overflow checks, either as a sum or onto a running count. -/

namespace Merkle

/-- Hashing work that an operation performed. -/
structure Cost where
  /-- Hashes taken over the bytes of a leaf. -/
  leafHashes : UInt32 := 0
  /-- Merges of two child digests into their parent. -/
  nodeHashes : UInt32 := 0
  /-- Leaf bytes given to the hash function. -/
  hashedBytes : UInt64 := 0
  deriving DecidableEq

/-- A counter would leave the range of its word. -/
inductive Overflow where
  /-- Some counter of a cost cannot hold its sum. -/
  | counter
  deriving DecidableEq

/-- The wording of an overflow. -/
def Overflow.message : Overflow → String
  | .counter => "attempt to add with overflow"

/-- A result that an overflowing counter withholds. -/
abbrev Checked :=
  -- Sums are checked, so a counter never wraps around.
  Except Overflow

/-- A computation on a running cost, which an overflow leaves as it was last updated. -/
abbrev Charge :=
  -- The state survives an overflow, so what was charged before it can still be read.
  EStateM Overflow Cost

namespace Cost

/-- The sum of two 32-bit counters. -/
def sum32 (left right : UInt32) : Checked UInt32 :=
  -- The sum is formed without bound and has to fit the word.
  if left.toNat + right.toNat < UInt32.size then .ok (left + right) else .error .counter

/-- A 64-bit counter increased by any number. -/
def sum64 (counter : UInt64) (extra : Nat) : Checked UInt64 :=
  -- The added number need not be a word itself, as with the length of a list.
  if counter.toNat + extra < UInt64.size then .ok (counter + UInt64.ofNat extra)
  else .error .counter

/-- The sum of two costs, counter by counter. -/
def add (left right : Cost) : Checked Cost := do
  -- Any counter that does not fit withholds the whole sum.
  let leafHashes ← sum32 left.leafHashes right.leafHashes
  let nodeHashes ← sum32 left.nodeHashes right.nodeHashes
  let hashedBytes ← sum64 left.hashedBytes right.hashedBytes.toNat
  return { leafHashes, nodeHashes, hashedBytes }

/-- Hashes of both kinds together. -/
def hashes (cost : Cost) : UInt64 :=
  -- Two 32-bit counters always fit a 64-bit sum.
  cost.leafHashes.toUInt64 + cost.nodeHashes.toUInt64

/-- Replaces the running cost, or overflows and leaves it alone. -/
def update (next : Cost → Checked Cost) : Charge Unit := fun running =>
  -- The new cost is computed before the running one is replaced.
  match next running with
  | .ok cost => .ok () cost
  | .error overflow => .error overflow running

/-- Counts more leaf hashes. -/
def chargeLeafHashes (count : UInt32) : Charge Unit :=
  update fun running => do
    return { running with leafHashes := ← sum32 running.leafHashes count }

/-- Counts more merges. -/
def chargeNodeHashes (count : UInt32) : Charge Unit :=
  update fun running => do
    return { running with nodeHashes := ← sum32 running.nodeHashes count }

/-- Counts more leaf bytes. -/
def chargeBytes (count : Nat) : Charge Unit :=
  -- A length is added in one go, whatever it is, so it may overflow on its own.
  update fun running => do
    return { running with hashedBytes := ← sum64 running.hashedBytes count }

/-- Adds a cost to the running one. -/
def charge (extra : Cost) : Charge Unit := do
  -- Counters are updated in turn, so an overflow keeps the sums made before it.
  chargeLeafHashes extra.leafHashes
  chargeNodeHashes extra.nodeHashes
  chargeBytes extra.hashedBytes.toNat

/-- Counts one hash over a leaf of the given length. -/
def chargeLeaf (length : Nat) : Charge Unit := do
  -- The call is counted before its bytes.
  chargeLeafHashes 1
  chargeBytes length

end Cost

end Merkle
