import Merkle.Cost

/-! The counters of a cost one by one, and the ways to add up many costs. -/

namespace Merkle

/-- One of the counters of a cost. -/
inductive Counter where
  /-- Hashes over leaves. -/
  | leafHashes
  /-- Merges of two digests. -/
  | nodeHashes
  /-- Leaf bytes that were hashed. -/
  | hashedBytes
  deriving DecidableEq

namespace Counter

/-- The value of the counter in a cost. -/
def read : Counter → Cost → Nat
  -- All counters are read as unbounded numbers, whatever their width.
  | .leafHashes, cost => cost.leafHashes.toNat
  | .nodeHashes, cost => cost.nodeHashes.toNat
  | .hashedBytes, cost => cost.hashedBytes.toNat

/-- The number of values that the counter can have. -/
def size : Counter → Nat
  -- Calls are counted in 32 bits and bytes in 64.
  | .leafHashes => UInt32.size
  | .nodeHashes => UInt32.size
  | .hashedBytes => UInt64.size

/-- The place of the counter among those that are charged in turn. -/
def place : Counter → Nat
  -- This is the order in which a cost is charged onto a running one.
  | .leafHashes => 0
  | .nodeHashes => 1
  | .hashedBytes => 2

/-- The counter cannot hold the sum of its values in two costs. -/
def Overflows (counter : Counter) (left right : Cost) : Prop :=
  -- A sum that reaches the number of values is the first that does not fit.
  counter.size ≤ counter.read left + counter.read right

/-- The counter is the first of those charged in turn that cannot hold its sum. -/
def OverflowsFirst (counter : Counter) (left right : Cost) : Prop :=
  -- Counters of earlier places are charged before, and these succeed.
  counter.Overflows left right ∧
    ∀ earlier : Counter, earlier.place < counter.place → ¬earlier.Overflows left right

/-- What the counter has in all of some costs together, however much that is. -/
def tally (counter : Counter) (costs : List Cost) : Nat :=
  -- The sum is taken over unbounded numbers, which makes it independent of the order.
  costs.foldr (fun cost total => counter.read cost + total) 0

end Counter

namespace Cost

/-- A cost with the sums of two costs in the counters before one, and the values of the first cost
in that one and in those after it. -/
def AddedBefore (first : Counter) (start extra kept : Cost) : Prop :=
  -- The counter that overflows is left alone like those that are never reached.
  ∀ counter : Counter, counter.read kept =
    if counter.place < first.place then counter.read start + counter.read extra
    else counter.read start

/-- A cost increased by some more costs, from first to last. -/
def sumFrom (start : Cost) (costs : List Cost) : Checked Cost :=
  -- The first sum that does not fit withholds all later ones.
  costs.foldlM add start

/-- A way to add up some costs, always two of them at a time. -/
inductive Bracketing where
  /-- A cost by itself. -/
  | single (cost : Cost)
  /-- The sum of the costs of two parts. -/
  | pair (left right : Bracketing)

namespace Bracketing

/-- The costs that are added up, from left to right. -/
def costs : Bracketing → List Cost
  -- The order of the costs is kept, and only the bracketing varies.
  | .single cost => [cost]
  | .pair left right => left.costs ++ right.costs

/-- The sum that is added up in this way, unless one of the sums on the way overflows. -/
def total : Bracketing → Checked Cost
  -- The inner sums are formed first, and any of them may overflow.
  | .single cost => .ok cost
  | .pair left right => do
    let first ← left.total
    let second ← right.total
    first.add second

end Bracketing

end Cost

end Merkle
