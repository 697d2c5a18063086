/-! The limits that openings keep to, the causes of failure, and the wording of each. -/

namespace Merkle

/-- The longest path that is accepted, so that positions below it are numbered in a 64-bit word. -/
def maxDepth : Nat := 63

/-- The length of the index and the depth in front of an encoded path. -/
def headerLength : Nat := 9

/-- Why a sequence of leaves cannot become a tree. -/
inductive InputFault where
  /-- There is no leaf. -/
  | noLeaves
  /-- Padding is refused and would be needed. -/
  | notPowerOfTwo (count : Nat)
  /-- The slots of the tree cannot be numbered in 64 bits. -/
  | tooManyLeaves (count : Nat)
  deriving DecidableEq

/-- Why an opening has the wrong shape. -/
inductive ProofFault where
  /-- The path is not as long as the verifier requires. -/
  | siblingCount (actual expected : Nat)
  /-- The path is longer than any tree is deep. -/
  | pathDepth (depth : Nat)
  /-- The bytes end within the header. -/
  | headerLength (actual : Nat)
  /-- The header announces a path longer than any tree is deep. -/
  | openingDepth (depth : Nat)
  /-- The bytes are not as many as the header announces. -/
  | openingLength (expected actual : Nat)
  /-- The bytes of a sibling are no digest. -/
  | digestBytes
  deriving DecidableEq

/-- Why an operation on commitments fails. -/
inductive Error where
  /-- The leaves or the padding rule cannot produce a tree. -/
  | invalidInput (fault : InputFault)
  /-- An index lies outside the range that ends before the bound. -/
  | indexOutOfRange (index bound : Nat)
  /-- A path or an encoded opening has the wrong shape. -/
  | malformedProof (fault : ProofFault)
  /-- A leaf has no canonical bytes, for the reason given by its encoding. -/
  | encoding (reason : String)
  deriving DecidableEq

/-- The wording of a fault in the leaves. -/
def InputFault.message : InputFault → String
  -- A refused number of leaves is part of the text.
  | .noLeaves => "leaf sequence must not be empty"
  | .notPowerOfTwo count => s!"leaf count {count} is not a power of two"
  | .tooManyLeaves count => s!"leaf count {count} is too large"

/-- The wording of a fault in an opening. -/
def ProofFault.message : ProofFault → String
  -- Where two numbers disagree, both of them are shown.
  | .siblingCount actual expected => s!"path has {actual} siblings, expected {expected}"
  | .pathDepth depth => s!"path depth {depth} exceeds maximum {maxDepth}"
  | .headerLength actual =>
    s!"opening needs at least {Merkle.headerLength} header bytes, got {actual}"
  | .openingDepth depth => s!"opening depth {depth} exceeds maximum {maxDepth}"
  | .openingLength expected actual => s!"opening expected {expected} bytes, got {actual}"
  | .digestBytes => "bad digest bytes"

/-- The wording of an error. -/
def Error.message : Error → String
  -- The kind of the error comes first, then what its fault says.
  | .invalidInput fault => s!"invalid input: {fault.message}"
  | .indexOutOfRange index bound => s!"index {index} out of range (must be < {bound})"
  | .malformedProof fault => s!"malformed proof: {fault.message}"
  | .encoding reason => s!"leaf encoding failed: {reason}"

end Merkle
