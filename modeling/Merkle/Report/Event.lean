import Merkle.Bytes

/-! The events that operations report, with the fields of each. -/

namespace Merkle

/-- How much attention an event asks for. -/
inductive Level where
  /-- A detail of one call. -/
  | trace
  /-- The outcome of an operation. -/
  | debug
  /-- An outcome that may not be what was wanted. -/
  | warn
  deriving DecidableEq

/-- The written name of a level. -/
def Level.name : Level → String
  -- Names are in capitals, as log lines show them.
  | .trace => "TRACE"
  | .debug => "DEBUG"
  | .warn => "WARN"

/-- Something that an operation reports while it works. -/
inductive Event where
  /-- Empty slots were added after the leaves. -/
  | padded (leafCount capacity : Nat)
  /-- A tree was built. -/
  | built (leafCount capacity depth : Nat) (root : Bytes)
  /-- A leaf was opened. -/
  | opened (index depth : Nat)
  /-- A path led to another digest than the root. -/
  | mismatched (index depth : Nat) (expected computed : Bytes)
  deriving DecidableEq

namespace Event

/-- The level of an event. -/
def level : Event → Level
  -- Only padding calls for attention, since the tree then holds slots without a leaf.
  | .padded .. => .warn
  | .built .. => .debug
  | .opened .. => .trace
  | .mismatched .. => .debug

/-- The wording of an event. -/
def message : Event → String
  -- The wording is fixed, and what varies is in the fields.
  | .padded .. => "merkle tree padded with phantom zero-digest leaves"
  | .built .. => "built merkle tree"
  | .opened .. => "opened authentication path"
  | .mismatched .. => "authentication path does not reproduce root"

/-- The named fields of an event, numbers in decimal and digests in hexadecimal. -/
def fields : Event → List (String × String)
  | .padded leafCount capacity =>
    [("leaf_count", toString leafCount), ("capacity", toString capacity)]
  | .built leafCount capacity depth root =>
    [("leaf_count", toString leafCount), ("capacity", toString capacity),
      ("depth", toString depth), ("root", Bytes.toHex root)]
  | .opened index depth => [("index", toString index), ("depth", toString depth)]
  -- A mismatch shows both digests, the one expected and the one computed.
  | .mismatched index depth expected computed =>
    [("index", toString index), ("depth", toString depth),
      ("expected", Bytes.toHex expected), ("computed", Bytes.toHex computed)]

end Event

end Merkle
