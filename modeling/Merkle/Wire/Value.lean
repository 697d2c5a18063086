import Merkle.Bytes
import Merkle.Text.Quoted

/-! Structured leaves, and their bytes in words of fixed width, most significant byte first. -/

namespace Merkle.Wire

/-- Why a value has no bytes. -/
inductive Fault where
  /-- The value gives a reason of its own. -/
  | stated (reason : String)
  /-- The value gives the one reason that its kind has. -/
  | fixed (reason : String)
  /-- A path is not text. -/
  | pathCharacters
  deriving DecidableEq

/-- The wording of a fault, where reasons are quoted. -/
def Fault.message : Fault → String
  -- The word in front tells a reason that the value gives from one that its kind has.
  | .stated reason => s!"OtherString({Text.quoted reason})"
  | .fixed reason => s!"Other({Text.quoted reason})"
  | .pathCharacters => "InvalidPathCharacters"

/-- A structured value. -/
inductive Value where
  /-- A truth value. -/
  | bool (value : Bool)
  /-- A number of `width` bytes. -/
  | nat (width value : Nat)
  /-- A signed number of `width` bytes. -/
  | int (width : Nat) (value : Int)
  /-- A character. -/
  | char (value : Char)
  /-- A text of any length. -/
  | string (value : String)
  /-- A byte string of any length. -/
  | bytes (value : Bytes)
  /-- An optional value that is missing. -/
  | absent
  /-- An optional value that is there. -/
  | present (value : Value)
  /-- A fixed number of values. -/
  | tuple (items : List Value)
  /-- Any number of values. -/
  | sequence (items : List Value)
  /-- One of several numbered alternatives, with its values. -/
  | variant (number : Nat) (items : List Value)
  /-- A value without bytes. -/
  | invalid (fault : Fault)

/-- A length as the word that precedes what it counts. -/
def lengthWord (length : Nat) : Bytes :=
  -- All lengths have eight bytes, so short values are not written shorter.
  Bytes.bigEndian 8 length

namespace Value

mutual

/-- The bytes of a value, unless some part of it has none. -/
def encode : Value → Except Fault Bytes
  -- Texts, byte strings and sequences are preceded by their length, and nothing else is.
  | .bool value => .ok [if value then 1 else 0]
  | .nat width value => .ok (Bytes.bigEndian width value)
  | .int width value => .ok (Bytes.signedBigEndian width value)
  | .char value => .ok (String.utf8EncodeChar value)
  | .string value =>
    .ok (lengthWord (Bytes.ofText value).length ++ Bytes.ofText value)
  | .bytes value => .ok (lengthWord value.length ++ value)
  | .absent => .ok [0]
  | .present value => do return 1 :: (← value.encode)
  | .tuple items => encodeAll items
  | .sequence items => do return lengthWord items.length ++ (← encodeAll items)
  | .variant number items => do return Bytes.bigEndian 4 number ++ (← encodeAll items)
  | .invalid fault => .error fault

/-- The bytes of some values one after another, or the fault of the first that has none. -/
def encodeAll : List Value → Except Fault Bytes
  -- Nothing separates the parts, so each has to delimit itself.
  | [] => .ok []
  | value :: rest => do return (← value.encode) ++ (← encodeAll rest)

end

end Value

end Merkle.Wire
