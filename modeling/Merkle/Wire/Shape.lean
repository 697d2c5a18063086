import Merkle.Wire.Value

/-! The shapes of structured values, which say what two leaves of one type have in common. -/

namespace Merkle.Wire

/-- The type of a structured value; a map or set has the shape of the sequence that it becomes. -/
inductive Shape where
  /-- Truth values. -/
  | bool
  /-- Numbers of some bytes. -/
  | nat (width : Nat)
  /-- Signed numbers of some bytes. -/
  | int (width : Nat)
  /-- Characters. -/
  | char
  /-- Texts. -/
  | string
  /-- Byte strings. -/
  | bytes
  /-- Optional values. -/
  | option (item : Shape)
  /-- A fixed number of values, each of its own shape. -/
  | tuple (items : List Shape)
  /-- Any number of values of one shape. -/
  | sequence (item : Shape)
  /-- Numbered alternatives, each with its values. -/
  | sum (alternatives : List (List Shape))

namespace Shape

mutual

/-- The value has the shape, its numbers are in range, and its lengths fit a 64-bit word. -/
def Admits : Shape → Value → Prop
  | .bool, .bool _ => True
  | .nat width, .nat other value => other = width ∧ value < Nat.pow 256 width
  | .int width, .int other value =>
    -- Two's complement reaches one number further below zero than above.
    let span : Int := Nat.pow 256 width
    other = width ∧ -span ≤ 2 * value ∧ 2 * value < span
  | .char, .char _ => True
  | .string, .string value => (Bytes.ofText value).length < UInt64.size
  | .bytes, .bytes value => value.length < UInt64.size
  | .option _, .absent => True
  | .option item, .present value => item.Admits value
  | .tuple items, .tuple values => AdmitsAll items values
  | .sequence item, .sequence values =>
    values.length < UInt64.size ∧ ∀ value ∈ values, item.Admits value
  | .sum alternatives, .variant number values =>
    number < UInt32.size ∧ AdmitsAlternative alternatives number values
  | _, _ => False

/-- As many values as shapes, each of the shape in its place. -/
def AdmitsAll : List Shape → List Value → Prop
  -- Both lists end together, since a tuple does not write how many items it has.
  | [], [] => True
  | item :: items, value :: values => item.Admits value ∧ AdmitsAll items values
  | _, _ => False

/-- The values of the alternative with the given number. -/
def AdmitsAlternative : List (List Shape) → Nat → List Value → Prop
  -- A number beyond the alternatives has no values.
  | [], _, _ => False
  | items :: _, 0, values => AdmitsAll items values
  | _ :: rest, number + 1, values => AdmitsAlternative rest number values

end

end Shape

end Merkle.Wire
