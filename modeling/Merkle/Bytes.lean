/-! Byte strings, their hexadecimal text, and words written in either byte order. -/

namespace Merkle

/-- A byte string. -/
abbrev Bytes := List UInt8

namespace Bytes

/-- The lower-case hexadecimal text of a byte string, two digits a byte. -/
def toHex (bytes : Bytes) : String :=
  -- The high half of each byte is written before its low half.
  String.ofList (bytes.flatMap fun byte =>
    [Nat.digitChar (byte.toNat / 16), Nat.digitChar (byte.toNat % 16)])

/-- The value of a hexadecimal digit of either case. -/
def hexValue? (digit : Char) : Option Nat :=
  -- Digits come first, and letters count on from ten.
  if '0' ≤ digit ∧ digit ≤ '9' then some (digit.toNat - '0'.toNat)
  else if 'a' ≤ digit ∧ digit ≤ 'f' then some (digit.toNat - 'a'.toNat + 10)
  else if 'A' ≤ digit ∧ digit ≤ 'F' then some (digit.toNat - 'A'.toNat + 10)
  else none

/-- The bytes that a list of hexadecimal digits spells, two digits a byte. -/
def ofHexDigits? : List Char → Option Bytes
  | [] => some []
  -- A lone last digit spells no byte.
  | [_] => none
  | high :: low :: rest => do
    let high ← hexValue? high
    let low ← hexValue? low
    return UInt8.ofNat (16 * high + low) :: (← ofHexDigits? rest)

/-- The bytes that a hexadecimal text spells. -/
def ofHex? (text : String) : Option Bytes :=
  -- Two digits are read at a time, so a text of odd length spells nothing.
  ofHexDigits? text.toList

/-- The UTF-8 bytes of a text. -/
def ofText (text : String) : Bytes :=
  -- Characters are encoded one after another, in one to four bytes each.
  text.toList.flatMap String.utf8EncodeChar

/-- The last `width` base-256 digits of a value, least significant first. -/
def littleEndian : (width value : Nat) → Bytes
  | 0, _ => []
  -- Conversion to a byte keeps the lowest digit.
  | width + 1, value => UInt8.ofNat value :: littleEndian width (value / 256)

/-- The value of base-256 digits, least significant first. -/
def ofLittleEndian (bytes : Bytes) : Nat :=
  -- Each further digit weighs 256 times the one in front of it.
  bytes.foldr (fun byte value => byte.toNat + 256 * value) 0

/-- The last `width` base-256 digits of a value, most significant first. -/
def bigEndian (width value : Nat) : Bytes :=
  -- The digits are those of the other order, read from the end.
  (littleEndian width value).reverse

/-- The value of base-256 digits, most significant first. -/
def ofBigEndian (bytes : Bytes) : Nat :=
  -- Reversing the digits leaves the other order to read.
  ofLittleEndian bytes.reverse

/-- As many digits are written as the width says. -/
@[simp] theorem length_littleEndian (width value : Nat) :
    (littleEndian width value).length = width := by
  -- Each level of width writes one byte, whatever is left of the value.
  induction width generalizing value with
  | zero => rfl
  | succ width ih => simp [littleEndian, ih]

/-- As many digits are written as the width says. -/
@[simp] theorem length_bigEndian (width value : Nat) : (bigEndian width value).length = width := by
  -- Reversing keeps the number of digits.
  simp [bigEndian]

/-- Digits that were read are written again. -/
theorem littleEndian_ofLittleEndian (bytes : Bytes) :
    littleEndian bytes.length (ofLittleEndian bytes) = bytes := by
  -- The first byte is the remainder, and the rest of the value is the quotient.
  induction bytes with
  | nil => rfl
  | cons byte rest ih =>
    have small := byte.toNat_lt
    have low : UInt8.ofNat (byte.toNat + 256 * ofLittleEndian rest) = byte := by
      apply UInt8.toNat_inj.mp
      simp only [UInt8.toNat_ofNat']
      omega
    have high : (byte.toNat + 256 * ofLittleEndian rest) / 256 = ofLittleEndian rest := by omega
    have unfolded : ofLittleEndian (byte :: rest) = byte.toNat + 256 * ofLittleEndian rest := rfl
    rw [List.length_cons, unfolded, littleEndian, low, high, ih]

/-- Digits that were read are written again, most significant first. -/
theorem bigEndian_ofBigEndian (bytes : Bytes) :
    bigEndian bytes.length (ofBigEndian bytes) = bytes := by
  -- Both directions turn the digits around once.
  have turned := littleEndian_ofLittleEndian bytes.reverse
  rw [List.length_reverse] at turned
  rw [bigEndian, ofBigEndian, turned, List.reverse_reverse]

/-- The value of some digits is below the power of 256 with their number as the exponent. -/
theorem ofLittleEndian_lt (bytes : Bytes) :
    ofLittleEndian bytes < Nat.pow 256 bytes.length := by
  induction bytes with
  | nil => exact Nat.one_pos
  | cons byte rest ih =>
    -- The quotient is below the smaller power, and the remainder is below 256.
    have small := byte.toNat_lt
    have unfolded : ofLittleEndian (byte :: rest) = byte.toNat + 256 * ofLittleEndian rest := rfl
    have step : Nat.pow 256 (byte :: rest).length = Nat.pow 256 rest.length * 256 := rfl
    omega

/-- The value of some digits is below that power, most significant first. -/
theorem ofBigEndian_lt (bytes : Bytes) : ofBigEndian bytes < Nat.pow 256 bytes.length := by
  -- The bound does not depend on the order of the digits.
  simpa [ofBigEndian] using ofLittleEndian_lt bytes.reverse

/-- A value that fits its digits is read again. -/
theorem ofLittleEndian_littleEndian {width value : Nat} (fits : value < Nat.pow 256 width) :
    ofLittleEndian (littleEndian width value) = value := by
  induction width generalizing value with
  | zero =>
    -- No digits hold nothing but zero.
    have one : Nat.pow 256 0 = 1 := rfl
    have zero : value = 0 := by omega
    subst zero
    rfl
  | succ width ih =>
    have step : Nat.pow 256 (width + 1) = Nat.pow 256 width * 256 := rfl
    -- The digits after the first one are those of the quotient, which fits them.
    have rest : ofLittleEndian (littleEndian width (value / 256)) = value / 256 := ih (by omega)
    have low : (UInt8.ofNat value).toNat = value % 256 := by simp
    show (UInt8.ofNat value).toNat + 256 * ofLittleEndian (littleEndian width (value / 256)) = value
    rw [rest, low]
    omega

/-- A value that fits its digits is read again, most significant first. -/
theorem ofBigEndian_bigEndian {width value : Nat} (fits : value < Nat.pow 256 width) :
    ofBigEndian (bigEndian width value) = value := by
  -- Writing and reading reverse the digits twice, which undoes itself.
  simpa [ofBigEndian, bigEndian] using ofLittleEndian_littleEndian fits

/-- The two's complement of an integer in `width` bytes, most significant first. -/
def signedBigEndian (width : Nat) : Int → Bytes
  | .ofNat value => bigEndian width value
  -- The integer below zero by one more than a value has the complement of its bits.
  | .negSucc value => (bigEndian width value).map fun byte => ~~~byte

/-- The first `size` bytes, with zeros for those that are missing. -/
def toVector (size : Nat) (bytes : Bytes) : Vector UInt8 size :=
  -- Every position below the size is read, whether there is a byte or not.
  let bytes := bytes.toArray
  Vector.ofFn fun position => bytes.getD position.val 0

/-- A number of consecutive blocks of `size` bytes, the last of them possibly shorter. -/
def blocks (size : Nat) : (count : Nat) → Bytes → List Bytes
  -- A block that nothing is left for is empty.
  | 0, _ => []
  | count + 1, bytes => bytes.take size :: blocks size count (bytes.drop size)

/-- The first block of `size` bytes and all that follow it; an empty string is one empty block. -/
def cut (size : Nat) (bytes : Bytes) : Bytes × List Bytes :=
  -- As many blocks follow as begin before the last byte.
  (bytes.take size, blocks size ((bytes.length - 1) / size) (bytes.drop size))

end Bytes

end Merkle
