/-! Arithmetic of 64-bit words, and which of its results are words. -/

namespace Merkle

/-- A number, unless it is too large for a word. -/
def word? (number : Nat) : Option Nat :=
  -- The largest word is one less than the number of words.
  if number < UInt64.size then some number else none

/-- A number of a word is kept. -/
theorem word?_eq_some {number : Nat} (fits : number < UInt64.size) : word? number = some number :=
  -- The bound is the condition itself.
  if_pos fits

namespace Word

/-- The number of zeros in front of the first one among the binary digits of a word. -/
def leadingZeros (word : UInt64) : Nat :=
  -- The word zero consists of zeros alone, so all of its digits count.
  word.toBitVec.clz.toNat

/-- The number of zeros behind the last one among the binary digits of a word. -/
def trailingZeros (word : UInt64) : Nat :=
  -- The word zero has no last one, and then all of its digits are counted.
  word.toBitVec.ctz.toNat

/-- The sum of two words, unless it is too large for a word. -/
def add? (left right : UInt64) : Option UInt64 :=
  -- The sum is formed without bound before it is tested.
  (word? (left.toNat + right.toNat)).map UInt64.ofNat

/-- The product of two words, unless it is too large for a word. -/
def mul? (left right : UInt64) : Option UInt64 :=
  -- The product is formed without bound before it is tested.
  (word? (left.toNat * right.toNat)).map UInt64.ofNat

/-- The predecessor of the least power of two that is not below a word. -/
def onesBelowPower (word : UInt64) : UInt64 :=
  if word ≤ 1 then 0
  -- It has a one for each binary digit of the word's own predecessor.
  else UInt64.ofNat (UInt64.size - 1) >>> UInt64.ofNat (leadingZeros (word - 1))

/-- The least power of two that is not below a word, unless it is too large for a word. -/
def nextPowerOfTwo? (word : UInt64) : Option UInt64 :=
  -- Adding one turns a row of ones into the power above it, which may not fit.
  add? (onesBelowPower word) 1

end Word

end Merkle
