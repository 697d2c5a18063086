import Merkle.Bytes

/-! Written numbers, characters and texts are told apart, and where each of them ends. -/

namespace Merkle.Bytes

/-- Numbers that fit their digits are told apart by them. -/
theorem bigEndian_inj {width value other : Nat} (fits : value < Nat.pow 256 width)
    (fitsOther : other < Nat.pow 256 width) (same : bigEndian width value = bigEndian width other) :
    value = other := by
  -- The digits have the number as their value.
  have values := congrArg ofBigEndian same
  rwa [ofBigEndian_bigEndian fits, ofBigEndian_bigEndian fitsOther] at values

/-- Numbers of one width are told apart whatever follows them. -/
theorem bigEndian_append_inj {width value other : Nat} {rest otherRest : Bytes}
    (fits : value < Nat.pow 256 width) (fitsOther : other < Nat.pow 256 width)
    (same : bigEndian width value ++ rest = bigEndian width other ++ otherRest) :
    value = other ∧ rest = otherRest := by
  -- Both numbers have as many digits, so they end at the same place.
  obtain ⟨digits, behind⟩ := List.append_inj same (by simp)
  exact ⟨bigEndian_inj fits fitsOther digits, behind⟩

/-- The complement of some digits has the value that is missing to the greatest one. -/
theorem ofLittleEndian_complement (bytes : Bytes) :
    ofLittleEndian (bytes.map fun byte => ~~~byte) + ofLittleEndian bytes + 1 =
      Nat.pow 256 bytes.length := by
  induction bytes with
  | nil => rfl
  | cons byte rest ih =>
    -- Each digit and its complement add up to the greatest digit.
    have digit : (~~~byte).toNat + byte.toNat = 255 := by
      have small := byte.toNat_lt
      simp only [UInt8.toNat_not, UInt8.size]
      omega
    have unfolded (digit : UInt8) (digits : Bytes) :
        ofLittleEndian (digit :: digits) = digit.toNat + 256 * ofLittleEndian digits := rfl
    have step : Nat.pow 256 (byte :: rest).length = Nat.pow 256 rest.length * 256 := rfl
    rw [List.map_cons, unfolded, unfolded, step, ← ih]
    omega

/-- The complement of some digits has that value, most significant first. -/
theorem ofBigEndian_complement (bytes : Bytes) :
    ofBigEndian (bytes.map fun byte => ~~~byte) + ofBigEndian bytes + 1 =
      Nat.pow 256 bytes.length := by
  -- Complements are taken digit by digit, so they may be read from either end.
  have turned := ofLittleEndian_complement bytes.reverse
  rwa [List.map_reverse, List.length_reverse] at turned

/-- As many bytes are written for a signed number as the width says. -/
@[simp] theorem length_signedBigEndian (width : Nat) (value : Int) :
    (signedBigEndian width value).length = width := by
  -- Complements are as long as what they are taken of.
  cases value <;> simp [signedBigEndian]

/-- The value of the written bytes is the signed number, counted around the end of its range. -/
theorem ofBigEndian_signedBigEndian {width : Nat} {value : Int}
    (above : -(Nat.pow 256 width : Int) ≤ 2 * value) (below : 2 * value < Nat.pow 256 width) :
    (ofBigEndian (signedBigEndian width value) : Int) =
      if value < 0 then value + Nat.pow 256 width else value := by
  cases value with
  | ofNat value =>
    rw [Int.ofNat_eq_natCast] at below
    have fits : value < Nat.pow 256 width := by omega
    rw [signedBigEndian, ofBigEndian_bigEndian fits, if_neg (by simp)]
    rfl
  | negSucc value =>
    have fits : value < Nat.pow 256 width := by omega
    -- A negative number is written as the complement of its distance from minus one.
    have complement := ofBigEndian_complement (bigEndian width value)
    rw [ofBigEndian_bigEndian fits, length_bigEndian] at complement
    rw [signedBigEndian, if_pos (Int.negSucc_lt_zero value)]
    omega

/-- Signed numbers of one width are told apart whatever follows them. -/
theorem signedBigEndian_append_inj {width : Nat} {value other : Int} {rest otherRest : Bytes}
    (above : -(Nat.pow 256 width : Int) ≤ 2 * value) (below : 2 * value < Nat.pow 256 width)
    (aboveOther : -(Nat.pow 256 width : Int) ≤ 2 * other)
    (belowOther : 2 * other < Nat.pow 256 width)
    (same : signedBigEndian width value ++ rest = signedBigEndian width other ++ otherRest) :
    value = other ∧ rest = otherRest := by
  obtain ⟨digits, behind⟩ := List.append_inj same (by simp)
  refine ⟨?_, behind⟩
  have values := congrArg (fun bytes => (ofBigEndian bytes : Int)) digits
  simp only [ofBigEndian_signedBigEndian above below,
    ofBigEndian_signedBigEndian aboveOther belowOther] at values
  -- The numbers below zero are counted in the upper half of the range, and the others below it.
  split at values <;> split at values <;> omega

/-- Characters are told apart whatever follows them, though their bytes are not equally many. -/
theorem utf8EncodeChar_append_inj {c other : Char} {rest otherRest : Bytes}
    (same : String.utf8EncodeChar c ++ rest = String.utf8EncodeChar other ++ otherRest) :
    c = other ∧ rest = otherRest := by
  -- The bytes of a character are read as that character in front of any others.
  have read (c : Char) (rest : Bytes) :
      (String.utf8EncodeChar c ++ rest).toByteArray.utf8DecodeChar? 0 = some c := by
    rw [List.toByteArray_append]
    exact ByteArray.utf8DecodeChar?_utf8EncodeChar_append
  have chars : some c = some other := by
    rw [← read c rest, same, read]
  cases chars
  exact ⟨rfl, List.append_cancel_left same⟩

/-- A text is stored as the bytes of its characters. -/
theorem toByteArray_ofText (text : String) : (ofText text).toByteArray = text.toByteArray :=
  -- The library stores a text in the same encoding.
  String.utf8Encode_toList

/-- Texts are told apart by their bytes. -/
theorem ofText_inj {text other : String} (same : ofText text = ofText other) : text = other := by
  -- A text is determined by what is stored for it.
  apply String.toByteArray_inj.mp
  rw [← toByteArray_ofText text, same, toByteArray_ofText]

end Merkle.Bytes
