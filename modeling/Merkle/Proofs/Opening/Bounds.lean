import Merkle.Proofs.Opening.Format
import Merkle.Word

/-! Reading an opening stays within its bytes, and within the numbers that a word holds. -/

namespace Merkle

/-- The bytes from one place up to another, unless they end before it or the places are swapped. -/
def Bytes.slice? (bytes : Bytes) (first last : Nat) : Option Bytes :=
  -- Both conditions are tested when a range of bytes is taken, and either one can fail.
  if first ≤ last ∧ last ≤ bytes.length then some ((bytes.drop first).take (last - first))
  else none

namespace Opening

/-- Reads a number of consecutive digests from a place on, or nothing if it cannot go on. -/
def decodePathWithin (H : Hasher D) (bytes : Bytes) :
    (depth place : Nat) → Option (Except Error (List D))
  | 0, _ => some (.ok [])
  | depth + 1, place => do
    -- Each digest ends where the next one begins, and the first refused one ends the reading.
    let next ← word? (place + H.width)
    let digest ← bytes.slice? place next
    match H.ofBytes? digest with
    | none => some (.error (.malformedProof .digestBytes))
    | some digest =>
      let rest ← decodePathWithin H bytes depth next
      return do return digest :: (← rest)

/--
Reads an opening, or nothing where a slice would leave the bytes or a number its word.

Siblings of no width cannot be told apart, so nothing is read in their place.
-/
def decodeWithin (H : Hasher D) (bytes : Bytes) : Option (Except Error (Opening D)) :=
  if bytes.length < headerLength then
    some (.error (.malformedProof (.headerLength bytes.length)))
  else do
    -- The header is complete, so its parts are there.
    let number ← bytes.slice? 0 8
    let level ← bytes[8]?
    let index := UInt64.ofNat (Bytes.ofBigEndian number)
    let depth := level.toNat
    if maxDepth < depth then some (.error (.malformedProof (.openingDepth depth)))
    else do
      let announced ← word? (depth * H.width)
      let expected ← word? (headerLength + announced)
      if bytes.length ≠ expected then
        some (.error (.malformedProof (.openingLength expected bytes.length)))
      else do
        -- The index is compared with a bound that has to be a number of its word.
        let _ ← word? (levelWidth depth)
        match checkIndex index depth with
        | .error error => some (.error error)
        | .ok () =>
          if H.width = 0 then none
          else do
            let siblings ← bytes.slice? headerLength bytes.length
            let path ← decodePathWithin H siblings depth 0
            return do return ⟨index, ← path⟩

end Opening

/-- A slice within the bytes is what is left between its places. -/
theorem Bytes.slice?_eq_some {bytes : Bytes} {first last : Nat} (ordered : first ≤ last)
    (inside : last ≤ bytes.length) :
    bytes.slice? first last = some ((bytes.drop first).take (last - first)) :=
  -- The two assumptions are the two tests.
  if_pos ⟨ordered, inside⟩

namespace Opening

variable {H : Hasher D}

/-- Digests that fill the bytes from a place on are read without leaving the bytes. -/
theorem decodePathWithin_eq {bytes : Bytes} (counted : bytes.length < UInt64.size)
    {depth place : Nat} (filled : place + depth * H.width = bytes.length) :
    decodePathWithin H bytes depth place = some (decodePath H depth (bytes.drop place)) := by
  induction depth generalizing place with
  | zero => rfl
  | succ depth ih =>
    rw [Nat.succ_mul] at filled
    -- The first digest ends within the bytes, and the other ones fill what is behind it.
    have slice : bytes.slice? place (place + H.width) = some ((bytes.drop place).take H.width) := by
      rw [Bytes.slice?_eq_some (by omega) (by omega), Nat.add_sub_cancel_left]
    have rest : decodePathWithin H bytes depth (place + H.width) = _ := ih (by omega)
    rw [decodePathWithin, decodePath, word?_eq_some (by omega)]
    simp only [bind, Option.bind]
    rw [slice]
    dsimp only
    -- A digest that is refused ends both readings at the same place.
    cases H.ofBytes? ((bytes.drop place).take H.width) with
    | none => rfl
    | some digest =>
      dsimp only
      rw [rest, List.drop_drop]
      rfl

/-- Where all lengths are numbers of a word, reading never leaves the bytes or the word. -/
theorem decodeWithin_eq (wide : 1 ≤ H.width)
    (fits : headerLength + maxDepth * H.width < UInt64.size) (bytes : Bytes) :
    decodeWithin H bytes = some (decode H bytes) := by
  rcases Nat.lt_or_ge bytes.length headerLength with short | long
  · -- Bytes without a whole header are refused before anything is taken from them.
    rw [decode_of_short short, decodeWithin, if_pos short]
  · have whole := long
    obtain ⟨index, level, siblings, rfl⟩ := exists_header long
    -- With a whole header, the index and the depth can be taken without a test.
    have eight : (Bytes.bigEndian 8 index.toNat).length = 8 := Bytes.length_bigEndian _ _
    have length := length_header index level siblings
    have number : (Bytes.bigEndian 8 index.toNat ++ level :: siblings).slice? 0 8 =
        some (Bytes.bigEndian 8 index.toNat) := by
      rw [Bytes.slice?_eq_some (by omega) (by rw [length, headerLength]; omega)]
      exact congrArg some (List.take_left' eight)
    have behind : (Bytes.bigEndian 8 index.toNat ++ level :: siblings)[8]? = some level := by
      rw [List.getElem?_append_right (Nat.le_of_eq eight), eight]
      rfl
    -- Both readings are now led by the same header, and follow it test by test.
    rw [decode_header, decodeWithin, if_neg (Nat.not_lt.mpr whole), number, behind]
    simp only [Option.bind_eq_bind, Option.bind_some, ofNat_ofBigEndian_index, length]
    rcases Nat.lt_or_ge maxDepth level.toNat with deep | shallow
    · -- A depth that is too great is refused before anything is multiplied by it.
      rw [if_pos deep, if_pos deep]
    · -- The announced length is largest at the greatest depth, where a word holds it.
      have announces : level.toNat * H.width ≤ maxDepth * H.width :=
        Nat.mul_le_mul_right H.width shallow
      rw [if_neg (Nat.not_lt.mpr shallow), if_neg (Nat.not_lt.mpr shallow),
        word?_eq_some (by omega), Option.bind_some, word?_eq_some (by omega), Option.bind_some]
      by_cases announced : siblings.length = level.toNat * H.width
      · -- Neither length test fails, and the siblings are all that is behind the header.
        have total : ¬headerLength + siblings.length ≠ headerLength + level.toNat * H.width :=
          not_not_intro (congrArg (headerLength + ·) announced)
        have rest : (Bytes.bigEndian 8 index.toNat ++ level :: siblings).slice? headerLength
            (headerLength + siblings.length) = some siblings := by
          rw [Bytes.slice?_eq_some (by omega) (by omega), Nat.add_sub_cancel_left,
            List.append_cons, List.drop_left' (by simp [headerLength]), List.take_length]
        rw [if_neg total, if_neg (not_not_intro announced),
          word?_eq_some (levelWidth_lt_size shallow), Option.bind_some]
        cases checkIndex index level.toNat with
        | error error => rfl
        | ok nothing =>
          dsimp only
          rw [if_neg (Nat.ne_of_gt wide), rest, Option.bind_some,
            decodePathWithin_eq (by omega) (by omega)]
          rfl
      · -- What is left has another length than announced, so both length tests fail.
        rw [if_pos (by omega), if_pos announced]

end Opening

end Merkle
