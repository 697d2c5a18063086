import Merkle.Proofs.Opening.Bounds

/-! What becomes of the bytes of an opening that are cut, extended, or changed in the header. -/

namespace Merkle

namespace Opening

variable {H : Hasher D}

/-- The bytes of an opening with another index in front. -/
def reindexed (index : UInt64) (bytes : Bytes) : Bytes :=
  -- The depth and the siblings stay where they are.
  Bytes.bigEndian 8 index.toNat ++ bytes.drop 8

/-- Bytes that agree with a written opening in their header are its header and other siblings. -/
theorem exists_eq_header_append {index : UInt64} {level : UInt8} {siblings other : Bytes}
    (header : other.take headerLength =
      (Bytes.bigEndian 8 index.toNat ++ level :: siblings).take headerLength) :
    ∃ rest, other = Bytes.bigEndian 8 index.toNat ++ level :: rest := by
  -- The header ends where the siblings begin, so the agreement fixes everything before them.
  rw [List.append_cons, List.take_left' (by simp [headerLength])] at header
  refine ⟨other.drop headerLength, ?_⟩
  rw [List.append_cons, ← header, List.take_append_drop]

/-- An index takes the place of the one in front of the depth. -/
theorem reindexed_header (index other : UInt64) (level : UInt8) (siblings : Bytes) :
    reindexed index (Bytes.bigEndian 8 other.toNat ++ level :: siblings) =
      Bytes.bigEndian 8 index.toNat ++ level :: siblings := by
  -- The index takes the first eight bytes, and they are dropped with it.
  rw [reindexed, List.drop_left' (Bytes.length_bigEndian _ _)]

section Read

variable {bytes : Bytes} {opening : Opening D} (reads : decode H bytes = .ok opening)
include reads

/-- Whatever is read has a whole header. -/
theorem headerLength_le_of_decode : headerLength ≤ bytes.length := by
  -- What was read is a header with siblings behind it.
  obtain ⟨siblings, rfl, -, -, -⟩ := header_of_decode reads
  rw [length_header]
  exact Nat.le_add_right _ _

/-- Behind the same header, bytes of another length are refused for their length. -/
theorem decode_of_length_ne {other : Bytes}
    (header : other.take headerLength = bytes.take headerLength)
    (differ : other.length ≠ bytes.length) :
    decode H other = .error (.malformedProof (.openingLength bytes.length other.length)) := by
  -- The header announces the same length again, and only one length meets it.
  obtain ⟨siblings, rfl, announced, valid, -⟩ := header_of_decode reads
  obtain ⟨shallow, -⟩ := checkIndex_eq_ok_iff.mp valid
  obtain ⟨rest, rfl⟩ := exists_eq_header_append header
  rw [length_header, length_header] at differ
  rw [decode_header_of_le _ shallow, if_pos (by omega), length_header, length_header, announced]

/-- Bytes that are cut off are refused for their length, as far as they contain a header or not. -/
theorem decode_of_cut {shorter : Bytes} (front : shorter <+: bytes) (cut : shorter ≠ bytes) :
    decode H shorter = .error (.malformedProof (if shorter.length < headerLength then
      .headerLength shorter.length else .openingLength bytes.length shorter.length)) := by
  rcases Nat.lt_or_ge shorter.length headerLength with short | long
  · -- Too little is left to tell what length was announced.
    rw [if_pos short, decode_of_short short]
  · -- The header is still whole, so it announces the length before the cut.
    have header : shorter.take headerLength = bytes.take headerLength := by
      rw [List.prefix_iff_eq_take.mp front, List.take_take, Nat.min_eq_left long]
    have differ : shorter.length ≠ bytes.length := fun same => cut (front.eq_of_length same)
    rw [if_neg (Nat.not_lt.mpr long), decode_of_length_ne reads header differ]

/-- Bytes that are extended are refused for their length. -/
theorem decode_append {suffix : Bytes} (some : suffix ≠ []) :
    decode H (bytes ++ suffix) =
      .error (.malformedProof (.openingLength bytes.length (bytes.length + suffix.length))) := by
  -- The header is in front of what was added.
  have header : (bytes ++ suffix).take headerLength = bytes.take headerLength :=
    List.take_append_of_le_length (headerLength_le_of_decode reads)
  have positive := List.length_pos_iff.mpr some
  have differ : (bytes ++ suffix).length ≠ bytes.length := by
    rw [List.length_append]
    omega
  rw [decode_of_length_ne reads header differ, List.length_append]

/-- No opening's bytes are the beginning of another's. -/
theorem eq_of_front {other : Bytes} {another : Opening D}
    (readsOther : decode H other = .ok another) (front : bytes <+: other) : bytes = other := by
  -- If the first bytes were shorter, they would be cut off and could not be read.
  by_cases cut : bytes = other
  · exact cut
  · rw [decode_of_cut readsOther front cut] at reads
    cases reads

/-- With another depth in the header, bytes are refused for the depth or for their length. -/
theorem decode_set_depth (wide : 1 ≤ H.width) {level : UInt8} (changed : bytes[8]? ≠ some level) :
    decode H (bytes.set 8 level) = .error (.malformedProof (if maxDepth < level.toNat then
      .openingDepth level.toNat
      else .openingLength (headerLength + level.toNat * H.width) bytes.length)) := by
  obtain ⟨siblings, rfl, announced, valid, -⟩ := header_of_decode reads
  obtain ⟨shallow, -⟩ := checkIndex_eq_ok_iff.mp valid
  have eight : (Bytes.bigEndian 8 opening.index.toNat).length = 8 := Bytes.length_bigEndian _ _
  rw [List.getElem?_append_right (Nat.le_of_eq eight), eight] at changed
  rw [List.set_append_right _ _ (Nat.le_of_eq eight), eight]
  -- Only the byte behind the index is another one.
  show decode H (Bytes.bigEndian 8 opening.index.toNat ++ level :: siblings) = _
  rw [decode_header, length_header]
  split
  · rfl
  · -- Siblings have bytes, so as many of them as another depth says have another length.
    have other : level.toNat ≠ opening.depth := by
      intro same
      apply changed
      rw [← same, UInt8.ofNat_toNat]
      rfl
    have length : siblings.length ≠ level.toNat * H.width := by
      rw [announced]
      exact fun same => other (Nat.eq_of_mul_eq_mul_right wide same).symm
    rw [if_pos length]

/-- With an index that does not exist at the depth, bytes are refused for the index, whatever the
siblings are. -/
theorem decode_index_of_past {index : UInt64} (past : levelWidth opening.depth ≤ index.toNat)
    {other : Bytes} (header : other.take headerLength = (reindexed index bytes).take headerLength)
    (length : other.length = bytes.length) :
    decode H other = .error (.indexOutOfRange index.toNat (levelWidth opening.depth)) := by
  obtain ⟨siblings, rfl, announced, valid, -⟩ := header_of_decode reads
  obtain ⟨shallow, -⟩ := checkIndex_eq_ok_iff.mp valid
  rw [reindexed_header] at header
  obtain ⟨rest, rfl⟩ := exists_eq_header_append header
  rw [length_header, length_header] at length
  -- The length is right, and the index is refused before any sibling is read.
  rw [decode_header_of_le _ shallow, if_neg (by omega), checkIndex_of_past shallow past]
  rfl

/-- With another index that exists at the depth, bytes are read as the same siblings behind it. -/
theorem decode_reindexed {index : UInt64} (inside : index.toNat < levelWidth opening.depth) :
    decode H (reindexed index bytes) = .ok { opening with index } := by
  -- The tests of the depth and the length are passed as before, whatever the index is.
  obtain ⟨siblings, rfl, announced, valid, siblingsRead⟩ := header_of_decode reads
  obtain ⟨shallow, -⟩ := checkIndex_eq_ok_iff.mp valid
  rw [reindexed_header, decode_header_of_le _ shallow, if_neg (not_not_intro announced),
    checkIndex_eq_ok_iff.mpr ⟨shallow, inside⟩, siblingsRead]
  rfl

end Read

end Opening

/--
Bytes that are read as an opening are not read any more after a change of their length or of their
header, unless the change leaves an index that exists.

Cut or extended bytes are refused for their length, and bytes with another depth for the depth or
their length. An index that does not exist at the depth is refused for itself, whatever became of
the siblings, and one that exists is read with the same siblings. Reading any bytes at all ends
within them, and without a number that its word cannot hold.
-/
theorem corrupted_bytes_judged {H : Hasher D} (wide : 1 ≤ H.width)
    (fits : headerLength + maxDepth * H.width < UInt64.size) :
    (∀ (bytes : Bytes) (opening : Opening D), Opening.decode H bytes = .ok opening →
      (∀ shorter, shorter <+: bytes → shorter ≠ bytes → Opening.decode H shorter =
        .error (.malformedProof (if shorter.length < headerLength then
          .headerLength shorter.length else .openingLength bytes.length shorter.length))) ∧
        (∀ suffix, suffix ≠ [] → Opening.decode H (bytes ++ suffix) = .error (.malformedProof
          (.openingLength bytes.length (bytes.length + suffix.length)))) ∧
        (∀ level, bytes[8]? ≠ some level → Opening.decode H (bytes.set 8 level) =
          .error (.malformedProof (if maxDepth < level.toNat then .openingDepth level.toNat
            else .openingLength (headerLength + level.toNat * H.width) bytes.length))) ∧
        (∀ (index : UInt64) other, levelWidth opening.depth ≤ index.toNat →
          other.length = bytes.length →
          other.take headerLength = (Opening.reindexed index bytes).take headerLength →
          Opening.decode H other =
            .error (.indexOutOfRange index.toNat (levelWidth opening.depth))) ∧
        ∀ index : UInt64, index.toNat < levelWidth opening.depth →
          Opening.decode H (Opening.reindexed index bytes) = .ok { opening with index }) ∧
      (∀ (bytes other : Bytes) (opening another : Opening D),
        Opening.decode H bytes = .ok opening → Opening.decode H other = .ok another →
        bytes <+: other → bytes = other) ∧
      ∀ bytes, Opening.decodeWithin H bytes = some (Opening.decode H bytes) := by
  -- Each kind of change is judged on its own, and every time from what was read.
  refine ⟨?_, ?_, Opening.decodeWithin_eq wide fits⟩
  · intro bytes opening reads
    refine ⟨fun _ => Opening.decode_of_cut reads, fun _ => Opening.decode_append reads,
      fun _ => Opening.decode_set_depth reads wide, ?_, fun _ => Opening.decode_reindexed reads⟩
    intro index other past length header
    exact Opening.decode_index_of_past reads past header length
  · intro bytes other opening another reads readsOther front
    exact Opening.eq_of_front reads readsOther front

/-- Every way to change the bytes of an opening with two siblings has the outcome it should have. -/
theorem corrupted_bytes_judged_pair :
    let hasher := Hasher.fnv
    let bytes : Bytes := [0, 0, 0, 0, 0, 0, 0, 1, 2, 1, 2, 3, 4, 5, 6, 7, 8]
    let opening : Opening (Vector UInt8 4) := ⟨1, [#v[1, 2, 3, 4], #v[5, 6, 7, 8]]⟩
    let past : Bytes := [0, 0, 0, 0, 0, 0, 0, 4, 2, 1, 2, 3, 4, 5, 6, 7, 9]
    1 ≤ hasher.width ∧ headerLength + maxDepth * hasher.width < UInt64.size ∧
      Opening.decode hasher bytes = .ok opening ∧
      Opening.decode hasher (bytes.take 5) = .error (.malformedProof (.headerLength 5)) ∧
      Opening.decode hasher (bytes.take 16) = .error (.malformedProof (.openingLength 17 16)) ∧
      Opening.decode hasher (bytes ++ [0]) = .error (.malformedProof (.openingLength 17 18)) ∧
      Opening.decode hasher (bytes.set 8 1) = .error (.malformedProof (.openingLength 13 17)) ∧
      Opening.decode hasher (bytes.set 8 64) = .error (.malformedProof (.openingDepth 64)) ∧
      Opening.decode hasher past = .error (.indexOutOfRange 4 4) ∧
      Opening.decode hasher (Opening.reindexed 3 bytes) = .ok { opening with index := 3 } ∧
      Opening.decodeWithin hasher past = some (.error (.indexOutOfRange 4 4)) := by
  intro hasher bytes opening past
  have wide : 1 ≤ hasher.width := by decide
  have fits : headerLength + maxDepth * hasher.width < UInt64.size := by decide
  -- An opening with two siblings of four bytes takes 17 bytes.
  have reads : Opening.decode hasher bytes = .ok opening := rfl
  obtain ⟨changes, -, within⟩ := corrupted_bytes_judged wide fits
  obtain ⟨cut, extended, deeper, numbered, renumbered⟩ := changes bytes opening reads
  -- The index four would need a third level.
  have unread : Opening.decode hasher past = .error (.indexOutOfRange 4 4) :=
    numbered 4 past (by decide) rfl rfl
  have front (count : Nat) : bytes.take count <+: bytes := List.take_prefix count bytes
  exact ⟨wide, fits, reads, cut _ (front 5) (by decide), cut _ (front 16) (by decide),
    extended [0] (by decide),
    deeper 1 (by decide), deeper 64 (by decide), unread, renumbered 3 (by decide),
    (within past).trans (congrArg some unread)⟩

end Merkle
