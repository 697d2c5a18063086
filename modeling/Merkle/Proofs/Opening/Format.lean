import Merkle.Hasher.Standard
import Merkle.Proofs.Hasher
import Merkle.Proofs.Opening.Verdict

/-! Openings and their bytes: every opening is written in one way, and nothing else is read. -/

namespace Merkle

namespace Opening

variable {H : Hasher D}

/-- An opening is written when its index exists at its depth, and nothing but its format is. -/
theorem encode_eq_ok_iff {opening : Opening D} {bytes : Bytes} :
    opening.encode H = .ok bytes ↔
      checkIndex opening.index opening.depth = .ok () ∧ opening.format H = bytes := by
  -- The test of the index is the only one, and nothing is written when it fails.
  unfold encode
  cases checkIndex opening.index opening.depth <;> simp [bind, Except.bind, pure, Except.pure]

/-- Siblings are written with the width of a digest each. -/
theorem length_flatMap_bytes (fixed : H.FixedWidth) (path : List D) :
    (path.flatMap H.bytes).length = path.length * H.width := by
  -- Each digest adds the same width to those of the rest.
  induction path with
  | nil => simp
  | cons digest rest ih =>
    simp only [List.flatMap_cons, List.length_append, fixed digest, ih, List.length_cons,
      Nat.succ_mul]
    omega

/-- The header is followed by the siblings and by nothing else. -/
theorem length_format (canonical : H.Canonical) (opening : Opening D) :
    (opening.format H).length = headerLength + opening.depth * H.width := by
  -- Eight bytes of the index and one of the depth make up the header.
  simp only [format, List.length_append, List.length_cons, Bytes.length_bigEndian,
    length_flatMap_bytes canonical.length_bytes, depth, headerLength]
  omega

/-- Written siblings are read again, unless some of them is refused. -/
theorem decodePath_flatMap (canonical : H.Canonical) (path : List D) :
    decodePath H path.length (path.flatMap H.bytes) =
      if ∀ digest ∈ path, (H.ofBytes? (H.bytes digest)).isSome then .ok path
      else .error (.malformedProof .digestBytes) := by
  induction path with
  | nil => simp [decodePath]
  | cons digest rest ih =>
    -- The first digest takes its width, and the other ones are behind it.
    have width := canonical.length_bytes digest
    rw [List.length_cons, List.flatMap_cons, decodePath, List.take_left' width,
      List.drop_left' width, ih]
    rcases canonical.ofBytes?_bytes digest with accepted | refused
    · -- An accepted digest leaves the verdict to the rest.
      simp only [accepted, List.mem_cons, forall_eq_or_imp, Option.isSome_some, true_and]
      split <;> simp [bind, Except.bind, pure, Except.pure]
    · simp [refused]

/-- As many siblings are read as announced. -/
theorem length_of_decodePath {depth : Nat} {bytes : Bytes} {path : List D}
    (read : decodePath H depth bytes = .ok path) : path.length = depth := by
  -- Each level reads one digest, or reading ends with an error.
  induction depth generalizing bytes path with
  | zero =>
    cases read
    rfl
  | succ depth ih =>
    rw [decodePath] at read
    split at read
    · cases read
    · obtain ⟨rest, tail, read⟩ := bind_eq_ok_iff.mp read
      cases read
      rw [List.length_cons, ih tail]

/-- Siblings that were read are written again, when the bytes are as many as announced. -/
theorem flatMap_of_decodePath (exact : H.ReadsExactly) {depth : Nat} {bytes : Bytes}
    {path : List D} (announced : bytes.length = depth * H.width)
    (read : decodePath H depth bytes = .ok path) : path.flatMap H.bytes = bytes := by
  induction depth generalizing bytes path with
  | zero =>
    -- Without siblings there are no bytes.
    have empty : bytes = [] := List.length_eq_zero_iff.mp (by omega)
    cases read
    exact empty.symm
  | succ depth ih =>
    rw [Nat.succ_mul] at announced
    rw [decodePath] at read
    split at read
    · cases read
    · rename_i digest first
      obtain ⟨rest, tail, read⟩ := bind_eq_ok_iff.mp read
      cases read
      -- The first digest is written as the bytes it was read from, and the rest by induction.
      have behind : (bytes.drop H.width).length = depth * H.width := by
        rw [List.length_drop]
        omega
      have front := exact _ _ first
      rw [List.flatMap_cons, front, ih behind tail, List.take_append_drop]

/-- Bytes that end within the header are refused for their length. -/
theorem decode_of_short {bytes : Bytes} (short : bytes.length < headerLength) :
    decode H bytes = .error (.malformedProof (.headerLength bytes.length)) := by
  -- There is no byte at the place of the depth, or nothing in front of it.
  simp only [headerLength] at short
  have behind : bytes.drop 8 = [] := List.drop_eq_nil_of_le (by omega)
  rw [decode, behind]

/-- All other bytes begin with an index and a depth. -/
theorem exists_header {bytes : Bytes} (long : headerLength ≤ bytes.length) :
    ∃ (index : UInt64) (level : UInt8) (siblings : Bytes),
      bytes = Bytes.bigEndian 8 index.toNat ++ level :: siblings := by
  simp only [headerLength] at long
  have eight : (bytes.take 8).length = 8 := by
    rw [List.length_take]
    omega
  -- Eight bytes hold the digits of a word, which are written as they were.
  have index : (UInt64.ofNat (Bytes.ofBigEndian (bytes.take 8))).toNat =
      Bytes.ofBigEndian (bytes.take 8) := by
    apply UInt64.toNat_ofNat_of_lt'
    simpa [eight] using Bytes.ofBigEndian_lt (bytes.take 8)
  have header : Bytes.bigEndian 8 (Bytes.ofBigEndian (bytes.take 8)) = bytes.take 8 := by
    simpa [eight] using Bytes.bigEndian_ofBigEndian (bytes.take 8)
  -- The depth follows them, since the header has nine bytes.
  cases behind : bytes.drop 8 with
  | nil =>
    have length := congrArg List.length behind
    simp only [List.length_drop, List.length_nil] at length
    omega
  | cons level siblings =>
    refine ⟨UInt64.ofNat (Bytes.ofBigEndian (bytes.take 8)), level, siblings, ?_⟩
    rw [index, header, ← behind, List.take_append_drop]

/-- An index that was written is read again. -/
theorem ofNat_ofBigEndian_index (index : UInt64) :
    UInt64.ofNat (Bytes.ofBigEndian (Bytes.bigEndian 8 index.toNat)) = index := by
  -- The value of a word has at most eight digits.
  rw [Bytes.ofBigEndian_bigEndian index.toNat_lt, UInt64.ofNat_toNat]

/-- The header has its own length, whatever follows it. -/
theorem length_header (index : UInt64) (level : UInt8) (siblings : Bytes) :
    (Bytes.bigEndian 8 index.toNat ++ level :: siblings).length =
      headerLength + siblings.length := by
  -- The index and the depth have fixed widths, and the siblings follow them.
  rw [List.length_append, Bytes.length_bigEndian, List.length_cons, headerLength]
  omega

/-- Behind its header, an opening is judged by its depth, its length, its index and its siblings,
in this order. -/
theorem decode_header (index : UInt64) (level : UInt8) (siblings : Bytes) :
    decode H (Bytes.bigEndian 8 index.toNat ++ level :: siblings) =
      if maxDepth < level.toNat then .error (.malformedProof (.openingDepth level.toNat))
      else if siblings.length ≠ level.toNat * H.width then
        .error (.malformedProof (.openingLength (headerLength + level.toNat * H.width)
          (headerLength + siblings.length)))
      else do
        checkIndex index level.toNat
        return ⟨index, ← decodePath H level.toNat siblings⟩ := by
  -- The index fills its eight bytes, and the depth is behind them.
  have eight : (Bytes.bigEndian 8 index.toNat).length = 8 := Bytes.length_bigEndian _ _
  unfold decode
  rw [length_header, List.drop_left' eight, List.take_left' eight]
  simp only [ofNat_ofBigEndian_index, ne_eq, Nat.add_left_cancel_iff]

/-- At a depth that is written in the header, the length is judged first. -/
theorem decode_header_of_le (index : UInt64) {depth : Nat} (shallow : depth ≤ maxDepth)
    (siblings : Bytes) :
    decode H (Bytes.bigEndian 8 index.toNat ++ UInt8.ofNat depth :: siblings) =
      if siblings.length ≠ depth * H.width then
        .error (.malformedProof (.openingLength (headerLength + depth * H.width)
          (headerLength + siblings.length)))
      else do
        checkIndex index depth
        return ⟨index, ← decodePath H depth siblings⟩ := by
  -- The depth fits the byte behind the index.
  have level : (UInt8.ofNat depth).toNat = depth :=
    UInt8.toNat_ofNat_of_lt' (Nat.lt_of_le_of_lt shallow (by decide))
  rw [decode_header, level, if_neg (Nat.not_lt.mpr shallow)]

/-- The bytes of any opening that is not too deep are judged by its index and then by its
siblings. -/
theorem decode_format_eq (fixed : H.FixedWidth) {opening : Opening D}
    (shallow : opening.depth ≤ maxDepth) :
    decode H (opening.format H) = (do
      checkIndex opening.index opening.depth
      return ⟨opening.index, ← decodePath H opening.depth (opening.path.flatMap H.bytes)⟩) := by
  -- The depth announces as many siblings as there are.
  have announced : ¬(opening.path.flatMap H.bytes).length ≠ opening.depth * H.width :=
    not_not_intro (length_flatMap_bytes fixed opening.path)
  rw [format, decode_header_of_le _ shallow, if_neg announced]

/-- A written opening is read again, unless some of its siblings is refused. -/
theorem decode_format (canonical : H.Canonical) {opening : Opening D}
    (valid : checkIndex opening.index opening.depth = .ok ()) :
    decode H (opening.format H) =
      if ∀ digest ∈ opening.path, (H.ofBytes? (H.bytes digest)).isSome then .ok opening
      else .error (.malformedProof .digestBytes) := by
  -- The tests of depth, length and index are passed, so only the siblings decide.
  obtain ⟨shallow, -⟩ := checkIndex_eq_ok_iff.mp valid
  rw [decode_format_eq canonical.length_bytes shallow, valid, depth, decodePath_flatMap canonical]
  split <;> simp [bind, Except.bind, pure, Except.pure]

/-- Bytes read as an opening are its header and as many siblings as the header says. -/
theorem header_of_decode {bytes : Bytes} {opening : Opening D}
    (read : decode H bytes = .ok opening) :
    ∃ siblings, bytes = Bytes.bigEndian 8 opening.index.toNat ++
        UInt8.ofNat opening.depth :: siblings ∧
      siblings.length = opening.depth * H.width ∧
      checkIndex opening.index opening.depth = .ok () ∧
      decodePath H opening.depth siblings = .ok opening.path := by
  rcases Nat.lt_or_ge bytes.length headerLength with short | long
  · -- Bytes without a whole header are not read at all.
    rw [decode_of_short short] at read
    cases read
  · obtain ⟨index, level, siblings, rfl⟩ := exists_header long
    -- The tests in front of the siblings refuse all bytes but these.
    rw [decode_header] at read
    split at read
    · cases read
    · split at read
      · cases read
      · rename_i announced
        obtain ⟨_, valid, read⟩ := bind_eq_ok_iff.mp read
        obtain ⟨path, siblingsRead, read⟩ := bind_eq_ok_iff.mp read
        cases read
        simp only [depth, length_of_decodePath siblingsRead, UInt8.ofNat_toNat]
        exact ⟨siblings, rfl, Decidable.not_not.mp announced, valid, siblingsRead⟩

/-- Whatever is read as an opening is what the opening is written as. -/
theorem encode_of_decode_exact (exact : H.ReadsExactly) {bytes : Bytes} {opening : Opening D}
    (read : decode H bytes = .ok opening) : opening.encode H = .ok bytes := by
  -- The parts that were read are put together in the order in which they were taken apart.
  obtain ⟨siblings, rfl, announced, valid, siblingsRead⟩ := header_of_decode read
  refine encode_eq_ok_iff.mpr ⟨valid, ?_⟩
  rw [format, flatMap_of_decodePath exact announced siblingsRead]

/-- With canonical digests, whatever is read as an opening is what the opening is written as. -/
theorem encode_of_decode (canonical : H.Canonical) {bytes : Bytes} {opening : Opening D}
    (read : decode H bytes = .ok opening) : opening.encode H = .ok bytes :=
  -- Canonical digests are read exactly, and nothing else is needed.
  encode_of_decode_exact canonical.bytes_ofBytes? read

/-- Equally many digests are told apart by their bytes one after another. -/
theorem flatMap_bytes_inj (canonical : H.Canonical) {path other : List D}
    (length : path.length = other.length)
    (same : path.flatMap H.bytes = other.flatMap H.bytes) : path = other := by
  induction path generalizing other with
  | nil => exact (List.length_eq_zero_iff.mp length.symm).symm
  | cons digest rest ih =>
    obtain ⟨opposite, others, rfl⟩ := List.exists_cons_of_length_eq_add_one length.symm
    rw [List.flatMap_cons, List.flatMap_cons] at same
    -- Both digests have one width, so they end at one place.
    have width := (canonical.length_bytes digest).trans (canonical.length_bytes opposite).symm
    obtain ⟨front, behind⟩ := List.append_inj same width
    rw [canonical.bytes_inj _ _ front, ih (Nat.succ.inj length) behind]

/-- No two openings are written as the same bytes. -/
theorem encode_inj (canonical : H.Canonical) {opening other : Opening D} {bytes : Bytes}
    (written : opening.encode H = .ok bytes) (writtenOther : other.encode H = .ok bytes) :
    opening = other := by
  obtain ⟨valid, rfl⟩ := encode_eq_ok_iff.mp written
  obtain ⟨validOther, same⟩ := encode_eq_ok_iff.mp writtenOther
  obtain ⟨shallow, -⟩ := checkIndex_eq_ok_iff.mp valid
  obtain ⟨shallowOther, -⟩ := checkIndex_eq_ok_iff.mp validOther
  -- The index and the depth have fixed places in front of the siblings.
  obtain ⟨index, behind⟩ := List.append_inj same (by simp)
  obtain ⟨level, siblings⟩ := List.cons.inj behind
  -- An accepted depth is small enough to be told by its byte.
  have depth : opening.path.length = other.path.length := by
    have depths := congrArg UInt8.toNat level
    simp only [UInt8.toNat_ofNat', Opening.depth, maxDepth] at depths shallow shallowOther
    omega
  have numbers := congrArg Bytes.ofBigEndian index
  rw [Bytes.ofBigEndian_bigEndian other.index.toNat_lt,
    Bytes.ofBigEndian_bigEndian opening.index.toNat_lt] at numbers
  show Opening.mk opening.index opening.path = ⟨other.index, other.path⟩
  rw [UInt64.toNat_inj.mp numbers, flatMap_bytes_inj canonical depth siblings.symm]

end Opening

/--
Openings whose index exists at their depth and byte strings that are read as openings correspond
one to one.

An opening with a sibling that is refused is written as well, and not read again.
-/
theorem opening_bytes_correspond {H : Hasher D} (canonical : H.Canonical) :
    (∀ (opening : Opening D) (bytes : Bytes), opening.encode H = .ok bytes →
      bytes.length = headerLength + opening.depth * H.width ∧
        ((∀ digest ∈ opening.path, (H.ofBytes? (H.bytes digest)).isSome) →
          Opening.decode H bytes = .ok opening) ∧
        ((∃ digest ∈ opening.path, H.ofBytes? (H.bytes digest) = none) →
          ∃ fault, Opening.decode H bytes = .error (.malformedProof fault) ∧
            fault.message = "bad digest bytes")) ∧
      (∀ (bytes : Bytes) (opening : Opening D), Opening.decode H bytes = .ok opening →
        opening.encode H = .ok bytes) ∧
      (∀ (bytes other : Bytes) (opening : Opening D), Opening.decode H bytes = .ok opening →
        Opening.decode H other = .ok opening → bytes = other) ∧
      ∀ (bytes : Bytes) (opening other : Opening D), opening.encode H = .ok bytes →
        other.encode H = .ok bytes → opening = other := by
  refine ⟨?_, ?_, ?_, ?_⟩
  · intro opening bytes written
    obtain ⟨valid, rfl⟩ := Opening.encode_eq_ok_iff.mp written
    have read := Opening.decode_format canonical valid
    refine ⟨Opening.length_format canonical opening, ?_, ?_⟩
    · intro accepted
      rw [read, if_pos accepted]
    · -- One refused sibling is enough for the whole opening to be refused.
      rintro ⟨digest, member, refused⟩
      have partly : ¬∀ digest ∈ opening.path, (H.ofBytes? (H.bytes digest)).isSome := by
        intro accepted
        have some := accepted digest member
        rw [refused] at some
        cases some
      exact ⟨.digestBytes, by rw [read, if_neg partly], rfl⟩
  · intro bytes opening read
    exact Opening.encode_of_decode canonical read
  · intro bytes other opening read readOther
    -- Both byte strings are the one that the opening is written as.
    have written := Opening.encode_of_decode canonical read
    rw [Opening.encode_of_decode canonical readOther] at written
    exact (Except.ok.inj written).symm
  · intro bytes opening other written writtenOther
    exact Opening.encode_inj canonical written writtenOther

/-- A sibling that may be read leads to the same opening again, and one that is refused does not. -/
theorem opening_bytes_correspond_refused :
    let hasher := Hasher.canonicalFnv
    let opening : Opening (Vector UInt8 4) := ⟨1, [#v[1, 2, 3, 4]]⟩
    let refused : Opening (Vector UInt8 4) := ⟨0, [#v[0xff, 2, 3, 4]]⟩
    let bytes : Bytes := [0, 0, 0, 0, 0, 0, 0, 1, 1, 1, 2, 3, 4]
    let other : Bytes := [0, 0, 0, 0, 0, 0, 0, 0, 1, 0xff, 2, 3, 4]
    hasher.Canonical ∧ opening.encode hasher = .ok bytes ∧ refused.encode hasher = .ok other ∧
      Opening.decode hasher bytes = .ok opening ∧
      ∃ fault, Opening.decode hasher other = .error (.malformedProof fault) ∧
        fault.message = "bad digest bytes" := by
  intro hasher opening refused bytes other
  -- This hasher refuses digests whose first byte is the greatest one.
  have canonical : hasher.Canonical := (Hasher.canonical_untagged Hash.Fnv.hash).reading _
  have written : opening.encode hasher = .ok bytes :=
    Opening.encode_eq_ok_iff.mpr ⟨checkIndex_eq_ok_iff.mpr (by decide), by decide⟩
  have writtenRefused : refused.encode hasher = .ok other :=
    Opening.encode_eq_ok_iff.mpr ⟨checkIndex_eq_ok_iff.mpr (by decide), by decide⟩
  obtain ⟨writes, -⟩ := opening_bytes_correspond canonical
  obtain ⟨-, accepted, -⟩ := writes opening bytes written
  obtain ⟨-, -, denied⟩ := writes refused other writtenRefused
  refine ⟨canonical, written, writtenRefused, accepted ?_, denied ?_⟩
  · rw [List.forall_mem_singleton]
    decide
  · exact ⟨#v[0xff, 2, 3, 4], List.mem_singleton_self _, by decide⟩

end Merkle
