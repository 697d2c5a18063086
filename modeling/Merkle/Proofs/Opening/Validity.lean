import Merkle.Proofs.Opening.Completeness
import Merkle.Proofs.Opening.Format

/-! One notion of a valid opening, which opening, writing, reading and verification agree on. -/

namespace Merkle

namespace Opening

/-- The path is not too long, and the index exists at its depth. -/
def Valid (opening : Opening D) : Prop :=
  -- The bound is the number of leaf slots of a tree with that depth.
  opening.depth ≤ maxDepth ∧ opening.index.toNat < levelWidth opening.depth

instance (opening : Opening D) : Decidable opening.Valid :=
  inferInstanceAs (Decidable (_ ∧ _))

/-- The opening comes out of a tree or out of bytes. -/
inductive Produced (H : Hasher D) (opening : Opening D) : Prop where
  /-- A tree is opened. -/
  | opened (tree : Tree H) (constructed : tree.Constructed) (index : Nat)
      (opens : (tree.openAt index).value = .ok opening)
  /-- Bytes are read. -/
  | read (bytes : Bytes) (reads : decode H bytes = .ok opening)

variable {H : Hasher D} {opening : Opening D}

/-- Writing only fails for the index or the depth. -/
theorem encode_eq_error_iff {error : Error} :
    opening.encode H = .error error ↔ checkIndex opening.index opening.depth = .error error := by
  -- Once the index is accepted, there is nothing left to fail.
  unfold encode
  cases checkIndex opening.index opening.depth <;> simp [bind, Except.bind, pure, Except.pure]

/-- Exactly the valid openings are written. -/
theorem encode_isOk_iff : (∃ bytes, opening.encode H = .ok bytes) ↔ opening.Valid := by
  -- The bytes are determined by the opening, so only the test of the index is left.
  simp only [encode_eq_ok_iff, exists_and_left, exists_eq', and_true]
  exact checkIndex_eq_ok_iff

/-- A tree is only opened to valid openings. -/
theorem valid_of_openAt {tree : Tree H} (constructed : tree.Constructed) {index : Nat}
    (opens : (tree.openAt index).value = .ok opening) : opening.Valid := by
  have perfect := constructed.perfect
  have leaf : index < tree.leafCount := Tree.openAt_isOk_iff.mp ⟨opening, opens⟩
  have inside : index < tree.capacity := Nat.lt_of_lt_of_le leaf perfect.leafCount_le
  rw [Tree.openAt_of_lt leaf] at opens
  cases opens
  -- There is a slot for every leaf, and a level of no accepted tree is too deep.
  have deep := perfect.depth_lt
  rw [perfect.capacity_eq] at inside
  rw [Valid, depth, perfect.length_siblingPath (perfect.capacity_eq ▸ inside),
    perfect.toNat_ofNat_index (perfect.capacity_eq ▸ inside)]
  exact ⟨Nat.le_of_lt deep, inside⟩

/-- Bytes are only read as valid openings. -/
theorem valid_of_decode {bytes : Bytes} (reads : decode H bytes = .ok opening) : opening.Valid := by
  -- Reading tests the depth and the index before it reads any sibling.
  obtain ⟨_, -, -, valid, -⟩ := header_of_decode reads
  exact checkIndex_eq_ok_iff.mp valid

/-- Whatever comes out of a tree or out of bytes is valid. -/
theorem Produced.valid (produced : opening.Produced H) : opening.Valid := by
  -- Trees have a bounded depth, and reading tests what it returns.
  cases produced with
  | opened tree constructed index opens => exact valid_of_openAt constructed opens
  | read bytes reads => exact valid_of_decode reads

/-- A valid opening leads to a verdict on every leaf whose bytes can be counted. -/
theorem Valid.returns_verify [DecidableEq D] (valid : opening.Valid) {encoding : LeafEncoding α}
    {leaf : α} {bytes : Bytes} (written : encoding leaf = .ok bytes)
    (counted : bytes.length < UInt64.size) (root : D) :
    ∃ verdict, Returns (opening.verify H encoding root leaf) verdict := by
  -- The index is accepted, so the only thing left to fail is the encoding, which is given.
  have checked : checkIndex opening.index opening.path.length = .ok () :=
    checkIndex_eq_ok_iff.mpr valid
  have verdict : (verifyDigest H root opening.index opening.path (H.leaf bytes)).value = _ :=
    verifyDigest_value checked (H.leaf bytes)
  exact ⟨_, _, verify_of_encoded checked written counted, verdict⟩

/-- The bytes of an opening that is not too deep are refused with the error of its index. -/
theorem decode_format_of_refused (fixed : H.FixedWidth) (shallow : opening.depth ≤ maxDepth)
    {error : Error} (refused : checkIndex opening.index opening.depth = .error error) :
    decode H (opening.format H) = .error error := by
  -- The depth and the length are right, so reading goes on to test the index.
  rw [decode_format_eq fixed shallow, refused]
  rfl

end Opening

/-- A verification of a digest only fails for the index or the depth. -/
theorem verifyDigest_value_eq_error_iff [DecidableEq D] {H : Hasher D} {root digest : D}
    {index : UInt64} {path : List D} {error : Error} :
    (verifyDigest H root index path digest).value = .error error ↔
      checkIndex index path.length = .error error := by
  -- Behind the check there is a verdict, which is no error.
  unfold verifyDigest
  cases checkIndex index path.length <;> simp [Report.failure]

/--
An opening is written, read and verified when it is valid, and is refused with one error otherwise.

Writing fails exactly where verifying a digest does, and with the same error. Openings that come out
of a tree or out of bytes are valid, so they are written, and lead to a verdict on every leaf with
bytes. The bytes of any other opening that is not too deep are refused for its index, as the opening
itself is.
-/
theorem validity_agrees [DecidableEq D] {H : Hasher D} (fixed : H.FixedWidth) :
    (∀ (opening : Opening D) (root digest : D) (error : Error),
      opening.encode H = .error error ↔
        (verifyDigest H root opening.index opening.path digest).value = .error error) ∧
      (∀ opening : Opening D, (∃ bytes, opening.encode H = .ok bytes) ↔ opening.Valid) ∧
      (∀ opening : Opening D, opening.Produced H →
        (∃ bytes, opening.encode H = .ok bytes) ∧
          ∀ (α : Type) (encoding : LeafEncoding α) (root : D) (leaf : α) (bytes : Bytes),
            encoding leaf = .ok bytes → bytes.length < UInt64.size →
            ∃ verdict, Returns (opening.verify H encoding root leaf) verdict) ∧
      ∀ (opening : Opening D) (error : Error), opening.depth ≤ maxDepth →
        opening.encode H = .error error →
        error = .indexOutOfRange opening.index.toNat (levelWidth opening.depth) ∧
          Opening.decode H (opening.format H) = .error error := by
  refine ⟨?_, fun opening => Opening.encode_isOk_iff, ?_, ?_⟩
  · -- Both fail with the check of the index, and with nothing else.
    intro opening root digest error
    rw [Opening.encode_eq_error_iff, verifyDigest_value_eq_error_iff, Opening.depth]
  · intro opening produced
    have valid := produced.valid
    exact ⟨Opening.encode_isOk_iff.mpr valid, fun α encoding root leaf bytes written counted =>
      valid.returns_verify written counted root⟩
  · intro opening error shallow refused
    rw [Opening.encode_eq_error_iff] at refused
    refine ⟨?_, Opening.decode_format_of_refused fixed shallow refused⟩
    -- The depth is no reason to refuse the opening, so its index is.
    rcases Nat.lt_or_ge opening.index.toNat (levelWidth opening.depth) with inside | past
    · rw [checkIndex_eq_ok_iff.mpr ⟨shallow, inside⟩] at refused
      cases refused
    · rw [checkIndex_of_past shallow past] at refused
      exact (Except.error.inj refused).symm

/--
The third of three leaves is opened validly, and with one sibling less its index is refused by
writing, verifying and reading alike.
-/
theorem validity_agrees_past :
    let hasher := Hasher.fnv
    let tree := Tree.arrange hasher 4 ([[1], [2], [3]].map hasher.leaf)
    let opening : Opening (Vector UInt8 4) := ⟨2, tree.siblingPath 2⟩
    let past : Opening (Vector UInt8 4) := ⟨2, [hasher.leaf [4]]⟩
    hasher.FixedWidth ∧ opening.Produced hasher ∧
      (∃ bytes, opening.encode hasher = .ok bytes) ∧
      (∃ verdict, Returns (opening.verify hasher .raw tree.root [3]) verdict) ∧
      past.encode hasher = .error (.indexOutOfRange 2 2) ∧
      (verifyDigest hasher tree.root past.index past.path hasher.zero).value =
        .error (.indexOutOfRange 2 2) ∧
      Opening.decode hasher (past.format hasher) = .error (.indexOutOfRange 2 2) := by
  intro hasher tree opening past
  have fixed : hasher.FixedWidth := (Hasher.canonical_untagged Hash.Fnv.hash).length_bytes
  have accepted : Padding.zeros.capacity 3 = .ok 4 := Padding.capacity_eq_ok_iff.mpr (by decide)
  have produced : opening.Produced hasher :=
    .opened tree (Tree.constructed_arrange accepted) 2 (Tree.openAt_of_lt (by decide))
  obtain ⟨agree, -, valid, refuse⟩ := validity_agrees fixed
  obtain ⟨written, verdicts⟩ := valid opening produced
  -- One sibling belongs to the indices zero and one.
  have refused : past.encode hasher = .error (.indexOutOfRange 2 2) :=
    Opening.encode_eq_error_iff.mpr (checkIndex_of_past (by decide) (by decide))
  obtain ⟨-, unread⟩ := refuse past _ (by decide) refused
  exact ⟨fixed, produced, written, verdicts Bytes .raw tree.root [3] [3] rfl (by decide), refused,
    (agree past tree.root hasher.zero _).mp refused, unread⟩

end Merkle
