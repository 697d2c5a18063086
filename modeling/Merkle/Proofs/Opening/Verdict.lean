import Merkle.Opening.Verify
import Merkle.Proofs.Level
import Merkle.Proofs.Report

/-! When exactly each verification accepts. -/

namespace Merkle

/-- An index is accepted when the depth is, and the level there has a slot for it. -/
theorem checkIndex_eq_ok_iff {index : UInt64} {depth : Nat} :
    checkIndex index depth = .ok () ↔ depth ≤ maxDepth ∧ index.toNat < levelWidth depth := by
  unfold checkIndex
  split
  · -- No level is as deep as that.
    rename_i deep
    simp only [reduceCtorEq, false_iff]
    omega
  · split
    · -- The level ends before the index.
      rename_i past
      simp only [reduceCtorEq, false_iff]
      omega
    · simp only [true_iff]
      omega

/-- A depth that no tree has is refused, whatever the index is. -/
theorem checkIndex_of_deep (index : UInt64) {depth : Nat} (deep : maxDepth < depth) :
    checkIndex index depth = .error (.malformedProof (.pathDepth depth)) := by
  -- The depth is tested first.
  rw [checkIndex, if_pos deep]

/-- At any other depth, an index is refused when the level there ends before it. -/
theorem checkIndex_of_past {index : UInt64} {depth : Nat} (shallow : depth ≤ maxDepth)
    (past : levelWidth depth ≤ index.toNat) :
    checkIndex index depth = .error (.indexOutOfRange index.toNat (levelWidth depth)) := by
  -- The depth is passed, and the bound is the width of the level.
  rw [checkIndex, if_neg (Nat.not_lt.mpr shallow), if_pos past]

/-- The bound of an index at an accepted depth is itself the number of a word. -/
theorem levelWidth_lt_size {depth : Nat} (shallow : depth ≤ maxDepth) :
    levelWidth depth < UInt64.size :=
  -- The width grows with the depth, and at the greatest depth it still fits.
  Nat.lt_of_le_of_lt (levelWidth_le_levelWidth shallow) (by decide)

/-- A number that is no larger than a word's is the number of a word. -/
theorem toNat_ofNat_of_le {index : UInt64} {number : Nat} (below : number ≤ index.toNat) :
    (UInt64.ofNat number).toNat = number :=
  -- Whatever is below a word is small enough to be one.
  UInt64.toNat_ofNat_of_lt' (Nat.lt_of_le_of_lt below index.toNat_lt)

/-- An index that exists some levels down exists above them when it is halved as often. -/
theorem checkIndex_halved {index : UInt64} {level depth : Nat} (fits : depth ≤ maxDepth)
    (inside : index.toNat < levelWidth (level + depth)) :
    checkIndex (UInt64.ofNat (index.toNat >>> level)) depth = .ok () := by
  -- Halving never increases an index, so it stays a word.
  rw [checkIndex_eq_ok_iff, toNat_ofNat_of_le (Nat.shiftRight_le _ _)]
  exact ⟨fits, shiftRight_lt_levelWidth level inside⟩

variable [DecidableEq D] {H : Hasher D}

/-- A digest is accepted when the path leads from it to the root. -/
theorem verifyDigest_value_eq_true_iff {root : D} {index : UInt64} {path : List D} {digest : D} :
    (verifyDigest H root index path digest).value = .ok true ↔
      path.length ≤ maxDepth ∧ index.toNat < levelWidth path.length ∧
        climb H digest index.toNat path = root := by
  -- The first two conditions are those of the index check.
  rw [← and_assoc, ← checkIndex_eq_ok_iff]
  unfold verifyDigest
  cases checkIndex index path.length with
  | error error => simp [Report.failure]
  | ok checked => simp

/-- A digest at a refused index costs nothing and reports nothing, whatever the digest is. -/
theorem verifyDigest_of_refused {root : D} {index : UInt64} {path : List D} {error : Error}
    (refused : checkIndex index path.length = .error error) (digest : D) :
    verifyDigest H root index path digest = .failure error {} := by
  -- The index is tested before anything is merged.
  rw [verifyDigest, refused]

/-- A digest at an index that exists is judged by where the path leads from it. -/
theorem verifyDigest_value {root : D} {index : UInt64} {path : List D}
    (valid : checkIndex index path.length = .ok ()) (digest : D) :
    (verifyDigest H root index path digest).value =
      .ok (decide (climb H digest index.toNat path = root)) := by
  -- The digests are compared after all siblings are merged.
  rw [verifyDigest, valid]

/-- A digest at an index that exists costs one merge for each sibling. -/
theorem verifyDigest_cost {root : D} {index : UInt64} {path : List D}
    (valid : checkIndex index path.length = .ok ()) (digest : D) :
    (verifyDigest H root index path digest).cost = { nodeHashes := UInt32.ofNat path.length } := by
  -- The merges are charged whether or not the root is reached.
  rw [verifyDigest, valid]

section Leaf

variable {encoding : LeafEncoding α} {root : D} {index : UInt64} {path : List D} {leaf : α}
  {bytes : Bytes}

/-- A leaf at a refused index costs nothing and is not even encoded. -/
theorem verify_of_refused {error : Error} (refused : checkIndex index path.length = .error error) :
    verify H encoding root index path leaf = .ok (.failure error {}) := by
  -- The index is tested before the leaf is looked at.
  rw [verify, refused]

/-- A leaf without bytes costs nothing at an index that exists. -/
theorem verify_of_fails (valid : checkIndex index path.length = .ok ()) {error : Error}
    (fails : encoding leaf = .error error) :
    verify H encoding root index path leaf = .ok (.failure error {}) := by
  -- The encoding fails before its bytes could be charged.
  rw [verify, valid]
  dsimp only
  rw [fails]

/-- A leaf at an index that exists is judged by its digest, at the further cost of hashing it. -/
theorem verify_of_encoded (valid : checkIndex index path.length = .ok ())
    (written : encoding leaf = .ok bytes) (counted : bytes.length < UInt64.size) :
    verify H encoding root index path leaf =
      .ok { verifyDigest H root index path (H.leaf bytes) with
            cost :=
              { leafHashes := 1
                nodeHashes := UInt32.ofNat path.length
                hashedBytes := UInt64.ofNat bytes.length } } := by
  -- The tests are passed one after another, and then the two costs are joined.
  rw [verify, valid]
  dsimp only
  rw [written]
  dsimp only
  rw [Cost.outcome_chargeLeaf_first counted]
  show (verifyDigest H root index path (H.leaf bytes)).withEarlier
    { leafHashes := 1, hashedBytes := UInt64.ofNat bytes.length } = _
  -- The leaf and the merges are counted apart, so their costs have a sum.
  rw [Report.withEarlier, Costed.withEarlier_eq, verifyDigest_cost valid,
    Cost.add_of_nodeHashes_eq_zero rfl]
  rfl

/-- A leaf whose bytes can be counted is judged without an overflow, at any index. -/
theorem verify_isOk (written : encoding leaf = .ok bytes) (counted : bytes.length < UInt64.size) :
    ∃ report, verify H encoding root index path leaf = .ok report := by
  cases valid : checkIndex index path.length with
  | error error =>
    -- A wrong index is refused before the leaf is charged.
    exact ⟨_, verify_of_refused valid⟩
  | ok nothing => exact ⟨_, verify_of_encoded valid written counted⟩

/-- A known depth is tested in front of all else, and changes nothing for a path of that length. -/
theorem verifyAtDepth_of_verify (expected : Nat) {report : Report Bool}
    (finished : verify H encoding root index path leaf = .ok report) :
    verifyAtDepth H encoding expected root index path leaf =
      .ok (if path.length = expected then report
        else .failure (.malformedProof (.siblingCount path.length expected)) {}) := by
  -- A path of another length fails before it is followed.
  rw [verifyAtDepth]
  split
  · exact finished
  · rfl

/-- A leaf whose bytes can be counted is judged without an overflow, at any depth. -/
theorem verifyAtDepth_isOk (expected : Nat) (written : encoding leaf = .ok bytes)
    (counted : bytes.length < UInt64.size) :
    ∃ report, verifyAtDepth H encoding expected root index path leaf = .ok report := by
  -- The test of the length cannot overflow, and the rest does not.
  obtain ⟨report, finished⟩ : ∃ report, verify H encoding root index path leaf = .ok report :=
    verify_isOk written counted
  exact ⟨_, verifyAtDepth_of_verify expected finished⟩

end Leaf

/-- A leaf is accepted when its bytes can be counted and the path leads from their digest to the
root. -/
theorem returns_verify_true_iff {encoding : LeafEncoding α} {root : D} {index : UInt64}
    {path : List D} {leaf : α} :
    Returns (verify H encoding root index path leaf) true ↔
      ∃ bytes, encoding leaf = .ok bytes ∧ bytes.length < UInt64.size ∧
        (verifyDigest H root index path (H.leaf bytes)).value = .ok true := by
  cases checked : checkIndex index path.length with
  | error error =>
    -- The digest of the leaf is refused for the same index.
    simp [returns_ok_iff, Report.failure, verify, verifyDigest, checked]
  | ok nothing =>
    cases written : encoding leaf with
    | error error => simp [returns_ok_iff, Report.failure, verify, checked, written]
    | ok bytes =>
      simp only [Except.ok.injEq, exists_eq_left']
      by_cases counted : bytes.length < UInt64.size
      · -- A leaf that can be counted is judged by its digest.
        rw [verify_of_encoded checked written counted, returns_ok_iff]
        simp only [counted, true_and]
      · simp only [counted, false_and, iff_false]
        rintro ⟨report, finished, -⟩
        -- Charging the leaf counts its bytes, which only succeeds in the words' range.
        rw [verify, checked] at finished
        dsimp only at finished
        rw [written] at finished
        obtain ⟨charged, paid, -⟩ := bind_eq_ok_iff.mp finished
        obtain ⟨-, -, hashedBytes⟩ := Cost.outcome_chargeLeaf_eq_ok_iff.mp paid
        have bound := charged.cost.hashedBytes.toNat_lt
        simp only [UInt64.toNat_zero, Nat.zero_add] at hashedBytes
        exact counted (hashedBytes ▸ bound)

/-- At a known depth, a leaf is accepted when the path has that length and leads to the root. -/
theorem returns_verifyAtDepth_true_iff {encoding : LeafEncoding α} {expected : Nat} {root : D}
    {index : UInt64} {path : List D} {leaf : α} :
    Returns (verifyAtDepth H encoding expected root index path leaf) true ↔
      path.length = expected ∧ Returns (verify H encoding root index path leaf) true := by
  unfold verifyAtDepth
  split
  · rename_i pinned
    simp only [pinned, true_and]
  · -- A path of another length ends with an error, which is not an acceptance.
    rename_i other
    simp only [returns_ok_iff, Report.failure, reduceCtorEq, other, false_and]

end Merkle
