import Merkle.Hasher.Standard
import Merkle.Proofs.Opening.Verdict

/-! How verifications end on every input: which check fails first, and what a verdict costs. -/

namespace Merkle

/-- A verdict, at the cost of so many leaf hashes, merges and leaf bytes. -/
structure Judges (report : Report Bool) (verdict : Bool) (leafHashes merges bytes : Nat) :
    Prop where
  /-- The report succeeds with the verdict. -/
  value_eq : report.value = .ok verdict
  /-- So many hashes were taken over leaves. -/
  leafHashes_eq : report.cost.leafHashes.toNat = leafHashes
  /-- So many pairs of digests were merged. -/
  merges_eq : report.cost.nodeHashes.toNat = merges
  /-- So many leaf bytes were hashed. -/
  bytes_eq : report.cost.hashedBytes.toNat = bytes

/-- At an accepted depth, the word that is shifted to the bound of an index holds the bound. -/
theorem toNat_shiftLeft_depth {depth : Nat} (shallow : depth ≤ maxDepth) :
    ((1 : UInt64) <<< UInt64.ofNat depth).toNat = levelWidth depth := by
  -- The greatest depth still shifts the digit to the last place of the word.
  have places : depth < 64 := Nat.lt_of_le_of_lt shallow (by decide)
  have amount : (UInt64.ofNat depth).toNat = depth :=
    UInt64.toNat_ofNat_of_lt' (Nat.lt_trans places (by decide))
  rw [UInt64.toNat_shiftLeft, amount, Nat.mod_eq_of_lt places]
  exact Nat.mod_eq_of_lt (levelWidth_lt_size shallow)

/-- The length of an accepted path fits the counter of merges. -/
theorem toNat_ofNat_length {path : List D} (shallow : path.length ≤ maxDepth) :
    (UInt32.ofNat path.length).toNat = path.length :=
  -- A path has at most as many siblings as a word has digits.
  UInt32.toNat_ofNat_of_lt' (Nat.lt_of_le_of_lt shallow (by decide))

section Verdicts

variable [DecidableEq D] {H : Hasher D} {root : D} {index : UInt64} {path : List D}
  (valid : checkIndex index path.length = .ok ())
include valid

/-- A digest at an index that exists is judged at the cost of one merge for each sibling. -/
theorem judges_verifyDigest (digest : D) :
    Judges (verifyDigest H root index path digest)
      (climb H digest index.toNat path = root) 0 path.length 0 := by
  obtain ⟨shallow, -⟩ := checkIndex_eq_ok_iff.mp valid
  have cost : (verifyDigest H root index path digest).cost = _ := verifyDigest_cost valid digest
  -- Only the merges are counted, and the greatest depth is far below the end of their counter.
  refine ⟨verifyDigest_value valid digest, ?_, ?_, ?_⟩
  · rw [cost]; rfl
  · rw [cost]; exact toNat_ofNat_length shallow
  · rw [cost]; rfl

/-- A leaf at an index that exists is judged as its digest is, at the further cost of hashing it. -/
theorem judges_verify {encoding : LeafEncoding α} {leaf : α} {bytes : Bytes}
    (written : encoding leaf = .ok bytes) (counted : bytes.length < UInt64.size) :
    ∃ report verdict, verify H encoding root index path leaf = .ok report ∧
      (verifyDigest H root index path (H.leaf bytes)).value = .ok verdict ∧
      Judges report verdict 1 path.length bytes.length := by
  -- The verdict is that on the digest, and the counters hold one hash and its bytes.
  obtain ⟨shallow, -⟩ := checkIndex_eq_ok_iff.mp valid
  have value : (verifyDigest H root index path (H.leaf bytes)).value = _ :=
    verifyDigest_value valid (H.leaf bytes)
  exact ⟨_, _, verify_of_encoded valid written counted, value, value, rfl,
    toNat_ofNat_length shallow, UInt64.toNat_ofNat_of_lt' counted⟩

end Verdicts

/--
Verifications do not overflow when the bytes of the leaf can be counted, and all of them end at the
first check that fails.

The checks are, in this order, the expected depth, the greatest depth, the index, and the bytes of
the leaf, as far as the verification makes them. A failed check costs nothing, and a verdict of
either kind costs one merge for each sibling. A leaf is judged as its digest is, and costs one hash
over its bytes besides.
-/
theorem verifications_agree [DecidableEq D] (H : Hasher D) {encoding : LeafEncoding α} {leaf : α}
    (counted : ∀ bytes, encoding leaf = .ok bytes → bytes.length < UInt64.size) (expected : Nat)
    (root : D) (index : UInt64) (path : List D) :
    ∃ report, verify H encoding root index path leaf = .ok report ∧
      verifyAtDepth H encoding expected root index path leaf =
        .ok (if path.length = expected then report
          else .failure (.malformedProof (.siblingCount path.length expected)) {}) ∧
      (maxDepth < path.length →
        report = .failure (.malformedProof (.pathDepth path.length)) {} ∧
          ∀ digest, verifyDigest H root index path digest =
            .failure (.malformedProof (.pathDepth path.length)) {}) ∧
      (path.length ≤ maxDepth →
        ((1 : UInt64) <<< UInt64.ofNat path.length).toNat = levelWidth path.length ∧
          (levelWidth path.length ≤ index.toNat →
            report = .failure (.indexOutOfRange index.toNat (levelWidth path.length)) {} ∧
              ∀ digest, verifyDigest H root index path digest =
                .failure (.indexOutOfRange index.toNat (levelWidth path.length)) {}) ∧
          (index.toNat < levelWidth path.length →
            (∀ error, encoding leaf = .error error → report = .failure error {}) ∧
              (∀ bytes, encoding leaf = .ok bytes → ∃ verdict,
                (verifyDigest H root index path (H.leaf bytes)).value = .ok verdict ∧
                  Judges report verdict 1 path.length bytes.length) ∧
              ∀ digest, Judges (verifyDigest H root index path digest)
                (climb H digest index.toNat path = root) 0 path.length 0)) := by
  -- The cases are the checks in their order, and each one ends with the first check that fails.
  rcases Nat.lt_or_ge maxDepth path.length with deep | shallow
  · have refused := checkIndex_of_deep index deep
    have finished : verify H encoding root index path leaf = _ := verify_of_refused refused
    refine ⟨_, finished, verifyAtDepth_of_verify expected finished,
      fun _ => ⟨rfl, verifyDigest_of_refused refused⟩, fun shallow => ?_⟩
    omega
  · -- The bound of the index is only formed at a depth that a word has room for.
    have bound := toNat_shiftLeft_depth shallow
    rcases Nat.lt_or_ge index.toNat (levelWidth path.length) with inside | past
    · have valid := checkIndex_eq_ok_iff.mpr ⟨shallow, inside⟩
      cases written : encoding leaf with
      | error error =>
        -- The leaf is the last to be refused, while its digest would be judged.
        have finished : verify H encoding root index path leaf = _ := verify_of_fails valid written
        refine ⟨_, finished, verifyAtDepth_of_verify expected finished, fun deep => ?_,
          fun _ => ⟨bound, fun past => ?_, fun _ => ⟨?_, nofun, judges_verifyDigest valid⟩⟩⟩
        · omega
        · omega
        · rintro _ ⟨⟩
          rfl
      | ok bytes =>
        obtain ⟨report, verdict, finished, value, judges⟩ :
            ∃ report verdict, verify H encoding root index path leaf = .ok report ∧
              (verifyDigest H root index path (H.leaf bytes)).value = .ok verdict ∧
              Judges report verdict 1 path.length bytes.length :=
          judges_verify valid written (counted bytes written)
        refine ⟨report, finished, verifyAtDepth_of_verify expected finished, fun deep => ?_,
          fun _ => ⟨bound, fun past => ?_, fun _ => ⟨nofun, ?_, judges_verifyDigest valid⟩⟩⟩
        · omega
        · omega
        · rintro _ ⟨⟩
          exact ⟨verdict, value, judges⟩
    · have refused := checkIndex_of_past shallow past
      have finished : verify H encoding root index path leaf = _ := verify_of_refused refused
      refine ⟨_, finished, verifyAtDepth_of_verify expected finished, fun deep => ?_,
        fun _ => ⟨bound, fun _ => ⟨rfl, verifyDigest_of_refused refused⟩, fun inside => ?_⟩⟩
      · omega
      · omega

/-- Along a path of the greatest length, the last index is judged and the next one is refused. -/
theorem verifications_agree_greatest :
    let path := List.replicate maxDepth Hasher.fnv.zero
    let last := UInt64.ofNat (levelWidth maxDepth - 1)
    let next := UInt64.ofNat (levelWidth maxDepth)
    let verifyAt := fun index => verify Hasher.fnv .raw Hasher.fnv.zero index path [7]
    (∀ bytes, LeafEncoding.raw [7] = .ok bytes → bytes.length < UInt64.size) ∧
      (∃ report verdict, verifyAt last = .ok report ∧ Judges report verdict 1 63 1) ∧
      verifyAt next =
        .ok (.failure (.indexOutOfRange (levelWidth maxDepth) (levelWidth maxDepth)) {}) ∧
      verifyAtDepth Hasher.fnv .raw 62 Hasher.fnv.zero last path [7] =
        .ok (.failure (.malformedProof (.siblingCount 63 62)) {}) := by
  intro path last next verifyAt
  have counted : ∀ bytes, LeafEncoding.raw [7] = .ok bytes → bytes.length < UInt64.size := by
    rintro _ ⟨⟩
    decide
  have length : path.length = 63 := List.length_replicate
  obtain ⟨report, finished, pinned, -, shallow⟩ :=
    verifications_agree Hasher.fnv counted 62 Hasher.fnv.zero last path
  obtain ⟨-, -, inside⟩ := shallow (by rw [length]; decide)
  -- The last index of the lowest level is the greatest one below the bound.
  obtain ⟨-, judged, -⟩ := inside (by rw [length]; decide)
  obtain ⟨verdict, -, judges⟩ := judged [7] rfl
  obtain ⟨other, finishedOther, -, -, shallow⟩ :=
    verifications_agree Hasher.fnv counted 62 Hasher.fnv.zero next path
  obtain ⟨-, past, -⟩ := shallow (by rw [length]; decide)
  obtain ⟨refused, -⟩ := past (by rw [length]; decide)
  rw [length] at judges pinned refused
  subst refused
  exact ⟨counted, ⟨report, verdict, finished, judges⟩, finishedOther, pinned⟩

end Merkle
