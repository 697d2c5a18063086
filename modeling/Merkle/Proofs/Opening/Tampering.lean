import Merkle.Hasher.Standard
import Merkle.Proofs.Opening.Verdict
import Merkle.Proofs.Path.Turning

/-! What another index in an opening changes: nothing where it turns between equal digests. -/

namespace Merkle

/--
An index can be replaced exactly where it makes no difference which digest comes first.

If the path passes, on every level where two indices differ, the digest that was reached there,
both of them reach the same digests and have the same verdict under any root. Conversely, indices
that are both accepted differ on such levels alone, unless their climbs merge a collision.
-/
theorem moved_index_verdict [DecidableEq D] {H : Hasher D} {root digest : D}
    {index other : UInt64} {path : List D} (shallow : path.length ≤ maxDepth)
    (inside : index.toNat < levelWidth path.length)
    (insideOther : other.toNat < levelWidth path.length) :
    (EqualAtTurns H digest index.toNat other.toNat path →
      (∃ verdict, (verifyDigest H root index path digest).value = .ok verdict ∧
          (verifyDigest H root other path digest).value = .ok verdict) ∧
        ∀ level, level ≤ path.length →
          reached H digest index.toNat path level = reached H digest other.toNat path level) ∧
      ((verifyDigest H root index path digest).value = .ok true →
        (verifyDigest H root other path digest).value = .ok true →
        EqualAtTurns H digest index.toNat other.toNat path ∨
          PairsCollide H (climbPairs H digest index.toNat path)
            (climbPairs H digest other.toNat path)) := by
  constructor
  · intro equal
    refine ⟨?_, fun level crossed => equal.reached_eq crossed⟩
    have valid := checkIndex_eq_ok_iff.mpr ⟨shallow, inside⟩
    have validOther := checkIndex_eq_ok_iff.mpr ⟨shallow, insideOther⟩
    -- The verdicts only depend on what is reached at the end of the path.
    have same := equal.reached_eq (Nat.le_refl path.length)
    rw [reached, reached, List.take_length] at same
    refine ⟨_, verifyDigest_value valid digest, ?_⟩
    rw [verifyDigest_value validOther digest, same]
  · intro accepted acceptedOther
    obtain ⟨-, -, reaches⟩ := verifyDigest_value_eq_true_iff.mp accepted
    obtain ⟨-, -, reachesOther⟩ := verifyDigest_value_eq_true_iff.mp acceptedOther
    -- Both climbs end at the root.
    rcases climb_turns_binding (reaches.trans reachesOther.symm) with ⟨-, equal⟩ | collide
    · exact .inl equal
    · exact .inr collide

/-- A leaf beside an equal one is accepted at either of their indices. -/
theorem moved_index_verdict_twins :
    let twin := Hasher.fnv.leaf [7]
    let right := Hasher.fnv.leaf [9]
    let path := [twin, right]
    let root := Hasher.fnv.merge (Hasher.fnv.merge twin twin) right
    path.length ≤ maxDepth ∧ (0 : UInt64).toNat < levelWidth path.length ∧
      (1 : UInt64).toNat < levelWidth path.length ∧
      (verifyDigest Hasher.fnv root 0 path twin).value = .ok true ∧
      (verifyDigest Hasher.fnv root 1 path twin).value = .ok true ∧
      (EqualAtTurns Hasher.fnv twin 0 1 path ∨
        PairsCollide Hasher.fnv (climbPairs Hasher.fnv twin 0 path)
          (climbPairs Hasher.fnv twin 1 path)) := by
  intro twin right path root
  have shallow : path.length ≤ maxDepth := by decide
  have inside : (0 : UInt64).toNat < levelWidth path.length := by decide
  have insideOther : (1 : UInt64).toNat < levelWidth path.length := by decide
  have accepted : (verifyDigest Hasher.fnv root 0 path twin).value = .ok true :=
    verifyDigest_value_eq_true_iff.mpr ⟨shallow, inside, rfl⟩
  have equal : EqualAtTurns Hasher.fnv twin (0 : UInt64).toNat (1 : UInt64).toNat path := by
    intro level crossed turn
    match level with
    | 0 => rfl
    | 1 => exact absurd rfl turn
  obtain ⟨moves, bound⟩ :=
    @moved_index_verdict _ _ Hasher.fnv root twin 0 1 path shallow inside insideOther
  obtain ⟨⟨verdict, same, sameOther⟩, -⟩ := moves equal
  -- The first index is accepted, so this is the common verdict.
  have acceptedOther : (verifyDigest Hasher.fnv root 1 path twin).value = .ok true := by
    rw [sameOther, ← same, accepted]
  exact ⟨shallow, inside, insideOther, accepted, acceptedOther, bound accepted acceptedOther⟩

end Merkle
