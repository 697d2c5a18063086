import Merkle.Hasher.Standard
import Merkle.Proofs.Opening.Verdict
import Merkle.Proofs.Path.Meeting

/-! Openings accepted under one root say nothing different about what they share. -/

namespace Merkle

/--
Equally deep openings that are accepted under one root are consistent, whether or not any tree has
that root, unless they merge a collision.

From a level where the indices are the same, both reach the same digests and pass the same
siblings. Where the indices are siblings, each opening passes what the other one reached, and
different indices are siblings on some level. Openings of one index are the same.
-/
theorem accepted_openings_consistent [DecidableEq D] {H : Hasher D} {root digest second : D}
    {index other : UInt64} {path opposite : List D} (length : path.length = opposite.length)
    (accepted : (verifyDigest H root index path digest).value = .ok true)
    (acceptedOther : (verifyDigest H root other opposite second).value = .ok true) :
    PairsCollide H (climbPairs H digest index.toNat path)
        (climbPairs H second other.toNat opposite) ∨
      (∀ level, level ≤ path.length → index.toNat >>> level = other.toNat >>> level →
        reached H digest index.toNat path level = reached H second other.toNat opposite level ∧
          ∀ above, level ≤ above → path[above]? = opposite[above]?) ∧
      (∀ level, index.toNat >>> level = sibling (other.toNat >>> level) →
        path[level]? = some (reached H second other.toNat opposite level) ∧
          opposite[level]? = some (reached H digest index.toNat path level)) ∧
      (index ≠ other → ∃ level, level < path.length ∧
        index.toNat >>> level = sibling (other.toNat >>> level)) ∧
      (index = other → digest = second ∧ path = opposite) := by
  obtain ⟨-, inside, reaches⟩ := verifyDigest_value_eq_true_iff.mp accepted
  obtain ⟨-, insideOther, reachesOther⟩ := verifyDigest_value_eq_true_iff.mp acceptedOther
  rw [← length] at insideOther
  have meet := reaches.trans reachesOther.symm
  by_cases collide : PairsCollide H (climbPairs H digest index.toNat path)
      (climbPairs H second other.toNat opposite)
  · exact .inl collide
  · refine .inr ⟨?_, ?_, ?_, ?_⟩
    · intro level crossed shared
      obtain ⟨same, rest⟩ :=
        (reached_eq_of_shiftRight_eq length meet crossed shared).resolve_right collide
      refine ⟨same, fun above passed => ?_⟩
      -- The siblings above are behind the ones that were dropped.
      have behind := congrArg (fun path : List D => path[above - level]?) rest
      simp only [List.getElem?_drop] at behind
      rwa [Nat.add_sub_cancel' passed] at behind
    · intro level beside
      have crossed := lt_of_shiftRight_eq_sibling inside insideOther beside
      exact (reached_eq_of_shiftRight_eq_sibling length meet crossed beside).resolve_right collide
    · intro differ
      exact exists_shiftRight_eq_sibling inside insideOther
        (fun same => differ (UInt64.toNat_inj.mp same))
    · rintro rfl
      -- One index is shared from the leaves upwards.
      exact (climb_binding length meet).resolve_right collide

/-- The openings of the two inner leaves of four pass each other's digest below the root. -/
theorem accepted_openings_consistent_inner :
    let leaf : UInt8 → Vector UInt8 4 := fun byte => Hasher.fnv.leaf [byte]
    let left := Hasher.fnv.merge (leaf 0) (leaf 1)
    let right := Hasher.fnv.merge (leaf 2) (leaf 3)
    let root := Hasher.fnv.merge left right
    (verifyDigest Hasher.fnv root 1 [leaf 0, right] (leaf 1)).value = .ok true ∧
      (verifyDigest Hasher.fnv root 2 [leaf 3, left] (leaf 2)).value = .ok true ∧
      (PairsCollide Hasher.fnv (climbPairs Hasher.fnv (leaf 1) 1 [leaf 0, right])
          (climbPairs Hasher.fnv (leaf 2) 2 [leaf 3, left]) ∨
        (right = reached Hasher.fnv (leaf 2) 2 [leaf 3, left] 1 ∧
          left = reached Hasher.fnv (leaf 1) 1 [leaf 0, right] 1)) := by
  intro leaf left right root
  -- Both paths are climbed to the same root.
  have accepted : (verifyDigest Hasher.fnv root 1 [leaf 0, right] (leaf 1)).value = .ok true :=
    verifyDigest_value_eq_true_iff.mpr (by decide +kernel)
  have acceptedOther :
      (verifyDigest Hasher.fnv root 2 [leaf 3, left] (leaf 2)).value = .ok true :=
    verifyDigest_value_eq_true_iff.mpr (by decide +kernel)
  have length : [leaf 0, right].length = [leaf 3, left].length := rfl
  refine ⟨accepted, acceptedOther, ?_⟩
  rcases accepted_openings_consistent length accepted acceptedOther with collide | ⟨-, swap, -⟩
  · exact .inl collide
  · -- Halving both indices once makes them the two slots below the root.
    obtain ⟨passed, passedOther⟩ := swap 1 (by decide)
    exact .inr ⟨Option.some.inj passed, Option.some.inj passedOther⟩

end Merkle
