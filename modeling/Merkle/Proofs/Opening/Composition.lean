import Merkle.Hasher.Standard
import Merkle.Proofs.Opening.Completeness

/-! Paths in two parts: what each part shows, and openings of trees that stand in other trees. -/

namespace Merkle

/-- A path in two parts is climbed from the lower digits of the position, and then from the rest. -/
theorem climb_append_mod (H : Hasher D) (digest : D) (position : Nat) (low high : List D) :
    climb H digest position (low ++ high) =
      climb H (climb H digest (position % levelWidth low.length) low) (position >>> low.length)
        high := by
  -- The lower part only turns by the digits that the remainder keeps.
  rw [climb_append, climb_congr H digest (Nat.mod_mod _ _)]

section Split

variable {index : UInt64} {low high : List D} (fits : low.length + high.length ≤ maxDepth)
include fits

/-- The lower digits of an index exist at the depth of the lower part of a path. -/
theorem checkIndex_lower :
    checkIndex (UInt64.ofNat (index.toNat % levelWidth low.length)) low.length = .ok () := by
  -- A remainder is below what it is divided by, which is the width of the lower levels.
  rw [checkIndex_eq_ok_iff, toNat_ofNat_of_le (Nat.mod_le _ _)]
  exact ⟨by omega, Nat.mod_lt _ (levelWidth_pos low.length)⟩

variable (inside : index.toNat < levelWidth (low.length + high.length))
include inside

/-- The index itself exists at the depth of the whole path. -/
theorem checkIndex_append : checkIndex index (low ++ high).length = .ok () := by
  -- Depths add up, so the assumptions are about the whole path.
  rw [checkIndex_eq_ok_iff, List.length_append]
  exact ⟨fits, inside⟩

variable [DecidableEq D] {H : Hasher D} {root digest : D}

/-- A path in two parts is judged as its upper part is, from where the lower one leads. -/
theorem verifyDigest_append :
    (verifyDigest H root index (low ++ high) digest).value =
      (verifyDigest H root (UInt64.ofNat (index.toNat >>> low.length)) high
        (climb H digest (index.toNat % levelWidth low.length) low)).value := by
  -- Both indices exist, so only where the paths lead is left to compare.
  rw [verifyDigest_value (checkIndex_append fits inside),
    verifyDigest_value (checkIndex_halved (by omega) inside), climb_append_mod,
    toNat_ofNat_of_le (Nat.shiftRight_le _ _)]

end Split

/-- Only an index with a leaf has a leaf digest. -/
theorem Tree.lt_leafCount_of_leafDigest? {H : Hasher D} {tree : Tree H} {index : Nat} {digest : D}
    (found : tree.leafDigest? index = some digest) : index < tree.leafCount := by
  -- Leaf digests are taken from the leaf slots up to the number of leaves.
  have inside := (List.getElem?_eq_some_iff.mp found).1
  rw [leafDigests, List.length_take] at inside
  omega

/-- A leaf of a tree whose root is a leaf of another tree is accepted under the root of that one,
at the place within both and along both paths. -/
theorem Tree.Perfect.verifyDigest_nested [DecidableEq D] {H : Hasher D} {inner outer : Tree H}
    (perfect : inner.Perfect) (perfectOuter : outer.Perfect)
    (fits : inner.depth + outer.depth ≤ maxDepth) {leaf slot : Nat}
    (inside : leaf < inner.capacity) (insideOuter : slot < outer.capacity)
    (stored : outer.node (outer.capacity + slot) = inner.root) :
    (UInt64.ofNat (slot * levelWidth inner.depth + leaf)).toNat =
        slot * levelWidth inner.depth + leaf ∧
      (verifyDigest H outer.root (UInt64.ofNat (slot * levelWidth inner.depth + leaf))
        (inner.siblingPath leaf ++ outer.siblingPath slot)
        (inner.node (inner.capacity + leaf))).value = .ok true := by
  have length := perfect.length_siblingPath inside
  have lengthOuter := perfectOuter.length_siblingPath insideOuter
  have accepted := perfectOuter.verifyDigest_siblingPath insideOuter
  have reaches := perfect.climb_siblingPath inside
  rw [perfect.capacity_eq] at inside
  rw [perfectOuter.capacity_eq] at insideOuter
  -- The place is below the widths of both trees together, which a word can number.
  have place := mul_levelWidth_add_lt inside insideOuter
  have narrow : levelWidth (inner.depth + outer.depth) ≤ levelWidth maxDepth :=
    levelWidth_le_levelWidth fits
  have words : levelWidth maxDepth < UInt64.size := by decide
  have exact : (UInt64.ofNat (slot * levelWidth inner.depth + leaf)).toNat =
      slot * levelWidth inner.depth + leaf := UInt64.toNat_ofNat_of_lt' (by omega)
  refine ⟨exact, ?_⟩
  -- Below is the place in the inner tree, whose root is where the outer path starts.
  rw [verifyDigest_append (by rw [length, lengthOuter]; exact fits)
    (by rw [exact, length, lengthOuter]; exact place), exact, length,
    mul_levelWidth_add_mod inside, shiftRight_mul_levelWidth_add inside, reaches, ← stored]
  exact accepted

/--
A path in two parts is accepted when its parts are.

The lower part leads, from the lower digits of the index, to the one digest it is accepted under,
and the whole path is accepted when the upper part is accepted for that digest at the rest of the
index. The merges of both parts are those of the whole path. So a leaf of a tree can be opened under
the root of another tree that has the first tree's root as a leaf.
-/
theorem paths_compose [DecidableEq D] (H : Hasher D) :
    (∀ (root digest : D) (index : UInt64) (low high : List D),
      low.length + high.length ≤ maxDepth →
      index.toNat < levelWidth (low.length + high.length) →
      let below := UInt64.ofNat (index.toNat % levelWidth low.length)
      let above := UInt64.ofNat (index.toNat >>> low.length)
      let middle := climb H digest (index.toNat % levelWidth low.length) low
      let whole := verifyDigest H root index (low ++ high) digest
      let lower := verifyDigest H middle below low digest
      let upper := verifyDigest H root above high middle
      below.toNat = index.toNat % levelWidth low.length ∧
        above.toNat = index.toNat >>> low.length ∧
        (whole.value = .ok true ↔ upper.value = .ok true) ∧
        (∀ other, (verifyDigest H other below low digest).value = .ok true ↔ other = middle) ∧
        whole.cost.nodeHashes.toNat =
          lower.cost.nodeHashes.toNat + upper.cost.nodeHashes.toNat) ∧
      ∀ inner outer : Tree H, inner.Constructed → outer.Constructed →
        inner.depth + outer.depth ≤ maxDepth → ∀ leaf slot digest,
        inner.leafDigest? leaf = some digest → outer.leafDigest? slot = some inner.root →
        ∃ opening enclosing, (inner.openAt leaf).value = .ok opening ∧
          (outer.openAt slot).value = .ok enclosing ∧
          let index := UInt64.ofNat (slot * levelWidth inner.depth + leaf)
          index.toNat = slot * levelWidth inner.depth + leaf ∧
            (verifyDigest H outer.root index (opening.path ++ enclosing.path) digest).value =
              .ok true := by
  constructor
  · intro root digest index low high fits inside below above middle whole lower upper
    -- Both parts of the index are smaller than the index, so they are words as well.
    have lowerIndex : below.toNat = index.toNat % levelWidth low.length :=
      toNat_ofNat_of_le (Nat.mod_le _ _)
    have upperIndex : above.toNat = index.toNat >>> low.length :=
      toNat_ofNat_of_le (Nat.shiftRight_le _ _)
    have valid : checkIndex below low.length = .ok () := checkIndex_lower fits
    refine ⟨lowerIndex, upperIndex, ?_, ?_, ?_⟩
    · -- The upper part goes on from the digest that the lower part leads to.
      rw [verifyDigest_append fits inside]
    · -- The lower part is accepted under nothing but the digest that it leads to.
      intro other
      rw [verifyDigest_value valid, Except.ok.injEq, decide_eq_true_eq, lowerIndex]
      exact eq_comm
    · -- A path of accepted length has one merge for each sibling, and its length fits the counter.
      have counter : ∀ length, length ≤ maxDepth → (UInt32.ofNat length).toNat = length :=
        fun length short => UInt32.toNat_ofNat_of_lt' (Nat.lt_of_le_of_lt short (by decide))
      rw [verifyDigest_cost (checkIndex_append fits inside), verifyDigest_cost valid,
        verifyDigest_cost (checkIndex_halved (by omega) inside), List.length_append]
      dsimp only
      rw [counter _ fits, counter _ (by omega), counter _ (by omega)]
  · -- Both leaf digests are in leaf slots, where the trees' own paths begin.
    intro inner outer constructed constructedOuter fits leaf slot digest found stored
    have perfect := constructed.perfect
    have perfectOuter := constructedOuter.perfect
    have real := Tree.lt_leafCount_of_leafDigest? found
    have realOuter := Tree.lt_leafCount_of_leafDigest? stored
    have inside : leaf < inner.capacity := Nat.lt_of_lt_of_le real perfect.leafCount_le
    have insideOuter : slot < outer.capacity :=
      Nat.lt_of_lt_of_le realOuter perfectOuter.leafCount_le
    rw [perfect.leafDigest?_eq leaf real, Option.some.injEq] at found
    rw [perfectOuter.leafDigest?_eq slot realOuter, Option.some.injEq] at stored
    -- The lower path ends at the inner root, which is the leaf digest of the outer path.
    obtain ⟨exact, accepted⟩ :=
      perfect.verifyDigest_nested perfectOuter fits inside insideOuter stored
    rw [found] at accepted
    exact ⟨_, _, Tree.openAt_of_lt real, Tree.openAt_of_lt realOuter, exact, accepted⟩

/-- The second of two leaves is accepted under the root of a tree over three leaves that has the
root of the two in its second slot. -/
theorem paths_compose_nested :
    let leaf := fun byte : UInt8 => Hasher.fnv.leaf [byte]
    let inner := Tree.arrange Hasher.fnv 2 [leaf 1, leaf 2]
    let outer := Tree.arrange Hasher.fnv 4 [leaf 3, inner.root, leaf 4]
    let low := inner.siblingPath 1
    let high := outer.siblingPath 1
    inner.Constructed ∧ outer.Constructed ∧ inner.depth + outer.depth ≤ maxDepth ∧
      inner.leafDigest? 1 = some (leaf 2) ∧ outer.leafDigest? 1 = some inner.root ∧
      low.length = 1 ∧ high.length = 2 ∧
      (verifyDigest Hasher.fnv outer.root 3 (low ++ high) (leaf 2)).value = .ok true ∧
      (verifyDigest Hasher.fnv outer.root 1 high (climb Hasher.fnv (leaf 2) 1 low)).value =
        .ok true := by
  intro leaf inner outer low high
  have accepted : Padding.zeros.capacity 2 = .ok 2 := Padding.capacity_eq_ok_iff.mpr (by decide)
  have acceptedOuter : Padding.zeros.capacity 3 = .ok 4 :=
    Padding.capacity_eq_ok_iff.mpr (by decide)
  have constructed : inner.Constructed := Tree.constructed_arrange accepted
  have constructedOuter : outer.Constructed := Tree.constructed_arrange acceptedOuter
  have fits : inner.depth + outer.depth ≤ maxDepth := by decide
  -- Both trees are small enough for their digests to be computed.
  have stored : inner.leafDigest? 1 = some (leaf 2) := by decide +kernel
  have storedOuter : outer.leafDigest? 1 = some inner.root := by decide +kernel
  have length : low.length = 1 := by decide +kernel
  have lengthOuter : high.length = 2 := by decide +kernel
  obtain ⟨splits, nests⟩ := paths_compose Hasher.fnv
  obtain ⟨opening, enclosing, opened, openedOuter, -, whole⟩ :=
    nests inner outer constructed constructedOuter fits 1 1 (leaf 2) stored storedOuter
  rw [Tree.openAt_of_lt (by decide), Except.ok.injEq] at opened openedOuter
  subst opened openedOuter
  -- The index of the nested leaf has one digit below and two above.
  have place : UInt64.ofNat (1 * levelWidth inner.depth + 1) = 3 := by decide
  rw [place] at whole
  obtain ⟨-, -, halves, -⟩ := splits outer.root (leaf 2) 3 low high
    (by rw [length, lengthOuter]; decide) (by rw [length, lengthOuter]; decide)
  rw [length] at halves
  exact ⟨constructed, constructedOuter, fits, stored, storedOuter, length, lengthOuter, whole,
    halves.mp whole⟩

end Merkle
