import Merkle.Hasher.Standard
import Merkle.Proofs.Tree.Hashing
import Merkle.Proofs.Word

/-! How many leaf slots there are for every word, and that a tree over them is laid out in words. -/

namespace Merkle

/-- The number of leaf slots for a number of leaves, by tests on words alone. -/
def Padding.capacityWithin (padding : Padding) (count : UInt64) : Except Error UInt64 :=
  if count = 0 then .error (.invalidInput .noLeaves)
  else if padding = .refused ∧ ¬count.toNat.isPowerOfTwo then
    .error (.invalidInput (.notPowerOfTwo count.toNat))
  else
    -- The power of two is tested by its logarithm and then by its double.
    let shallow := (Word.nextPowerOfTwo? count).filter (Word.trailingZeros · ≤ maxDepth)
    match shallow.filter fun capacity => (Word.mul? capacity 2).isSome with
    | some capacity => .ok capacity
    | none => .error (.invalidInput (.tooManyLeaves count.toNat))

namespace Tree

/-- Puts digests in place of those from one slot up to another, unless they are not as many or the
slots do not exist. -/
def storeWithin (nodes : Array D) (first last : Nat) (digests : List D) : Option (Array D) :=
  -- Copying into a range needs a range that exists, and as many digests as it has slots.
  if first ≤ last ∧ last ≤ nodes.size ∧ digests.length = last - first then
    some (nodes.toList.take first ++ digests ++ nodes.toList.drop last).toArray
  else none

/-- Fills the slots from the given one down to the first from their children, or nothing where a
slot does not exist or its number is no word. -/
def fillParentsWithin (H : Hasher D) : (slot : Nat) → Array D → Option (Array D)
  | 0, nodes => some nodes
  | slot + 1, nodes => do
    -- The children are read before the parent is written, and all three have to exist.
    let left ← word? (2 * (slot + 1))
    let right ← word? (left + 1)
    let merged := H.merge (← nodes[left]?) (← nodes[right]?)
    if slot + 1 < nodes.size then
      fillParentsWithin H slot (nodes.setIfInBounds (slot + 1) merged)
    else none

/-- The tree over some digests, or nothing where a slot does not exist or a number is no word. -/
def arrangeWithin (H : Hasher D) (capacity : Nat) (digests : List D) : Option (Tree H) := do
  let slots ← word? (2 * capacity)
  let last ← word? (capacity + digests.length)
  let stored ← storeWithin (Array.replicate slots H.zero) capacity last digests
  let nodes ← fillParentsWithin H (capacity - 1) stored
  -- The slot of the root is read for the report.
  let _ ← nodes[1]?
  return { leafCount := digests.length, capacity, nodes }

/-- Builds a tree over leaf digests, or nothing where a slot does not exist or a number is no
word. -/
def ofDigestsWithin (H : Hasher D) (padding : Padding) (digests : List D) :
    Option (Report (Tree H)) := do
  -- The number of digests is a word already when it is tested.
  let count ← word? digests.length
  match padding.capacityWithin (UInt64.ofNat count) with
  | .error error => return .failure error {}
  | .ok capacity =>
    let tree ← arrangeWithin H capacity.toNat digests
    return {
      value := .ok tree
      cost := { nodeHashes := UInt32.ofNatClamp (capacity.toNat - 1) }
      events := tree.construction }

end Tree

/-- A number is the least power of two that is not below another number. -/
structure LeastPower (count power : Nat) : Prop where
  /-- The number is a power of two. -/
  isPowerOfTwo : power.isPowerOfTwo
  /-- It is not below the other one. -/
  le : count ≤ power
  /-- Neither is any lesser power of two. -/
  least : ∀ other : Nat, other.isPowerOfTwo → count ≤ other → power ≤ other

/-- The least capacity is the least power of two with a slot for every leaf. -/
theorem leastPower_leastCapacity (count : Nat) : LeastPower count (leastCapacity count) where
  -- The capacity is the width of a level, and all powers of two are such widths.
  isPowerOfTwo := isPowerOfTwo_iff.mpr ⟨ceilLog2 count, rfl⟩
  le := le_leastCapacity count
  least := by
    intro other power room
    obtain ⟨depth, rfl⟩ := isPowerOfTwo_iff.mp power
    exact leastCapacity_le room

/-- The power of two that is not below a word passes both tests exactly below the greatest depth. -/
theorem Word.filter_nextPowerOfTwo? (word : UInt64) :
    ((nextPowerOfTwo? word).filter (trailingZeros · ≤ maxDepth)).filter
        (fun power => (mul? power 2).isSome) =
      if word.toNat ≤ levelWidth (maxDepth - 1) then some (UInt64.ofNat (leastCapacity word.toNat))
      else none := by
  have words : UInt64.size = levelWidth (maxDepth + 1) := rfl
  rw [nextPowerOfTwo?_eq]
  simp only [← ceilLog2_lt_maxDepth_iff]
  by_cases fits : leastCapacity word.toNat < UInt64.size
  · -- The power is a word, whose zeros at the end tell its logarithm.
    have power : (UInt64.ofNat (leastCapacity word.toNat)).toNat =
        levelWidth (ceilLog2 word.toNat) := UInt64.toNat_ofNat_of_lt' fits
    have shallow : ceilLog2 word.toNat ≤ maxDepth := by
      rw [words, leastCapacity, levelWidth_lt_iff] at fits
      omega
    rw [word?_eq_some fits, Option.map_some]
    by_cases deep : ceilLog2 word.toNat < maxDepth
    · simp [Option.filter, trailingZeros_eq power, isSome_mul?_two_iff power, shallow, deep]
    · simp [Option.filter, trailingZeros_eq power, isSome_mul?_two_iff power, shallow, deep]
  · -- The power is no word, so there is nothing to test.
    have deep : ¬ceilLog2 word.toNat < maxDepth := by
      rw [words, leastCapacity, levelWidth_lt_iff] at fits
      omega
    rw [word?, if_neg fits, if_neg deep]
    rfl

/-- The tests on words accept and refuse as the tests on numbers do. -/
theorem Padding.capacityWithin_eq (padding : Padding) (count : UInt64) :
    (padding.capacityWithin count).map UInt64.toNat = padding.capacity count.toNat := by
  -- The tests are the same ones in the same order, so they are followed side by side.
  have empty : count = 0 ↔ count.toNat = 0 := UInt64.toNat_inj.symm
  rw [Padding.capacity_eq, Padding.capacityWithin]
  simp only [empty]
  split
  · rfl
  · split
    · rfl
    · rw [Word.filter_nextPowerOfTwo?]
      by_cases few : count.toNat ≤ levelWidth (maxDepth - 1)
      · -- The capacity is a word, so it is the number that the word holds.
        have fits : leastCapacity count.toNat < UInt64.size :=
          Nat.lt_of_le_of_lt (leastCapacity_le few) (by decide)
        simp only [if_pos few, Except.map, UInt64.toNat_ofNat_of_lt' fits]
      · -- Too many leaves have a power that is no word, or whose double is none.
        rw [if_neg few, if_neg few]
        rfl

namespace Tree

variable {H : Hasher D} {padding : Padding} {digests : List D} {capacity : Nat}

/-- Digests that are as many as the slots they are put into leave the slots around them. -/
theorem storeWithin_replicate (room : digests.length ≤ capacity) :
    storeWithin (Array.replicate (2 * capacity) H.zero) capacity (capacity + digests.length)
        digests =
      some (List.replicate capacity H.zero ++ padded H capacity digests).toArray := by
  -- The slots in front and behind keep their zeros, and the latter are the padding.
  have behind : 2 * capacity - (capacity + digests.length) = capacity - digests.length := by omega
  rw [storeWithin, if_pos (by simp only [Array.size_replicate]; omega), Array.toList_replicate,
    List.take_replicate, List.drop_replicate, behind, Nat.min_eq_left (by omega), padded,
    List.append_assoc]

/-- Filling stays within slots that are numbered in words, and does what it does without tests. -/
theorem fillParentsWithin_eq {slot : Nat} {nodes : Array D} (room : 2 * slot + 1 < nodes.size)
    (counted : nodes.size ≤ UInt64.size) :
    fillParentsWithin H slot nodes = some (fillParents H slot nodes) := by
  induction slot generalizing nodes with
  | zero => rfl
  | succ slot ih =>
    have read : ∀ index, index < nodes.size → nodes[index]? = some (nodes.getD index H.zero) := by
      intro index inside
      rw [Array.getD_eq_getD_getElem?, Array.getElem?_eq_getElem inside, Option.getD_some]
    have left := read (2 * (slot + 1)) (by omega)
    have right := read (2 * (slot + 1) + 1) (by omega)
    -- The right child has the greatest number of the three slots, and even that one exists.
    rw [fillParentsWithin, word?_eq_some (by omega), Option.bind_eq_bind, Option.bind_some,
      word?_eq_some (by omega), Option.bind_eq_bind, Option.bind_some, left, right]
    simp only [Option.bind_some]
    rw [if_pos (by omega), ih (by rw [Array.size_setIfInBounds]; omega)
      (by rw [Array.size_setIfInBounds]; exact counted), fillParents]

/-- An accepted number of digests is laid out within slots that are numbered in words. -/
theorem arrangeWithin_eq (accepted : padding.capacity digests.length = .ok capacity) :
    arrangeWithin H capacity digests = some (arrange H capacity digests) := by
  obtain ⟨some, -, -, least⟩ := Padding.capacity_eq_ok_iff.mp accepted
  have room : digests.length ≤ capacity := least ▸ le_leastCapacity digests.length
  have counted := Padding.twice_capacity_lt accepted
  -- The slots in front of the leaf slots are laid out first, and then filled.
  have size : (List.replicate capacity H.zero ++ padded H capacity digests).toArray.size =
      2 * capacity := by
    rw [List.size_toArray, List.length_append, List.length_replicate, length_padded room]
    omega
  have filled : fillParentsWithin H (capacity - 1)
      (List.replicate capacity H.zero ++ padded H capacity digests).toArray =
        Option.some (arrange H capacity digests).nodes :=
    fillParentsWithin_eq (by omega) (by omega)
  have top : 1 < (arrange H capacity digests).nodes.size := by
    rw [size_nodes_arrange room]
    omega
  -- No number is greater than that of all slots, and the slots are all laid out.
  rw [arrangeWithin, word?_eq_some counted, Option.bind_eq_bind, Option.bind_some,
    word?_eq_some (by omega), Option.bind_eq_bind, Option.bind_some, storeWithin_replicate room,
    Option.bind_eq_bind, Option.bind_some, filled, Option.bind_some,
    Array.getElem?_eq_getElem top]
  rfl

/-- Building over a number of digests that is a word never leaves the slots or the words. -/
theorem ofDigestsWithin_eq (counted : digests.length < UInt64.size) :
    ofDigestsWithin H padding digests = some (ofDigests H padding digests) := by
  -- The number is a word, so it is the same number to both computations.
  have number : (UInt64.ofNat digests.length).toNat = digests.length :=
    UInt64.toNat_ofNat_of_lt' counted
  have same := padding.capacityWithin_eq (UInt64.ofNat digests.length)
  rw [number] at same
  rw [ofDigestsWithin, word?_eq_some counted, Option.bind_eq_bind, Option.bind_some]
  cases judged : padding.capacityWithin (UInt64.ofNat digests.length) with
  | error error =>
    rw [judged] at same
    rw [ofDigests_of_refused same.symm]
    rfl
  | ok capacity =>
    rw [judged] at same
    have accepted : padding.capacity digests.length = .ok capacity.toNat := same.symm
    dsimp only
    -- The capacity was computed in words, and its slots are numbered in words as well.
    rw [arrangeWithin_eq accepted, ofDigests_of_accepted accepted]
    rfl

end Tree

/--
A number of leaves that is a word is accepted up to the greatest capacity, unless the rule refuses
it.

The capacity is the least power of two with a slot for every leaf, and less than twice their number.
It has a double among the words, so all slots are numbered in words. The tests for no leaves, for a
power of two and for too many leaves are made in this order. Tests on words have the same outcome,
and a tree is laid out within its slots, with words alone.
-/
theorem capacity_spans_words (padding : Padding) (count : UInt64) :
    let number := count.toNat
    let outcome := padding.capacity number
    (padding.capacityWithin count).map UInt64.toNat = outcome ∧
      ((∃ capacity, outcome = .ok capacity) ↔
        1 ≤ number ∧ number ≤ levelWidth 62 ∧ (number.isPowerOfTwo ∨ padding = .zeros)) ∧
      (∀ capacity, outcome = .ok capacity →
        let zeros := Word.trailingZeros (UInt64.ofNat capacity)
        LeastPower number capacity ∧ capacity < 2 * number ∧ 2 * capacity < UInt64.size ∧
          capacity = levelWidth zeros ∧ zeros ≤ 62 ∧ 62 ≤ maxDepth ∧
          (padding = .refused → capacity = number) ∧ capacity + number ≤ 2 * capacity ∧
          ∀ slot, slot < capacity → 2 * slot + 1 < 2 * capacity) ∧
      (outcome = .error (.invalidInput .noLeaves) ↔ number = 0) ∧
      (outcome = .error (.invalidInput (.notPowerOfTwo number)) ↔
        number ≠ 0 ∧ padding = .refused ∧ ¬number.isPowerOfTwo) ∧
      (outcome = .error (.invalidInput (.tooManyLeaves number)) ↔
        levelWidth 62 < number ∧ (number.isPowerOfTwo ∨ padding = .zeros)) ∧
      ∀ {D : Type} (H : Hasher D) (digests : List D), digests.length = number →
        Tree.ofDigestsWithin H padding digests = some (Tree.ofDigests H padding digests) := by
  intro number outcome
  have greatest : maxDepth - 1 = 62 := rfl
  -- Each fault is reported exactly when its own condition holds.
  have faults : ∀ fault, outcome = .error (.invalidInput fault) ↔ padding.Refuses number fault :=
    fun fault => Padding.capacity_eq_error_iff
  refine ⟨padding.capacityWithin_eq count, Padding.capacity_isOk_iff, ?_, faults .noLeaves, ?_, ?_,
    ?_⟩
  · intro capacity accepted zeros
    obtain ⟨positive, -, shallow, least⟩ := Padding.capacity_eq_ok_iff.mp accepted
    have power : LeastPower number capacity := least ▸ leastPower_leastCapacity number
    have narrow : capacity < 2 * number := least ▸ leastCapacity_lt_twice positive
    have counted := Padding.twice_capacity_lt accepted
    -- The capacity is a word, whose zeros at the end are as many as there are levels above it.
    have word : (UInt64.ofNat capacity).toNat = capacity := UInt64.toNat_ofNat_of_lt' (by omega)
    have levels : zeros = ceilLog2 number := Word.trailingZeros_eq (word.trans least)
    have room := power.le
    refine ⟨power, narrow, counted, ?_, ?_, ?_, ?_, ?_, ?_⟩
    · rw [levels]
      exact least
    · rw [levels]
      exact Nat.le_pred_of_lt shallow
    · decide
    · rintro rfl
      exact Padding.capacity_eq_of_refused accepted
    · omega
    · omega
  · simpa only [Padding.Refuses, true_and] using faults (.notPowerOfTwo number)
  · simpa only [Padding.Refuses, true_and, greatest] using faults (.tooManyLeaves number)
  · intro D H digests length
    exact Tree.ofDigestsWithin_eq (length ▸ count.toNat_lt)

/-- The greatest capacity is accepted as a number of leaves, and one leaf more is not. -/
theorem capacity_spans_words_greatest :
    let count := UInt64.ofNat (levelWidth 62)
    let next := UInt64.ofNat (levelWidth 62 + 1)
    let digests := List.replicate count.toNat Hasher.fnv.zero
    Padding.refused.capacity count.toNat = .ok (levelWidth 62) ∧
      LeastPower count.toNat (levelWidth 62) ∧ Word.trailingZeros count = 62 ∧
      Tree.ofDigestsWithin Hasher.fnv .refused digests =
        some (Tree.ofDigests Hasher.fnv .refused digests) ∧
      Padding.zeros.capacity next.toNat = .error (.invalidInput (.tooManyLeaves next.toNat)) := by
  intro count next digests
  have number : count.toNat = levelWidth 62 := UInt64.toNat_ofNat_of_lt' (by decide)
  have numberNext : next.toNat = levelWidth 62 + 1 := UInt64.toNat_ofNat_of_lt' (by decide)
  -- The greatest capacity is one digit below the top of a word.
  have accepted : Padding.refused.capacity count.toNat = .ok (levelWidth 62) := by
    rw [number]
    exact Padding.capacity_levelWidth .refused (by decide)
  obtain ⟨-, -, spans, -, -, -, builds⟩ := capacity_spans_words .refused count
  obtain ⟨power, -⟩ := spans (levelWidth 62) accepted
  obtain ⟨-, -, -, -, -, refuses, -⟩ := capacity_spans_words .zeros next
  -- One leaf more would need the next power of two, whose double is no word.
  have many : levelWidth 62 < next.toNat := by omega
  exact ⟨accepted, power, Word.trailingZeros_eq number,
    builds Hasher.fnv digests List.length_replicate, refuses.mpr ⟨many, .inr rfl⟩⟩

end Merkle
