import Merkle.Proofs.Tree.Counting
import Merkle.Proofs.Tree.Leaves

/-! Building over leaves is building over their digests, whether it succeeds or fails. -/

namespace Merkle.Tree

variable {H : Hasher D} {encoding : LeafEncoding α} {padding : Padding} {leaves : List α}
  {capacity : Nat} {report : Report (Tree H)}

/-- The first leaf without bytes ends a build with its error, when the leaves before it are paid. -/
theorem failure_of_build (finished : build H encoding padding leaves = .ok report)
    (accepted : padding.capacity leaves.length = .ok capacity) {index : Nat} {leaf : α}
    {encoded : List Bytes} {error : Error} (found : leaves[index]? = some leaf)
    (before : (leaves.take index).mapM encoding = .ok encoded)
    (fails : encoding leaf = .error error) :
    report.value = .error error ∧ report.cost.leafHashes.toNat = index ∧
      report.cost.nodeHashes = 0 ∧
      report.cost.hashedBytes.toNat = encoded.flatten.length ∧ report.events = [] := by
  obtain ⟨hashed, worked⟩ := (build_isOk_iff accepted).mp ⟨report, finished⟩
  obtain ⟨ends, written⟩ := LeafEncoding.written_of_fails found before fails
  obtain ⟨-, calls, nodes, bytes⟩ := outcome_hashLeaves worked
  rw [build_of_fails accepted worked ends] at finished
  cases finished
  rw [written, UInt32.toNat_zero, Nat.zero_add] at calls
  rw [written, UInt64.toNat_zero, Nat.zero_add] at bytes
  -- As many leaves are written as stand in front of the failing one.
  have inside := (List.getElem?_eq_some_iff.mp found).1
  have length := LeafEncoding.length_encoded before
  rw [List.length_take_of_le (by omega)] at length
  exact ⟨rfl, calls.trans length, nodes, bytes, rfl⟩

/-- A build whose leaves are counted has no more parents than the counter of merges has values. -/
theorem toNat_ofNatClamp_parents {count : Nat} (accepted : padding.capacity count = .ok capacity)
    (counted : count < UInt32.size) : (UInt32.ofNatClamp (capacity - 1)).toNat = capacity - 1 := by
  obtain ⟨-, -, -, rfl⟩ := Padding.capacity_eq_ok_iff.mp accepted
  -- The number of values is itself the width of a level with room for the leaves.
  have words : UInt32.size = levelWidth 32 := rfl
  have room : leastCapacity count ≤ UInt32.size :=
    words ▸ leastCapacity_le (words ▸ Nat.le_of_lt counted)
  have positive : 0 < UInt32.size := by decide
  exact UInt32.toNat_ofNatClamp_of_lt (by omega)

/--
When every leaf has bytes, building over the leaves is building over their digests, at the further
cost of hashing the leaves.
-/
theorem ofDigests_of_build (finished : build H encoding padding leaves = .ok report)
    (accepted : padding.capacity leaves.length = .ok capacity) {encoded : List Bytes}
    (complete : leaves.mapM encoding = .ok encoded) :
    let digested := ofDigests H padding (encoded.map H.leaf)
    let hashing : Cost :=
      { leafHashes := UInt32.ofNat leaves.length
        hashedBytes := UInt64.ofNat encoded.flatten.length }
    (∃ tree, report.value = .ok tree ∧ tree.capacity = capacity) ∧
      report.value = digested.value ∧ report.events = digested.events ∧
      digested.cost.add hashing = .ok report.cost ∧
      report.cost.leafHashes.toNat = leaves.length ∧
      report.cost.nodeHashes.toNat = capacity - 1 ∧
      report.cost.hashedBytes.toNat = encoded.flatten.length := by
  intro digested hashing
  obtain ⟨hashed, worked⟩ := (build_isOk_iff accepted).mp ⟨report, finished⟩
  obtain ⟨-, calls, nodes, bytes⟩ := outcome_hashLeaves worked
  -- Hashing starts at nothing, so its counters are the numbers of this build alone.
  have length := LeafEncoding.length_encoded complete
  rw [LeafEncoding.written_eq complete, UInt32.toNat_zero, Nat.zero_add, length] at calls
  rw [LeafEncoding.written_eq complete, UInt64.toNat_zero, Nat.zero_add] at bytes
  rw [build_of_encoded accepted worked complete] at finished
  cases finished
  have digestsAccepted : padding.capacity (encoded.map H.leaf).length = .ok capacity := by
    rw [List.length_map, length, accepted]
  have same : digested = _ := ofDigests_of_accepted digestsAccepted
  have counted : leaves.length < UInt32.size := calls ▸ hashed.cost.leafHashes.toNat_lt
  have parents := toNat_ofNatClamp_parents accepted counted
  -- The words of the counted numbers are the counters that the leaf hashes ended with.
  have hashes : hashing = hashed.cost := by
    obtain ⟨value, leafHashes, nodeHashes, hashedBytes⟩ := hashed
    dsimp only at calls nodes bytes
    simp only [hashing, ← calls, ← bytes, UInt32.ofNat_toNat, UInt64.ofNat_toNat, nodes]
  rw [same, hashes]
  exact ⟨⟨_, rfl, rfl⟩, rfl, rfl, Cost.add_of_nodeHashes_eq_zero nodes _, calls, parents, bytes⟩

/-- A tree that can be built is built again over its leaf digests, if zeros may be added. -/
theorem ofDigests_leafDigests {tree : Tree H} (constructed : tree.Constructed) :
    (ofDigests H .zeros tree.leafDigests).value = .ok tree := by
  obtain ⟨padding, capacity, digests, accepted, rfl⟩ := constructed.eq_arrange
  have room : digests.length ≤ capacity := (perfect_arrange (H := H) accepted).leafCount_le
  rw [leafDigests_arrange room]
  -- A number that is accepted without padding is accepted with it.
  exact ofDigests_value_eq_ok_iff.mpr
    ⟨capacity, Padding.capacity_zeros_of_le accepted (Nat.le_refl _) room, rfl⟩

/--
Building over leaves ends as building over their digests does, on every outcome that does not
overflow.

A refused number of leaves is refused as that number of digests is, without a look at any leaf. The
first leaf that has no bytes ends the build with its error, and the leaves before it are paid. When
every leaf has bytes, the tree and the events are those over the digests, at the cost of these and
of hashing the leaves. Any tree is built again over its own leaf digests.
-/
theorem build_agrees_with_ofDigests (finished : build H encoding padding leaves = .ok report) :
    (∀ error, padding.capacity leaves.length = .error error →
      (∃ fault, error = .invalidInput fault) ∧ report = .failure error {} ∧
        (∀ digests : List D, digests.length = leaves.length →
          ofDigests H padding digests = report) ∧
        ∀ {β : Type} (other : LeafEncoding β) (others : List β), others.length = leaves.length →
          build H other padding others = .ok report) ∧
      (∀ capacity index leaf encoded error, padding.capacity leaves.length = .ok capacity →
        leaves[index]? = some leaf → (leaves.take index).mapM encoding = .ok encoded →
        encoding leaf = .error error →
        report.value = .error error ∧ report.cost.leafHashes.toNat = index ∧
          report.cost.nodeHashes = 0 ∧
          report.cost.hashedBytes.toNat = encoded.flatten.length ∧ report.events = []) ∧
      (∀ capacity encoded, padding.capacity leaves.length = .ok capacity →
        leaves.mapM encoding = .ok encoded →
        ∃ tree, report.value = .ok tree ∧
          (ofDigests H padding (encoded.map H.leaf)).value = .ok tree ∧
          report.events = (ofDigests H padding (encoded.map H.leaf)).events ∧
          report.cost.leafHashes.toNat = leaves.length ∧
          report.cost.nodeHashes.toNat = tree.capacity - 1 ∧
          report.cost.hashedBytes.toNat = encoded.flatten.length ∧
          (ofDigests H padding (encoded.map H.leaf)).cost.add
            { leafHashes := UInt32.ofNat leaves.length
              hashedBytes := UInt64.ofNat encoded.flatten.length } = .ok report.cost) ∧
      ∀ tree : Tree H, tree.Constructed →
        (ofDigests H .zeros tree.leafDigests).value = .ok tree := by
  refine ⟨?_, ?_, ?_, fun tree constructed => ofDigests_leafDigests constructed⟩
  · intro error refused
    rw [build_of_refused refused] at finished
    cases finished
    -- The number decides alone, so anything else of that number has the same outcome.
    refine ⟨Padding.exists_fault refused, rfl, ?_, ?_⟩
    · intro digests length
      exact ofDigests_of_refused (length ▸ refused)
    · intro β other others length
      exact build_of_refused (length ▸ refused)
  · intro capacity index leaf encoded error accepted found before fails
    exact failure_of_build finished accepted found before fails
  · intro capacity encoded accepted complete
    -- Without a failing leaf, the digests of all leaves are built over.
    obtain ⟨⟨tree, value, slots⟩, same, events, total, calls, nodes, bytes⟩ :=
      ofDigests_of_build finished accepted complete
    subst slots
    exact ⟨tree, value, same ▸ value, events, calls, nodes, bytes, total⟩

/-- A leaf over the limit ends the build, of which the leaf before it is paid. -/
theorem build_agrees_with_ofDigests_limited :
    let leaves : List Bytes := [[1], [2, 2], [3]]
    let tree := arrange Hasher.fnv 4 (leaves.map Hasher.fnv.leaf)
    (∃ report, build Hasher.fnv (.upTo 1) .zeros leaves = .ok report ∧
        report.value = .error (.encoding "leaf of 2 bytes over limit") ∧
        report.cost.leafHashes.toNat = 1 ∧ report.cost.hashedBytes.toNat = 1) ∧
      ∃ report, build Hasher.fnv .raw .zeros leaves = .ok report ∧ report.value = .ok tree ∧
        (ofDigests Hasher.fnv .zeros (leaves.map Hasher.fnv.leaf)).value = .ok tree ∧
        report.cost.leafHashes.toNat = 3 ∧ report.cost.nodeHashes.toNat = 3 ∧
        report.cost.hashedBytes.toNat = 4 := by
  intro leaves tree
  have accepted : Padding.zeros.capacity 3 = .ok 4 := Padding.capacity_eq_ok_iff.mpr (by decide)
  constructor
  · obtain ⟨report, finished⟩ : ∃ report, build Hasher.fnv (.upTo 1) .zeros leaves = .ok report :=
      (build_isOk_iff accepted).mpr (outcome_hashLeaves_isOk_iff.mpr (by decide))
    -- The second leaf is over the limit, and the first one is hashed before it.
    obtain ⟨-, failing, -⟩ := build_agrees_with_ofDigests finished
    obtain ⟨value, calls, -, bytes, -⟩ := failing 4 1 [2, 2] [[1]] _ accepted rfl rfl rfl
    exact ⟨report, finished, value, calls, bytes⟩
  · have built : Returns (build Hasher.fnv .raw .zeros leaves) tree := by decide +kernel
    obtain ⟨report, finished, value⟩ := built
    -- Without a limit, all three leaves are hashed, and so are three pairs.
    obtain ⟨-, -, succeeding, -⟩ := build_agrees_with_ofDigests finished
    obtain ⟨other, returned, same, -, calls, nodes, bytes, -⟩ := succeeding 4 leaves accepted rfl
    cases value.symm.trans returned
    exact ⟨report, finished, value, same, calls, nodes, bytes⟩

end Merkle.Tree
