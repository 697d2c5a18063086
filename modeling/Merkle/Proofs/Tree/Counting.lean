import Merkle.Hasher.Standard
import Merkle.Proofs.Tree.Hashing

/-! When the counters of a build overflow. -/

namespace Merkle.Tree

variable {H : Hasher D} {encoding : LeafEncoding α} {padding : Padding} {leaves : List α}
  {capacity : Nat}

/-- Leaves can be hashed when those with bytes, and all their bytes, can be counted. -/
theorem outcome_hashLeaves_isOk_iff {start : Cost} :
    (∃ done, (leaves.mapM (hashLeaf H encoding)).outcome start = .ok done) ↔
      start.leafHashes.toNat + (encoding.written leaves).length < UInt32.size ∧
        start.hashedBytes.toNat + (encoding.written leaves).flatten.length < UInt64.size := by
  constructor
  · -- The final counters are words that hold these sums.
    rintro ⟨done, finished⟩
    obtain ⟨-, calls, -, bytes⟩ := outcome_hashLeaves finished
    exact ⟨calls ▸ done.cost.leafHashes.toNat_lt, bytes ▸ done.cost.hashedBytes.toNat_lt⟩
  · rintro ⟨calls, bytes⟩
    -- Conversely, hashing goes on as long as the sums fit, by induction on the leaves.
    induction leaves generalizing start with
    | nil => exact ⟨_, rfl⟩
    | cons leaf rest ih =>
      rw [List.mapM_cons, Metered.outcome_bind, outcome_hashLeaf]
      rw [LeafEncoding.written] at calls bytes
      cases first : encoding leaf with
      | error error => exact ⟨_, rfl⟩
      | ok written =>
        rw [first] at calls bytes
        simp only [List.length_cons, List.flatten_cons, List.length_append] at calls bytes
        -- The first leaf is charged, and the sums that remain start from there.
        obtain ⟨single, paid⟩ : ∃ single,
            Charge.outcome (Cost.chargeLeaf written.length) start = .ok single :=
          Cost.outcome_chargeLeaf_isOk (by omega) (by omega)
        obtain ⟨leafCalls, -, byteCount⟩ := Cost.outcome_chargeLeaf_eq_ok_iff.mp paid
        obtain ⟨⟨others, spent⟩, worked⟩ : ∃ others,
            (rest.mapM (hashLeaf H encoding)).outcome single.cost = .ok others :=
          ih (by omega) (by omega)
        obtain ⟨done, finished⟩ : ∃ done, (rest.mapM (hashLeaf H encoding) >>= fun digests =>
            pure (H.leaf written :: digests)).outcome single.cost = .ok done := by
          rw [Metered.outcome_bind, worked]
          cases others <;> exact ⟨_, rfl⟩
        exact ⟨done, bind_eq_ok_iff.mpr ⟨⟨.ok (H.leaf written), single.cost⟩,
          by dsimp only; rw [paid]; rfl, finished⟩⟩

/-- An accepted build overflows when the leaves with bytes, or all their bytes, are too many. -/
theorem build_eq_overflow_iff (accepted : padding.capacity leaves.length = .ok capacity) :
    build H encoding padding leaves = .error .counter ↔
      UInt32.size ≤ (encoding.written leaves).length ∨
        UInt64.size ≤ (encoding.written leaves).flatten.length := by
  rw [eq_overflow_iff, build_isOk_iff accepted, outcome_hashLeaves_isOk_iff]
  -- The counters begin at zero.
  simp only [UInt32.toNat_zero, UInt64.toNat_zero, Nat.zero_add]
  omega

/-- A tree over equal leaves is the one over their list, which need not be laid out to fail. -/
theorem buildRepeated_eq (H : Hasher D) (encoding : LeafEncoding α) (padding : Padding)
    (count : Nat) (leaf : α) :
    buildRepeated H encoding padding count leaf =
      build H encoding padding (List.replicate count leaf) := by
  have length : (List.replicate count leaf).length = count := List.length_replicate
  unfold buildRepeated
  cases judged : padding.capacity count with
  | error error => exact (build_of_refused (length.symm ▸ judged)).symm
  | ok capacity =>
    have accepted : padding.capacity (List.replicate count leaf).length = .ok capacity := by
      rw [length, judged]
    cases single : encoding leaf with
    | error error =>
      -- An accepted number of leaves has a first one, which fails before anything is charged.
      obtain ⟨positive, -⟩ := Padding.capacity_eq_ok_iff.mp judged
      obtain ⟨rest, rfl⟩ : ∃ rest, count = rest + 1 := ⟨count - 1, by omega⟩
      have worked : ((List.replicate (rest + 1) leaf).mapM (hashLeaf H encoding)).outcome {} =
          .ok ⟨.error error, {}⟩ := by
        rw [List.replicate_succ, List.mapM_cons, Metered.outcome_bind, outcome_hashLeaf, single]
        rfl
      have fails : (List.replicate (rest + 1) leaf).mapM encoding = .error error := by
        rw [List.replicate_succ, List.mapM_cons, single]
        rfl
      exact (build_of_fails accepted worked fails).symm
    | ok bytes =>
      dsimp only
      split
      · -- Counters with room for all leaves let the build go on.
        rfl
      · -- The leaves that are written are all of them.
        rename_i large
        have written := LeafEncoding.written_replicate single count
        rw [eq_comm, build_eq_overflow_iff accepted, written, List.length_replicate,
          List.length_flatten, List.map_replicate, List.sum_replicate_nat]
        omega

/--
Building over an accepted number of leaves ends with a tree or with the error of a leaf, unless the
leaves in front of the first failing one are too many for their counters.

The counters of the leaves and of their bytes are the only ones that overflow, and they do so while
the leaves are hashed: counting the merges and summing up both costs succeeds afterwards.
-/
theorem build_overflows_iff (encoding : LeafEncoding α)
    (accepted : padding.capacity leaves.length = .ok capacity) :
    (build H encoding padding leaves = .error .counter ↔
        UInt32.size ≤ (encoding.written leaves).length ∨
          UInt64.size ≤ (encoding.written leaves).flatten.length) ∧
      (build H encoding padding leaves = .error .counter ↔
        (leaves.mapM (hashLeaf H encoding)).outcome {} = .error .counter) ∧
      (build H encoding padding leaves = .error .counter ∨
        ∃ report, build H encoding padding leaves = .ok report ∧
          ((∃ tree, report.value = .ok tree) ∨
            ∃ leaf ∈ leaves, ∃ error, encoding leaf = .error error ∧
              report.value = .error error)) := by
  -- Nothing but hashing the leaves can overflow, since the parents are fewer.
  have finishes : (∃ report, build H encoding padding leaves = .ok report) ↔
      ∃ hashed, (leaves.mapM (hashLeaf H encoding)).outcome {} = .ok hashed :=
    build_isOk_iff accepted
  refine ⟨build_eq_overflow_iff accepted, ?_, ?_⟩
  · rw [eq_overflow_iff, eq_overflow_iff, finishes]
  · by_cases overflows : build H encoding padding leaves = .error .counter
    · exact .inl overflows
    · right
      rw [eq_overflow_iff, Classical.not_not] at overflows
      obtain ⟨hashed, worked⟩ := finishes.mp overflows
      cases outcome : leaves.mapM encoding with
      | error error =>
        -- The error is the one of a leaf that has no bytes.
        obtain ⟨leaf, member, none⟩ := LeafEncoding.exists_fails outcome
        exact ⟨_, build_of_fails accepted worked outcome, .inr ⟨leaf, member, error, none, rfl⟩⟩
      | ok encoded => exact ⟨_, build_of_encoded accepted worked outcome, .inl ⟨_, rfl⟩⟩

/-- One empty leaf fewer than a counter has values can still be counted. -/
theorem build_overflows_iff_full :
    let leaves : List Bytes := List.replicate (UInt32.size - 1) []
    Padding.zeros.capacity leaves.length = .ok UInt32.size ∧
      build Hasher.fnv .raw .zeros leaves ≠ .error .counter := by
  intro leaves
  have length : leaves.length = UInt32.size - 1 := List.length_replicate
  -- The leaves are as many as the greatest value of the counter, and padding adds a slot.
  have accepted : Padding.zeros.capacity leaves.length = .ok UInt32.size := by
    rw [length]
    exact Padding.capacity_eq_ok_iff.mpr (by decide)
  obtain ⟨counted, -, -⟩ := build_overflows_iff (H := Hasher.fnv) .raw accepted
  refine ⟨accepted, fun overflows => ?_⟩
  have written : LeafEncoding.raw.written leaves = leaves := LeafEncoding.written_replicate rfl _
  -- Empty leaves have no bytes in all, so only their number could overflow.
  have empty : leaves.flatten = [] := List.flatten_replicate_nil
  rw [counted, written, empty, length] at overflows
  exact absurd overflows (by decide)

/-- As many leaves as a counter has values are accepted, and counting them overflows, whether they
are empty or numbered leaves whose bytes are erased. -/
theorem build_overflows_empty_leaves :
    let leaves : List Bytes := List.replicate UInt32.size []
    let numbered : List Bytes :=
      (List.range UInt32.size).map fun number => Bytes.ofText (toString number)
    Padding.zeros.capacity leaves.length = .ok UInt32.size ∧
      build Hasher.fnv .raw .zeros leaves = .error .counter ∧
      Padding.zeros.capacity numbered.length = .ok UInt32.size ∧
      build Hasher.fnv .erased .zeros numbered = .error .counter := by
  intro leaves numbered
  have length : leaves.length = UInt32.size := List.length_replicate
  have lengthNumbered : numbered.length = UInt32.size := by
    rw [List.length_map, List.length_range]
  -- The number of leaves is a power of two, so either rule accepts it.
  have full : Padding.zeros.capacity UInt32.size = .ok UInt32.size :=
    Padding.capacity_eq_ok_iff.mpr (by decide)
  have accepted : Padding.zeros.capacity leaves.length = .ok UInt32.size := by
    rw [length]
    exact full
  have acceptedNumbered : Padding.zeros.capacity numbered.length = .ok UInt32.size := by
    rw [lengthNumbered]
    exact full
  refine ⟨accepted, (build_eq_overflow_iff accepted).mpr (.inl ?_), acceptedNumbered,
    (build_eq_overflow_iff acceptedNumbered).mpr (.inl ?_)⟩
  · -- Every one of the leaves is written, though none of them has a byte.
    rw [LeafEncoding.raw, LeafEncoding.written_ofFunction, List.length_map]
    exact Nat.le_of_eq length.symm
  · -- Erased leaves are written as well, once for each number.
    rw [LeafEncoding.erased, LeafEncoding.written_ofFunction, List.length_map]
    exact Nat.le_of_eq lengthNumbered.symm

end Merkle.Tree
