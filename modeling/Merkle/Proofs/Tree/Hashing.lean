import Merkle.Proofs.Report
import Merkle.Proofs.Tree.Perfect

/-! What hashing the leaves yields and costs, and what building over them reports afterwards. -/

namespace Merkle

/-- The bytes of the leaves in front of the first one that has none. -/
def LeafEncoding.written (encoding : LeafEncoding α) : List α → List Bytes
  -- The leaf that fails and all behind it are never hashed.
  | [] => []
  | leaf :: rest =>
    match encoding leaf with
    | .ok bytes => bytes :: encoding.written rest
    | .error _ => []

/-- When every leaf has bytes, those of all leaves are written. -/
theorem LeafEncoding.written_eq {encoding : LeafEncoding α} {leaves : List α} {encoded : List Bytes}
    (complete : leaves.mapM encoding = .ok encoded) : encoding.written leaves = encoded := by
  -- No leaf fails, so each adds its bytes in both lists.
  induction leaves generalizing encoded with
  | nil =>
    cases complete
    rfl
  | cons leaf rest ih =>
    rw [List.mapM_cons] at complete
    obtain ⟨bytes, first, complete⟩ := bind_eq_ok_iff.mp complete
    obtain ⟨others, tail, complete⟩ := bind_eq_ok_iff.mp complete
    cases complete
    rw [written, first, ih tail]

/-- Each leaf has its own bytes, in the order of the leaves. -/
theorem LeafEncoding.getElem?_encoded {encoding : LeafEncoding α} {leaves : List α}
    {encoded : List Bytes} (complete : leaves.mapM encoding = .ok encoded) {index : Nat} {leaf : α}
    (found : leaves[index]? = some leaf) :
    ∃ bytes, encoding leaf = .ok bytes ∧ encoded[index]? = some bytes := by
  induction leaves generalizing encoded index with
  | nil => cases found
  | cons first rest ih =>
    rw [List.mapM_cons] at complete
    obtain ⟨bytes, written, complete⟩ := bind_eq_ok_iff.mp complete
    obtain ⟨others, tail, complete⟩ := bind_eq_ok_iff.mp complete
    cases complete
    -- The first leaf has the first byte string, and the others follow.
    cases index with
    | zero =>
      cases found
      exact ⟨bytes, written, rfl⟩
    | succ index => exact ih tail found

/-- There are as many byte strings as leaves. -/
theorem LeafEncoding.length_encoded {encoding : LeafEncoding α} {leaves : List α}
    {encoded : List Bytes} (complete : leaves.mapM encoding = .ok encoded) :
    encoded.length = leaves.length := by
  -- Encoding succeeds leaf by leaf, and each success adds one byte string.
  induction leaves generalizing encoded with
  | nil =>
    cases complete
    rfl
  | cons leaf rest ih =>
    rw [List.mapM_cons] at complete
    obtain ⟨bytes, first, complete⟩ := bind_eq_ok_iff.mp complete
    obtain ⟨others, tail, complete⟩ := bind_eq_ok_iff.mp complete
    cases complete
    rw [List.length_cons, List.length_cons, ih tail]

/-- Only the leaves in front of one that has no bytes are written, and its error is the result. -/
theorem LeafEncoding.written_of_fails {encoding : LeafEncoding α} {leaves : List α} {index : Nat}
    {leaf : α} {encoded : List Bytes} {error : Error} (found : leaves[index]? = some leaf)
    (before : (leaves.take index).mapM encoding = .ok encoded)
    (fails : encoding leaf = .error error) :
    leaves.mapM encoding = .error error ∧ encoding.written leaves = encoded := by
  induction leaves generalizing index encoded with
  | nil => cases found
  | cons first rest ih =>
    cases index with
    | zero =>
      -- The first leaf itself is the one without bytes.
      cases found
      cases before
      rw [List.mapM_cons, written, fails]
      exact ⟨rfl, rfl⟩
    | succ index =>
      -- A leaf in front of it has bytes, so the error lies behind.
      rw [List.take_succ_cons, List.mapM_cons] at before
      obtain ⟨bytes, head, before⟩ := bind_eq_ok_iff.mp before
      obtain ⟨others, tail, before⟩ := bind_eq_ok_iff.mp before
      cases before
      obtain ⟨ends, same⟩ := ih found tail
      rw [List.mapM_cons, written, head, ends, same]
      exact ⟨rfl, rfl⟩

/-- Equal leaves are written as often as they occur. -/
theorem LeafEncoding.written_replicate {encoding : LeafEncoding α} {leaf : α} {bytes : Bytes}
    (single : encoding leaf = .ok bytes) (count : Nat) :
    encoding.written (List.replicate count leaf) = List.replicate count bytes := by
  -- No leaf fails, since one does not.
  induction count with
  | zero => rfl
  | succ count ih => rw [List.replicate_succ, written, single, ih, List.replicate_succ]

/-- An encoding by a function that never fails encodes all leaves by the function. -/
theorem LeafEncoding.mapM_ofFunction (write : α → Bytes) (leaves : List α) :
    leaves.mapM (ofFunction write) = .ok (leaves.map write) :=
  -- No leaf fails, so none ends the encoding.
  List.mapM_pure

/-- An encoding by a function that never fails writes something for every leaf. -/
theorem LeafEncoding.written_ofFunction (write : α → Bytes) (leaves : List α) :
    (ofFunction write).written leaves = leaves.map write :=
  -- All leaves are in front of any that fails.
  written_eq (mapM_ofFunction write leaves)

/-- Where the leaves have no bytes together, one of them has none. -/
theorem LeafEncoding.exists_fails {encoding : LeafEncoding α} {leaves : List α} {error : Error}
    (fails : leaves.mapM encoding = .error error) :
    ∃ leaf ∈ leaves, encoding leaf = .error error := by
  induction leaves with
  | nil => cases fails
  | cons first rest ih =>
    rw [List.mapM_cons] at fails
    -- The first leaf may be the one that fails.
    cases head : encoding first with
    | error other =>
      rw [head] at fails
      cases fails
      exact ⟨first, List.mem_cons_self, head⟩
    | ok bytes =>
      rw [head] at fails
      -- A first leaf with bytes leaves the error to the other ones.
      cases tail : rest.mapM encoding with
      | error other =>
        rw [tail] at fails
        cases fails
        obtain ⟨leaf, member, none⟩ := ih tail
        exact ⟨leaf, List.mem_cons_of_mem _ member, none⟩
      | ok others =>
        rw [tail] at fails
        cases fails

namespace Tree

variable {H : Hasher D}

/-- Hashing one leaf charges it when it has bytes, and fails without a charge when it has none. -/
theorem outcome_hashLeaf (H : Hasher D) (encoding : LeafEncoding α) (leaf : α) (start : Cost) :
    (hashLeaf H encoding leaf).outcome start =
      match encoding leaf with
      | .error error => .ok ⟨.error error, start⟩
      | .ok bytes =>
        (Charge.outcome (Cost.chargeLeaf bytes.length) start).map fun done =>
          ⟨.ok (H.leaf bytes), done.cost⟩ := by
  rw [hashLeaf, Metered.outcome_bind]
  cases encoding leaf with
  | error error => rfl
  | ok bytes =>
    -- The bytes are charged before the digest is returned.
    have charged : (Metered.chargeLeaf bytes.length : Metered Error Unit).outcome start =
        (Charge.outcome (Cost.chargeLeaf bytes.length) start).map fun done =>
          ⟨.ok (), done.cost⟩ := by
      rw [Metered.outcome, Metered.chargeLeaf, ExceptT.run_mk, Charge.outcome_bind]
      cases Charge.outcome (Cost.chargeLeaf bytes.length) start <;> rfl
    show (Metered.chargeLeaf bytes.length >>= fun _ => pure (H.leaf bytes)).outcome start = _
    rw [Metered.outcome_bind, charged]
    dsimp only
    cases Charge.outcome (Cost.chargeLeaf bytes.length) start <;> rfl

/-- Hashing all leaves yields their digests, and charges the leaves that were written. -/
theorem outcome_hashLeaves {encoding : LeafEncoding α} {leaves : List α} {start : Cost}
    {done : Costed (Except Error (List D))}
    (finished : (leaves.mapM (hashLeaf H encoding)).outcome start = .ok done) :
    done.value = (leaves.mapM encoding).map (List.map H.leaf) ∧
      done.cost.leafHashes.toNat =
        start.leafHashes.toNat + (encoding.written leaves).length ∧
      done.cost.nodeHashes = start.nodeHashes ∧
      done.cost.hashedBytes.toNat =
        start.hashedBytes.toNat + (encoding.written leaves).flatten.length := by
  induction leaves generalizing start done with
  | nil =>
    cases finished
    exact ⟨rfl, rfl, rfl, rfl⟩
  | cons leaf rest ih =>
    rw [List.mapM_cons, Metered.outcome_bind, outcome_hashLeaf] at finished
    rw [List.mapM_cons, LeafEncoding.written]
    cases first : encoding leaf with
    | error error =>
      -- A leaf without bytes ends the work, and is not charged.
      rw [first] at finished
      cases finished
      exact ⟨rfl, rfl, rfl, rfl⟩
    | ok bytes =>
      rw [first] at finished
      obtain ⟨hashed, charged, finished⟩ := bind_eq_ok_iff.mp finished
      obtain ⟨single, paid, rfl⟩ := map_eq_ok_iff.mp charged
      obtain ⟨leafCalls, nodeCalls, byteCount⟩ := Cost.outcome_chargeLeaf_eq_ok_iff.mp paid
      -- The remaining leaves start at the cost that the first one ends with.
      dsimp only at finished ⊢
      rw [Metered.outcome_bind] at finished
      obtain ⟨others, worked, finished⟩ := bind_eq_ok_iff.mp finished
      obtain ⟨value, calls, nodes, total⟩ := ih worked
      -- Whatever they end with, the list of digests grows in front and the cost stays.
      have ended : done =
          ⟨(rest.mapM encoding).map fun encoded => (bytes :: encoded).map H.leaf, others.cost⟩ := by
        rw [value] at finished
        cases tail : rest.mapM encoding with
        | error error =>
          rw [tail] at finished
          cases finished
          rfl
        | ok encoded =>
          rw [tail] at finished
          cases finished
          rfl
      subst ended
      simp only [List.length_cons, List.flatten_cons, List.length_append]
      refine ⟨?_, by omega, nodes.trans nodeCalls, by omega⟩
      cases rest.mapM encoding <;> rfl

section Build

variable {encoding : LeafEncoding α} {padding : Padding} {leaves : List α} {capacity : Nat}

/-- A refused number of leaves costs nothing and reports nothing, whatever the leaves are. -/
theorem build_of_refused {error : Error} (refused : padding.capacity leaves.length = .error error) :
    build H encoding padding leaves = .ok (.failure error {}) := by
  -- The number is tested before any leaf is encoded.
  rw [build, refused]

/-- A refused number of digests costs nothing and reports nothing, whatever the digests are. -/
theorem ofDigests_of_refused {digests : List D} {error : Error}
    (refused : padding.capacity digests.length = .error error) :
    ofDigests H padding digests = .failure error {} := by
  -- The number is tested before any digest is stored.
  rw [ofDigests, refused]

/-- An accepted build over hashed leaves reports the error of a leaf, at the cost in front of it. -/
theorem build_of_fails (accepted : padding.capacity leaves.length = .ok capacity)
    {hashed : Costed (Except Error (List D))}
    (worked : (leaves.mapM (hashLeaf H encoding)).outcome {} = .ok hashed) {error : Error}
    (fails : leaves.mapM encoding = .error error) :
    build H encoding padding leaves = .ok (.failure error hashed.cost) := by
  -- Hashing ends with the first error of the encoding, and keeps the cost of the leaves before.
  obtain ⟨hashes, -⟩ := outcome_hashLeaves worked
  obtain ⟨value, cost⟩ := hashed
  dsimp only at hashes
  rw [fails] at hashes
  subst hashes
  rw [build, accepted]
  dsimp only
  rw [worked]
  rfl

/-- Building over an accepted number of digests reports the arranged tree, one merge per parent. -/
theorem ofDigests_of_accepted {digests : List D}
    (accepted : padding.capacity digests.length = .ok capacity) :
    ofDigests H padding digests =
      { value := .ok (arrange H capacity digests)
        cost := { nodeHashes := UInt32.ofNatClamp (capacity - 1) }
        events := (arrange H capacity digests).construction } := by
  -- The number is the only thing that could be refused.
  rw [ofDigests, accepted]

/-- An accepted build over hashed leaves reports the tree over their digests, and charges both. -/
theorem build_of_encoded (accepted : padding.capacity leaves.length = .ok capacity)
    {hashed : Costed (Except Error (List D))}
    (worked : (leaves.mapM (hashLeaf H encoding)).outcome {} = .ok hashed) {encoded : List Bytes}
    (complete : leaves.mapM encoding = .ok encoded) :
    build H encoding padding leaves =
      .ok { value := .ok (arrange H capacity (encoded.map H.leaf))
            cost := { hashed.cost with nodeHashes := UInt32.ofNatClamp (capacity - 1) }
            events := (arrange H capacity (encoded.map H.leaf)).construction } := by
  obtain ⟨hashes, -, apart, -⟩ := outcome_hashLeaves worked
  obtain ⟨value, cost⟩ := hashed
  dsimp only at hashes apart
  rw [complete] at hashes
  subst hashes
  -- The digests are as many as the leaves, so they are accepted with the same capacity.
  have same : padding.capacity (encoded.map H.leaf).length = .ok capacity := by
    rw [List.length_map, LeafEncoding.length_encoded complete, accepted]
  have joined := Cost.add_of_nodeHashes_eq_zero apart (UInt32.ofNatClamp (capacity - 1))
  rw [build, accepted]
  dsimp only
  rw [worked]
  show (ofDigests H padding (encoded.map H.leaf)).withEarlier cost = _
  rw [ofDigests_of_accepted same, Report.withEarlier, Costed.withEarlier_eq, joined]
  rfl

/-- An accepted build ends without an overflow when its leaves can be hashed without one. -/
theorem build_isOk_iff (accepted : padding.capacity leaves.length = .ok capacity) :
    (∃ report, build H encoding padding leaves = .ok report) ↔
      ∃ hashed, (leaves.mapM (hashLeaf H encoding)).outcome {} = .ok hashed := by
  constructor
  · rintro ⟨report, finished⟩
    rw [build, accepted] at finished
    obtain ⟨hashed, worked, -⟩ := bind_eq_ok_iff.mp finished
    exact ⟨hashed, worked⟩
  · -- Once the leaves are hashed, neither the merges nor the sum of both costs can overflow.
    rintro ⟨hashed, worked⟩
    cases outcome : leaves.mapM encoding with
    | error error => exact ⟨_, build_of_fails accepted worked outcome⟩
    | ok encoded => exact ⟨_, build_of_encoded accepted worked outcome⟩

end Build

end Tree

end Merkle
