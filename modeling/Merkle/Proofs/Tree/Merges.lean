import Merkle.Hasher.Standard
import Merkle.Proofs.Tree.Prehashed

/-! Which merges building a tree takes, and how many of them its cost reports. -/

namespace Merkle

/-- Merges two digests, and notes them in front of the pairs that were merged before. -/
def Hasher.mergeNoted (H : Hasher D) (left right : D) : StateM (List (D × D)) D := do
  -- The newest pair comes first, so the pairs stand in the order of their slots.
  modify ((left, right) :: ·)
  return H.merge left right

namespace Tree

variable {H : Hasher D} {padding : Padding} {capacity : Nat} {digests : List D}

section Effects

variable {m : Type → Type} [Monad m]

/-- Fills the slots from the given one down to the first, with merges that may have effects. -/
def fillParentsWith (merge : D → D → m D) (zero : D) : (slot : Nat) → Array D → m (Array D)
  | 0, nodes => pure nodes
  | slot + 1, nodes => do
    -- There is one merge for each slot, and its result is all that is written.
    let merged ← merge (nodes.getD (2 * (slot + 1)) zero) (nodes.getD (2 * (slot + 1) + 1) zero)
    fillParentsWith merge zero slot (nodes.setIfInBounds (slot + 1) merged)

/-- The tree over some digests, with merges that may have effects. -/
def arrangeWith (H : Hasher D) (merge : D → D → m D) (capacity : Nat) (digests : List D) :
    m (Tree H) := do
  -- The slots are laid out as they are without effects, and filled in the same order.
  let nodes ← fillParentsWith merge H.zero (capacity - 1)
    (List.replicate capacity H.zero ++ padded H capacity digests).toArray
  return { leafCount := digests.length, capacity, nodes }

/-- Merges without effects fill the slots as the hasher does. -/
theorem fillParentsWith_pure [LawfulMonad m] (slot : Nat) (nodes : Array D) :
    fillParentsWith (fun left right => (pure (H.merge left right) : m D)) H.zero slot nodes =
      pure (fillParents H slot nodes) := by
  -- Each merge has no effect to sequence, so the recursions agree step by step.
  induction slot generalizing nodes with
  | zero => rfl
  | succ slot ih => rw [fillParentsWith, pure_bind, ih, fillParents]

/-- Merges without effects arrange the tree of the hasher. -/
theorem arrangeWith_pure [LawfulMonad m] (capacity : Nat) (digests : List D) :
    arrangeWith H (fun left right => (pure (H.merge left right) : m D)) capacity digests =
      pure (arrange H capacity digests) := by
  -- The merges are made by filling, and everything else is the same.
  rw [arrangeWith, fillParentsWith_pure, pure_bind]
  rfl

end Effects

/-- The digests that some slots hold in the two slots below one of them, left one first. -/
def pairBelow (H : Hasher D) (nodes : Array D) (slot : Nat) : D × D :=
  -- A slot that does not exist is read as an unused one.
  (nodes.getD (2 * slot) H.zero, nodes.getD (2 * slot + 1) H.zero)

/-- Filling merges the pair below every slot that it covers once, as the pair is in the end. -/
theorem run_fillParentsWith (slot : Nat) (nodes : Array D) (noted : List (D × D)) :
    (fillParentsWith H.mergeNoted H.zero slot nodes).run noted =
      (fillParents H slot nodes,
        (List.range' 1 slot).map (pairBelow H (fillParents H slot nodes)) ++ noted) := by
  induction slot generalizing nodes noted with
  | zero => rfl
  | succ slot ih =>
    let pair := pairBelow H nodes (slot + 1)
    let written := nodes.setIfInBounds (slot + 1) (H.merge pair.1 pair.2)
    -- The first merge is noted, and filling goes on above its slot.
    have step : (fillParentsWith H.mergeNoted H.zero (slot + 1) nodes).run noted =
        (fillParentsWith H.mergeNoted H.zero slot written).run (pair :: noted) := rfl
    have same : fillParents H (slot + 1) nodes = fillParents H slot written := rfl
    -- The pair lies below all slots that are written, so it is the same in the end.
    have kept : pair = pairBelow H (fillParents H (slot + 1) nodes) (slot + 1) := by
      rw [pairBelow, fillParents_outside (by omega), fillParents_outside (by omega)]
      rfl
    have last : 1 + slot = slot + 1 := Nat.add_comm 1 slot
    rw [step, ih, ← same, kept, List.range'_1_concat, List.map_append, List.append_assoc, last]
    rfl

/-- Arranging a tree merges the children of every slot above its leaf slots once. -/
theorem run_arrangeWith (capacity : Nat) (digests : List D) :
    (arrangeWith H H.mergeNoted capacity digests).run [] =
      (arrange H capacity digests,
        (List.range' 1 (capacity - 1)).map (arrange H capacity digests).children) := by
  -- The notes are empty at first, so they end as the pairs of this tree alone.
  have filled := run_fillParentsWith (H := H) (capacity - 1)
    (List.replicate capacity H.zero ++ padded H capacity digests).toArray []
  rw [List.append_nil] at filled
  rw [arrangeWith, StateT.run_bind, filled]
  rfl

/-- There is a merge for every slot above the leaf slots. -/
theorem length_run_arrangeWith (capacity : Nat) (digests : List D) :
    ((arrangeWith H H.mergeNoted capacity digests).run []).2.length = capacity - 1 := by
  -- The slots above the leaf slots are numbered from one up to the capacity.
  rw [run_arrangeWith, List.length_map, List.length_range']

/-- A word that stops at its greatest value holds the lesser one of a number and that value. -/
theorem toNat_ofNatClamp (count : Nat) :
    (UInt32.ofNatClamp count).toNat = min count (UInt32.size - 1) := by
  -- Below the number of values nothing is cut off, and from there on all is one value.
  by_cases fits : count < UInt32.size
  · rw [UInt32.toNat_ofNatClamp_of_lt fits, Nat.min_eq_left (Nat.le_sub_one_of_lt fits)]
  · have large : UInt32.size ≤ count := Nat.le_of_not_lt fits
    rw [UInt32.toNat_ofNatClamp_of_le large, Nat.min_eq_right (by omega)]

/-- Building over digests reports their merges, up to the greatest number that is counted. -/
theorem toNat_nodeHashes_ofDigests (accepted : padding.capacity digests.length = .ok capacity) :
    (ofDigests H padding digests).cost.nodeHashes.toNat = min (capacity - 1) (UInt32.size - 1) := by
  -- The count is turned into a word that stops at its greatest value.
  rw [ofDigests_of_accepted accepted, toNat_ofNatClamp]

/-- A build over leaves that returns a tree reports a merge for every slot above the leaf slots. -/
theorem toNat_nodeHashes_build {encoding : LeafEncoding α} {leaves : List α}
    {report : Report (Tree H)} {tree : Tree H}
    (finished : build H encoding padding leaves = .ok report) (value : report.value = .ok tree) :
    report.cost.nodeHashes.toNat = tree.capacity - 1 := by
  -- Hashing the leaves was counted in the same width, so the merges fit too.
  have built : Returns (build H encoding padding leaves) tree := ⟨report, finished, value⟩
  obtain ⟨capacity, encoded, accepted, complete, rfl, -⟩ := arrange_of_build built
  obtain ⟨-, -, -, -, -, merges, -⟩ := ofDigests_of_build finished accepted complete
  exact merges

/--
Building over digests merges the children of every slot above the leaf slots once, and its cost
reports these merges as far as they are counted.

The counter stops at its greatest value, so the cost has the number of merges exactly when the
leaf slots are no more than a counter has values. A build over leaves that returns a tree has no
more leaf slots than that, since its leaves are counted as well, with sums that may not overflow.
-/
theorem ofDigests_reports_merges (H : Hasher D)
    (accepted : padding.capacity digests.length = .ok capacity) :
    let report := ofDigests H padding digests
    let run := (arrangeWith H H.mergeNoted capacity digests).run []
    let tree := run.1
    let merges := run.2
    Id.run (arrangeWith H (fun left right => pure (H.merge left right)) capacity digests) = tree ∧
      report.value = .ok tree ∧ tree.capacity = capacity ∧
      merges = (List.range' 1 (capacity - 1)).map tree.children ∧ merges.length = capacity - 1 ∧
      report.cost.nodeHashes.toNat = min merges.length (UInt32.size - 1) ∧
      (report.cost.nodeHashes.toNat = merges.length ↔ capacity ≤ UInt32.size) ∧
      report.cost.leafHashes = 0 ∧ report.cost.hashedBytes = 0 ∧
      ∀ {α : Type} (encoding : LeafEncoding α) (rule : Padding) (leaves : List α)
        (built : Report (Tree H)) (other : Tree H), build H encoding rule leaves = .ok built →
          built.value = .ok other → built.cost.nodeHashes.toNat = other.capacity - 1 := by
  intro report run tree merges
  have noted : run = _ := run_arrangeWith capacity digests
  have arranged : tree = arrange H capacity digests := congrArg Prod.fst noted
  have number : merges.length = capacity - 1 := length_run_arrangeWith capacity digests
  have same : report = _ := ofDigests_of_accepted accepted
  have counted : report.cost.nodeHashes.toNat = min (capacity - 1) (UInt32.size - 1) :=
    toNat_nodeHashes_ofDigests accepted
  -- An accepted number of digests is positive, and so is the capacity.
  obtain ⟨some, -, -, least⟩ := Padding.capacity_eq_ok_iff.mp accepted
  have room : digests.length ≤ capacity := least ▸ le_leastCapacity digests.length
  have words : 0 < UInt32.size := by decide
  -- The counter has the number of merges unless that exceeds its greatest value.
  refine ⟨?_, by rw [same, arranged], by rw [arranged]; rfl, ?_, number, number ▸ counted,
    by omega, by rw [same], by rw [same], ?_⟩
  · rw [arranged, arrangeWith_pure]
    rfl
  · rw [arranged]
    exact congrArg Prod.snd noted
  · intro α encoding rule leaves built other finished value
    exact toNat_nodeHashes_build finished value

/-- The merges of the largest tree that are all counted. -/
theorem ofDigests_reports_merges_full :
    let digests := List.replicate UInt32.size Hasher.fnv.zero
    Padding.refused.capacity digests.length = .ok UInt32.size ∧
      (ofDigests Hasher.fnv .refused digests).cost.nodeHashes.toNat = UInt32.size - 1 ∧
      ((arrangeWith Hasher.fnv Hasher.fnv.mergeNoted UInt32.size digests).run []).2.length =
        UInt32.size - 1 := by
  intro digests
  have accepted : Padding.refused.capacity digests.length = .ok UInt32.size := by
    rw [List.length_replicate]
    exact @Padding.capacity_levelWidth .refused 32 (by decide)
  obtain ⟨-, -, -, -, merges, -, exact_iff, -⟩ := ofDigests_reports_merges Hasher.fnv accepted
  -- The leaf slots are as many as a counter has values, so the merges are one fewer.
  exact ⟨accepted, (exact_iff.mpr (Nat.le_refl _)).trans merges, merges⟩

/-- One leaf more doubles the merges, and the cost reports as many as before. -/
theorem ofDigests_reports_fewer_merges :
    let digests := List.replicate (UInt32.size + 1) Hasher.fnv.zero
    let merges := ((arrangeWith Hasher.fnv Hasher.fnv.mergeNoted (levelWidth 33) digests).run []).2
    Padding.zeros.capacity digests.length = .ok (levelWidth 33) ∧
      merges.length = levelWidth 33 - 1 ∧
      (ofDigests Hasher.fnv .zeros digests).cost.nodeHashes.toNat = UInt32.size - 1 ∧
      (ofDigests Hasher.fnv .zeros digests).cost.nodeHashes.toNat ≠ merges.length := by
  intro digests merges
  -- One leaf more than a power of two takes the next one as capacity.
  have accepted : Padding.zeros.capacity digests.length = .ok (levelWidth 33) := by
    rw [List.length_replicate]
    exact Padding.capacity_eq_ok_iff.mpr (by decide)
  have number : merges.length = levelWidth 33 - 1 := length_run_arrangeWith _ _
  have counted : (ofDigests Hasher.fnv .zeros digests).cost.nodeHashes.toNat = UInt32.size - 1 :=
    (toNat_nodeHashes_ofDigests accepted).trans (by decide)
  refine ⟨accepted, number, counted, ?_⟩
  rw [number, counted]
  decide

end Tree

end Merkle
