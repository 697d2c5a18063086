import Merkle.Operation.Logged
import Merkle.Proofs.Opening.Verdict
import Merkle.Proofs.Tree.Hashing

/-! Operations under a log write the events that their reports carry, and end like them. -/

namespace Merkle

namespace Logged

/-- Whatever the log, the computation ends like the outcome and writes the events of its report. -/
def Writes (computation : Logged (Costed (Except Error α))) (outcome : Checked (Report α)) : Prop :=
  ∀ log, computation.run log =
    match outcome with
    | .ok report => .ok report.toCosted (log ++ report.events)
    -- An overflow leaves the log without any event of the computation.
    | .error overflow => .error overflow log

/-- A bare result writes nothing. -/
theorem writes_pure (value : Except Error α) (cost : Cost) :
    Writes (pure ⟨value, cost⟩) (.ok { value, cost }) :=
  -- The log is extended by an empty list, which is the log itself.
  fun log => congrArg _ (List.append_nil log).symm

/-- A transformed result writes the same events. -/
theorem Writes.map {computation : Logged (Costed (Except Error α))} {outcome : Checked (Report α)}
    (writes : Writes computation outcome) (f : α → β) :
    Writes (do return (← computation).mapOk f) (do return (← outcome).map f) := by
  -- The value is transformed after the events are written.
  intro log
  rw [EStateM.run_bind, writes log]
  cases outcome <;> rfl

/-- What is checked in front of a computation writes nothing, also when it overflows. -/
theorem Writes.afterChecked {checked : Checked β} {next : β → Logged (Costed (Except Error α))}
    {rest : β → Checked (Report α)}
    (continues : ∀ value, checked = .ok value → Writes (next value) (rest value)) :
    Writes (ofChecked checked >>= next) (checked >>= rest) := by
  -- An overflow of the check ends both sides with the log as it was.
  intro log
  cases found : checked with
  | error overflow => rfl
  | ok value => exact continues value found log

/-- Charging earlier work afterwards writes nothing more, as long as the costs have a sum. -/
theorem Writes.withEarlier {computation : Logged (Costed (Except Error α))} {report : Report α}
    (writes : Writes computation (.ok report)) {earlier total : Cost}
    (sum : report.cost.add earlier = .ok total) :
    Writes (computation >>= fun result => ofChecked (result.withEarlier earlier))
      (report.withEarlier earlier) := by
  intro log
  have charged : report.toCosted.withEarlier earlier = .ok ⟨report.value, total⟩ := by
    rw [Costed.withEarlier_eq, sum]
    rfl
  -- The events are in the log already, and the sum leaves them there.
  rw [EStateM.run_bind, writes log, Report.withEarlier, charged]
  dsimp only
  rw [charged]
  rfl

end Logged

open Logged

section Tree

variable {H : Hasher D}

/-- Building over digests writes the events of its report, the warning in front. -/
theorem Tree.writes_ofDigests (padding : Padding) (digests : List D) :
    Writes (ofDigestsLogged H padding digests) (.ok (ofDigests H padding digests)) := by
  rw [ofDigestsLogged]
  cases accepted : padding.capacity digests.length with
  | error error =>
    -- Neither side writes anything for a refused number.
    rw [ofDigests_of_refused accepted]
    exact writes_pure _ _
  | ok capacity =>
    rw [ofDigests_of_accepted accepted]
    intro log
    dsimp only
    rw [construction, capacity_arrange, leafCount_arrange]
    -- The warning is written under the test that puts it into the report.
    by_cases even : capacity = digests.length
    · rw [if_pos even, if_neg (not_not_intro even)]
      rfl
    · rw [if_neg even, if_pos even]
      show EStateM.Result.ok _ (log ++ _ ++ _) = _
      rw [List.append_assoc]

/-- Building over leaves writes the events of its report, and no sum can overflow behind them. -/
theorem Tree.writes_build (encoding : LeafEncoding α) (padding : Padding) (leaves : List α) :
    Writes (buildLogged H encoding padding leaves) (build H encoding padding leaves) := by
  rw [buildLogged, build]
  cases accepted : padding.capacity leaves.length with
  | error error => exact writes_pure _ _
  | ok capacity =>
    refine Writes.afterChecked fun hashed worked => ?_
    obtain ⟨-, -, apart, -⟩ := outcome_hashLeaves worked
    cases hashed.value with
    | error error =>
      -- A leaf without bytes ends the build in front of the first event.
      exact writes_pure _ _
    | ok digests =>
      -- The leaves took no merge, so the merges of the tree are not added to anything.
      have merges : (ofDigests H padding digests).cost =
          { nodeHashes := (ofDigests H padding digests).cost.nodeHashes } := by
        rw [ofDigests]
        cases padding.capacity digests.length <;> rfl
      exact (writes_ofDigests padding digests).withEarlier
        (merges ▸ Cost.add_of_nodeHashes_eq_zero apart _)

/-- Opening writes the event of its report. -/
theorem Tree.writes_openAt (tree : Tree H) (index : Nat) :
    Writes (tree.openAtLogged index) (.ok (tree.openAt index)) := by
  -- An index without a leaf is refused by both and reported by neither.
  rw [openAtLogged, openAt]
  split
  · exact fun log => rfl
  · exact writes_pure _ _

variable [DecidableEq D] (encoding : LeafEncoding α) (root : D) (index : UInt64) (path : List D)

/-- Verifying a digest writes the event of its report. -/
theorem writes_verifyDigest (digest : D) :
    Writes (verifyDigestLogged H root index path digest)
      (.ok (verifyDigest H root index path digest)) := by
  rw [verifyDigestLogged, verifyDigest]
  cases checkIndex index path.length with
  | error error => exact writes_pure _ _
  | ok checked =>
    intro log
    dsimp only
    -- The event is written exactly when the root is missed.
    by_cases same : climb H digest index.toNat path = root
    · rw [if_neg (not_not_intro same), if_pos same, List.append_nil]
      rfl
    · rw [if_pos same, if_neg same]
      rfl

/-- Verifying a leaf writes the event of its report, and no sum can overflow behind it. -/
theorem writes_verify (leaf : α) :
    Writes (verifyLogged H encoding root index path leaf)
      (verify H encoding root index path leaf) := by
  rw [verifyLogged, verify]
  cases valid : checkIndex index path.length with
  | error error => exact writes_pure _ _
  | ok checked =>
    cases encoding leaf with
    | error error => exact writes_pure _ _
    | ok bytes =>
      refine Writes.afterChecked fun charged paid => ?_
      -- The leaf took no merge, as the leaves of a tree.
      obtain ⟨-, apart, -⟩ := Cost.outcome_chargeLeaf_eq_ok_iff.mp paid
      exact (writes_verifyDigest root index path (H.leaf bytes)).withEarlier
        (verifyDigest_cost valid (H.leaf bytes) ▸ Cost.add_of_nodeHashes_eq_zero apart _)

/-- Verifying a leaf at a known depth writes the event of its report. -/
theorem writes_verifyAtDepth (expected : Nat) (leaf : α) :
    Writes (verifyAtDepthLogged H encoding root index path expected leaf)
      (verifyAtDepth H encoding expected root index path leaf) := by
  -- A path of another length is refused on both sides.
  rw [verifyAtDepthLogged, verifyAtDepth]
  split
  · exact writes_verify encoding root index path leaf
  · exact writes_pure _ _

/-- Every operation writes the events of its report. -/
theorem Operation.writes_performLogged (operation : Operation H α) :
    Writes operation.performLogged operation.perform := by
  -- Each operation writes what it writes alone, and names its product afterwards.
  cases operation with
  | build encoding padding leaves => exact (Tree.writes_build encoding padding leaves).map _
  | ofDigests padding digests => exact (Tree.writes_ofDigests padding digests).map _
  | openAt tree index => exact (tree.writes_openAt index).map _
  | verify encoding root opening leaf => exact (writes_verify encoding root _ _ leaf).map _
  | verifyAtDepth encoding expected root opening leaf =>
    exact (writes_verifyAtDepth encoding root _ _ expected leaf).map _
  | verifyDigest root opening digest => exact (writes_verifyDigest root _ _ digest).map _
  | encode opening => exact writes_pure _ _
  | decode bytes => exact writes_pure _ _

end Tree

end Merkle
