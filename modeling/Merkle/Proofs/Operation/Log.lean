import Merkle.Hasher.Standard
import Merkle.Proofs.Operation.Logged
import Merkle.Proofs.Tree.Leaves

/-! What the log says of the calls: which of them wrote events, and what their events tell. -/

namespace Merkle

/-- The level of an event and its named fields, as they stand in a log. -/
def Event.shown (event : Event) : Level × List (String × String) :=
  -- The wording of an event follows from its kind, so it is left out.
  (event.level, event.fields)

/-- A report of a failure has no event, and one of a success has events that tell of its value. -/
def Report.Tells (told : α → List Event → Prop) (report : Report α) : Prop :=
  -- Failing silently is part of telling the truth.
  match report.value with
  | .error _ => report.events = []
  | .ok value => told value report.events

section Meaning

variable {H : Hasher D}

/-- The events tell of a tree that was built over a number of leaves. -/
structure Tree.Told (padding : Padding) (count : Nat) (tree : Tree H) (events : List Event) :
    Prop where
  /-- No leaf is left out. -/
  leafCount_eq : tree.leafCount = count
  /-- The tree itself is told last, after a warning where the number is no power of two. -/
  shown_eq : events.map Event.shown =
    (if count.isPowerOfTwo then []
      else [(.warn, [("leaf_count", toString tree.leafCount),
        ("capacity", toString tree.capacity)])]) ++
      [(.debug, [("leaf_count", toString tree.leafCount), ("capacity", toString tree.capacity),
        ("depth", toString tree.depth), ("root", (H.bytes tree.root).toHex)])]
  /-- Where padding is refused, no number leads to a warning. -/
  even_of_refused : padding = .refused → count.isPowerOfTwo

/-- The events tell that a tree was opened at an index. -/
structure Opening.Told (tree : Tree H) (index : Nat) (opening : Opening D) (events : List Event) :
    Prop where
  /-- There is one event, of the index and the depth. -/
  shown_eq : events.map Event.shown =
    [(.trace, [("index", toString index), ("depth", toString tree.depth)])]
  /-- Both numbers are those of the opening, when the tree is one that can be built. -/
  matches_opening : tree.Constructed →
    opening.index.toNat = index ∧ opening.path.length = tree.depth

/-- The events tell of a digest that was judged by its path. -/
structure Verdict.Told (H : Hasher D) (root : D) (index : UInt64) (path : List D) (digest : D)
    (valid : Bool) (events : List Event) : Prop where
  /-- An accepted digest leads to the root, and is told of by nothing. -/
  of_accepted : valid = true → climb H digest index.toNat path = root ∧ events = []
  /-- A rejected digest leads to another one, and both are told of by one event. -/
  of_rejected : valid = false → climb H digest index.toNat path ≠ root ∧
    events.map Event.shown =
      [(.debug, [("index", toString index.toNat), ("depth", toString path.length),
        ("expected", (H.bytes root).toHex),
        ("computed", (H.bytes (climb H digest index.toNat path)).toHex)])]

/-- The events tell of what an operation produced. -/
def Operation.Told (operation : Operation H α) (product : Product H) (events : List Event) : Prop :=
  match operation with
  | .build _ padding leaves => ∃ tree, product = .tree tree ∧
      tree.Told padding leaves.length events
  | .ofDigests padding digests => ∃ tree, product = .tree tree ∧
      tree.Told padding digests.length events
  | .openAt tree index => ∃ opening, product = .opening opening ∧ opening.Told tree index events
  -- A leaf is judged by the digest of its bytes, at a known depth as well.
  | .verify encoding root opening leaf | .verifyAtDepth encoding _ root opening leaf =>
    ∃ valid bytes, product = .verdict valid ∧ encoding leaf = .ok bytes ∧
      Verdict.Told H root opening.index opening.path (H.leaf bytes) valid events
  | .verifyDigest root opening digest => ∃ valid, product = .verdict valid ∧
      Verdict.Told H root opening.index opening.path digest valid events
  | .encode _ | .decode _ => events = []

end Meaning

namespace Report

variable {told : α → List Event → Prop} {report total : Report α}

/-- What is told of every value is told by the report. -/
theorem Tells.imp {retold : α → List Event → Prop} (tells : report.Tells told)
    (passes : ∀ value, told value report.events → retold value report.events) :
    report.Tells retold := by
  -- A failure has no value that anything would have to be told of.
  unfold Tells at tells ⊢
  cases value : report.value with
  | error error =>
    rw [value] at tells
    exact tells
  | ok result =>
    rw [value] at tells
    exact passes result tells

/-- A transformed report tells of the transformed value. -/
theorem tells_map_iff {told : β → List Event → Prop} {f : α → β} :
    (report.map f).Tells told ↔ report.Tells fun value => told (f value) := by
  -- A transformation keeps the events, and keeps a failure a failure.
  obtain ⟨⟨value, cost⟩, events⟩ := report
  cases value <;> exact Iff.rfl

/-- Charging earlier work leaves what a report tells. -/
theorem Tells.withEarlier {earlier : Cost} (tells : report.Tells told)
    (charged : report.withEarlier earlier = .ok total) : total.Tells told := by
  -- Only the cost of the report changes, and an overflow leaves no report at all.
  obtain ⟨costed, summed, ended⟩ := bind_eq_ok_iff.mp charged
  rw [Costed.withEarlier_eq] at summed
  obtain ⟨cost, -, rfl⟩ := map_eq_ok_iff.mp summed
  cases ended
  exact tells

end Report

section Steps

variable {H : Hasher D} {encoding : LeafEncoding α} {padding : Padding}

/-- The events of a new tree tell of it. -/
theorem Tree.told_construction {digests : List D} {capacity : Nat}
    (accepted : padding.capacity digests.length = .ok capacity) :
    (arrange H capacity digests).Told padding digests.length
      (arrange H capacity digests).construction := by
  obtain ⟨-, allowed, -, rfl⟩ := Padding.capacity_eq_ok_iff.mp accepted
  rw [leastCapacity_eq_self_iff] at allowed
  refine ⟨leafCount_arrange _ _, ?_, ?_⟩
  · -- The slots are as many as the leaves exactly where the leaves fill a level.
    rw [construction, capacity_arrange, leafCount_arrange]
    simp only [leastCapacity_eq_self_iff]
    split <;> rfl
  · -- The rule accepts the number for its own sake, as it does not pad.
    rintro rfl
    exact allowed.resolve_left (by simp)

/-- Building over digests tells of the tree. -/
theorem Tree.tells_ofDigests (digests : List D) :
    (ofDigests H padding digests).Tells fun tree => tree.Told padding digests.length := by
  -- A refused number of leaves has no tree to tell of.
  cases accepted : padding.capacity digests.length with
  | error error =>
    rw [ofDigests_of_refused accepted]
    rfl
  | ok capacity =>
    rw [ofDigests_of_accepted accepted]
    exact told_construction accepted

/-- Building over leaves tells of the tree. -/
theorem Tree.tells_build {leaves : List α} {report : Report (Tree H)}
    (finished : build H encoding padding leaves = .ok report) :
    report.Tells fun tree => tree.Told padding leaves.length := by
  cases accepted : padding.capacity leaves.length with
  | error error =>
    rw [build_of_refused accepted] at finished
    cases finished
    rfl
  | ok capacity =>
    obtain ⟨hashed, worked⟩ := (build_isOk_iff accepted).mp ⟨report, finished⟩
    cases outcome : leaves.mapM encoding with
    | error error =>
      -- A leaf without bytes ends the build before there are digests to arrange.
      rw [build_of_fails accepted worked outcome] at finished
      cases finished
      rfl
    | ok encoded =>
      rw [build_of_encoded accepted worked outcome] at finished
      cases finished
      -- There is one digest for each leaf.
      have count : (encoded.map H.leaf).length = leaves.length := by
        rw [List.length_map, LeafEncoding.length_encoded outcome]
      rw [← count] at accepted ⊢
      exact told_construction accepted

/-- Opening tells of the index and the depth. -/
theorem Tree.tells_openAt (tree : Tree H) (index : Nat) :
    (tree.openAt index).Tells fun opening => opening.Told tree index := by
  rw [openAt]
  split
  · rename_i inside
    refine ⟨rfl, fun constructed => ?_⟩
    -- A tree that can be built has few enough slots for an index to be a word.
    have perfect := constructed.perfect
    have slot : index < tree.capacity := Nat.lt_of_lt_of_le inside perfect.leafCount_le
    exact ⟨perfect.toNat_ofNat_index slot, perfect.length_siblingPath slot⟩
  · rfl

variable [DecidableEq D] {root : D} {index : UInt64} {path : List D}

/-- Verifying a digest tells of a rejection. -/
theorem tells_verifyDigest (digest : D) :
    (verifyDigest H root index path digest).Tells (Verdict.Told H root index path digest) := by
  rw [verifyDigest]
  cases checkIndex index path.length with
  | error error => rfl
  | ok checked =>
    -- The verdict and the event are decided by the same comparison.
    by_cases same : climb H digest index.toNat path = root
    · refine ⟨fun _ => ⟨same, if_pos same⟩, fun rejected => ?_⟩
      simp [same] at rejected
    · refine ⟨fun accepted => ?_, fun _ => ⟨same, ?_⟩⟩
      · simp [same] at accepted
      · -- The event carries the digests themselves, which a log shows in hexadecimal.
        dsimp only
        rw [if_neg same]
        rfl

/-- Verifying a leaf tells of a rejection of its digest. -/
theorem tells_verify {leaf : α} {report : Report Bool}
    (finished : verify H encoding root index path leaf = .ok report) :
    report.Tells fun valid events => ∃ bytes, encoding leaf = .ok bytes ∧
      Verdict.Told H root index path (H.leaf bytes) valid events := by
  -- A refused index and a leaf without bytes both fail before anything is reported.
  rw [verify] at finished
  cases valid : checkIndex index path.length with
  | error error =>
    rw [valid] at finished
    cases finished
    rfl
  | ok checked =>
    rw [valid] at finished
    dsimp only at finished
    cases written : encoding leaf with
    | error error =>
      rw [written] at finished
      cases finished
      rfl
    | ok bytes =>
      rw [written] at finished
      obtain ⟨charged, -, finished⟩ := bind_eq_ok_iff.mp finished
      -- The charge of the leaf is told of by nothing.
      exact ((tells_verifyDigest _).withEarlier finished).imp fun valid judged =>
        ⟨bytes, rfl, judged⟩

/-- Verifying a leaf at a known depth tells of a rejection of its digest. -/
theorem tells_verifyAtDepth {expected : Nat} {leaf : α} {report : Report Bool}
    (finished : verifyAtDepth H encoding expected root index path leaf = .ok report) :
    report.Tells fun valid events => ∃ bytes, encoding leaf = .ok bytes ∧
      Verdict.Told H root index path (H.leaf bytes) valid events := by
  rw [verifyAtDepth] at finished
  split at finished
  · exact tells_verify finished
  · -- A path of another length is refused without an event.
    cases finished
    rfl

/-- The report of every operation tells of what the operation produced. -/
theorem Operation.tells_perform {operation : Operation H α} {report : Report (Product H)}
    (finished : operation.perform = .ok report) : report.Tells operation.Told := by
  -- What is told of the product alone is told of it under its name.
  cases operation with
  | build encoding padding leaves =>
    obtain ⟨built, completed, ended⟩ := bind_eq_ok_iff.mp finished
    cases ended
    exact Report.tells_map_iff.mpr
      ((Tree.tells_build completed).imp fun tree told => ⟨tree, rfl, told⟩)
  | ofDigests padding digests =>
    cases finished
    exact Report.tells_map_iff.mpr
      ((Tree.tells_ofDigests digests).imp fun tree told => ⟨tree, rfl, told⟩)
  | openAt tree index =>
    cases finished
    exact Report.tells_map_iff.mpr
      ((tree.tells_openAt index).imp fun opening told => ⟨opening, rfl, told⟩)
  -- A verification may overflow, and one that finished tells of its verdict.
  | verify encoding root opening leaf =>
    obtain ⟨judged, completed, ended⟩ := bind_eq_ok_iff.mp finished
    cases ended
    refine Report.tells_map_iff.mpr ((tells_verify completed).imp ?_)
    rintro valid ⟨bytes, written, told⟩
    exact ⟨valid, bytes, rfl, written, told⟩
  | verifyAtDepth encoding expected root opening leaf =>
    obtain ⟨judged, completed, ended⟩ := bind_eq_ok_iff.mp finished
    cases ended
    refine Report.tells_map_iff.mpr ((tells_verifyAtDepth completed).imp ?_)
    rintro valid ⟨bytes, written, told⟩
    exact ⟨valid, bytes, rfl, written, told⟩
  | verifyDigest root opening digest =>
    cases finished
    exact Report.tells_map_iff.mpr
      ((tells_verifyDigest digest).imp fun valid told => ⟨valid, rfl, told⟩)
  | encode opening =>
    -- Reading and writing have no events, whether they fail or not.
    cases finished
    unfold Report.Tells
    split <;> rfl
  | decode bytes =>
    cases finished
    unfold Report.Tells
    split <;> rfl

end Steps

namespace Call

/-- The events that the report of a call carries, which are none when it ends without one. -/
def events (call : Call) : List Event :=
  -- An overflow ends a call without a report.
  match call.operation.perform with
  | .ok report => report.events
  | .error _ => []

/-- A call adds its events to the end of the log. -/
theorem logAfter_eq (call : Call) (log : List Event) : call.logAfter log = log ++ call.events := by
  -- The operation under the log writes the events that its report carries.
  rw [logAfter, Operation.writes_performLogged call.operation log, events]
  cases call.operation.perform with
  | ok report => rfl
  | error overflow => exact (List.append_nil log).symm

/-- Calls in turn add their events in the same order. -/
theorem logAfterAll_eq (calls : List Call) (log : List Event) :
    logAfterAll calls log = log ++ calls.flatMap events := by
  -- Each call appends to the log that it is given, so the events stay in order.
  rw [logAfterAll]
  induction calls generalizing log with
  | nil => exact (List.append_nil log).symm
  | cons call rest ih =>
    rw [List.foldl_cons, logAfter_eq, ih, List.flatMap_cons, List.append_assoc]

end Call

/--
The log has the events of each call in turn, and they tell the truth about it.

Under the log, a call ends as it does without one. A call that fails or overflows has no events, and
those of any other call tell of what the call produced.
-/
theorem log_tells_every_call (calls : List Call) (log : List Event) :
    Call.logAfterAll calls log = log ++ calls.flatMap Call.events ∧
      ∀ call ∈ calls,
        Logged.Writes call.operation.performLogged call.operation.perform ∧
        (∀ overflow, call.operation.perform = .error overflow → call.events = []) ∧
        ∀ report, call.operation.perform = .ok report →
          (∀ error, report.value = .error error → call.events = []) ∧
          ∀ product, report.value = .ok product → call.operation.Told product call.events := by
  -- Every operation writes the events of its report, whatever the log was before.
  refine ⟨Call.logAfterAll_eq calls log, fun call _ =>
    ⟨call.operation.writes_performLogged, fun overflow stopped => ?_, ?_⟩⟩
  · rw [Call.events, stopped]
  · intro report finished
    have tells := Operation.tells_perform finished
    rw [Call.events, finished]
    -- What a report tells is split into that of a failure and that of a success.
    unfold Report.Tells at tells
    constructor
    · intro error failed
      rw [failed] at tells
      exact tells
    · intro product succeeded
      rw [succeeded] at tells
      exact tells

/-- A padded tree warns before it is told of, its refusal is silent, and one mismatch is told. -/
theorem log_tells_every_call_mixed :
    let leaves : List Bytes := [[1], [2], [3]]
    let tree := Tree.arrange Hasher.fnv 4 (leaves.map Hasher.fnv.leaf)
    let path := tree.siblingPath 1
    let computed := climb Hasher.fnv (Hasher.fnv.leaf [3]) 1 path
    let mismatch : Operation Hasher.fnv Bytes := .verify .raw tree.root ⟨1, path⟩ [3]
    let operations : List (Operation Hasher.fnv Bytes) :=
      [.build .raw .zeros leaves, .build .raw .refused leaves, .openAt tree 1,
        .verify .raw tree.root ⟨1, path⟩ [2], mismatch]
    let calls : List Call := operations.map fun operation => ⟨operation⟩
    (Call.logAfterAll calls []).map Event.level = [.warn, .debug, .trace, .debug] ∧
      (⟨mismatch⟩ : Call) ∈ calls ∧ computed ≠ tree.root ∧
      (⟨mismatch⟩ : Call).events.map Event.shown =
        [(.debug, [("index", "1"), ("depth", "2"),
          ("expected", (Hasher.fnv.bytes tree.root).toHex),
          ("computed", (Hasher.fnv.bytes computed).toHex)])] := by
  intro leaves tree path computed mismatch operations calls
  have member : (⟨mismatch⟩ : Call) ∈ calls :=
    List.mem_map_of_mem (by simp only [operations, List.mem_cons, true_or, or_true])
  obtain ⟨written, tells⟩ := log_tells_every_call calls []
  obtain ⟨-, -, finishes⟩ := tells ⟨mismatch⟩ member
  -- The leaf is judged without an overflow, and rejected.
  have rejected : Returns (verify Hasher.fnv .raw tree.root 1 path [3]) false := by decide +kernel
  obtain ⟨report, finished, verdict⟩ := rejected
  have performed : mismatch.perform = .ok (report.map .verdict) := by
    show (do return (← verify Hasher.fnv .raw tree.root 1 path [3]).map Product.verdict) = _
    rw [finished]
    rfl
  have succeeded : (report.map .verdict : Report (Product Hasher.fnv)).value =
      .ok (.verdict false) := by
    show report.value.map Product.verdict = _
    rw [verdict]
    rfl
  obtain ⟨-, succeeds⟩ := finishes _ performed
  obtain ⟨valid, bytes, same, encoded, told⟩ := succeeds _ succeeded
  cases same
  cases encoded
  obtain ⟨differs, shown⟩ := told.of_rejected rfl
  refine ⟨?_, member, differs, ?_⟩
  · rw [written]
    decide +kernel
  · -- The fields are named after what the report says, which is computed.
    have index : toString (1 : UInt64).toNat = "1" := by decide +kernel
    have depth : toString path.length = "2" := by decide +kernel
    rw [← index, ← depth]
    exact shown

end Merkle
