import Merkle.Wire.Sorted

/-! Sorted entries are the same where each key has the same last value, in whatever order. -/

namespace Merkle.Wire

/-- The order of keys compares any two different ones. -/
structure Ordered (κ : Type) [LT κ] : Prop where
  /-- No key is below itself. -/
  irreflexive : ∀ key : κ, ¬key < key
  /-- A key below one that is below another is below that other. -/
  transitive : ∀ {a b c : κ}, a < b → b < c → a < c
  /-- Of two different keys, one is below the other. -/
  total : ∀ {a b : κ}, a ≠ b → ¬a < b → b < a

/-- Texts are ordered by their code points. -/
theorem ordered_string : Ordered String where
  irreflexive := String.lt_irrefl
  transitive := String.lt_trans
  total {a b} differs notBelow := by
    -- Two texts that are in order both ways are equal.
    by_cases above : b < a
    · exact above
    · exact absurd (String.le_antisymm (String.not_lt.mp above) (String.not_lt.mp notBelow)) differs

/-- Numbers are ordered by their size. -/
theorem ordered_int : Ordered Int where
  -- The order of integers is linear.
  irreflexive := Int.lt_irrefl
  transitive := Int.lt_trans
  total differs notBelow := by omega

variable {κ α : Type} [DecidableEq κ]

/-- Two lists of entries hold the same last value for each key, so they are of one map. -/
def SameEntries (entries others : List (κ × α)) : Prop :=
  -- Only the last entry for a key counts, so the lists are searched from their end.
  ∀ key, entries.reverse.lookup key = others.reverse.lookup key

/-- Without values, entries are the same when they have the same keys. -/
theorem sameEntries_keys_iff {keys others : List κ} :
    SameEntries (keys.map fun key => (key, ())) (others.map fun key => (key, ())) ↔
      ∀ key, key ∈ keys ↔ key ∈ others := by
  have missing (keys : List κ) (key : κ) :
      (keys.map fun key => (key, ())).reverse.lookup key = none ↔ key ∉ keys := by
    rw [List.lookup_eq_none_iff]
    simp only [List.mem_reverse, List.forall_mem_map, bne_iff_ne]
    exact ⟨fun differs member => differs key member rfl, fun absent other member same =>
      absent (same ▸ member)⟩
  -- There is only one value, so a key is either found or missing.
  have one (found other : Option Unit) : found = other ↔ (found = none ↔ other = none) := by
    cases found <;> cases other <;> simp
  refine forall_congr' fun key => ?_
  rw [one, missing, missing, Decidable.not_iff_not]

variable [LT κ]

/-- Where keys ascend, the entries are those that are found under their keys. -/
theorem mem_iff_lookup (order : Ordered κ) {entries : List (κ × α)}
    (ascending : entries.Pairwise fun a b => a.1 < b.1) (key : κ) (value : α) :
    (key, value) ∈ entries ↔ entries.lookup key = some value := by
  induction entries with
  | nil => simp
  | cons first rest ih =>
    obtain ⟨other, kept⟩ := first
    obtain ⟨below, tail⟩ := List.pairwise_cons.mp ascending
    by_cases found : key = other
    · -- The keys behind the first are above it, so the first is the one that is found.
      subst found
      have later : (key, value) ∉ rest := fun member =>
        order.irreflexive key (below (key, value) member)
      simp [later, eq_comm]
    · simp [found, List.lookup_cons, beq_false_of_ne found, ih tail]

/-- Entries with ascending keys are the same where each key is found with the same value. -/
theorem eq_of_lookup_eq (order : Ordered κ) {entries others : List (κ × α)}
    (ascending : entries.Pairwise fun a b => a.1 < b.1)
    (ascendingOthers : others.Pairwise fun a b => a.1 < b.1)
    (same : ∀ key, entries.lookup key = others.lookup key) : entries = others := by
  -- No entry occurs twice, so the same members in the same order are the same entries.
  have distinct {entries : List (κ × α)} (ascending : entries.Pairwise fun a b => a.1 < b.1) :
      entries.Nodup :=
    ascending.imp fun {a b} below (same : a = b) => order.irreflexive b.1 (same ▸ below)
  have members : entries.Perm others :=
    (List.perm_ext_iff_of_nodup (distinct ascending) (distinct ascendingOthers)).mpr
      fun (key, value) => by
        rw [mem_iff_lookup order ascending, mem_iff_lookup order ascendingOthers, same]
  exact members.eq_of_pairwise
    (fun a b _ _ below above => absurd (order.transitive below above) (order.irreflexive a.1))
    ascending ascendingOthers

variable [DecidableLT κ]

/-- An entry put among others is found under its key, and nothing else changes. -/
theorem lookup_insertEntry (key other : κ) (value : α) (entries : List (κ × α)) :
    (insertEntry key value entries).lookup other =
      if other = key then some value else entries.lookup other := by
  -- The entry goes to the front, takes the place of an entry, or passes it by.
  induction entries with
  | nil => grind [insertEntry]
  | cons first rest ih => grind [insertEntry]

/-- Under each key the sorted entries have the last of its values. -/
theorem lookup_sortEntries (key : κ) (entries : List (κ × α)) :
    (sortEntries entries).lookup key = entries.reverse.lookup key := by
  -- The entries sorted so far stand behind those that are still to come.
  have general (entries sorted : List (κ × α)) :
      (entries.foldl (fun sorted (key, value) => insertEntry key value sorted) sorted).lookup key =
        (entries.reverse.lookup key).or (sorted.lookup key) := by
    induction entries generalizing sorted with
    | nil => rfl
    | cons entry rest ih =>
      rw [List.foldl_cons, ih, lookup_insertEntry, List.reverse_cons, List.lookup_append]
      grind
  rw [sortEntries, general, List.lookup_nil, Option.or_none]

/-- Every sorted entry is one of the entries. -/
theorem mem_of_mem_sortEntries {entry : κ × α} {entries : List (κ × α)}
    (member : entry ∈ sortEntries entries) : entry ∈ entries := by
  -- Each entry that is put in its place is one of those that were still to come.
  have general (entries sorted : List (κ × α))
      (member : entry ∈ entries.foldl (fun sorted (key, value) => insertEntry key value sorted)
        sorted) : entry ∈ entries ∨ entry ∈ sorted := by
    induction entries generalizing sorted with
    | nil => exact .inr member
    | cons first rest ih =>
      rcases ih _ member with later | now
      · exact .inl (List.mem_cons_of_mem _ later)
      · rcases mem_of_mem_insertEntry now with rfl | before
        · exact .inl List.mem_cons_self
        · exact .inr before
  simpa using general entries [] member

/-- Entries are sorted to the same ones exactly when they are of one map. -/
theorem sortEntries_eq_iff (order : Ordered κ) {entries others : List (κ × α)} :
    sortEntries entries = sortEntries others ↔ SameEntries entries others := by
  constructor
  · -- What is found under a key can be read off the sorted entries.
    intro same key
    rw [← lookup_sortEntries, same, lookup_sortEntries]
  · intro same
    refine eq_of_lookup_eq order (ascending_sortEntries order.transitive order.total entries)
      (ascending_sortEntries order.transitive order.total others) fun key => ?_
    rw [lookup_sortEntries, lookup_sortEntries, same]

end Merkle.Wire
