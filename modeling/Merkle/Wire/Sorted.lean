/-! Entries in the order of their keys, where a later entry replaces an earlier one of its key. -/

namespace Merkle.Wire

/-- Puts an entry in its place among sorted entries. -/
def insertEntry [DecidableEq κ] [LT κ] [DecidableLT κ] (key : κ) (value : α) :
    List (κ × α) → List (κ × α)
  | [] => [(key, value)]
  | (other, kept) :: rest =>
    -- An equal key gives up its value, and a greater one makes room.
    if key = other then (key, value) :: rest
    else if key < other then (key, value) :: (other, kept) :: rest
    else (other, kept) :: insertEntry key value rest

/-- The entries with each key once, in ascending order of keys. -/
def sortEntries [DecidableEq κ] [LT κ] [DecidableLT κ] (entries : List (κ × α)) :
    List (κ × α) :=
  -- A later entry replaces an earlier one with the same key.
  entries.foldl (fun sorted (key, value) => insertEntry key value sorted) []

/-- An entry put among others is one of the entries afterwards, and no other entry is new. -/
theorem mem_of_mem_insertEntry [DecidableEq κ] [LT κ] [DecidableLT κ] {key : κ} {value : α}
    {entries : List (κ × α)} {entry : κ × α} (member : entry ∈ insertEntry key value entries) :
    entry = (key, value) ∨ entry ∈ entries := by
  induction entries with
  | nil => exact .inl (List.mem_singleton.mp member)
  | cons first rest ih =>
    -- The new entry is in front, in place of the first entry, or further behind.
    rw [insertEntry] at member
    split at member
    · -- The new entry takes the place of the old one.
      exact (List.mem_cons.mp member).imp id (List.mem_cons_of_mem _)
    · split at member
      · -- The new entry goes in front of a greater key.
        exact List.mem_cons.mp member
      · rcases List.mem_cons.mp member with same | member
        · exact .inr (by rw [same]; exact List.mem_cons_self)
        · exact (ih member).imp id (List.mem_cons_of_mem _)

/-- Putting an entry in its place keeps the keys ascending, for any total order of keys. -/
theorem ascending_insertEntry [DecidableEq κ] [LT κ] [DecidableLT κ]
    (transitive : ∀ {a b c : κ}, a < b → b < c → a < c)
    (total : ∀ {a b : κ}, a ≠ b → ¬ a < b → b < a) (key : κ) (value : α)
    {entries : List (κ × α)} (ascending : entries.Pairwise fun a b => a.1 < b.1) :
    (insertEntry key value entries).Pairwise fun a b => a.1 < b.1 := by
  induction entries with
  | nil => exact List.pairwise_singleton _ _
  | cons first rest ih =>
    -- What is below the first key is below every key of the rest.
    obtain ⟨below, tail⟩ := List.pairwise_cons.mp ascending
    rw [insertEntry]
    split
    · -- The replaced entry had the same key, so nothing moves.
      rename_i same
      exact List.pairwise_cons.mpr
        ⟨fun other member => by rw [same]; exact below other member, tail⟩
    · rename_i differs
      split
      · -- The new key lies below the first one, and so below all others.
        rename_i before
        refine List.pairwise_cons.mpr ⟨fun other member => ?_, ascending⟩
        rcases List.mem_cons.mp member with same | member
        · rw [same]; exact before
        · exact transitive before (below other member)
      · -- The first key stays in front of both the new key and the old ones.
        rename_i notBefore
        refine List.pairwise_cons.mpr ⟨fun other member => ?_, ih tail⟩
        rcases mem_of_mem_insertEntry member with same | member
        · rw [same]; exact total differs notBefore
        · exact below other member

/-- The sorted entries have ascending keys, so each key occurs once. -/
theorem ascending_sortEntries [DecidableEq κ] [LT κ] [DecidableLT κ]
    (transitive : ∀ {a b c : κ}, a < b → b < c → a < c)
    (total : ∀ {a b : κ}, a ≠ b → ¬ a < b → b < a) (entries : List (κ × α)) :
    (sortEntries entries).Pairwise fun a b => a.1 < b.1 := by
  -- The entries sorted so far are ascending after every step.
  have general : ∀ (entries sorted : List (κ × α)), (sorted.Pairwise fun a b => a.1 < b.1) →
      (entries.foldl (fun sorted (key, value) => insertEntry key value sorted) sorted).Pairwise
        fun a b => a.1 < b.1 := by
    intro entries
    induction entries with
    | nil => intro sorted ascending; exact ascending
    | cons entry rest ih =>
      intro sorted ascending
      exact ih _ (ascending_insertEntry transitive total _ _ ascending)
  exact general entries [] List.Pairwise.nil

end Merkle.Wire
