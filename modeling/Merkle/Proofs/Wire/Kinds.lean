import Merkle.Proofs.Wire.Delimited
import Merkle.Proofs.Wire.Entries
import Merkle.Wire.Kinds

/-! The kinds of values in use have shapes, so equal leaf bytes are those of equal leaves. -/

namespace Merkle.Wire

namespace Shape

/-- The shape without parts. -/
def unit : Shape :=
  -- Nothing is written for it.
  .tuple []

/-- The shape of 32-bit floating-point numbers. -/
def float32 : Shape :=
  -- The bits are written as a number of four bytes.
  .nat 4

/-- The shape of 64-bit floating-point numbers. -/
def float64 : Shape :=
  -- The bits are written as a number of eight bytes.
  .nat 8

/-- The shape of results, where success is the first alternative. -/
def result (success failure : Shape) : Shape :=
  -- Each alternative has one part.
  .sum [[success], [failure]]

/-- The shape of maps, which are sequences of entries. -/
def map (key item : Shape) : Shape :=
  -- An entry has a key and a value, and neither marks where it ends.
  .sequence (.tuple [key, item])

/-- The shape of sets, which are sequences of their members. -/
def set (item : Shape) : Shape :=
  -- The order of the members is that in which they are written.
  .sequence item

/-- The shape of ranges between two bounds. -/
def range (bound : Shape) : Shape :=
  -- Both bounds have the same shape, and the first one is written first.
  .tuple [bound, bound]

/-- The shape of lengths of time in seconds and nanoseconds. -/
def duration : Shape :=
  -- Nanoseconds need fewer bytes, since full seconds are carried out of them.
  .tuple [.nat 8, .nat 4]

/-- The shape of internet addresses, where the shorter kind is the first alternative. -/
def address : Shape :=
  -- An address has four or sixteen bytes, which the number in front tells.
  .sum [List.replicate 4 (.nat 1), List.replicate 16 (.nat 1)]

/-- The shape of paths that are texts. -/
def path : Shape :=
  -- Paths that are not texts have no encoding, so they need no shape.
  .string

end Shape

/-- What is written of some shape, where equal values are written exactly for the same things. -/
structure Represents (write : α → Value) (shape : Shape) (valid : α → Prop)
    (same : α → α → Prop) : Prop where
  /-- The written values are of the shape. -/
  admits : ∀ ⦃item⦄, valid item → shape.Admits (write item)
  /-- Things are the same exactly when one value is written for both. -/
  eq_iff : ∀ ⦃item other⦄, valid item → valid other → (write item = write other ↔ same item other)

/-- Numbers of 32 bits stand for their bit patterns. -/
theorem represents_float32 :
    Represents Value.float32 .float32 (fun _ => True) (· = ·) where
  -- Every pattern is a number of 32 bits.
  admits bits _ := ⟨rfl, bits.toNat_lt⟩
  eq_iff bits other _ _ := by
    simp [Value.float32, UInt32.toNat_inj]

/-- Numbers of 64 bits stand for their bit patterns. -/
theorem represents_float64 :
    Represents Value.float64 .float64 (fun _ => True) (· = ·) where
  -- Every pattern is a number of 64 bits.
  admits bits _ := ⟨rfl, bits.toNat_lt⟩
  eq_iff bits other _ _ := by
    simp [Value.float64, UInt64.toNat_inj]

/-- Results are told apart, and a success from a failure. -/
theorem represents_result (success failure : Shape) :
    Represents (Sum.elim Value.success Value.failure) (.result success failure)
      (Sum.elim success.Admits failure.Admits) (· = ·) where
  -- The number of the alternative says which of the two it is.
  admits
    | .inl _, valid => ⟨by decide, valid, trivial⟩
    | .inr _, valid => ⟨by decide, valid, trivial⟩
  eq_iff outcome other _ _ := by
    cases outcome <;> cases other <;> simp [Value.success, Value.failure]

/-- Where keys are told apart by what is written for them, so are entries of maps. -/
theorem writeEntry_inj {κ : Type} {writeKey : κ → Value}
    (writeKey_inj : ∀ key other, writeKey key = writeKey other → key = other)
    (entry other : κ × Value)
    (same : Value.tuple [writeKey entry.1, entry.2] = .tuple [writeKey other.1, other.2]) :
    entry = other := by
  -- An entry is written as its two parts, side by side.
  simp only [Value.tuple.injEq, List.cons.injEq, and_true] at same
  exact Prod.ext (writeKey_inj _ _ same.1) same.2

section Sorted

variable {κ α : Type} [DecidableEq κ] [LT κ] [DecidableLT κ]

/-- What is written for each entry is of one shape, and there are not too many keys. -/
def EntriesAdmitted (writeEntry : κ × α → Value) (shape : Shape) (entries : List (κ × α)) : Prop :=
  -- Keys are counted once each, since only the last entry for a key is written.
  (∀ entry ∈ entries, shape.Admits (writeEntry entry)) ∧
    (sortEntries entries).length < UInt64.size

/-- Sorted entries are told apart by the last value of each key, in whatever order they come. -/
theorem represents_sorted (order : Ordered κ) {writeEntry : κ × α → Value}
    (writeEntry_inj : ∀ entry other, writeEntry entry = writeEntry other → entry = other)
    (shape : Shape) :
    Represents (fun entries => .sequence ((sortEntries entries).map writeEntry)) (.sequence shape)
      (EntriesAdmitted writeEntry shape) SameEntries where
  admits entries valid := by
    obtain ⟨each, fits⟩ := valid
    refine ⟨by simpa using fits, fun value member => ?_⟩
    obtain ⟨entry, sorted, rfl⟩ := List.mem_map.mp member
    exact each entry (mem_of_mem_sortEntries sorted)
  eq_iff entries others _ _ := by
    -- The written entries are told apart by the sorted ones, and those by what the maps hold.
    rw [Value.sequence.injEq, List.map_inj_right writeEntry_inj, sortEntries_eq_iff order]

end Sorted

/-- Maps from texts are told apart by what they hold for each text. -/
theorem represents_ofTextMap (item : Shape) :
    Represents Value.ofTextMap (.map .string item)
      (EntriesAdmitted (fun (key, value) => .tuple [.string key, value]) (.tuple [.string, item]))
      SameEntries :=
  -- Texts are told apart by what is written for them, and they are linearly ordered.
  represents_sorted ordered_string (writeEntry_inj fun _ _ => Value.string.inj) _

/-- Maps from 64-bit integers are told apart by what they hold for each integer. -/
theorem represents_ofIntMap (item : Shape) :
    Represents Value.ofIntMap (.map (.int 8) item)
      (EntriesAdmitted (fun (key, value) => .tuple [.int 8 key, value]) (.tuple [.int 8, item]))
      SameEntries :=
  -- Integers are told apart by what is written for them, and they are linearly ordered.
  represents_sorted ordered_int (writeEntry_inj fun _ _ same => (Value.int.inj same).2) _

/-- Sets of texts are told apart by their members. -/
theorem represents_ofTextSet :
    Represents Value.ofTextSet (.set .string)
      (fun items => EntriesAdmitted (fun (key, _) => .string key) .string
        (items.map fun item => (item, ())))
      (fun items others => ∀ item, item ∈ items ↔ item ∈ others) := by
  -- A set is written as the keys of a map that holds nothing for them.
  have sorted := represents_sorted ordered_string
    (fun (entry other : String × Unit) same => Prod.ext (Value.string.inj same) rfl) .string
  exact {
    admits := fun items valid => sorted.admits valid
    eq_iff := fun items others valid validOthers =>
      (sorted.eq_iff valid validOthers).trans sameEntries_keys_iff }

/-- Ranges of 32-bit integers are told apart by their bounds. -/
theorem represents_range :
    Represents (fun bounds : Int × Int => Value.range bounds.1 bounds.2) (.range (.int 4))
      (fun bounds => (Shape.int 4).Admits (.int 4 bounds.1) ∧
        (Shape.int 4).Admits (.int 4 bounds.2))
      (· = ·) where
  -- The bounds are written one after the other, in fixed width.
  admits bounds valid := ⟨valid.1, valid.2, trivial⟩
  eq_iff bounds other _ _ := by
    simp [Value.range, Prod.ext_iff]

/-- Lengths of time are told apart by how long they are, however that is split up. -/
theorem represents_duration :
    Represents (fun parts : Nat × Nat => Value.duration parts.1 parts.2) .duration
      (fun parts => parts.1 + parts.2 / 1000000000 < UInt64.size)
      (fun parts others =>
        1000000000 * parts.1 + parts.2 = 1000000000 * others.1 + others.2) where
  admits parts valid := by
    -- Less than a second is left, which has fewer nanoseconds than four bytes count.
    have below : parts.2 % 1000000000 < Nat.pow 256 4 := by
      have size : Nat.pow 256 4 = 4294967296 := rfl
      omega
    exact ⟨⟨rfl, valid⟩, ⟨rfl, below⟩, trivial⟩
  eq_iff parts others _ _ := by
    simp only [Value.duration, Value.tuple.injEq, List.cons.injEq, Value.nat.injEq, and_true,
      true_and]
    omega

/-- Internet addresses of both lengths are told apart by their bytes. -/
theorem represents_address :
    Represents Value.address .address (fun bytes => bytes.length = 4 ∨ bytes.length = 16)
      (· = ·) where
  admits bytes valid := by
    -- The bytes are those of one of the two alternatives, each with its own number of parts.
    have each : ∀ value ∈ bytes.map fun byte => Value.nat 1 byte.toNat,
        (Shape.nat 1).Admits value := by
      intro value member
      obtain ⟨byte, -, rfl⟩ := List.mem_map.mp member
      exact ⟨rfl, byte.toNat_lt⟩
    rcases valid with short | long
    · rw [Value.address, if_pos short]
      exact ⟨by decide, Shape.admitsAll_replicate_iff.mpr ⟨by simpa using short, each⟩⟩
    · rw [Value.address, if_neg (by omega)]
      exact ⟨by decide, Shape.admitsAll_replicate_iff.mpr ⟨by simpa using long, each⟩⟩
  eq_iff bytes other _ _ := by
    have byte_inj (byte other : UInt8) (same : Value.nat 1 byte.toNat = .nat 1 other.toNat) :
        byte = other :=
      UInt8.toNat_inj.mp (Value.nat.inj same).2
    -- The bytes alone are enough, as their number decides between the alternatives.
    constructor
    · intro same
      exact (List.map_inj_right byte_inj).mp (Value.variant.inj same).2
    · exact congrArg Value.address

/-- A path that is a text has the value of the text. -/
theorem Value.path_ofText (text : String) : Value.path (Bytes.ofText text) = .string text := by
  -- The bytes of a text are the ones that it is stored as, and those are valid.
  have stored : (⟨(Bytes.ofText text).toArray⟩ : ByteArray) = text.toByteArray := by
    rw [← Bytes.toByteArray_ofText]
    exact ByteArray.ext List.data_toByteArray.symm
  have read : String.fromUTF8? text.toByteArray = some text := dif_pos text.isValidUTF8
  rw [path, stored, read]

/-- Paths that are texts are told apart by their bytes. -/
theorem represents_path :
    Represents Value.path .path
      (fun bytes => bytes.length < UInt64.size ∧ ∃ text, bytes = Bytes.ofText text)
      (· = ·) where
  admits bytes valid := by
    -- A path that is a text is written as that text.
    obtain ⟨fits, text, rfl⟩ := valid
    rw [Value.path_ofText]
    exact fits
  eq_iff bytes other valid validOther := by
    obtain ⟨-, text, rfl⟩ := valid
    obtain ⟨-, otherText, rfl⟩ := validOther
    rw [Value.path_ofText, Value.path_ofText, Value.string.injEq]
    exact ⟨congrArg Bytes.ofText, Bytes.ofText_inj⟩

/-- A leaf is written exactly as its value is. -/
theorem leafEncoding_eq_ok_iff {leaf : Value} {written : Bytes} :
    leafEncoding leaf = .ok written ↔ leaf.encode = .ok written := by
  rw [leafEncoding]
  cases leaf.encode with
  | error fault => exact ⟨nofun, nofun⟩
  | ok bytes =>
    -- The two successes differ only in the type of the errors that they are not.
    exact ⟨fun same => congrArg Except.ok (Except.ok.inj same),
      fun same => congrArg Except.ok (Except.ok.inj same)⟩

/-- Leaves of one type are delimited by their bytes. -/
theorem Shape.delimits_leafEncoding (shape : Shape) : Delimits shape.Admits leafEncoding := by
  -- An error of the format only changes its wording, so the bytes are those of the format.
  intro leaf other written otherWritten rest otherRest admits admitsOther encoded encodedOther
  exact shape.delimits admits admitsOther (leafEncoding_eq_ok_iff.mp encoded)
    (leafEncoding_eq_ok_iff.mp encodedOther)

/-- What is written for a leaf is told by its bytes, whatever follows them. -/
theorem Represents.delimited {write : α → Value} {shape : Shape} {valid : α → Prop}
    {same : α → α → Prop} (represents : Represents write shape valid same) {item other : α}
    {written otherWritten rest otherRest : Bytes} (here : valid item) (there : valid other)
    (encoded : leafEncoding (write item) = .ok written)
    (encodedOther : leafEncoding (write other) = .ok otherWritten)
    (joined : written ++ rest = otherWritten ++ otherRest) :
    same item other ∧ rest = otherRest := by
  -- The bytes tell the written values, and these tell what they were written for.
  obtain ⟨values, behind⟩ := shape.delimits_leafEncoding (represents.admits here)
    (represents.admits there) encoded encodedOther joined
  exact ⟨(represents.eq_iff here there).mp values, behind⟩

/-- Every leaf of any type has bytes. -/
theorem Shape.exists_leafEncoding {shape : Shape} {leaf : Value} (admits : shape.Admits leaf) :
    ∃ written, leafEncoding leaf = .ok written := by
  -- Every value of a shape has bytes, so no fault is ever reworded.
  obtain ⟨written, encoded⟩ := exists_encode admits
  exact ⟨written, leafEncoding_eq_ok_iff.mpr encoded⟩

/-- Lists of leaves of one type are told apart by the bytes in their places. -/
theorem Shape.eq_of_map_leafEncoding_eq {shape : Shape} {leaves others : List Value}
    (admits : ∀ leaf ∈ leaves, shape.Admits leaf)
    (admitsOthers : ∀ leaf ∈ others, shape.Admits leaf)
    (same : leaves.map leafEncoding = others.map leafEncoding) : leaves = others := by
  induction leaves generalizing others with
  | nil => exact (List.map_eq_nil_iff.mp same.symm).symm
  | cons leaf rest ih =>
    obtain ⟨other, otherRest, rfl, first, behind⟩ := List.map_eq_cons_iff.mp same.symm
    obtain ⟨here, later⟩ := List.forall_mem_cons.mp admits
    obtain ⟨there, laterOthers⟩ := List.forall_mem_cons.mp admitsOthers
    -- The first leaves have bytes, and the same ones, so they are the same leaf.
    obtain ⟨written, encoded⟩ := exists_leafEncoding here
    have heads : leaf = other :=
      shape.delimits_leafEncoding.eq_of_encode_eq here there encoded (first.trans encoded)
    rw [heads, ih later laterOthers behind.symm]

/-- Leaf bytes tell leaves of one type and what follows them, and so they tell lists of leaves. -/
theorem leaf_bytes_delimited :
    (∀ shape : Shape,
      (∀ leaf, shape.Admits leaf → ∃ written, leafEncoding leaf = .ok written) ∧
      Delimits shape.Admits leafEncoding ∧
      ∀ leaves others : List Value, (∀ leaf ∈ leaves, shape.Admits leaf) →
        (∀ leaf ∈ others, shape.Admits leaf) →
        leaves.map leafEncoding = others.map leafEncoding → leaves = others) ∧
    (∀ (α : Type) (write : α → Value) (shape : Shape) (valid : α → Prop) (same : α → α → Prop),
      Represents write shape valid same →
      ∀ item other written otherWritten rest otherRest, valid item → valid other →
        leafEncoding (write item) = .ok written → leafEncoding (write other) = .ok otherWritten →
        written ++ rest = otherWritten ++ otherRest → same item other ∧ rest = otherRest) ∧
    Represents Value.float32 .float32 (fun _ => True) (· = ·) ∧
    Represents Value.float64 .float64 (fun _ => True) (· = ·) ∧
    (∀ success failure : Shape,
      Represents (Sum.elim Value.success Value.failure) (.result success failure)
        (Sum.elim success.Admits failure.Admits) (· = ·)) ∧
    (∀ item : Shape,
      Represents Value.ofTextMap (.map .string item)
        (EntriesAdmitted (fun (key, value) => .tuple [.string key, value]) (.tuple [.string, item]))
        SameEntries ∧
      Represents Value.ofIntMap (.map (.int 8) item)
        (EntriesAdmitted (fun (key, value) => .tuple [.int 8 key, value]) (.tuple [.int 8, item]))
        SameEntries) ∧
    Represents Value.ofTextSet (.set .string)
      (fun items => EntriesAdmitted (fun (key, _) => .string key) .string
        (items.map fun item => (item, ())))
      (fun items others => ∀ item, item ∈ items ↔ item ∈ others) ∧
    Represents (fun bounds : Int × Int => Value.range bounds.1 bounds.2) (.range (.int 4))
      (fun bounds => (Shape.int 4).Admits (.int 4 bounds.1) ∧
        (Shape.int 4).Admits (.int 4 bounds.2)) (· = ·) ∧
    Represents (fun parts : Nat × Nat => Value.duration parts.1 parts.2) .duration
      (fun parts => parts.1 + parts.2 / 1000000000 < UInt64.size)
      (fun parts others =>
        1000000000 * parts.1 + parts.2 = 1000000000 * others.1 + others.2) ∧
    Represents Value.address .address (fun bytes => bytes.length = 4 ∨ bytes.length = 16)
      (· = ·) ∧
    Represents Value.path .path
      (fun bytes => bytes.length < UInt64.size ∧ ∃ text, bytes = Bytes.ofText text) (· = ·) := by
  -- Delimiting is proved once for all shapes, and the other types are written in shapes.
  refine ⟨fun shape => ⟨fun leaf => Shape.exists_leafEncoding, shape.delimits_leafEncoding,
    fun leaves others => Shape.eq_of_map_leafEncoding_eq⟩, ?_⟩
  refine ⟨fun α write shape valid same represents item other written otherWritten rest otherRest =>
    represents.delimited, ?_⟩
  exact ⟨represents_float32, represents_float64, represents_result,
    fun item => ⟨represents_ofTextMap item, represents_ofIntMap item⟩, represents_ofTextSet,
    represents_range, represents_duration, represents_address, represents_path⟩

/-- A nested leaf has its bytes, and no other leaf of its type has them in front of any others. -/
theorem nested_leaf_bytes_delimited :
    let shape := Shape.option (.map .string (.result (.sequence .unit) .char))
    let leaf := Value.present (.ofTextMap
      [("b", .success (.sequence [.tuple [], .tuple []])), ("a", .failure (.char 'ß'))])
    let written : Bytes := [1, 0, 0, 0, 0, 0, 0, 0, 2,
      0, 0, 0, 0, 0, 0, 0, 1, 97, 0, 0, 0, 1, 195, 159,
      0, 0, 0, 0, 0, 0, 0, 1, 98, 0, 0, 0, 0, 0, 0, 0, 0, 0, 0, 0, 2]
    shape.Admits leaf ∧ leafEncoding leaf = .ok written ∧
      ∀ other otherWritten rest otherRest, shape.Admits other →
        leafEncoding other = .ok otherWritten → otherWritten ++ otherRest = written ++ rest →
        other = leaf := by
  intro shape leaf written
  -- The entries are sorted before they are written, so the failure comes first.
  have encoded : leafEncoding leaf = .ok written := rfl
  have pair : (Shape.sequence .unit).Admits (.sequence [.tuple [], .tuple []]) :=
    ⟨by decide, by simp [Shape.unit, Shape.Admits, Shape.AdmitsAll]⟩
  have laterKey : (Bytes.ofText "b").length < UInt64.size := by decide
  have firstKey : (Bytes.ofText "a").length < UInt64.size := by decide
  have admitted : shape.Admits leaf := by
    refine (represents_ofTextMap (.result (.sequence .unit) .char)).admits ⟨?_, by decide⟩
    simp only [List.forall_mem_cons]
    exact ⟨⟨laterKey, ⟨by decide, pair, trivial⟩, trivial⟩,
      ⟨firstKey, ⟨by decide, trivial, trivial⟩, trivial⟩, List.forall_mem_nil _⟩
  refine ⟨admitted, encoded, ?_⟩
  intro other otherWritten rest otherRest admits encodedOther same
  exact ((leaf_bytes_delimited.1 shape).2.1 admits admitted encodedOther encoded same).1

end Merkle.Wire
