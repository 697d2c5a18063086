import Merkle.Proofs.Cost.Sum
import Merkle.Proofs.Wire.Words
import Merkle.Wire.Shape

/-! The bytes of a structured value tell which value it is, whatever follows them. -/

namespace Merkle.Wire

namespace Shape

/-- What holds of every shape when it holds of those inside of it. -/
theorem induct {p : Shape → Prop} (bool : p .bool) (nat : ∀ width, p (.nat width))
    (int : ∀ width, p (.int width)) (char : p .char) (string : p .string) (bytes : p .bytes)
    (option : ∀ item, p item → p (.option item))
    (tuple : ∀ items, (∀ item ∈ items, p item) → p (.tuple items))
    (sequence : ∀ item, p item → p (.sequence item))
    (sum : ∀ alternatives, (∀ items ∈ alternatives, ∀ item ∈ items, p item) →
      p (.sum alternatives)) (shape : Shape) : p shape :=
  -- The lists inside of a shape are taken along with it.
  @Shape.rec p (fun items => ∀ item ∈ items, p item)
    (fun alternatives => ∀ items ∈ alternatives, ∀ item ∈ items, p item)
    bool nat int char string bytes option tuple sequence sum
    nofun (fun _ _ first rest => List.forall_mem_cons.mpr ⟨first, rest⟩)
    nofun (fun _ _ first rest => List.forall_mem_cons.mpr ⟨first, rest⟩) shape

section Values

variable {value : Value} {width : Nat} {item : Shape} {items : List Shape}
  {alternatives : List (List Shape)}

/-- The values of the shape of truth values. -/
theorem exists_bool (admitted : Shape.bool.Admits value) : ∃ truth, value = .bool truth := by
  -- The shape refuses every other kind of value.
  cases value with
  | bool truth => exact ⟨truth, rfl⟩
  | _ => cases admitted

/-- The values of a shape of numbers. -/
theorem exists_nat (admitted : (Shape.nat width).Admits value) :
    ∃ number, value = .nat width number ∧ number < Nat.pow 256 width := by
  -- The width of the value is that of the shape, which bounds its number.
  cases value with
  | nat other number =>
    obtain ⟨rfl, fits⟩ := admitted
    exact ⟨number, rfl, fits⟩
  | _ => cases admitted

/-- The values of a shape of signed numbers. -/
theorem exists_int (admitted : (Shape.int width).Admits value) :
    ∃ number, value = .int width number ∧ -(Nat.pow 256 width : Int) ≤ 2 * number ∧
      2 * number < Nat.pow 256 width := by
  -- The width of the value is that of the shape, which bounds its number on both sides.
  cases value with
  | int other number =>
    obtain ⟨rfl, above, below⟩ := admitted
    exact ⟨number, rfl, above, below⟩
  | _ => cases admitted

/-- The values of the shape of characters. -/
theorem exists_char (admitted : Shape.char.Admits value) : ∃ c, value = .char c := by
  -- Every character is admitted, and nothing else is.
  cases value with
  | char c => exact ⟨c, rfl⟩
  | _ => cases admitted

/-- The values of the shape of texts. -/
theorem exists_string (admitted : Shape.string.Admits value) :
    ∃ text, value = .string text ∧ (Bytes.ofText text).length < UInt64.size := by
  -- Texts are admitted as long as their length can be written.
  cases value with
  | string text => exact ⟨text, rfl, admitted⟩
  | _ => cases admitted

/-- The values of the shape of byte strings. -/
theorem exists_bytes (admitted : Shape.bytes.Admits value) :
    ∃ bytes, value = .bytes bytes ∧ bytes.length < UInt64.size := by
  -- Byte strings are admitted as long as their length can be written.
  cases value with
  | bytes bytes => exact ⟨bytes, rfl, admitted⟩
  | _ => cases admitted

/-- The values of a shape of optional values. -/
theorem absent_or_exists_present (admitted : (Shape.option item).Admits value) :
    value = .absent ∨ ∃ present, value = .present present ∧ item.Admits present := by
  -- There are two kinds of values, and the second one contains another value.
  cases value with
  | absent => exact .inl rfl
  | present present => exact .inr ⟨present, rfl, admitted⟩
  | _ => cases admitted

/-- The values of a shape of fixed numbers of values. -/
theorem exists_tuple (admitted : (Shape.tuple items).Admits value) :
    ∃ values, value = .tuple values ∧ AdmitsAll items values := by
  -- The values inside are admitted together with their number.
  cases value with
  | tuple values => exact ⟨values, rfl, admitted⟩
  | _ => cases admitted

/-- The values of a shape of any numbers of values. -/
theorem exists_sequence (admitted : (Shape.sequence item).Admits value) :
    ∃ values, value = .sequence values ∧ values.length < UInt64.size ∧
      ∀ value ∈ values, item.Admits value := by
  -- The number of values inside is free, as long as it can be written.
  cases value with
  | sequence values => exact ⟨values, rfl, admitted⟩
  | _ => cases admitted

/-- The values of a shape of alternatives. -/
theorem exists_variant (admitted : (Shape.sum alternatives).Admits value) :
    ∃ number values, value = .variant number values ∧ number < UInt32.size ∧
      AdmitsAlternative alternatives number values := by
  -- The number of the alternative is part of the value.
  cases value with
  | variant number values => exact ⟨number, values, rfl, admitted⟩
  | _ => cases admitted

end Values

/-- The values of an alternative are those of the shapes at its number. -/
theorem admitsAlternative_iff {alternatives : List (List Shape)} {number : Nat}
    {values : List Value} :
    AdmitsAlternative alternatives number values ↔
      ∃ items, alternatives[number]? = some items ∧ AdmitsAll items values := by
  -- Both sides skip one alternative for each step that the number goes down.
  induction alternatives generalizing number with
  | nil => simp [AdmitsAlternative]
  | cons items rest ih =>
    cases number with
    | zero => simp [AdmitsAlternative]
    | succ number => simp [AdmitsAlternative, ih]

/-- As many values as there are shapes, where all shapes are the same. -/
theorem admitsAll_replicate_iff {count : Nat} {item : Shape} {values : List Value} :
    AdmitsAll (List.replicate count item) values ↔
      values.length = count ∧ ∀ value ∈ values, item.Admits value := by
  -- Each shape takes one value, so the lists have to end together.
  induction count generalizing values with
  | zero => cases values <;> simp [AdmitsAll]
  | succ count ih =>
    cases values with
    | nil => simp [List.replicate_succ, AdmitsAll]
    | cons value rest =>
      simp only [List.replicate_succ, AdmitsAll, ih, List.length_cons, Nat.succ.injEq,
        List.forall_mem_cons]
      exact and_left_comm

end Shape

/-- Encodings of admitted values tell the values and what follows them, wherever they end. -/
def Delimits (admits : α → Prop) (encode : α → Except ε Bytes) : Prop :=
  -- What follows is arbitrary, so no encoding is the beginning of another one.
  ∀ ⦃value other⦄ ⦃written otherWritten rest otherRest : Bytes⦄, admits value → admits other →
    encode value = .ok written → encode other = .ok otherWritten →
    written ++ rest = otherWritten ++ otherRest → value = other ∧ rest = otherRest

/-- Delimited values with the same bytes are the same. -/
theorem Delimits.eq_of_encode_eq {admits : α → Prop} {encode : α → Except ε Bytes}
    (delimits : Delimits admits encode) {value other : α} {written : Bytes} (here : admits value)
    (there : admits other) (encoded : encode value = .ok written)
    (encodedOther : encode other = .ok written) : value = other :=
  -- Nothing needs to follow the bytes.
  (delimits here there encoded encodedOther (Eq.refl (written ++ []))).1

namespace Value

variable {value : Value} {values : List Value} {written : Bytes}

/-- The bytes of some values are those of the first, and then those of the others. -/
theorem encodeAll_cons_eq_ok_iff :
    encodeAll (value :: values) = .ok written ↔ ∃ first others, value.encode = .ok first ∧
      encodeAll values = .ok others ∧ first ++ others = written := by
  -- The first value is written before the others are, and any of them may fail.
  rw [encodeAll, bind_eq_ok_iff]
  constructor
  · rintro ⟨first, head, complete⟩
    obtain ⟨others, tail, joined⟩ := bind_eq_ok_iff.mp complete
    exact ⟨first, others, head, tail, Except.ok.inj joined⟩
  · rintro ⟨first, others, head, tail, joined⟩
    exact ⟨first, head, bind_eq_ok_iff.mpr ⟨others, tail, congrArg Except.ok joined⟩⟩

end Value

/-- Lengths that fit their word are told apart by it, whatever follows. -/
theorem lengthWord_append_inj {length other : Nat} {rest otherRest : Bytes}
    (fits : length < UInt64.size) (fitsOther : other < UInt64.size)
    (same : lengthWord length ++ rest = lengthWord other ++ otherRest) :
    length = other ∧ rest = otherRest := by
  -- A length word is a number of eight bytes.
  have size : UInt64.size = Nat.pow 256 8 := rfl
  rw [size] at fits fitsOther
  exact Bytes.bigEndian_append_inj fits fitsOther same

/-- Bytes behind their length end where the length says. -/
theorem framed_append_inj {bytes otherBytes rest otherRest : Bytes}
    (fits : bytes.length < UInt64.size) (fitsOther : otherBytes.length < UInt64.size)
    (same : lengthWord bytes.length ++ bytes ++ rest =
      lengthWord otherBytes.length ++ otherBytes ++ otherRest) :
    bytes = otherBytes ∧ rest = otherRest := by
  -- The lengths are told first, and then the bytes are cut at the same place.
  rw [List.append_assoc, List.append_assoc] at same
  obtain ⟨lengths, behind⟩ := lengthWord_append_inj fits fitsOther same
  exact List.append_inj behind lengths

/-- Some values have bytes where each of them has. -/
theorem exists_encodeAll {items : List Shape} {values : List Value}
    (each : ∀ item ∈ items, ∀ ⦃value⦄, item.Admits value → ∃ written, value.encode = .ok written)
    (admits : Shape.AdmitsAll items values) : ∃ written, Value.encodeAll values = .ok written := by
  induction items generalizing values with
  | nil =>
    cases values with
    | nil => exact ⟨[], rfl⟩
    | cons => cases admits
  | cons item items ih =>
    obtain ⟨first, tail⟩ := List.forall_mem_cons.mp each
    cases values with
    | nil => cases admits
    | cons value values =>
      -- The bytes of the first value are followed by those of the others.
      obtain ⟨headBytes, head⟩ := first admits.1
      obtain ⟨tailBytes, more⟩ := ih tail admits.2
      exact ⟨_, Value.encodeAll_cons_eq_ok_iff.mpr ⟨headBytes, tailBytes, head, more, rfl⟩⟩

/-- A fixed number of values is delimited where each of them is. -/
theorem delimits_encodeAll {items : List Shape}
    (each : ∀ item ∈ items, Delimits item.Admits Value.encode) :
    Delimits (Shape.AdmitsAll items) Value.encodeAll := by
  intro values others written otherWritten rest otherRest admits admitsOther encoded encodedOther
    same
  induction items generalizing values others written otherWritten rest otherRest with
  | nil =>
    -- No shapes admit no values, which have no bytes.
    cases values with
    | cons => cases admits
    | nil =>
      cases others with
      | cons => cases admitsOther
      | nil =>
        cases encoded
        cases encodedOther
        exact ⟨rfl, same⟩
  | cons item items ih =>
    obtain ⟨first, tail⟩ := List.forall_mem_cons.mp each
    cases values with
    | nil => cases admits
    | cons value values =>
      cases others with
      | nil => cases admitsOther
      | cons other others =>
        obtain ⟨headBytes, tailBytes, head, more, rfl⟩ :=
          Value.encodeAll_cons_eq_ok_iff.mp encoded
        obtain ⟨otherHeadBytes, otherTailBytes, otherHead, otherMore, rfl⟩ :=
          Value.encodeAll_cons_eq_ok_iff.mp encodedOther
        rw [List.append_assoc, List.append_assoc] at same
        -- The first value ends at the same place in both, so the others start there.
        obtain ⟨rfl, behind⟩ := first admits.1 admitsOther.1 head otherHead same
        obtain ⟨rfl, behind⟩ := ih tail admits.2 admitsOther.2 more otherMore behind
        exact ⟨rfl, behind⟩

/-- Every value of any shape has bytes. -/
theorem Shape.exists_encode {shape : Shape} {value : Value} (admits : shape.Admits value) :
    ∃ written, value.encode = .ok written := by
  -- The induction is on the shape, whose parts are the shapes of the parts of the value.
  induction shape using induct generalizing value with
  | bool =>
    obtain ⟨truth, rfl⟩ := exists_bool admits
    exact ⟨_, rfl⟩
  | nat width =>
    obtain ⟨number, rfl, -⟩ := exists_nat admits
    exact ⟨_, rfl⟩
  | int width =>
    obtain ⟨number, rfl, -⟩ := exists_int admits
    exact ⟨_, rfl⟩
  | char =>
    obtain ⟨c, rfl⟩ := exists_char admits
    exact ⟨_, rfl⟩
  | string =>
    obtain ⟨text, rfl, -⟩ := exists_string admits
    exact ⟨_, rfl⟩
  | bytes =>
    obtain ⟨bytes, rfl, -⟩ := exists_bytes admits
    exact ⟨_, rfl⟩
  | option item ih =>
    rcases absent_or_exists_present admits with rfl | ⟨present, rfl, inside⟩
    · exact ⟨_, rfl⟩
    · -- The mark of a present value is followed by the bytes inside.
      obtain ⟨bytes, inner⟩ := ih inside
      exact ⟨_, bind_eq_ok_iff.mpr ⟨bytes, inner, rfl⟩⟩
  | tuple items ih =>
    obtain ⟨values, rfl, inside⟩ := exists_tuple admits
    exact exists_encodeAll ih inside
  | sequence item ih =>
    obtain ⟨values, rfl, -, inside⟩ := exists_sequence admits
    -- All values inside have the one shape, so they are those of a tuple that repeats it.
    have each : ∀ shape ∈ List.replicate values.length item, ∀ ⦃value⦄, shape.Admits value →
        ∃ written, value.encode = .ok written :=
      fun shape member => List.eq_of_mem_replicate member ▸ @ih
    obtain ⟨bytes, inner⟩ := exists_encodeAll each (admitsAll_replicate_iff.mpr ⟨rfl, inside⟩)
    exact ⟨_, bind_eq_ok_iff.mpr ⟨bytes, inner, rfl⟩⟩
  | sum alternatives ih =>
    obtain ⟨number, values, rfl, -, inside⟩ := exists_variant admits
    -- The number picks the alternative, whose parts are written as those of a tuple.
    obtain ⟨items, place, inside⟩ := admitsAlternative_iff.mp inside
    obtain ⟨bytes, inner⟩ := exists_encodeAll (ih items (List.mem_of_getElem? place)) inside
    exact ⟨_, bind_eq_ok_iff.mpr ⟨bytes, inner, rfl⟩⟩

/-- Values that are made of one part are delimited where their bytes tell the part. -/
theorem delimits_of_written {admits : Value → Prop} {valid : α → Prop} {make : α → Value}
    {write : α → Bytes} (made : ∀ ⦃value⦄, admits value → ∃ part, value = make part ∧ valid part)
    (encodes : ∀ part, (make part).encode = .ok (write part))
    (told : ∀ ⦃part other rest otherRest⦄, valid part → valid other →
      write part ++ rest = write other ++ otherRest → part = other ∧ rest = otherRest) :
    Delimits admits Value.encode := by
  -- The values are their parts, so it suffices that the parts are told.
  intro value other written otherWritten rest otherRest admits admitsOther encoded encodedOther same
  obtain ⟨part, rfl, here⟩ := made admits
  obtain ⟨otherPart, rfl, there⟩ := made admitsOther
  cases (encodes part).symm.trans encoded
  cases (encodes otherPart).symm.trans encodedOther
  obtain ⟨rfl, behind⟩ := told here there same
  exact ⟨rfl, behind⟩

/-- The values of any shape are delimited, however deeply they are nested. -/
theorem Shape.delimits (shape : Shape) : Delimits shape.Admits Value.encode := by
  intro value other written otherWritten rest otherRest admits admitsOther encoded encodedOther same
  -- What follows stays arbitrary, because it includes the other parts of the value around.
  induction shape using induct generalizing value other written otherWritten rest otherRest with
  | bool =>
    obtain ⟨truth, rfl⟩ := exists_bool admits
    obtain ⟨otherTruth, rfl⟩ := exists_bool admitsOther
    cases encoded
    cases encodedOther
    obtain ⟨digit, behind⟩ := List.cons.inj same
    refine ⟨?_, behind⟩
    cases truth <;> cases otherTruth <;> first | rfl | cases digit
  | nat width =>
    exact delimits_of_written (fun _ => exists_nat) (fun _ => rfl)
      (fun _ _ _ _ => Bytes.bigEndian_append_inj) admits admitsOther encoded encodedOther same
  | int width =>
    exact delimits_of_written (fun _ => exists_int) (fun _ => rfl)
      (fun _ _ _ _ here there =>
        Bytes.signedBigEndian_append_inj here.1 here.2 there.1 there.2)
      admits admitsOther encoded encodedOther same
  | char =>
    obtain ⟨c, rfl⟩ := exists_char admits
    obtain ⟨otherC, rfl⟩ := exists_char admitsOther
    cases encoded
    cases encodedOther
    obtain ⟨rfl, behind⟩ := Bytes.utf8EncodeChar_append_inj same
    exact ⟨rfl, behind⟩
  | string =>
    exact delimits_of_written (fun _ => exists_string) (fun _ => rfl)
      (fun _ _ _ _ here there same => (framed_append_inj here there same).imp Bytes.ofText_inj id)
      admits admitsOther encoded encodedOther same
  | bytes =>
    exact delimits_of_written (fun _ => exists_bytes) (fun _ => rfl)
      (fun _ _ _ _ => framed_append_inj) admits admitsOther encoded encodedOther same
  | option item ih =>
    -- The first byte says whether there is a value behind it.
    rcases absent_or_exists_present admits with rfl | ⟨present, rfl, inside⟩
    · rcases absent_or_exists_present admitsOther with rfl | ⟨otherPresent, rfl, -⟩
      · cases encoded
        cases encodedOther
        exact ⟨rfl, List.cons.inj same |>.2⟩
      · obtain ⟨bytes, -, done⟩ := bind_eq_ok_iff.mp encodedOther
        cases encoded
        cases done
        -- One side starts with zero and the other with one.
        simp at same
    · obtain ⟨bytes, inner, done⟩ := bind_eq_ok_iff.mp encoded
      cases done
      rcases absent_or_exists_present admitsOther with rfl | ⟨otherPresent, rfl, insideOther⟩
      · cases encodedOther
        simp at same
      · obtain ⟨otherBytes, otherInner, done⟩ := bind_eq_ok_iff.mp encodedOther
        cases done
        obtain ⟨rfl, behind⟩ := ih inside insideOther inner otherInner (List.cons.inj same).2
        exact ⟨rfl, behind⟩
  | tuple items ih =>
    obtain ⟨values, rfl, inside⟩ := exists_tuple admits
    obtain ⟨others, rfl, insideOther⟩ := exists_tuple admitsOther
    obtain ⟨rfl, behind⟩ :=
      delimits_encodeAll ih inside insideOther encoded encodedOther same
    exact ⟨rfl, behind⟩
  | sequence item ih =>
    obtain ⟨values, rfl, fits, inside⟩ := exists_sequence admits
    obtain ⟨others, rfl, fitsOther, insideOther⟩ := exists_sequence admitsOther
    obtain ⟨bytes, inner, done⟩ := bind_eq_ok_iff.mp encoded
    cases done
    obtain ⟨otherBytes, otherInner, done⟩ := bind_eq_ok_iff.mp encodedOther
    cases done
    rw [List.append_assoc, List.append_assoc] at same
    -- Sequences of one length are fixed numbers of values, even where a value has no bytes.
    obtain ⟨lengths, behind⟩ := lengthWord_append_inj fits fitsOther same
    have each : ∀ shape ∈ List.replicate values.length item, Delimits shape.Admits Value.encode :=
      fun shape member => List.eq_of_mem_replicate member ▸ ih
    obtain ⟨rfl, behind⟩ := delimits_encodeAll each (admitsAll_replicate_iff.mpr ⟨rfl, inside⟩)
      (admitsAll_replicate_iff.mpr ⟨lengths.symm, insideOther⟩) inner otherInner behind
    exact ⟨rfl, behind⟩
  | sum alternatives ih =>
    obtain ⟨number, values, rfl, fits, inside⟩ := exists_variant admits
    obtain ⟨otherNumber, others, rfl, fitsOther, insideOther⟩ := exists_variant admitsOther
    obtain ⟨bytes, inner, done⟩ := bind_eq_ok_iff.mp encoded
    cases done
    obtain ⟨otherBytes, otherInner, done⟩ := bind_eq_ok_iff.mp encodedOther
    cases done
    rw [List.append_assoc, List.append_assoc] at same
    -- The number comes first, so both sides are of the alternative that it names.
    obtain ⟨rfl, behind⟩ := Bytes.bigEndian_append_inj fits fitsOther same
    obtain ⟨items, place, inside⟩ := admitsAlternative_iff.mp inside
    obtain ⟨otherItems, otherPlace, insideOther⟩ := admitsAlternative_iff.mp insideOther
    obtain rfl : items = otherItems := Option.some.inj (place.symm.trans otherPlace)
    obtain ⟨rfl, behind⟩ := delimits_encodeAll (ih items (List.mem_of_getElem? place))
      inside insideOther inner otherInner behind
    exact ⟨rfl, behind⟩

end Merkle.Wire
