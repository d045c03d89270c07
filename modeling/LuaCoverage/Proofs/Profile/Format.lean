import LuaCoverage.Profile.Record
import Mathlib.Tactic.Ring

/-!
# The format of a profile

Octets fall in one way only into complete records and a tail that does not start with a complete
record.  Reading a record from the front of some octets finds exactly this division: it undoes
writing at every boundary between records, and it reads nothing else.
-/

namespace LuaCoverage

namespace LittleEndian

@[simp]
theorem length_encode (size number : Nat) : (encode size number).length = size := by
  induction size generalizing number with
  | zero => rfl
  | succ size ih => simp [encode, ih]

theorem decode_encode (size number : Nat) :
    decode (encode size number) = number % 256 ^ size := by
  induction size generalizing number with
  | zero => simp [encode, decode, Nat.mod_one]
  | succ size ih =>
      have octet : (UInt8.ofNat number).toNat = number % 256 := by simp
      rw [encode, decode, ih, octet, pow_succ', Nat.mod_mul]

theorem decode_encode_of_lt {size number : Nat} (fits : number < 256 ^ size) :
    decode (encode size number) = number := by
  rw [decode_encode, Nat.mod_eq_of_lt fits]

theorem decode_lt (octets : List UInt8) : decode octets < 256 ^ octets.length := by
  induction octets with
  | nil => simp [decode]
  | cons octet octets ih =>
      have bound : octet.toNat < 256 := octet.toNat_lt
      rw [decode, List.length_cons, pow_succ]
      omega

theorem encode_decode (octets : List UInt8) : encode octets.length (decode octets) = octets := by
  induction octets with
  | nil => rfl
  | cons octet octets ih =>
      have bound : octet.toNat < 256 := octet.toNat_lt
      have lowest : UInt8.ofNat (octet.toNat + 256 * decode octets) = octet := by
        apply UInt8.toNat_inj.mp
        simp
      have higher : (octet.toNat + 256 * decode octets) / 256 = decode octets := by omega
      rw [List.length_cons, decode, encode, lowest, higher, ih]

end LittleEndian

namespace RawRecord

/-- Exactly the first `size` octets and the rest, if there are so many. -/
def take? (size : Nat) (octets : List UInt8) : Option (List UInt8 × List UInt8) :=
  let (front, rest) := octets.splitAt size
  if front.length = size then some (front, rest) else none

/-- The record at the start of some octets and the octets after it, if the record is complete. -/
def read? (octets : List UInt8) : Option (RawRecord × List UInt8) := do
  let (size, afterSize) ← take? lengthSize octets
  let (tag, afterTag) ← take? (LittleEndian.decode size) afterSize
  let (count, rest) ← take? countSize afterTag
  return ({ tag, count := UInt64.ofNat (LittleEndian.decode count) }, rest)

/-- The length of the tag fits in the octets that are there for it. -/
def Storable (record : RawRecord) : Prop := record.tag.length < 4294967296

instance (record : RawRecord) : Decidable record.Storable := inferInstanceAs (Decidable (_ < _))

theorem length_encode (record : RawRecord) : record.encode.length = 12 + record.tag.length := by
  simp only [encode, List.length_append, LittleEndian.length_encode, lengthSize, countSize]
  omega

theorem take?_eq_some_iff {size : Nat} {octets front rest : List UInt8} :
    take? size octets = some (front, rest) ↔ front.length = size ∧ octets = front ++ rest := by
  constructor
  · intro taken
    simp only [take?, List.splitAt_eq] at taken
    split at taken
    · next full =>
        cases taken
        exact ⟨full, (List.take_append_drop size octets).symm⟩
    · cases taken
  · rintro ⟨rfl, rfl⟩
    simp [take?]

theorem take?_append {size : Nat} {front : List UInt8} (full : front.length = size)
    (rest : List UInt8) : take? size (front ++ rest) = some (front, rest) :=
  take?_eq_some_iff.mpr ⟨full, rfl⟩

theorem read?_encode_append {record : RawRecord} (storable : record.Storable)
    (rest : List UInt8) : read? (record.encode ++ rest) = some (record, rest) := by
  have size_fits : record.tag.length < 256 ^ lengthSize := storable
  have count_fits : record.count.toNat < 256 ^ countSize := record.count.toNat_lt
  have size_length := LittleEndian.length_encode lengthSize record.tag.length
  have count_length := LittleEndian.length_encode countSize record.count.toNat
  have tag_length := (LittleEndian.decode_encode_of_lt size_fits).symm
  simp only [encode, read?, List.append_assoc, bind, pure, take?_append size_length,
    take?_append tag_length, take?_append count_length, Option.bind_some,
    LittleEndian.decode_encode_of_lt count_fits, UInt64.ofNat_toNat]

theorem eq_encode_append_of_read? {octets rest : List UInt8} {record : RawRecord}
    (found : read? octets = some (record, rest)) :
    record.Storable ∧ octets = record.encode ++ rest := by
  simp only [read?, bind, Option.bind_eq_some_iff, pure] at found
  obtain ⟨⟨size, afterSize⟩, sizeTaken, ⟨tag, afterTag⟩, tagTaken, ⟨count, last⟩, countTaken,
    same⟩ := found
  obtain ⟨size_length, rfl⟩ := take?_eq_some_iff.mp sizeTaken
  obtain ⟨tag_length, tag_eq⟩ := take?_eq_some_iff.mp tagTaken
  obtain ⟨count_length, count_eq⟩ := take?_eq_some_iff.mp countTaken
  cases same
  dsimp only at size_length tag_length tag_eq count_length count_eq ⊢
  have size_lt := LittleEndian.decode_lt size
  have count_lt := LittleEndian.decode_lt count
  rw [size_length, lengthSize] at size_lt
  rw [count_length, countSize] at count_lt
  have count_kept :
      (UInt64.ofNat (LittleEndian.decode count)).toNat = LittleEndian.decode count :=
    UInt64.toNat_ofNat_of_lt' count_lt
  constructor
  · rw [Storable, tag_length]
    exact size_lt
  · rw [encode, count_kept, tag_length, ← size_length, LittleEndian.encode_decode,
      ← count_length, LittleEndian.encode_decode, tag_eq, count_eq]
    simp only [List.append_assoc]

/-- Reading accepts exactly what writing produces, whatever follows. -/
theorem read?_eq_some_iff {octets rest : List UInt8} {record : RawRecord} :
    read? octets = some (record, rest) ↔ record.Storable ∧ octets = record.encode ++ rest := by
  constructor
  · exact eq_encode_append_of_read?
  · rintro ⟨storable, rfl⟩
    exact read?_encode_append storable rest

theorem length_lt_of_read? {octets rest : List UInt8} {record : RawRecord}
    (found : read? octets = some (record, rest)) : rest.length < octets.length := by
  obtain ⟨-, rfl⟩ := read?_eq_some_iff.mp found
  rw [List.length_append, length_encode]
  omega

end RawRecord

namespace Profile

/-- The stored form of some records, one after another. -/
def encodeAll (records : List RawRecord) : List UInt8 := records.flatMap RawRecord.encode

@[simp]
theorem encodeAll_nil : encodeAll [] = [] := rfl

@[simp]
theorem encodeAll_cons (record : RawRecord) (records : List RawRecord) :
    encodeAll (record :: records) = record.encode ++ encodeAll records := rfl

@[simp]
theorem encodeAll_append (records more : List RawRecord) :
    encodeAll (records ++ more) = encodeAll records ++ encodeAll more := List.flatMap_append

theorem length_encodeAll (records : List RawRecord) :
    (encodeAll records).length = (records.map fun record => 12 + record.tag.length).sum := by
  induction records with
  | nil => rfl
  | cons record records ih => simp [RawRecord.length_encode, ih]

/-- Octets that do not start with a complete record. -/
def Incomplete (octets : List UInt8) : Prop :=
  ∀ (record : RawRecord) (rest : List UInt8),
    record.Storable → octets ≠ record.encode ++ rest

theorem read?_eq_none_iff {octets : List UInt8} :
    RawRecord.read? octets = none ↔ Incomplete octets := by
  constructor
  · rintro none_found record rest storable rfl
    rw [RawRecord.read?_encode_append storable] at none_found
    cases none_found
  · intro incomplete
    by_contra found
    obtain ⟨⟨record, rest⟩, found⟩ := Option.ne_none_iff_exists'.mp found
    obtain ⟨storable, octets_eq⟩ := RawRecord.read?_eq_some_iff.mp found
    exact incomplete record rest storable octets_eq

theorem incomplete_of_length_lt {octets : List UInt8} (short : octets.length < 12) :
    Incomplete octets := by
  rintro record rest - rfl
  rw [List.length_append, RawRecord.length_encode] at short
  omega

theorem incomplete_nil : Incomplete [] := incomplete_of_length_lt (by decide)

/-- What is cut off inside a record does not start with a complete one. -/
theorem incomplete_of_isPrefix {record : RawRecord} (storable : record.Storable)
    {octets : List UInt8} (cut : octets <+: record.encode) (proper : octets ≠ record.encode) :
    Incomplete octets := by
  rintro other rest other_storable rfl
  obtain ⟨lost, whole⟩ := cut
  have read_whole := RawRecord.read?_encode_append storable []
  rw [List.append_nil, ← whole, List.append_assoc, RawRecord.read?_encode_append other_storable]
    at read_whole
  obtain ⟨rfl, nothing⟩ := Prod.mk.inj (Option.some.inj read_whole)
  obtain ⟨rfl, rfl⟩ := List.append_eq_nil_iff.mp nothing
  exact proper (by rw [List.append_nil])

/-- A division of octets into complete records and a tail that does not start with one. -/
structure Splits (octets : List UInt8) (records : List RawRecord) (tail : List UInt8) : Prop where
  /-- The parts make up the whole. -/
  parts : octets = encodeAll records ++ tail
  /-- Every record has a length that can be stored. -/
  storable : ∀ record ∈ records, record.Storable
  /-- No complete record is left in the tail. -/
  incomplete : Incomplete tail

namespace Splits

theorem cons {record : RawRecord} {rest tail : List UInt8} {records : List RawRecord}
    (storable : record.Storable) (splits : Splits rest records tail) :
    Splits (record.encode ++ rest) (record :: records) tail where
  parts := by rw [splits.parts, encodeAll_cons, List.append_assoc]
  storable := List.forall_mem_cons.mpr ⟨storable, splits.storable⟩
  incomplete := splits.incomplete

theorem tail_splits {record : RawRecord} {octets tail : List UInt8} {records : List RawRecord}
    (splits : Splits octets (record :: records) tail) :
    Splits (encodeAll records ++ tail) records tail where
  parts := rfl
  storable := (List.forall_mem_cons.mp splits.storable).2
  incomplete := splits.incomplete

theorem append {front behind tail : List UInt8} {records more : List RawRecord}
    (complete : Splits front records []) (splits : Splits behind more tail) :
    Splits (front ++ behind) (records ++ more) tail where
  parts := by
    rw [complete.parts, splits.parts, encodeAll_append, List.append_nil, List.append_assoc]
  storable record member := by
    rcases List.mem_append.mp member with first | second
    · exact complete.storable record first
    · exact splits.storable record second
  incomplete := splits.incomplete

/-- The first record of a division is the one that is read. -/
theorem read?_cons {record : RawRecord} {octets tail : List UInt8} {records : List RawRecord}
    (splits : Splits octets (record :: records) tail) :
    RawRecord.read? octets = some (record, encodeAll records ++ tail) := by
  rw [splits.parts, encodeAll_cons, List.append_assoc]
  exact RawRecord.read?_encode_append (List.forall_mem_cons.mp splits.storable).1 _

theorem read?_nil {octets tail : List UInt8} (splits : Splits octets [] tail) :
    RawRecord.read? octets = none := by
  rw [splits.parts, encodeAll_nil, List.nil_append]
  exact read?_eq_none_iff.mpr splits.incomplete

theorem unique {octets tail otherTail : List UInt8} {records others : List RawRecord}
    (splits : Splits octets records tail) (otherSplits : Splits octets others otherTail) :
    records = others ∧ tail = otherTail := by
  induction records generalizing octets others with
  | nil =>
      cases others with
      | nil =>
          have same := splits.parts.symm.trans otherSplits.parts
          exact ⟨rfl, by simpa using same⟩
      | cons other others =>
          have found := splits.read?_nil.symm.trans otherSplits.read?_cons
          cases found
  | cons record records ih =>
      cases others with
      | nil =>
          have found := splits.read?_cons.symm.trans otherSplits.read?_nil
          cases found
      | cons other others =>
          have found := splits.read?_cons.symm.trans otherSplits.read?_cons
          obtain ⟨rfl, rest_eq⟩ := Prod.mk.inj (Option.some.inj found)
          obtain ⟨rfl, rfl⟩ := ih splits.tail_splits (rest_eq ▸ otherSplits.tail_splits)
          exact ⟨rfl, rfl⟩

/-- Cutting octets short keeps the first records and makes up no other. -/
theorem isPrefix_of_isPrefix {cut octets cutTail tail : List UInt8}
    {kept records : List RawRecord} (cutSplits : Splits cut kept cutTail)
    (splits : Splits octets records tail) (start : cut <+: octets) : kept <+: records := by
  induction kept generalizing cut octets records with
  | nil => exact List.nil_prefix
  | cons record kept ih =>
      obtain ⟨lost, rfl⟩ := start
      have storable := (List.forall_mem_cons.mp cutSplits.storable).1
      have found :
          RawRecord.read? (cut ++ lost) = some (record, encodeAll kept ++ cutTail ++ lost) := by
        rw [cutSplits.parts, encodeAll_cons]
        simp only [List.append_assoc]
        exact RawRecord.read?_encode_append storable _
      cases records with
      | nil =>
          rw [splits.read?_nil] at found
          cases found
      | cons first records =>
          rw [splits.read?_cons] at found
          obtain ⟨rfl, rest_eq⟩ := Prod.mk.inj (Option.some.inj found)
          have remaining := ih cutSplits.tail_splits splits.tail_splits ⟨lost, rest_eq.symm⟩
          exact List.cons_prefix_cons.mpr ⟨rfl, remaining⟩

end Splits

/-- The complete records at the start of some octets and the tail after them. -/
def split (octets : List UInt8) : List RawRecord × List UInt8 :=
  match _found : RawRecord.read? octets with
  | none => ([], octets)
  | some (record, rest) => (record :: (split rest).1, (split rest).2)
termination_by octets.length
decreasing_by all_goals exact RawRecord.length_lt_of_read? _found

theorem splits_split (octets : List UInt8) : Splits octets (split octets).1 (split octets).2 := by
  induction octets using split.induct with
  | case1 octets none_found =>
      rw [split, none_found]
      exact ⟨rfl, by simp, read?_eq_none_iff.mp none_found⟩
  | case2 octets record rest found ih =>
      obtain ⟨storable, octets_eq⟩ := RawRecord.read?_eq_some_iff.mp found
      rw [split, found, octets_eq]
      exact ih.cons storable

end Profile
end LuaCoverage
