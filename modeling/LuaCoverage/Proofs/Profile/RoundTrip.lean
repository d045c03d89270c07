import LuaCoverage.Proofs.Profile.Decoding
import LuaCoverage.Proofs.Text.Utf8

/-!
# Decoding undoes encoding

Tags written with their counts are read back in order, whatever incomplete tail follows, up to the
first tag with a bad line number.
-/

namespace LuaCoverage
namespace Profile

/-- A tag as text with its number of hits. -/
structure Entry where
  /-- The tag. -/
  tag : String
  /-- Number of hits. -/
  count : UInt64

namespace Entry

/-- The tag takes no more octets than its length can say. -/
def Storable (entry : Entry) : Prop := (Utf8.encode entry.tag).length < 4294967296

instance (entry : Entry) : Decidable entry.Storable := inferInstanceAs (Decidable (_ < _))

/-- The record that stores an entry. -/
def raw (entry : Entry) : RawRecord where
  tag := Utf8.encode entry.tag
  count := entry.count

/-- What the tag says. -/
def reading (entry : Entry) : Tag.Reading := Tag.read entry.tag

/-- The source line that an entry names with its hits, if it names one. -/
def located? (entry : Entry) : Option Record := entry.reading.record? entry.count

theorem raw_reading (entry : Entry) : entry.raw.reading = entry.reading := by
  rw [RawRecord.reading, RawRecord.text, raw, Utf8.decode_encode, reading]

theorem raw_located? (entry : Entry) : entry.raw.located? = entry.located? := by
  rw [RawRecord.located?, raw_reading, located?, raw]

theorem raw_badLine? (entry : Entry) : entry.raw.badLine? = entry.reading.badLine? := by
  rw [RawRecord.badLine?, raw_reading]

theorem raw_attributed_iff (entry : Entry) :
    entry.raw.Attributed ↔ entry.reading ≠ .passed := by
  rw [← raw_reading, ne_eq, RawRecord.reading_eq_passed_iff, not_not]

end Entry

/-- The profile that stores some entries. -/
def encode (entries : List Entry) : List UInt8 := encodeAll (entries.map Entry.raw)

section Entries

variable {entries : List Entry}

theorem splits_encode (storable : ∀ entry ∈ entries, entry.Storable) {tail : List UInt8}
    (incomplete : Incomplete tail) :
    Splits (encode entries ++ tail) (entries.map Entry.raw) tail where
  parts := rfl
  storable := by
    intro record member
    obtain ⟨entry, entry_mem, rfl⟩ := List.mem_map.mp member
    exact storable entry entry_mem
  incomplete := incomplete

theorem failure?_raw (readable : ∀ entry ∈ entries, entry.reading.badLine? = none) :
    failure? (entries.map Entry.raw) = none := by
  apply List.findSome?_eq_none_iff.mpr
  intro record member
  obtain ⟨entry, entry_mem, rfl⟩ := List.mem_map.mp member
  rw [Entry.raw_badLine?]
  exact readable entry entry_mem

theorem filterMap_located?_raw :
    (entries.map Entry.raw).filterMap (·.located?) = entries.filterMap Entry.located? := by
  have same : (fun record : RawRecord => record.located?) ∘ Entry.raw = Entry.located? := by
    funext entry
    rw [Function.comp_apply, entry.raw_located?]
  rw [List.filterMap_map, same]

theorem countP_attributed_raw :
    (entries.map Entry.raw).countP (¬ ·.Attributed) =
      entries.countP fun entry => entry.reading = .passed := by
  rw [List.countP_map]
  apply List.countP_congr
  intro entry _
  simp [Entry.raw_attributed_iff]

/-- The script of entries of which the first bad line number is known. -/
theorem script_raw_append_badLine {front behind : List Entry} {entry : Entry} {body : String}
    (readable : ∀ earlier ∈ front, earlier.reading.badLine? = none)
    (bad : entry.reading = .badLine body) :
    script ((front ++ entry :: behind).map Entry.raw) =
      (front.filterMap Entry.located?).map .record ++ [.badLine body] := by
  rw [List.map_append, List.map_cons, script_append (failure?_raw readable),
    filterMap_located?_raw, script_badLine (entry.raw_reading.trans bad)]

theorem failure?_raw_append_badLine {front behind : List Entry} {entry : Entry} {body : String}
    (readable : ∀ earlier ∈ front, earlier.reading.badLine? = none)
    (bad : entry.reading = .badLine body) :
    failure? ((front ++ entry :: behind).map Entry.raw) = some body := by
  rw [List.map_append, List.map_cons, failure?_append (failure?_raw readable),
    failure?_badLine (entry.raw_reading.trans bad)]

end Entries

open Decoder in
/-- Entries that are stored are read back in order whatever incomplete tail follows, and the figures
account for the tags that are passed over and for the tail.  The first bad line number ends the
reading right after the entries before it.  Tails that are too short for the numbers of a record or
are cut off inside a record are incomplete. -/
theorem decode_encode_append (entries : List Entry)
    (storable : ∀ entry ∈ entries, entry.Storable) :
    (∀ tail : List UInt8, tail.length < 12 → Incomplete tail) ∧
    (∀ (entry : Entry) (tail : List UInt8), entry.Storable →
      tail <+: entry.raw.encode → tail ≠ entry.raw.encode → Incomplete tail) ∧
    ∀ tail : List UInt8, Incomplete tail →
      ((∀ entry ∈ entries, entry.reading.badLine? = none) →
        decode (encode entries ++ tail) = .ok (entries.filterMap Entry.located?) ∧
        (after ((entries.filterMap Entry.located?).length + 1)
            (.new (encode entries ++ tail))).statistics =
          { records := (entries.filterMap Entry.located?).length
            skipped := entries.countP fun entry => entry.reading = .passed
            trailing := tail.length }) ∧
      ∀ (front behind : List Entry) (entry : Entry) (body : String),
        entries = front ++ entry :: behind →
        (∀ earlier ∈ front, earlier.reading.badLine? = none) →
        entry.reading = .badLine body →
        decode (encode entries ++ tail) = .error body ∧
        ∀ call, (after call (.new (encode entries ++ tail))).next.item =
          ((front.filterMap Entry.located?).map .record ++ [.badLine body])[call]?.getD
            .finished := by
  refine ⟨fun tail => incomplete_of_length_lt, ?_, ?_⟩
  · intro entry tail entry_storable cut proper
    have record_storable : entry.raw.Storable := entry_storable
    exact incomplete_of_isPrefix record_storable cut proper
  intro tail incomplete
  have splits : Splits (new (encode entries ++ tail)).rest (entries.map Entry.raw) tail :=
    splits_encode storable incomplete
  constructor
  · intro readable
    have raw_readable := failure?_raw readable
    have all := (handedOut_of_readable raw_readable).trans filterMap_located?_raw
    constructor
    · rw [decode, drain_of_splits splits, raw_readable, all]
    · have last := after_end splits raw_readable
      rw [all, countP_attributed_raw] at last
      rw [last]
      simp [new]
  · rintro front behind entry body rfl readable bad
    constructor
    · rw [decode, drain_of_splits splits, failure?_raw_append_badLine readable bad]
    · intro call
      rw [item_after splits, script_raw_append_badLine readable bad]

/-- A greatest count, an accented source and an empty tag before a tail of three octets; then the
same with a tag whose line number is no number. -/
theorem decode_encode_append_accented :
    decode (encode [⟨"@é:3", 18446744073709551615⟩, ⟨"", 0⟩] ++ [7, 0, 0]) =
        .ok [{ source := "é", line := 3, count := 18446744073709551615 }] ∧
      decode (encode [⟨"@é:3", 1⟩, ⟨"", 0⟩, ⟨"@b:x", 2⟩, ⟨"c:1", 4⟩] ++ [7, 0, 0]) =
        .error "b:x" := by
  have short : Incomplete [7, 0, 0] := incomplete_of_length_lt (by decide)
  constructor
  · have whole := ((decode_encode_append [⟨"@é:3", 18446744073709551615⟩, ⟨"", 0⟩]
      (by decide +kernel)).2.2 [7, 0, 0] short).1 (by decide +kernel)
    rw [whole.1]
    decide +kernel
  · exact (((decode_encode_append [⟨"@é:3", 1⟩, ⟨"", 0⟩, ⟨"@b:x", 2⟩, ⟨"c:1", 4⟩]
      (by decide +kernel)).2.2 [7, 0, 0] short).2 [⟨"@é:3", 1⟩, ⟨"", 0⟩] [⟨"c:1", 4⟩]
        ⟨"@b:x", 2⟩ "b:x" rfl (by decide +kernel) (by decide +kernel)).1

end Profile
end LuaCoverage
