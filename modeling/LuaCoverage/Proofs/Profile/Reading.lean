import LuaCoverage.Profile.Decoder
import LuaCoverage.Proofs.Profile.Format

/-!
# What complete records say

A complete record is passed over, names a source line or has a bad line number.  Of the complete
records of a profile, those that name a source line are handed out up to the first bad line number.
-/

namespace LuaCoverage

namespace Tag

/-- A tag that has exactly one colon after its leading at signs. -/
def Attributed (tag : String) : Prop := (tag.toList.dropWhile (· == '@')).count ':' = 1

instance (tag : String) : Decidable (Attributed tag) :=
  inferInstanceAs (Decidable (_ = _))

/-- What stands before the first colon of a tag without its leading at signs. -/
def source (tag : String) : String := String.ofList ((strip tag.toList).takeWhile (· != ':'))

/-- What stands after the first colon of a tag without its leading at signs. -/
def segment (tag : String) : List Char := ((strip tag.toList).dropWhile (· != ':')).drop 1

theorem read_of_not_attributed {tag : String} (other : ¬ Attributed tag) : read tag = .passed := by
  rw [read]
  exact if_pos other

theorem read_of_attributed {tag : String} (attributed : Attributed tag) :
    read tag =
      match readLine? (segment tag) with
      | some line => .located (source tag) line
      | none => .badLine (String.ofList (strip tag.toList)) := by
  rw [read]
  exact if_neg (not_not.mpr attributed)

theorem read_eq_passed_iff (tag : String) : read tag = .passed ↔ ¬ Attributed tag := by
  constructor
  · intro passed attributed
    rw [read_of_attributed attributed] at passed
    split at passed <;> cases passed
  · exact read_of_not_attributed

namespace Reading

/-- The source line that is named, with its hits. -/
def record? (count : UInt64) : Reading → Option Record
  | located source line => some { source, line, count }
  | _ => none

/-- The tag with a bad line number, without leading at signs. -/
def badLine? : Reading → Option String
  | badLine body => some body
  | _ => none

end Reading
end Tag

namespace RawRecord

/-- The tag as text. -/
def text (record : RawRecord) : String := Utf8.decode record.tag

/-- What the tag says. -/
@[irreducible]
def reading (record : RawRecord) : Tag.Reading := Tag.read record.text

theorem reading_eq (record : RawRecord) : record.reading = Tag.read record.text := by
  rw [reading]

/-- A record whose tag has exactly one colon after its leading at signs. -/
def Attributed (record : RawRecord) : Prop :=
  (record.text.toList.dropWhile (· == '@')).count ':' = 1

instance (record : RawRecord) : Decidable record.Attributed :=
  inferInstanceAs (Decidable (_ = _))

theorem reading_eq_passed_iff (record : RawRecord) :
    record.reading = .passed ↔ ¬ record.Attributed := by
  rw [reading_eq]
  exact Tag.read_eq_passed_iff record.text

theorem attributed_of_located (record : RawRecord) {source : String} {line : Nat}
    (located : record.reading = .located source line) : record.Attributed := by
  by_contra unattributed
  rw [record.reading_eq_passed_iff.mpr unattributed] at located
  cases located

/-- The source line that a record names with its hits, if it names one. -/
def located? (record : RawRecord) : Option Record := record.reading.record? record.count

/-- The tag of a record with a bad line number, without leading at signs. -/
def badLine? (record : RawRecord) : Option String := record.reading.badLine?

end RawRecord

namespace Profile

/-- Induction on records by what each of them says. -/
@[elab_as_elim]
theorem reading_induction {motive : List RawRecord → Prop} (nil : motive [])
    (passed : ∀ (record : RawRecord) (records : List RawRecord),
      record.reading = .passed → motive records → motive (record :: records))
    (located : ∀ (record : RawRecord) (records : List RawRecord) (source : String) (line : Nat),
      record.reading = .located source line → motive records → motive (record :: records))
    (badLine : ∀ (record : RawRecord) (records : List RawRecord) (body : String),
      record.reading = .badLine body → motive records → motive (record :: records))
    (records : List RawRecord) : motive records := by
  induction records with
  | nil => exact nil
  | cons record records ih =>
      cases reading : record.reading with
      | passed => exact passed record records reading ih
      | located source line => exact located record records source line reading ih
      | badLine body => exact badLine record records body reading ih

/-- The source lines named before the first bad line number. -/
def handedOut (records : List RawRecord) : List Record :=
  (records.takeWhile (·.badLine?.isNone)).filterMap (·.located?)

/-- The tag of the first record with a bad line number. -/
def failure? (records : List RawRecord) : Option String := records.findSome? (·.badLine?)

/-- What a decoder hands out before it hands out nothing more. -/
def script (records : List RawRecord) : List Decoder.Item :=
  (handedOut records).map .record ++ ((failure? records).map .badLine).toList

section Equations

variable {record : RawRecord} {records : List RawRecord}

theorem handedOut_passed (passed : record.reading = .passed) :
    handedOut (record :: records) = handedOut records := by
  simp [handedOut, RawRecord.badLine?, RawRecord.located?, passed, Tag.Reading.badLine?,
    Tag.Reading.record?]

theorem handedOut_located {source : String} {line : Nat}
    (located : record.reading = .located source line) :
    handedOut (record :: records) =
      { source, line, count := record.count } :: handedOut records := by
  simp [handedOut, RawRecord.badLine?, RawRecord.located?, located, Tag.Reading.badLine?,
    Tag.Reading.record?]

theorem handedOut_badLine {body : String} (bad : record.reading = .badLine body) :
    handedOut (record :: records) = [] := by
  simp [handedOut, RawRecord.badLine?, bad, Tag.Reading.badLine?]

theorem failure?_passed (passed : record.reading = .passed) :
    failure? (record :: records) = failure? records := by
  simp [failure?, RawRecord.badLine?, passed, Tag.Reading.badLine?]

theorem failure?_located {source : String} {line : Nat}
    (located : record.reading = .located source line) :
    failure? (record :: records) = failure? records := by
  simp [failure?, RawRecord.badLine?, located, Tag.Reading.badLine?]

theorem failure?_badLine {body : String} (bad : record.reading = .badLine body) :
    failure? (record :: records) = some body := by
  simp [failure?, RawRecord.badLine?, bad, Tag.Reading.badLine?]

theorem script_passed (passed : record.reading = .passed) :
    script (record :: records) = script records := by
  rw [script, handedOut_passed passed, failure?_passed passed, script]

theorem script_located {source : String} {line : Nat}
    (located : record.reading = .located source line) :
    script (record :: records) =
      .record { source, line, count := record.count } :: script records := by
  rw [script, handedOut_located located, failure?_located located, script]
  rfl

theorem script_badLine {body : String} (bad : record.reading = .badLine body) :
    script (record :: records) = [.badLine body] := by
  rw [script, handedOut_badLine bad, failure?_badLine bad]
  rfl

theorem countP_passed (passed : record.reading = .passed) :
    (record :: records).countP (¬ ·.Attributed) = records.countP (¬ ·.Attributed) + 1 := by
  have unattributed := record.reading_eq_passed_iff.mp passed
  rw [List.countP_cons_of_pos (by simpa using unattributed)]

theorem countP_located {source : String} {line : Nat}
    (located : record.reading = .located source line) :
    (record :: records).countP (¬ ·.Attributed) = records.countP (¬ ·.Attributed) := by
  have attributed := record.attributed_of_located located
  rw [List.countP_cons_of_neg (by simpa using attributed)]

end Equations

section Readable

variable {front : List RawRecord}

/-- Up to the first bad line number, everything that names a source line is handed out. -/
theorem handedOut_append (readable : failure? front = none) (behind : List RawRecord) :
    handedOut (front ++ behind) = front.filterMap (·.located?) ++ handedOut behind := by
  have every : ∀ record ∈ front, record.badLine?.isNone := by
    intro record member
    rw [Option.isNone_iff_eq_none]
    exact List.findSome?_eq_none_iff.mp readable record member
  rw [handedOut, List.takeWhile_append_of_pos every, List.filterMap_append, handedOut]

theorem handedOut_of_readable (readable : failure? front = none) :
    handedOut front = front.filterMap (·.located?) := by
  have alone := handedOut_append readable []
  rw [List.append_nil] at alone
  exact alone.trans (List.append_nil _)

theorem failure?_append (readable : failure? front = none) (behind : List RawRecord) :
    failure? (front ++ behind) = failure? behind := by
  rw [failure?] at readable
  rw [failure?, List.findSome?_append, readable, Option.none_or, failure?]

theorem script_append (readable : failure? front = none) (behind : List RawRecord) :
    script (front ++ behind) = (front.filterMap (·.located?)).map .record ++ script behind := by
  rw [script, handedOut_append readable, failure?_append readable, List.map_append,
    List.append_assoc, script]

end Readable

end Profile
end LuaCoverage
