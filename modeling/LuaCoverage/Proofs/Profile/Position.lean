import LuaCoverage.Profile.Decoder
import LuaCoverage.Proofs.Profile.Format

/-!
# The position of a decoder

The octets from its position on are before a decoder.  Where they start with a complete record, the
three reads find it and leave the decoder behind it.  Where they do not, one of the reads comes up
short, and all that may have changed by then is the position.
-/

namespace LuaCoverage
namespace Decoder

/-- The octets before a decoder. -/
def rest (decoder : Decoder) : List UInt8 := decoder.data.toList.drop decoder.position

/-- The decoder when a record that starts at its position has been read. -/
def behind (decoder : Decoder) (record : RawRecord) : Decoder :=
  { decoder with position := decoder.position + (12 + record.tag.length) }

@[simp]
theorem rest_exhausted (decoder : Decoder) : decoder.exhausted.rest = [] :=
  List.drop_eq_nil_of_le (Nat.le_of_eq Array.length_toList)

@[simp]
theorem rest_finish (start : Nat) (decoder : Decoder) :
    (decoder.finish start).decoder.rest = [] := decoder.rest_exhausted

theorem length_rest (decoder : Decoder) : decoder.rest.length = decoder.remaining := by
  rw [rest, List.length_drop, Array.length_toList, remaining]

theorem rest_eq_nil_iff {decoder : Decoder} :
    decoder.rest = [] ↔ decoder.data.size ≤ decoder.position := by
  rw [← List.length_eq_zero_iff, length_rest, remaining, Nat.sub_eq_zero_iff_le]

/-- Moving on by some octets leaves those behind them. -/
theorem rest_of_append {decoder : Decoder} {front others : List UInt8}
    (starts : decoder.rest = front ++ others) :
    { decoder with position := decoder.position + front.length }.rest = others := by
  rw [rest, ← List.drop_drop]
  exact (congrArg (List.drop front.length) starts).trans List.drop_left

theorem rest_behind {decoder : Decoder} {record : RawRecord} {others : List UInt8}
    (starts : decoder.rest = record.encode ++ others) : (decoder.behind record).rest = others := by
  rw [behind, ← record.length_encode]
  exact rest_of_append starts

/-! ## One read -/

section Take

variable {decoder behind : Decoder} {size : Nat} {front others : List UInt8}

theorem take?_of_take (taken : (take size).run.run decoder = (some front, behind)) :
    RawRecord.take? size decoder.rest = some (front, behind.rest) := by
  obtain ⟨fits, rfl, rfl⟩ := of_take_run taken
  have front_eq : (decoder.data.extract decoder.position (decoder.position + size)).toList =
      decoder.rest.take size := by
    rw [Array.toList_extract, List.extract_eq_take_drop, Nat.add_sub_cancel_left, rest]
  have full : (decoder.rest.take size).length = size := by
    rw [List.length_take, length_rest, remaining]
    omega
  have starts : decoder.rest = decoder.rest.take size ++ decoder.rest.drop size :=
    (List.take_append_drop size decoder.rest).symm
  rw [front_eq, RawRecord.take?_eq_some_iff]
  refine ⟨full, starts.trans (congrArg _ ?_)⟩
  exact List.drop_drop

/-- Within the octets a read gives what is there. -/
theorem take_of_take? (inside : decoder.position ≤ decoder.data.size)
    (taken : RawRecord.take? size decoder.rest = some (front, others)) :
    (take size).run.run decoder =
        (some front, { decoder with position := decoder.position + size }) ∧
      { decoder with position := decoder.position + size }.rest = others ∧
      decoder.position + size ≤ decoder.data.size := by
  obtain ⟨full, starts⟩ := RawRecord.take?_eq_some_iff.mp taken
  have length := congrArg List.length starts
  rw [length_rest, remaining, List.length_append, full] at length
  have fits : decoder.position + size ≤ decoder.data.size := by omega
  have run := take_run size decoder
  rw [if_pos fits] at run
  have same := take?_of_take run
  rw [taken] at same
  cases same
  exact ⟨run, rfl, fits⟩

end Take

/-! ## All reads of a record -/

/-- Whether a reader succeeds or not, nothing but the position changes. -/
def Moves {Part : Type} (reader : Reader Part) : Prop :=
  ∀ decoder : Decoder, ∃ position, (reader.run.run decoder).2 = { decoder with position }

theorem pure_moves {Part : Type} (part : Part) : Moves (pure part) :=
  fun decoder => ⟨decoder.position, rfl⟩

theorem take_moves (size : Nat) : Moves (take size) := by
  intro decoder
  rw [take_run]
  split
  · exact ⟨_, rfl⟩
  · exact ⟨decoder.position, rfl⟩

theorem Moves.bind {Part Whole : Type} {first : Reader Part} {later : Part → Reader Whole}
    (moves : Moves first) (movesLater : ∀ part, Moves (later part)) : Moves (first >>= later) := by
  intro decoder
  obtain ⟨position, moved⟩ := moves decoder
  rw [bind_run]
  split
  · next short taken =>
      rw [taken] at moved
      exact ⟨position, moved⟩
  · next part between taken =>
      rw [taken] at moved
      obtain rfl : between = { decoder with position } := moved
      obtain ⟨further, movedLater⟩ := movesLater part { decoder with position }
      exact ⟨further, movedLater⟩

theorem readRecord_moves : Moves readRecord :=
  (take_moves _).bind fun _ => (take_moves _).bind fun _ => (take_moves _).bind fun _ =>
    pure_moves _

section Record

variable {decoder after : Decoder} {record : RawRecord} {others : List UInt8}

/-- A record that the reads find is at the start of the octets before the decoder. -/
theorem read?_of_readRecord (found : readRecord.run.run decoder = (some record, after)) :
    RawRecord.read? decoder.rest = some (record, after.rest) := by
  obtain ⟨size, afterSize, sizeTaken, found⟩ := exists_of_bind_run found
  obtain ⟨tag, afterTag, tagTaken, found⟩ := exists_of_bind_run found
  obtain ⟨count, afterCount, countTaken, found⟩ := exists_of_bind_run found
  cases found
  simp only [RawRecord.read?, bind, pure, take?_of_take sizeTaken, take?_of_take tagTaken,
    take?_of_take countTaken, Option.bind_some]

/-- A record at the start of the octets before the decoder is found by the reads. -/
theorem readRecord_of_read? (found : RawRecord.read? decoder.rest = some (record, others)) :
    readRecord.run.run decoder = (some record, decoder.behind record) := by
  have inside : decoder.position ≤ decoder.data.size := by
    refine Nat.le_of_lt (Nat.lt_of_not_le fun outside => ?_)
    rw [rest_eq_nil_iff.mpr outside] at found
    cases found
  simp only [RawRecord.read?, bind, Option.bind_eq_some_iff, pure] at found
  obtain ⟨⟨size, afterSize⟩, sizeTaken, ⟨tag, afterTag⟩, tagTaken, ⟨count, last⟩, countTaken,
    same⟩ := found
  cases same
  have tag_length := (RawRecord.take?_eq_some_iff.mp tagTaken).1
  obtain ⟨sizeRun, rfl, inside⟩ := take_of_take? inside sizeTaken
  obtain ⟨tagRun, rfl, inside⟩ := take_of_take? inside tagTaken
  obtain ⟨countRun, rfl, inside⟩ := take_of_take? inside countTaken
  rw [readRecord, bind_run, sizeRun]
  dsimp only
  rw [bind_run, tagRun]
  dsimp only
  rw [bind_run, countRun, behind, tag_length]
  simp only [RawRecord.lengthSize, RawRecord.countSize]
  have moved : decoder.position + 4 + LittleEndian.decode size + 8 =
      decoder.position + (12 + LittleEndian.decode size) := by omega
  rw [moved]
  rfl

/-- Where no complete record is at the start, the reads come up short. -/
theorem readRecord_of_incomplete (incomplete : RawRecord.read? decoder.rest = none) :
    ∃ position, readRecord.run.run decoder = (none, { decoder with position }) := by
  obtain ⟨position, moved⟩ := readRecord_moves decoder
  cases eq : readRecord.run.run decoder with
  | mk part short =>
      rw [eq] at moved
      cases part with
      | none => exact ⟨position, Prod.ext rfl moved⟩
      | some record =>
          rw [read?_of_readRecord eq] at incomplete
          cases incomplete

end Record

end Decoder
end LuaCoverage
