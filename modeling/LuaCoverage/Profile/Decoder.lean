import LuaCoverage.Event
import LuaCoverage.Profile.Record
import LuaCoverage.Profile.Tag
import LuaCoverage.Text.Utf8

/-!
# Decoding a profile

A decoder hands out the records of a profile one after another.  It moves a position through the
octets: a record is read in three parts, each of which can come up short.  The decoder passes over
tags that name no source line, is exhausted by a bad line number, and ends without error at an
incomplete record.
-/

namespace LuaCoverage

/-- What a decoder has seen beyond the records it handed out. -/
structure Statistics where
  /-- Records handed out. -/
  records : Nat := 0
  /-- Tags passed over. -/
  skipped : Nat := 0
  /-- Octets left after the last complete record, once the end is reached. -/
  trailing : Nat := 0
  deriving DecidableEq

/-- A profile in the course of decoding. -/
structure Decoder where
  /-- All octets of the profile. -/
  data : Array UInt8
  /-- How many octets are behind the decoder. -/
  position : Nat := 0
  /-- Figures so far. -/
  statistics : Statistics := {}
  deriving DecidableEq

namespace Decoder

/-- A decoder at the start of a profile. -/
def new (octets : List UInt8) : Decoder where
  data := octets.toArray

/-- How many octets are before the decoder. -/
def remaining (decoder : Decoder) : Nat := decoder.data.size - decoder.position

/-! ## Reading one record -/

/-- A part of a record, read by moving a decoder on, unless it comes up short. -/
abbrev Reader (Part : Type) := OptionT (StateM Decoder) Part

/-- The next octets.  An end that no machine word could hold is behind the last octet, like every
other end that is too far away. -/
def take (size : Nat) : Reader (List UInt8) := do
  let decoder ← get
  let stop := decoder.position + size
  if stop ≤ decoder.data.size then
    set { decoder with position := stop }
    return (decoder.data.extract decoder.position stop).toList
  else failure

/-- The next record.  One that comes up short leaves the decoder behind the parts that did not. -/
def readRecord : Reader RawRecord := do
  let size ← take RawRecord.lengthSize
  let tag ← take (LittleEndian.decode size)
  let count ← take RawRecord.countSize
  return { tag, count := .ofNat (LittleEndian.decode count) }

theorem bind_run {Part Whole : Type} (first : Reader Part) (later : Part → Reader Whole)
    (decoder : Decoder) :
    (first >>= later).run.run decoder =
      match first.run.run decoder with
      | (none, short) => (none, short)
      | (some part, behind) => (later part).run.run behind := by
  simp only [OptionT.run_bind, Option.elimM, StateT.run_bind]
  rcases StateT.run (OptionT.run first) decoder with ⟨_ | part, behind⟩ <;> rfl

theorem take_run (size : Nat) (decoder : Decoder) :
    (take size).run.run decoder =
      if decoder.position + size ≤ decoder.data.size then
        (some (decoder.data.extract decoder.position (decoder.position + size)).toList,
          { decoder with position := decoder.position + size })
      else (none, decoder) := by
  rw [take, bind_run]
  change (if decoder.position + size ≤ decoder.data.size then
    (_ : Reader (List UInt8)) else _).run.run decoder = _
  split <;> rfl

section Complete

variable {decoder behind : Decoder}

theorem exists_of_bind_run {Part Whole : Type} {first : Reader Part} {later : Part → Reader Whole}
    {whole : Whole} (found : (first >>= later).run.run decoder = (some whole, behind)) :
    ∃ part between, first.run.run decoder = (some part, between) ∧
      (later part).run.run between = (some whole, behind) := by
  rw [bind_run] at found
  split at found
  · cases found
  · next part between taken => exact ⟨part, between, taken, found⟩

theorem of_take_run {size : Nat} {octets : List UInt8}
    (taken : (take size).run.run decoder = (some octets, behind)) :
    decoder.position + size ≤ decoder.data.size ∧
      octets = (decoder.data.extract decoder.position (decoder.position + size)).toList ∧
      behind = { decoder with position := decoder.position + size } := by
  rw [take_run] at taken
  split at taken
  · next fits =>
      cases taken
      exact ⟨fits, rfl, rfl⟩
  · cases taken

/-- Reading a record uses up at least its two numbers. -/
theorem remaining_lt_of_readRecord {record : RawRecord}
    (found : readRecord.run.run decoder = (some record, behind)) :
    behind.remaining < decoder.remaining := by
  obtain ⟨size, afterSize, sizeTaken, found⟩ := exists_of_bind_run found
  obtain ⟨tag, afterTag, tagTaken, found⟩ := exists_of_bind_run found
  obtain ⟨count, afterCount, countTaken, found⟩ := exists_of_bind_run found
  obtain ⟨-, -, rfl⟩ := of_take_run sizeTaken
  obtain ⟨-, -, rfl⟩ := of_take_run tagTaken
  obtain ⟨inside, -, rfl⟩ := of_take_run countTaken
  cases found
  simp only [remaining, RawRecord.lengthSize, RawRecord.countSize] at inside ⊢
  omega

end Complete

/-! ## Steps -/

/-- What a decoder hands out. -/
inductive Item
  /-- A record. -/
  | record (record : Record)
  /-- A tag, without leading at signs, whose line segment is no line number. -/
  | badLine (tag : String)
  /-- Nothing more. -/
  | finished
  deriving DecidableEq

/-- One step of decoding. -/
structure Step where
  /-- What is handed out. -/
  item : Item
  /-- What happened on the way. -/
  events : List Event
  /-- The decoder afterwards. -/
  decoder : Decoder
  deriving DecidableEq

/-- Leave everything behind. -/
def exhausted (decoder : Decoder) : Decoder :=
  { decoder with position := decoder.data.size }

/-- Count a record that is handed out. -/
def yielded (decoder : Decoder) : Decoder :=
  { decoder with
    statistics := { decoder.statistics with records := decoder.statistics.records + 1 } }

/-- Count a tag that is passed over. -/
def passed (decoder : Decoder) : Decoder :=
  { decoder with
    statistics := { decoder.statistics with skipped := decoder.statistics.skipped + 1 } }

/-- The end of a profile, found where a record that starts at some position came up short.  Whatever
is left from there on is dropped. -/
def finish (start : Nat) (decoder : Decoder) : Step :=
  let left := decoder.data.size - start
  { item := .finished
    events := if 0 < left then [.truncated left] else []
    decoder :=
      { decoder.exhausted with statistics := { decoder.statistics with trailing := left } } }

/-- Hand out the next record. -/
def next (decoder : Decoder) : Step :=
  match _found : readRecord.run.run decoder with
  | (none, short) => short.finish decoder.position
  | (some raw, behind) =>
      let tag := Utf8.decode raw.tag
      match Tag.read tag with
      | .located source line =>
          { item := .record { source, line, count := raw.count }
            events := []
            decoder := behind.yielded }
      | .passed =>
          let step := behind.passed.next
          { step with events := .tagPassed tag :: step.events }
      | .badLine body => { item := .badLine body, events := [], decoder := behind.exhausted }
termination_by decoder.remaining
decreasing_by
  have shorter := remaining_lt_of_readRecord _found
  exact shorter

/-- A step that hands out a record has read at least one. -/
theorem remaining_lt_of_next {before after : Decoder} {record : Record} {events : List Event}
    (handed : before.next = { item := .record record, events, decoder := after }) :
    after.remaining < before.remaining := by
  induction size : before.remaining using Nat.strongRecOn generalizing before events with
  | ind size ih =>
      subst size
      rw [next] at handed
      split at handed
      · cases handed
      · next raw behind found =>
          have shorter := remaining_lt_of_readRecord found
          dsimp only at handed
          split at handed
          · cases handed
            exact shorter
          · injection handed with same _ done
            have bound := @ih _ shorter behind.passed behind.passed.next.events
              (by rw [← same, ← done]) rfl
            exact Nat.lt_trans bound shorter
          · cases handed

end Decoder

namespace Profile

/-- The records of a decoder in order, or the first tag with a bad line number. -/
def drain (decoder : Decoder) : Except String (List Record) :=
  match _handed : decoder.next with
  | { item := .finished, .. } => .ok []
  | { item := .badLine tag, .. } => .error tag
  | { item := .record record, decoder := later, .. } => (record :: ·) <$> drain later
termination_by decoder.remaining
decreasing_by exact Decoder.remaining_lt_of_next _handed

/-- Decode a whole profile. -/
def decode (octets : List UInt8) : Except String (List Record) :=
  drain (.new octets)

end Profile
end LuaCoverage
