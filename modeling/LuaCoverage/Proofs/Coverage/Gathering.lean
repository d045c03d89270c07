import LuaCoverage.Coverage.Basic
import LuaCoverage.Proofs.Coverage.Addition
import LuaCoverage.Proofs.Profile.Decoding

/-!
# Gathering a profile

Gathering takes one complete record after another.  On an unchanging file system the first record
that has a bad line number or a source that cannot be found ends it with its error; without such a
record every attributed record is credited to the file that its source leads to.
-/

namespace LuaCoverage

namespace FileSystem

/-- A file system with one directory and with every file in it: a path leads to the file of its
last name. -/
def singleDirectory : FileSystem where
  realpath path := .ok ⟨Path.separator :: path.pieces.getLast?.getD []⟩
  isFile _ := .ok true
  read _ := .ok []

/-- The tag is only for messages. -/
theorem findSource_ok {system : FileSystem} {root path : Path} {source tag : String}
    (found : system.findSource root source tag = .ok path) (other : String) :
    system.findSource root source other = .ok path := by
  rw [findSource] at found ⊢
  split at found
  · cases found
  · cases found
  · next path _ =>
      rcases answer : system.isFile path with cause | (_ | _)
      · rw [answer] at found
        cases found
      · rw [answer] at found
        cases found
      · rw [answer] at found
        exact found

end FileSystem

namespace RawRecord

/-- What is wrong with a record: a bad line number, or a source that cannot be found. -/
def offence? (system : FileSystem) (root : Path) (record : RawRecord) : Option Error :=
  match record.reading with
  | .passed => none
  | .badLine body => some (.badLine body)
  | .located source line =>
      match system.findSource root source (Tag.render source line) with
      | .error error => some error
      | .ok _ => none

/-- A record offends with an error: its tag is refused, or it names a line of a source that cannot
be found. -/
inductive OffendsWith (system : FileSystem) (root : Path) (record : RawRecord) : Error → Prop
  /-- The tag, without leading at signs, is refused. -/
  | badLine (refused : record.Refused) :
      OffendsWith system root record
        (.badLine (String.ofList (record.text.toList.dropWhile (· == '@'))))
  /-- The source cannot be found. -/
  | unfound {source : String} {line : Nat} {error : Error}
      (names : Tag.Names Char.toNat (record.text.toList.dropWhile (· == '@')) source.toList line)
      (failed : system.findSource root source (source ++ ":" ++ line.repr) = .error error) :
      OffendsWith system root record error

/-- A record offends, whatever its error. -/
def Offends (system : FileSystem) (root : Path) (record : RawRecord) : Prop :=
  ∃ error, record.OffendsWith system root error

/-- What a record is credited for: the line that its tag names, its hits, and the file that its
source leads to. -/
structure Earns (system : FileSystem) (root : Path) (record : RawRecord) (credit : Credit) :
    Prop where
  /-- The tag names the source and the line. -/
  names : Tag.Names Char.toNat (record.text.toList.dropWhile (· == '@'))
    credit.record.source.toList credit.record.line
  /-- All hits are credited. -/
  count : credit.record.count = record.count
  /-- The source leads to the file. -/
  leads : system.findSource root credit.record.source
    (credit.record.source ++ ":" ++ credit.record.line.repr) = .ok credit.path

/-- The source line that a record names, with the file that its source leads to. -/
def credit? (system : FileSystem) (root : Path) (record : RawRecord) : Option Credit :=
  record.located?.bind fun located =>
    (system.findSource root located.source (Tag.render located.source located.line)).toOption.map
      (⟨located, ·⟩)

section Equations

variable {system : FileSystem} {root : Path} {record : RawRecord}

theorem offence?_passed (passed : record.reading = .passed) :
    record.offence? system root = none := by
  rw [offence?, passed]

theorem offence?_badLine {body : String} (bad : record.reading = .badLine body) :
    record.offence? system root = some (.badLine body) := by
  rw [offence?, bad]

theorem offence?_refused {source : String} {line : Nat} {error : Error}
    (located : record.reading = .located source line)
    (refused : system.findSource root source (Tag.render source line) = .error error) :
    record.offence? system root = some error := by
  rw [offence?, located]
  dsimp only
  rw [refused]

theorem offence?_found {source : String} {line : Nat} {path : Path}
    (located : record.reading = .located source line)
    (found : system.findSource root source (Tag.render source line) = .ok path) :
    record.offence? system root = none := by
  rw [offence?, located]
  dsimp only
  rw [found]

theorem offence?_eq_some_iff {error : Error} :
    record.offence? system root = some error ↔ record.OffendsWith system root error := by
  cases reading : record.reading with
  | passed =>
      have unattributed := record.reading_eq_passed_iff.mp reading
      rw [offence?_passed reading]
      refine iff_of_false nofun fun offends => ?_
      cases offends with
      | badLine refused => exact unattributed refused.1
      | unfound names _ =>
          rw [reading_eq_located_iff.mpr names] at reading
          cases reading
  | badLine body =>
      obtain ⟨rfl, refused⟩ := reading_eq_badLine_iff.mp reading
      rw [offence?_badLine reading, Option.some.injEq]
      constructor
      · rintro rfl
        exact .badLine refused
      · intro offends
        cases offends with
        | badLine _ => rfl
        | unfound names _ => exact absurd names (refused.2 _ _)
  | located source line =>
      have names := reading_eq_located_iff.mp reading
      constructor
      · intro offence
        rw [offence?, reading] at offence
        dsimp only at offence
        split at offence
        · next failed =>
            cases offence
            exact .unfound names failed
        · cases offence
      · intro offends
        cases offends with
        | badLine refused => exact absurd names (refused.2 _ _)
        | unfound others failed =>
            rw [reading_eq_located_iff.mpr others] at reading
            cases reading
            exact offence?_refused (reading_eq_located_iff.mpr others) failed

theorem offence?_eq_none_iff :
    record.offence? system root = none ↔ ¬ record.Offends system root := by
  rw [Offends, Option.eq_none_iff_forall_ne_some, not_exists]
  exact forall_congr' fun error => not_congr offence?_eq_some_iff

theorem credit?_passed (passed : record.reading = .passed) :
    record.credit? system root = none := by
  rw [credit?, located?, passed]
  rfl

theorem credit?_found {source : String} {line : Nat} {path : Path}
    (located : record.reading = .located source line)
    (found : system.findSource root source (Tag.render source line) = .ok path) :
    record.credit? system root =
      some { record := { source, line, count := record.count }, path } := by
  rw [credit?, located?, located, Tag.Reading.record?, Option.bind_some]
  dsimp only
  rw [found]
  rfl

theorem earns_of_found {source : String} {line : Nat} {path : Path}
    (located : record.reading = .located source line)
    (found : system.findSource root source (Tag.render source line) = .ok path) :
    record.Earns system root { record := { source, line, count := record.count }, path } :=
  ⟨reading_eq_located_iff.mp located, rfl, found⟩

/-- A record earns one credit only. -/
theorem Earns.eq_of_found {credit : Credit} (earns : record.Earns system root credit)
    {source : String} {line : Nat} {path : Path} (located : record.reading = .located source line)
    (found : system.findSource root source (Tag.render source line) = .ok path) :
    credit = { record := { source, line, count := record.count }, path } := by
  obtain ⟨⟨otherSource, otherLine, hits⟩, otherPath⟩ := credit
  obtain ⟨names, same_hits, leads⟩ := earns
  obtain rfl : hits = record.count := same_hits
  have same := (reading_eq_located_iff.mpr names).symm.trans located
  cases same
  cases leads.symm.trans found
  rfl

end Equations

end RawRecord

open RawRecord

namespace Profile

/-- Complete records without an offence: each is passed over, or its source is found. -/
inductive Clean (system : FileSystem) (root : Path) : List RawRecord → Prop
  /-- No record is left. -/
  | nil : Clean system root []
  /-- A record is passed over. -/
  | passed {record : RawRecord} {records : List RawRecord} (passed : record.reading = .passed)
      (others : Clean system root records) : Clean system root (record :: records)
  /-- A record names a line of a source that is found. -/
  | found {record : RawRecord} {records : List RawRecord} {source : String} {line : Nat}
      {path : Path} (located : record.reading = .located source line)
      (leads : system.findSource root source (Tag.render source line) = .ok path)
      (others : Clean system root records) : Clean system root (record :: records)

theorem clean_of_unoffended {system : FileSystem} {root : Path} {records : List RawRecord}
    (unoffended : ∀ record ∈ records, record.offence? system root = none) :
    Clean system root records := by
  induction records using reading_induction with
  | nil => exact .nil
  | passed record records reading ih =>
      exact .passed reading (ih (List.forall_mem_cons.mp unoffended).2)
  | located record records source line reading ih =>
      obtain ⟨first, others⟩ := List.forall_mem_cons.mp unoffended
      cases leads : system.findSource root source (Tag.render source line) with
      | error error =>
          rw [offence?_refused reading leads] at first
          cases first
      | ok path => exact .found reading leads (ih others)
  | badLine record records body reading _ =>
      have first := (List.forall_mem_cons.mp unoffended).1
      rw [offence?_badLine reading] at first
      cases first

end Profile

namespace Tally

section Steps

variable {systems : Nat → FileSystem} {earlier : Array Event} {tally : Tally}
  {decoder after : Decoder} {events : List Event}

theorem gatherAfter_finished
    (handed : decoder.next = { item := .finished, events, decoder := after }) :
    tally.gatherAfter systems earlier decoder =
      { tally, decoder := after, events := (earlier ++ events).toList, failure := none } := by
  rw [gatherAfter]
  split <;> simp_all

theorem gatherAfter_badLine {body : String}
    (handed : decoder.next = { item := .badLine body, events, decoder := after }) :
    tally.gatherAfter systems earlier decoder =
      { tally
        decoder := after
        events := (earlier ++ events).toList
        failure := some (.badLine body) } := by
  rw [gatherAfter]
  split <;> simp_all

theorem gatherAfter_record {record : Record}
    (handed : decoder.next = { item := .record record, events, decoder := after }) :
    tally.gatherAfter systems earlier decoder =
      match tally.add (systems 0) record with
      | .error error =>
          { tally
            decoder := after
            events := (earlier ++ events).toList
            failure := some error }
      | .ok (grown, additions) =>
          grown.gatherAfter (fun later => systems (later + 1)) (earlier ++ events ++ additions)
            after := by
  rw [gatherAfter]
  split
  · simp_all
  · simp_all
  · next same =>
      rw [handed] at same
      cases same
      cases tally.add (systems 0) record <;> rfl

/-- A pass that goes round again only leaves its event. -/
theorem gatherAfter_again {later : Decoder} {tag : String}
    (again : decoder.pass = .again tag later) :
    tally.gatherAfter systems earlier decoder =
      tally.gatherAfter systems (earlier.push (.tagPassed tag)) later := by
  have handed := Decoder.next_eq_of_again again
  cases next : later.next with
  | mk item events after =>
      rw [next] at handed
      have ordered : earlier ++ (.tagPassed tag :: events) =
          earlier.push (.tagPassed tag) ++ events := by simp
      cases item with
      | finished => rw [gatherAfter_finished handed, gatherAfter_finished next, ordered]
      | badLine body => rw [gatherAfter_badLine handed, gatherAfter_badLine next, ordered]
      | record record => rw [gatherAfter_record handed, gatherAfter_record next, ordered]

end Steps

/-- All credits go where the file system leads. -/
def Found (system : FileSystem) (root : Path) (credits : List Credit) : Prop :=
  ∀ credit ∈ credits, ∀ tag,
    system.findSource root credit.record.source tag = .ok credit.path

variable {system : FileSystem} {tally : Tally} {root : Path} {credits : List Credit}

theorem Found.append {path : Path} (found : Found system root credits) (record : Record)
    (leads : system.findSource root record.source (Tag.render record.source record.line) =
      .ok path) :
    Found system root (credits ++ [⟨record, path⟩]) := by
  intro credit member tag
  rcases List.mem_append.mp member with earlier | last
  · exact found credit earlier tag
  · obtain rfl := List.mem_singleton.mp last
    exact FileSystem.findSource_ok leads tag

namespace Reflects

/-- On an unchanging file system a record is credited exactly if its source is found. -/
theorem add (reflects : tally.Reflects root credits) (found : Found system root credits)
    (record : Record) :
    match system.findSource root record.source (Tag.render record.source record.line) with
    | .error error => tally.add system record = .error error
    | .ok path => ∃ grown events, tally.add system record = .ok (grown, events) ∧
        grown.Reflects root (credits ++ [⟨record, path⟩]) := by
  cases known : Credit.destination credits record.source with
  | some path =>
      obtain ⟨credit, member, source_eq, path_eq⟩ := Credit.exists_of_destination known
      have leads := found credit member (Tag.render record.source record.line)
      obtain ⟨index, -, added, grown⟩ := reflects.add_known system known
      rw [source_eq, path_eq] at leads
      rw [leads]
      exact ⟨_, _, added, grown⟩
  | none =>
      cases leads : system.findSource root record.source
        (Tag.render record.source record.line) with
      | error error => exact reflects.add_refused known leads
      | ok path => exact reflects.add_found known leads

end Reflects

/-- The first offence ends gathering with its error; without one, all credits are added. -/
theorem gatherAfter_of_splits {records : List RawRecord} {tail : List UInt8} {decoder : Decoder}
    (splits : Profile.Splits decoder.rest records tail) (reflects : tally.Reflects root credits)
    (found : Found system root credits) (earlier : Array Event) :
    let gathering := tally.gatherAfter (fun _ => system) earlier decoder
    match records.findSome? (·.offence? system root) with
    | some error => gathering.failure = some error
    | none => gathering.failure = none ∧
        gathering.tally.Reflects root (credits ++ records.filterMap (·.credit? system root)) := by
  dsimp only
  induction records using Profile.reading_induction generalizing tally credits decoder earlier with
  | nil =>
      rw [gatherAfter_finished (Decoder.next_of_tail splits)]
      simpa using reflects
  | passed record records reading ih =>
      have remaining : Profile.Splits (decoder.behind record).passed.rest records tail :=
        Decoder.splits_behind splits
      rw [gatherAfter_again (Decoder.pass_of_passed splits reading), List.findSome?_cons,
        offence?_passed reading, List.filterMap_cons, credit?_passed reading]
      exact ih remaining reflects found _
  | located record records source line reading ih =>
      have remaining : Profile.Splits (decoder.behind record).yielded.rest records tail :=
        Decoder.splits_behind splits
      have step := reflects.add found { source, line, count := record.count }
      rw [gatherAfter_record (Decoder.next_of_located splits reading), List.findSome?_cons]
      cases leads : system.findSource root source (Tag.render source line) with
      | error error =>
          rw [leads] at step
          rw [offence?_refused reading leads, step]
      | ok path =>
          rw [leads] at step
          obtain ⟨grown, additions, added, grown_reflects⟩ := step
          rw [offence?_found reading leads, List.filterMap_cons, credit?_found reading leads,
            added, List.append_cons]
          exact ih remaining grown_reflects (found.append _ leads) _
  | badLine record records body reading _ =>
      rw [gatherAfter_badLine (Decoder.next_of_badLine splits reading), List.findSome?_cons,
        offence?_badLine reading]

end Tally

namespace Coverage

variable {system : FileSystem} {root : Path}

/-- Without an offence every attributed record is credited. -/
theorem length_credits {records : List RawRecord} (clean : Profile.Clean system root records) :
    (records.filterMap (·.credit? system root)).length = records.countP (·.Attributed) := by
  induction clean with
  | nil => rfl
  | passed passed _ ih =>
      have unattributed := (RawRecord.reading_eq_passed_iff _).mp passed
      rw [List.filterMap_cons_none (RawRecord.credit?_passed passed),
        List.countP_cons_of_neg (by simpa using unattributed), ih]
  | found located leads _ ih =>
      have attributed := RawRecord.attributed_of_located _ located
      rw [List.filterMap_cons_some (RawRecord.credit?_found located leads), List.length_cons,
        List.countP_cons_of_pos (by simpa using attributed), ih]

theorem ofProfile_of_failure {octets : List UInt8} {error : Error}
    (failed : (({ root } : Tally).gather system (.new octets)).failure = some error) :
    (ofProfile system root octets).1 = .error error := by
  rw [ofProfile]
  dsimp only
  rw [failed]

theorem ofProfile_of_success {octets : List UInt8}
    (succeeded : (({ root } : Tally).gather system (.new octets)).failure = none) :
    (ofProfile system root octets).1 =
      .ok (({ root } : Tally).gather system (.new octets)).tally.coverage := by
  rw [ofProfile]
  dsimp only
  rw [succeeded]

/-- Without an offence every attributed record earns its credit. -/
theorem forall₂_credits {records : List RawRecord} (clean : Profile.Clean system root records) :
    List.Forall₂ (RawRecord.Earns system root) (records.filter (·.Attributed))
      (records.filterMap (·.credit? system root)) := by
  induction clean with
  | nil => exact .nil
  | passed passed _ ih =>
      have unattributed := (RawRecord.reading_eq_passed_iff _).mp passed
      rw [List.filterMap_cons_none (RawRecord.credit?_passed passed),
        List.filter_cons_of_neg (by simpa using unattributed)]
      exact ih
  | found located leads _ ih =>
      have attributed := RawRecord.attributed_of_located _ located
      rw [List.filterMap_cons_some (RawRecord.credit?_found located leads),
        List.filter_cons_of_pos (by simpa using attributed)]
      exact .cons (RawRecord.earns_of_found located leads) ih

/-- The first record that offends, among those before which none does. -/
theorem findSome?_offence?_eq_some_iff {records : List RawRecord} {error : Error} :
    records.findSome? (·.offence? system root) = some error ↔
      ∃ front record behind, records = front ++ record :: behind ∧
        (∀ earlier ∈ front, ¬ earlier.Offends system root) ∧
        record.OffendsWith system root error := by
  rw [List.findSome?_eq_some_iff]
  simp only [RawRecord.offence?_eq_some_iff, RawRecord.offence?_eq_none_iff]
  constructor
  · rintro ⟨front, record, behind, same, offends, before⟩
    exact ⟨front, record, behind, same, before, offends⟩
  · rintro ⟨front, record, behind, same, before, offends⟩
    exact ⟨front, record, behind, same, offends, before⟩

end Coverage
end LuaCoverage
