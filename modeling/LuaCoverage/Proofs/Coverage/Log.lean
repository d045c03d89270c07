import LuaCoverage.Proofs.Coverage.Loading

/-!
# What loading a profile logs

The log of a profile that loads follows its octets.  A record without a source line logs its tag, a
record with a new spelling of a file that is there logs the spelling and the file, and every other
record logs nothing.  The tail comes next, if there is one, and the figures of the decoder come
last, so that the events can be counted against the figures, the points and the files.
-/

namespace LuaCoverage

/-! ## What each part of a profile logs -/

namespace Credit

/-- A credit whose spelling is new while some earlier spelling has led to its file. -/
def Merges (earlier : List Credit) (credit : Credit) : Prop :=
  credit.record.source ∉ earlier.map (·.record.source) ∧ credit.path ∈ earlier.map (·.path)

instance (earlier : List Credit) (credit : Credit) : Decidable (credit.Merges earlier) :=
  inferInstanceAs (Decidable (_ ∧ _))

/-- What is logged about a credit after earlier ones. -/
def logged (earlier : List Credit) (credit : Credit) : List Event :=
  if credit.Merges earlier then [.merged credit.record.source credit.path] else []

theorem destination_eq_none_iff {credits : List Credit} {source : String} :
    destination credits source = none ↔ source ∉ credits.map (·.record.source) := by
  rw [destination, Option.map_eq_none_iff, List.find?_eq_none]
  simp

end Credit

/-- What is logged about a complete record after some credits: the tag that names no source line, or
what its credit brings. -/
def RawRecord.logged (system : FileSystem) (root : Path) (earlier : List Credit)
    (record : RawRecord) : List Event :=
  if record.Attributed then
    match record.credit? system root with
    | some credit => credit.logged earlier
    | none => []
  else [.tagPassed record.text]

namespace Profile

/-- What is logged about complete records, each after the credits of those before it. -/
def loggedAfter (system : FileSystem) (root : Path) (earlier : List Credit) :
    List RawRecord → List Event
  | [] => []
  | record :: records =>
      record.logged system root earlier ++
        loggedAfter system root (earlier ++ (record.credit? system root).toList) records

/-- What is logged about a tail. -/
def loggedTail (tail : List UInt8) : List Event :=
  if tail.isEmpty then [] else [.truncated tail.length]

end Profile

namespace Event

/-- Whether a tag was passed over. -/
def isTagPassed : Event → Bool
  | tagPassed _ => true
  | _ => false

/-- Whether a new spelling led to a file that was there. -/
def isMerged : Event → Bool
  | merged .. => true
  | _ => false

end Event

section Equations

variable {system : FileSystem} {root : Path} {earlier : List Credit} {record : RawRecord}
  {records : List RawRecord}

theorem RawRecord.logged_passed (passed : record.reading = .passed) :
    record.logged system root earlier = [.tagPassed record.text] := by
  rw [logged, if_neg (record.reading_eq_passed_iff.mp passed)]

theorem RawRecord.logged_found {source : String} {line : Nat} {path : Path}
    (located : record.reading = .located source line)
    (found : system.findSource root source (Tag.render source line) = .ok path) :
    record.logged system root earlier =
      Credit.logged earlier { record := { source, line, count := record.count }, path } := by
  rw [logged, if_pos (record.attributed_of_located located), credit?_found located found]

theorem Profile.loggedAfter_passed (passed : record.reading = .passed) :
    loggedAfter system root earlier (record :: records) =
      .tagPassed record.text :: loggedAfter system root earlier records := by
  rw [loggedAfter, RawRecord.logged_passed passed, RawRecord.credit?_passed passed,
    Option.toList_none, List.append_nil, List.singleton_append]

theorem Profile.loggedAfter_found {source : String} {line : Nat} {path : Path}
    (located : record.reading = .located source line)
    (found : system.findSource root source (Tag.render source line) = .ok path) :
    loggedAfter system root earlier (record :: records) =
      Credit.logged earlier { record := { source, line, count := record.count }, path } ++
        loggedAfter system root
          (earlier ++ [{ record := { source, line, count := record.count }, path }]) records := by
  rw [loggedAfter, RawRecord.logged_found located found, RawRecord.credit?_found located found,
    Option.toList_some]

end Equations

/-! ## The log of gathering -/

namespace Tally

variable {system : FileSystem} {tally : Tally} {root : Path} {credits : List Credit}

/-- An addition logs what its credit says. -/
theorem Reflects.logged_of_add (reflects : tally.Reflects root credits) {record : Record}
    {path : Path} {grown : Tally} {events : List Event}
    (added : tally.add system record = .ok (grown, events))
    (leads : system.findSource root record.source (Tag.render record.source record.line) =
      .ok path) :
    events = Credit.logged credits ⟨record, path⟩ := by
  obtain ⟨index, located, locates, -⟩ := exists_locates_of_add added
  rw [Credit.logged]
  cases locates with
  | known known =>
      obtain ⟨other, spelled, -⟩ := (reflects.indexed.ofSource _ _).mp known
      refine (if_neg fun merges => ?_).symm
      rw [Credit.destination_eq_none_iff.mpr merges.1] at spelled
      cases spelled
  | merged unknown found met =>
      rw [reflects.root, leads] at found
      cases found
      have fresh :=
        Credit.destination_eq_none_iff.mp (reflects.indexOfSource_eq_none_iff.mp unknown)
      have stands := (reflects.indexed.ofPath path index).mp met
      exact (if_pos ⟨fresh, reflects.mem_paths.mp (List.mem_of_getElem? stands)⟩).symm
  | new _ found absent =>
      rw [reflects.root, leads] at found
      cases found
      have unmet := reflects.indexed.unknown_path.mp absent
      exact (if_neg fun merges => unmet (reflects.mem_paths.mpr merges.2)).symm

/-- Gathering records without offence logs what they say and the tail, and stops after the call of
the decoder that meets the end. -/
theorem gatherAfter_logged {records : List RawRecord} {tail : List UInt8} {decoder : Decoder}
    (clean : Profile.Clean system root records)
    (splits : Profile.Splits decoder.rest records tail) (reflects : tally.Reflects root credits)
    (found : Found system root credits) (earlier : Array Event) :
    (tally.gatherAfter (fun _ => system) earlier decoder).events =
        earlier.toList ++ Profile.loggedAfter system root credits records ++
          Profile.loggedTail tail ∧
      (tally.gatherAfter (fun _ => system) earlier decoder).decoder =
        decoder.after ((Profile.handedOut records).length + 1) := by
  induction clean generalizing tally credits decoder earlier with
  | nil =>
      have ended := Decoder.next_of_tail splits
      rw [gatherAfter_finished ended]
      refine ⟨?_, (congrArg Decoder.Step.decoder ended).symm⟩
      rw [Decoder.left_of_tail splits]
      cases tail <;> simp [Profile.loggedAfter, Profile.loggedTail]
  | @passed record records passed _ ih =>
      have again := Decoder.pass_of_passed splits passed
      have remaining :
          Profile.Splits (decoder.behind record).passed.rest records tail :=
        Decoder.splits_behind splits
      obtain ⟨events, ended⟩ :=
        ih remaining reflects found (earlier.push (.tagPassed record.text))
      rw [gatherAfter_again again, events, ended, Profile.loggedAfter_passed passed,
        Profile.handedOut_passed passed, Decoder.after_succ_of_again again, Array.toList_push]
      simp only [List.append_assoc, List.cons_append, List.nil_append, and_self]
  | @found record records source line path located leads _ ih =>
      have handed := Decoder.next_of_located splits located
      have remaining : Profile.Splits (decoder.behind record).yielded.rest records tail :=
        Decoder.splits_behind splits
      have call : decoder.after ((Profile.handedOut records).length + 1 + 1) =
          (decoder.behind record).yielded.after ((Profile.handedOut records).length + 1) := by
        rw [Decoder.after, handed]
      have step := reflects.add found { source, line, count := record.count }
      rw [leads] at step
      obtain ⟨grown, additions, added, grown_reflects⟩ := step
      have logged := reflects.logged_of_add added leads
      obtain ⟨events, ended⟩ := ih remaining grown_reflects (found.append _ leads)
        (earlier ++ ([] : List Event) ++ additions)
      rw [gatherAfter_record handed, added]
      dsimp only
      rw [events, ended, logged, Profile.loggedAfter_found located leads,
        Profile.handedOut_located located, List.length_cons, call]
      simp only [Array.appendList_nil, Array.toList_appendList, List.append_assoc, and_self]

end Tally

/-! ## Counting events -/

namespace Credit

/-- Number of different spellings. -/
def spellings (credits : List Credit) : Nat :=
  (credits.map (·.record.source)).eraseDups.length

/-- Number of different files. -/
def destinations (credits : List Credit) : Nat := (credits.map (·.path)).eraseDups.length

theorem countP_isTagPassed_logged (earlier : List Credit) (credit : Credit) :
    (credit.logged earlier).countP Event.isTagPassed = 0 := by
  rw [logged]
  split <;> rfl

/-- A credit is logged exactly if it brings a new spelling and no new file. -/
theorem countP_isMerged_logged {earlier : List Credit} (credit : Credit)
    (known : credit.record.source ∈ earlier.map (·.record.source) →
      credit.path ∈ earlier.map (·.path)) :
    (credit.logged earlier).countP Event.isMerged + destinations (earlier ++ [credit]) +
        spellings earlier =
      spellings (earlier ++ [credit]) + destinations earlier := by
  simp only [spellings, destinations, List.map_append, List.map_cons, List.map_nil,
    eraseDups_concat]
  by_cases spelled : credit.record.source ∈ earlier.map (·.record.source)
  · have other : ¬credit.Merges earlier := fun merges => merges.1 spelled
    rw [logged, if_neg other, if_pos spelled, if_pos (known spelled), List.countP_nil]
    omega
  · rw [if_neg spelled, List.length_append]
    by_cases met : credit.path ∈ earlier.map (·.path)
    · have merges : credit.Merges earlier := ⟨spelled, met⟩
      rw [logged, if_pos merges, if_pos met, List.countP_cons_of_pos rfl, List.countP_nil]
      simp only [List.length_singleton]
      omega
    · have other : ¬credit.Merges earlier := fun merges => met merges.2
      rw [logged, if_neg other, if_neg met, List.length_append, List.countP_nil]
      simp only [List.length_singleton]
      omega

end Credit

/-- On an unchanging file system a known spelling leads to a known file. -/
theorem Tally.Found.path_mem {system : FileSystem} {root : Path} {credits : List Credit}
    (found : Found system root credits) {source tag : String} {path : Path}
    (leads : system.findSource root source tag = .ok path)
    (known : source ∈ credits.map (·.record.source)) : path ∈ credits.map (·.path) := by
  obtain ⟨credit, member, rfl⟩ := List.mem_map.mp known
  have same := found credit member tag
  rw [leads] at same
  cases same
  exact List.mem_map.mpr ⟨credit, member, rfl⟩

namespace Profile

theorem countP_loggedTail {selects : Event → Bool}
    (tailless : ∀ size, selects (.truncated size) = false) (tail : List UInt8) :
    (loggedTail tail).countP selects = 0 := by
  rw [loggedTail]
  split
  · rfl
  · exact List.countP_cons_of_neg (Bool.eq_false_iff.mp (tailless _))

section Clean

variable {system : FileSystem} {root : Path} {records : List RawRecord}
  (clean : Clean system root records)
include clean

/-- Without offence there is no bad line number. -/
theorem failure?_of_clean : failure? records = none := by
  induction clean with
  | nil => rfl
  | passed passed _ ih => rw [failure?_passed passed, ih]
  | found located _ _ ih => rw [failure?_located located, ih]

/-- Without offence every source line that is named is credited. -/
theorem map_source_credits :
    (records.filterMap (·.credit? system root)).map (·.record.source) =
      (records.filterMap (·.located?)).map (·.source) := by
  induction clean with
  | nil => rfl
  | passed passed _ ih =>
      rw [List.filterMap_cons, List.filterMap_cons, RawRecord.located?,
        RawRecord.credit?_passed passed, passed]
      exact ih
  | found located leads _ ih =>
      rw [List.filterMap_cons, List.filterMap_cons, RawRecord.located?,
        RawRecord.credit?_found located leads, located]
      exact congrArg _ ih

theorem countP_isTagPassed_loggedAfter (credits : List Credit) :
    (loggedAfter system root credits records).countP Event.isTagPassed =
      records.countP (¬ ·.Attributed) := by
  induction clean generalizing credits with
  | nil => rfl
  | passed passed _ ih =>
      rw [loggedAfter_passed passed, List.countP_cons_of_pos rfl, ih, countP_passed passed]
  | found located leads _ ih =>
      rw [loggedAfter_found located leads, List.countP_append,
        Credit.countP_isTagPassed_logged, ih, countP_located located, Nat.zero_add]

theorem countP_isMerged_loggedAfter {credits : List Credit}
    (found : Tally.Found system root credits) :
    (loggedAfter system root credits records).countP Event.isMerged +
          Credit.destinations (credits ++ records.filterMap (·.credit? system root)) +
        Credit.spellings credits =
      Credit.spellings (credits ++ records.filterMap (·.credit? system root)) +
        Credit.destinations credits := by
  induction clean generalizing credits with
  | nil => simp [loggedAfter, Nat.add_comm]
  | passed passed _ ih =>
      rw [loggedAfter_passed passed, List.filterMap_cons_none (RawRecord.credit?_passed passed),
        List.countP_cons_of_neg Bool.false_ne_true]
      exact ih found
  | @found record records source line path located leads _ ih =>
      have later := ih (found.append { source, line, count := record.count } leads)
      have step := Credit.countP_isMerged_logged
        ⟨{ source, line, count := record.count }, path⟩ (found.path_mem leads)
      rw [loggedAfter_found located leads, List.countP_append,
        List.filterMap_cons_some (RawRecord.credit?_found located leads),
        List.append_cons credits _ (records.filterMap (·.credit? system root))]
      omega

end Clean

end Profile

namespace Coverage

section Division

variable {system : FileSystem} {root : Path} {octets tail : List UInt8} {records : List RawRecord}
  (splits : Profile.Splits octets records tail)
  (unoffended : ∀ record ∈ records, record.offence? system root = none)
include splits unoffended

/-- A profile without offence logs what its records say, then its tail and its figures. -/
theorem ofProfile_events :
    (ofProfile system root octets).2 =
      let ended := Decoder.after ((Profile.handedOut records).length + 1) (.new octets)
      Profile.loggedAfter system root [] records ++ Profile.loggedTail tail ++
        [.decoded ended.statistics.records ended.statistics.skipped
          ended.statistics.trailing] := by
  have atStart : Profile.Splits (Decoder.new octets).rest records tail := splits
  have nothing : Tally.Found system root [] := nofun
  have gathered := Tally.gatherAfter_of_splits atStart (Tally.empty_reflects root) nothing #[]
  rw [List.findSome?_eq_none_iff.mpr unoffended] at gathered
  have succeeded := gathered.1
  obtain ⟨events, ended⟩ := Tally.gatherAfter_logged (Profile.clean_of_unoffended unoffended)
    atStart (Tally.empty_reflects root) nothing #[]
  rw [List.nil_append] at events
  rw [ofProfile, Tally.gather, Tally.gatherAlong]
  dsimp only
  rw [succeeded, events, ended]

/-- Neither a tail nor the figures are events of a kind that is counted. -/
theorem countP_ofProfile_events {selects : Event → Bool}
    (tailless : ∀ size, selects (.truncated size) = false)
    (figureless : ∀ records skipped trailing,
      selects (.decoded records skipped trailing) = false) :
    (ofProfile system root octets).2.countP selects =
      (Profile.loggedAfter system root [] records).countP selects := by
  rw [ofProfile_events splits unoffended, List.countP_append, List.countP_append,
    Profile.countP_loggedTail tailless,
    List.countP_cons_of_neg (Bool.eq_false_iff.mp (figureless ..))]
  rfl

end Division

/-- The log of a profile that loads.  The events are those of the complete records in order, each
after the credits of the records before it, then that of the tail, then the figures of the decoder
at the end.  So tags that were passed over are counted by the events about them, records by the
points, and new spellings of files that were there are all spellings less the files. -/
theorem ofProfile_logs_everything {system : FileSystem} {root : Path} {octets : List UInt8}
    {coverage : Coverage} (loaded : (ofProfile system root octets).1 = .ok coverage) :
    ∃ (records : List RawRecord) (tail : List UInt8),
      Profile.Splits octets records tail ∧
      let events := (ofProfile system root octets).2
      let ended := Decoder.after ((Profile.handedOut records).length + 1) (.new octets)
      let sources := (records.filterMap (·.located?)).map (·.source)
      events =
        Profile.loggedAfter system root [] records ++ Profile.loggedTail tail ++
          [.decoded ended.statistics.records ended.statistics.skipped ended.statistics.trailing] ∧
      ended.statistics.trailing = tail.length ∧
      ended.statistics.records = coverage.points ∧
      ended.statistics.skipped = events.countP Event.isTagPassed ∧
      events.countP Event.isMerged + coverage.files.length = sources.eraseDups.length := by
  have splits := Profile.splits_split octets
  have offence := (exists_ofProfile_iff splits).mp ⟨coverage, loaded⟩
  have reflects := reflects_of_ofProfile splits loaded
  refine ⟨(Profile.split octets).1, (Profile.split octets).2, splits, ?_⟩
  generalize (Profile.split octets).1 = records at splits offence reflects
  generalize (Profile.split octets).2 = tail at splits
  have unoffended := List.findSome?_eq_none_iff.mp offence
  have clean := Profile.clean_of_unoffended unoffended
  have readable := Profile.failure?_of_clean clean
  have atStart : Profile.Splits (Decoder.new octets).rest records tail := splits
  have atEnd := Decoder.after_end atStart readable
  intro events ended sources
  refine ⟨ofProfile_events splits unoffended, congrArg (·.statistics.trailing) atEnd, ?_, ?_, ?_⟩
  · calc ended.statistics.records
      _ = 0 + (Profile.handedOut records).length := congrArg (·.statistics.records) atEnd
      _ = records.countP (·.Attributed) := by
          rw [Nat.zero_add, Profile.length_handedOut_eq_countP readable]
      _ = coverage.points := by rw [reflects.points, length_credits clean]
  · calc ended.statistics.skipped
      _ = 0 + records.countP (¬ ·.Attributed) := congrArg (·.statistics.skipped) atEnd
      _ = events.countP Event.isTagPassed := by
          rw [Nat.zero_add,
            countP_ofProfile_events splits unoffended (fun _ => rfl) (fun _ _ _ => rfl),
            Profile.countP_isTagPassed_loggedAfter clean]
  · have merges := Profile.countP_isMerged_loggedAfter clean
      (nofun : Tally.Found system root [])
    rw [List.nil_append] at merges
    calc events.countP Event.isMerged + coverage.files.length
      _ = (Profile.loggedAfter system root [] records).countP Event.isMerged +
            Credit.destinations (records.filterMap (·.credit? system root)) := by
          rw [countP_ofProfile_events splits unoffended (fun _ => rfl) (fun _ _ _ => rfl),
            Credit.destinations, ← reflects.paths, List.length_map]
      _ = Credit.spellings (records.filterMap (·.credit? system root)) := merges
      _ = sources.eraseDups.length := by
          rw [Credit.spellings, Profile.map_source_credits clean]

/-- A tag that is passed over, two spellings of one file, and a tail. -/
theorem ofProfile_logs_everything_merged :
    let passed : RawRecord := { tag := Utf8.encode "plain", count := 4 }
    let first : RawRecord := { tag := Utf8.encode "@a.lua:1", count := 2 }
    let second : RawRecord := { tag := Utf8.encode "x/a.lua:2", count := 1 }
    (ofProfile .singleDirectory ⟨[]⟩ (Profile.encodeAll [passed, first, second] ++ [7])).2 =
      [.tagPassed "plain", .merged "x/a.lua" (.ofText "/a.lua"), .truncated 1, .decoded 2 1 1] := by
  intro passed first second
  have splits : Profile.Splits (Profile.encodeAll [passed, first, second] ++ [7])
      [passed, first, second] [7] :=
    ⟨rfl, by decide +kernel, Profile.incomplete_of_length_lt (by decide)⟩
  have loads := ofProfile_of_splits .singleDirectory ⟨[]⟩ splits
  have offence : [passed, first, second].findSome? (·.offence? .singleDirectory ⟨[]⟩) = none := by
    decide +kernel
  rw [offence] at loads
  obtain ⟨coverage, loaded, -⟩ := loads
  obtain ⟨records, tail, others, written, -⟩ := ofProfile_logs_everything loaded
  obtain ⟨rfl, rfl⟩ := splits.unique others
  have atStart :
      Profile.Splits (Decoder.new (Profile.encodeAll [passed, first, second] ++ [7])).rest
        [passed, first, second] [7] := splits
  rw [written, Decoder.after_end atStart (by decide +kernel)]
  decide +kernel

end Coverage
end LuaCoverage
