import LuaCoverage.Proofs.Coverage.Gathering

/-!
# Profiles one after another

Gathering goes on in the same way wherever its octets stand and whatever was counted before.  A
profile without a tail can therefore be gathered on its own before the octets behind it, with the
same tally, the same failure and the same figures in the end.
-/

namespace LuaCoverage

namespace Decoder

/-- A decoder before some octets that has handed out and passed over so many records. -/
structure Stands (decoder : Decoder) (octets : List UInt8) (handed passed : Nat) : Prop where
  /-- The octets before it. -/
  rest : decoder.rest = octets
  /-- Its figures. -/
  statistics : decoder.statistics = { records := handed, skipped := passed }

theorem new_stands (octets : List UInt8) : (new octets).Stands octets 0 0 := ⟨rfl, rfl⟩

namespace Stands

variable {decoder : Decoder} {octets tail : List UInt8} {handed skipped : Nat}
  (stands : decoder.Stands octets handed skipped)
include stands

theorem splits {records : List RawRecord} (splits : Profile.Splits octets records tail) :
    Profile.Splits decoder.rest records tail := stands.rest ▸ splits

section Behind

variable {record : RawRecord} {records : List RawRecord}
  (splits : Profile.Splits octets (record :: records) tail)
include splits

theorem rest_behind : (decoder.behind record).rest = Profile.encodeAll records ++ tail :=
  (splits_behind (stands.splits splits)).parts

theorem passed : (decoder.behind record).passed.Stands (Profile.encodeAll records ++ tail) handed
    (skipped + 1) where
  rest := stands.rest_behind splits
  statistics := by simp only [Decoder.passed, behind, stands.statistics]

theorem yielded : (decoder.behind record).yielded.Stands (Profile.encodeAll records ++ tail)
    (handed + 1) skipped where
  rest := stands.rest_behind splits
  statistics := by simp only [Decoder.yielded, behind, stands.statistics]

end Behind
end Stands
end Decoder

namespace Tally

/-- What gathering comes to, wherever its octets stand. -/
structure Upshot where
  /-- The tally. -/
  tally : Tally
  /-- Figures of the decoder. -/
  statistics : Statistics
  /-- What happened on the way. -/
  events : List Event
  /-- Why gathering stopped before the end. -/
  failure : Option Error

/-- What a gathering comes to. -/
def Gathering.upshot (gathering : Gathering) : Upshot where
  tally := gathering.tally
  statistics := gathering.decoder.statistics
  events := gathering.events
  failure := gathering.failure

namespace Upshot

/-- An upshot with earlier events before its own and with records counted that were handed out or
passed over before. -/
def after (upshot : Upshot) (earlier : List Event) (handed passed : Nat) : Upshot :=
  { upshot with
    statistics :=
      { records := handed + upshot.statistics.records
        skipped := passed + upshot.statistics.skipped
        trailing := upshot.statistics.trailing }
    events := earlier ++ upshot.events }

variable (upshot : Upshot)

theorem after_nothing : upshot.after [] 0 0 = upshot := by
  simp [after]

theorem after_after (first second : List Event) (handed passed moreHanded morePassed : Nat) :
    (upshot.after second moreHanded morePassed).after first handed passed =
      upshot.after (first ++ second) (handed + moreHanded) (passed + morePassed) := by
  simp [after, Nat.add_assoc]

end Upshot

section Continuation

variable {system : FileSystem} {tally : Tally} {octets tail : List UInt8}
  {record : RawRecord} {records : List RawRecord}

/-- Knowing what happens from some octets on, up to what was counted before, is enough. -/
theorem gatherAfter_eq_after_of_step (later : Upshot) (own : List Event) (first second : Nat)
    (step : ∀ (earlier : Array Event) (decoder : Decoder) (handed passed : Nat),
      decoder.Stands octets handed passed →
      (tally.gatherAfter (fun _ => system) earlier decoder).upshot =
        later.after (earlier.toList ++ own) (handed + first) (passed + second))
    (earlier : Array Event) {decoder : Decoder} {handed passed : Nat}
    (stands : decoder.Stands octets handed passed) :
    (tally.gatherAfter (fun _ => system) earlier decoder).upshot =
      (tally.gather system (.new octets)).upshot.after earlier.toList handed passed := by
  have alone := step #[] (.new octets) 0 0 (Decoder.new_stands octets)
  rw [step earlier decoder handed passed stands, gather, gatherAlong, alone, Upshot.after_after]
  simp

/-- Earlier events and figures are only carried along. -/
theorem gatherAfter_eq_after (splits : Profile.Splits octets records tail)
    (earlier : Array Event) {decoder : Decoder} {handed passed : Nat}
    (stands : decoder.Stands octets handed passed) :
    (tally.gatherAfter (fun _ => system) earlier decoder).upshot =
      (tally.gather system (.new octets)).upshot.after earlier.toList handed passed := by
  induction records generalizing octets tally earlier decoder handed passed with
  | nil =>
      apply gatherAfter_eq_after_of_step
        { tally
          statistics := { trailing := tail.length }
          events := if 0 < tail.length then [.truncated tail.length] else []
          failure := none } [] 0 0 _ earlier stands
      intro earlier decoder handed passed stands
      have left := Decoder.left_of_tail (stands.splits splits)
      rw [gatherAfter_finished (Decoder.next_of_tail (stands.splits splits))]
      simp [Gathering.upshot, Upshot.after, left, stands.statistics]
  | cons record records ih =>
      have remaining := splits.tail_splits
      cases reading : record.reading with
      | passed =>
          apply gatherAfter_eq_after_of_step
            (tally.gather system (.new (Profile.encodeAll records ++ tail))).upshot
            [.tagPassed record.text] 0 1 _ earlier stands
          intro earlier decoder handed passed stands
          rw [gatherAfter_again (Decoder.pass_of_passed (stands.splits splits) reading),
            ih remaining (earlier.push (.tagPassed record.text)) (stands.passed splits)]
          simp
      | located source line =>
          cases added : tally.add system { source, line, count := record.count } with
          | error error =>
              apply gatherAfter_eq_after_of_step
                { tally, statistics := { records := 1 }, events := [], failure := some error } []
                0 0 _ earlier stands
              intro earlier decoder handed passed stands
              have handed := Decoder.next_of_located (stands.splits splits) reading
              rw [gatherAfter_record handed, added]
              simp [Gathering.upshot, Upshot.after, (stands.yielded splits).statistics]
          | ok parts =>
              obtain ⟨grown, additions⟩ := parts
              apply gatherAfter_eq_after_of_step
                (grown.gather system (.new (Profile.encodeAll records ++ tail))).upshot additions
                1 0 _ earlier stands
              intro earlier decoder handed passed stands
              have given := Decoder.next_of_located (stands.splits splits) reading
              rw [gatherAfter_record given, added]
              dsimp only
              rw [Array.appendList_nil,
                ih remaining (earlier ++ additions) (stands.yielded splits)]
              simp
      | badLine body =>
          apply gatherAfter_eq_after_of_step
            { tally, statistics := {}, events := [], failure := some (.badLine body) } [] 0 0 _
            earlier stands
          intro earlier decoder handed passed stands
          have given := Decoder.next_of_badLine (stands.splits splits) reading
          rw [gatherAfter_badLine given]
          simp [Gathering.upshot, Upshot.after, Decoder.exhausted, stands.statistics]

section First

variable (splits : Profile.Splits octets (record :: records) tail)
include splits

/-- A decoder at the start meets the first record. -/
theorem splits_new : Profile.Splits (Decoder.new octets).rest (record :: records) tail := splits

theorem gather_passed (passed : record.reading = .passed) :
    (tally.gather system (.new octets)).upshot =
      (tally.gather system (.new (Profile.encodeAll records ++ tail))).upshot.after
        [.tagPassed record.text] 0 1 := by
  have again := Decoder.pass_of_passed (splits_new splits) passed
  rw [gather, gatherAlong, gatherAfter_again again,
    gatherAfter_eq_after splits.tail_splits _ ((Decoder.new_stands octets).passed splits)]
  rfl

theorem gather_added {source : String} {line : Nat} {grown : Tally} {additions : List Event}
    (located : record.reading = .located source line)
    (added : tally.add system { source, line, count := record.count } = .ok (grown, additions)) :
    (tally.gather system (.new octets)).upshot =
      (grown.gather system (.new (Profile.encodeAll records ++ tail))).upshot.after
        additions 1 0 := by
  have handed := Decoder.next_of_located (splits_new splits) located
  rw [gather, gatherAlong, gatherAfter_record handed, added]
  dsimp only
  rw [gatherAfter_eq_after splits.tail_splits _ ((Decoder.new_stands octets).yielded splits)]
  simp

theorem gather_refused {source : String} {line : Nat} {error : Error}
    (located : record.reading = .located source line)
    (refused : tally.add system { source, line, count := record.count } = .error error) :
    (tally.gather system (.new octets)).failure = some error ∧
      (tally.gather system (.new octets)).tally = tally := by
  have handed := Decoder.next_of_located (splits_new splits) located
  rw [gather, gatherAlong, gatherAfter_record handed, refused]
  exact ⟨rfl, rfl⟩

theorem gather_badLine {body : String} (bad : record.reading = .badLine body) :
    (tally.gather system (.new octets)).failure = some (.badLine body) ∧
      (tally.gather system (.new octets)).tally = tally := by
  have handed := Decoder.next_of_badLine (splits_new splits) bad
  rw [gather, gatherAlong, gatherAfter_badLine handed]
  exact ⟨rfl, rfl⟩

end First
end Continuation

namespace Upshot

/-- What gathering octets comes to that some other octets precede: it fails as with the octets in
front alone, or it goes on from there. -/
def Continues (system : FileSystem) (behind : List UInt8) (front whole : Upshot) : Prop :=
  match front.failure with
  | some error => whole.failure = some error ∧ whole.tally = front.tally
  | none => whole =
      (front.tally.gather system (.new behind)).upshot.after front.events
        front.statistics.records front.statistics.skipped

theorem Continues.after {system : FileSystem} {behind : List UInt8} {front whole : Upshot}
    (continues : Continues system behind front whole) (earlier : List Event)
    (handed passed : Nat) :
    Continues system behind (front.after earlier handed passed)
      (whole.after earlier handed passed) := by
  rw [Continues] at continues ⊢
  cases failure : front.failure with
  | some error =>
      rw [failure] at continues
      simpa [Upshot.after, failure] using continues
  | none =>
      rw [failure] at continues
      have succeeded : (front.after earlier handed passed).failure = none := failure
      rw [succeeded, continues, after_after]
      rfl

end Upshot

/-- Octets behind complete records are gathered as if those had been gathered before. -/
theorem gather_continues {system : FileSystem} {tally : Tally} {front : List UInt8}
    {records : List RawRecord} (complete : Profile.Splits front records [])
    (behind : List UInt8) :
    Upshot.Continues system behind (tally.gather system (.new front)).upshot
      (tally.gather system (.new (front ++ behind))).upshot := by
  have behindSplits := Profile.splits_split behind
  induction records generalizing tally front with
  | nil =>
      obtain rfl : front = [] := by simpa using complete.parts
      have atEnd : Profile.Splits (Decoder.new []).rest [] [] := complete
      have ended : (tally.gather system (.new [])).upshot =
          { tally, statistics := {}, events := [], failure := none } := by
        rw [gather, gatherAlong, gatherAfter_finished (Decoder.next_of_tail atEnd)]
        rfl
      rw [ended, List.nil_append]
      exact (Upshot.after_nothing _).symm
  | cons record records ih =>
      have wholeSplits := complete.append behindSplits
      rw [List.cons_append] at wholeSplits
      have rest_eq := (complete.tail_splits.append behindSplits).parts
      cases reading : record.reading with
      | passed =>
          rw [gather_passed complete reading, gather_passed wholeSplits reading, ← rest_eq]
          exact (ih complete.tail_splits).after _ 0 1
      | located source line =>
          cases added : tally.add system { source, line, count := record.count } with
          | error error =>
              obtain ⟨failed, kept⟩ := gather_refused complete reading added
              have wholeRefused := gather_refused wholeSplits reading added
              rw [Upshot.Continues, Gathering.upshot, failed, kept]
              exact wholeRefused
          | ok parts =>
              obtain ⟨grown, additions⟩ := parts
              rw [gather_added complete reading added, gather_added wholeSplits reading added,
                ← rest_eq]
              exact (ih complete.tail_splits).after _ 1 0
      | badLine body =>
          obtain ⟨failed, kept⟩ : (tally.gather system (.new front)).failure =
                some (.badLine body) ∧
              (tally.gather system (.new front)).tally = tally :=
            gather_badLine complete reading
          rw [Upshot.Continues, Gathering.upshot, failed, kept]
          exact gather_badLine wholeSplits reading

/-- A profile without a tail and octets behind it, whatever the tally holds by then.  If the profile
is gathered to its end, gathering the octets behind it next comes to the same tally, the same
failure and the same events as gathering everything at once; the records handed out and passed over
are the sums of both, and the octets left at the end are the same.  If gathering the profile fails,
gathering everything at once fails with the same error and the same tally. -/
theorem gather_one_after_another (system : FileSystem) (tally : Tally) {front : List UInt8}
    {records : List RawRecord} (complete : Profile.Splits front records [])
    (behind : List UInt8) :
    let first := tally.gather system (.new front)
    let second := first.tally.gather system (.new behind)
    let whole := tally.gather system (.new (front ++ behind))
    (first.failure = none →
      whole.failure = second.failure ∧
      whole.tally = second.tally ∧
      whole.events = first.events ++ second.events ∧
      whole.decoder.statistics.records =
        first.decoder.statistics.records + second.decoder.statistics.records ∧
      whole.decoder.statistics.skipped =
        first.decoder.statistics.skipped + second.decoder.statistics.skipped ∧
      whole.decoder.statistics.trailing = second.decoder.statistics.trailing) ∧
    ∀ error, first.failure = some error →
      whole.failure = some error ∧ whole.tally = first.tally := by
  intro first second whole
  have continues : Upshot.Continues system behind first.upshot whole.upshot :=
    gather_continues complete behind
  rw [Upshot.Continues] at continues
  constructor
  · intro succeeded
    have failure : first.upshot.failure = none := succeeded
    rw [failure] at continues
    have whole_eq : whole.upshot =
        second.upshot.after first.events first.decoder.statistics.records
          first.decoder.statistics.skipped := continues
    exact ⟨congrArg Upshot.failure whole_eq, congrArg Upshot.tally whole_eq,
      congrArg Upshot.events whole_eq, congrArg (·.statistics.records) whole_eq,
      congrArg (·.statistics.skipped) whole_eq, congrArg (·.statistics.trailing) whole_eq⟩
  · intro error failed
    have failure : first.upshot.failure = some error := failed
    rw [failure] at continues
    exact continues

/-- A record that is added before one with a bad line number. -/
theorem gather_one_after_another_badLine :
    let front : RawRecord := { tag := Utf8.encode "@a.lua:3", count := 2 }
    let behind : RawRecord := { tag := Utf8.encode "b.lua:x", count := 1 }
    let first := ({ root := ⟨[]⟩ } : Tally).gather .singleDirectory (.new front.encode)
    let whole :=
      ({ root := ⟨[]⟩ } : Tally).gather .singleDirectory (.new (front.encode ++ behind.encode))
    first.failure = none ∧
      whole.failure = some (.badLine "b.lua:x") ∧
      whole.tally = first.tally := by
  intro front behind first whole
  have frontSplits : Profile.Splits front.encode [front] [] :=
    ⟨rfl, by decide +kernel, Profile.incomplete_nil⟩
  have behindSplits : Profile.Splits behind.encode [behind] [] :=
    ⟨rfl, by decide +kernel, Profile.incomplete_nil⟩
  have gathered := gatherAfter_of_splits (splits_new frontSplits) (empty_reflects ⟨[]⟩)
    (nofun : Found .singleDirectory ⟨[]⟩ []) #[]
  have unoffended : [front].findSome? (·.offence? .singleDirectory ⟨[]⟩) = none := by
    decide +kernel
  rw [unoffended] at gathered
  have succeeded : first.failure = none := gathered.1
  have bad : behind.reading = .badLine "b.lua:x" := by decide +kernel
  have second : (first.tally.gather .singleDirectory (.new behind.encode)).failure =
        some (.badLine "b.lua:x") ∧
      (first.tally.gather .singleDirectory (.new behind.encode)).tally = first.tally :=
    gather_badLine behindSplits bad
  have both := (gather_one_after_another .singleDirectory { root := ⟨[]⟩ } frontSplits
    behind.encode).1 succeeded
  exact ⟨succeeded, both.1.trans second.1, both.2.1.trans second.2⟩

end Tally
end LuaCoverage
