import LuaCoverage.Proofs.Coverage.Accounting
import LuaCoverage.Proofs.Coverage.InPlace

/-!
# Gathering again after failures

Gathering stops at a record that is refused and leaves the decoder right behind it.  Gathering again
goes on from there, so that after any number of calls every record that the decoder hands out was
tried once: its hits are in the tally, or its error was reported.
-/

namespace LuaCoverage
namespace Tally

/-! ## Calls until nothing fails -/

theorem remaining_lt_of_failure {systems : Nat → FileSystem} {tally : Tally} {decoder : Decoder}
    {error : Error} (failed : (tally.gatherAlong systems decoder).failure = some error) :
    (tally.gatherAlong systems decoder).decoder.remaining < decoder.remaining := by
  obtain ⟨yielded, accounts⟩ := gatherAlong_accounts systems tally decoder
  exact accounts.remaining_lt (ne_of_eq_of_ne failed nofun)

/-- Gather again after every failure, each time on file systems of the call's own. -/
def gatherings (systems : Nat → Nat → FileSystem) (tally : Tally) (decoder : Decoder) :
    List Gathering :=
  let gathering := tally.gatherAlong (systems 0) decoder
  match _failed : gathering.failure with
  | none => [gathering]
  | some _ =>
      gathering :: gatherings (fun call => systems (call + 1)) gathering.tally gathering.decoder
termination_by decoder.remaining
decreasing_by exact remaining_lt_of_failure _failed

/-- Every record is tried once; one that is refused ends a call, and the file systems of the next
call follow. -/
def tries (current : Nat → FileSystem) (following : Nat → Nat → FileSystem) (tally : Tally) :
    List Record → List Attempt
  | [] => []
  | record :: records =>
      { system := current 0, record } ::
        match tally.add (current 0) record with
        | .ok (grown, _) => grown.tries (fun later => current (later + 1)) following records
        | .error _ => tally.tries (following 0) (fun call => following (call + 1)) records

section Series

variable {systems : Nat → Nat → FileSystem} {tally : Tally} {decoder : Decoder}

theorem gatherings_of_none (ended : (tally.gatherAlong (systems 0) decoder).failure = none) :
    tally.gatherings systems decoder = [tally.gatherAlong (systems 0) decoder] := by
  rw [gatherings]
  split <;> simp_all

theorem gatherings_of_some {error : Error}
    (failed : (tally.gatherAlong (systems 0) decoder).failure = some error) :
    tally.gatherings systems decoder =
      tally.gatherAlong (systems 0) decoder ::
        (tally.gatherAlong (systems 0) decoder).tally.gatherings (fun call => systems (call + 1))
          (tally.gatherAlong (systems 0) decoder).decoder := by
  rw [gatherings]
  split <;> simp_all

end Series

section Tries

variable {current : Nat → FileSystem} {following : Nat → Nat → FileSystem} {tally : Tally}

theorem map_record_tries (current : Nat → FileSystem) (following : Nat → Nat → FileSystem)
    (tally : Tally) (records : List Record) :
    (tally.tries current following records).map (·.record) = records := by
  induction records generalizing current following tally with
  | nil => rfl
  | cons record records ih =>
      rw [tries, List.map_cons]
      split <;> rw [ih]

theorem tries_of_error {record : Record} {error : Error}
    (refused : tally.add (current 0) record = .error error) (records : List Record) :
    tally.tries current following (record :: records) =
      { system := current 0, record } ::
        tally.tries (following 0) (fun call => following (call + 1)) records := by
  rw [tries, refused]

/-- Records that are all accepted are tried in one call. -/
theorem tries_append {yielded : List Record}
    (unrefused : tally.refusals (attemptsAlong current yielded) = [])
    (following : Nat → Nat → FileSystem) (more : List Record) :
    tally.tries current following (yielded ++ more) =
      attemptsAlong current yielded ++
        (tally.run (attemptsAlong current yielded)).tries
          (fun later => current (later + yielded.length)) following more := by
  induction yielded generalizing current tally with
  | nil => rfl
  | cons record yielded ih =>
      let attempt : Attempt := { system := current 0, record }
      have front : attemptsAlong current (record :: yielded) =
          attempt :: attemptsAlong (fun later => current (later + 1)) yielded := rfl
      rw [front] at unrefused
      cases added : tally.add (current 0) record with
      | error error =>
          have refused : tally.add attempt.system attempt.record = .error error := added
          rw [refusals_of_error refused] at unrefused
          cases unrefused
      | ok parts =>
          obtain ⟨grown, events⟩ := parts
          have grew : tally.add attempt.system attempt.record = .ok (grown, events) := added
          rw [refusals_of_ok grew] at unrefused
          rw [front, List.cons_append, tries, added, List.cons_append, run_cons,
            attempt_of_ok grew]
          exact congrArg _ (ih unrefused)

theorem tries_of_unrefused {yielded : List Record}
    (unrefused : tally.refusals (attemptsAlong current yielded) = []) :
    tally.tries current following yielded = attemptsAlong current yielded := by
  have tried := tries_append unrefused following []
  rwa [List.append_nil, tries, List.append_nil] at tried

end Tries

/-- What calls come to that follow each other until nothing fails. -/
structure Settles (systems : Nat → Nat → FileSystem) (tally : Tally) (decoder : Decoder)
    (records : List Record) (bad : Option String) (calls : List Gathering) : Prop where
  /-- The errors are those of the records that are refused, and a bad line number. -/
  errors : calls.filterMap Gathering.failure =
    tally.refusals (tally.tries (systems 0) (fun call => systems (call + 1)) records) ++
      (bad.map Error.badLine).toList
  /-- After the last call every record has been tried and handed out. -/
  last : ∃ last, calls.getLast? = some last ∧
    last.failure = none ∧
    last.tally = tally.run (tally.tries (systems 0) (fun call => systems (call + 1)) records) ∧
    last.decoder.statistics.records = decoder.statistics.records + records.length

section Settles

variable {systems : Nat → Nat → FileSystem} {tally : Tally} {decoder : Decoder}

section First

variable {yielded : List Record}
  (accounts : (tally.gatherAlong (systems 0) decoder).Accounts (systems 0) tally decoder yielded)
include accounts

theorem settles_of_finished
    (item : (decoder.after yielded.length).next.item = .finished) :
    Settles systems tally decoder yielded none (tally.gatherings systems decoder) := by
  have ended := accounts.failure_eq_none_iff.mpr item
  have counted := accounts.records_eq (by rw [item]; exact nofun)
  rw [gatherings_of_none ended]
  refine ⟨?_, _, rfl, ended, ?_, counted⟩
  · rw [List.filterMap_cons_none ended, tries_of_unrefused accounts.unrefused,
      accounts.unrefused]
    rfl
  · rw [tries_of_unrefused accounts.unrefused]
    exact accounts.merged

theorem settles_of_badLine {tag : String} {calls : List Gathering}
    (item : (decoder.after yielded.length).next.item = .badLine tag)
    (settled : Settles (fun call => systems (call + 1))
      (tally.gatherAlong (systems 0) decoder).tally
      (tally.gatherAlong (systems 0) decoder).decoder [] none calls) :
    Settles systems tally decoder yielded (some tag)
      (tally.gatherAlong (systems 0) decoder :: calls) := by
  have failed := accounts.ending
  rw [item] at failed
  have counted := accounts.records_eq (by rw [item]; exact nofun)
  obtain ⟨errors, last, isLast, ended, merged, records⟩ := settled
  refine ⟨?_, last, ?_, ended, ?_, ?_⟩
  · rw [List.filterMap_cons_some failed, errors, tries_of_unrefused accounts.unrefused,
      accounts.unrefused]
    rfl
  · rw [List.getLast?_cons, isLast]
    rfl
  · rw [merged, tries_of_unrefused accounts.unrefused, ← accounts.merged]
    rfl
  · rw [records, counted]
    rfl

theorem settles_of_record {record : Record} {more : List Record} {bad : Option String}
    {calls : List Gathering}
    (item : (decoder.after yielded.length).next.item = .record record)
    (settled : Settles (fun call => systems (call + 1))
      (tally.gatherAlong (systems 0) decoder).tally
      (tally.gatherAlong (systems 0) decoder).decoder more bad calls) :
    Settles systems tally decoder (yielded ++ record :: more) bad
      (tally.gatherAlong (systems 0) decoder :: calls) := by
  have ending := accounts.ending
  rw [item] at ending
  obtain ⟨error, refused, failed⟩ := ending
  rw [← Nat.zero_add yielded.length] at refused
  have tried := tries_append accounts.unrefused (fun call => systems (call + 1)) (record :: more)
  rw [← accounts.merged, tries_of_error refused] at tried
  have counted := accounts.records_eq_of_record item
  obtain ⟨errors, last, isLast, ended, merged, records⟩ := settled
  refine ⟨?_, last, ?_, ended, ?_, ?_⟩
  · rw [List.filterMap_cons_some failed, errors, tried, accounts.refusals_append,
      refusals_of_error refused, List.cons_append]
  · rw [List.getLast?_cons, isLast]
    rfl
  · rw [merged, tried, accounts.run_append, run_cons, attempt_of_error refused]
  · rw [records, counted, List.length_append, List.length_cons]
    omega

end First

theorem gatherings_settle {records : List Record} {bad : Option String}
    (handsOut : decoder.HandsOut records bad) :
    Settles systems tally decoder records bad (tally.gatherings systems decoder) := by
  induction size : decoder.remaining using Nat.strongRecOn
    generalizing systems tally decoder records bad with
  | ind size ih =>
      subst size
      obtain ⟨yielded, accounts⟩ := gatherAlong_accounts (systems 0) tally decoder
      obtain ⟨more, rfl, behind⟩ := handsOut.exists_append accounts.items
      have ending := accounts.ending
      cases item : (decoder.after yielded.length).next.item with
      | finished =>
          obtain ⟨rfl, rfl⟩ := behind.of_finished item
          rw [List.append_nil]
          exact settles_of_finished accounts item
      | badLine tag =>
          obtain ⟨rfl, rfl⟩ := behind.of_badLine item
          rw [item] at ending
          have empty := accounts.rest_eq_nil (by rw [item]; exact nofun)
          rw [List.append_nil, gatherings_of_some ending]
          exact settles_of_badLine accounts item
            (ih _ (remaining_lt_of_failure ending) (Decoder.handsOut_nil empty) rfl)
      | record record =>
          obtain ⟨others, rfl, later⟩ := behind.of_record item
          rw [item] at ending
          obtain ⟨error, -, failed⟩ := ending
          rw [← accounts.decoder_eq] at later
          rw [gatherings_of_some failed]
          exact settles_of_record accounts item (ih _ (remaining_lt_of_failure failed) later rfl)

end Settles

/-- A decoder with nothing left adds nothing. -/
theorem gatherAlong_of_rest_nil {decoder : Decoder} (empty : decoder.rest = [])
    (systems : Nat → FileSystem) (tally : Tally) :
    (tally.gatherAlong systems decoder).failure = none ∧
      (tally.gatherAlong systems decoder).tally = tally := by
  have handed := Decoder.next_of_rest_nil empty
  rw [gatherAlong, gatherAfter_finished handed]
  exact ⟨rfl, rfl⟩

/-- A record that is refused changes nothing, even though an addition works in place.  A call adds
all records that the decoder hands out before one is refused, a line number is bad or the end is
met, each on a file system of its own; behind the credits of earlier attempts come theirs, and the
tally has the files and the hits of these credits.  Behind a refused record the decoder goes on with
the next one, and it has counted one record more than the tally; behind a bad line number and at the
end it has counted as many, and after a bad line number another call adds nothing.  Calls that
follow each other until nothing fails try every record once: its hits are in the tally, or its error
is reported. -/
theorem gathering_loses_no_record :
    (∀ (system : FileSystem) (tally later : Tally) (record : Record) (error : Error),
      (addInPlace system record).run tally = .error error later →
        later = tally ∧ tally.add system record = .error error) ∧
    (∀ (systems : Nat → FileSystem) (tally : Tally) (decoder : Decoder),
      let gathering := tally.gatherAlong systems decoder
      ∃ yielded : List Record,
        gathering.Accounts systems tally decoder yielded ∧
        (∀ root earlier, tally = run { root } earlier →
          ∃ added : List Credit, added.map (·.record) = yielded ∧
            Attempt.credits root (earlier ++ attemptsAlong systems yielded) =
              Attempt.credits root earlier ++ added ∧
            gathering.tally.Reflects root (Attempt.credits root earlier ++ added)) ∧
        gathering.tally.points = tally.points + yielded.length ∧
        match (decoder.after yielded.length).next.item with
        | .record _ =>
            gathering.decoder.statistics.records =
              decoder.statistics.records + yielded.length + 1 ∧
            ∀ call, gathering.decoder.after call = decoder.after (yielded.length + 1 + call)
        | .badLine _ =>
            gathering.decoder.statistics.records = decoder.statistics.records + yielded.length ∧
            ∀ others, (gathering.tally.gatherAlong others gathering.decoder).failure = none ∧
              (gathering.tally.gatherAlong others gathering.decoder).tally = gathering.tally
        | .finished =>
            gathering.decoder.statistics.records =
              decoder.statistics.records + yielded.length) ∧
    ∀ (systems : Nat → Nat → FileSystem) (tally : Tally) (decoder : Decoder),
      ∃ records bad, decoder.HandsOut records bad ∧
        let attempts := tally.tries (systems 0) (fun call => systems (call + 1)) records
        (tally.outcomes attempts).map (·.1) = records ∧
        Settles systems tally decoder records bad (tally.gatherings systems decoder) ∧
        (tally.run attempts).points + (tally.refusals attempts).length =
          tally.points + records.length ∧
        ∀ root earlier, tally = run { root } earlier →
          ∃ added : List Credit, added.map (·.record) = tally.accepted attempts ∧
            (tally.run attempts).Reflects root (Attempt.credits root earlier ++ added) := by
  refine ⟨?_, ?_, ?_⟩
  · exact fun _ _ _ _ _ failed => add_of_addInPlace_error failed
  · intro systems tally decoder gathering
    obtain ⟨yielded, accounts⟩ := gatherAlong_accounts systems tally decoder
    refine ⟨yielded, accounts, ?_, accounts.points, ?_⟩
    · rintro root earlier rfl
      exact accounts.reflects
    split
    · next record item =>
        refine ⟨accounts.records_eq_of_record item, ?_⟩
        intro call
        rw [accounts.position, ← Decoder.after_add]
    · next tag item =>
        have other : ∀ record, (decoder.after yielded.length).next.item ≠ .record record := by
          rw [item]
          exact nofun
        exact ⟨accounts.records_eq other, fun systems =>
          gatherAlong_of_rest_nil (accounts.rest_eq_nil other) systems gathering.tally⟩
    · next item => exact accounts.records_eq (by rw [item]; exact nofun)
  · intro systems tally decoder
    obtain ⟨records, bad, handsOut⟩ := decoder.exists_handsOut
    refine ⟨records, bad, handsOut, ?_⟩
    intro attempts
    have tried : attempts.map (·.record) = records := map_record_tries _ _ tally records
    have length : attempts.length = records.length := by rw [← tried, List.length_map]
    have sum := tally.points_run attempts
    rw [length] at sum
    refine ⟨(tally.map_fst_outcomes attempts).trans tried, gatherings_settle handsOut, sum, ?_⟩
    rintro root earlier rfl
    obtain ⟨added, accepted, -, holds⟩ := exists_credits_run root earlier attempts
    exact ⟨added, accepted, holds⟩

end Tally
end LuaCoverage
