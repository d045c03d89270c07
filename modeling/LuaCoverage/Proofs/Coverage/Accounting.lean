import LuaCoverage.Proofs.Coverage.Gathering
import LuaCoverage.Proofs.Coverage.Run
import LuaCoverage.Proofs.Profile.Calls

/-!
# What gathering accounts for

Of any attempts, those that fail are refusals and the records of all others are accepted: they are
credited, in order, behind what was credited before.  Gathering adds the records that a decoder
hands out, none of which is refused, and stops at the end, at a bad line number or at a record that
is refused, right behind what it has met.
-/

namespace LuaCoverage

/-- Attempts to add records, each on the file system as it is by then. -/
def attemptsAlong (systems : Nat → FileSystem) : List Record → List Attempt
  | [] => []
  | record :: records =>
      { system := systems 0, record } :: attemptsAlong (fun later => systems (later + 1)) records

theorem map_record_attemptsAlong (systems : Nat → FileSystem) (records : List Record) :
    (attemptsAlong systems records).map (·.record) = records := by
  induction records generalizing systems with
  | nil => rfl
  | cons record records ih => rw [attemptsAlong, List.map_cons, ih]

theorem length_attemptsAlong (systems : Nat → FileSystem) (records : List Record) :
    (attemptsAlong systems records).length = records.length := by
  rw [← List.length_map (·.record), map_record_attemptsAlong]

namespace Tally

theorem run_cons (tally : Tally) (attempt : Attempt) (attempts : List Attempt) :
    tally.run (attempt :: attempts) = (tally.attempt attempt).run attempts := rfl

theorem run_run (tally : Tally) (first second : List Attempt) :
    (tally.run first).run second = tally.run (first ++ second) :=
  List.foldl_append.symm

/-! ## Outcomes -/

/-- The records of some attempts, each with the error if its attempt fails. -/
def outcomes (tally : Tally) : List Attempt → List (Record × Option Error)
  | [] => []
  | attempt :: attempts =>
      match tally.add attempt.system attempt.record with
      | .ok (grown, _) => (attempt.record, none) :: grown.outcomes attempts
      | .error error => (attempt.record, some error) :: tally.outcomes attempts

/-- The errors of the attempts that fail. -/
def refusals (tally : Tally) (attempts : List Attempt) : List Error :=
  (tally.outcomes attempts).filterMap (·.2)

/-- The records of the attempts that succeed. -/
def accepted (tally : Tally) (attempts : List Attempt) : List Record :=
  ((tally.outcomes attempts).filter (·.2.isNone)).map (·.1)

section Outcomes

variable {tally grown : Tally} {attempt : Attempt} {error : Error} {events : List Event}

theorem outcomes_of_ok (added : tally.add attempt.system attempt.record = .ok (grown, events))
    (attempts : List Attempt) :
    tally.outcomes (attempt :: attempts) = (attempt.record, none) :: grown.outcomes attempts := by
  rw [outcomes, added]

theorem outcomes_of_error (refused : tally.add attempt.system attempt.record = .error error)
    (attempts : List Attempt) :
    tally.outcomes (attempt :: attempts) =
      (attempt.record, some error) :: tally.outcomes attempts := by
  rw [outcomes, refused]

theorem refusals_of_ok (added : tally.add attempt.system attempt.record = .ok (grown, events))
    (attempts : List Attempt) : tally.refusals (attempt :: attempts) = grown.refusals attempts := by
  rw [refusals, outcomes_of_ok added]
  rfl

theorem refusals_of_error (refused : tally.add attempt.system attempt.record = .error error)
    (attempts : List Attempt) :
    tally.refusals (attempt :: attempts) = error :: tally.refusals attempts := by
  rw [refusals, outcomes_of_error refused]
  rfl

theorem accepted_of_ok (added : tally.add attempt.system attempt.record = .ok (grown, events))
    (attempts : List Attempt) :
    tally.accepted (attempt :: attempts) = attempt.record :: grown.accepted attempts := by
  rw [accepted, outcomes_of_ok added]
  rfl

theorem accepted_of_error (refused : tally.add attempt.system attempt.record = .error error)
    (attempts : List Attempt) :
    tally.accepted (attempt :: attempts) = tally.accepted attempts := by
  rw [accepted, outcomes_of_error refused]
  rfl

theorem map_fst_outcomes (tally : Tally) (attempts : List Attempt) :
    (tally.outcomes attempts).map (·.1) = attempts.map (·.record) := by
  induction attempts generalizing tally with
  | nil => rfl
  | cons attempt attempts ih =>
      cases added : tally.add attempt.system attempt.record with
      | error error => rw [outcomes_of_error added, List.map_cons, List.map_cons, ih]
      | ok parts => rw [outcomes_of_ok added, List.map_cons, List.map_cons, ih]

theorem refusals_append (tally : Tally) (first second : List Attempt) :
    tally.refusals (first ++ second) =
      tally.refusals first ++ (tally.run first).refusals second := by
  induction first generalizing tally with
  | nil => rfl
  | cons attempt first ih =>
      rw [List.cons_append, run_cons]
      cases added : tally.add attempt.system attempt.record with
      | error error =>
          rw [refusals_of_error added, refusals_of_error added, attempt_of_error added, ih,
            List.cons_append]
      | ok parts => rw [refusals_of_ok added, refusals_of_ok added, attempt_of_ok added, ih]

/-- Without a refusal all records are accepted. -/
theorem accepted_eq_of_refusals_eq_nil {attempts : List Attempt}
    (unrefused : tally.refusals attempts = []) :
    tally.accepted attempts = attempts.map (·.record) := by
  have fine : ∀ outcome ∈ tally.outcomes attempts, outcome.2.isNone := by
    intro outcome member
    have nothing := List.filterMap_eq_nil_iff.mp unrefused outcome member
    rw [nothing]
    rfl
  rw [accepted, List.filter_eq_self.mpr fine, map_fst_outcomes]

theorem points_add {system : FileSystem} {record : Record}
    (added : tally.add system record = .ok (grown, events)) :
    grown.points = tally.points + 1 := by
  obtain ⟨index, located, locates, rfl⟩ := exists_locates_of_add added
  cases locates <;> rfl

/-- Every attempt is a point or a refusal. -/
theorem points_run (tally : Tally) (attempts : List Attempt) :
    (tally.run attempts).points + (tally.refusals attempts).length =
      tally.points + attempts.length := by
  induction attempts generalizing tally with
  | nil => rfl
  | cons attempt attempts ih =>
      rw [run_cons]
      cases added : tally.add attempt.system attempt.record with
      | error error =>
          have rest := ih tally
          rw [refusals_of_error added, attempt_of_error added, List.length_cons, List.length_cons]
          omega
      | ok parts =>
          have rest := ih parts.1
          have grown := points_add added
          rw [refusals_of_ok added, attempt_of_ok added, List.length_cons]
          omega

open Attempt in
/-- Further attempts leave the credits of earlier ones, and credit the records they accept. -/
theorem exists_credits_append (root : Path) (earlier attempts : List Attempt) :
    ∃ added, credits root (earlier ++ attempts) = credits root earlier ++ added ∧
      added.map (·.record) = (run { root } earlier).accepted attempts := by
  induction attempts generalizing earlier with
  | nil => exact ⟨[], by rw [List.append_nil, List.append_nil], rfl⟩
  | cons attempt attempts ih =>
      obtain ⟨added, credited, records⟩ := ih (earlier ++ [attempt])
      have found := add_isOk_iff root earlier attempt
      rw [List.append_assoc, List.singleton_append] at credited
      rw [run_append] at records
      cases outcome : (run { root } earlier).add attempt.system attempt.record with
      | error error =>
          have unknown :
              firstFound root (earlier ++ [attempt]) attempt.record.source = none := by
            rw [Option.eq_none_iff_forall_ne_some]
            intro path known
            obtain ⟨result, succeeded⟩ := found.mpr ⟨path, known⟩
            rw [outcome] at succeeded
            cases succeeded
          rw [credits_append_of_none unknown] at credited
          rw [attempt_of_error outcome] at records
          exact ⟨added, credited, records.trans (accepted_of_error outcome attempts).symm⟩
      | ok parts =>
          obtain ⟨path, known⟩ := found.mp ⟨parts, outcome⟩
          rw [credits_append_of_some known, List.append_assoc] at credited
          rw [attempt_of_ok outcome] at records
          refine ⟨⟨attempt.record, path⟩ :: added, credited, ?_⟩
          rw [List.map_cons, records, accepted_of_ok outcome]

/-- After further attempts the tally has the files and the hits of the records they accept behind
those of earlier ones. -/
theorem exists_credits_run (root : Path) (earlier attempts : List Attempt) :
    ∃ added : List Credit, added.map (·.record) = (run { root } earlier).accepted attempts ∧
      Attempt.credits root (earlier ++ attempts) = Attempt.credits root earlier ++ added ∧
      ((run { root } earlier).run attempts).Reflects root
        (Attempt.credits root earlier ++ added) := by
  obtain ⟨added, credited, records⟩ := exists_credits_append root earlier attempts
  have holds := (run_reflects root (earlier ++ attempts)).1
  rw [← run_run, credited] at holds
  exact ⟨added, records, credited, holds⟩

end Outcomes

/-! ## One call -/

/-- What gathering does: it yields records and adds them all, up to an item that ends it. -/
structure Gathering.Accounts (systems : Nat → FileSystem) (tally : Tally) (decoder : Decoder)
    (yielded : List Record) (gathering : Gathering) : Prop where
  /-- The records are what the decoder hands out call after call. -/
  items : ∀ index record, yielded[index]? = some record →
    (decoder.after index).next.item = .record record
  /-- None of them is refused. -/
  unrefused : tally.refusals (attemptsAlong systems yielded) = []
  /-- The tally holds what it held before and these records. -/
  merged : gathering.tally = tally.run (attemptsAlong systems yielded)
  /-- The decoder has handed out one item more. -/
  position : gathering.decoder = decoder.after (yielded.length + 1)
  /-- This item is the end, a bad line number or a record that is refused. -/
  ending : match (decoder.after yielded.length).next.item with
    | .finished => gathering.failure = none
    | .badLine tag => gathering.failure = some (.badLine tag)
    | .record record => ∃ error,
        gathering.tally.add (systems yielded.length) record = .error error ∧
        gathering.failure = some error

section Call

variable {systems : Nat → FileSystem} {tally grown : Tally} {decoder : Decoder}
  {yielded : List Record} {gathering : Gathering} {record : Record} {events : List Event}

namespace Gathering.Accounts

/-- A record that is added before all others. -/
theorem cons (item : decoder.next.item = .record record)
    (added : tally.add (systems 0) record = .ok (grown, events))
    (accounts : gathering.Accounts (fun later => systems (later + 1)) grown decoder.next.decoder
      yielded) :
    gathering.Accounts systems tally decoder (record :: yielded) where
  items index other found := by
    cases index with
    | zero =>
        cases found
        exact item
    | succ index => exact accounts.items index other found
  unrefused := (refusals_of_ok added _).trans accounts.unrefused
  merged := by
    have grew : tally.attempt { system := systems 0, record } = grown := attempt_of_ok added
    rw [accounts.merged, attemptsAlong, run_cons, grew]
  position := accounts.position
  ending := accounts.ending

theorem points (accounts : gathering.Accounts systems tally decoder yielded) :
    gathering.tally.points = tally.points + yielded.length := by
  have sum := tally.points_run (attemptsAlong systems yielded)
  rw [accounts.unrefused, ← accounts.merged, length_attemptsAlong] at sum
  exact sum

/-- All records are credited behind what was credited before. -/
theorem reflects {root : Path} {earlier : List Attempt}
    (accounts : gathering.Accounts systems (run { root } earlier) decoder yielded) :
    ∃ added : List Credit, added.map (·.record) = yielded ∧
      Attempt.credits root (earlier ++ attemptsAlong systems yielded) =
        Attempt.credits root earlier ++ added ∧
      gathering.tally.Reflects root (Attempt.credits root earlier ++ added) := by
  have run := exists_credits_run root earlier (attemptsAlong systems yielded)
  rwa [accepted_eq_of_refusals_eq_nil accounts.unrefused, map_record_attemptsAlong,
    ← accounts.merged] at run

/-- What is refused behind the records is refused by the tally that holds them. -/
theorem refusals_append (accounts : gathering.Accounts systems tally decoder yielded)
    (later : List Attempt) :
    tally.refusals (attemptsAlong systems yielded ++ later) = gathering.tally.refusals later := by
  rw [Tally.refusals_append, accounts.unrefused, List.nil_append, accounts.merged]

theorem run_append (accounts : gathering.Accounts systems tally decoder yielded)
    (later : List Attempt) :
    tally.run (attemptsAlong systems yielded ++ later) = gathering.tally.run later := by
  rw [← run_run, accounts.merged]

/-- The decoder has made one call more than there are records. -/
theorem decoder_eq (accounts : gathering.Accounts systems tally decoder yielded) :
    gathering.decoder = (decoder.after yielded.length).next.decoder := by
  rw [accounts.position, Decoder.after_succ]

theorem records_eq_of_record (accounts : gathering.Accounts systems tally decoder yielded)
    (item : (decoder.after yielded.length).next.item = .record record) :
    gathering.decoder.statistics.records = decoder.statistics.records + yielded.length + 1 := by
  rw [accounts.decoder_eq, (Decoder.next_calls _).counted record item,
    Decoder.records_after_of_items accounts.items]

theorem records_eq (accounts : gathering.Accounts systems tally decoder yielded)
    (other : ∀ record, (decoder.after yielded.length).next.item ≠ .record record) :
    gathering.decoder.statistics.records = decoder.statistics.records + yielded.length := by
  rw [accounts.decoder_eq, (Decoder.next_calls _).uncounted other,
    Decoder.records_after_of_items accounts.items]

theorem rest_eq_nil (accounts : gathering.Accounts systems tally decoder yielded)
    (other : ∀ record, (decoder.after yielded.length).next.item ≠ .record record) :
    gathering.decoder.rest = [] := by
  rw [accounts.decoder_eq]
  exact (Decoder.next_calls _).exhausted other

theorem failure_eq_none_iff (accounts : gathering.Accounts systems tally decoder yielded) :
    gathering.failure = none ↔ (decoder.after yielded.length).next.item = .finished := by
  have ending := accounts.ending
  cases item : (decoder.after yielded.length).next.item with
  | finished =>
      rw [item] at ending
      exact iff_of_true ending rfl
  | badLine tag =>
      rw [item] at ending
      rw [ending]
      exact iff_of_false nofun nofun
  | record record =>
      rw [item] at ending
      obtain ⟨error, -, failed⟩ := ending
      rw [failed]
      exact iff_of_false nofun nofun

/-- A failure leaves fewer octets. -/
theorem remaining_lt (accounts : gathering.Accounts systems tally decoder yielded)
    (failed : gathering.failure ≠ none) :
    gathering.decoder.remaining < decoder.remaining := by
  rw [accounts.decoder_eq]
  have started := (decoder.after_suffix yielded.length).length_le
  rw [Decoder.length_rest, Decoder.length_rest] at started
  have shorter := (Decoder.next_calls _).progress (mt accounts.failure_eq_none_iff.mpr failed)
  exact Nat.lt_of_lt_of_le shorter started

end Gathering.Accounts

theorem gatherAfter_accounts (systems : Nat → FileSystem) (earlier : Array Event) (tally : Tally)
    (decoder : Decoder) :
    ∃ yielded,
      (tally.gatherAfter systems earlier decoder).Accounts systems tally decoder yielded := by
  induction size : decoder.remaining using Nat.strongRecOn
    generalizing systems earlier tally decoder with
  | ind size ih =>
      subst size
      cases handed : decoder.next with
      | mk item events after =>
          have handedItem : decoder.next.item = item := by rw [handed]
          have handedDecoder : decoder.next.decoder = after := by rw [handed]
          cases item with
          | finished =>
              refine ⟨[], ?_⟩
              rw [gatherAfter_finished handed]
              exact ⟨nofun, rfl, rfl, handedDecoder.symm, by simp [Decoder.after, handedItem]⟩
          | badLine tag =>
              refine ⟨[], ?_⟩
              rw [gatherAfter_badLine handed]
              exact ⟨nofun, rfl, rfl, handedDecoder.symm, by simp [Decoder.after, handedItem]⟩
          | record record =>
              rw [gatherAfter_record handed]
              cases added : tally.add (systems 0) record with
              | error error =>
                  refine ⟨[], nofun, rfl, rfl, handedDecoder.symm, ?_⟩
                  simp [Decoder.after, handedItem, added]
              | ok parts =>
                  obtain ⟨grown, additions⟩ := parts
                  have shorter := Decoder.remaining_lt_of_next handed
                  obtain ⟨yielded, accounts⟩ := ih _ shorter (fun later => systems (later + 1))
                    (earlier ++ events ++ additions) grown after rfl
                  rw [← handedDecoder] at accounts
                  rw [← handedDecoder]
                  exact ⟨record :: yielded, accounts.cons handedItem added⟩

theorem gatherAlong_accounts (systems : Nat → FileSystem) (tally : Tally) (decoder : Decoder) :
    ∃ yielded, (tally.gatherAlong systems decoder).Accounts systems tally decoder yielded :=
  gatherAfter_accounts systems #[] tally decoder

end Call

end Tally
end LuaCoverage
