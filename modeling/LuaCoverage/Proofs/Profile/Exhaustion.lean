import LuaCoverage.Proofs.Profile.Calls

/-!
# After the end of a profile

A call that hands out no record leaves nothing to read.  Every call after it finds the end at once,
hands out and logs nothing and keeps the figures, but for the length of the tail: this is measured
anew at every call, and from the second on nothing is left to measure.
-/

namespace LuaCoverage
namespace Decoder

/-- A decoder with nothing left to read, which has lost the length of the tail. -/
def emptied (decoder : Decoder) : Decoder :=
  { decoder.exhausted with statistics := { decoder.statistics with trailing := 0 } }

theorem rest_emptied (decoder : Decoder) : decoder.emptied.rest = [] := decoder.rest_exhausted

theorem after_data (calls : Nat) (decoder : Decoder) :
    (decoder.after calls).data = decoder.data := by
  obtain ⟨count, same⟩ := exists_passes_of_after calls decoder
  rw [same, afterPasses_data]

section Emptied

variable {decoder : Decoder} (empty : decoder.rest = [])
include empty

/-- With nothing left, a call finds a tail of no octets. -/
theorem next_eq_emptied :
    decoder.next = { item := .finished, events := [], decoder := decoder.emptied } := by
  have nothing : decoder.data.size - decoder.position = 0 :=
    Nat.sub_eq_zero_of_le (rest_eq_nil_iff.mp empty)
  rw [next_of_rest_nil empty, finish, nothing]
  rfl

theorem after_succ_of_rest_nil (calls : Nat) : decoder.after (calls + 1) = decoder.emptied := by
  induction calls with
  | zero => rw [after_succ, after, next_eq_emptied empty]
  | succ calls ih =>
      rw [after_succ, ih]
      exact congrArg Step.decoder (next_eq_emptied decoder.rest_emptied)

/-- From then on every call does the same. -/
theorem next_after_of_rest_nil (calls : Nat) :
    (decoder.after calls).next =
      { item := .finished, events := [], decoder := decoder.emptied } := by
  cases calls with
  | zero => exact next_eq_emptied empty
  | succ calls =>
      rw [after_succ_of_rest_nil empty]
      exact next_eq_emptied decoder.rest_emptied

/-- The figures stay exactly if there was no tail. -/
theorem statistics_after_eq_iff (calls : Nat) :
    (decoder.after calls).statistics = decoder.statistics ↔
      calls = 0 ∨ decoder.statistics.trailing = 0 := by
  cases calls with
  | zero => exact iff_of_true rfl (Or.inl rfl)
  | succ calls =>
      rw [after_succ_of_rest_nil empty, or_iff_right (Nat.succ_ne_zero calls)]
      constructor
      · intro kept
        exact (congrArg Statistics.trailing kept).symm
      · intro untailed
        rw [emptied, ← untailed]

end Emptied

/-! ## The call that meets the end -/

section Ending

variable {decoder : Decoder} {records : List RawRecord} {tail : List UInt8}

/-- Up to the end every call hands out a record. -/
theorem exists_record_of_lt (splits : Profile.Splits decoder.rest records tail) {call : Nat}
    (before : call < (Profile.handedOut records).length) :
    ∃ record, (decoder.after call).next.item = .record record := by
  have inside : call < ((Profile.handedOut records).map Item.record).length := by
    rwa [List.length_map]
  rw [item_after splits, Profile.script, List.getElem?_append_left inside, List.getElem?_map,
    List.getElem?_eq_getElem before]
  exact ⟨_, rfl⟩

theorem item_at_end (splits : Profile.Splits decoder.rest records tail) :
    (decoder.after (Profile.handedOut records).length).next.item =
      match Profile.failure? records with
      | none => .finished
      | some body => .badLine body := by
  have behind : ((Profile.handedOut records).map Item.record).length ≤
      (Profile.handedOut records).length := by rw [List.length_map]
  rw [item_after splits, Profile.script, List.getElem?_append_right behind, List.length_map,
    Nat.sub_self]
  cases Profile.failure? records <;> rfl

theorem rest_at_end (splits : Profile.Splits decoder.rest records tail) :
    (decoder.after ((Profile.handedOut records).length + 1)).rest = [] := by
  rw [after_succ]
  apply (next_calls _).exhausted
  intro record
  rw [item_at_end splits]
  cases Profile.failure? records <;> nofun

/-- A bad line number leaves the length of the tail as it was. -/
theorem trailing_of_failure (splits : Profile.Splits decoder.rest records tail) {body : String}
    (failed : Profile.failure? records = some body) :
    (decoder.after ((Profile.handedOut records).length + 1)).statistics.trailing =
      decoder.statistics.trailing := by
  induction records using Profile.reading_induction generalizing decoder with
  | nil => cases failed
  | passed record records reading ih =>
      rw [Profile.failure?_passed reading] at failed
      rw [Profile.handedOut_passed reading, after_succ_of_again (pass_of_passed splits reading)]
      have remaining : Profile.Splits (decoder.behind record).passed.rest records tail :=
        splits_behind splits
      exact ih remaining failed
  | located record records source line reading ih =>
      rw [Profile.failure?_located reading] at failed
      rw [Profile.handedOut_located reading, List.length_cons, after,
        next_of_located splits reading]
      have remaining : Profile.Splits (decoder.behind record).yielded.rest records tail :=
        splits_behind splits
      exact ih remaining failed
  | badLine record records other reading _ =>
      rw [Profile.handedOut_badLine reading, List.length_nil, after,
        next_of_badLine splits reading]
      rfl

end Ending

end Decoder

namespace Profile

open Decoder in
/-- The end of any profile and every call after it.  The calls before the end hand out records; the
call that meets the end hands out a bad line number or nothing, and in the second case it leaves the
length of the tail in the figures.  All further calls hand out nothing, log nothing, and leave the
figures as they are but for the length of the tail, which is then zero.  So the figures last just
for a profile without a tail or with a bad line number. -/
theorem decoding_stays_at_end (octets : List UInt8) :
    ∃ (records : List RawRecord) (tail : List UInt8),
      Splits octets records tail ∧
      let ending := (handedOut records).length
      let ended := after (ending + 1) (.new octets)
      (∀ call < ending, ∃ record, (after call (.new octets)).next.item = .record record) ∧
      (after ending (.new octets)).next.item =
        (match failure? records with
        | none => .finished
        | some body => .badLine body) ∧
      ended.statistics.trailing = (if failure? records = none then tail.length else 0) ∧
      (∀ calls, (after calls ended).next =
        { item := .finished
          events := []
          decoder :=
            { data := octets.toArray
              position := octets.length
              statistics := { ended.statistics with trailing := 0 } } }) ∧
      (∀ calls, (after calls ended).statistics = ended.statistics ↔
        calls = 0 ∨ tail = [] ∨ failure? records ≠ none) := by
  have splits : Splits (new octets).rest (split octets).1 (split octets).2 := splits_split octets
  refine ⟨(split octets).1, (split octets).2, splits, ?_⟩
  intro ending ended
  have empty : ended.rest = [] := rest_at_end splits
  have trailing : ended.statistics.trailing =
      if failure? (split octets).1 = none then (split octets).2.length else 0 := by
    cases outcome : failure? (split octets).1 with
    | none =>
        rw [if_pos rfl]
        exact congrArg (·.statistics.trailing) (after_end splits outcome)
    | some body =>
        rw [if_neg nofun]
        exact trailing_of_failure splits outcome
  refine ⟨fun call before => exists_record_of_lt splits before, item_at_end splits, trailing,
    fun calls => ?_, fun calls => ?_⟩
  · have same : ended.data = octets.toArray := after_data (ending + 1) (new octets)
    rw [next_after_of_rest_nil empty, emptied, exhausted, same]
    rfl
  rw [statistics_after_eq_iff empty, trailing]
  cases failure? (split octets).1 with
  | none => simp
  | some body => simp

open Decoder in
/-- Three octets are counted as the tail by the first call and forgotten by the second. -/
theorem trailing_forgotten :
    let ended := after 1 (.new [0xFF, 0xFF, 0xFF])
    (after 0 (.new [0xFF, 0xFF, 0xFF])).next.item = .finished ∧
      ended.statistics.trailing = 3 ∧ (after 1 ended).statistics.trailing = 0 := by
  intro ended
  have splits : Splits (new [0xFF, 0xFF, 0xFF]).rest [] [0xFF, 0xFF, 0xFF] :=
    ⟨rfl, nofun, incomplete_of_length_lt (by decide)⟩
  have ending : ended = ((new [0xFF, 0xFF, 0xFF]).finish 0).decoder :=
    congrArg Step.decoder (next_of_tail splits)
  have again : after 1 ended = ended.emptied := after_succ_of_rest_nil (by rw [ending]; rfl) 0
  refine ⟨?_, ?_, ?_⟩
  · rw [after, next_of_tail splits]
    rfl
  · rw [ending]
    rfl
  · rw [again]
    rfl

end Profile
end LuaCoverage
