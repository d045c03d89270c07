import LuaCoverage.Proofs.Profile.Position
import LuaCoverage.Proofs.Profile.Reading

/-!
# Passes of a decoder

The loop of a step is taken apart into passes, each of which meets one complete record or the tail.
A pass never leaves the octets and never goes back, and it counts what it does.  One that goes round
again has read at least the two numbers of a record, so that every step ends.
-/

namespace LuaCoverage
namespace Decoder

/-- What one pass through the loop of a step does. -/
inductive Pass
  /-- A tag is passed over, and the loop goes round again. -/
  | again (tag : String) (decoder : Decoder)
  /-- The step ends. -/
  | done (step : Step)

namespace Pass

/-- The decoder after a pass. -/
def decoder : Pass → Decoder
  | again _ decoder => decoder
  | done step => step.decoder

/-- Whether the loop goes round again. -/
def goesRound : Pass → Bool
  | again .. => true
  | done _ => false

/-- Whether a record is handed out. -/
def handsOut : Pass → Bool
  | done { item := .record _, .. } => true
  | _ => false

theorem not_goesRound_done (step : Step) : ¬ (done step).goesRound := Bool.false_ne_true

end Pass

/-- The end of a pass that has read a complete record. -/
def passRecord (decoder : Decoder) (record : RawRecord) : Pass :=
  match record.reading with
  | .located source line =>
      .done
        { item := .record { source, line, count := record.count }
          events := []
          decoder := decoder.yielded }
  | .passed => .again record.text decoder.passed
  | .badLine body => .done { item := .badLine body, events := [], decoder := decoder.exhausted }

/-- One pass. -/
def pass (decoder : Decoder) : Pass :=
  match readRecord.run.run decoder with
  | (none, short) => .done (short.finish decoder.position)
  | (some record, behind) => behind.passRecord record

theorem next_eq_of_done {decoder : Decoder} {step : Step} (done : decoder.pass = .done step) :
    decoder.next = step := by
  rw [next]
  simp only [pass] at done
  split
  · next short found =>
      rw [found] at done
      cases done
      rfl
  · next record behind found =>
      rw [found] at done
      simp only [passRecord, RawRecord.reading, RawRecord.text] at done
      dsimp only
      split at done <;> simp_all

theorem next_eq_of_again {decoder later : Decoder} {tag : String}
    (again : decoder.pass = .again tag later) :
    decoder.next = { later.next with events := .tagPassed tag :: later.next.events } := by
  rw [next]
  simp only [pass] at again
  split
  · next short found =>
      rw [found] at again
      cases again
  · next record behind found =>
      rw [found] at again
      simp only [passRecord, RawRecord.reading, RawRecord.text] at again
      dsimp only
      split at again <;> simp_all

section Meeting

variable {decoder : Decoder} {record : RawRecord} {others : List UInt8}

theorem pass_of_read? (found : RawRecord.read? decoder.rest = some (record, others)) :
    decoder.pass = (decoder.behind record).passRecord record := by
  rw [pass, readRecord_of_read? found]

/-- A record that comes up short is the end, wherever the decoder stands by then. -/
theorem pass_of_incomplete (incomplete : RawRecord.read? decoder.rest = none) :
    decoder.pass = .done (decoder.finish decoder.position) := by
  obtain ⟨position, short⟩ := readRecord_of_incomplete incomplete
  rw [pass, short]
  rfl

end Meeting

/-! ## Between two records -/

section Boundary

variable {decoder : Decoder} {record : RawRecord} {records : List RawRecord} {tail : List UInt8}

theorem pass_of_nil (splits : Profile.Splits decoder.rest [] tail) :
    decoder.pass = .done (decoder.finish decoder.position) :=
  pass_of_incomplete splits.read?_nil

theorem pass_of_cons (splits : Profile.Splits decoder.rest (record :: records) tail) :
    decoder.pass = (decoder.behind record).passRecord record := pass_of_read? splits.read?_cons

/-- What is left behind a record divides as it did before it. -/
theorem splits_behind (splits : Profile.Splits decoder.rest (record :: records) tail) :
    Profile.Splits (decoder.behind record).rest records tail := by
  have starts := splits.parts
  rw [Profile.encodeAll_cons, List.append_assoc] at starts
  rw [rest_behind starts]
  exact splits.tail_splits

theorem pass_of_passed (splits : Profile.Splits decoder.rest (record :: records) tail)
    (passed : record.reading = .passed) :
    decoder.pass = .again record.text (decoder.behind record).passed := by
  rw [pass_of_cons splits, passRecord, passed]

/-- What is left at the tail is the tail. -/
theorem left_of_tail (splits : Profile.Splits decoder.rest [] tail) :
    decoder.data.size - decoder.position = tail.length :=
  decoder.length_rest.symm.trans (congrArg List.length splits.parts)

/-- At the tail a step finds the end. -/
theorem next_of_tail (splits : Profile.Splits decoder.rest [] tail) :
    decoder.next = decoder.finish decoder.position :=
  next_eq_of_done (pass_of_nil splits)

theorem next_of_located (splits : Profile.Splits decoder.rest (record :: records) tail)
    {source : String} {line : Nat} (located : record.reading = .located source line) :
    decoder.next =
      { item := .record { source, line, count := record.count }
        events := []
        decoder := (decoder.behind record).yielded } := by
  apply next_eq_of_done
  rw [pass_of_cons splits, passRecord, located]

theorem next_of_badLine (splits : Profile.Splits decoder.rest (record :: records) tail)
    {body : String} (bad : record.reading = .badLine body) :
    decoder.next =
      { item := .badLine body, events := [], decoder := decoder.exhausted } := by
  apply next_eq_of_done
  rw [pass_of_cons splits, passRecord, bad]
  rfl

end Boundary

/-! ## One pass -/

/-- A pass stays within the octets, does not go back and counts what it does. -/
structure Advances (before : Decoder) (pass : Pass) : Prop where
  /-- The octets stay the same. -/
  data : pass.decoder.data = before.data
  /-- Nothing is read twice. -/
  rest : pass.decoder.rest <:+ before.rest
  /-- A decoder within the octets stays within them. -/
  inside : before.position ≤ before.data.size → pass.decoder.position ≤ before.data.size
  /-- Records that are handed out are counted. -/
  records : pass.decoder.statistics.records =
    before.statistics.records + if pass.handsOut then 1 else 0
  /-- Tags that are passed over are counted. -/
  skipped : pass.decoder.statistics.skipped =
    before.statistics.skipped + if pass.goesRound then 1 else 0
  /-- Going round again uses up a complete record. -/
  progress : pass.goesRound → before.position + 12 ≤ pass.decoder.position ∧
    pass.decoder.position ≤ before.data.size

theorem finish_advances (decoder : Decoder) :
    decoder.Advances (.done (decoder.finish decoder.position)) where
  data := rfl
  rest := by
    have empty : (Pass.done (decoder.finish decoder.position)).decoder.rest = [] :=
      rest_finish _ decoder
    rw [empty]
    exact List.nil_suffix
  inside _ := Nat.le_refl _
  records := rfl
  skipped := rfl
  progress goes := absurd goes (Pass.not_goesRound_done _)

theorem passRecord_advances {decoder : Decoder} {record : RawRecord} {others : List UInt8}
    (starts : decoder.rest = record.encode ++ others) :
    decoder.Advances ((decoder.behind record).passRecord record) := by
  have suffix : (decoder.behind record).rest <:+ decoder.rest :=
    ⟨record.encode, by rw [rest_behind starts, starts]⟩
  have size := congrArg List.length starts
  rw [length_rest, remaining, List.length_append, RawRecord.length_encode] at size
  have inside : (decoder.behind record).position ≤ decoder.data.size := by
    simp only [behind]
    omega
  rw [passRecord]
  cases record.reading with
  | passed =>
      exact ⟨rfl, suffix, fun _ => inside, rfl, rfl,
        fun _ => ⟨Nat.add_le_add_left (Nat.le_add_right 12 _) _, inside⟩⟩
  | located source line =>
      exact ⟨rfl, suffix, fun _ => inside, rfl, rfl, fun goes => absurd goes (Pass.not_goesRound_done _)⟩
  | badLine body =>
      refine ⟨rfl, ?_, fun _ => Nat.le_refl _, rfl, rfl,
        fun goes => absurd goes (Pass.not_goesRound_done _)⟩
      exact (rest_exhausted (decoder.behind record)).symm ▸ List.nil_suffix

theorem pass_advances (decoder : Decoder) : decoder.Advances decoder.pass := by
  cases found : RawRecord.read? decoder.rest with
  | none =>
      rw [pass_of_incomplete found]
      exact decoder.finish_advances
  | some parts =>
      rw [pass_of_read? found]
      exact passRecord_advances (RawRecord.read?_eq_some_iff.mp found).2

/-! ## Points of a run -/

/-- The decoder after so many passes. -/
def afterPasses : Nat → Decoder → Decoder
  | 0, decoder => decoder
  | count + 1, decoder => afterPasses count decoder.pass.decoder

/-- The first passes in order. -/
def passes : Nat → Decoder → List Pass
  | 0, _ => []
  | count + 1, decoder => decoder.pass :: passes count decoder.pass.decoder

theorem afterPasses_add (first second : Nat) (decoder : Decoder) :
    afterPasses (first + second) decoder = afterPasses second (afterPasses first decoder) := by
  induction first generalizing decoder with
  | zero => rw [Nat.zero_add, afterPasses]
  | succ first ih => rw [Nat.succ_add, afterPasses, afterPasses, ih]

theorem afterPasses_data (count : Nat) (decoder : Decoder) :
    (afterPasses count decoder).data = decoder.data := by
  induction count generalizing decoder with
  | zero => rfl
  | succ count ih => exact (ih decoder.pass.decoder).trans decoder.pass_advances.data

theorem afterPasses_position {decoder : Decoder} (inside : decoder.position ≤ decoder.data.size)
    (count : Nat) : (afterPasses count decoder).position ≤ decoder.data.size := by
  induction count generalizing decoder with
  | zero => exact inside
  | succ count ih =>
      have advances := decoder.pass_advances
      have later := @ih decoder.pass.decoder (advances.data ▸ advances.inside inside)
      exact advances.data ▸ later

theorem afterPasses_suffix (count : Nat) (decoder : Decoder) :
    (afterPasses count decoder).rest <:+ decoder.rest := by
  induction count generalizing decoder with
  | zero => exact List.suffix_rfl
  | succ count ih => exact (ih decoder.pass.decoder).trans decoder.pass_advances.rest

theorem afterPasses_records (count : Nat) (decoder : Decoder) :
    (afterPasses count decoder).statistics.records =
      decoder.statistics.records + (passes count decoder).countP Pass.handsOut := by
  induction count generalizing decoder with
  | zero => rfl
  | succ count ih =>
      rw [afterPasses, passes, ih, decoder.pass_advances.records, List.countP_cons]
      omega

theorem afterPasses_skipped (count : Nat) (decoder : Decoder) :
    (afterPasses count decoder).statistics.skipped =
      decoder.statistics.skipped + (passes count decoder).countP Pass.goesRound := by
  induction count generalizing decoder with
  | zero => rfl
  | succ count ih =>
      rw [afterPasses, passes, ih, decoder.pass_advances.skipped, List.countP_cons]
      omega

/-- A step is a bounded number of passes that go round again and one that does not. -/
theorem exists_passes_of_next (decoder : Decoder) :
    ∃ rounds events,
      12 * rounds ≤ decoder.remaining ∧
      (∀ pass ∈ passes rounds decoder, pass.goesRound) ∧
      (afterPasses rounds decoder).pass = .done { decoder.next with events } := by
  induction size : decoder.remaining using Nat.strongRecOn generalizing decoder with
  | ind size ih =>
      subst size
      cases current : decoder.pass with
      | done step =>
          refine ⟨0, step.events, by simp, by simp [passes], ?_⟩
          rw [next_eq_of_done current]
          exact current
      | again tag later =>
          have advances := decoder.pass_advances
          rw [current] at advances
          have data : later.data = decoder.data := advances.data
          have progress := advances.progress rfl
          have shorter : later.remaining + 12 ≤ decoder.remaining := by
            simp only [Pass.decoder] at progress
            rw [remaining, remaining, data]
            omega
          obtain ⟨rounds, events, bound, round, last⟩ := ih _ (by omega) later rfl
          refine ⟨rounds + 1, events, by omega, ?_, ?_⟩
          · rw [passes, current]
            exact List.forall_mem_cons.mpr ⟨rfl, round⟩
          · rw [afterPasses, current, next_eq_of_again current]
            exact last

end Decoder
end LuaCoverage
