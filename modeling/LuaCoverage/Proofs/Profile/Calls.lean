import LuaCoverage.Proofs.Profile.Decoding

/-!
# Calls of a decoder

A call counts the record that it hands out and leaves what stands behind it; a call that hands out
no record leaves nothing to read.  What is handed out from some call on is the rest of what is
handed out from the first.
-/

namespace LuaCoverage
namespace Decoder

/-- What a call does. -/
structure Calls (before : Decoder) (step : Step) : Prop where
  /-- A record that is handed out is counted. -/
  counted : ∀ record, step.item = .record record →
    step.decoder.statistics.records = before.statistics.records + 1
  /-- Without a record nothing is counted. -/
  uncounted : (∀ record, step.item ≠ .record record) →
    step.decoder.statistics.records = before.statistics.records
  /-- Without a record nothing is left. -/
  exhausted : (∀ record, step.item ≠ .record record) → step.decoder.rest = []
  /-- Before the end something is read. -/
  progress : step.item ≠ .finished → step.decoder.remaining < before.remaining

theorem next_calls (decoder : Decoder) : decoder.Calls decoder.next := by
  induction size : decoder.remaining using Nat.strongRecOn generalizing decoder with
  | ind size ih =>
      subst size
      cases found : RawRecord.read? decoder.rest with
      | none =>
          have unhanded (record : Record) :
              (decoder.finish decoder.position).item ≠ .record record := by
            rintro ⟨⟩
          rw [next_eq_of_done (pass_of_incomplete found)]
          exact ⟨fun record item => absurd item (unhanded record), fun _ => rfl,
            fun _ => rest_finish _ decoder, fun other => absurd rfl other⟩
      | some parts =>
          obtain ⟨record, others⟩ := parts
          have shorter : (decoder.behind record).remaining < decoder.remaining :=
            remaining_lt_of_readRecord (readRecord_of_read? found)
          have current := pass_of_read? found
          rw [passRecord] at current
          cases reading : record.reading with
          | passed =>
              rw [reading] at current
              have later := ih _ shorter (decoder.behind record).passed rfl
              rw [next_eq_of_again current]
              exact ⟨later.counted, later.uncounted, later.exhausted,
                fun other => (later.progress other).trans shorter⟩
          | located source line =>
              rw [reading] at current
              rw [next_eq_of_done current]
              exact ⟨fun _ _ => rfl, fun other => absurd rfl (other _),
                fun other => absurd rfl (other _), fun _ => shorter⟩
          | badLine body =>
              rw [reading] at current
              have unhanded (record : Record) : Item.badLine body ≠ .record record := by
                rintro ⟨⟩
              have nothing : (decoder.behind record).exhausted.remaining = 0 := Nat.sub_self _
              rw [next_eq_of_done current]
              exact ⟨fun record item => absurd item (unhanded record), fun _ => rfl,
                fun _ => (decoder.behind record).rest_exhausted,
                fun _ => nothing ▸ Nat.zero_lt_of_lt shorter⟩

theorem after_add (first second : Nat) (decoder : Decoder) :
    decoder.after (first + second) = (decoder.after first).after second := by
  induction first generalizing decoder with
  | zero => rw [Nat.zero_add, after]
  | succ first ih => rw [Nat.succ_add, after, after, ih]

theorem after_succ (calls : Nat) (decoder : Decoder) :
    decoder.after (calls + 1) = (decoder.after calls).next.decoder :=
  after_add calls 1 decoder

theorem after_suffix (calls : Nat) (decoder : Decoder) :
    (decoder.after calls).rest <:+ decoder.rest := by
  obtain ⟨count, same⟩ := exists_passes_of_after calls decoder
  rw [same]
  exact afterPasses_suffix count decoder

/-! ## Everything that is handed out -/

/-- Call after call a decoder hands out some records, then a bad line number if there is one, and
then nothing more. -/
def HandsOut (decoder : Decoder) (records : List Record) (bad : Option String) : Prop :=
  ∀ call, (decoder.after call).next.item =
    (records.map Item.record ++ (bad.map Item.badLine).toList)[call]?.getD .finished

theorem exists_handsOut (decoder : Decoder) : ∃ records bad, decoder.HandsOut records bad :=
  ⟨_, _, item_after (Profile.splits_split decoder.rest)⟩

namespace HandsOut

variable {decoder : Decoder} {records : List Record} {bad : Option String}

theorem of_finished (handsOut : decoder.HandsOut records bad)
    (item : decoder.next.item = .finished) : records = [] ∧ bad = none := by
  have first := handsOut 0
  rw [after, item] at first
  cases records with
  | nil =>
      cases bad with
      | none => exact ⟨rfl, rfl⟩
      | some tag => cases first
  | cons record records => cases first

theorem of_badLine {tag : String} (handsOut : decoder.HandsOut records bad)
    (item : decoder.next.item = .badLine tag) : records = [] ∧ bad = some tag := by
  have first := handsOut 0
  rw [after, item] at first
  cases records with
  | nil =>
      cases bad with
      | none => cases first
      | some other =>
          cases first
          exact ⟨rfl, rfl⟩
  | cons record records => cases first

theorem of_record {record : Record} (handsOut : decoder.HandsOut records bad)
    (item : decoder.next.item = .record record) :
    ∃ more, records = record :: more ∧ decoder.next.decoder.HandsOut more bad := by
  have first := handsOut 0
  rw [after, item] at first
  cases records with
  | nil => cases bad <;> cases first
  | cons other more =>
      cases first
      exact ⟨more, rfl, fun call => handsOut (call + 1)⟩

/-- Records that the first calls hand out are the first of all. -/
theorem exists_append {yielded : List Record} (handsOut : decoder.HandsOut records bad)
    (items : ∀ index record, yielded[index]? = some record →
      (decoder.after index).next.item = .record record) :
    ∃ more, records = yielded ++ more ∧ (decoder.after yielded.length).HandsOut more bad := by
  induction yielded generalizing decoder records with
  | nil => exact ⟨records, rfl, handsOut⟩
  | cons record yielded ih =>
      obtain ⟨others, rfl, later⟩ := handsOut.of_record (items 0 record rfl)
      obtain ⟨more, rfl, last⟩ := ih later fun index record found => items (index + 1) record found
      exact ⟨more, rfl, last⟩

end HandsOut

/-- A decoder with nothing left hands out nothing. -/
theorem handsOut_nil {decoder : Decoder} (empty : decoder.rest = []) :
    decoder.HandsOut [] none := item_of_rest_nil empty

theorem records_after_of_items {decoder : Decoder} {yielded : List Record}
    (items : ∀ index record, yielded[index]? = some record →
      (decoder.after index).next.item = .record record) :
    (decoder.after yielded.length).statistics.records =
      decoder.statistics.records + yielded.length := by
  induction yielded generalizing decoder with
  | nil => rfl
  | cons record yielded ih =>
      have first := decoder.next_calls.counted record (items 0 record rfl)
      have others := ih fun index record found => items (index + 1) record found
      rw [List.length_cons, after, others, first]
      omega

end Decoder
end LuaCoverage
