import LuaCoverage.Proofs.Profile.Passes
import LuaCoverage.Proofs.Profile.Tag

/-!
# Decoding exactly the format

What is handed out by call after call follows from the complete records of a profile and the grammar
of their tags.  Between two records a decoder stands behind all records before, and its figures
account for each of them; at the end they account for every octet.
-/

namespace LuaCoverage

namespace RawRecord

/-- A record whose tag has one colon after its leading at signs and still names no line. -/
def Refused (record : RawRecord) : Prop :=
  record.Attributed ∧ ∀ source line,
    ¬ Tag.Names Char.toNat (record.text.toList.dropWhile (· == '@')) source line

theorem reading_eq_located_iff {record : RawRecord} {source : String} {line : Nat} :
    record.reading = .located source line ↔
      Tag.Names Char.toNat (record.text.toList.dropWhile (· == '@')) source.toList line := by
  rw [reading_eq]
  exact Tag.read_eq_located_iff

theorem reading_eq_badLine_iff {record : RawRecord} {body : String} :
    record.reading = .badLine body ↔
      body = String.ofList (record.text.toList.dropWhile (· == '@')) ∧ record.Refused := by
  rw [reading_eq]
  exact Tag.read_eq_badLine_iff

theorem badLine?_eq_none_iff {record : RawRecord} : record.badLine? = none ↔ ¬ record.Refused := by
  cases reading : record.reading with
  | passed =>
      have unattributed := record.reading_eq_passed_iff.mp reading
      rw [badLine?, reading]
      exact iff_of_true rfl fun refused => unattributed refused.1
  | located source line =>
      have names := reading_eq_located_iff.mp reading
      rw [badLine?, reading]
      exact iff_of_true rfl fun refused => refused.2 _ _ names
  | badLine body =>
      rw [badLine?, reading]
      exact iff_of_false (Option.some_ne_none _)
        (not_not.mpr (reading_eq_badLine_iff.mp reading).2)

end RawRecord

namespace Decoder

/-! ## Calls -/

/-- The decoder after so many calls. -/
def after : Nat → Decoder → Decoder
  | 0, decoder => decoder
  | calls + 1, decoder => after calls decoder.next.decoder

theorem after_succ_of_again {decoder later : Decoder} {tag : String}
    (again : decoder.pass = .again tag later) (calls : Nat) :
    after (calls + 1) decoder = after (calls + 1) later := by
  rw [after, after, next_eq_of_again again]

theorem item_of_again {decoder later : Decoder} {tag : String}
    (again : decoder.pass = .again tag later) (call : Nat) :
    (after call decoder).next.item = (after call later).next.item := by
  cases call with
  | zero => rw [after, after, next_eq_of_again again]
  | succ call => rw [after_succ_of_again again]

theorem exists_passes_of_after (calls : Nat) (decoder : Decoder) :
    ∃ count, after calls decoder = afterPasses count decoder := by
  induction calls generalizing decoder with
  | zero => exact ⟨0, rfl⟩
  | succ calls ih =>
      obtain ⟨rounds, events, -, -, last⟩ := exists_passes_of_next decoder
      obtain ⟨count, later⟩ := ih decoder.next.decoder
      refine ⟨rounds + (count + 1), ?_⟩
      rw [afterPasses_add, afterPasses, last, after, later]
      rfl

theorem next_of_rest_nil {decoder : Decoder} (empty : decoder.rest = []) :
    decoder.next = decoder.finish decoder.position := by
  have splits : Profile.Splits decoder.rest [] [] := by
    rw [empty]
    exact ⟨rfl, by simp, Profile.incomplete_nil⟩
  exact next_of_tail splits

/-- Once nothing is left, nothing more is handed out. -/
theorem item_of_rest_nil {decoder : Decoder} (empty : decoder.rest = []) (call : Nat) :
    (after call decoder).next.item = .finished := by
  induction call generalizing decoder with
  | zero => rw [after, next_of_rest_nil empty, finish]
  | succ call ih =>
      rw [after, next_of_rest_nil empty]
      exact ih (rest_finish _ decoder)

theorem records_of_rest_nil {decoder : Decoder} (empty : decoder.rest = []) (calls : Nat) :
    (after calls decoder).statistics.records = decoder.statistics.records := by
  induction calls generalizing decoder with
  | zero => rfl
  | succ calls ih =>
      rw [after, next_of_rest_nil empty]
      exact ih (rest_finish _ decoder)

/-- Every call hands out the next item of the script, and nothing after its end. -/
theorem item_after {decoder : Decoder} {records : List RawRecord} {tail : List UInt8}
    (splits : Profile.Splits decoder.rest records tail) (call : Nat) :
    (after call decoder).next.item = (Profile.script records)[call]?.getD .finished := by
  induction records using Profile.reading_induction generalizing decoder call with
  | nil =>
      cases call with
      | zero =>
          rw [after, next_of_tail splits]
          rfl
      | succ call =>
          rw [after, next_of_tail splits]
          exact item_of_rest_nil (rest_finish _ decoder) call
  | passed record records reading ih =>
      have remaining : Profile.Splits (decoder.behind record).passed.rest records tail :=
        splits_behind splits
      rw [item_of_again (pass_of_passed splits reading), ih remaining,
        Profile.script_passed reading]
  | located record records source line reading ih =>
      have remaining : Profile.Splits (decoder.behind record).yielded.rest records tail :=
        splits_behind splits
      rw [Profile.script_located reading]
      cases call with
      | zero =>
          rw [after, next_of_located splits reading]
          rfl
      | succ call =>
          rw [after, next_of_located splits reading, List.getElem?_cons_succ]
          exact ih remaining call
  | badLine record records body reading _ =>
      rw [Profile.script_badLine reading]
      cases call with
      | zero =>
          rw [after, next_of_badLine splits reading]
          rfl
      | succ call =>
          rw [after, next_of_badLine splits reading]
          exact item_of_rest_nil decoder.rest_exhausted call

/-- After every call the figures count the records that were handed out by then. -/
theorem records_after {decoder : Decoder} {records : List RawRecord} {tail : List UInt8}
    (splits : Profile.Splits decoder.rest records tail) (calls : Nat) :
    (after calls decoder).statistics.records =
      decoder.statistics.records + min calls (Profile.handedOut records).length := by
  induction records generalizing decoder calls with
  | nil =>
      have none_handed : (Profile.handedOut []).length = 0 := rfl
      rw [none_handed, Nat.min_zero]
      cases calls with
      | zero => rfl
      | succ calls =>
          rw [after, next_of_tail splits]
          exact records_of_rest_nil (rest_finish _ decoder) calls
  | cons record records ih =>
      have yieldedSplits : Profile.Splits (decoder.behind record).yielded.rest records tail :=
        splits_behind splits
      have passedSplits : Profile.Splits (decoder.behind record).passed.rest records tail :=
        splits_behind splits
      cases calls with
      | zero =>
          rw [Nat.zero_min]
          rfl
      | succ calls =>
          cases reading : record.reading with
          | passed =>
              rw [after_succ_of_again (pass_of_passed splits reading), ih passedSplits,
                Profile.handedOut_passed reading]
              rfl
          | located source line =>
              rw [after, next_of_located splits reading, ih yieldedSplits,
                Profile.handedOut_located reading, List.length_cons, Nat.succ_min_succ]
              simp only [yielded, behind]
              omega
          | badLine body =>
              rw [after, next_of_badLine splits reading,
                records_of_rest_nil decoder.rest_exhausted, Profile.handedOut_badLine reading,
                List.length_nil, Nat.min_zero]
              rfl

/-! ## Between two records -/

/-- Up to the first bad line number a pass for each record leaves the decoder behind them all. -/
theorem afterPasses_front {decoder : Decoder} {front records : List RawRecord} {tail : List UInt8}
    (splits : Profile.Splits decoder.rest (front ++ records) tail)
    (readable : Profile.failure? front = none) :
    afterPasses front.length decoder =
      { data := decoder.data
        position := decoder.position + (front.map fun record => 12 + record.tag.length).sum
        statistics :=
          { records := decoder.statistics.records + front.countP (·.Attributed)
            skipped := decoder.statistics.skipped + front.countP (¬ ·.Attributed)
            trailing := decoder.statistics.trailing } } := by
  induction front using Profile.reading_induction generalizing decoder with
  | nil => rfl
  | passed record front reading ih =>
      rw [Profile.failure?_passed reading] at readable
      have unattributed := record.reading_eq_passed_iff.mp reading
      have remaining : Profile.Splits (decoder.behind record).passed.rest (front ++ records) tail :=
        splits_behind splits
      rw [List.length_cons, afterPasses, pass_of_passed splits reading, Pass.decoder,
        ih remaining readable, Profile.countP_passed reading,
        List.countP_cons_of_neg (by simpa using unattributed)]
      simp only [passed, behind, List.map_cons, List.sum_cons, Nat.add_assoc, Nat.add_comm 1]
  | located record front source line reading ih =>
      rw [Profile.failure?_located reading] at readable
      have attributed := record.attributed_of_located reading
      have remaining :
          Profile.Splits (decoder.behind record).yielded.rest (front ++ records) tail :=
        splits_behind splits
      rw [List.length_cons, afterPasses, pass_of_cons splits, passRecord, reading]
      simp only [Pass.decoder]
      rw [ih remaining readable, Profile.countP_located reading,
        List.countP_cons_of_pos (by simpa using attributed)]
      simp only [yielded, behind, List.map_cons, List.sum_cons, Nat.add_assoc, Nat.add_comm 1]
  | badLine record front body reading _ =>
      rw [Profile.failure?_badLine reading] at readable
      cases readable

/-- The call that first meets the end accounts for all records and leaves the tail. -/
theorem after_end {decoder : Decoder} {records : List RawRecord} {tail : List UInt8}
    (splits : Profile.Splits decoder.rest records tail)
    (readable : Profile.failure? records = none) :
    after ((Profile.handedOut records).length + 1) decoder =
      { data := decoder.data
        position := decoder.data.size
        statistics :=
          { records := decoder.statistics.records + (Profile.handedOut records).length
            skipped := decoder.statistics.skipped + records.countP (¬ ·.Attributed)
            trailing := tail.length } } := by
  induction records using Profile.reading_induction generalizing decoder with
  | nil =>
      rw [after, next_of_tail splits, finish, left_of_tail splits]
      rfl
  | passed record records reading ih =>
      rw [Profile.failure?_passed reading] at readable
      have remaining : Profile.Splits (decoder.behind record).passed.rest records tail :=
        splits_behind splits
      rw [Profile.handedOut_passed reading,
        after_succ_of_again (pass_of_passed splits reading), ih remaining readable,
        Profile.countP_passed reading]
      simp only [passed, behind, Nat.add_assoc, Nat.add_comm 1]
  | located record records source line reading ih =>
      rw [Profile.failure?_located reading] at readable
      have remaining : Profile.Splits (decoder.behind record).yielded.rest records tail :=
        splits_behind splits
      rw [Profile.handedOut_located reading, List.length_cons, after,
        next_of_located splits reading, ih remaining readable, Profile.countP_located reading]
      simp only [yielded, behind, Nat.add_assoc, Nat.add_comm 1]
  | badLine record records body reading _ =>
      rw [Profile.failure?_badLine reading] at readable
      cases readable

end Decoder

namespace Profile

/-! ## Whole profiles -/

/-- Without a bad line number the records that name a source line are handed out. -/
theorem length_handedOut_eq_countP {records : List RawRecord} (readable : failure? records = none) :
    (handedOut records).length = records.countP (·.Attributed) := by
  induction records using reading_induction with
  | nil => rfl
  | passed record records reading ih =>
      rw [failure?_passed reading] at readable
      have unattributed := record.reading_eq_passed_iff.mp reading
      rw [handedOut_passed reading, List.countP_cons_of_neg (by simpa using unattributed),
        ih readable]
  | located record records source line reading ih =>
      rw [failure?_located reading] at readable
      have attributed := record.attributed_of_located reading
      rw [handedOut_located reading, List.countP_cons_of_pos (by simpa using attributed),
        List.length_cons, ih readable]
  | badLine record records body reading _ =>
      rw [failure?_badLine reading] at readable
      cases readable

/-- Without a bad line number every record is either handed out or passed over. -/
theorem length_handedOut_add_countP {records : List RawRecord}
    (readable : failure? records = none) :
    (handedOut records).length + records.countP (¬ ·.Attributed) = records.length := by
  rw [length_handedOut_eq_countP readable, List.length_eq_countP_add_countP (·.Attributed)]
  simp

theorem failure?_eq_none_iff {records : List RawRecord} :
    failure? records = none ↔ ∀ record ∈ records, ¬ record.Refused := by
  rw [failure?, List.findSome?_eq_none_iff]
  exact forall₂_congr fun record _ => RawRecord.badLine?_eq_none_iff

theorem drain_eq (decoder : Decoder) :
    drain decoder =
      match decoder.next.item with
      | .finished => .ok []
      | .badLine tag => .error tag
      | .record record => (record :: ·) <$> drain decoder.next.decoder := by
  rw [drain]
  split <;> simp_all

/-- Draining gives everything that is handed out, or the first bad line number. -/
theorem drain_of_splits {decoder : Decoder} {records : List RawRecord} {tail : List UInt8}
    (splits : Splits decoder.rest records tail) :
    drain decoder =
      match failure? records with
      | some body => .error body
      | none => .ok (handedOut records) := by
  induction records using reading_induction generalizing decoder with
  | nil =>
      rw [drain_eq, Decoder.next_of_tail splits]
      rfl
  | passed record records reading ih =>
      have remaining : Splits (decoder.behind record).passed.rest records tail :=
        Decoder.splits_behind splits
      rw [failure?_passed reading, handedOut_passed reading, ← ih remaining, drain_eq,
        Decoder.next_eq_of_again (Decoder.pass_of_passed splits reading), ← drain_eq]
  | located record records source line reading ih =>
      have remaining : Splits (decoder.behind record).yielded.rest records tail :=
        Decoder.splits_behind splits
      rw [failure?_located reading, handedOut_located reading, drain_eq,
        Decoder.next_of_located splits reading]
      dsimp only
      rw [ih remaining]
      cases failure? records <;> rfl
  | badLine record records body reading _ =>
      rw [failure?_badLine reading, drain_eq, Decoder.next_of_badLine splits reading]

/-- The items that complete records have a decoder hand out, by the grammar of their tags. -/
inductive Scripted : List RawRecord → List Decoder.Item → Prop
  /-- No record is left. -/
  | nil : Scripted [] []
  /-- A tag without exactly one colon after its at signs is passed over. -/
  | passed {record : RawRecord} {records : List RawRecord} {items : List Decoder.Item}
      (other : ¬ record.Attributed) (others : Scripted records items) :
      Scripted (record :: records) items
  /-- A tag that names a line is handed out with its hits. -/
  | located {record : RawRecord} {records : List RawRecord} {items : List Decoder.Item}
      {source : String} {line : Nat}
      (names : Tag.Names Char.toNat (record.text.toList.dropWhile (· == '@')) source.toList line)
      (others : Scripted records items) :
      Scripted (record :: records) (.record { source, line, count := record.count } :: items)
  /-- Any other tag is refused, and nothing behind it matters. -/
  | refused {record : RawRecord} (records : List RawRecord) (refused : record.Refused) :
      Scripted (record :: records)
        [.badLine (String.ofList (record.text.toList.dropWhile (· == '@')))]

theorem scripted_script (records : List RawRecord) : Scripted records (script records) := by
  induction records using reading_induction with
  | nil => exact .nil
  | passed record records reading ih =>
      rw [script_passed reading]
      exact .passed (record.reading_eq_passed_iff.mp reading) ih
  | located record records source line reading ih =>
      rw [script_located reading]
      exact .located (RawRecord.reading_eq_located_iff.mp reading) ih
  | badLine record records body reading _ =>
      obtain ⟨rfl, refused⟩ := RawRecord.reading_eq_badLine_iff.mp reading
      rw [script_badLine reading]
      exact .refused records refused

/-- Complete records have one script. -/
theorem Scripted.eq_script {records : List RawRecord} {items : List Decoder.Item}
    (scripted : Scripted records items) : items = script records := by
  induction scripted with
  | nil => rfl
  | passed other _ ih => rw [script_passed ((RawRecord.reading_eq_passed_iff _).mpr other), ih]
  | located names _ ih => rw [script_located (RawRecord.reading_eq_located_iff.mpr names), ih]
  | refused _ refused =>
      rw [script_badLine (RawRecord.reading_eq_badLine_iff.mpr ⟨rfl, refused⟩)]

end Profile

/-- Whether a record is handed out. -/
def Decoder.Item.isRecord : Decoder.Item → Bool
  | record _ => true
  | _ => false

namespace Profile

/-- Of the first items of a script so many are records. -/
theorem countP_take_script (calls : Nat) (records : List RawRecord) :
    ((script records).take calls).countP Decoder.Item.isRecord =
      min calls (handedOut records).length := by
  induction records using reading_induction generalizing calls with
  | nil =>
      have nothing : script [] = [] := rfl
      rw [nothing, List.take_nil]
      exact (Nat.min_eq_right (Nat.zero_le calls)).symm
  | passed record records reading ih => rw [script_passed reading, handedOut_passed reading, ih]
  | located record records source line reading ih =>
      rw [script_located reading, handedOut_located reading]
      cases calls with
      | zero => simp
      | succ calls =>
          rw [List.take_succ_cons, List.countP_cons_of_pos rfl, ih, List.length_cons,
            Nat.succ_min_succ]
  | badLine record records body reading _ =>
      rw [script_badLine reading, handedOut_badLine reading, List.length_nil, Nat.min_zero]
      cases calls with
      | zero => rfl
      | succ calls =>
          rw [List.take_succ_cons, List.take_nil]
          rfl

open Decoder in
/-- Every profile has one division into complete records and a tail.  Call after call hands out what
the grammar of the tags has these records say.  At every point of the run the decoder is within the
octets and its figures count what was done; between two records up to the first bad line number it
stands behind all records before, and the call that first meets the end has accounted for all
records and all octets.  Every call ends, for a pass that goes round again has read at least the
numbers of a record. -/
theorem decoding_follows_format (octets : List UInt8) :
    ∃ (records : List RawRecord) (tail : List UInt8) (items : List Item),
      Splits octets records tail ∧
      (∀ others otherTail, Splits octets others otherTail →
        others = records ∧ otherTail = tail) ∧
      Scripted records items ∧ (∀ others, Scripted records others → others = items) ∧
      (∀ call, (after call (.new octets)).next.item = items[call]?.getD .finished) ∧
      (∀ calls, (after calls (.new octets)).statistics.records =
        (items.take calls).countP Item.isRecord) ∧
      (∀ count, let point := afterPasses count (.new octets)
        point.data = octets.toArray ∧ point.position ≤ octets.length ∧
        point.statistics.records = (passes count (.new octets)).countP Pass.handsOut ∧
        point.statistics.skipped = (passes count (.new octets)).countP Pass.goesRound) ∧
      (∀ calls, ∃ count, after calls (.new octets) = afterPasses count (.new octets)) ∧
      (∀ front behind, records = front ++ behind → (∀ record ∈ front, ¬ record.Refused) →
        afterPasses front.length (.new octets) =
          { data := octets.toArray
            position := (front.map fun record => 12 + record.tag.length).sum
            statistics :=
              { records := front.countP (·.Attributed)
                skipped := front.countP (¬ ·.Attributed)
                trailing := 0 } }) ∧
      ((∀ record ∈ records, ¬ record.Refused) →
        let last := after (items.length + 1) (.new octets)
        last.position = octets.length ∧
        last.statistics.records = records.countP (·.Attributed) ∧
        last.statistics.skipped = records.countP (¬ ·.Attributed) ∧
        last.statistics.records + last.statistics.skipped = records.length ∧
        (records.map fun record => 12 + record.tag.length).sum + last.statistics.trailing =
          octets.length ∧
        last.statistics.trailing = tail.length) ∧
      (∀ decoder : Decoder, decoder.pass.goesRound →
        decoder.position + 12 ≤ decoder.pass.decoder.position ∧
          decoder.pass.decoder.position ≤ decoder.data.size) ∧
      ∀ decoder : Decoder, ∃ rounds events,
        12 * rounds ≤ decoder.data.size - decoder.position ∧
        (∀ pass ∈ passes rounds decoder, pass.goesRound) ∧
        (afterPasses rounds decoder).pass = .done { decoder.next with events } := by
  have splits : Splits (new octets).rest (split octets).1 (split octets).2 := splits_split octets
  refine ⟨(split octets).1, (split octets).2, script (split octets).1, splits,
    fun _ _ others => others.unique splits, scripted_script _,
    fun _ scripted => scripted.eq_script, item_after splits, fun calls => ?_, fun count => ?_,
    fun calls => exists_passes_of_after calls _, fun front behind divided readable => ?_,
    fun readable => ?_, fun decoder => decoder.pass_advances.progress, exists_passes_of_next⟩
  · rw [records_after splits, countP_take_script]
    exact Nat.zero_add _
  · refine ⟨afterPasses_data count _, afterPasses_position (Nat.zero_le _) count, ?_, ?_⟩
    · rw [afterPasses_records]
      exact Nat.zero_add _
    · rw [afterPasses_skipped]
      exact Nat.zero_add _
  · rw [divided] at splits
    rw [afterPasses_front splits (failure?_eq_none_iff.mpr readable)]
    simp [new]
  · have readable := failure?_eq_none_iff.mpr readable
    have length : (script (split octets).1).length = (handedOut (split octets).1).length := by
      rw [script, readable]
      simp
    have last := after_end splits readable
    have whole := congrArg List.length splits.parts
    rw [List.length_append, length_encodeAll] at whole
    dsimp only
    rw [length, last]
    refine ⟨rfl, ?_, Nat.zero_add _, ?_, whole.symm, rfl⟩
    · exact (Nat.zero_add _).trans (length_handedOut_eq_countP readable)
    · have all := length_handedOut_add_countP readable
      simp only [new]
      omega

open Decoder in
/-- A tag without a colon, a source line, a bad line number, and an octet behind them. -/
theorem decoding_follows_format_mixed :
    let octets := encodeAll
      [{ tag := [0x70], count := 4 }, { tag := [0x40, 0x61, 0x3A, 0x31], count := 2 },
        { tag := [0x62, 0x3A, 0x78], count := 3 }] ++ [7]
    (after 0 (.new octets)).next.item = .record { source := "a", line := 1, count := 2 } ∧
      (after 1 (.new octets)).next.item = .badLine "b:x" ∧
      (∀ call, (after (call + 2) (.new octets)).next.item = .finished) ∧
      afterPasses 2 (.new octets) =
        { data := octets.toArray
          position := 29
          statistics := { records := 1, skipped := 1, trailing := 0 } } := by
  intro octets
  have divided : Splits octets
      [{ tag := [0x70], count := 4 }, { tag := [0x40, 0x61, 0x3A, 0x31], count := 2 },
        { tag := [0x62, 0x3A, 0x78], count := 3 }] [7] :=
    ⟨rfl, by decide, incomplete_of_length_lt (by decide)⟩
  have scripted : Scripted
      [{ tag := [0x70], count := 4 }, { tag := [0x40, 0x61, 0x3A, 0x31], count := 2 },
        { tag := [0x62, 0x3A, 0x78], count := 3 }]
      [.record { source := "a", line := 1, count := 2 }, .badLine "b:x"] := by
    refine .passed (by decide +kernel) (.located ?_ (.refused [] ?_))
    · exact RawRecord.reading_eq_located_iff.mp (by decide +kernel)
    · have bad : ({ tag := [0x62, 0x3A, 0x78], count := 3 } : RawRecord).reading =
          .badLine "b:x" := by decide +kernel
      exact (RawRecord.reading_eq_badLine_iff.mp bad).2
  obtain ⟨records, tail, items, -, unique, -, only, handed, -, -, -, between, -⟩ :=
    decoding_follows_format octets
  obtain ⟨rfl, rfl⟩ := unique _ _ divided
  obtain rfl := only _ scripted
  refine ⟨handed 0, handed 1, fun call => handed (call + 2), ?_⟩
  have front : failure?
      [{ tag := [0x70], count := 4 }, { tag := [0x40, 0x61, 0x3A, 0x31], count := 2 }] = none := by
    decide +kernel
  refine (between _ _ rfl (failure?_eq_none_iff.mp front)).trans ?_
  decide +kernel

end Profile
end LuaCoverage
