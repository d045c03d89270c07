import LuaCoverage.Proofs.Report.Listing
import LuaCoverage.Proofs.Text.Width

/-!
# Listings read back

The counts of a listing stand in one column, which is as wide as the greatest count of the file.
What is cut off there leaves the lines of the source, and what was cut off says which lines have a
count and which.
-/

namespace LuaCoverage

/-- Counts without their lines, in the order of lines. -/
theorem LineCounts.values_eq (lines : LineCounts) : lines.values = lines.toList.map Prod.snd := by
  have values := Std.DTreeMap.Internal.Impl.values_eq_map_snd (t := lines.inner.inner)
  have entries :=
    Std.DTreeMap.Internal.Impl.Const.toList_eq_toListModel_map (t := lines.inner.inner)
  change lines.inner.inner.values =
    (Std.DTreeMap.Internal.Impl.Const.toList lines.inner.inner).map Prod.snd
  rw [values, entries, List.map_map]
  rfl

theorem LineCounts.mem_values_iff {lines : LineCounts} {count : UInt64} :
    count ∈ lines.values ↔ ∃ line : Nat, lines[line]? = some count := by
  rw [LineCounts.values_eq, List.mem_map]
  constructor
  · rintro ⟨⟨line, _⟩, listed, rfl⟩
    exact ⟨line, Std.TreeMap.mem_toList_iff_getElem?_eq_some.mp listed⟩
  · rintro ⟨line, found⟩
    exact ⟨(line, count), Std.TreeMap.mem_toList_iff_getElem?_eq_some.mpr found, rfl⟩

instance lawfulOrderMaxWords : Std.LawfulOrderMax UInt64 := by
  refine .of_max_le_iff (fun left right bound => ?_) fun left right => ?_
  · simp only [UInt64.le_iff_toNat_le, UInt64.toNat_max]
    omega
  · simp only [← UInt64.toNat_inj, UInt64.toNat_max]
    omega

/-- The greatest count is the count of a line, or zero, and no count is greater. -/
theorem FileHits.greatestCount_isGreatest (file : FileHits) :
    IsGreatest {count : UInt64 | count = 0 ∨ ∃ line : Nat, file.lines[line]? = some count}
      file.greatestCount := by
  have maximum : (0 :: file.lines.values).max? = some file.greatestCount := List.max?_cons'
  obtain ⟨listed, bound⟩ := List.max?_eq_some_iff.mp maximum
  simp only [List.mem_cons, LineCounts.mem_values_iff] at listed bound
  exact ⟨listed, fun count => bound count⟩

/-- What follows a blank is not read as part of a count. -/
theorem shownCount?_append_blank (field text : List Char) :
    shownCount? (field ++ ' ' :: text) = shownCount? field := by
  have cut : (field ++ ' ' :: text).takeWhile (· ≠ ' ') = field.takeWhile (· ≠ ' ') := by
    induction field with
    | nil => rfl
    | cons character field ih =>
        rw [List.cons_append, List.takeWhile_cons, List.takeWhile_cons, ih]
  rw [shownCount?, shownCount?, cut]

/-- Rows that show the lines of a source behind their counts, all counts in one column. -/
structure InColumns (source : List String) (counts : LineCounts) (width : Nat)
    (rows : List (List Char)) : Prop where
  /-- There is one row for every line of the source. -/
  length_eq : rows.length = source.length
  /-- A row is a field as wide as the column, a blank and the line.  The field shows the count of
  the line on its left, if the line has one, and is blank otherwise. -/
  row : ∀ index text, source[index]? = some text →
    ∃ field, rows[index]? = some (field ++ ' ' :: text.toList) ∧ field.length = width ∧
      (∀ count, counts[index + 1]? = some count →
        ∃ blanks, field = count.toNat.repr.toList ++ List.replicate blanks ' ') ∧
      ((∀ character ∈ field, character = ' ') ↔ counts[index + 1]? = none)
  /-- Behind the column stands the source. -/
  source_eq : rows.map (List.drop (width + 1)) = source.map String.toList
  /-- The column says which lines have a count and which. -/
  counts_eq : (rows.map fun row => shownCount? (row.take width)) =
    (List.range' 1 source.length).map fun line => counts[line]?.map UInt64.toNat

namespace AnalyzedFile

variable (analyzed : AnalyzedFile)

/-- What stands in the column of counts for a line. -/
def field (line : Nat) : List Char :=
  (padRight analyzed.columnWidth (analyzed.countText line)).toList

theorem field_eq (line : Nat) :
    analyzed.field line = (analyzed.countText line).toList ++
      List.replicate (analyzed.columnWidth - (analyzed.countText line).length) ' ' :=
  Lines.toList_pushn ..

theorem row_eq (line : Nat) (text : String) :
    analyzed.row line text = analyzed.field line ++ ' ' :: text.toList := by
  rw [row, field_eq, List.append_assoc]

/-- The column is as wide as the numeral of the greatest count. -/
theorem columnWidth_eq :
    analyzed.columnWidth = analyzed.file.greatestCount.toNat.repr.length :=
  Decimal.width_eq_length_repr _

/-- No count is wider than the column. -/
theorem length_countText_le (line : Nat) :
    (analyzed.countText line).length ≤ analyzed.columnWidth := by
  rw [countText]
  cases counted : analyzed.file.lines[line]? with
  | none => exact Nat.zero_le _
  | some count =>
      have bound : count ≤ analyzed.file.greatestCount :=
        analyzed.file.greatestCount_isGreatest.2 (.inr ⟨line, counted⟩)
      calc count.toNat.repr.length
          = Decimal.width count.toNat := (Decimal.width_eq_length_repr _).symm
        _ ≤ analyzed.columnWidth := Decimal.width_mono (UInt64.le_iff_toNat_le.mp bound)

theorem length_field (line : Nat) : (analyzed.field line).length = analyzed.columnWidth := by
  have fits := analyzed.length_countText_le line
  rw [field_eq, List.length_append, String.length_toList, List.length_replicate]
  omega

theorem field_of_count {line : Nat} {count : UInt64}
    (counted : analyzed.file.lines[line]? = some count) :
    ∃ blanks, analyzed.field line = count.toNat.repr.toList ++ List.replicate blanks ' ' := by
  rw [field_eq, countText, counted]
  exact ⟨_, rfl⟩

/-- A field is blank where a line has no count, and only there. -/
theorem field_blank_iff (line : Nat) :
    (∀ character ∈ analyzed.field line, character = ' ') ↔ analyzed.file.lines[line]? = none := by
  cases counted : analyzed.file.lines[line]? with
  | none =>
      rw [field_eq, countText, counted]
      simp
  | some count =>
      obtain ⟨blanks, shown⟩ := analyzed.field_of_count counted
      obtain ⟨digit, digit_mem⟩ := List.exists_mem_of_ne_nil _ (Decimal.repr_ne_nil count.toNat)
      refine iff_of_false (fun blank => ?_) (by simp)
      have same : digit = ' ' := blank digit (shown ▸ List.mem_append_left _ digit_mem)
      exact Decimal.not_mem_repr (by decide) (same ▸ digit_mem)

/-- The field of a line says whether it has a count and which. -/
theorem shownCount?_field (line : Nat) :
    shownCount? (analyzed.field line) = analyzed.file.lines[line]?.map UInt64.toNat := by
  rw [← analyzed.shownCount?_row line "", row_eq, shownCount?_append_blank]

theorem drop_row (line : Nat) (text : String) :
    (analyzed.row line text).drop (analyzed.columnWidth + 1) = text.toList := by
  rw [row_eq, ← analyzed.length_field line, List.drop_length_add_append]
  rfl

theorem take_row (line : Nat) (text : String) :
    (analyzed.row line text).take analyzed.columnWidth = analyzed.field line := by
  rw [row_eq, ← analyzed.length_field line, List.take_left]

theorem rows_map_toList : analyzed.rows.map String.toList =
    (analyzed.source.zipIdx 1).map fun entry => analyzed.row entry.2 entry.1 :=
  analyzed.rowsFrom_map_toList 1 analyzed.source

theorem rows_inColumns :
    InColumns analyzed.source analyzed.file.lines analyzed.columnWidth
      (analyzed.rows.map String.toList) where
  length_eq := by rw [rows_map_toList, List.length_map, List.length_zipIdx]
  row index text found := by
    refine ⟨analyzed.field (index + 1), ?_, analyzed.length_field _,
      fun count => analyzed.field_of_count, analyzed.field_blank_iff _⟩
    rw [rows_map_toList, List.getElem?_map, List.getElem?_zipIdx, found, ← row_eq, Nat.add_comm]
    rfl
  source_eq := by
    rw [rows_map_toList, List.map_map]
    calc (analyzed.source.zipIdx 1).map _
        = (analyzed.source.zipIdx 1).map (String.toList ∘ Prod.fst) :=
          List.map_congr_left fun entry _ => analyzed.drop_row entry.2 entry.1
      _ = analyzed.source.map String.toList := by rw [← List.map_map, List.zipIdx_map_fst]
  counts_eq := by
    rw [rows_map_toList, List.map_map, ← List.zipIdx_map_snd 1 analyzed.source, List.map_map]
    refine List.map_congr_left fun entry _ => ?_
    rw [Function.comp_apply, Function.comp_apply, take_row, shownCount?_field]

/-- A listing has one row for every line of the source, and its rows stand in columns: the numerals
of the counts on the left, in a column as wide as the numeral of the greatest count of the file, and
the lines of the source behind it. -/
theorem listing_reads_back (plain : ∀ text ∈ analyzed.source, '\n' ∉ text.toList) :
    let greatest := analyzed.file.greatestCount
    IsGreatest {count | count = 0 ∨ ∃ line : Nat, analyzed.file.lines[line]? = some count}
        greatest ∧
      1 ≤ greatest.toNat.repr.length ∧
      ∃ rows, analyzed.listing.toList = rows.flatMap (· ++ ['\n']) ∧ (∀ row ∈ rows, '\n' ∉ row) ∧
        InColumns analyzed.source analyzed.file.lines greatest.toNat.repr.length rows := by
  refine ⟨analyzed.file.greatestCount_isGreatest, Nat.length_repr_pos,
    analyzed.rows.map String.toList, ?_, fun printed listed => ?_, ?_⟩
  · rw [listing, Lines.toList_toText, List.flatMap_map]
  · rw [rows_map_toList] at listed
    obtain ⟨⟨text, line⟩, entry, rfl⟩ := List.mem_map.mp listed
    exact analyzed.not_mem_row (plain text (List.fst_mem_of_mem_zipIdx entry))
  · rw [← columnWidth_eq]
    exact analyzed.rows_inColumns

/-- A line with no hits, one without a count and an empty one; line zero and a line behind the end
have counts as well, and the latter is the greatest. -/
theorem listing_reads_back_beyond_end :
    let file : FileHits :=
      ((((FileHits.new (.ofText "f.lua")).addHits 0 7).addHits 1 0).addHits 3 21).addHits 9 1234
    let analyzed : AnalyzedFile := { file, source := ["f()", "-- 9", ""], statements := ∅ }
    (∀ text ∈ analyzed.source, '\n' ∉ text.toList) ∧
      analyzed.listing = "0    f()\n     -- 9\n21   \n" ∧
      ∃ rows, analyzed.listing.toList = rows.flatMap (· ++ ['\n']) ∧
        InColumns analyzed.source file.lines 4 rows := by
  intro file analyzed
  have plain : ∀ text ∈ analyzed.source, '\n' ∉ text.toList := by decide
  obtain ⟨-, -, rows, printed, -, columns⟩ := analyzed.listing_reads_back plain
  have width : file.greatestCount.toNat.repr.length = 4 := by decide +kernel
  exact ⟨plain, by decide +kernel, rows, printed, width ▸ columns⟩

end AnalyzedFile
end LuaCoverage
