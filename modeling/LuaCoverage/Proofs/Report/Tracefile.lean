import LuaCoverage.Proofs.Coverage.Content
import LuaCoverage.Proofs.Coverage.Figures
import LuaCoverage.Proofs.Text.Decimal
import LuaCoverage.Proofs.Text.Lines
import LuaCoverage.Report.Tracefile

/-!
# Reading tracefiles

A reader takes a tracefile line by line: a path, any number of lines with their counts, two totals
and an end.  What it reads from a report is one entry for every outcome, with the counts that the
report has for its lines, and the totals of an entry agree with the figures of the file.
-/

namespace LuaCoverage

/-- A line of a tracefile. -/
inductive TraceRow
  /-- A file begins. -/
  | source (path : String)
  /-- A line of the file has a count. -/
  | data (line count : Nat)
  /-- The number of lines with a count. -/
  | found (number : Nat)
  /-- The number of lines with a positive count. -/
  | hit (number : Nat)
  /-- The file ends. -/
  | ended
  deriving DecidableEq

/-- What a line of a tracefile says. -/
def TraceRow.read? (row : List Char) : Option TraceRow :=
  match row with
  | 'S' :: 'F' :: ':' :: path => some (.source (String.ofList path))
  | 'D' :: 'A' :: ':' :: entry => do
      let line ← Decimal.ofDigits? (entry.takeWhile (· != ','))
      let count ← Decimal.ofDigits? ((entry.dropWhile (· != ',')).drop 1)
      return .data line count
  | 'L' :: 'F' :: ':' :: number => (Decimal.ofDigits? number).map .found
  | 'L' :: 'H' :: ':' :: number => (Decimal.ofDigits? number).map .hit
  | _ => if row = "end_of_record".toList then some .ended else none

/-- What a tracefile says about a file. -/
structure TraceEntry where
  /-- The path as text. -/
  path : String
  /-- Lines with their counts, in the order of the tracefile. -/
  lines : List (Nat × Nat)
  /-- The stated number of lines. -/
  found : Nat
  /-- The stated number of lines with a positive count. -/
  hit : Nat
  deriving DecidableEq

/-- Where a reader of a tracefile stands. -/
inductive TraceReader
  /-- Between two files. -/
  | outside
  /-- Among the lines of a file. -/
  | inside (path : String) (lines : List (Nat × Nat))
  /-- Behind the number of lines. -/
  | counted (path : String) (lines : List (Nat × Nat)) (found : Nat)
  /-- Behind the number of lines with a positive count. -/
  | closing (entry : TraceEntry)

namespace TraceReader

/-- Read one line: where it leads and the entry that it completes. -/
def step : TraceReader → TraceRow → Option (TraceReader × List TraceEntry)
  | outside, .source path => some (inside path [], [])
  | inside path lines, .data line count => some (inside path (lines ++ [(line, count)]), [])
  | inside path lines, .found number => some (counted path lines number, [])
  | counted path lines found, .hit number =>
      some (closing { path, lines, found, hit := number }, [])
  | closing entry, .ended => some (outside, [entry])
  | _, _ => none

/-- Read lines up to the end, which must not stand inside a file. -/
def readFrom : TraceReader → List (List Char) → Option (List TraceEntry)
  | outside, [] => some []
  | _, [] => none
  | reader, row :: rows => do
      let (next, entries) ← reader.step (← TraceRow.read? row)
      return entries ++ (← readFrom next rows)

end TraceReader

/-- Read a tracefile. -/
def TraceEntry.readAll? (text : String) : Option (List TraceEntry) :=
  TraceReader.outside.readFrom (Lines.pieces text.toList)

/-! ## Lines of text -/

namespace TraceRow

theorem read?_source (path : String) :
    read? ("SF:" ++ path).toList = some (.source path) := by
  simp [read?]

theorem read?_data (line count : Nat) :
    read? ("DA:" ++ line.repr ++ "," ++ count.repr).toList = some (.data line count) := by
  have comma : ∀ character ∈ line.repr.toList, (character != ',') = true := by
    intro character member
    simpa using ne_of_mem_of_not_mem member (Decimal.not_mem_repr (by decide))
  have front : (line.repr.toList ++ ',' :: count.repr.toList).takeWhile (· != ',') =
      line.repr.toList := by
    rw [List.takeWhile_append_of_pos comma]
    simp
  have behind : ((line.repr.toList ++ ',' :: count.repr.toList).dropWhile (· != ',')).drop 1 =
      count.repr.toList := by
    rw [List.dropWhile_append_of_pos comma]
    simp
  have row : ("DA:" ++ line.repr ++ "," ++ count.repr).toList =
      'D' :: 'A' :: ':' :: (line.repr.toList ++ ',' :: count.repr.toList) := by
    simp only [String.toList_append, List.append_assoc]
    rfl
  rw [row]
  simp only [read?, front, behind, Decimal.ofDigits?_repr]
  rfl

theorem read?_found (number : Nat) :
    read? ("LF:" ++ number.repr).toList = some (.found number) := by
  have row : ("LF:" ++ number.repr).toList = 'L' :: 'F' :: ':' :: number.repr.toList := by
    rw [String.toList_append]
    rfl
  simp only [row, read?, Decimal.ofDigits?_repr, Option.map_some]

theorem read?_hit (number : Nat) :
    read? ("LH:" ++ number.repr).toList = some (.hit number) := by
  have row : ("LH:" ++ number.repr).toList = 'L' :: 'H' :: ':' :: number.repr.toList := by
    rw [String.toList_append]
    rfl
  simp only [row, read?, Decimal.ofDigits?_repr, Option.map_some]

theorem read?_ended : read? "end_of_record".toList = some .ended := by decide

end TraceRow

/-! ## Blocks of lines -/

/-- What a block says when it is read. -/
def TraceBlock.entry (block : TraceBlock) : TraceEntry where
  path := block.path
  lines := block.lines.map fun (line, count) => (line, count.toNat)
  found := block.lines.length
  hit := block.hit

namespace TraceBlock

/-- The line of text for a line with its count. -/
def dataRow (entry : Nat × UInt64) : String :=
  "DA:" ++ entry.1.repr ++ "," ++ entry.2.toNat.repr

theorem rows_eq (block : TraceBlock) :
    block.rows =
      ("SF:" ++ block.path) :: (block.lines.map dataRow ++
        ["LF:" ++ block.lines.length.repr, "LH:" ++ block.hit.repr, "end_of_record"]) := rfl

/-- A block has no line feed but those of its path. -/
theorem plain_rows {block : TraceBlock} (plain : '\n' ∉ block.path.toList) :
    ∀ row ∈ block.rows, '\n' ∉ row.toList := by
  have digits (number : Nat) : '\n' ∉ number.repr.toList := Decimal.not_mem_repr (by decide)
  intro row member
  rw [rows_eq, List.mem_cons, List.mem_append, List.mem_map] at member
  rcases member with rfl | ⟨entry, _, rfl⟩ | last
  · simpa using plain
  · simp only [dataRow, String.toList_append, List.mem_append, not_or]
    exact ⟨⟨⟨by decide, digits entry.1⟩, by decide⟩, digits entry.2.toNat⟩
  · simp only [List.mem_cons, List.not_mem_nil, or_false] at last
    rcases last with rfl | rfl | rfl
    · simpa using digits block.lines.length
    · simpa using digits block.hit
    · decide

end TraceBlock

namespace TraceReader

theorem readFrom_cons (reader : TraceReader) {next : TraceReader} {row : List Char}
    {said : TraceRow} {entries : List TraceEntry} (read : TraceRow.read? row = some said)
    (stepped : reader.step said = some (next, entries)) (rows : List (List Char)) :
    reader.readFrom (row :: rows) = (next.readFrom rows).map (entries ++ ·) := by
  rw [readFrom, read]
  simp only [bind, Option.bind_some, stepped]
  cases next.readFrom rows <;> rfl

/-- Lines with counts are gathered in order. -/
theorem readFrom_data (path : String) (earlier : List (Nat × Nat)) (lines : List (Nat × UInt64))
    (rows : List (List Char)) :
    (inside path earlier).readFrom ((lines.map TraceBlock.dataRow).map String.toList ++ rows) =
      (inside path (earlier ++ lines.map fun (line, count) => (line, count.toNat))).readFrom
        rows := by
  induction lines generalizing earlier with
  | nil => rw [List.map_nil, List.map_nil, List.map_nil, List.append_nil, List.nil_append]
  | cons entry lines ih =>
      have read : TraceRow.read? (TraceBlock.dataRow entry).toList =
          some (.data entry.1 entry.2.toNat) := TraceRow.read?_data entry.1 entry.2.toNat
      rw [List.map_cons, List.map_cons, List.cons_append, readFrom_cons _ read rfl, ih]
      simp

/-- A block is read as its entry, whatever follows. -/
theorem readFrom_block (block : TraceBlock) (rows : List (List Char)) :
    outside.readFrom (block.rows.map String.toList ++ rows) =
      (outside.readFrom rows).map (block.entry :: ·) := by
  rw [TraceBlock.rows_eq, List.map_cons, List.map_append, List.cons_append, List.append_assoc,
    readFrom_cons outside (TraceRow.read?_source block.path) rfl, readFrom_data]
  simp only [List.map_cons, List.map_nil, List.cons_append, List.nil_append]
  rw [readFrom_cons (inside _ _) (TraceRow.read?_found block.lines.length) rfl,
    readFrom_cons (counted _ _ _) (TraceRow.read?_hit block.hit) rfl,
    readFrom_cons (closing _) TraceRow.read?_ended rfl]
  simp only [Option.map_map, Function.comp_def, List.nil_append]
  rfl

theorem readFrom_blocks (blocks : List TraceBlock) :
    outside.readFrom ((blocks.flatMap TraceBlock.rows).map String.toList) =
      some (blocks.map TraceBlock.entry) := by
  induction blocks with
  | nil => rfl
  | cons block blocks ih =>
      rw [List.flatMap_cons, List.map_append, readFrom_block, ih, Option.map_some, List.map_cons]

end TraceReader

/-- Reading a tracefile gives back what was written, if no path has a line feed. -/
theorem TraceEntry.readAll?_toText {blocks : List TraceBlock}
    (plain : ∀ block ∈ blocks, '\n' ∉ block.path.toList) :
    readAll? (Lines.toText (blocks.flatMap TraceBlock.rows)) =
      some (blocks.map TraceBlock.entry) := by
  have plain_rows : ∀ row ∈ blocks.flatMap TraceBlock.rows, '\n' ∉ row.toList := by
    intro row member
    obtain ⟨block, inside, member⟩ := List.mem_flatMap.mp member
    exact block.plain_rows (plain block inside) row member
  rw [readAll?, Lines.pieces_toText plain_rows, TraceReader.readFrom_blocks]

/-! ## Entries and outcomes -/

/-- The count that a tracefile has for a line of an outcome, if it has the line. -/
def Outcome.tracedCount? (outcome : Outcome) (line : Nat) : Option Nat :=
  match outcome with
  | .analyzed file =>
      if line ∈ file.statements.numbers then some (file.file.lines.getD line 0).toNat else none
  | .failed file _ => file.lines[line]?.map UInt64.toNat

namespace TraceEntry

/-- What an entry says about an outcome. -/
structure Shows (outcome : Outcome) (entry : TraceEntry) : Prop where
  /-- The path is that of the file. -/
  path : entry.path = outcome.file.path.text
  /-- Every line stands once, in ascending order. -/
  ascending : (entry.lines.map Prod.fst).Pairwise (· < ·)
  /-- Exactly the lines to be shown stand there, with their counts. -/
  lines : ∀ line count, (line, count) ∈ entry.lines ↔ outcome.tracedCount? line = some count
  /-- The first total is the number of lines. -/
  found : entry.found = entry.lines.length
  /-- The second total is the number of lines with a positive count. -/
  hit : entry.hit = entry.lines.countP fun (_, count) => 0 < count

/-- How the totals of an entry stand to the figures of the file. -/
structure Agrees (file : AnalyzedFile) (entry : TraceEntry) : Prop where
  /-- All statement lines are found. -/
  found : entry.found = file.figures.executable.toNat
  /-- Lines that are hit are covered. -/
  hit_le : entry.hit ≤ file.figures.covered.toNat
  /-- Lines that are covered are found. -/
  covered_le : file.figures.covered.toNat ≤ entry.found
  /-- Lines that are covered and not hit were recorded with no hits. -/
  difference : file.figures.covered.toNat - entry.hit =
    file.statements.numbers.countP fun line => file.file.lines[line]? = some 0

end TraceEntry

/-- A line with a count has a positive count or was recorded with no hits. -/
theorem LineCounts.countP_contains (lines : LineCounts) (chosen : List Nat) :
    chosen.countP lines.contains =
      (chosen.countP fun line => 0 < lines.getD line 0) +
        chosen.countP fun line => lines[line]? = some 0 := by
  induction chosen with
  | nil => rfl
  | cons line chosen ih =>
      rw [List.countP_cons, List.countP_cons, List.countP_cons, ih]
      rw [Std.TreeMap.contains_eq_isSome_getElem?, Std.TreeMap.getD_eq_getD_getElem?]
      cases lines[line]? with
      | none => simp
      | some count =>
          by_cases zero : count = 0
          · simp [zero]
            omega
          · simp [zero, UInt64.pos_iff_ne_zero]
            omega

namespace Outcome

theorem pairwise_traceBlock (outcome : Outcome) :
    (outcome.traceBlock.lines.map Prod.fst).Pairwise (· < ·) := by
  cases outcome with
  | analyzed file =>
      simp only [traceBlock, List.map_map, Function.comp_def, List.map_id']
      exact file.statements.ascending_numbers
  | failed file reason => exact file.lines.ascending

theorem mem_traceBlock {outcome : Outcome} {line count : Nat} :
    (line, count) ∈ outcome.traceBlock.entry.lines ↔ outcome.tracedCount? line = some count := by
  cases outcome with
  | analyzed file =>
      simp only [TraceBlock.entry, traceBlock, List.map_map, List.mem_map, Function.comp_def,
        Prod.mk.injEq, tracedCount?, Option.ite_none_right_eq_some,
        Option.some.injEq]
      constructor
      · rintro ⟨_, member, rfl, same⟩
        exact ⟨member, same⟩
      · rintro ⟨member, same⟩
        exact ⟨line, member, rfl, same⟩
  | failed file reason => exact LineCounts.mem_map_toNat

theorem traceBlock_shows (outcome : Outcome) : outcome.traceBlock.entry.Shows outcome where
  path := rfl
  ascending := by
    simp only [TraceBlock.entry, List.map_map]
    exact outcome.pairwise_traceBlock
  lines _ _ := mem_traceBlock
  found := (List.length_map _).symm
  hit := by
    simp only [TraceBlock.entry, TraceBlock.hit, List.countP_map, ← List.countP_eq_length_filter]
    rfl

theorem traceBlock_agrees {file : AnalyzedFile}
    (computed : file.figures = Figures.ofFile file.file file.statements) :
    (Outcome.analyzed file).traceBlock.entry.Agrees file := by
  have found : (Outcome.analyzed file).traceBlock.entry.found = file.figures.executable.toNat := by
    rw [TraceBlock.entry, traceBlock, List.length_map, computed, Figures.executable_ofFile]
  have hit : (Outcome.analyzed file).traceBlock.entry.hit =
      file.statements.numbers.countP fun line => 0 < file.file.lines.getD line 0 := by
    rw [TraceBlock.entry, TraceBlock.hit, traceBlock, ← List.countP_eq_length_filter,
      List.countP_map]
    rfl
  have covered : file.figures.covered.toNat = _ :=
    (congrArg (·.covered.toNat) computed).trans
      ((Figures.covered_ofFile file.file file.statements).trans
        (LineCounts.countP_contains file.file.lines file.statements.numbers))
  have bound := Figures.covered_le_executable file.file file.statements
  constructor
  · exact found
  · rw [hit, covered]
    exact Nat.le_add_right _ _
  · rw [found, computed]
    exact UInt64.le_iff_toNat_le.mp bound
  · rw [hit, covered, Nat.add_sub_cancel_left]

end Outcome

/-- A tracefile whose paths have no line feed can be read back.  It has one entry for every outcome,
in their order, with the path and, in ascending order, exactly the lines and counts to be shown:
those of all statements of an analyzed file, those recorded for a failed one.  The totals of an
entry count its lines and its lines with a positive count; for an analyzed file with the figures
that follow from its hits they are all statement lines and the covered ones except for those that
were recorded with no hits. -/
theorem Report.tracefile_reads_back (report : Report)
    (plain : ∀ outcome ∈ report.outcomes, '\n' ∉ outcome.file.path.text.toList) :
    ∃ entries, TraceEntry.readAll? report.tracefile = some entries ∧
      List.Forall₂
        (fun outcome entry => entry.Shows outcome ∧
          ∀ file, outcome = .analyzed file →
            file.figures = Figures.ofFile file.file file.statements → entry.Agrees file)
        report.outcomes entries := by
  refine ⟨_, TraceEntry.readAll?_toText ?_, ?_⟩
  · intro block member
    obtain ⟨outcome, inside, rfl⟩ := List.mem_map.mp member
    exact plain outcome inside
  · rw [traceBlocks, List.map_map, List.forall₂_map_right_iff, List.forall₂_same]
    intro outcome _
    refine ⟨outcome.traceBlock_shows, ?_⟩
    rintro file rfl computed
    exact Outcome.traceBlock_agrees computed

/-- A file with three statements, one of them recorded with no hits and one not recorded, and a file
that cannot be analyzed, whose path looks like a line of a tracefile. -/
theorem tracefile_reads_back_figures :
    let hits : FileHits :=
      (((FileHits.new (.ofText "/a.lua")).addHits 1 4).addHits 2 9).addHits 3 0
    let file : AnalyzedFile :=
      { file := hits, source := [], statements := .ofList [(1 : UInt32), 3, 4] }
    let other : FileHits := (FileHits.new (.ofText "/end_of_record")).addHits 1 2
    let report : Report :=
      { totalPoints := 4, totalFiles := 2, outcomes := [.analyzed file, .failed other "none"] }
    (∀ outcome ∈ report.outcomes, '\n' ∉ outcome.file.path.text.toList) ∧
      ∃ first second, TraceEntry.readAll? report.tracefile = some [first, second] ∧
        first.found = 3 ∧ first.hit = 1 ∧ (3, 0) ∈ first.lines ∧
        second.path = "/end_of_record" ∧ (1, 2) ∈ second.lines := by
  intro hits file other report
  have plain : ∀ outcome ∈ report.outcomes, '\n' ∉ outcome.file.path.text.toList := by
    decide +kernel
  obtain ⟨entries, read, matched⟩ := report.tracefile_reads_back plain
  obtain ⟨first, _, ⟨shows, agrees⟩, rest, rfl⟩ := List.forall₂_cons_left_iff.mp matched
  obtain ⟨second, _, ⟨otherShows, -⟩, none, rfl⟩ := List.forall₂_cons_left_iff.mp rest
  obtain rfl := List.forall₂_nil_left_iff.mp none
  have agreement := agrees file rfl rfl
  have executable : file.figures.executable.toNat = 3 := by decide +kernel
  have covered : file.figures.covered.toNat = 2 := by decide +kernel
  have unhit :
      (file.statements.numbers.countP fun line => file.file.lines[line]? = some 0) = 1 := by
    decide +kernel
  have difference := agreement.difference
  have hit_le := agreement.hit_le
  rw [covered] at hit_le
  rw [covered, unhit] at difference
  refine ⟨plain, first, second, read, agreement.found.trans executable, by omega, ?_, ?_, ?_⟩
  · exact (shows.lines 3 0).mpr (by decide +kernel)
  · exact otherShows.path.trans (by decide +kernel)
  · exact (otherShows.lines 1 2).mpr (by decide +kernel)

end LuaCoverage
