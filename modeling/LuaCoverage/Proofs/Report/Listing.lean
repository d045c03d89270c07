import LuaCoverage.Proofs.Coverage.Figures
import LuaCoverage.Proofs.Lua.Statements
import LuaCoverage.Proofs.Text.Decimal
import LuaCoverage.Proofs.Text.Lines
import LuaCoverage.Report.Text
import Mathlib

/-!
# Listings show what is counted

Every statement starts on a line of the source, and this line is not blank.  A listing has one row
for every line of the source, which shows the count of this line if it has one, so covered lines can
be counted in it.
-/

namespace LuaCoverage

/-- The count in front of a row, if there is one. -/
def shownCount? (row : List Char) : Option Nat :=
  Decimal.ofDigits? (row.takeWhile (· ≠ ' '))

/-- A row shows a count, blanks and a line of the source. -/
def Shows (row : List Char) (count : Nat) (text : String) : Prop :=
  ∃ blanks, row = count.repr.toList ++ (List.replicate blanks ' ' ++ ' ' :: text.toList)

/-! ## Rows -/

theorem takeWhile_blanks (blanks : Nat) (text : List Char) :
    (List.replicate blanks ' ' ++ ' ' :: text).takeWhile (· ≠ ' ') = [] := by
  cases blanks <;> rfl

theorem shownCount?_blanks (blanks : Nat) (text : List Char) :
    shownCount? (List.replicate blanks ' ' ++ ' ' :: text) = none := by
  rw [shownCount?, takeWhile_blanks]
  rfl

theorem shownCount?_repr (count blanks : Nat) (text : List Char) :
    shownCount? (count.repr.toList ++ (List.replicate blanks ' ' ++ ' ' :: text)) = some count := by
  have digits : ∀ character ∈ count.repr.toList, (character ≠ ' ' : Bool) := by
    intro character member
    refine decide_eq_true fun same => ?_
    exact Decimal.not_mem_repr (by decide) (same ▸ member)
  rw [shownCount?, List.takeWhile_append_of_pos digits, takeWhile_blanks, List.append_nil,
    Decimal.ofDigits?_repr]

namespace AnalyzedFile

variable (analyzed : AnalyzedFile)

/-- The row of a line as it is printed. -/
def row (line : Nat) (text : String) : List Char :=
  (analyzed.countText line).toList ++
    (List.replicate (analyzed.columnWidth - (analyzed.countText line).length) ' ' ++
      ' ' :: text.toList)

/-- The rows of the printed listing. -/
def printedRows : List (List Char) := Lines.pieces analyzed.listing.toList

theorem rowsFrom_map_toList (line : Nat) (texts : List String) :
    (analyzed.rowsFrom line texts).map String.toList =
      (texts.zipIdx line).map fun entry => analyzed.row entry.2 entry.1 := by
  induction texts generalizing line with
  | nil => rfl
  | cons text texts ih =>
      rw [rowsFrom, List.map_cons, ih, List.zipIdx_cons, List.map_cons]
      simp [row, padRight, Lines.toList_pushn]

theorem shownCount?_row (line : Nat) (text : String) :
    shownCount? (analyzed.row line text) = analyzed.file.lines[line]?.map UInt64.toNat := by
  rw [row, countText]
  cases analyzed.file.lines[line]? with
  | none => exact shownCount?_blanks ..
  | some count => exact shownCount?_repr ..

theorem not_mem_row {line : Nat} {text : String} (plain : '\n' ∉ text.toList) :
    '\n' ∉ analyzed.row line text := by
  have digits : '\n' ∉ (analyzed.countText line).toList := by
    rw [countText]
    cases analyzed.file.lines[line]? with
    | none => exact List.not_mem_nil
    | some count => exact Decimal.not_mem_repr (by decide)
  simp [row, digits, plain]

/-- The listing of lines without line feeds has one row for each of them. -/
theorem printedRows_eq (plain : ∀ text ∈ analyzed.source, '\n' ∉ text.toList) :
    analyzed.printedRows =
      (analyzed.source.zipIdx 1).map fun entry => analyzed.row entry.2 entry.1 := by
  rw [printedRows, listing, Lines.pieces_toText, rows, rowsFrom_map_toList]
  intro printed listed
  have listed := List.mem_map_of_mem (f := String.toList) listed
  rw [rows, rowsFrom_map_toList] at listed
  obtain ⟨⟨text, line⟩, entry, same⟩ := List.mem_map.mp listed
  rw [← same]
  exact analyzed.not_mem_row (plain text (List.fst_mem_of_mem_zipIdx entry))

end AnalyzedFile

/-! ## Counting lines -/

theorem countP_zipIdx {Item : Type} (items : List Item) (start : Nat) {ofEntry : Item × Nat → Bool}
    {ofLine : Nat → Bool}
    (agree : ∀ item line, (item, line) ∈ items.zipIdx start → ofEntry (item, line) = ofLine line) :
    (items.zipIdx start).countP ofEntry = (List.range' start items.length).countP ofLine := by
  rw [← List.zipIdx_map_snd start items, List.countP_map]
  refine List.countP_congr fun entry listed => ?_
  rw [agree entry.1 entry.2 listed]
  rfl

theorem countP_eq_countP_lines {Item : Type} (items : List Item) (test : Item → Bool) :
    items.countP test =
      (List.range' 1 items.length).countP fun line => items[line - 1]?.any test := by
  calc items.countP test
      = ((items.zipIdx 1).map Prod.fst).countP test := by rw [List.zipIdx_map_fst]
    _ = (items.zipIdx 1).countP (test ∘ Prod.fst) := List.countP_map
    _ = _ := countP_zipIdx items 1 fun item line listed => by
      obtain ⟨-, found⟩ := List.mk_mem_zipIdx_iff_le_and_getElem?_sub.mp listed
      rw [found]
      rfl

/-- Lines of statements may be counted among all lines. -/
theorem countP_statements {statements : StatementLines} {last : Nat}
    (within : ∀ line ∈ statements.numbers, 1 ≤ line ∧ line ≤ last) (test : Nat → Bool) :
    statements.numbers.countP test =
      (List.range' 1 last).countP fun line => test line && statements.numbers.contains line := by
  have distinct := statements.nodup_numbers
  have listed : statements.numbers.Perm
      ((List.range' 1 last).filter statements.numbers.contains) := by
    refine (List.perm_ext_iff_of_nodup distinct ((List.nodup_range' _).filter _)).mpr fun line => ?_
    rw [List.mem_filter, List.contains_iff_mem, List.mem_range'_1]
    constructor
    · intro member
      have := within line member
      exact ⟨by omega, member⟩
    · exact And.right
  rw [listed.countP_eq, List.countP_filter]

/-! ## Statements in the listing -/

namespace AnalyzedFile

/-- Statements start on lines of the source that are not blank. -/
structure Placed (analyzed : AnalyzedFile) : Prop where
  /-- Lines of the source are divided at every line feed. -/
  plain : ∀ text ∈ analyzed.source, '\n' ∉ text.toList
  /-- The line of a statement is one of the source. -/
  placed : ∀ line ∈ analyzed.statements.numbers, 1 ≤ line ∧
    ∃ text, analyzed.source[line - 1]? = some text ∧ Lines.isBlank text = false

namespace Placed

variable {analyzed : AnalyzedFile} (placed : analyzed.Placed)

include placed

theorem within {line : Nat} (listed : line ∈ analyzed.statements.numbers) :
    1 ≤ line ∧ line ≤ analyzed.source.length := by
  obtain ⟨positive, text, found, -⟩ := placed.placed line listed
  have inside := (List.getElem?_eq_some_iff.mp found).1
  omega

theorem getElem?_printedRows {line : Nat} (positive : 1 ≤ line) :
    analyzed.printedRows[line - 1]? = analyzed.source[line - 1]?.map (analyzed.row line) := by
  rw [analyzed.printedRows_eq placed.plain, List.getElem?_map, List.getElem?_zipIdx,
    Option.map_map, Nat.add_sub_cancel' positive]
  rfl

/-- A statement line with a count is shown with it. -/
theorem exists_row {line : Nat} (listed : line ∈ analyzed.statements.numbers) {count : UInt64}
    (counted : analyzed.file.lines[line]? = some count) :
    ∃ text row, analyzed.source[line - 1]? = some text ∧
      analyzed.printedRows[line - 1]? = some row ∧ Shows row count.toNat text := by
  obtain ⟨positive, text, found, -⟩ := placed.placed line listed
  have shown := placed.getElem?_printedRows positive
  rw [found, Option.map_some, row, countText, counted] at shown
  exact ⟨text, _, found, shown, _, rfl⟩

/-- Covered lines are the rows with a count on the lines of statements. -/
theorem covered_eq : (Figures.ofFile analyzed.file analyzed.statements).covered.toNat =
    (analyzed.printedRows.zipIdx 1).countP fun entry =>
      (shownCount? entry.1).isSome && analyzed.statements.numbers.contains entry.2 := by
  have length : analyzed.printedRows.length = analyzed.source.length := by
    rw [analyzed.printedRows_eq placed.plain, List.length_map, List.length_zipIdx]
  rw [Figures.covered_ofFile, countP_statements (fun _ => placed.within), ← length]
  refine (countP_zipIdx _ 1 fun printed line listed => ?_).symm
  obtain ⟨positive, found⟩ := List.mk_mem_zipIdx_iff_le_and_getElem?_sub.mp listed
  rw [placed.getElem?_printedRows positive] at found
  obtain ⟨text, -, rfl⟩ := Option.map_eq_some_iff.mp found
  rw [shownCount?_row, Option.isSome_map, ← Std.TreeMap.contains_eq_isSome_getElem?]

/-- There are no more statement lines than lines that are not blank. -/
theorem executable_le : (Figures.ofFile analyzed.file analyzed.statements).executable.toNat ≤
    analyzed.source.countP fun text => !Lines.isBlank text := by
  calc (Figures.ofFile analyzed.file analyzed.statements).executable.toNat
      = analyzed.statements.numbers.countP fun _ => true := by
        rw [List.countP_true, Figures.executable_ofFile]
    _ = (List.range' 1 analyzed.source.length).countP fun line =>
          true && analyzed.statements.numbers.contains line :=
        countP_statements (fun _ => placed.within) _
    _ ≤ (List.range' 1 analyzed.source.length).countP fun line =>
          analyzed.source[line - 1]?.any fun text => !Lines.isBlank text := by
        refine List.countP_mono_left fun line _ listed => ?_
        rw [Bool.true_and, List.contains_iff_mem] at listed
        obtain ⟨-, text, found, visible⟩ := placed.placed line listed
        rw [found, Option.any_some, visible]
        rfl
    _ = analyzed.source.countP fun text => !Lines.isBlank text :=
        (countP_eq_countP_lines ..).symm

end Placed
end AnalyzedFile

namespace Lua.Toolkit

variable {toolkit : Toolkit}

/-- A statement starts on a line of the source that is not blank. -/
theorem Lawful.exists_line_of_statement (lawful : toolkit.Lawful) {path : Path} {source : String}
    {statements : StatementLines} (accepted : toolkit.grammar path source = .ok statements)
    {line : Nat} (listed : line ∈ statements.numbers) :
    1 ≤ line ∧ ∃ text, (Lines.ofText source)[line - 1]? = some text ∧
      Lines.isBlank text = false := by
  obtain ⟨tree, parsed, rfl⟩ := exists_of_grammar accepted
  obtain ⟨⟨statement, token, others, inside, -, tokens, rfl⟩, -⟩ := lawful.mem_numbers_iff.mp listed
  have member : token ∈ tree.tokens := inside.mem_tokens (tokens ▸ List.mem_cons_self)
  obtain ⟨before, first, after, whole, visible, onLine⟩ := lawful.begins parsed token member
  have notFeed : first ≠ '\n' := fun same => absurd visible (same ▸ by decide)
  have notReturn : first ≠ '\r' := fun same => absurd visible (same ▸ by decide)
  obtain ⟨text, found, within⟩ := @Lines.exists_mem_split before after first notFeed notReturn
  refine ⟨by omega, String.ofList text, ?_, Lines.isBlank_eq_false within visible⟩
  rw [Lines.ofText, whole, List.getElem?_map, onLine, Nat.add_sub_cancel_left, found]
  rfl

end Lua.Toolkit

namespace AnalyzedFile

variable {system : FileSystem} {toolkit : Lua.Toolkit} {file : FileHits} {octets : List UInt8}
  {statements : StatementLines}

theorem load_eq (readable : system.read file.path = .ok octets)
    (accepted : toolkit.grammar file.path (Utf8.decode octets) = .ok statements) :
    load system toolkit.grammar file =
      .ok { file, source := Lines.ofText (Utf8.decode octets), statements } := by
  simp only [load, readable, Except.mapError, bind, Except.bind, accepted, pure, Except.pure]

theorem placed_of_accepted (lawful : toolkit.Lawful) {text : String}
    (accepted : toolkit.grammar file.path text = .ok statements) :
    Placed { file, source := Lines.ofText text, statements } where
  plain line listed := by
    obtain ⟨characters, member, rfl⟩ := List.mem_map.mp listed
    rw [String.toList_ofList]
    exact Lines.not_mem_of_mem_split member
  placed _ := lawful.exists_line_of_statement accepted

/-- Where the text of a file is accepted, every statement line is one of its lines and not blank.
The listing shows each of them that has a count with this count; the covered lines are the rows that
show a count and stand for a statement line, and no more lines can be covered than are not blank. -/
theorem load_shows_statements (lawful : toolkit.Lawful)
    (readable : system.read file.path = .ok octets)
    (accepted : toolkit.grammar file.path (Utf8.decode octets) = .ok statements) :
    ∃ analyzed, load system toolkit.grammar file = .ok analyzed ∧ analyzed.file = file ∧
      analyzed.source = Lines.ofText (Utf8.decode octets) ∧ analyzed.statements = statements ∧
      (∀ line ∈ statements.numbers, 1 ≤ line ∧ line ≤ analyzed.source.length ∧
        ∃ text, analyzed.source[line - 1]? = some text ∧ Lines.isBlank text = false) ∧
      (∀ line ∈ statements.numbers, ∀ count, file.lines[line]? = some count →
        ∃ text row, analyzed.source[line - 1]? = some text ∧
          analyzed.printedRows[line - 1]? = some row ∧ Shows row count.toNat text) ∧
      analyzed.figures.covered.toNat =
        ((analyzed.printedRows.zipIdx 1).countP fun entry =>
          (shownCount? entry.1).isSome && statements.numbers.contains entry.2) ∧
      analyzed.figures.executable.toNat ≤
        analyzed.source.countP fun text => !Lines.isBlank text := by
  have placed := placed_of_accepted lawful accepted
  refine ⟨_, load_eq readable accepted, rfl, rfl, rfl, fun line listed => ?_,
    fun line listed count => placed.exists_row listed, placed.covered_eq, placed.executable_le⟩
  obtain ⟨positive, within⟩ := placed.within listed
  exact ⟨positive, within, (placed.placed line listed).2⟩

/-- A call on the second line, behind a comment that is no valid text. -/
theorem load_shows_statements_call :
    let octets : List UInt8 := [0x2D, 0x2D, 0xFF, 0x0A, 0x66, 0x28, 0x29]
    let system : FileSystem :=
      { realpath := .ok, isFile := fun _ => .ok true, read := fun _ => .ok octets }
    let file : FileHits :=
      { name := "f", path := Path.ofText "f.lua", lines := (∅ : LineCounts).insert 2 7 }
    Lua.Toolkit.native.Lawful ∧ system.read file.path = .ok octets ∧
      ∃ statements, Lua.Toolkit.native.grammar file.path (Utf8.decode octets) = .ok statements ∧
        statements.numbers = [2] ∧
        ∃ analyzed, load system Lua.Toolkit.native.grammar file = .ok analyzed ∧
          ∃ text row, analyzed.source[1]? = some text ∧ analyzed.printedRows[1]? = some row ∧
            Shows row 7 text := by
  intro octets system file
  have lawful := Lua.Toolkit.native_lawful
  have found : (Lua.Toolkit.native.grammar file.path (Utf8.decode octets)).toOption.map
      StatementLines.numbers = some [2] := by decide +kernel
  obtain ⟨statements, accepted, numbers⟩ := Lua.Toolkit.exists_of_numbers found
  obtain ⟨analyzed, loaded, _, _, _, _, shown, _, _⟩ :=
    @load_shows_statements system _ file octets _ lawful rfl accepted
  have counted : file.lines[2]? = some 7 := Std.TreeMap.getElem?_insert_self
  exact ⟨lawful, rfl, statements, accepted, numbers, analyzed, loaded,
    shown 2 (numbers ▸ List.mem_singleton_self 2) 7 counted⟩

end AnalyzedFile
end LuaCoverage
