import LuaCoverage.Coverage.Basic
import LuaCoverage.Coverage.Figures
import Mathlib.Data.List.Perm.Basic
import Mathlib.Logic.Function.Basic

/-!
# The content of hits

Maps of counts can hold the same counts in different shapes, according to the order in which lines
were added.  The content of a file leaves the shape out: it is its name, its path and the counts of
its lines in order.  What follows from the content alone is the same for files in any shape.
-/

namespace LuaCoverage

/-- Every line stands once, in ascending order. -/
theorem LineCounts.ascending (lines : LineCounts) :
    (lines.toList.map Prod.fst).Pairwise (· < ·) := by
  rw [List.pairwise_map]
  exact Std.TreeMap.ordered_keys_toList.imp Nat.compare_eq_lt.mp

theorem LineCounts.mem_map_toNat {lines : LineCounts} {line count : Nat} :
    (line, count) ∈ lines.toList.map (fun (line, count) => (line, count.toNat)) ↔
      lines[line]?.map UInt64.toNat = some count := by
  rw [List.mem_map, Option.map_eq_some_iff]
  constructor
  · rintro ⟨⟨_, hits⟩, member, same⟩
    cases same
    exact ⟨hits, Std.TreeMap.mem_toList_iff_getElem?_eq_some.mp member, rfl⟩
  · rintro ⟨hits, found, rfl⟩
    exact ⟨(line, hits), Std.TreeMap.mem_toList_iff_getElem?_eq_some.mpr found, rfl⟩

/-- The content of a file. -/
structure FileContent where
  /-- Name of the file without its extension. -/
  name : String
  /-- The file itself. -/
  path : Path
  /-- Lines with their counts in ascending order. -/
  lines : List (Nat × UInt64)

namespace FileHits

/-- What a file holds, whatever the shape in which it holds it. -/
def content (file : FileHits) : FileContent where
  name := file.name
  path := file.path
  lines := file.lines.toList

section Same

variable {file other : FileHits}

theorem content_eq (name : file.name = other.name) (path : file.path = other.path)
    (lines : ∀ line : Nat, file.lines[line]? = other.lines[line]?) :
    file.content = other.content := by
  have equiv : file.lines.Equiv other.lines := Std.TreeMap.Equiv.of_forall_constGet?_eq lines
  rw [content, content, name, path, Std.TreeMap.equiv_iff_toList_eq.mp equiv]

variable (same : file.content = other.content)
include same

theorem name_of_content : file.name = other.name := congrArg FileContent.name same

theorem path_of_content : file.path = other.path := congrArg FileContent.path same

theorem equiv_of_content : file.lines.Equiv other.lines :=
  Std.TreeMap.equiv_iff_toList_eq.mpr (congrArg FileContent.lines same)

theorem greatestCount_of_content : file.greatestCount = other.greatestCount := by
  rw [greatestCount, greatestCount, (equiv_of_content same).values_eq]

theorem figures_of_content (statements : StatementLines) :
    Figures.ofFile file statements = Figures.ofFile other statements := by
  have contained : file.lines.contains = other.lines.contains := by
    funext line
    exact (equiv_of_content same).contains_eq
  rw [Figures.ofFile, Figures.ofFile, contained]

end Same

/-- A text for every file that follows from its content. -/
def OfContent (block : FileHits → String) : Prop := Function.FactorsThrough block content

namespace OfContent

variable {block : FileHits → String} {files others : List FileHits}

theorem map_eq (ofContent : OfContent block) (files : List FileHits) :
    files.map block = (files.map content).map (Function.extend content block fun _ => "") := by
  rw [List.map_map]
  apply List.map_congr_left
  intro file _
  exact (ofContent.extend_apply _ file).symm

theorem map_congr (ofContent : OfContent block)
    (same : files.map content = others.map content) : files.map block = others.map block := by
  rw [ofContent.map_eq, ofContent.map_eq, same]

theorem map_perm (ofContent : OfContent block)
    (perm : (files.map content).Perm (others.map content)) :
    (files.map block).Perm (others.map block) := by
  rw [ofContent.map_eq, ofContent.map_eq]
  exact perm.map _

end OfContent
end FileHits

namespace Coverage

/-- Whether the name of a content is asked for. -/
def asksFor (filter : Option String) (content : FileContent) : Bool :=
  match filter with
  | none => true
  | some name => content.name == name

theorem map_content_filesNamed (coverage : Coverage) (filter : Option String) :
    (coverage.filesNamed filter).map FileHits.content =
      (coverage.files.map FileHits.content).filter (asksFor filter) := by
  cases filter with
  | none => exact (List.filter_eq_self.mpr fun _ _ => rfl).symm
  | some name =>
      rw [filesNamed, List.filter_map]
      rfl

end Coverage
end LuaCoverage
