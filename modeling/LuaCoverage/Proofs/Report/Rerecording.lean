import LuaCoverage.Proofs.Coverage.Rerecording
import LuaCoverage.Proofs.Report.Blocks

/-!
# Reports on the same hits recorded in another way

Coverages that hold the same are reported with the same blocks, in the order of their files.  So a
report says what was executed and nothing about how that was recorded, except that its blocks stand
in the order in which the files were first met.
-/

namespace LuaCoverage

/-- Coverages that are the same but for the order of their files. -/
structure Coverage.SameButOrder (first second : Coverage) : Prop where
  /-- As many records are counted. -/
  points : first.points = second.points
  /-- No path stands twice, so that a path has one table of counts. -/
  distinct : (first.files.map (·.path)).Nodup
  /-- The same names, paths and counts are there. -/
  contents : (first.files.map FileHits.content).Perm (second.files.map FileHits.content)

/-- Reports with the same totals and with the same blocks in some order, in every form. -/
structure Report.SameButOrder (first second : Report) : Prop where
  /-- The text is one header and the blocks. -/
  text : ∀ options : TextOptions,
    first.text options = first.header ++ String.join (first.textBlocks options) ∧
    second.text options = first.header ++ String.join (second.textBlocks options) ∧
    (first.textBlocks options).Perm (second.textBlocks options)
  /-- The document is the totals and the blocks. -/
  json :
    first.json = jsonOf first.totalPoints first.totalFiles first.jsonBlocks ∧
    second.json = jsonOf first.totalPoints first.totalFiles second.jsonBlocks ∧
    first.jsonBlocks.Perm second.jsonBlocks
  /-- The tracefile is the blocks. -/
  tracefile :
    first.tracefile = String.join first.tracefileBlocks ∧
    second.tracefile = String.join second.tracefileBlocks ∧
    first.tracefileBlocks.Perm second.tracefileBlocks

/-- Reports that read the same in every form. -/
structure Report.Same (first second : Report) : Prop where
  /-- The text is the same. -/
  text : ∀ options : TextOptions, first.text options = second.text options
  /-- The document is the same. -/
  json : first.json = second.json
  /-- The tracefile is the same. -/
  tracefile : first.tracefile = second.tracefile

theorem Report.header_congr {first second : Report}
    (points : first.totalPoints = second.totalPoints)
    (files : first.totalFiles = second.totalFiles) : first.header = second.header := by
  unfold header
  rw [points, files]

namespace Outcome

/-- A text for every outcome that says the same about outcomes that are alike. -/
def Respects (view : Outcome → String) : Prop :=
  ∀ outcome other : Outcome, outcome.Alike other → view outcome = view other

namespace Respects

variable {view : Outcome → String}

theorem ofContent (respects : Respects view) (system : FileSystem) (grammar : Grammar) :
    FileHits.OfContent fun file => view (ofFile system grammar file) := by
  intro file other same
  exact respects _ _ (ofFile_alike system grammar same)

variable {first second : Coverage} (system : FileSystem) (grammar : Grammar)
  (filter : Option String)

theorem map_perm (respects : Respects view)
    (perm : (first.files.map FileHits.content).Perm (second.files.map FileHits.content)) :
    ((first.report system grammar filter).outcomes.map view).Perm
      ((second.report system grammar filter).outcomes.map view) := by
  simp only [Coverage.report, List.map_map]
  apply (respects.ofContent system grammar).map_perm
  rw [first.map_content_filesNamed, second.map_content_filesNamed]
  exact perm.filter _

theorem map_eq (respects : Respects view)
    (same : first.files.map FileHits.content = second.files.map FileHits.content) :
    (first.report system grammar filter).outcomes.map view =
      (second.report system grammar filter).outcomes.map view := by
  simp only [Coverage.report, List.map_map]
  apply (respects.ofContent system grammar).map_congr
  rw [first.map_content_filesNamed, second.map_content_filesNamed, same]

end Respects

theorem respects_text (options : TextOptions) : Respects (text options) :=
  fun _ _ alike => alike.text_eq options

theorem respects_json : Respects fun outcome => outcome.json.print 2 :=
  fun _ _ alike => congrArg (Json.print 2) alike.json_eq

theorem respects_traceBlock : Respects fun outcome => Lines.toText outcome.traceBlock.rows :=
  fun _ _ alike => congrArg (fun block => Lines.toText block.rows) alike.traceBlock_eq

end Outcome

namespace Coverage

variable {first second : Coverage} (system : FileSystem) (grammar : Grammar)
  (filter : Option String)

theorem SameButOrder.report (same : first.SameButOrder second) :
    (first.report system grammar filter).SameButOrder (second.report system grammar filter) := by
  have points : (second.report system grammar filter).totalPoints =
      (first.report system grammar filter).totalPoints := same.points.symm
  have files : (second.report system grammar filter).totalFiles =
      (first.report system grammar filter).totalFiles := by
    have lengths := same.contents.length_eq.symm
    rwa [List.length_map, List.length_map] at lengths
  have header := Report.header_congr points files
  constructor
  · intro options
    refine ⟨Report.text_eq_blocks _ options, ?_, ?_⟩
    · rw [Report.text_eq_blocks, header]
    · exact (Outcome.respects_text options).map_perm system grammar filter same.contents
  · refine ⟨Report.json_eq_blocks _, ?_, ?_⟩
    · rw [Report.json_eq_blocks, points, files]
    · exact Outcome.respects_json.map_perm system grammar filter same.contents
  · refine ⟨Report.tracefile_eq_blocks _, Report.tracefile_eq_blocks _, ?_⟩
    exact Outcome.respects_traceBlock.map_perm system grammar filter same.contents

theorem report_same (points : first.points = second.points)
    (contents : first.files.map FileHits.content = second.files.map FileHits.content) :
    (first.report system grammar filter).Same (second.report system grammar filter) := by
  have points : (first.report system grammar filter).totalPoints =
      (second.report system grammar filter).totalPoints := points
  have files : (first.report system grammar filter).totalFiles =
      (second.report system grammar filter).totalFiles := by
    have lengths := congrArg List.length contents
    rwa [List.length_map, List.length_map] at lengths
  constructor
  · intro options
    have blocks := (Outcome.respects_text options).map_eq system grammar filter contents
    rw [Report.text_eq_blocks, Report.text_eq_blocks, Report.header_congr points files]
    exact congrArg (_ ++ String.join ·) blocks
  · have blocks := Outcome.respects_json.map_eq system grammar filter contents
    rw [Report.json_eq_blocks, Report.json_eq_blocks, points, files]
    exact congrArg (Report.jsonOf _ _) blocks
  · rw [Report.tracefile_eq_blocks, Report.tracefile_eq_blocks]
    exact congrArg String.join
      (Outcome.respects_traceBlock.map_eq system grammar filter contents)

end Coverage

namespace Profile

variable {system : FileSystem} {root : Path} {before after : List Entry} {first second : Coverage}

theorem Rerecorded.sameButOrder (rerecorded : Rerecorded system root before after)
    (beforeStorable : ∀ entry ∈ before, entry.Storable)
    (afterStorable : ∀ entry ∈ after, entry.Storable)
    (firstLoaded : (Coverage.ofProfile system root (encode before)).1 = .ok first)
    (secondLoaded : (Coverage.ofProfile system root (encode after)).1 = .ok second) :
    first.SameButOrder second := by
  obtain ⟨credits, reflects, executed⟩ := exists_credits_of_ofProfile beforeStorable firstLoaded
  obtain ⟨others, otherReflects, otherExecuted⟩ :=
    exists_credits_of_ofProfile afterStorable secondLoaded
  have perm : (credits.map Credit.execution).Perm (others.map Credit.execution) := by
    rw [executed, otherExecuted]
    exact rerecorded.filterMap_perm (Entry.execution?_ignoresSpelling system root)
  constructor
  · rw [reflects.points, otherReflects.points]
    simpa using perm.length_eq
  · exact reflects.distinct
  · exact reflects.contents_perm otherReflects perm

theorem Respelled.contents_eq (respelled : Respelled system root before after)
    (beforeStorable : ∀ entry ∈ before, entry.Storable)
    (afterStorable : ∀ entry ∈ after, entry.Storable)
    (firstLoaded : (Coverage.ofProfile system root (encode before)).1 = .ok first)
    (secondLoaded : (Coverage.ofProfile system root (encode after)).1 = .ok second) :
    first.points = second.points ∧
      first.files.map FileHits.content = second.files.map FileHits.content := by
  obtain ⟨credits, reflects, executed⟩ := exists_credits_of_ofProfile beforeStorable firstLoaded
  obtain ⟨others, otherReflects, otherExecuted⟩ :=
    exists_credits_of_ofProfile afterStorable secondLoaded
  have same : credits.map Credit.execution = others.map Credit.execution := by
    rw [executed, otherExecuted]
    exact respelled.filterMap_eq (Entry.execution?_ignoresSpelling system root)
  constructor
  · rw [reflects.points, otherReflects.points]
    simpa using congrArg List.length same
  · exact reflects.contents_eq otherReflects same

/-- Recording the same hits in another way, be it in another order, under other spellings or with
other tags that are passed over, has no effect on whether the profile loads.  The coverage is the
same but for the order of its files, and so are all its reports but for the order of their blocks.
In the same order the reports are the same. -/
theorem rerecording_keeps_reports (system : FileSystem) (root : Path) (before after : List Entry)
    (beforeStorable : ∀ entry ∈ before, entry.Storable)
    (afterStorable : ∀ entry ∈ after, entry.Storable) :
    (Rerecorded system root before after →
      ((∃ first, (Coverage.ofProfile system root (encode before)).1 = .ok first) ↔
        ∃ second, (Coverage.ofProfile system root (encode after)).1 = .ok second) ∧
      ∀ first second : Coverage,
        (Coverage.ofProfile system root (encode before)).1 = .ok first →
        (Coverage.ofProfile system root (encode after)).1 = .ok second →
        first.SameButOrder second ∧
        ∀ (grammar : Grammar) (filter : Option String),
          (first.report system grammar filter).SameButOrder
            (second.report system grammar filter)) ∧
    (Respelled system root before after →
      ∀ first second : Coverage,
        (Coverage.ofProfile system root (encode before)).1 = .ok first →
        (Coverage.ofProfile system root (encode after)).1 = .ok second →
        ∀ (grammar : Grammar) (filter : Option String),
          (first.report system grammar filter).Same (second.report system grammar filter)) := by
  constructor
  · intro rerecorded
    constructor
    · have perm := rerecorded.filterMap_perm (Entry.offence?_ignoresSpelling system root)
      rw [exists_ofProfile_encode_iff beforeStorable, exists_ofProfile_encode_iff afterStorable]
      constructor
      · intro unoffended
        rw [unoffended] at perm
        exact perm.nil_eq.symm
      · intro unoffended
        rw [unoffended] at perm
        exact perm.eq_nil
    · intro first second firstLoaded secondLoaded
      have same := rerecorded.sameButOrder beforeStorable afterStorable firstLoaded secondLoaded
      exact ⟨same, fun grammar filter => same.report system grammar filter⟩
  · intro respelled first second firstLoaded secondLoaded grammar filter
    obtain ⟨points, contents⟩ :=
      respelled.contents_eq beforeStorable afterStorable firstLoaded secondLoaded
    exact Coverage.report_same system grammar filter points contents

/-- One source under two spellings, two tags in another order and a new tag that is passed over. -/
theorem rerecording_keeps_reports_reversed :
    let before : List Entry := [⟨"@a.lua:1", 3⟩, ⟨"x/../b.lua:2", 1⟩]
    let after : List Entry := [⟨"b.lua:+02", 1⟩, ⟨"=[C]", 9⟩, ⟨"@a.lua:1", 3⟩]
    ∃ first second : Coverage,
      (Coverage.ofProfile .singleDirectory ⟨[]⟩ (encode before)).1 = .ok first ∧
      (Coverage.ofProfile .singleDirectory ⟨[]⟩ (encode after)).1 = .ok second ∧
      first.SameButOrder second := by
  intro before after
  have respells : Entry.Respells .singleDirectory ⟨[]⟩ ⟨"x/../b.lua:2", 1⟩ ⟨"b.lua:+02", 1⟩ :=
    ⟨rfl, "x/../b.lua", "b.lua", 2, .ofText "/b.lua", by decide +kernel⟩
  have reordered : Rerecording .singleDirectory ⟨[]⟩ before
      [⟨"x/../b.lua:2", 1⟩, ⟨"@a.lua:1", 3⟩] :=
    .reorder (.swap _ _ [])
  have respelling : Respelling .singleDirectory ⟨[]⟩ [⟨"x/../b.lua:2", 1⟩, ⟨"@a.lua:1", 3⟩]
      [⟨"b.lua:+02", 1⟩, ⟨"@a.lua:1", 3⟩] :=
    .replace [] [⟨"@a.lua:1", 3⟩] respells
  have insertion : Respelling .singleDirectory ⟨[]⟩ [⟨"b.lua:+02", 1⟩, ⟨"@a.lua:1", 3⟩] after :=
    .insert [⟨"b.lua:+02", 1⟩] [⟨"@a.lua:1", 3⟩] (by decide +kernel)
  have rerecorded : Rerecorded .singleDirectory ⟨[]⟩ before after :=
    .tail (.tail (.single reordered) (.respell respelling)) (.respell insertion)
  have beforeStorable : ∀ entry ∈ before, entry.Storable := by decide +kernel
  have afterStorable : ∀ entry ∈ after, entry.Storable := by decide +kernel
  have unoffended : before.filterMap (Entry.offence? .singleDirectory ⟨[]⟩) = [] := by
    decide +kernel
  obtain ⟨loads_iff, loaded⟩ := (rerecording_keeps_reports .singleDirectory ⟨[]⟩ before after
    beforeStorable afterStorable).1 rerecorded
  obtain ⟨first, firstLoaded⟩ := (exists_ofProfile_encode_iff beforeStorable).mpr unoffended
  obtain ⟨second, secondLoaded⟩ := loads_iff.mp ⟨first, firstLoaded⟩
  exact ⟨first, second, firstLoaded, secondLoaded,
    (loaded first second firstLoaded secondLoaded).1⟩

end Profile
end LuaCoverage
