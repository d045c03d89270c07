import LuaCoverage.Proofs.Coverage.Gathering

/-!
# Loaded profiles

Loading a profile fails with the first offence among its complete records.  A profile that loads has
the files and hits that the credits of these records say, and nothing else.
-/

namespace LuaCoverage

/-- A coverage holds what credits say. -/
structure Coverage.Reflects (coverage : Coverage) (credits : List Credit) : Prop where
  /-- Files stand in the order of their first credit. -/
  paths : coverage.files.map (·.path) = (credits.map (·.path)).eraseDups
  /-- No path stands twice. -/
  distinct : (coverage.files.map (·.path)).Nodup
  /-- Every file has the lines and hits of its credits. -/
  files : ∀ file ∈ coverage.files, file.Reflects credits
  /-- Every credit is counted. -/
  points : coverage.points = credits.length

theorem Tally.Reflects.coverage_reflects {tally : Tally} {root : Path} {credits : List Credit}
    (reflects : tally.Reflects root credits) : tally.coverage.Reflects credits where
  paths := reflects.paths
  distinct := reflects.indexed.nodup_paths
  files file member := by
    obtain ⟨index, found⟩ := List.mem_iff_getElem?.mp member
    rw [coverage, Array.getElem?_toList] at found
    exact reflects.files index file found
  points := reflects.points

namespace Coverage

section Division

variable {octets tail : List UInt8} {records : List RawRecord}

/-- The first offence is the failure; without one, all credits are there. -/
theorem ofProfile_of_splits (system : FileSystem) (root : Path)
    (splits : Profile.Splits octets records tail) :
    match records.findSome? (·.offence? system root) with
    | some error => (ofProfile system root octets).1 = .error error
    | none => ∃ coverage, (ofProfile system root octets).1 = .ok coverage ∧
        coverage.Reflects (records.filterMap (·.credit? system root)) := by
  have restSplits : Profile.Splits (Decoder.new octets).rest records tail := splits
  have gathered := Tally.gatherAfter_of_splits restSplits (Tally.empty_reflects root)
    (nofun : Tally.Found system root []) #[]
  cases offence : records.findSome? (·.offence? system root) with
  | some error =>
      rw [offence] at gathered
      exact ofProfile_of_failure gathered
  | none =>
      rw [offence] at gathered
      obtain ⟨succeeded, reflects⟩ := gathered
      rw [List.nil_append] at reflects
      exact ⟨_, ofProfile_of_success succeeded, reflects.coverage_reflects⟩

variable {system : FileSystem} {root : Path}

theorem ofProfile_eq_error_iff (splits : Profile.Splits octets records tail) {error : Error} :
    (ofProfile system root octets).1 = .error error ↔
      records.findSome? (·.offence? system root) = some error := by
  have loaded := ofProfile_of_splits system root splits
  cases offence : records.findSome? (·.offence? system root) with
  | some first =>
      rw [offence] at loaded
      rw [loaded, Except.error.injEq, Option.some.injEq]
  | none =>
      rw [offence] at loaded
      obtain ⟨coverage, loaded, -⟩ := loaded
      rw [loaded]
      exact iff_of_false nofun nofun

theorem exists_ofProfile_iff (splits : Profile.Splits octets records tail) :
    (∃ coverage, (ofProfile system root octets).1 = .ok coverage) ↔
      records.findSome? (·.offence? system root) = none := by
  cases loaded : (ofProfile system root octets).1 with
  | error error =>
      rw [(ofProfile_eq_error_iff splits).mp loaded]
      exact iff_of_false nofun nofun
  | ok coverage =>
      apply iff_of_true ⟨coverage, rfl⟩
      rw [Option.eq_none_iff_forall_ne_some]
      intro error offence
      rw [(ofProfile_eq_error_iff splits).mpr offence] at loaded
      cases loaded

theorem reflects_of_ofProfile (splits : Profile.Splits octets records tail) {coverage : Coverage}
    (loaded : (ofProfile system root octets).1 = .ok coverage) :
    coverage.Reflects (records.filterMap (·.credit? system root)) := by
  have gathered := ofProfile_of_splits system root splits
  rw [(exists_ofProfile_iff splits).mp ⟨coverage, loaded⟩, loaded] at gathered
  obtain ⟨same, same_eq, reflects⟩ := gathered
  cases same_eq
  exact reflects

end Division

namespace Reflects

variable {coverage : Coverage} {credits : List Credit}

theorem mem_paths (reflects : coverage.Reflects credits) {path : Path} :
    path ∈ coverage.files.map (·.path) ↔ path ∈ credits.map (·.path) := by
  rw [reflects.paths, List.mem_eraseDups]

end Reflects

/-- What a profile means.  Loading fails exactly if some complete record offends, with the error of
the first one that does.  Otherwise every attributed record earns a credit: the files are those that
are credited, each once and in the order of their first record; a file has exactly the lines that
are credited, each with the sum of its hits up to the greatest count; and every credit is a
point. -/
theorem ofProfile_meaning (system : FileSystem) (root : Path) (octets : List UInt8) :
    ∃ (records : List RawRecord) (tail : List UInt8),
      Profile.Splits octets records tail ∧
      (∀ others otherTail, Profile.Splits octets others otherTail →
        others = records ∧ otherTail = tail) ∧
      ((∃ error, (ofProfile system root octets).1 = .error error) ↔
        ∃ record ∈ records, record.Offends system root) ∧
      (∀ error, (ofProfile system root octets).1 = .error error ↔
        ∃ front record behind, records = front ++ record :: behind ∧
          (∀ earlier ∈ front, ¬ earlier.Offends system root) ∧
          record.OffendsWith system root error) ∧
      ((∀ record ∈ records, ¬ record.Offends system root) →
        ∃ (coverage : Coverage) (credits : List Credit),
          (ofProfile system root octets).1 = .ok coverage ∧
          List.Forall₂ (RawRecord.Earns system root) (records.filter (·.Attributed)) credits ∧
          coverage.files.map (·.path) = (credits.map (·.path)).eraseDups ∧
          (∀ file ∈ coverage.files, ∀ line,
            (line ∈ file.lines ↔
              ∃ credit ∈ credits, credit.path = file.path ∧ credit.record.line = line) ∧
            (file.lines.getD line 0).toNat =
              min 18446744073709551615 (Credit.total credits file.path line)) ∧
          coverage.points = records.countP (·.Attributed)) := by
  have splits := Profile.splits_split octets
  refine ⟨(Profile.split octets).1, (Profile.split octets).2, splits,
    fun _ _ others => others.unique splits, ?_⟩
  generalize (Profile.split octets).1 = records at splits
  have failing (error : Error) : (ofProfile system root octets).1 = .error error ↔ _ :=
    (ofProfile_eq_error_iff splits).trans findSome?_offence?_eq_some_iff
  refine ⟨?_, failing, fun clean => ?_⟩
  · constructor
    · rintro ⟨error, failed⟩
      obtain ⟨front, record, behind, rfl, -, offends⟩ := (failing error).mp failed
      exact ⟨record, List.mem_append_right _ List.mem_cons_self, error, offends⟩
    · rintro ⟨record, member, offends⟩
      by_contra succeeded
      obtain ⟨coverage, loaded⟩ : ∃ coverage, (ofProfile system root octets).1 = .ok coverage := by
        cases loaded : (ofProfile system root octets).1 with
        | error error => exact absurd ⟨error, loaded⟩ succeeded
        | ok coverage => exact ⟨coverage, rfl⟩
      have unoffended := (exists_ofProfile_iff splits).mp ⟨coverage, loaded⟩
      have clean := List.findSome?_eq_none_iff.mp unoffended record member
      exact RawRecord.offence?_eq_none_iff.mp clean offends
  · have unoffended : ∀ record ∈ records, record.offence? system root = none :=
      fun record member => RawRecord.offence?_eq_none_iff.mpr (clean record member)
    have foundAll := Profile.clean_of_unoffended unoffended
    obtain ⟨coverage, loaded⟩ :=
      (exists_ofProfile_iff splits).mpr (List.findSome?_eq_none_iff.mpr unoffended)
    have reflects := reflects_of_ofProfile splits loaded
    refine ⟨coverage, _, loaded, forall₂_credits foundAll, reflects.paths,
      fun file member line => ?_,
      reflects.points.trans (length_credits foundAll)⟩
    have holds := reflects.files file member
    exact ⟨holds.named line, holds.hits line⟩

/-- Two spellings of one file add up, and a tag without a colon is passed over.  A bad line number
between them is the failure. -/
theorem ofProfile_meaning_respelled :
    let plain : RawRecord := { tag := [0x70], count := 4 }
    let short : RawRecord := { tag := [0x40, 0x61, 0x3A, 0x31], count := 2 }
    let long : RawRecord := { tag := [0x78, 0x2F, 0x61, 0x3A, 0x31], count := 3 }
    let bad : RawRecord := { tag := [0x62, 0x3A, 0x78], count := 1 }
    (∃ coverage,
      (ofProfile .singleDirectory ⟨[]⟩ (Profile.encodeAll [plain, short, long] ++ [7])).1 =
        .ok coverage ∧
      coverage.points = 2 ∧ coverage.files.map (·.path) = [⟨[0x2F, 0x61]⟩] ∧
      ∀ file ∈ coverage.files, (file.lines.getD 1 0).toNat = 5) ∧
      (ofProfile .singleDirectory ⟨[]⟩ (Profile.encodeAll [plain, short, bad, long] ++ [7])).1 =
        .error (.badLine "b:x") := by
  intro plain short long bad
  have plain_reading : plain.reading = .passed := by decide +kernel
  have short_reading : short.reading = .located "a" 1 := by decide +kernel
  have long_reading : long.reading = .located "x/a" 1 := by decide +kernel
  have bad_reading : bad.reading = .badLine "b:x" := by decide +kernel
  have short_leads : FileSystem.singleDirectory.findSource ⟨[]⟩ "a" (Tag.render "a" 1) =
      .ok ⟨[0x2F, 0x61]⟩ := by rfl
  have long_leads : FileSystem.singleDirectory.findSource ⟨[]⟩ "x/a" (Tag.render "x/a" 1) =
      .ok ⟨[0x2F, 0x61]⟩ := by rfl
  have plain_clean : ¬ plain.Offends .singleDirectory ⟨[]⟩ :=
    RawRecord.offence?_eq_none_iff.mp (RawRecord.offence?_passed plain_reading)
  have short_clean : ¬ short.Offends .singleDirectory ⟨[]⟩ :=
    RawRecord.offence?_eq_none_iff.mp (RawRecord.offence?_found short_reading short_leads)
  have long_clean : ¬ long.Offends .singleDirectory ⟨[]⟩ :=
    RawRecord.offence?_eq_none_iff.mp (RawRecord.offence?_found long_reading long_leads)
  constructor
  · obtain ⟨records, tail, -, unique, -, -, loads⟩ :=
      ofProfile_meaning .singleDirectory ⟨[]⟩ (Profile.encodeAll [plain, short, long] ++ [7])
    obtain ⟨rfl, rfl⟩ := unique [plain, short, long] [7]
      ⟨rfl, by decide, Profile.incomplete_of_length_lt (by decide)⟩
    have clean : ∀ record ∈ [plain, short, long], ¬ record.Offends .singleDirectory ⟨[]⟩ := by
      simp only [List.forall_mem_cons]
      exact ⟨plain_clean, short_clean, long_clean, nofun⟩
    obtain ⟨coverage, credits, loaded, earned, paths, lines, points⟩ := loads clean
    have attributed : [plain, short, long].filter (·.Attributed) = [short, long] := by
      decide +kernel
    rw [attributed] at earned
    cases earned with
    | cons first earned =>
      cases earned with
      | cons second earned =>
        cases earned
        obtain rfl := first.eq_of_found short_reading short_leads
        obtain rfl := second.eq_of_found long_reading long_leads
        refine ⟨coverage, loaded, points.trans (by decide +kernel), paths, fun file member => ?_⟩
        have path : file.path ∈ coverage.files.map (·.path) := List.mem_map_of_mem member
        rw [paths] at path
        obtain same : file.path = ⟨[0x2F, 0x61]⟩ := by simpa using path
        rw [(lines file member 1).2, same]
        rfl
  · obtain ⟨records, tail, -, unique, -, failing, -⟩ :=
      ofProfile_meaning .singleDirectory ⟨[]⟩ (Profile.encodeAll [plain, short, bad, long] ++ [7])
    obtain ⟨rfl, rfl⟩ := unique [plain, short, bad, long] [7]
      ⟨rfl, by decide, Profile.incomplete_of_length_lt (by decide)⟩
    refine (failing _).mpr ⟨[plain, short], bad, [long], rfl, ?_, ?_⟩
    · simp only [List.forall_mem_cons]
      exact ⟨plain_clean, short_clean, nofun⟩
    · exact RawRecord.offence?_eq_some_iff.mp (RawRecord.offence?_badLine bad_reading)

end Coverage
end LuaCoverage
