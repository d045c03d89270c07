import LuaCoverage.Proofs.Profile.Decoding
import LuaCoverage.Proofs.Profile.Tag
import LuaCoverage.Proofs.Text.Ascii

/-!
# Records by the octets of their tags

Tags are read as text, with ill-formed octets replaced, and taken apart afterwards.  The outcome is
the one that the octets themselves have: leading at signs, the colons, a plus sign and digits are
counted and found in the text exactly where they stand in the octets.
-/

namespace LuaCoverage

namespace Decimal

theorem isMark_of_isNumeral {codes : List Nat} {number code : Nat}
    (numeral : IsNumeral codes number) (member : code ∈ codes) : Utf8.IsMark code := by
  have kinds := numeral.code_mem member
  rw [Utf8.IsMark]
  omega

/-- Octets spell a number exactly if the text that they are read as does. -/
theorem isNumeral_decode_iff {octets : List UInt8} {number : Nat} :
    IsNumeral ((Utf8.decode octets).toList.map Char.toNat) number ↔
      IsNumeral (octets.map UInt8.toNat) number := by
  rcases (Utf8.aligned_decode octets).codes with
    same | ⟨⟨code, member, unmarked⟩, other, among, unlike⟩
  · rw [same]
  · exact iff_of_false (fun numeral => unmarked (isMark_of_isNumeral numeral member))
      fun numeral => unlike (isMark_of_isNumeral numeral among)

end Decimal

namespace Tag

/-- The octet of the at sign. -/
def atSign : UInt8 := 0x40

/-- The octet of the colon. -/
def colon : UInt8 := 0x3A

theorem strip_decode (tag : List UInt8) :
    strip (Utf8.decode tag).toList = (Utf8.decode (tag.dropWhile (· == atSign))).toList :=
  Utf8.dropWhile_decode (show Utf8.IsMark atSign.toNat by decide) tag

theorem count_decode (octets : List UInt8) :
    (Utf8.decode octets).toList.count ':' = octets.count colon :=
  (Utf8.aligned_decode octets).count_eq (show Utf8.IsMark colon.toNat by decide)

theorem decode_around_colon (front numeral : List UInt8) :
    (Utf8.decode (front ++ colon :: numeral)).toList =
      (Utf8.decode front).toList ++ ':' :: (Utf8.decode numeral).toList :=
  Utf8.toList_decode_append_ascii (show colon.toNat < 0x80 by decide) front numeral

theorem colon_not_mem_decode {front : List UInt8} (plain : colon ∉ front) :
    ':' ∉ (Utf8.decode front).toList := by
  rw [← List.count_eq_zero, count_decode, List.count_eq_zero]
  exact plain

/-- Octets name a line exactly if the text that they are read as does, of the source that the octets
before the colon are read as. -/
theorem names_decode_iff {body : List UInt8} {source : List Char} {line : Nat} :
    Names Char.toNat (Utf8.decode body).toList source line ↔
      ∃ front, Names UInt8.toNat body front line ∧ source = (Utf8.decode front).toList := by
  constructor
  · intro names
    obtain ⟨one, source_eq, found⟩ := names_iff.mp names
    obtain ⟨isNumeral, bound⟩ := readLine?_eq_some_iff.mp found
    rw [count_decode] at one
    have member : colon ∈ body := List.count_pos_iff.mp (by omega)
    obtain ⟨front, numeral, rfl, plain⟩ := List.eq_append_cons_of_mem member
    rw [decode_around_colon] at source_eq isNumeral
    rw [takeWhile_of_colon_not_mem (colon_not_mem_decode plain)] at source_eq
    rw [dropWhile_of_colon_not_mem (colon_not_mem_decode plain), List.drop_one, List.tail_cons,
      Decimal.isNumeral_decode_iff] at isNumeral
    refine ⟨front, ⟨colon, numeral, rfl, rfl, fun mark among code => ?_, isNumeral, bound⟩,
      source_eq⟩
    obtain rfl : mark = colon := UInt8.toNat_inj.mp code
    exact plain among
  · rintro ⟨front, ⟨mark, numeral, rfl, code, plain, isNumeral, bound⟩, rfl⟩
    obtain rfl : mark = colon := UInt8.toNat_inj.mp code
    rw [decode_around_colon]
    refine ⟨':', _, rfl, rfl, fun character among same => ?_,
      Decimal.isNumeral_decode_iff.mpr isNumeral, bound⟩
    obtain rfl : character = ':' := Char.toNat_inj.mp same
    exact colon_not_mem_decode (fun inside => plain colon inside rfl) among

end Tag

namespace RawRecord

variable {record : RawRecord}

/-- The octets of a tag without leading at signs. -/
def body (record : RawRecord) : List UInt8 := record.tag.dropWhile (· == Tag.atSign)

theorem dropWhile_text :
    record.text.toList.dropWhile (· == '@') = (Utf8.decode record.body).toList :=
  Tag.strip_decode record.tag

theorem reading_eq_passed_iff_octets :
    record.reading = .passed ↔ record.body.count Tag.colon ≠ 1 := by
  rw [reading_eq_passed_iff, Attributed, dropWhile_text, Tag.count_decode]

theorem reading_eq_located_iff_octets {source : String} {line : Nat} :
    record.reading = .located source line ↔
      ∃ front, Tag.Names UInt8.toNat record.body front line ∧ source = Utf8.decode front := by
  rw [reading_eq, Tag.read_eq_located_iff, Tag.strip, dropWhile_text, Tag.names_decode_iff]
  simp only [String.toList_inj]

theorem reading_eq_badLine_iff_octets {refused : String} :
    record.reading = .badLine refused ↔
      refused = Utf8.decode record.body ∧ record.body.count Tag.colon = 1 ∧
        ∀ front line, ¬ Tag.Names UInt8.toNat record.body front line := by
  rw [reading_eq, Tag.read_eq_badLine_iff, Tag.strip, dropWhile_text, String.ofList_toList,
    Tag.count_decode]
  simp only [Tag.names_decode_iff, not_exists, not_and]
  refine and_congr_right fun _ => and_congr_right fun _ => ⟨fun none front line names => ?_, ?_⟩
  · exact none (Utf8.decode front).toList line front names rfl
  · exact fun none _ line front names _ => none front line names

end RawRecord

namespace Decoder

/-- The pass of a decoder that meets a record goes round again exactly if the tag has not one colon
behind its at signs, hands out a line exactly if a numeral follows the colon, for the source that
stands before the colon, and otherwise refuses the tag; ill-formed octets never make a
difference. -/
theorem pass_classifies_octets {decoder : Decoder} {record : RawRecord} {rest : List UInt8}
    (found : RawRecord.read? decoder.rest = some (record, rest)) :
    (decoder.behind record).rest = rest ∧
      (decoder.pass = .again record.text (decoder.behind record).passed ↔
        record.body.count Tag.colon ≠ 1) ∧
      (∀ source line,
        decoder.pass = .done
            { item := .record { source, line, count := record.count }
              events := []
              decoder := (decoder.behind record).yielded } ↔
          ∃ front, Tag.Names UInt8.toNat record.body front line ∧ source = Utf8.decode front) ∧
      (∀ refused,
        decoder.pass = .done
            { item := .badLine refused, events := [], decoder := decoder.exhausted } ↔
          refused = Utf8.decode record.body ∧ record.body.count Tag.colon = 1 ∧
            ∀ front line, ¬ Tag.Names UInt8.toNat record.body front line) ∧
      decoder.next =
        match decoder.pass with
        | .again tag later => { later.next with events := .tagPassed tag :: later.next.events }
        | .done step => step := by
  have met := pass_of_read? found
  refine ⟨?_, ?_, fun source line => ?_, fun refused => ?_, ?_⟩
  · exact rest_behind (RawRecord.read?_eq_some_iff.mp found).2
  · rw [← RawRecord.reading_eq_passed_iff_octets, met, passRecord]
    cases record.reading <;> simp
  · rw [← RawRecord.reading_eq_located_iff_octets, met, passRecord]
    cases record.reading <;> simp
  · rw [← RawRecord.reading_eq_badLine_iff_octets, met, passRecord]
    cases record.reading <;> simp [behind, exhausted]
  · cases done : decoder.pass with
    | again tag later => exact next_eq_of_again done
    | done step => exact next_eq_of_done done

/-- A source cut off inside a character ends at the colon all the same. -/
theorem pass_classifies_octets_cut :
    let record : RawRecord := { tag := [0x40, 0xC3, 0x3A, 0x2B, 0x37], count := 1 }
    let decoder : Decoder := .new record.encode
    RawRecord.read? decoder.rest = some (record, []) ∧
      decoder.pass = .done
        { item := .record { source := "\uFFFD", line := 7, count := 1 }
          events := []
          decoder := (decoder.behind record).yielded } := by
  have found : RawRecord.read?
      (RawRecord.encode { tag := [0x40, 0xC3, 0x3A, 0x2B, 0x37], count := 1 }) =
        some ({ tag := [0x40, 0xC3, 0x3A, 0x2B, 0x37], count := 1 }, []) := by decide
  have numeral : Decimal.IsNumeral ([0x2B, 0x37].map UInt8.toNat) 7 :=
    Decimal.IsNumeral.signed (show Decimal.AreDigits [0x37] by decide)
  have outcomes := @pass_classifies_octets
    (.new (RawRecord.encode { tag := [0x40, 0xC3, 0x3A, 0x2B, 0x37], count := 1 })) _ _ found
  refine ⟨found, (outcomes.2.2.1 "\uFFFD" 7).mpr ⟨[0xC3], ?_, by decide⟩⟩
  exact ⟨Tag.colon, [0x2B, 0x37], rfl, rfl, by decide +kernel, numeral, by decide⟩

end Decoder
end LuaCoverage
