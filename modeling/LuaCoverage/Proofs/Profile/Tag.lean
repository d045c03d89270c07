import LuaCoverage.Proofs.Profile.Reading
import LuaCoverage.Proofs.Text.Numeral
import Mathlib.Data.List.TakeWhile

/-!
# The grammar of tags

A tag names a line where its body, which is the tag without leading at signs, consists of a source
without a colon, a colon, and a numeral up to the greatest line.  Reading finds exactly these lines,
passes over bodies without exactly one colon, and refuses the others.  The tag written for a source
line is read back where the source has no colon and does not start with an at sign, and no other
source lines are ever read.
-/

namespace LuaCoverage
namespace Tag

/-- Code of the colon. -/
def colonCode : Nat := 0x3A

/-- Marks that name a line of a source: the source without a colon, a colon, and a numeral up to the
greatest line.  The code of a mark tells what it is. -/
def Names {Mark : Type} (code : Mark → Nat) (body source : List Mark) (line : Nat) : Prop :=
  ∃ colon numeral, body = source ++ colon :: numeral ∧ code colon = colonCode ∧
    (∀ mark ∈ source, code mark ≠ colonCode) ∧
    Decimal.IsNumeral (numeral.map code) line ∧ line ≤ 4294967295

theorem readLine?_eq_some_iff {text : List Char} {line : Nat} :
    readLine? text = some line ↔
      Decimal.IsNumeral (text.map Char.toNat) line ∧ line ≤ 4294967295 := by
  rw [readLine?, Option.filter_eq_some_iff, Decimal.read?_eq_some_iff, decide_eq_true_iff, maxLine]

/-! ## Around the colon -/

section Colon

variable {body source numeral : List Char}

theorem split_of_colon_mem (colon : ':' ∈ body) :
    body = body.takeWhile (· != ':') ++ ':' :: (body.dropWhile (· != ':')).drop 1 := by
  have found : body.dropWhile (· != ':') ≠ [] := by
    rw [ne_eq, List.dropWhile_eq_nil_iff]
    exact fun all => by simpa using all ':' colon
  obtain ⟨first, rest, split⟩ := List.exists_cons_of_ne_nil found
  have stopped := List.head?_dropWhile_not (· != ':') body
  rw [split] at stopped
  obtain rfl : first = ':' := by simpa using stopped
  rw [split, List.drop_one, List.tail_cons, ← split, List.takeWhile_append_dropWhile]

theorem bne_colon_of_not_mem (plain : ':' ∉ source) : ∀ mark ∈ source, (mark != ':') = true := by
  intro mark member
  exact bne_iff_ne.mpr fun same => plain (same ▸ member)

theorem takeWhile_of_colon_not_mem (plain : ':' ∉ source) :
    (source ++ ':' :: numeral).takeWhile (· != ':') = source := by
  rw [List.takeWhile_append_of_pos (bne_colon_of_not_mem plain),
    List.takeWhile_cons_of_neg (by decide), List.append_nil]

theorem dropWhile_of_colon_not_mem (plain : ':' ∉ source) :
    (source ++ ':' :: numeral).dropWhile (· != ':') = ':' :: numeral := by
  rw [List.dropWhile_append_of_pos (bne_colon_of_not_mem plain),
    List.dropWhile_cons_of_neg (by decide)]

theorem colon_not_mem_of_isNumeral {line : Nat}
    (isNumeral : Decimal.IsNumeral (numeral.map Char.toNat) line) : ':' ∉ numeral := by
  intro member
  have code := isNumeral.code_mem (List.mem_map_of_mem member)
  revert code
  decide

/-- For characters, the parts of a body that names a line stand around its only colon. -/
theorem names_iff {line : Nat} :
    Names Char.toNat body source line ↔
      body.count ':' = 1 ∧ source = body.takeWhile (· != ':') ∧
        readLine? ((body.dropWhile (· != ':')).drop 1) = some line := by
  constructor
  · rintro ⟨colon, numeral, rfl, code, plain, isNumeral, bound⟩
    obtain rfl : colon = ':' := Char.toNat_inj.mp code
    have outside : ':' ∉ source := fun member => plain ':' member rfl
    refine ⟨?_, (takeWhile_of_colon_not_mem outside).symm, ?_⟩
    · rw [List.count_append, List.count_cons_self, List.count_eq_zero.mpr outside,
        List.count_eq_zero.mpr (colon_not_mem_of_isNumeral isNumeral)]
    · rw [dropWhile_of_colon_not_mem outside, List.drop_one, List.tail_cons]
      exact readLine?_eq_some_iff.mpr ⟨isNumeral, bound⟩
  · rintro ⟨one, rfl, found⟩
    have colon : ':' ∈ body := List.count_pos_iff.mp (by omega)
    obtain ⟨isNumeral, bound⟩ := readLine?_eq_some_iff.mp found
    refine ⟨':', _, split_of_colon_mem colon, rfl, ?_, isNumeral, bound⟩
    intro mark member code
    obtain rfl : mark = ':' := Char.toNat_inj.mp code
    simpa using List.mem_takeWhile_imp member

end Colon

/-! ## What is read -/

section Reading

variable {tag : String}

theorem read_eq_located_iff {source : String} {line : Nat} :
    read tag = .located source line ↔ Names Char.toNat (strip tag.toList) source.toList line := by
  rw [names_iff]
  by_cases attributed : Attributed tag
  · rw [read_of_attributed attributed, Tag.source, segment]
    split
    · next number found =>
        rw [found, Reading.located.injEq, ← String.toList_inj, String.toList_ofList,
          Option.some_inj, eq_comm (a := source.toList)]
        exact (and_iff_right attributed).symm
    · next none_found =>
        rw [none_found]
        exact iff_of_false nofun fun found => nomatch found.2.2
  · rw [read_of_not_attributed attributed]
    exact iff_of_false nofun fun found => attributed found.1

theorem read_eq_badLine_iff {body : String} :
    read tag = .badLine body ↔
      body = String.ofList (strip tag.toList) ∧ (strip tag.toList).count ':' = 1 ∧
        ∀ source line, ¬ Names Char.toNat (strip tag.toList) source line := by
  by_cases attributed : Attributed tag
  · rw [read_of_attributed attributed, segment]
    split
    · next number found =>
        refine iff_of_false nofun fun bad => ?_
        exact bad.2.2 _ number (names_iff.mpr ⟨attributed, rfl, found⟩)
    · next none_found =>
        rw [Reading.badLine.injEq, eq_comm]
        refine (and_iff_left ⟨attributed, fun source line names => ?_⟩).symm
        rw [names_iff, none_found] at names
        exact nomatch names.2.2
  · rw [read_of_not_attributed attributed]
    exact iff_of_false nofun fun bad => attributed bad.2.1

theorem head?_of_read {source : String} {line : Nat} (located : read tag = .located source line) :
    ':' ∉ source.toList ∧ source.toList.head? ≠ some '@' ∧ line ≤ 4294967295 := by
  obtain ⟨colon, numeral, split, -, plain, -, bound⟩ := read_eq_located_iff.mp located
  refine ⟨fun member => plain ':' member rfl, fun first => ?_, bound⟩
  have stripped := List.head?_dropWhile_not (· == '@') tag.toList
  rw [show tag.toList.dropWhile (· == '@') = strip tag.toList from rfl, split] at stripped
  rw [List.head?_append, first] at stripped
  simp at stripped

/-- At signs in front of a body without one are stripped. -/
theorem strip_replicate_append {body : List Char} (marks : Nat)
    (unmarked : body.head? ≠ some '@') : strip (List.replicate marks '@' ++ body) = body := by
  have every : ∀ mark ∈ List.replicate marks '@', (mark == '@') = true := by
    intro mark member
    rw [List.eq_of_mem_replicate member]
    rfl
  rw [strip, List.dropWhile_append_of_pos every]
  cases body with
  | nil => rfl
  | cons first rest =>
      exact List.dropWhile_cons_of_neg fun same => unmarked (congrArg some (eq_of_beq same))

theorem isNumeral_repr (number : Nat) :
    Decimal.IsNumeral (number.repr.toList.map Char.toNat) number := by
  obtain ⟨digits, value⟩ := Decimal.ofDigits?_eq_some_iff.mp (Decimal.ofDigits?_repr number)
  have numeral := Decimal.IsNumeral.plain digits
  rwa [← value] at numeral

/-- A source line is read from the tag written for it, with any at signs in front. -/
theorem read_replicate_append_render {source : String} {line : Nat} (marks : Nat)
    (plain : ':' ∉ source.toList) (unmarked : source.toList.head? ≠ some '@')
    (bound : line ≤ 4294967295) :
    read (String.ofList (List.replicate marks '@') ++ render source line) =
      .located source line := by
  have written : (render source line).toList = source.toList ++ ':' :: line.repr.toList := by
    simp [render]
  have first : (source.toList ++ ':' :: line.repr.toList).head? ≠ some '@' := by
    rw [List.head?_append]
    cases front : source.toList.head? with
    | none => simp
    | some mark => simpa [front] using unmarked
  rw [read_eq_located_iff, String.toList_append, String.toList_ofList, written,
    strip_replicate_append marks first]
  refine ⟨':', line.repr.toList, rfl, rfl, fun mark member code => ?_, isNumeral_repr line, bound⟩
  obtain rfl : mark = ':' := Char.toNat_inj.mp code
  exact plain member

end Reading

/-- A tag is passed over, names a line or is refused as its body without leading at signs has it,
and a source line is read from the tags written for it exactly if its source has no colon and no
leading at sign; all source lines that are ever read are of this kind. -/
theorem read_follows_grammar :
    (∀ tag : String,
      let body := tag.toList.dropWhile (· == '@')
      (read tag = .passed ↔ body.count ':' ≠ 1) ∧
        (∀ source line, read tag = .located source line ↔
          Names Char.toNat body source.toList line) ∧
        ∀ refused, read tag = .badLine refused ↔
          refused = String.ofList body ∧ body.count ':' = 1 ∧
            ∀ source line, ¬ Names Char.toNat body source line) ∧
      (∀ (marks : Nat) (source : String) (line : UInt32),
        read (String.ofList (List.replicate marks '@') ++ render source line.toNat) =
            .located source line.toNat ↔
          ':' ∉ source.toList ∧ source.toList.head? ≠ some '@') ∧
      ∀ tag source line, read tag = .located source line →
        ':' ∉ source.toList ∧ source.toList.head? ≠ some '@' ∧ line ≤ 4294967295 := by
  refine ⟨fun tag => ⟨read_eq_passed_iff tag, fun source line => read_eq_located_iff,
    fun refused => read_eq_badLine_iff⟩, fun marks source line => ⟨fun located => ?_, ?_⟩,
    fun tag source line => head?_of_read⟩
  · obtain ⟨plain, unmarked, -⟩ := head?_of_read located
    exact ⟨plain, unmarked⟩
  · rintro ⟨plain, unmarked⟩
    have bound : line.toNat ≤ 4294967295 := Nat.le_of_lt_succ line.toNat_lt
    exact read_replicate_append_render marks plain unmarked bound

end Tag
end LuaCoverage
