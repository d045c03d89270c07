import LuaCoverage.Text.Lines

/-!
# Lines read back

A text made of lines without line feeds of their own, each ended by one, is divided at its line
feeds into the same lines.
-/

namespace LuaCoverage
namespace Lines

/-- The pieces of a text that its line feeds end; the last one may lack its line feed. -/
def pieces : List Char → List (List Char)
  | [] => []
  | character :: rest =>
      if character = '\n' then [] :: pieces rest
      else
        match pieces rest with
        | [] => [[character]]
        | piece :: others => (character :: piece) :: others

theorem pieces_append {line : List Char} (plain : '\n' ∉ line) (rest : List Char) :
    pieces (line ++ '\n' :: rest) = line :: pieces rest := by
  induction line with
  | nil => rfl
  | cons character line ih =>
      rw [List.mem_cons, not_or] at plain
      rw [List.cons_append, pieces, if_neg (Ne.symm plain.1), ih plain.2]

theorem toList_pushn (text : String) (character : Char) (count : Nat) :
    (text.pushn character count).toList = text.toList ++ List.replicate count character := by
  rw [String.pushn_eq_repeat_push]
  induction count with
  | zero => exact (List.append_nil _).symm
  | succ count ih =>
      rw [Nat.repeat, String.toList_push, ih, List.replicate_succ', List.append_assoc]

theorem toList_toText (lines : List String) :
    (toText lines).toList = lines.flatMap fun line => line.toList ++ ['\n'] := by
  simp [toText, String.toList_join, List.flatMap_map]

theorem pieces_toText {lines : List String} (plain : ∀ line ∈ lines, '\n' ∉ line.toList) :
    pieces (toText lines).toList = lines.map String.toList := by
  rw [toList_toText]
  induction lines with
  | nil => rfl
  | cons line lines ih =>
      obtain ⟨first, others⟩ := List.forall_mem_cons.mp plain
      rw [List.flatMap_cons, List.append_assoc, List.singleton_append, pieces_append first,
        ih others, List.map_cons]

/-! ## Lines and line feeds -/

theorem not_mem_of_mem_split {text line : List Char} (listed : line ∈ split text) :
    '\n' ∉ line := by
  fun_induction split text generalizing line with
  | case1 => cases listed
  | case2 rest ih | case3 rest ih =>
      rcases List.mem_cons.mp listed with rfl | later
      · exact List.not_mem_nil
      · exact ih later
  | case4 character rest _ other =>
      rw [List.mem_singleton.mp listed, List.mem_singleton]
      exact Ne.symm other
  | case5 character rest _ other first others same ih =>
      rcases List.mem_cons.mp listed with rfl | later
      · rw [List.mem_cons, not_or]
        exact ⟨Ne.symm other, ih (same ▸ List.mem_cons_self)⟩
      · exact ih (same ▸ List.mem_cons_of_mem _ later)

/-- A character that ends no line stands in the line with as many line feeds in front of it. -/
theorem exists_mem_split {before after : List Char} {character : Char}
    (notFeed : character ≠ '\n') (notReturn : character ≠ '\r') :
    ∃ line, (split (before ++ character :: after))[before.count '\n']? = some line ∧
      character ∈ line := by
  generalize whole : before ++ character :: after = text
  fun_induction split text generalizing before with
  | case1 => exact absurd whole (by simp)
  | case2 rest ih =>
      match before with
      | [] => exact absurd (List.cons.inj whole).1 notReturn
      | [_] => exact absurd (List.cons.inj (List.cons.inj whole).2).1 notFeed
      | _ :: _ :: before =>
          cases whole
          simpa using ih rfl
  | case3 rest ih =>
      match before with
      | [] => exact absurd (List.cons.inj whole).1 notFeed
      | _ :: before =>
          cases whole
          simpa using ih rfl
  | case4 other rest _ notEnding empty ih =>
      match before with
      | [] =>
          cases whole
          exact ⟨[character], rfl, List.mem_cons_self⟩
      | _ :: before =>
          cases whole
          obtain ⟨line, found, _⟩ := ih rfl
          rw [empty] at found
          cases found
  | case5 other rest _ notEnding first others same ih =>
      match before with
      | [] =>
          cases whole
          exact ⟨character :: first, rfl, List.mem_cons_self⟩
      | _ :: before =>
          cases whole
          obtain ⟨line, found, inside⟩ := ih rfl
          rw [same] at found
          rw [List.count_cons_of_ne notEnding]
          generalize before.count '\n' = feeds at found ⊢
          cases feeds with
          | zero =>
              cases found
              exact ⟨_, rfl, List.mem_cons_of_mem _ inside⟩
          | succ => exact ⟨line, found, inside⟩

/-! ## Blank lines -/

/-- White space of Unicode. -/
def isWhiteSpace (character : Char) : Bool :=
  let code := character.toNat
  (0x09 ≤ code && code ≤ 0x0D) || code == 0x20 || code == 0x85 || code == 0xA0 ||
    code == 0x1680 || (0x2000 ≤ code && code ≤ 0x200A) || code == 0x2028 || code == 0x2029 ||
    code == 0x202F || code == 0x205F || code == 0x3000

/-- Lines of white space alone. -/
def isBlank (line : String) : Bool := line.toList.all isWhiteSpace

theorem isBlank_eq_false {line : List Char} {character : Char} (inside : character ∈ line)
    (visible : isWhiteSpace character = false) : isBlank (String.ofList line) = false := by
  rw [isBlank, String.toList_ofList, List.all_eq_false]
  exact ⟨character, inside, by rw [visible]; nofun⟩

theorem isWhiteSpace_of_visible {character : Char}
    (visible : 0x20 < character.toNat ∧ character.toNat < 0x7f) :
    isWhiteSpace character = false := by
  rw [← Bool.not_eq_true]
  simp only [isWhiteSpace, Bool.or_eq_true, Bool.and_eq_true, decide_eq_true_eq, beq_iff_eq]
  omega

end Lines
end LuaCoverage
