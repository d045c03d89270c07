import LuaCoverage.Lua.Lexer
import Mathlib

/-!
# Where tokens stand

A token stands in the text as it is spelled, from a visible character on, and its line says how many
line feeds are in front of it.
-/

namespace LuaCoverage
namespace Lua

/-- The text of a token. -/
def Token.Kind.spelling : Token.Kind → String
  | .name own => own
  | .number spelling => spelling
  | .text spelling => spelling
  | .reserved spelling => spelling

/-- Characters of ASCII that can be seen. -/
def IsVisible (character : Char) : Prop := 0x20 < character.toNat ∧ character.toNat < 0x7f

instance (character : Char) : Decidable (IsVisible character) :=
  inferInstanceAs (Decidable (_ ∧ _))

/-- In a text whose first character is on the given line, a token stands as it is spelled. -/
def Token.StandsIn (token : Token) (line : Nat) (text : List Char) : Prop :=
  ∃ before first others after, text = before ++ first :: (others ++ after) ∧
    token.kind.spelling.toList = first :: others ∧ IsVisible first ∧
    token.line = line + before.count '\n'

theorem Token.StandsIn.behind {token : Token} {line : Nat} {front text : List Char}
    (stands : token.StandsIn (line + front.count '\n') text) :
    token.StandsIn line (front ++ text) := by
  obtain ⟨before, first, others, after, rfl, spelled, visible, onLine⟩ := stands
  refine ⟨front ++ before, first, others, after, ?_, spelled, visible, ?_⟩
  · rw [List.append_assoc]
  · rw [onLine, List.count_append, Nat.add_assoc]

namespace Lexer

variable {first : Char} {rest others : List Char}

/-! ## Pieces -/

/-- A piece that is a token takes the spelling of this token from the text. -/
def Piece.Spells (piece : Piece) (first : Char) (rest : List Char) : Prop :=
  ∀ kind, piece.lexeme = .token kind →
    IsVisible first ∧ kind.spelling.toList = first :: rest.take piece.further

theorem spelling_ofWord (word : String) : (Token.Kind.ofWord word).spelling = word := by
  rw [Token.Kind.ofWord]
  split <;> rfl

theorem take_length_takeWhile (test : Char → Bool) (text : List Char) :
    text.take (text.takeWhile test).length = text.takeWhile test :=
  List.prefix_iff_eq_take.mp (List.takeWhile_prefix test) |>.symm

theorem Piece.spells_of_blank {piece : Piece} (blank : piece.lexeme = .blank) :
    piece.Spells first rest := by
  intro kind token
  rw [blank] at token
  cases token

theorem number_spells (visible : IsVisible first) : (number first rest).Spells first rest := by
  intro kind token
  rw [number] at token ⊢
  split at token
  · next length _ =>
      cases token
      exact ⟨visible, String.toList_ofList⟩
  · cases token

theorem quotedString_spells (visible : IsVisible first) :
    (quotedString first rest).Spells first rest := by
  intro kind token
  rw [quotedString] at token ⊢
  dsimp only at token ⊢
  split at token
  · cases token
    exact ⟨visible, String.toList_ofList⟩
  · cases token

theorem longString_spells : (longString rest).Spells '[' rest := by
  intro kind token
  rw [longString] at token ⊢
  split at token
  · cases token
    exact ⟨by decide, rfl⟩
  · dsimp only at token ⊢
    split at token
    · cases token
      exact ⟨by decide, String.toList_ofList⟩
    · cases token

theorem comment_spells : (comment rest).Spells first others := by
  intro kind token
  unfold comment at token
  split at token
  · split at token
    · cases token
    · dsimp only at token
      split at token <;> cases token
  · cases token

/-- Every symbol starts with a visible character. -/
theorem isVisible_of_mem_symbols : ∀ spelling ∈ Token.symbols,
    ∃ first others, spelling.toList = first :: others ∧ IsVisible first := by
  have checked : Token.symbols.all fun spelling =>
      spelling.toList.head?.any fun first => decide (IsVisible first) := by decide
  intro spelling listed
  obtain ⟨first, starts, visible⟩ :=
    (Option.any_eq_true ..).mp (List.all_eq_true.mp checked spelling listed)
  obtain ⟨others, spelled⟩ := List.head?_eq_some_iff.mp starts
  exact ⟨first, others, spelled, of_decide_eq_true visible⟩

theorem symbol_spells : (symbol (first :: rest)).Spells first rest := by
  intro kind token
  rw [symbol] at token ⊢
  split at token
  · next spelling found =>
      cases token
      obtain ⟨start, others, spelled, visible⟩ :=
        isVisible_of_mem_symbols spelling (List.mem_of_find?_eq_some found)
      have atStart := List.find?_some found
      rw [spelled, List.isPrefixOf_iff_prefix] at atStart
      obtain ⟨after, same⟩ := atStart
      obtain ⟨rfl, rfl⟩ := List.cons.inj same
      refine ⟨visible, ?_⟩
      simp [Token.Kind.spelling, spelled]
  · cases token

theorem isVisible_of_startsName (starts : startsName first) : IsVisible first := by
  simp only [startsName, Char.isAlpha, Char.isUpper, Char.isLower, Bool.or_eq_true,
    Bool.and_eq_true, decide_eq_true_eq, beq_iff_eq, ge_iff_le, UInt32.le_iff_toNat_le] at starts
  rcases starts with (⟨least, greatest⟩ | ⟨least, greatest⟩) | rfl
  · exact ⟨Nat.lt_of_lt_of_le (by decide) least, Nat.lt_of_le_of_lt greatest (by decide)⟩
  · exact ⟨Nat.lt_of_lt_of_le (by decide) least, Nat.lt_of_le_of_lt greatest (by decide)⟩
  · decide

theorem isVisible_of_startsNumber (starts : startsNumber first rest) : IsVisible first := by
  simp only [startsNumber, Char.isDigit, Bool.or_eq_true, Bool.and_eq_true, decide_eq_true_eq,
    beq_iff_eq, ge_iff_le, UInt32.le_iff_toNat_le] at starts
  rcases starts with ⟨least, greatest⟩ | ⟨rfl, -⟩
  · exact ⟨Nat.lt_of_lt_of_le (by decide) least, Nat.lt_of_le_of_lt greatest (by decide)⟩
  · decide

theorem scan_spells (first : Char) (rest : List Char) : (scan first rest).Spells first rest := by
  rw [scan]
  split
  · exact Piece.spells_of_blank rfl
  split
  · next starts =>
      intro kind token
      cases token
      rw [spelling_ofWord, String.toList_ofList, take_length_takeWhile]
      exact ⟨isVisible_of_startsName starts, rfl⟩
  split
  · next starts => exact number_spells (isVisible_of_startsNumber starts)
  split
  · next quote =>
      refine quotedString_spells ?_
      rcases Bool.or_eq_true_iff.mp quote with same | same
      all_goals rw [beq_iff_eq.mp same]; decide
  split
  · next bracket =>
      obtain rfl : first = '[' := by simpa using bracket
      exact longString_spells
  split
  · exact comment_spells
  · exact symbol_spells

/-! ## Texts -/

/-- What a piece takes and what it leaves make up the text. -/
theorem take_append_drop (piece : Piece) (first : Char) (rest : List Char) :
    first :: rest = (first :: rest.take piece.further) ++ rest.drop piece.further := by
  rw [List.cons_append, List.take_append_drop]

/-- All tokens that are read stand in a text. -/
def AllStandIn (line : Nat) (text : List Char) (read : Option (List Token)) : Prop :=
  ∀ tokens, read = some tokens → ∀ token ∈ tokens, token.StandsIn line text

theorem allStandIn_nil (line : Nat) (text : List Char) : AllStandIn line text (some []) := by
  intro tokens read token listed
  cases read
  cases listed

/-- Tokens that are read behind a piece, from the line on which it ends. -/
theorem AllStandIn.behind {line : Nat} {read : Option (List Token)} (piece : Piece)
    (later : AllStandIn (lineAfter line first rest piece) (rest.drop piece.further) read) :
    AllStandIn line (first :: rest) read := by
  intro tokens found token listed
  rw [take_append_drop piece]
  exact (later tokens found token listed).behind

theorem tokensFrom_standIn (line : Nat) (text : List Char) :
    AllStandIn line text (tokensFrom line text) := by
  fun_induction tokensFrom line text with
  | case1 line => exact allStandIn_nil line []
  | case2 line first rest piece next blank ih => exact ih.behind piece
  | case3 line first rest piece next kind isToken ih =>
      intro tokens read token listed
      obtain ⟨others, further, rfl⟩ := Option.map_eq_some_iff.mp read
      rcases List.mem_cons.mp listed with rfl | later
      · obtain ⟨visible, spelled⟩ := scan_spells first rest kind isToken
        exact ⟨[], first, rest.take piece.further, rest.drop piece.further,
          take_append_drop piece first rest, spelled, visible, rfl⟩
      · exact ih.behind piece others further token later
  | case4 => nofun

theorem tokensForgiving_standIn (line : Nat) (text : List Char) :
    AllStandIn line text (tokensForgiving line text) := by
  fun_induction tokensForgiving line text with
  | case1 line => exact allStandIn_nil line []
  | case2 line first rest piece next blank ih => exact ih.behind piece
  | case3 line first rest => exact tokensFrom_standIn line (first :: rest)
  | case4 line first rest piece next malformed =>
      exact (tokensFrom_standIn next (rest.drop piece.further)).behind piece

/-- The tokens of a source stand in it, with its first line as line 1. -/
theorem tokens_standIn {source : List Char} {list : List Token} (read : tokens source = some list) :
    ∀ token ∈ list, token.StandsIn 1 source := by
  intro token listed
  rw [tokens] at read
  split at read
  · have comment : (source.takeWhile (· != '\n')).count '\n' = 0 := by
      refine List.count_eq_zero.mpr fun member => ?_
      simpa using List.all_eq_true.mp List.all_takeWhile _ member
    have stands := tokensForgiving_standIn _ _ list read token listed
    rw [← List.takeWhile_append_dropWhile (p := (· != '\n')) (l := source)]
    refine Token.StandsIn.behind ?_
    rwa [comment]
  · exact tokensFrom_standIn _ _ list read token listed

end Lexer
end Lua
end LuaCoverage
