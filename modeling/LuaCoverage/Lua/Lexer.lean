import LuaCoverage.Lua.Token

/-!
# Cutting Lua sources into tokens

The text is cut from the left.  At every place the longest piece that can stand there is measured:
white space or a comment, a token, or something malformed.  Since a piece is given by its length, no
character is lost or read twice.
-/

namespace LuaCoverage
namespace Lua
namespace Lexer

/-- White space between tokens. -/
def isBlank (character : Char) : Bool :=
  character == ' ' || character == '\t' || character == '\r' || character == '\n'

/-- ASCII white space, at which a malformed number ends.  The form feed is part of it, although it
cannot stand between tokens. -/
def endsMalformed (character : Char) : Bool := isBlank character || character == '\x0c'

/-- Whether a name can start with a character. -/
def startsName (character : Char) : Bool := character.isAlpha || character == '_'

/-- Whether a name can go on with a character. -/
def continuesName (character : Char) : Bool := character.isAlphanum || character == '_'

/-- Hexadecimal digits of either case. -/
def isHexDigit (character : Char) : Bool :=
  character.isDigit || ('a' ≤ character && character ≤ 'f') ||
    ('A' ≤ character && character ≤ 'F')

/-- Length of digits that hold at most one point, or nothing at a point too many. -/
def mantissaLength? (isDigit : Char → Bool) (pointAllowed : Bool) : List Char → Option Nat
  | [] => some 0
  | character :: rest =>
      if isDigit character then (mantissaLength? isDigit pointAllowed rest).map (· + 1)
      else if character == '.' then
        if pointAllowed then (mantissaLength? isDigit false rest).map (· + 1) else none
      else some 0

/-- Length of an exponent, zero without its mark, or nothing where its digits are missing. -/
def exponentLength? (isMark : Char → Bool) : List Char → Option Nat
  | [] => some 0
  | mark :: rest =>
      if isMark mark then
        let signs := match rest with
          | sign :: _ => if sign == '+' || sign == '-' then 1 else 0
          | [] => 0
        let digits := ((rest.drop signs).takeWhile Char.isDigit).length
        if digits = 0 then none else some (1 + signs + digits)
      else some 0

/-- Length of a number after its first character, which may itself be a point. -/
def numberLength? (first : Char) (rest : List Char) : Option Nat :=
  let decimal := do
    let digits ← mantissaLength? Char.isDigit true rest
    let exponent ← exponentLength? (fun mark => mark == 'e' || mark == 'E') (rest.drop digits)
    return digits + exponent
  match rest with
  | mark :: body =>
      if first == '0' && (mark == 'x' || mark == 'X') then do
        let digits ← mantissaLength? isHexDigit true body
        let exponent ← exponentLength? (fun mark => mark == 'p' || mark == 'P') (body.drop digits)
        if digits = 0 then none else return 1 + digits + exponent
      else decimal
  | [] => decimal

/-- How far something with an end mark goes. -/
structure Extent where
  /-- Whether the end mark is there. -/
  closed : Bool
  /-- Length up to and with the end mark, or up to where the search is given up. -/
  length : Nat
  deriving DecidableEq

/-- An extent with characters before it. -/
def Extent.after (size : Nat) (extent : Extent) : Extent :=
  { extent with length := size + extent.length }

/-- Extent of a quoted string after its opening quote.  A backslash takes any character and allows
one later line break to stand in the string. -/
def quotedExtent (quote : Char) (breakAllowed : Bool) : List Char → Extent
  | [] => { closed := false, length := 0 }
  | '\\' :: _ :: rest => (quotedExtent quote true rest).after 2
  | character :: rest =>
      if character == quote then { closed := true, length := 1 }
      else if character == '\n' || character == '\r' then
        if breakAllowed then (quotedExtent quote false rest).after 1
        else { closed := false, length := 1 }
      else (quotedExtent quote breakAllowed rest).after 1

/-- Number of equals signs between an opening bracket and a second one, if there is one. -/
def bracketLevel? (rest : List Char) : Option Nat :=
  let level := (rest.takeWhile (· == '=')).length
  if rest[level]? = some '[' then some level else none

/-- Extent of a long bracket after both its opening brackets. -/
def bracketExtent (level : Nat) : List Char → Extent
  | [] => { closed := false, length := 0 }
  | character :: rest =>
      if character == ']' && (List.replicate level '=' ++ [']']).isPrefixOf rest then
        { closed := true, length := level + 2 }
      else (bracketExtent level rest).after 1

/-- What a piece of text is. -/
inductive Lexeme
  /-- White space or a comment. -/
  | blank
  /-- A token. -/
  | token (kind : Token.Kind)
  /-- Something that is neither. -/
  | malformed
  deriving DecidableEq

/-- A piece of text by what it is and how many characters it has after its first one. -/
structure Piece where
  /-- What it is. -/
  lexeme : Lexeme
  /-- Number of characters after the first. -/
  further : Nat
  deriving DecidableEq

/-- A long string, or its opening bracket as a symbol, after that bracket. -/
def longString (rest : List Char) : Piece :=
  match bracketLevel? rest with
  | none => { lexeme := .token (.reserved "["), further := 0 }
  | some level =>
      let extent := (bracketExtent level (rest.drop (level + 1))).after (level + 1)
      { lexeme :=
          if extent.closed then .token (.text (String.ofList ('[' :: rest.take extent.length)))
          else .malformed
        further := extent.length }

/-- A comment after both its dashes, which count as its first character and one more. -/
def comment (rest : List Char) : Piece :=
  let line : Piece :=
    { lexeme := .blank, further := 1 + (rest.takeWhile (· != '\n')).length }
  match rest with
  | '[' :: inner =>
      match bracketLevel? inner with
      | none => line
      | some level =>
          let extent := (bracketExtent level (inner.drop (level + 1))).after (level + 3)
          { lexeme := if extent.closed then .blank else .malformed, further := extent.length }
  | _ => line

/-- A quoted string after its opening quote. -/
def quotedString (quote : Char) (rest : List Char) : Piece :=
  let extent := quotedExtent quote false rest
  { lexeme :=
      if extent.closed then .token (.text (String.ofList (quote :: rest.take extent.length)))
      else .malformed
    further := extent.length }

/-- A number after its first character.  A malformed one goes up to the next ASCII white space. -/
def number (first : Char) (rest : List Char) : Piece :=
  match numberLength? first rest with
  | some length =>
      { lexeme := .token (.number (String.ofList (first :: rest.take length))), further := length }
  | none =>
      { lexeme := .malformed, further := (rest.takeWhile fun next => !endsMalformed next).length }

/-- The longest symbol at the start of a text. -/
def symbol (text : List Char) : Piece :=
  match Token.symbols.find? fun spelling => spelling.toList.isPrefixOf text with
  | some spelling =>
      { lexeme := .token (.reserved spelling), further := spelling.toList.length - 1 }
  | none => { lexeme := .malformed, further := 0 }

/-- Whether a number starts with a character. -/
def startsNumber (first : Char) (rest : List Char) : Bool :=
  first.isDigit || (first == '.' && rest.head?.any Char.isDigit)

/-- The piece at the start of a text. -/
def scan (first : Char) (rest : List Char) : Piece :=
  if isBlank first then { lexeme := .blank, further := (rest.takeWhile isBlank).length }
  else if startsName first then
    let others := rest.takeWhile continuesName
    { lexeme := .token (.ofWord (String.ofList (first :: others))), further := others.length }
  else if startsNumber first rest then number first rest
  else if first == '"' || first == '\x27' then quotedString first rest
  else if first == '[' then longString rest
  else if first == '-' && rest.head? == some '-' then comment rest.tail
  else symbol (first :: rest)

/-- The line after a piece. -/
def lineAfter (line : Nat) (first : Char) (rest : List Char) (piece : Piece) : Nat :=
  line + (first :: rest.take piece.further).count '\n'

/-- The tokens of a text whose first character stands on the given line, if nothing in it is
malformed. -/
def tokensFrom (line : Nat) : List Char → Option (List Token)
  | [] => some []
  | first :: rest =>
      let piece := scan first rest
      let next := lineAfter line first rest piece
      match piece.lexeme with
      | .blank => tokensFrom next (rest.drop piece.further)
      | .token kind => (tokensFrom next (rest.drop piece.further)).map ({ kind, line } :: ·)
      | .malformed => none
termination_by text => text.length
decreasing_by all_goals simp only [List.length_drop, List.length_cons]; omega

/-- The tokens of a text, the first of which is dropped if it is malformed. -/
def tokensForgiving (line : Nat) : List Char → Option (List Token)
  | [] => some []
  | first :: rest =>
      let piece := scan first rest
      let next := lineAfter line first rest piece
      match piece.lexeme with
      | .blank => tokensForgiving next (rest.drop piece.further)
      | .token _ => tokensFrom line (first :: rest)
      | .malformed => tokensFrom next (rest.drop piece.further)
termination_by text => text.length
decreasing_by simp only [List.length_drop, List.length_cons]; omega

/-- The tokens of a source.  A first line that starts with a number sign and an exclamation mark
names an interpreter and is a comment; a malformed token right after it does no harm. -/
def tokens (source : List Char) : Option (List Token) :=
  if "#!".toList.isPrefixOf source then tokensForgiving 1 (source.dropWhile (· != '\n'))
  else tokensFrom 1 source

end Lexer
end Lua
end LuaCoverage
