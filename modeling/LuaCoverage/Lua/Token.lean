/-!
# Tokens of Lua sources

Keywords and symbols are known by their spelling.  Every token carries the line of its first
character; lines are counted from 1 by line feeds alone.
-/

namespace LuaCoverage
namespace Lua

/-- What a token is. -/
inductive Token.Kind
  /-- A name that is no keyword. -/
  | name (text : String)
  /-- A number as spelled. -/
  | number (spelling : String)
  /-- A string with its quotes or brackets. -/
  | text (spelling : String)
  /-- A keyword or symbol. -/
  | reserved (spelling : String)
  deriving DecidableEq

/-- A token of a source. -/
structure Token where
  /-- What the token is. -/
  kind : Token.Kind
  /-- Line of its first character. -/
  line : Nat
  deriving DecidableEq

namespace Token

/-- The left brace. -/
def leftBrace : String := "\x7b"

/-- The right brace. -/
def rightBrace : String := "\x7d"

/-- Words that are no names. -/
def keywords : List String :=
  ["and", "break", "do", "else", "elseif", "end", "false", "for", "function", "goto", "if", "in",
    "local", "nil", "not", "or", "repeat", "return", "then", "true", "until", "while"]

/-- Symbols, longer ones before the shorter ones that they start with. -/
def symbols : List String :=
  ["...", "..", "::", "//", "<<", ">>", "<=", ">=", "==", "~=", "+", "-", "*", "/", "%", "^", "#",
    "&", "~", "|", "<", ">", "=", "(", ")", leftBrace, rightBrace, "[", "]", ";", ":", ",", "."]

/-- Operators before an operand. -/
def unaryOperators : List String := ["-", "not", "#", "~"]

/-- Operators between two operands. -/
def binaryOperators : List String :=
  ["or", "and", "<", ">", "<=", ">=", "~=", "==", "|", "~", "&", "<<", ">>", "..", "+", "-", "*",
    "/", "//", "%", "^"]

/-- Reserved spellings that stand for a value. -/
def constants : List String := ["nil", "true", "false", "..."]

/-- A keyword or a name, by its spelling. -/
def Kind.ofWord (word : String) : Kind :=
  if word ∈ keywords then .reserved word else .name word

/-- Whether a token is one of some reserved spellings. -/
def isAmong (spellings : List String) (token : Token) : Bool :=
  match token.kind with
  | .reserved spelling => spellings.contains spelling
  | _ => false

/-- Whether a token is a name. -/
def isName (token : Token) : Bool :=
  match token.kind with
  | .name _ => true
  | _ => false

/-- Whether a token is a string. -/
def isText (token : Token) : Bool :=
  match token.kind with
  | .text _ => true
  | _ => false

/-- Whether a token is a number, a string or a constant. -/
def isLiteral (token : Token) : Bool :=
  match token.kind with
  | .number _ | .text _ => true
  | _ => token.isAmong constants

/-- Whether a statement other than a final one can start with a token. -/
def startsStatement (token : Token) : Bool :=
  token.isName || token.isAmong
    ["local", "for", "do", "while", "repeat", "if", "function", "goto", "::", "("]

/-- Whether an expression can start with a token. -/
def startsExpression (token : Token) : Bool :=
  token.isName || token.isLiteral ||
    token.isAmong (unaryOperators ++ ["function", leftBrace, "("])

/-- Whether the arguments of a call can start with a token. -/
def startsArguments (token : Token) : Bool :=
  token.isText || token.isAmong ["(", leftBrace]

/-- Whether a field of a table under a name comes. -/
def startNamedField : List Token → Bool
  | own :: equals :: _ => own.isName && equals.isAmong ["="]
  | _ => false

end Token
end Lua
end LuaCoverage
