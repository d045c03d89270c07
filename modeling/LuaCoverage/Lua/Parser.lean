import LuaCoverage.Lua.Tree

/-!
# Parsing Lua tokens

A recursive descent with one token of lookahead, two in a table.  What a statement or an expression
is shows in its first token, so nothing is tried twice.  Operators are not grouped by precedence.
Every rule spends one unit of an allowance, which lasts for every list of tokens.
-/

namespace LuaCoverage
namespace Lua

/-- Why a rule comes to nothing. -/
inductive Refusal
  /-- The next token does not fit. -/
  | unexpected
  /-- The allowance is used up. -/
  | exhausted
  deriving DecidableEq

/-- A reader takes tokens from the start of a list of them, or refuses. -/
abbrev Parser (Value : Type) := StateT (List Token) (Except Refusal) Value

/-- A rule reads trees. -/
abbrev Rule := Parser (List Tree)

namespace Parser

/-! ## Putting rules together -/

/-- Refuse whatever comes. -/
def refuse : Rule := throw .unexpected

/-- Refuse for want of an allowance. -/
def exhaust : Rule := throw .exhausted

/-- Read nothing. -/
def nothing : Rule := return []

/-- Take the next token, whatever it is. -/
def take : Rule := do
  match ← get with
  | [] => refuse
  | token :: rest =>
      set rest
      return [.token token]

/-- A rule and then another one, which may depend on what the first one has read. -/
def followedBy (rule : Rule) (next : List Tree → Rule) : Rule := do
  let front ← rule
  let behind ← next front
  return front ++ behind

/-- Some rules one after another. -/
def inOrder : List Rule → Rule
  | [] => nothing
  | rule :: rules => followedBy rule fun _ => inOrder rules

/-- A choice by the tokens that come, which stay. -/
def ifAhead (test : List Token → Bool) (yes no : Rule) : Rule := do
  if test (← get) then yes else no

/-- A choice by the next token, which is taken if it passes. -/
def on (test : Token → Bool) (behind other : Rule) : Rule :=
  ifAhead (·.head?.any test) (inOrder [take, behind]) other

/-- A choice by whether the next token has a reserved spelling. -/
def onReserved (spelling : String) (behind other : Rule) : Rule :=
  on (·.isAmong [spelling]) behind other

/-- Take a reserved spelling. -/
def expect (spelling : String) : Rule := onReserved spelling nothing refuse

/-- Take a reserved spelling if it is there. -/
def optional (spelling : String) : Rule := onReserved spelling nothing nothing

/-- Take a name. -/
def name : Rule := on Token.isName nothing refuse

/-- Put what is read into a node. -/
def wrap (kind : List Tree → Kind) (rule : Rule) : Rule := do
  let parts ← rule
  return [.node (kind parts) parts]

/-- Whether the last of some trees is a node of a kind. -/
def endIn (kind : Kind) (parts : List Tree) : Bool :=
  (parts.getLast?.bind Tree.kind?) == some kind

/-! ## Names -/

/-- The names after a first one, each after a separator. -/
def namesAfter (separator : String) : Nat → Rule
  | 0 => exhaust
  | fuel + 1 => onReserved separator (inOrder [name, namesAfter separator fuel]) nothing

/-- The parameters of a function that has some. -/
def parameters : Nat → Rule
  | 0 => exhaust
  | fuel + 1 =>
      onReserved "..." nothing <| inOrder [name, onReserved "," (parameters fuel) nothing]

/-- Local variables with their attributes. -/
def localNames : Nat → Rule
  | 0 => exhaust
  | fuel + 1 =>
      inOrder
        [name, onReserved "<" (inOrder [name, expect ">"]) nothing,
          onReserved "," (localNames fuel) nothing]

/-! ## Statements and expressions -/

mutual

/-- Statements up to and with a final one, or up to a token that starts none. -/
def block : Nat → Rule
  | 0 => exhaust
  | fuel + 1 =>
      ifAhead (·.head?.any Token.startsStatement)
        (inOrder [statement fuel, optional ";", block fuel]) (ending fuel)

/-- A final statement, if there is one. -/
def ending : Nat → Rule
  | 0 => exhaust
  | fuel + 1 =>
      ifAhead (·.head?.any (·.isAmong ["return"]))
        (wrap (fun _ => .final) (inOrder [take, optionalExpressions fuel, optional ";"])) <|
      ifAhead (·.head?.any (·.isAmong ["break"]))
        (wrap (fun _ => .final) (inOrder [take, optional ";"]))
        nothing

/-- A statement that is not final. -/
def statement : Nat → Rule
  | 0 => exhaust
  | fuel + 1 =>
      wrap (fun _ => .statement) <|
      onReserved "local"
        (onReserved "function" (inOrder [name, functionBody fuel])
          (inOrder [localNames fuel, onReserved "=" (expressions fuel) nothing])) <|
      onReserved "for" (forLoop fuel) <|
      onReserved "do" (inOrder [block fuel, expect "end"]) <|
      onReserved "while" (inOrder [expression fuel, expect "do", block fuel, expect "end"]) <|
      onReserved "repeat" (inOrder [block fuel, expect "until", expression fuel]) <|
      onReserved "if" (inOrder [expression fuel, expect "then", block fuel, branches fuel]) <|
      onReserved "function"
        (inOrder
          [name, namesAfter "." fuel, onReserved ":" name nothing, functionBody fuel]) <|
      onReserved "goto" name <|
      onReserved "::" (inOrder [name, expect "::"]) <|
      followedBy (chain fuel) fun first =>
        if endIn .call first then nothing
        else inOrder [targets fuel, expect "=", expressions fuel]

/-- A loop after its first keyword. -/
def forLoop : Nat → Rule
  | 0 => exhaust
  | fuel + 1 =>
      inOrder
        [name,
          onReserved "="
            (inOrder
              [expression fuel, expect ",", expression fuel,
                onReserved "," (expression fuel) nothing, expect "do", block fuel,
                expect "end"])
            (inOrder
              [namesAfter "," fuel, expect "in", expressions fuel, expect "do", block fuel,
                expect "end"])]

/-- The branches of a choice after the first, with its end. -/
def branches : Nat → Rule
  | 0 => exhaust
  | fuel + 1 =>
      onReserved "elseif" (inOrder [expression fuel, expect "then", block fuel, branches fuel]) <|
      onReserved "else" (inOrder [block fuel, expect "end"]) <|
      expect "end"

/-- Parameters, body and end of a function. -/
def functionBody : Nat → Rule
  | 0 => exhaust
  | fuel + 1 =>
      wrap (fun _ => .phrase) <|
      inOrder
        [expect "(", onReserved ")" nothing (inOrder [parameters fuel, expect ")"]), block fuel,
          expect "end"]

/-- A name or an expression in parentheses with everything attached to it.  It is a call if the last
of this is. -/
def chain : Nat → Rule
  | 0 => exhaust
  | fuel + 1 =>
      wrap (fun parts => if endIn .arguments parts then .call else .phrase) <|
      onReserved "(" (inOrder [expression fuel, expect ")", suffixes fuel]) <|
      inOrder [name, suffixes fuel]

/-- As many accesses and calls as there are. -/
def suffixes : Nat → Rule
  | 0 => exhaust
  | fuel + 1 =>
      onReserved "." (inOrder [name, suffixes fuel]) <|
      onReserved "[" (inOrder [expression fuel, expect "]", suffixes fuel]) <|
      onReserved ":" (inOrder [name, callArguments fuel, suffixes fuel]) <|
      ifAhead (·.head?.any Token.startsArguments) (inOrder [callArguments fuel, suffixes fuel])
        nothing

/-- The arguments of a call: expressions in parentheses, a table or a string. -/
def callArguments : Nat → Rule
  | 0 => exhaust
  | fuel + 1 =>
      wrap (fun _ => .arguments) <|
      onReserved "(" (onReserved ")" nothing (inOrder [expressions fuel, expect ")"])) <|
      onReserved Token.leftBrace (fields fuel) <|
      on Token.isText nothing refuse

/-- Targets of an assignment after the first; a call is no target. -/
def targets : Nat → Rule
  | 0 => exhaust
  | fuel + 1 =>
      onReserved ","
        (followedBy (chain fuel) fun target => if endIn .call target then refuse else targets fuel)
        nothing

/-- Expressions between commas, if there are any. -/
def optionalExpressions : Nat → Rule
  | 0 => exhaust
  | fuel + 1 => ifAhead (·.head?.any Token.startsExpression) (expressions fuel) nothing

/-- One or more expressions between commas. -/
def expressions : Nat → Rule
  | 0 => exhaust
  | fuel + 1 => inOrder [expression fuel, onReserved "," (expressions fuel) nothing]

/-- Operands with operators between them. -/
def expression : Nat → Rule
  | 0 => exhaust
  | fuel + 1 =>
      wrap (fun _ => .phrase) <|
      inOrder [operand fuel, on (·.isAmong Token.binaryOperators) (expression fuel) nothing]

/-- An operand after any number of operators. -/
def operand : Nat → Rule
  | 0 => exhaust
  | fuel + 1 => on (·.isAmong Token.unaryOperators) (operand fuel) (simple fuel)

/-- An operand without operators. -/
def simple : Nat → Rule
  | 0 => exhaust
  | fuel + 1 =>
      on Token.isLiteral nothing <|
      onReserved "function" (functionBody fuel) <|
      onReserved Token.leftBrace (fields fuel) <|
      chain fuel

/-- The fields of a table after its brace or a separator, with its closing brace. -/
def fields : Nat → Rule
  | 0 => exhaust
  | fuel + 1 =>
      onReserved Token.rightBrace nothing <|
      onReserved "["
        (inOrder [expression fuel, expect "]", expect "=", expression fuel, fieldsAfter fuel]) <|
      ifAhead Token.startNamedField
        (inOrder [name, expect "=", expression fuel, fieldsAfter fuel])
        (inOrder [expression fuel, fieldsAfter fuel])

/-- What comes after a field: a separator and further fields, or the closing brace. -/
def fieldsAfter : Nat → Rule
  | 0 => exhaust
  | fuel + 1 => on (·.isAmong [",", ";"]) (fields fuel) (expect Token.rightBrace)

end

/-! ## Whole sources -/

/-- What may follow a block: one more final statement behind a final one. -/
def endingAgain (fuel : Nat) (parts : List Tree) : Rule :=
  if endIn .final parts then ending fuel else nothing

/-- A whole source.  What follows its block is no part of the tree. -/
def chunk (fuel : Nat) : Parser Tree := do
  let parts ← block fuel
  let _ ← endingAgain fuel parts
  match ← get with
  | [] => return .node .phrase parts
  | _ :: _ => throw .unexpected

/-- Units of the allowance for every token, and once more at the end. -/
def rulesPerToken : Nat := 16

/-- The tree of a list of tokens, if they make up a source. -/
def parse (tokens : List Token) : Except Refusal Tree :=
  (chunk (rulesPerToken * (tokens.length + 1))).run' tokens

end Parser
end Lua
end LuaCoverage
