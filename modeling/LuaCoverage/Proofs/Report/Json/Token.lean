import LuaCoverage.Proofs.Text.Decimal
import LuaCoverage.Proofs.Text.Lines
import LuaCoverage.Report.Json

/-!
# Tokens of JSON texts

A JSON text is scanned one character at a time.  Blanks may stand between tokens; inside a string
every control character must be escaped, and all escapes of a single character are read; a number
has no leading zero.  Of the numbers only natural ones are read, and no pairs of escapes: every text
that is scanned is one of JSON, though not every text of JSON is scanned.
-/

namespace LuaCoverage
namespace Json

/-- A token of a JSON text. -/
inductive Token
  /-- The start of an object. -/
  | leftBrace
  /-- The end of an object. -/
  | rightBrace
  /-- The start of an array. -/
  | leftBracket
  /-- The end of an array. -/
  | rightBracket
  /-- What stands between a key and its value. -/
  | colon
  /-- What stands between members or items. -/
  | comma
  /-- A natural number. -/
  | number (value : Nat)
  /-- A string. -/
  | text (value : String)
  deriving DecidableEq

/-- Where a scanner stands. -/
inductive Scanner
  /-- Between two tokens. -/
  | gap
  /-- In a number whose digits have a value so far. -/
  | number (value : Nat)
  /-- In a string that has begun with some characters. -/
  | text (front : List Char)
  /-- In a string, behind a backslash. -/
  | escape (front : List Char)
  /-- In a string, among the hexadecimal digits of an escape, of which some are still owed. -/
  | unit (front : List Char) (owed value : Nat)
  deriving DecidableEq

/-- Characters that may stand between tokens. -/
def isBlank (character : Char) : Bool :=
  character == ' ' || character == '\t' || character == '\n' || character == '\r'

/-- The token that is a single character. -/
def mark? : Char → Option Token
  | '\x7b' => some .leftBrace
  | '\x7d' => some .rightBrace
  | '[' => some .leftBracket
  | ']' => some .rightBracket
  | ':' => some .colon
  | ',' => some .comma
  | _ => none

/-- The character that an escape of one letter stands for. -/
def unescape? : Char → Option Char
  | '"' => some '"'
  | '\\' => some '\\'
  | '/' => some '/'
  | 'b' => some '\x08'
  | 'f' => some '\x0c'
  | 'n' => some '\n'
  | 'r' => some '\r'
  | 't' => some '\t'
  | _ => none

/-- The value of a hexadecimal digit in either case. -/
def hexValue? (character : Char) : Option Nat :=
  if '0' ≤ character ∧ character ≤ '9' then some (character.toNat - 0x30)
  else if 'a' ≤ character ∧ character ≤ 'f' then some (character.toNat - 0x61 + 10)
  else if 'A' ≤ character ∧ character ≤ 'F' then some (character.toNat - 0x41 + 10)
  else none

theorem hexValue?_hexDigit : ∀ value < 16, hexValue? (hexDigit value) = some value := by decide

theorem toList_newline (level : Nat) :
    (newline level).toList = '\n' :: List.replicate (2 * level) ' ' := by
  rw [newline, Lines.toList_pushn]
  rfl

namespace Scanner

/-- Read a character between two tokens. -/
def start (character : Char) : Option (List Token × Scanner) :=
  if isBlank character then some ([], gap)
  else if character = '"' then some ([], text [])
  else if character.isDigit then some ([], number (Nat.ofDigitChars 10 [character] 0))
  else (mark? character).map fun token => ([token], gap)

/-- Read a character: the tokens that it completes and where it leads. -/
def step : Scanner → Char → Option (List Token × Scanner)
  | gap, character => start character
  | number value, character =>
      if character.isDigit then
        if value = 0 then none else some ([], number (Nat.ofDigitChars 10 [character] value))
      else (start character).map fun (tokens, next) => (.number value :: tokens, next)
  | text front, character =>
      if character = '"' then some ([.text (String.ofList front)], gap)
      else if character = '\\' then some ([], escape front)
      else if character.toNat < 0x20 then none
      else some ([], text (front ++ [character]))
  | escape front, character =>
      if character = 'u' then some ([], unit front 4 0)
      else (unescape? character).map fun meant => ([], text (front ++ [meant]))
  | unit front owed value, character => do
      let value := value * 16 + (← hexValue? character)
      if 1 < owed then some ([], unit front (owed - 1) value)
      else if value.isValidChar then some ([], text (front ++ [Char.ofNat value]))
      else none

/-- The tokens that the end of a text completes; a text must not end in a string. -/
def finish? : Scanner → Option (List Token)
  | gap => some []
  | number value => some [.number value]
  | _ => none

/-- Scan a text from some place on. -/
def scan? : Scanner → List Char → Option (List Token)
  | scanner, [] => scanner.finish?
  | scanner, character :: rest => do
      let (tokens, next) ← scanner.step character
      return tokens ++ (← scan? next rest)

theorem scan?_cons {scanner next : Scanner} {character : Char} {tokens : List Token}
    (stepped : scanner.step character = some (tokens, next)) (rest : List Char) :
    scanner.scan? (character :: rest) = (next.scan? rest).map (tokens ++ ·) := by
  rw [scan?, stepped]
  simp only [bind, Option.bind_some]
  cases next.scan? rest <;> rfl

/-! ## Strings -/

/-- An escape of one letter. -/
theorem scan?_letter (front : List Char) {letter meant : Char}
    (read : unescape? letter = some meant) (rest : List Char) :
    (text front).scan? ('\\' :: letter :: rest) = (text (front ++ [meant])).scan? rest := by
  have different : letter ≠ 'u' := by
    rintro rfl
    cases read
  have stepped : (escape front).step letter = some ([], text (front ++ [meant])) := by
    rw [step, if_neg different, read]
    rfl
  rw [scan?_cons rfl, scan?_cons stepped]
  simp

/-- An escape by a number of two digits. -/
theorem scan?_number (front : List Char) {character : Char} (control : character.toNat < 0x20)
    (rest : List Char) :
    (text front).scan?
        ('\\' :: 'u' :: '0' :: '0' :: hexDigit (character.toNat / 16) ::
          hexDigit (character.toNat % 16) :: rest) =
      (text (front ++ [character])).scan? rest := by
  have high := hexValue?_hexDigit (character.toNat / 16) (by omega)
  have low := hexValue?_hexDigit (character.toNat % 16) (by omega)
  have first : (unit front 4 0).step '0' = some ([], unit front 3 0) := rfl
  have second : (unit front 3 0).step '0' = some ([], unit front 2 0) := rfl
  have third : (unit front 2 0).step (hexDigit (character.toNat / 16)) =
      some ([], unit front 1 (character.toNat / 16)) := by
    simp [step, high]
  have fourth : (unit front 1 (character.toNat / 16)).step (hexDigit (character.toNat % 16)) =
      some ([], text (front ++ [character])) := by
    have whole : character.toNat / 16 * 16 + character.toNat % 16 = character.toNat := by omega
    have valid : character.toNat.isValidChar := character.valid
    simp [step, low, whole, valid]
  rw [scan?_cons rfl, scan?_cons rfl, scan?_cons first, scan?_cons second, scan?_cons third,
    scan?_cons fourth]
  simp

theorem scan?_escape (front : List Char) (character : Char) (rest : List Char) :
    (text front).scan? (Json.escape character ++ rest) =
      (text (front ++ [character])).scan? rest := by
  unfold Json.escape
  split
  case h_8 quote backslash backspace tab feed formFeed carriageReturn =>
    split
    · next control => exact scan?_number front control rest
    · next printable =>
        have stepped : (text front).step character =
            some ([], text (front ++ [character])) := by
          rw [step, if_neg quote, if_neg backslash, if_neg printable]
        rw [List.singleton_append, scan?_cons stepped]
        simp
  all_goals exact scan?_letter front rfl rest

/-- A string is read as its characters. -/
theorem scan?_characters (front characters rest : List Char) :
    (text front).scan? (characters.flatMap Json.escape ++ '"' :: rest) =
      (gap.scan? rest).map (.text (String.ofList (front ++ characters)) :: ·) := by
  induction characters generalizing front with
  | nil =>
      rw [List.flatMap_nil, List.nil_append, List.append_nil, scan?_cons rfl]
      rfl
  | cons character characters ih =>
      rw [List.flatMap_cons, List.append_assoc, scan?_escape, ih, List.append_assoc,
        List.singleton_append]

theorem scan?_quoted (value : String) (rest : List Char) :
    gap.scan? ((quoted value).toList ++ rest) = (gap.scan? rest).map (.text value :: ·) := by
  rw [quoted, String.toList_ofList, List.cons_append, List.append_assoc, List.singleton_append,
    scan?_cons rfl, scan?_characters, List.nil_append, String.ofList_toList, Option.map_map]
  rfl

/-! ## Numbers -/

/-- A text whose first character cannot be one more digit of a number. -/
def Separated (text : List Char) : Prop := ∀ character ∈ text.head?, character.isDigit = false

theorem step_digit {value : Nat} (positive : value ≠ 0) {digit : Nat} (small : digit < 10) :
    (number value).step (Nat.digitChar digit) = some ([], number (10 * value + digit)) := by
  have isDigit : (Nat.digitChar digit).isDigit = true := by simpa using small
  rw [step, if_pos isDigit, if_neg positive, Nat.ofDigitChars_cons_digitChar_of_lt_ten small,
    Nat.ofDigitChars_nil]

theorem start_digit : ∀ digit < 10,
    start (Nat.digitChar digit) = some ([], number digit) := by decide

/-- The digits of a number leave the scanner with its value, the digits before the last one with a
value that is not zero. -/
theorem scan?_digits (value : Nat) (rest : List Char) :
    gap.scan? (value.repr.toList ++ rest) = (number value).scan? rest := by
  rw [Nat.toList_repr]
  induction value using Nat.strongRecOn generalizing rest with
  | ind value ih =>
      by_cases small : value < 10
      · have stepped : gap.step (Nat.digitChar value) = some ([], number value) :=
          start_digit value small
        rw [Nat.toDigits_of_lt_base small, List.singleton_append, scan?_cons stepped]
        simp
      · have digit : value % 10 < 10 := Nat.mod_lt value (by decide)
        have front : value / 10 ≠ 0 := by omega
        have stepped := step_digit front digit
        rw [Nat.div_add_mod] at stepped
        rw [Nat.toDigits_of_base_le (by decide) (by omega), List.append_assoc,
          List.singleton_append, ih (value / 10) (by omega), scan?_cons stepped]
        simp

theorem scan?_repr (value : Nat) {rest : List Char} (separated : Separated rest) :
    gap.scan? (value.repr.toList ++ rest) = (gap.scan? rest).map (.number value :: ·) := by
  rw [scan?_digits]
  cases rest with
  | nil => rfl
  | cons character rest =>
      have other : character.isDigit = false := separated character rfl
      have next : (number value).step character =
          (start character).map fun (tokens, next) => (.number value :: tokens, next) := by
        rw [step, if_neg (by rw [other]; decide)]
      rw [scan?, scan?, next, step]
      cases start character with
      | none => rfl
      | some parts =>
          simp only [Option.map_some, bind, Option.bind_some]
          cases parts.2.scan? rest <;> rfl

/-! ## Marks and blanks -/

/-- A text of one character that is a token. -/
theorem scan?_mark {text : String} {character : Char} {token : Token}
    (single : text.toList = [character]) (stepped : gap.step character = some ([token], gap))
    (rest : List Char) :
    gap.scan? (text.toList ++ rest) = (gap.scan? rest).map (token :: ·) := by
  rw [single, List.singleton_append, scan?_cons stepped]
  rfl

theorem scan?_blank {character : Char} (blank : isBlank character) (rest : List Char) :
    gap.scan? (character :: rest) = gap.scan? rest := by
  have stepped : gap.step character = some ([], gap) := by rw [step, start, if_pos blank]
  rw [scan?_cons stepped]
  simp

theorem scan?_newline (level : Nat) (rest : List Char) :
    gap.scan? ((newline level).toList ++ rest) = gap.scan? rest := by
  rw [toList_newline, List.cons_append, scan?_blank (by decide)]
  induction 2 * level with
  | zero => rfl
  | succ blanks ih => rw [List.replicate_succ, List.cons_append, scan?_blank (by decide), ih]

end Scanner
end Json
end LuaCoverage
