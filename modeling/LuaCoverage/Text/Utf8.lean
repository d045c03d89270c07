/-!
# UTF-8 text

Texts are read from octets one octet at a time.  Between characters the reader is at rest; inside a
character it holds the value read so far, the number of octets still owed and the range in which the
next one must lie.  An octet outside that range ends the sequence, which becomes one replacement
character, and is then read afresh, so every maximal ill-formed part is replaced exactly once.
-/

namespace LuaCoverage
namespace Utf8

/-- The octets of a text. -/
def encode (text : String) : List UInt8 :=
  text.toList.flatMap String.utf8EncodeChar

/-- The character that stands for an ill-formed part. -/
def replacement : Char := '\uFFFD'

/-- A character that has begun and is not yet complete. -/
structure Partial where
  /-- Value of the octets read so far. -/
  value : Nat
  /-- Number of octets still owed. -/
  owed : Nat
  /-- Least value of the next octet. -/
  least : Nat
  /-- Greatest value of the next octet. -/
  greatest : Nat
  deriving DecidableEq

namespace Partial

/-- Whether an octet continues the character. -/
def admits (part : Partial) (octet : UInt8) : Bool :=
  part.least ≤ octet.toNat && octet.toNat ≤ part.greatest

/-- Add a continuation octet: the last one owed completes the character. -/
def extend (part : Partial) (octet : UInt8) : List Char × Option Partial :=
  let value := part.value * 64 + (octet.toNat - 0x80)
  if part.owed = 1 then ([Char.ofNat value], none)
  else ([], some { value, owed := part.owed - 1, least := 0x80, greatest := 0xBF })

end Partial

/-- Read an octet between characters.  Overlong forms, surrogates and values past the last code
point are excluded by the range of the second octet. -/
def start (octet : UInt8) : List Char × Option Partial :=
  let lead := octet.toNat
  if lead < 0x80 then ([Char.ofNat lead], none)
  else if lead < 0xC2 then ([replacement], none)
  else if lead < 0xE0 then
    ([], some { value := lead - 0xC0, owed := 1, least := 0x80, greatest := 0xBF })
  else if lead < 0xF0 then
    ([], some
      { value := lead - 0xE0
        owed := 2
        least := if lead = 0xE0 then 0xA0 else 0x80
        greatest := if lead = 0xED then 0x9F else 0xBF })
  else if lead < 0xF5 then
    ([], some
      { value := lead - 0xF0
        owed := 3
        least := if lead = 0xF0 then 0x90 else 0x80
        greatest := if lead = 0xF4 then 0x8F else 0xBF })
  else ([replacement], none)

/-- Read one octet: the characters it completes or gives up, and where it leaves the reader. -/
def step : Option Partial → UInt8 → List Char × Option Partial
  | none, octet => start octet
  | some part, octet =>
      if part.admits octet then part.extend octet
      else
        let (characters, next) := start octet
        (replacement :: characters, next)

/-- Read octets from a given state.  A character cut off by the end is ill-formed. -/
def decodeFrom : Option Partial → List UInt8 → List Char
  | none, [] => []
  | some _, [] => [replacement]
  | state, octet :: octets =>
      let (characters, next) := step state octet
      characters ++ decodeFrom next octets

/-- The text that octets spell, each maximal ill-formed part replaced by one character. -/
def decode (octets : List UInt8) : String :=
  String.ofList (decodeFrom none octets)

/-- The text that octets spell, if they are well formed: a replacement would not read back. -/
def decode? (octets : List UInt8) : Option String :=
  let text := decode octets
  if encode text = octets then some text else none

end Utf8
end LuaCoverage
