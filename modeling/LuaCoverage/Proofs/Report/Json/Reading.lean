import LuaCoverage.Proofs.Report.Json.Token

/-!
# Reading JSON documents

A reader takes the tokens of a text one after another and keeps the arrays and objects that it has
entered on a stack.  What is read from a printed document is the document itself.
-/

namespace LuaCoverage

/-- The items as a list. -/
def JsonItems.toList : JsonItems → List Json
  | .nil => []
  | .cons first rest => first :: rest.toList

/-- The members as a list. -/
def JsonMembers.toList : JsonMembers → List (String × Json)
  | .nil => []
  | .cons key value rest => (key, value) :: rest.toList

@[simp]
theorem JsonItems.ofList_toList (items : JsonItems) : ofList items.toList = items := by
  induction items using JsonItems.toList.induct with
  | case1 => rfl
  | case2 first rest ih => rw [toList, ofList, ih]

@[simp]
theorem JsonItems.toList_ofList (items : List Json) : (ofList items).toList = items := by
  induction items with
  | nil => rfl
  | cons item items ih => rw [ofList, toList, ih]

@[simp]
theorem JsonMembers.ofList_toList (members : JsonMembers) : ofList members.toList = members := by
  induction members using JsonMembers.toList.induct with
  | case1 => rfl
  | case2 key value rest ih => rw [toList, ofList, ih]

@[simp]
theorem JsonMembers.toList_ofList (members : List (String × Json)) :
    (ofList members).toList = members := by
  induction members with
  | nil => rfl
  | cons member members ih => rw [ofList, toList, ih]

namespace Json

/-! ## Reading tokens -/

/-- An array or an object that a reader has entered. -/
inductive Frame
  /-- An array with the items so far. -/
  | array (items : List Json)
  /-- An object with the members so far and the key whose value is read. -/
  | object (members : List (String × Json)) (key : String)

/-- What a reader waits for. -/
inductive Reader
  /-- A value. -/
  | wantsValue (frames : List Frame)
  /-- The first item of an array, or its end. -/
  | opensArray (frames : List Frame)
  /-- The first key of an object, or its end. -/
  | opensObject (frames : List Frame)
  /-- One more key of an object. -/
  | wantsKey (members : List (String × Json)) (frames : List Frame)
  /-- The colon behind a key. -/
  | wantsColon (members : List (String × Json)) (key : String) (frames : List Frame)
  /-- What goes on behind a document, be it the end of the text. -/
  | behind (document : Json) (frames : List Frame)

namespace Reader

/-- Read the first token of a value. -/
def enter (frames : List Frame) : Token → Option Reader
  | .number value => some (behind (.number value) frames)
  | .text value => some (behind (.text value) frames)
  | .leftBracket => some (opensArray frames)
  | .leftBrace => some (opensObject frames)
  | _ => none

/-- Read a token. -/
def step : Reader → Token → Option Reader
  | wantsValue frames, token => enter frames token
  | opensArray frames, .rightBracket => some (behind (.array .nil) frames)
  | opensArray frames, token => enter (.array [] :: frames) token
  | opensObject frames, .rightBrace => some (behind (.object .nil) frames)
  | opensObject frames, .text key => some (wantsColon [] key frames)
  | wantsKey members frames, .text key => some (wantsColon members key frames)
  | wantsColon members key frames, .colon => some (wantsValue (.object members key :: frames))
  | behind item (.array items :: frames), .comma =>
      some (wantsValue (.array (items ++ [item]) :: frames))
  | behind item (.array items :: frames), .rightBracket =>
      some (behind (.array (.ofList (items ++ [item]))) frames)
  | behind value (.object members key :: frames), .comma =>
      some (wantsKey (members ++ [(key, value)]) frames)
  | behind value (.object members key :: frames), .rightBrace =>
      some (behind (.object (.ofList (members ++ [(key, value)]))) frames)
  | _, _ => none

/-- Read tokens up to the end, which must stand behind a document. -/
def run : Reader → List Token → Option Json
  | behind document [], [] => some document
  | _, [] => none
  | reader, token :: tokens => do (← reader.step token).run tokens

end Reader

/-- Read a text that is one document. -/
def read? (text : String) : Option Json := do
  Reader.run (.wantsValue []) (← Scanner.gap.scan? text.toList)

/-! ## Tokens of a document -/

mutual

/-- The tokens of a document. -/
def tokens : Json → List Token
  | .number value => [.number value]
  | .text value => [.text value]
  | .array .nil => [.leftBracket, .rightBracket]
  | .array (.cons first rest) =>
      .leftBracket :: (first.tokens ++ tokensOfItems rest ++ [.rightBracket])
  | .object .nil => [.leftBrace, .rightBrace]
  | .object (.cons key value rest) =>
      .leftBrace :: .text key :: .colon ::
        (value.tokens ++ tokensOfMembers rest ++ [.rightBrace])

/-- The tokens of the items after the first. -/
def tokensOfItems : JsonItems → List Token
  | .nil => []
  | .cons item rest => .comma :: (item.tokens ++ tokensOfItems rest)

/-- The tokens of the members after the first. -/
def tokensOfMembers : JsonMembers → List Token
  | .nil => []
  | .cons key value rest =>
      .comma :: .text key :: .colon :: (value.tokens ++ tokensOfMembers rest)

end

namespace Scanner

theorem separated_newline (level : Nat) (rest : List Char) :
    Separated ((newline level).toList ++ rest) := by
  rw [toList_newline]
  rintro character ⟨⟩
  rfl

section Separated

variable (level : Nat) {rest : List Char} (separated : Separated rest)
include separated

theorem separated_items (items : JsonItems) :
    Separated ((printItems level items).toList ++ rest) := by
  cases items with
  | nil => exact separated
  | cons item others =>
      rw [printItems]
      simp only [String.toList_append, List.append_assoc]
      rintro character ⟨⟩
      rfl

theorem separated_members (members : JsonMembers) :
    Separated ((printMembers level members).toList ++ rest) := by
  cases members with
  | nil => exact separated
  | cons key value others =>
      rw [printMembers]
      simp only [String.toList_append, List.append_assoc]
      rintro character ⟨⟩
      rfl

end Separated

/-- A key with the colon behind it. -/
theorem scan?_key (key : String) (rest : List Char) :
    gap.scan? ((quoted key).toList ++ (": ".toList ++ rest)) =
      (gap.scan? rest).map ([.text key, .colon] ++ ·) := by
  have colon : gap.step ':' = some ([.colon], gap) := by decide
  have separator : ": ".toList = [':', ' '] := rfl
  rw [scan?_quoted, separator, List.cons_append, List.singleton_append, scan?_cons colon,
    scan?_blank (by decide), Option.map_map]
  rfl

mutual

/-- A printed document is scanned as its tokens, whatever follows but a digit. -/
theorem scan?_print (level : Nat) (document : Json) {rest : List Char}
    (separated : Separated rest) :
    gap.scan? ((document.print level).toList ++ rest) =
      (gap.scan? rest).map (document.tokens ++ ·) := by
  cases document with
  | number value => exact scan?_repr value separated
  | text value => exact scan?_quoted value rest
  | array items =>
      have left : gap.step '[' = some ([.leftBracket], gap) := by decide
      have right : gap.step ']' = some ([.rightBracket], gap) := by decide
      cases items with
      | nil =>
          have brackets : "[]".toList = ['[', ']'] := rfl
          rw [print, brackets, List.cons_append, List.singleton_append, scan?_cons left,
            scan?_cons right, Option.map_map]
          rfl
      | cons first others =>
          have behind := separated_newline level ("]".toList ++ rest)
          rw [print]
          simp only [String.toList_append, List.append_assoc]
          rw [scan?_mark rfl left, scan?_newline,
            scan?_print (level + 1) first (separated_items (level + 1) behind others),
            scan?_printItems (level + 1) others behind, scan?_newline, scan?_mark rfl right]
          simp [tokens, Function.comp_def]
  | object members =>
      have left : gap.step '\x7b' = some ([.leftBrace], gap) := by decide
      have right : gap.step '\x7d' = some ([.rightBrace], gap) := by decide
      cases members with
      | nil =>
          have braces : "\x7b\x7d".toList = ['\x7b', '\x7d'] := rfl
          rw [print, braces, List.cons_append, List.singleton_append, scan?_cons left,
            scan?_cons right, Option.map_map]
          rfl
      | cons key value others =>
          have behind := separated_newline level ("\x7d".toList ++ rest)
          rw [print]
          simp only [String.toList_append, List.append_assoc]
          rw [scan?_mark rfl left, scan?_newline, scan?_key,
            scan?_print (level + 1) value (separated_members (level + 1) behind others),
            scan?_printMembers (level + 1) others behind, scan?_newline, scan?_mark rfl right]
          simp [tokens, Function.comp_def]

theorem scan?_printItems (level : Nat) (items : JsonItems) {rest : List Char}
    (separated : Separated rest) :
    gap.scan? ((printItems level items).toList ++ rest) =
      (gap.scan? rest).map (tokensOfItems items ++ ·) := by
  cases items with
  | nil => simp [printItems, tokensOfItems]
  | cons item others =>
      have comma : gap.step ',' = some ([.comma], gap) := by decide
      rw [printItems]
      simp only [String.toList_append, List.append_assoc]
      rw [scan?_mark rfl comma, scan?_newline,
        scan?_print level item (separated_items level separated others),
        scan?_printItems level others separated]
      simp [tokensOfItems, Function.comp_def]

theorem scan?_printMembers (level : Nat) (members : JsonMembers) {rest : List Char}
    (separated : Separated rest) :
    gap.scan? ((printMembers level members).toList ++ rest) =
      (gap.scan? rest).map (tokensOfMembers members ++ ·) := by
  cases members with
  | nil => simp [printMembers, tokensOfMembers]
  | cons key value others =>
      have comma : gap.step ',' = some ([.comma], gap) := by decide
      rw [printMembers]
      simp only [String.toList_append, List.append_assoc]
      rw [scan?_mark rfl comma, scan?_newline, scan?_key,
        scan?_print level value (separated_members level separated others),
        scan?_printMembers level others separated]
      simp [tokensOfMembers, Function.comp_def]

end

end Scanner

namespace Reader

theorem run_cons {reader next : Reader} {token : Token} (stepped : reader.step token = some next)
    (tokens : List Token) : reader.run (token :: tokens) = next.run tokens := by
  rw [run, stepped]
  rfl

/-- No document begins like the end of an array. -/
theorem run_opensArray (frames : List Frame) (document : Json) (rest : List Token) :
    (opensArray frames).run (document.tokens ++ rest) =
      (wantsValue (.array [] :: frames)).run (document.tokens ++ rest) := by
  cases document with
  | number value => rfl
  | text value => rfl
  | array items => cases items <;> rfl
  | object members => cases members <;> rfl

mutual

/-- The tokens of a document are read as the document, wherever it stands. -/
theorem run_tokens (frames : List Frame) (document : Json) (rest : List Token) :
    (wantsValue frames).run (document.tokens ++ rest) = (behind document frames).run rest := by
  cases document with
  | number value => exact run_cons rfl rest
  | text value => exact run_cons rfl rest
  | array items =>
      cases items with
      | nil => rfl
      | cons first others =>
          have opened : (wantsValue frames).step .leftBracket = some (opensArray frames) := rfl
          rw [tokens, List.cons_append, List.append_assoc, List.append_assoc, run_cons opened,
            run_opensArray, run_tokens (.array [] :: frames) first,
            run_tokensOfItems frames [] first others, List.nil_append, JsonItems.ofList,
            JsonItems.ofList_toList]
  | object members =>
      cases members with
      | nil => rfl
      | cons key value others =>
          have opened : (wantsValue frames).step .leftBrace = some (opensObject frames) := rfl
          have keyed : (opensObject frames).step (.text key) = some (wantsColon [] key frames) :=
            rfl
          have pointed : (wantsColon [] key frames).step .colon =
              some (wantsValue (.object [] key :: frames)) := rfl
          rw [tokens, List.cons_append, List.cons_append, List.cons_append, List.append_assoc,
            List.append_assoc, run_cons opened, run_cons keyed, run_cons pointed,
            run_tokens (.object [] key :: frames) value,
            run_tokensOfMembers frames [] key value others, List.nil_append, JsonMembers.ofList,
            JsonMembers.ofList_toList]

theorem run_tokensOfItems (frames : List Frame) (front : List Json) (item : Json)
    (items : JsonItems) (rest : List Token) :
    (behind item (.array front :: frames)).run (tokensOfItems items ++ ([.rightBracket] ++ rest)) =
      (behind (.array (.ofList (front ++ item :: items.toList))) frames).run rest := by
  cases items with
  | nil => exact run_cons rfl rest
  | cons next others =>
      have separated : (behind item (.array front :: frames)).step .comma =
          some (wantsValue (.array (front ++ [item]) :: frames)) := rfl
      rw [tokensOfItems, List.cons_append, List.append_assoc, run_cons separated,
        run_tokens (.array (front ++ [item]) :: frames) next,
        run_tokensOfItems frames (front ++ [item]) next others, JsonItems.toList,
        List.append_assoc, List.singleton_append]

theorem run_tokensOfMembers (frames : List Frame) (front : List (String × Json)) (key : String)
    (value : Json) (members : JsonMembers) (rest : List Token) :
    (behind value (.object front key :: frames)).run
        (tokensOfMembers members ++ ([.rightBrace] ++ rest)) =
      (behind (.object (.ofList (front ++ (key, value) :: members.toList))) frames).run rest := by
  cases members with
  | nil => exact run_cons rfl rest
  | cons name next others =>
      have separated : (behind value (.object front key :: frames)).step .comma =
          some (wantsKey (front ++ [(key, value)]) frames) := rfl
      have keyed : (wantsKey (front ++ [(key, value)]) frames).step (.text name) =
          some (wantsColon (front ++ [(key, value)]) name frames) := rfl
      have pointed : (wantsColon (front ++ [(key, value)]) name frames).step .colon =
          some (wantsValue (.object (front ++ [(key, value)]) name :: frames)) := rfl
      rw [tokensOfMembers, List.cons_append, List.cons_append, List.cons_append, List.append_assoc,
        run_cons separated, run_cons keyed, run_cons pointed,
        run_tokens (.object (front ++ [(key, value)]) name :: frames) next,
        run_tokensOfMembers frames (front ++ [(key, value)]) name next others,
        JsonMembers.toList, List.append_assoc, List.singleton_append]

end

end Reader

/-- Every printed document is one JSON text and is read back as it was. -/
theorem read?_print (level : Nat) (document : Json) :
    read? (document.print level) = some document := by
  have ends : Scanner.Separated [] := by
    rintro character ⟨⟩
  have scanned := Scanner.scan?_print level document ends
  rw [List.append_nil] at scanned
  have finished : Scanner.gap.scan? [] = some [] := rfl
  have whole := Reader.run_tokens [] document []
  rw [read?, scanned, finished]
  exact whole

/-- A comma must have an item behind it. -/
example : (read? "[1, ]").isNone := by decide

/-- A line feed must not stand in a string as it is. -/
example : (read? "\"\n\"").isNone := by decide

end Json
end LuaCoverage
