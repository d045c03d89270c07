import LuaCoverage.Text.Utf8

/-!
# Reading back UTF-8 text

The octets of a text are read back as this text, whatever follows them.  Octets are well-formed if
they are those of some text, and a text in front of them makes no difference to that.
-/

namespace LuaCoverage
namespace Utf8

theorem decodeFrom_cons (state : Option Partial) (octet : UInt8) (octets : List UInt8) :
    decodeFrom state (octet :: octets) =
      (step state octet).1 ++ decodeFrom (step state octet).2 octets := by
  cases state <;> rfl

/-- A continuation octet that is not the last one owed. -/
theorem decodeFrom_continue {part : Partial} {number : Nat} (fits : number < 256)
    (least : part.least ≤ number) (greatest : number ≤ part.greatest) (more : part.owed ≠ 1)
    (octets : List UInt8) :
    decodeFrom (some part) (UInt8.ofNat number :: octets) =
      decodeFrom
        (some
          { value := part.value * 64 + (number - 0x80)
            owed := part.owed - 1
            least := 0x80
            greatest := 0xBF }) octets := by
  have admitted : part.admits (UInt8.ofNat number) := by
    simp [Partial.admits, UInt8.toNat_ofNat_of_lt' fits, least, greatest]
  rw [decodeFrom_cons, step, if_pos admitted, Partial.extend, UInt8.toNat_ofNat_of_lt' fits,
    if_neg more, List.nil_append]

/-- The last octet owed completes the character. -/
theorem decodeFrom_complete {part : Partial} {number : Nat} (fits : number < 256)
    (least : part.least ≤ number) (greatest : number ≤ part.greatest) (last : part.owed = 1)
    (octets : List UInt8) :
    decodeFrom (some part) (UInt8.ofNat number :: octets) =
      Char.ofNat (part.value * 64 + (number - 0x80)) :: decodeFrom none octets := by
  have admitted : part.admits (UInt8.ofNat number) := by
    simp [Partial.admits, UInt8.toNat_ofNat_of_lt' fits, least, greatest]
  rw [decodeFrom_cons, step, if_pos admitted, Partial.extend, UInt8.toNat_ofNat_of_lt' fits,
    if_pos last]
  rfl

section Starts

variable {number : Nat}

theorem start_one (ascii : number < 0x80) :
    start (UInt8.ofNat number) = ([Char.ofNat number], none) := by
  have lead : (UInt8.ofNat number).toNat = number :=
    UInt8.toNat_ofNat_of_lt' (show number < 256 by omega)
  simp only [start, lead]
  rw [if_pos ascii]

theorem start_two (least : 0xC2 ≤ number) (greatest : number < 0xE0) :
    start (UInt8.ofNat number) =
      ([], some { value := number - 0xC0, owed := 1, least := 0x80, greatest := 0xBF }) := by
  have lead : (UInt8.ofNat number).toNat = number :=
    UInt8.toNat_ofNat_of_lt' (show number < 256 by omega)
  simp only [start, lead]
  rw [if_neg (by omega), if_neg (by omega), if_pos greatest]

theorem start_three (least : 0xE0 ≤ number) (greatest : number < 0xF0) :
    start (UInt8.ofNat number) =
      ([], some
        { value := number - 0xE0
          owed := 2
          least := if number = 0xE0 then 0xA0 else 0x80
          greatest := if number = 0xED then 0x9F else 0xBF }) := by
  have lead : (UInt8.ofNat number).toNat = number :=
    UInt8.toNat_ofNat_of_lt' (show number < 256 by omega)
  simp only [start, lead]
  rw [if_neg (by omega), if_neg (by omega), if_neg (by omega), if_pos greatest]

theorem start_four (least : 0xF0 ≤ number) (greatest : number < 0xF5) :
    start (UInt8.ofNat number) =
      ([], some
        { value := number - 0xF0
          owed := 3
          least := if number = 0xF0 then 0x90 else 0x80
          greatest := if number = 0xF4 then 0x8F else 0xBF }) := by
  have lead : (UInt8.ofNat number).toNat = number :=
    UInt8.toNat_ofNat_of_lt' (show number < 256 by omega)
  simp only [start, lead]
  rw [if_neg (by omega), if_neg (by omega), if_neg (by omega), if_neg (by omega),
    if_pos greatest]

end Starts

/-- The octets of a character are read back as this character, and the reader is at rest. -/
theorem decodeFrom_utf8EncodeChar (character : Char) (octets : List UInt8) :
    decodeFrom none (String.utf8EncodeChar character ++ octets) =
      character :: decodeFrom none octets := by
  have back : Char.ofNat character.val.toNat = character := Char.ofNat_toNat character
  have valid : character.val.toNat < 0xD800 ∨
      0xDFFF < character.val.toNat ∧ character.val.toNat < 0x110000 := character.valid
  rw [String.utf8EncodeChar]
  generalize character.val.toNat = number at back valid
  split
  · next one =>
      rw [List.singleton_append, decodeFrom_cons, step, start_one (by omega), back]
      rfl
  split
  · next two =>
      have value :
          (number / 64 % 32 + 0xC0 - 0xC0) * 64 + (number % 64 + 0x80 - 0x80) = number := by
        omega
      rw [List.cons_append, List.singleton_append, decodeFrom_cons, step,
        start_two (by omega) (by omega), List.nil_append,
        decodeFrom_complete (by omega) (by simp) (by simp only; omega) rfl, value, back]
  split
  · next three =>
      have value :
          ((number / 4096 % 16 + 0xE0 - 0xE0) * 64 + (number / 64 % 64 + 0x80 - 0x80)) * 64 +
            (number % 64 + 0x80 - 0x80) = number := by
        omega
      rw [List.cons_append, List.cons_append, List.singleton_append, decodeFrom_cons, step,
        start_three (by omega) (by omega), List.nil_append,
        decodeFrom_continue (by omega) (by simp only; split <;> omega)
          (by simp only; split <;> omega) (by simp),
        decodeFrom_complete (by omega) (by simp) (by simp only; omega) rfl, value, back]
  · have value :
        (((number / 262144 % 8 + 0xF0 - 0xF0) * 64 + (number / 4096 % 64 + 0x80 - 0x80)) * 64 +
            (number / 64 % 64 + 0x80 - 0x80)) * 64 + (number % 64 + 0x80 - 0x80) = number := by
      omega
    rw [List.cons_append, List.cons_append, List.cons_append, List.singleton_append,
      decodeFrom_cons, step, start_four (by omega) (by omega), List.nil_append,
      decodeFrom_continue (by omega) (by simp only; split <;> omega)
        (by simp only; split <;> omega) (by simp),
      decodeFrom_continue (by omega) (by simp) (by simp only; omega) (by simp),
      decodeFrom_complete (by omega) (by simp) (by simp only; omega) rfl, value, back]

/-- A text is read back from its octets, and the octets behind it are read on their own. -/
theorem toList_decode_encode_append (text : String) (octets : List UInt8) :
    (decode (encode text ++ octets)).toList = text.toList ++ (decode octets).toList := by
  have characters (list : List Char) :
      decodeFrom none (list.flatMap String.utf8EncodeChar ++ octets) =
        list ++ decodeFrom none octets := by
    induction list with
    | nil => rfl
    | cons character list ih =>
        rw [List.flatMap_cons, List.append_assoc, decodeFrom_utf8EncodeChar, ih, List.cons_append]
  rw [decode, decode, String.toList_ofList, String.toList_ofList, encode, characters]

theorem decode_encode (text : String) : decode (encode text) = text := by
  have alone := toList_decode_encode_append text []
  rw [List.append_nil] at alone
  exact String.toList_injective (alone.trans (List.append_nil _))

/-! ## Well-formed octets -/

/-- Octets that spell a text without any replacement. -/
def WellFormed (octets : List UInt8) : Prop := ∃ text, encode text = octets

theorem wellFormed_iff (octets : List UInt8) :
    WellFormed octets ↔ encode (decode octets) = octets := by
  constructor
  · rintro ⟨text, rfl⟩
    rw [decode_encode]
  · intro same
    exact ⟨decode octets, same⟩

instance (octets : List UInt8) : Decidable (WellFormed octets) :=
  decidable_of_iff _ (wellFormed_iff octets).symm

theorem decode?_eq_some_iff {octets : List UInt8} {text : String} :
    decode? octets = some text ↔ encode text = octets := by
  constructor
  · intro read
    rw [decode?] at read
    split at read
    · next same =>
        cases read
        exact same
    · cases read
  · rintro rfl
    rw [decode?, decode_encode]
    exact if_pos rfl

/-- A text in front does not matter. -/
theorem wellFormed_encode_append (text : String) (octets : List UInt8) :
    WellFormed (encode text ++ octets) ↔ WellFormed octets := by
  have parts : encode (decode (encode text ++ octets)) = encode text ++ encode (decode octets) := by
    rw [encode, toList_decode_encode_append, List.flatMap_append, encode, encode]
  rw [wellFormed_iff, wellFormed_iff, parts, List.append_cancel_left_eq]

end Utf8
end LuaCoverage
