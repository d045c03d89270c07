import LuaCoverage.Proofs.Text.Utf8
import Mathlib

/-!
# ASCII marks in octets and in text

Reading octets as text keeps every ASCII octet where it stands, in ill-formed surroundings as well:
it is read as its character, it ends a character cut off before it, and no other octets are ever
read as an ASCII mark.  So texts can be cut and compared at ASCII marks before or after reading.
-/

namespace LuaCoverage
namespace Utf8

/-- Code of an ASCII character other than NUL. -/
def IsMark (code : Nat) : Prop := 0 < code ∧ code < 0x80

instance (code : Nat) : Decidable (IsMark code) :=
  inferInstanceAs (Decidable (_ ∧ _))

/-- What every character that has begun satisfies: no ASCII octet continues it, and it does not end
as an ASCII character. -/
structure Partial.Begun (part : Partial) : Prop where
  /-- Continuing octets are no ASCII octets. -/
  least : 0x80 ≤ part.least
  /-- The value after the next octet is no ASCII code. -/
  value : 2 ≤ part.value * 64 + (part.least - 0x80)
  /-- Before the last octet the value is large enough as well. -/
  last : part.owed = 1 → 2 ≤ part.value

theorem start_ascii {octet : UInt8} (ascii : octet.toNat < 0x80) :
    start octet = ([Char.ofNat octet.toNat], none) := by
  rw [start]
  exact if_pos ascii

/-- Any other octet is replaced or begins a character. -/
theorem start_high {octet : UInt8} (high : ¬ octet.toNat < 0x80) :
    start octet = ([replacement], none) ∨
      ∃ part : Partial, part.Begun ∧ start octet = ([], some part) := by
  simp only [start]
  rw [if_neg high]
  split
  · exact .inl rfl
  split
  · exact .inr ⟨_, ⟨by simp, by simp only; omega, fun _ => by simp only; omega⟩, rfl⟩
  split
  · refine .inr ⟨_, ⟨?_, ?_, fun last => absurd last (by simp)⟩, rfl⟩
    · simp only
      split <;> omega
    · simp only
      split <;> omega
  split
  · refine .inr ⟨_, ⟨?_, ?_, fun last => absurd last (by simp)⟩, rfl⟩
    · simp only
      split <;> omega
    · simp only
      split <;> omega
  · exact .inl rfl

theorem not_isMark_ofNat {value : Nat} (high : 0x80 ≤ value) :
    ¬ IsMark (Char.ofNat value).toNat := by
  intro mark
  rw [Char.ofNat] at mark
  split at mark
  · exact absurd (show value < 0x80 from mark.2) (by omega)
  · exact absurd mark.1 (by decide)

theorem not_isMark_replacement : ¬ IsMark replacement.toNat :=
  fun mark => absurd mark.2 (by decide)

/-- A continuing octet completes a character that is no mark, or the character goes on. -/
theorem Partial.Begun.extend {part : Partial} {octet : UInt8} (begun : part.Begun)
    (admitted : part.admits octet) :
    (∃ character, ¬ IsMark character.toNat ∧ part.extend octet = ([character], none)) ∨
      ∃ next : Partial, next.Begun ∧ part.extend octet = ([], some next) := by
  have least : part.least ≤ octet.toNat := by
    have both := admitted
    rw [Partial.admits, Bool.and_eq_true, decide_eq_true_eq] at both
    exact both.1
  have first := begun.least
  have value := begun.value
  rw [Partial.extend]
  split
  · next one =>
      have large := begun.last one
      exact .inl ⟨_, not_isMark_ofNat (by omega), rfl⟩
  · refine .inr ⟨_, ⟨Nat.le_refl _, ?_, ?_⟩, rfl⟩
    · simp only
      omega
    · simp only
      omega

/-- The reader after an ASCII octet: what was pending is given up, and the octet is read. -/
theorem step_ascii {octet : UInt8} (ascii : octet.toNat < 0x80) {state : Option Partial}
    (begun : ∀ part, state = some part → part.Begun) :
    step state octet = (decodeFrom state [] ++ [Char.ofNat octet.toNat], none) := by
  cases state with
  | none => exact start_ascii ascii
  | some part =>
      have refused : ¬ part.admits octet := by
        have least := (begun part rfl).least
        rw [Partial.admits, Bool.and_eq_true, decide_eq_true_eq]
        omega
      rw [step, if_neg refused, start_ascii ascii]
      rfl

theorem Partial.Begun.of_exists {read : List Char × Option Partial} {part : Partial}
    (goes : ∃ next : Partial, next.Begun ∧ read = ([], some next)) (next : read.2 = some part) :
    part.Begun := by
  obtain ⟨other, begun, rfl⟩ := goes
  cases next
  exact begun

theorem begun_start {octet : UInt8} {part : Partial} (next : (start octet).2 = some part) :
    part.Begun := by
  by_cases ascii : octet.toNat < 0x80
  · rw [start_ascii ascii] at next
    cases next
  · rcases start_high ascii with replaced | goes
    · rw [replaced] at next
      cases next
    · exact .of_exists goes next

theorem begun_step {state : Option Partial} {octet : UInt8} {part : Partial}
    (begun : ∀ part, state = some part → part.Begun) (next : (step state octet).2 = some part) :
    part.Begun := by
  cases state with
  | none => exact begun_start next
  | some before =>
      rw [step] at next
      split at next
      · next admitted =>
          rcases (begun before rfl).extend admitted with ⟨_, _, done⟩ | goes
          · rw [done] at next
            cases next
          · exact .of_exists goes next
      · exact begun_start next

theorem decodeFrom_append_ascii {octet : UInt8} (ascii : octet.toNat < 0x80)
    (before after : List UInt8) {state : Option Partial}
    (begun : ∀ part, state = some part → part.Begun) :
    decodeFrom state (before ++ octet :: after) =
      decodeFrom state before ++ Char.ofNat octet.toNat :: decodeFrom none after := by
  induction before generalizing state with
  | nil =>
      rw [List.nil_append, decodeFrom_cons, step_ascii ascii begun, List.append_assoc,
        List.singleton_append]
  | cons first before ih =>
      rw [List.cons_append, decodeFrom_cons, decodeFrom_cons, ih fun part => begun_step begun,
        List.append_assoc]

/-- Text is cut at an ASCII octet as the octets are. -/
theorem toList_decode_append_ascii {octet : UInt8} (ascii : octet.toNat < 0x80)
    (before after : List UInt8) :
    (decode (before ++ octet :: after)).toList =
      (decode before).toList ++ Char.ofNat octet.toNat :: (decode after).toList := by
  have begun : ∀ part : Partial, none = some part → part.Begun := by
    intro part begun
    cases begun
  simp only [decode, String.toList_ofList]
  exact decodeFrom_append_ascii ascii before after begun

/-! ## Octets beside their characters -/

/-- Octets beside the characters that they are read as: an ASCII octet has its own character, and
other octets share one that is no mark. -/
inductive Aligned : List UInt8 → List Char → Prop
  /-- Nothing is read as nothing. -/
  | nil : Aligned [] []
  /-- An ASCII octet. -/
  | ascii {octet : UInt8} {octets : List UInt8} {characters : List Char}
      (low : octet.toNat < 0x80) (rest : Aligned octets characters) :
      Aligned (octet :: octets) (Char.ofNat octet.toNat :: characters)
  /-- One or more other octets. -/
  | other {octet : UInt8} {more octets : List UInt8} {character : Char} {characters : List Char}
      (high : ∀ each ∈ octet :: more, ¬ each.toNat < 0x80) (unmarked : ¬ IsMark character.toNat)
      (rest : Aligned octets characters) :
      Aligned (octet :: more ++ octets) (character :: characters)

/-- A character that has begun is completed or given up behind some octets that are no ASCII octets,
and what follows is read afresh. -/
def Partial.Settles (octets : List UInt8) (part : Partial) : Prop :=
  ∃ more rest character characters, octets = more ++ rest ∧
    (∀ each ∈ more, ¬ each.toNat < 0x80) ∧ ¬ IsMark character.toNat ∧
    decodeFrom (some part) octets = character :: characters ∧ Aligned rest characters

/-- Decoding is aligned between characters, and a character that has begun settles: where it is
given up, the same octets are read afresh between characters. -/
theorem decodeFrom_aligned (octets : List UInt8) :
    Aligned octets (decodeFrom none octets) ∧
      ∀ part : Partial, part.Begun → part.Settles octets := by
  induction octets with
  | nil =>
      exact ⟨.nil, fun part _ => ⟨[], [], replacement, [], rfl, nofun, not_isMark_replacement, rfl,
        .nil⟩⟩
  | cons octet octets ih =>
      obtain ⟨rested, settled⟩ := ih
      have afresh : Aligned (octet :: octets) (decodeFrom none (octet :: octets)) := by
        rw [decodeFrom_cons, step]
        by_cases low : octet.toNat < 0x80
        · rw [start_ascii low]
          exact .ascii low rested
        · rcases start_high low with replaced | ⟨part, begun, goes⟩
          · rw [replaced]
            have alone : ∀ each ∈ [octet], ¬ each.toNat < 0x80 := by simpa using low
            exact .other alone not_isMark_replacement rested
          · obtain ⟨more, rest, character, characters, rfl, high, unmarked, read, aligned⟩ :=
              settled part begun
            rw [goes, List.nil_append, read]
            exact .other (List.forall_mem_cons.mpr ⟨low, high⟩) unmarked aligned
      refine ⟨afresh, fun part begun => ?_⟩
      by_cases admitted : part.admits octet
      · have high : ¬ octet.toNat < 0x80 := by
          have least := begun.least
          rw [Partial.admits, Bool.and_eq_true, decide_eq_true_eq] at admitted
          omega
        rcases begun.extend admitted with ⟨character, unmarked, done⟩ | ⟨next, later, goes⟩
        · refine ⟨[octet], octets, character, _, rfl, by simpa using high, unmarked, ?_, rested⟩
          rw [decodeFrom_cons, step, if_pos admitted, done, List.singleton_append]
        · obtain ⟨more, rest, character, characters, rfl, others, unmarked, read, aligned⟩ :=
            settled next later
          refine ⟨octet :: more, rest, character, characters, rfl,
            List.forall_mem_cons.mpr ⟨high, others⟩, unmarked, ?_, aligned⟩
          rw [decodeFrom_cons, step, if_pos admitted, goes, List.nil_append, read]
      · refine ⟨[], octet :: octets, replacement, _, rfl, nofun, not_isMark_replacement, ?_, afresh⟩
        rw [decodeFrom_cons, step, if_neg admitted]
        rfl

theorem toNat_ofNat_ascii {octet : UInt8} (ascii : octet.toNat < 0x80) :
    (Char.ofNat octet.toNat).toNat = octet.toNat := by
  rw [Char.ofNat, dif_pos (Or.inl (by omega))]
  rfl

namespace Aligned

variable {octets : List UInt8} {characters : List Char} {mark : UInt8}

theorem ofNat_eq_iff (isMark : IsMark mark.toNat) {octet : UInt8} (low : octet.toNat < 0x80) :
    Char.ofNat octet.toNat = Char.ofNat mark.toNat ↔ octet = mark := by
  rw [← Char.toNat_inj, toNat_ofNat_ascii low, toNat_ofNat_ascii isMark.2, UInt8.toNat_inj]

theorem ne_of_not_isMark (isMark : IsMark mark.toNat) {character : Char}
    (unmarked : ¬ IsMark character.toNat) : character ≠ Char.ofNat mark.toNat := by
  rintro rfl
  rw [toNat_ofNat_ascii isMark.2] at unmarked
  exact unmarked isMark

/-- A mark occurs as often in the text as in the octets. -/
theorem count_eq (aligned : Aligned octets characters) (isMark : IsMark mark.toNat) :
    characters.count (Char.ofNat mark.toNat) = octets.count mark := by
  induction aligned with
  | nil => rfl
  | @ascii octet octets characters low _ ih =>
      rw [List.count_cons, List.count_cons, ih]
      simp only [beq_iff_eq, ofNat_eq_iff isMark low]
  | @other octet more octets character characters high unmarked _ ih =>
      have absent : mark ∉ octet :: more := fun member => high mark member isMark.2
      rw [List.count_append, List.count_eq_zero.mpr absent, Nat.zero_add, ← ih]
      exact List.count_cons_of_ne (ne_of_not_isMark isMark unmarked)

/-- Octets that do not start with a mark give a text that does not start with it. -/
theorem head?_ne {octet : UInt8} (aligned : Aligned (octet :: octets) characters)
    (isMark : IsMark mark.toNat) (different : octet ≠ mark) :
    characters.head? ≠ some (Char.ofNat mark.toNat) := by
  generalize all : octet :: octets = whole at aligned
  cases aligned with
  | nil => nofun
  | ascii low rest =>
      cases all
      exact fun same => different ((ofNat_eq_iff isMark low).mp (Option.some.inj same))
  | other high unmarked rest =>
      exact fun same => ne_of_not_isMark isMark unmarked (Option.some.inj same)

/-- Either all codes are the same, or some code on each side is that of no mark. -/
theorem codes (aligned : Aligned octets characters) :
    characters.map Char.toNat = octets.map UInt8.toNat ∨
      (∃ code ∈ characters.map Char.toNat, ¬ IsMark code) ∧
        ∃ code ∈ octets.map UInt8.toNat, ¬ IsMark code := by
  induction aligned with
  | nil => exact .inl rfl
  | ascii low _ ih =>
      rcases ih with same | ⟨⟨code, member, unmarked⟩, ⟨other, among, unlike⟩⟩
      · exact .inl (by rw [List.map_cons, List.map_cons, same, toNat_ofNat_ascii low])
      · exact .inr ⟨⟨code, List.mem_cons_of_mem _ member, unmarked⟩,
          ⟨other, List.mem_cons_of_mem _ among, unlike⟩⟩
  | @other octet _ _ character _ high unmarked _ _ =>
      refine .inr ⟨⟨character.toNat, List.mem_cons_self .., unmarked⟩,
        ⟨octet.toNat, List.mem_cons_self .., fun mark => ?_⟩⟩
      exact high octet (List.mem_cons_self ..) mark.2

end Aligned

theorem aligned_decode (octets : List UInt8) : Aligned octets (decode octets).toList := by
  rw [decode, String.toList_ofList]
  exact (decodeFrom_aligned octets).1

/-- Leading marks are dropped before or after reading. -/
theorem dropWhile_decode {mark : UInt8} (isMark : IsMark mark.toNat) (octets : List UInt8) :
    (decode octets).toList.dropWhile (· == Char.ofNat mark.toNat) =
      (decode (octets.dropWhile (· == mark))).toList := by
  induction octets with
  | nil => rfl
  | cons octet octets ih =>
      by_cases same : octet = mark
      · subst same
        have cut := toList_decode_append_ascii isMark.2 [] octets
        rw [List.nil_append] at cut
        have dropped : (octet :: octets).dropWhile (· == octet) = octets.dropWhile (· == octet) :=
          List.dropWhile_cons_of_pos (beq_self_eq_true octet)
        rw [cut, dropped, ← ih]
        exact List.dropWhile_cons_of_pos (beq_self_eq_true _)
      · have first := (aligned_decode (octet :: octets)).head?_ne isMark same
        rw [List.dropWhile_cons_of_neg (by simpa using same)]
        cases text : (decode (octet :: octets)).toList with
        | nil => rfl
        | cons character characters =>
            rw [text] at first
            exact List.dropWhile_cons_of_neg fun equal => first (congrArg some (eq_of_beq equal))

end Utf8
end LuaCoverage
