import LuaCoverage.Command.Arguments
import LuaCoverage.Proofs.Text.Utf8
import Mathlib.Data.List.Forall2
import Mathlib.Data.List.TakeWhile

/-!
# Doubling dashes

An argument gets a second dash exactly if it is well-formed text and a long option with one dash.
An argument that has got its second dash is no such option any more, and none becomes the two dashes
that end the options, so that doubling dashes again changes nothing.
-/

namespace LuaCoverage
namespace Argument

/-- A long option with one dash, alone or with a value after an equals sign. -/
def oneDash (name : String) (value : Option Argument) : Argument :=
  dash :: Utf8.encode name ++ value.elim [] (equalsSign :: ·)

/-- A long option with two dashes, alone or with a value after an equals sign. -/
def twoDashes (name : String) (value : Option Argument) : Argument := dash :: oneDash name value

/-- An argument that is a long option with one dash. -/
def OneDashed (argument : Argument) : Prop :=
  ∃ name ∈ longNames, ∃ value, argument = oneDash name value

/-! ## One argument -/

theorem equals_not_mem : ∀ name ∈ longNames, '=' ∉ name.toList := by decide

/-- A long option is neither empty nor does it start with a dash. -/
theorem exists_first : ∀ name ∈ longNames,
    (Utf8.encode name).head?.any (· != dash) = true := by decide +kernel

theorem oneDash_eq_append (name : String) (value : Option Argument) :
    oneDash name value = Utf8.encode ("-" ++ name) ++ value.elim [] (equalsSign :: ·) := by
  rw [oneDash, Utf8.encode, Utf8.encode, String.toList_append, List.flatMap_append]
  rfl

/-- A long option with one dash is well-formed text exactly if its value is. -/
theorem wellFormed_oneDash (name : String) (value : Option Argument) :
    Utf8.WellFormed (oneDash name value) ↔ ∀ octets ∈ value, Utf8.WellFormed octets := by
  rw [oneDash_eq_append, Utf8.wellFormed_encode_append]
  cases value with
  | none => exact iff_of_true ⟨"", rfl⟩ nofun
  | some octets =>
      have valued : Utf8.WellFormed (equalsSign :: octets) ↔ Utf8.WellFormed octets :=
        Utf8.wellFormed_encode_append "=" octets
      simpa using valued

theorem isSingleDashed_iff {text : List Char} :
    isSingleDashed text = true ↔ ∃ name ∈ longNames, ∃ value : Option (List Char),
      text = '-' :: name.toList ++ value.elim [] ('=' :: ·) := by
  constructor
  · intro single
    unfold isSingleDashed at single
    split at single
    · next rest =>
        refine ⟨_, List.contains_iff_mem.mp single, (rest.dropWhile (· != '=')).tail?, ?_⟩
        have stopped := List.head?_dropWhile_not (· != '=') rest
        rw [String.toList_ofList, List.cons_append]
        congr 1
        nth_rewrite 1 [← List.takeWhile_append_dropWhile (p := (· != '=')) (l := rest)]
        congr 1
        cases behind : rest.dropWhile (· != '=') with
        | nil => rfl
        | cons mark value =>
            rw [behind] at stopped
            obtain rfl : mark = '=' := by simpa using stopped
            rfl
    · cases single
  · rintro ⟨name, long, value, rfl⟩
    have every : ∀ mark ∈ name.toList, (mark != '=') = true := by
      intro mark member
      exact bne_iff_ne.mpr fun same => equals_not_mem name long (same ▸ member)
    have stops : (value.elim [] ('=' :: ·)).takeWhile (· != '=') = [] := by cases value <;> rfl
    rw [List.cons_append, isSingleDashed, List.takeWhile_append_of_pos every, stops,
      List.append_nil, String.ofList_toList]
    exact List.contains_iff_mem.mpr long

/-- For the octets of a text, it does not matter on which of both an option is looked for. -/
theorem isSingleDashed_iff_oneDashed (text : String) :
    isSingleDashed text.toList = true ↔ OneDashed (Utf8.encode text) := by
  rw [isSingleDashed_iff]
  refine exists_congr fun name => and_congr_right fun _ => ?_
  constructor
  · rintro ⟨value, spelled⟩
    refine ⟨value.map fun octets => octets.flatMap String.utf8EncodeChar, ?_⟩
    rw [Utf8.encode, spelled, oneDash_eq_append, Utf8.encode, String.toList_append,
      List.flatMap_append]
    cases value <;> rfl
  · rintro ⟨value, spelled⟩
    refine ⟨value.map fun octets => (Utf8.decode octets).toList, ?_⟩
    have read := congrArg String.toList (Utf8.decode_encode text)
    rw [spelled, oneDash_eq_append, Utf8.toList_decode_encode_append, String.toList_append] at read
    rw [← read]
    cases value with
    | none => rfl
    | some octets => exact congrArg _ (Utf8.toList_decode_encode_append "=" octets)

theorem doubleDash_of_oneDashed {argument : Argument} (wellFormed : Utf8.WellFormed argument)
    (single : OneDashed argument) : doubleDash argument = dash :: argument := by
  obtain ⟨text, rfl⟩ := wellFormed
  rw [doubleDash, Utf8.decode?_eq_some_iff.mpr rfl]
  exact if_pos ((isSingleDashed_iff_oneDashed text).mpr single)

theorem doubleDash_of_other {argument : Argument}
    (other : ¬(Utf8.WellFormed argument ∧ OneDashed argument)) :
    doubleDash argument = argument := by
  rw [doubleDash]
  split
  · rfl
  · next text read =>
      obtain rfl := Utf8.decode?_eq_some_iff.mp read
      exact if_neg fun single =>
        other ⟨⟨text, rfl⟩, (isSingleDashed_iff_oneDashed text).mp single⟩

/-- What becomes of an argument. -/
theorem doubleDash_cases (argument : Argument) :
    doubleDash argument = argument ∨
      doubleDash argument = dash :: argument ∧ OneDashed argument := by
  by_cases option : Utf8.WellFormed argument ∧ OneDashed argument
  · exact Or.inr ⟨doubleDash_of_oneDashed option.1 option.2, option.2⟩
  · exact Or.inl (doubleDash_of_other option)

theorem doubleDash_eq_cons_iff (argument : Argument) :
    doubleDash argument = dash :: argument ↔ Utf8.WellFormed argument ∧ OneDashed argument := by
  constructor
  · intro doubled
    by_contra other
    rw [doubleDash_of_other other] at doubled
    exact List.ne_cons_self doubled
  · rintro ⟨wellFormed, single⟩
    exact doubleDash_of_oneDashed wellFormed single

/-- Behind the dash stands a letter. -/
theorem OneDashed.exists_letter {argument : Argument} (single : OneDashed argument) :
    ∃ letter rest, argument = dash :: letter :: rest ∧ letter ≠ dash := by
  obtain ⟨name, long, value, rfl⟩ := single
  have first := exists_first name long
  rw [oneDash]
  cases letters : Utf8.encode name with
  | nil =>
      rw [letters] at first
      cases first
  | cons letter others =>
      rw [letters] at first
      exact ⟨letter, _, rfl, by simpa using first⟩

/-- What has two dashes is left alone. -/
theorem OneDashed.not_oneDashed_cons {argument : Argument} (single : OneDashed argument) :
    ¬OneDashed (dash :: argument) := by
  obtain ⟨letter, rest, rfl, -⟩ := single.exists_letter
  intro again
  obtain ⟨other, more, same, unlike⟩ := again.exists_letter
  rw [List.cons.injEq, List.cons.injEq] at same
  exact unlike same.2.1.symm

theorem OneDashed.ne_terminator {argument : Argument} (single : OneDashed argument) :
    argument ≠ terminator := by
  rintro rfl
  obtain ⟨letter, rest, same, unlike⟩ := single.exists_letter
  rw [terminator, List.cons.injEq, List.cons.injEq] at same
  exact unlike same.2.1.symm

theorem OneDashed.cons_ne_terminator {argument : Argument} (single : OneDashed argument) :
    dash :: argument ≠ terminator := by
  obtain ⟨letter, rest, rfl, -⟩ := single.exists_letter
  nofun

theorem doubleDash_doubleDash (argument : Argument) :
    doubleDash (doubleDash argument) = doubleDash argument := by
  rcases doubleDash_cases argument with kept | ⟨doubled, single⟩
  · rw [kept, kept]
  · rw [doubled]
    exact doubleDash_of_other fun option => single.not_oneDashed_cons option.2

/-- No argument becomes two dashes alone. -/
theorem doubleDash_eq_terminator_iff {argument : Argument} :
    doubleDash argument = terminator ↔ argument = terminator := by
  rcases doubleDash_cases argument with kept | ⟨doubled, single⟩
  · rw [kept]
  · rw [doubled]
    exact iff_of_false single.cons_ne_terminator single.ne_terminator

/-! ## All arguments -/

theorem doubleDashes_terminator (others : List Argument) :
    doubleDashes (terminator :: others) = terminator :: others := by
  rw [doubleDashes, if_pos rfl]

theorem doubleDashes_cons {argument : Argument} (plain : argument ≠ terminator)
    (others : List Argument) :
    doubleDashes (argument :: others) = doubleDash argument :: doubleDashes others := by
  rw [doubleDashes, if_neg plain]

/-- Dashes are doubled up to the first argument of two dashes alone. -/
theorem doubleDashes_eq (arguments : List Argument) :
    doubleDashes arguments =
      (arguments.takeWhile (· ≠ terminator)).map doubleDash ++
        arguments.dropWhile (· ≠ terminator) := by
  induction arguments using doubleDashes.induct with
  | case1 => rfl
  | case2 others =>
      rw [doubleDashes_terminator, List.takeWhile_cons_of_neg (by simp),
        List.dropWhile_cons_of_neg (by simp), List.map_nil, List.nil_append]
  | case3 argument others plain ih =>
      rw [doubleDashes_cons plain, ih, List.takeWhile_cons_of_pos (by simpa using plain),
        List.dropWhile_cons_of_pos (by simpa using plain), List.map_cons, List.cons_append]

/-- What may become of an argument. -/
structure Becomes (before after : Argument) : Prop where
  /-- It stays, or it is a long option with one dash and gets one dash more. -/
  spelling : after = before ∨ after = dash :: before ∧ OneDashed before
  /-- It does not begin or cease to end the options. -/
  ending : after = terminator ↔ before = terminator

theorem becomes_self (argument : Argument) : Becomes argument argument where
  spelling := Or.inl rfl
  ending := Iff.rfl

theorem becomes_doubleDash (argument : Argument) : Becomes argument (doubleDash argument) where
  spelling := doubleDash_cases argument
  ending := doubleDash_eq_terminator_iff

theorem forall₂_becomes (arguments : List Argument) :
    List.Forall₂ Becomes arguments (doubleDashes arguments) := by
  induction arguments using doubleDashes.induct with
  | case1 => exact .nil
  | case2 others =>
      rw [doubleDashes_terminator]
      exact List.forall₂_same.mpr fun other _ => becomes_self other
  | case3 argument others plain ih =>
      rw [doubleDashes_cons plain]
      exact .cons (becomes_doubleDash argument) ih

theorem doubleDashes_doubleDashes (arguments : List Argument) :
    doubleDashes (doubleDashes arguments) = doubleDashes arguments := by
  induction arguments using doubleDashes.induct with
  | case1 => rfl
  | case2 others => rw [doubleDashes_terminator, doubleDashes_terminator]
  | case3 argument others plain ih =>
      rw [doubleDashes_cons plain, doubleDashes_cons (mt doubleDash_eq_terminator_iff.mp plain),
        doubleDash_doubleDash, ih]

/-- What follows is treated on its own, unless two dashes alone come before it. -/
theorem doubleDashes_append (arguments more : List Argument) :
    doubleDashes (arguments ++ more) =
      if terminator ∈ arguments then doubleDashes arguments ++ more
      else doubleDashes arguments ++ doubleDashes more := by
  induction arguments using doubleDashes.induct with
  | case1 => rfl
  | case2 others =>
      rw [List.cons_append, doubleDashes_terminator, doubleDashes_terminator,
        if_pos (List.mem_cons_self ..), List.cons_append]
  | case3 argument others plain ih =>
      have member : terminator ∈ argument :: others ↔ terminator ∈ others := by
        rw [List.mem_cons, or_iff_right (Ne.symm plain)]
      rw [List.cons_append, doubleDashes_cons plain, doubleDashes_cons plain, ih]
      simp only [member]
      split <;> rfl

/-- What doubling dashes does.  Up to the first argument of two dashes alone every argument gets a
second dash exactly if it is well-formed text and a long option with one dash; from there on all
stay.  So no argument is lost or moved, each stays or is a long option that gets one dash more, and
two dashes alone are found where they were before.  Doubling dashes again changes nothing, and more
arguments behind are treated on their own unless two dashes alone come before them. -/
theorem doubleDashes_doubles_once (arguments more : List Argument) :
    doubleDashes arguments =
        (arguments.takeWhile (· ≠ terminator)).map doubleDash ++
          arguments.dropWhile (· ≠ terminator) ∧
      (∀ argument, doubleDash argument = dash :: argument ↔
        Utf8.WellFormed argument ∧ OneDashed argument) ∧
      (doubleDashes arguments).length = arguments.length ∧
      List.Forall₂ Becomes arguments (doubleDashes arguments) ∧
      doubleDashes (doubleDashes arguments) = doubleDashes arguments ∧
      doubleDashes (arguments ++ more) =
        (if terminator ∈ arguments then doubleDashes arguments ++ more
        else doubleDashes arguments ++ doubleDashes more) := by
  have becomes := forall₂_becomes arguments
  exact ⟨doubleDashes_eq arguments, doubleDash_eq_cons_iff, becomes.length_eq.symm, becomes,
    doubleDashes_doubleDashes arguments, doubleDashes_append arguments more⟩

/-! ## One dash or two -/

section Option

variable {name : String} (long : name ∈ longNames) (value : Option Argument)
include long

theorem oneDashed_oneDash : OneDashed (oneDash name value) := ⟨name, long, value, rfl⟩

theorem doubleDash_oneDash :
    doubleDash (oneDash name value) =
      if ∀ octets ∈ value, Utf8.WellFormed octets then twoDashes name value
      else oneDash name value := by
  split
  · next wellFormed =>
      exact doubleDash_of_oneDashed ((wellFormed_oneDash name value).mpr wellFormed)
        (oneDashed_oneDash long value)
  · next illFormed =>
      exact doubleDash_of_other fun option =>
        illFormed ((wellFormed_oneDash name value).mp option.1)

theorem twoDashes_ne_terminator : twoDashes name value ≠ terminator :=
  (oneDashed_oneDash long value).cons_ne_terminator

theorem doubleDash_twoDashes : doubleDash (twoDashes name value) = twoDashes name value :=
  doubleDash_of_other fun option => (oneDashed_oneDash long value).not_oneDashed_cons option.2

/-- A long option in any place before two dashes alone.  With two dashes it stays as it is.  With
one dash it gets the second one, with its value unchanged, exactly if its value is well-formed
text, and only then the two spellings come to the same arguments. -/
theorem one_dash_means_two (front behind : List Argument) (plain : terminator ∉ front) :
    doubleDashes (front ++ twoDashes name value :: behind) =
        doubleDashes front ++ twoDashes name value :: doubleDashes behind ∧
      doubleDashes (front ++ oneDash name value :: behind) =
        doubleDashes front ++
          (if ∀ octets ∈ value, Utf8.WellFormed octets then twoDashes name value
          else oneDash name value) :: doubleDashes behind ∧
      (doubleDashes (front ++ oneDash name value :: behind) =
          doubleDashes (front ++ twoDashes name value :: behind) ↔
        ∀ octets ∈ value, Utf8.WellFormed octets) := by
  have two : doubleDashes (front ++ twoDashes name value :: behind) =
      doubleDashes front ++ twoDashes name value :: doubleDashes behind := by
    rw [doubleDashes_append, if_neg plain,
      doubleDashes_cons (twoDashes_ne_terminator long value), doubleDash_twoDashes long]
  have one : doubleDashes (front ++ oneDash name value :: behind) =
      doubleDashes front ++
        (if ∀ octets ∈ value, Utf8.WellFormed octets then twoDashes name value
        else oneDash name value) :: doubleDashes behind := by
    rw [doubleDashes_append, if_neg plain,
      doubleDashes_cons (oneDashed_oneDash long value).ne_terminator, doubleDash_oneDash long]
  refine ⟨two, one, ?_⟩
  rw [one, two, List.append_cancel_left_eq, List.cons.injEq, and_iff_left rfl]
  split
  · next wellFormed => exact iff_of_true rfl wellFormed
  · next illFormed => exact iff_of_false List.ne_cons_self illFormed

end Option

/-- A value with an equals sign and dashes of its own. -/
theorem one_dash_means_two_nested :
    let value := Utf8.encode "--a=-b"
    doubleDashes [Utf8.encode "covlua", oneDash "lcov" (some value)] =
      [Utf8.encode "covlua", twoDashes "lcov" (some value)] := by
  intro value
  have wellFormed : ∀ octets ∈ some value, Utf8.WellFormed octets := by
    rintro _ ⟨rfl⟩
    exact ⟨_, rfl⟩
  have plain : terminator ∉ [Utf8.encode "covlua"] := by decide +kernel
  obtain ⟨two, -, same⟩ := one_dash_means_two (by decide : "lcov" ∈ longNames) (some value)
    [Utf8.encode "covlua"] [] plain
  have alone : doubleDashes [Utf8.encode "covlua"] = [Utf8.encode "covlua"] := by decide +kernel
  rw [alone] at two
  exact (same.mpr wellFormed).trans two

/-- An octet that is no text keeps an option from getting its second dash. -/
theorem dash_not_doubled :
    "path" ∈ longNames ∧
      oneDash "path" (some [0xFF]) = Utf8.encode "-path=" ++ [0xFF] ∧
      doubleDashes [oneDash "path" (some [0xFF])] = [oneDash "path" (some [0xFF])] ∧
      doubleDashes [oneDash "path" (some [0xFF])] ≠
        doubleDashes [twoDashes "path" (some [0xFF])] := by
  decide +kernel

end Argument
end LuaCoverage
