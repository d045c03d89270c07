import LuaCoverage.Lua.Parser

/-!
# What rules read

A rule takes tokens from the start and reads trees with exactly these tokens.  It never runs out of
an allowance that has enough units for the tokens that come: what one unit is spent on either takes
a token or is one of few rules that look at the same token one after another.
-/

namespace LuaCoverage
namespace Lua

namespace Tree

theorem tokensOf_append (front behind : List Tree) :
    tokensOf (front ++ behind) = tokensOf front ++ tokensOf behind := by
  induction front with
  | nil => rfl
  | cons tree front ih =>
      rw [List.cons_append, tokensOf, tokensOf, ih, List.append_assoc]

theorem tokensOf_singleton (tree : Tree) : tokensOf [tree] = tree.tokens := by
  rw [tokensOf, tokensOf, List.append_nil]

end Tree

namespace Parser

/-- A result for some tokens: a refusal that is not for want of an allowance, or trees with exactly
the tokens that are taken, of which there is some least number. -/
def Fits (tokens : List Token) (least : Nat) :
    Except Refusal (List Tree × List Token) → Prop
  | .error refusal => refusal = .unexpected
  | .ok (parts, rest) =>
      tokens = Tree.tokensOf parts ++ rest ∧ least ≤ (Tree.tokensOf parts).length

/-- From so many tokens at most, the results of a rule fit. -/
def Reads (limit least : Nat) (rule : Rule) : Prop :=
  ∀ tokens, tokens.length ≤ limit → Fits tokens least (rule.run tokens)

section Combinations

variable {limit least fewer : Nat} {rule yes no : Rule} {rules : List Rule}

theorem Reads.weaken (reads : Reads limit least rule) (few : fewer ≤ least) :
    Reads limit fewer rule := by
  intro tokens within
  have fits := reads tokens within
  generalize rule.run tokens = result at fits ⊢
  rcases result with refusal | ⟨parts, rest⟩
  · exact fits
  · exact ⟨fits.1, Nat.le_trans few fits.2⟩

/-- A rule that reads something is one that reads anything. -/
theorem Reads.any (reads : Reads limit least rule) : Reads limit 0 rule :=
  reads.weaken (Nat.zero_le least)

theorem reads_refuse : Reads limit least refuse := fun _ _ => rfl

theorem reads_nothing : Reads limit 0 nothing := fun _ _ => ⟨rfl, Nat.le_refl 0⟩

theorem reads_take : Reads limit 1 take := by
  intro tokens _
  cases tokens with
  | nil => rfl
  | cons token rest => exact ⟨rfl, Nat.le_refl 1⟩

theorem run_followedBy (rule : Rule) (next : List Tree → Rule) (tokens : List Token) :
    (followedBy rule next).run tokens =
      match rule.run tokens with
      | .error refusal => .error refusal
      | .ok (front, middle) =>
          match (next front).run middle with
          | .error refusal => .error refusal
          | .ok (behind, rest) => .ok (front ++ behind, rest) := by
  simp only [followedBy, StateT.run_bind]
  rcases StateT.run rule tokens with refusal | ⟨front, middle⟩
  · rfl
  · dsimp only [bind, Except.bind]
    rcases StateT.run (next front) middle with refusal | ⟨behind, rest⟩ <;> rfl

/-- What comes next has fewer tokens, by those that are taken first. -/
theorem reads_followedBy {first : Nat} {next : List Tree → Rule} (reads : Reads limit first rule)
    (later : ∀ left front, left + first ≤ limit → Reads left (least - first) (next front)) :
    Reads limit least (followedBy rule next) := by
  intro tokens within
  have fits := reads tokens within
  rw [run_followedBy]
  generalize rule.run tokens = result at fits ⊢
  rcases result with refusal | ⟨front, middle⟩
  · exact fits
  · obtain ⟨rfl, enough⟩ := fits
    rw [List.length_append] at within
    have fitsLater := later middle.length front (by omega) middle (Nat.le_refl _)
    dsimp only
    generalize (next front).run middle = result at fitsLater ⊢
    rcases result with refusal | ⟨behind, rest⟩
    · exact fitsLater
    · obtain ⟨rfl, more⟩ := fitsLater
      rw [Fits, Tree.tokensOf_append, List.append_assoc, List.length_append]
      exact ⟨rfl, by omega⟩

theorem Reads.cons {first : Nat} (reads : Reads limit first rule)
    (others : ∀ left, left + first ≤ limit → Reads left (least - first) (inOrder rules)) :
    Reads limit least (inOrder (rule :: rules)) :=
  reads_followedBy reads fun left _ => others left

theorem Reads.last (reads : Reads limit least rule) : Reads limit least (inOrder [rule]) :=
  reads.cons fun _ _ => reads_nothing.weaken (Nat.le_of_eq (Nat.sub_self least))

theorem run_ifAhead (test : List Token → Bool) (yes no : Rule) (tokens : List Token) :
    (ifAhead test yes no).run tokens = if test tokens then yes.run tokens else no.run tokens := by
  change (if test tokens then yes else no).run tokens = _
  split <;> rfl

theorem reads_ifAhead {test : List Token → Bool} (passed : Reads limit least yes)
    (failed : Reads limit least no) : Reads limit least (ifAhead test yes no) := by
  intro tokens within
  rw [run_ifAhead]
  split
  · exact passed tokens within
  · exact failed tokens within

theorem reads_on {test : Token → Bool}
    (passed : ∀ left, left + 1 ≤ limit → Reads left (least - 1) yes)
    (failed : Reads limit least no) : Reads limit least (on test yes no) :=
  reads_ifAhead (reads_take.cons fun left fewer => (passed left fewer).last) failed

theorem reads_expect {spelling : String} : Reads limit 1 (expect spelling) :=
  reads_on (fun _ _ => reads_nothing) reads_refuse

theorem reads_optional {spelling : String} : Reads limit 0 (optional spelling) :=
  reads_on (fun _ _ => reads_nothing) reads_nothing

theorem reads_name : Reads limit 1 name := reads_on (fun _ _ => reads_nothing) reads_refuse

theorem run_wrap (kind : List Tree → Kind) (rule : Rule) (tokens : List Token) :
    (wrap kind rule).run tokens =
      match rule.run tokens with
      | .error refusal => .error refusal
      | .ok (parts, rest) => .ok ([.node (kind parts) parts], rest) := by
  simp only [wrap, StateT.run_bind]
  rcases StateT.run rule tokens with refusal | ⟨parts, rest⟩ <;> rfl

theorem Reads.wrap {kind : List Tree → Kind} (reads : Reads limit least rule) :
    Reads limit least (wrap kind rule) := by
  intro tokens within
  have fits := reads tokens within
  rw [run_wrap]
  generalize rule.run tokens = result at fits ⊢
  rcases result with refusal | ⟨parts, rest⟩
  · exact fits
  · dsimp only
    rw [Fits, Tree.tokensOf_singleton, Tree.tokens]
    exact fits

end Combinations

/-! ## Rules for names -/

theorem reads_namesAfter {limit fuel : Nat} (enough : 16 * limit + 1 ≤ fuel) (separator : String) :
    Reads limit 0 (namesAfter separator fuel) := by
  induction fuel generalizing limit with
  | zero => omega
  | succ fuel ih =>
      rw [namesAfter]
      refine reads_on (fun left fewer => ?_) reads_nothing
      exact reads_name.cons fun left _ => (ih (by omega)).last

theorem reads_parameters {limit fuel : Nat} (enough : 16 * limit + 1 ≤ fuel) :
    Reads limit 0 (parameters fuel) := by
  induction fuel generalizing limit with
  | zero => omega
  | succ fuel ih =>
      rw [parameters]
      refine reads_on (fun _ _ => reads_nothing) <| reads_name.cons fun left _ => .last ?_
      exact reads_on (fun left _ => ih (by omega)) reads_nothing

theorem reads_localNames {limit fuel : Nat} (enough : 16 * limit + 1 ≤ fuel) :
    Reads limit 0 (localNames fuel) := by
  induction fuel generalizing limit with
  | zero => omega
  | succ fuel ih =>
      have attached (left : Nat) :
          Reads left 0 (onReserved "<" (inOrder [name, expect ">"]) nothing) :=
        reads_on (fun _ _ => reads_name.cons fun _ _ => reads_expect.any.last) reads_nothing
      rw [localNames]
      refine reads_name.cons fun left _ => (attached left).cons fun left _ => .last ?_
      exact reads_on (fun left _ => ih (by omega)) reads_nothing

/-! ## Rules that call each other -/

/-- What every rule reads with so many units.  A rule needs sixteen units for every token that may
come, and as many more as rules look at the same token. -/
structure Sound (fuel : Nat) : Prop where
  /-- Statements with a final one. -/
  block {limit : Nat} : 16 * limit + 3 ≤ fuel → Reads limit 0 (block fuel)
  /-- A final statement. -/
  ending {limit : Nat} : 16 * limit + 1 ≤ fuel → Reads limit 0 (ending fuel)
  /-- A statement, which has a token. -/
  statement {limit : Nat} : 16 * limit + 2 ≤ fuel → Reads limit 1 (statement fuel)
  /-- A loop behind its first keyword. -/
  forLoop {limit : Nat} : 16 * limit + 1 ≤ fuel → Reads limit 0 (forLoop fuel)
  /-- Further branches. -/
  branches {limit : Nat} : 16 * limit + 1 ≤ fuel → Reads limit 0 (branches fuel)
  /-- A function. -/
  functionBody {limit : Nat} : 16 * limit + 1 ≤ fuel → Reads limit 0 (functionBody fuel)
  /-- A chain, which has a token. -/
  chain {limit : Nat} : 16 * limit + 1 ≤ fuel → Reads limit 1 (chain fuel)
  /-- Suffixes. -/
  suffixes {limit : Nat} : 16 * limit + 2 ≤ fuel → Reads limit 0 (suffixes fuel)
  /-- Arguments, which have a token. -/
  callArguments {limit : Nat} : 16 * limit + 1 ≤ fuel → Reads limit 1 (callArguments fuel)
  /-- Further targets. -/
  targets {limit : Nat} : 16 * limit + 1 ≤ fuel → Reads limit 0 (targets fuel)
  /-- Expressions, if there are any. -/
  optionalExpressions {limit : Nat} :
    16 * limit + 6 ≤ fuel → Reads limit 0 (optionalExpressions fuel)
  /-- At least one expression. -/
  expressions {limit : Nat} : 16 * limit + 5 ≤ fuel → Reads limit 0 (expressions fuel)
  /-- An expression. -/
  expression {limit : Nat} : 16 * limit + 4 ≤ fuel → Reads limit 0 (expression fuel)
  /-- An operand. -/
  operand {limit : Nat} : 16 * limit + 3 ≤ fuel → Reads limit 0 (operand fuel)
  /-- An operand without operators. -/
  simple {limit : Nat} : 16 * limit + 2 ≤ fuel → Reads limit 0 (simple fuel)
  /-- Fields behind a brace or a separator. -/
  fields {limit : Nat} : 16 * limit + 5 ≤ fuel → Reads limit 0 (fields fuel)
  /-- Fields behind a field. -/
  fieldsAfter {limit : Nat} : 16 * limit + 1 ≤ fuel → Reads limit 0 (fieldsAfter fuel)

namespace Sound

theorem zero : Sound 0 := by
  constructor <;> exact fun enough => absurd enough (by omega)

variable {fuel limit : Nat} (sound : Sound fuel)
include sound

theorem block_succ (enough : 16 * limit + 3 ≤ fuel + 1) :
    Reads limit 0 (Parser.block (fuel + 1)) := by
  rw [Parser.block]
  refine reads_ifAhead ?_ (sound.ending (by omega))
  exact (sound.statement (by omega)).cons fun left _ => reads_optional.cons fun left _ =>
    (sound.block (by omega)).last

theorem ending_succ (enough : 16 * limit + 1 ≤ fuel + 1) :
    Reads limit 0 (Parser.ending (fuel + 1)) := by
  rw [Parser.ending]
  refine reads_ifAhead (.wrap ?_) (reads_ifAhead (.wrap ?_) reads_nothing)
  · exact reads_take.cons fun left _ => (sound.optionalExpressions (by omega)).cons fun left _ =>
      reads_optional.last
  · exact reads_take.cons fun left _ => reads_optional.last

theorem statement_succ (enough : 16 * limit + 2 ≤ fuel + 1) :
    Reads limit 1 (Parser.statement (fuel + 1)) := by
  rw [Parser.statement]
  refine .wrap <| reads_on ?localStatement <| reads_on ?forLoop <| reads_on ?enclosed <|
    reads_on ?whileLoop <| reads_on ?repeatLoop <| reads_on ?choice <| reads_on ?function <|
    reads_on ?jump <| reads_on ?label ?other
  case localStatement =>
    refine fun left _ => reads_on (fun left _ => ?_) ?_
    · exact reads_name.cons fun left _ => (sound.functionBody (by omega)).last
    · refine (reads_localNames (by omega)).cons fun left _ => .last ?_
      exact reads_on (fun left _ => sound.expressions (by omega)) reads_nothing
  case forLoop => exact fun left _ => sound.forLoop (by omega)
  case enclosed =>
    exact fun left _ => (sound.block (by omega)).cons fun left _ => reads_expect.any.last
  case whileLoop =>
    exact fun left _ => (sound.expression (by omega)).cons fun left _ =>
      reads_expect.cons fun left _ => (sound.block (by omega)).cons fun left _ =>
      reads_expect.any.last
  case repeatLoop =>
    exact fun left _ => (sound.block (by omega)).cons fun left _ =>
      reads_expect.cons fun left _ => (sound.expression (by omega)).last
  case choice =>
    exact fun left _ => (sound.expression (by omega)).cons fun left _ =>
      reads_expect.cons fun left _ => (sound.block (by omega)).cons fun left _ =>
      (sound.branches (by omega)).last
  case function =>
    refine fun left _ => reads_name.cons fun left _ =>
      (reads_namesAfter (by omega) ".").cons fun left _ => ?_
    have method (left : Nat) : Reads left 0 (onReserved ":" name nothing) :=
      reads_on (fun _ _ => reads_name.any) reads_nothing
    exact (method left).cons fun left _ => (sound.functionBody (by omega)).last
  case jump => exact fun left _ => reads_name.any
  case label => exact fun left _ => reads_name.cons fun left _ => reads_expect.any.last
  case other =>
    refine reads_followedBy (sound.chain (by omega)) fun left first _ => ?_
    split
    · exact reads_nothing
    · exact (sound.targets (by omega)).cons fun left _ => reads_expect.cons fun left _ =>
        (sound.expressions (by omega)).last

theorem forLoop_succ (enough : 16 * limit + 1 ≤ fuel + 1) :
    Reads limit 0 (Parser.forLoop (fuel + 1)) := by
  rw [Parser.forLoop]
  refine reads_name.cons fun left _ => .last <| reads_on (fun left _ => ?counting) ?iterating
  case counting =>
    have step (next : Nat) (fewer : next ≤ left) :
        Reads next 0 (onReserved "," (Parser.expression fuel) nothing) :=
      reads_on (fun left _ => sound.expression (by omega)) reads_nothing
    exact (sound.expression (by omega)).cons fun left _ => reads_expect.cons fun left _ =>
      (sound.expression (by omega)).cons fun left _ => (step left (by omega)).cons fun left _ =>
      reads_expect.cons fun left _ => (sound.block (by omega)).cons fun left _ =>
      reads_expect.any.last
  case iterating =>
    exact (reads_namesAfter (by omega) ",").cons fun left _ => reads_expect.cons fun left _ =>
      (sound.expressions (by omega)).cons fun left _ => reads_expect.cons fun left _ =>
      (sound.block (by omega)).cons fun left _ => reads_expect.any.last

theorem branches_succ (enough : 16 * limit + 1 ≤ fuel + 1) :
    Reads limit 0 (Parser.branches (fuel + 1)) := by
  rw [Parser.branches]
  refine reads_on (fun left _ => ?_) <| reads_on (fun left _ => ?_) reads_expect.any
  · exact (sound.expression (by omega)).cons fun left _ => reads_expect.cons fun left _ =>
      (sound.block (by omega)).cons fun left _ => (sound.branches (by omega)).last
  · exact (sound.block (by omega)).cons fun left _ => reads_expect.any.last

theorem functionBody_succ (enough : 16 * limit + 1 ≤ fuel + 1) :
    Reads limit 0 (Parser.functionBody (fuel + 1)) := by
  rw [Parser.functionBody]
  refine .wrap <| reads_expect.cons fun left _ => ?_
  have listed : Reads left 0 (onReserved ")" nothing
      (inOrder [Parser.parameters fuel, expect ")"])) :=
    reads_on (fun _ _ => reads_nothing) <| (reads_parameters (by omega)).cons fun _ _ =>
      reads_expect.any.last
  exact listed.cons fun left _ => (sound.block (by omega)).cons fun left _ => reads_expect.any.last

theorem chain_succ (enough : 16 * limit + 1 ≤ fuel + 1) :
    Reads limit 1 (Parser.chain (fuel + 1)) := by
  rw [Parser.chain]
  refine .wrap <| reads_on (fun left _ => ?_) ?_
  · exact (sound.expression (by omega)).cons fun left _ => reads_expect.cons fun left _ =>
      (sound.suffixes (by omega)).last
  · exact reads_name.cons fun left _ => (sound.suffixes (by omega)).last

theorem suffixes_succ (enough : 16 * limit + 2 ≤ fuel + 1) :
    Reads limit 0 (Parser.suffixes (fuel + 1)) := by
  rw [Parser.suffixes]
  refine reads_on (fun left _ => ?field) <| reads_on (fun left _ => ?index) <|
    reads_on (fun left _ => ?method) <| reads_ifAhead ?called reads_nothing
  case field => exact reads_name.cons fun left _ => (sound.suffixes (by omega)).last
  case index =>
    exact (sound.expression (by omega)).cons fun left _ => reads_expect.cons fun left _ =>
      (sound.suffixes (by omega)).last
  case method =>
    exact reads_name.cons fun left _ => (sound.callArguments (by omega)).cons fun left _ =>
      (sound.suffixes (by omega)).last
  case called =>
    exact (sound.callArguments (by omega)).cons fun left _ => (sound.suffixes (by omega)).last

theorem callArguments_succ (enough : 16 * limit + 1 ≤ fuel + 1) :
    Reads limit 1 (Parser.callArguments (fuel + 1)) := by
  rw [Parser.callArguments]
  refine .wrap <| reads_on (fun left _ => ?_) <| reads_on (fun left _ => ?_) <|
    reads_on (fun _ _ => reads_nothing) reads_refuse
  · refine reads_on (fun _ _ => reads_nothing) ?_
    exact (sound.expressions (by omega)).cons fun left _ => reads_expect.any.last
  · exact sound.fields (by omega)

theorem targets_succ (enough : 16 * limit + 1 ≤ fuel + 1) :
    Reads limit 0 (Parser.targets (fuel + 1)) := by
  rw [Parser.targets]
  refine reads_on (fun left _ => ?_) reads_nothing
  refine reads_followedBy (sound.chain (by omega)) fun left target _ => ?_
  split
  · exact reads_refuse
  · exact sound.targets (by omega)

theorem optionalExpressions_succ (enough : 16 * limit + 6 ≤ fuel + 1) :
    Reads limit 0 (Parser.optionalExpressions (fuel + 1)) := by
  rw [Parser.optionalExpressions]
  exact reads_ifAhead (sound.expressions (by omega)) reads_nothing

theorem expressions_succ (enough : 16 * limit + 5 ≤ fuel + 1) :
    Reads limit 0 (Parser.expressions (fuel + 1)) := by
  rw [Parser.expressions]
  refine (sound.expression (by omega)).cons fun left _ => .last ?_
  exact reads_on (fun left _ => sound.expressions (by omega)) reads_nothing

theorem expression_succ (enough : 16 * limit + 4 ≤ fuel + 1) :
    Reads limit 0 (Parser.expression (fuel + 1)) := by
  rw [Parser.expression]
  refine .wrap <| (sound.operand (by omega)).cons fun left _ => .last ?_
  exact reads_on (fun left _ => sound.expression (by omega)) reads_nothing

theorem operand_succ (enough : 16 * limit + 3 ≤ fuel + 1) :
    Reads limit 0 (Parser.operand (fuel + 1)) := by
  rw [Parser.operand]
  exact reads_on (fun left _ => sound.operand (by omega)) (sound.simple (by omega))

theorem simple_succ (enough : 16 * limit + 2 ≤ fuel + 1) :
    Reads limit 0 (Parser.simple (fuel + 1)) := by
  rw [Parser.simple]
  exact reads_on (fun _ _ => reads_nothing) <|
    reads_on (fun left _ => sound.functionBody (by omega)) <|
    reads_on (fun left _ => sound.fields (by omega)) (sound.chain (by omega)).any

theorem fields_succ (enough : 16 * limit + 5 ≤ fuel + 1) :
    Reads limit 0 (Parser.fields (fuel + 1)) := by
  rw [Parser.fields]
  refine reads_on (fun _ _ => reads_nothing) <| reads_on (fun left _ => ?keyed) <|
    reads_ifAhead ?named ?listed
  case keyed =>
    exact (sound.expression (by omega)).cons fun left _ => reads_expect.cons fun left _ =>
      reads_expect.cons fun left _ => (sound.expression (by omega)).cons fun left _ =>
      (sound.fieldsAfter (by omega)).last
  case named =>
    exact reads_name.cons fun left _ => reads_expect.cons fun left _ =>
      (sound.expression (by omega)).cons fun left _ => (sound.fieldsAfter (by omega)).last
  case listed =>
    exact (sound.expression (by omega)).cons fun left _ => (sound.fieldsAfter (by omega)).last

theorem fieldsAfter_succ (enough : 16 * limit + 1 ≤ fuel + 1) :
    Reads limit 0 (Parser.fieldsAfter (fuel + 1)) := by
  rw [Parser.fieldsAfter]
  exact reads_on (fun left _ => sound.fields (by omega)) reads_expect.any

theorem succ : Sound (fuel + 1) where
  block := sound.block_succ
  ending := sound.ending_succ
  statement := sound.statement_succ
  forLoop := sound.forLoop_succ
  branches := sound.branches_succ
  functionBody := sound.functionBody_succ
  chain := sound.chain_succ
  suffixes := sound.suffixes_succ
  callArguments := sound.callArguments_succ
  targets := sound.targets_succ
  optionalExpressions := sound.optionalExpressions_succ
  expressions := sound.expressions_succ
  expression := sound.expression_succ
  operand := sound.operand_succ
  simple := sound.simple_succ
  fields := sound.fields_succ
  fieldsAfter := sound.fieldsAfter_succ

omit sound in
theorem all (fuel : Nat) : Sound fuel := by
  induction fuel with
  | zero => exact zero
  | succ fuel ih => exact ih.succ

end Sound

/-! ## Whole sources -/

theorem run_chunk (fuel : Nat) (tokens : List Token) :
    (chunk fuel).run tokens =
      match (block fuel).run tokens with
      | .error refusal => .error refusal
      | .ok (parts, behind) =>
          match (endingAgain fuel parts).run behind with
          | .error refusal => .error refusal
          | .ok (_, []) => .ok (.node .phrase parts, [])
          | .ok (_, _ :: _) => .error .unexpected := by
  simp only [chunk, StateT.run_bind]
  rcases StateT.run (block fuel) tokens with refusal | ⟨parts, behind⟩
  · rfl
  · dsimp only [bind, Except.bind]
    rcases StateT.run (endingAgain fuel parts) behind with refusal | ⟨others, _ | _⟩ <;> rfl

theorem reads_endingAgain {limit fuel : Nat} (enough : 16 * limit + 1 ≤ fuel)
    (parts : List Tree) : Reads limit 0 (endingAgain fuel parts) := by
  rw [endingAgain]
  split
  · exact (Sound.all fuel).ending enough
  · exact reads_nothing

/-- A source is refused for what stands in it or has a tree with its first tokens. -/
theorem fits_chunk {fuel : Nat} {tokens : List Token} (enough : 16 * tokens.length + 3 ≤ fuel) :
    match (chunk fuel).run tokens with
    | .error refusal => refusal = .unexpected
    | .ok (tree, _) => tree.tokens <+: tokens := by
  have fits := (Sound.all fuel).block enough tokens (Nat.le_refl _)
  rw [run_chunk]
  generalize (block fuel).run tokens = result at fits ⊢
  rcases result with refusal | ⟨parts, behind⟩
  · exact fits
  · obtain ⟨rfl, -⟩ := fits
    rw [List.length_append] at enough
    have second := @reads_endingAgain behind.length fuel (by omega) parts behind (Nat.le_refl _)
    dsimp only
    generalize (endingAgain fuel parts).run behind = result at second ⊢
    rcases result with refusal | ⟨others, _ | _⟩
    · exact second
    · exact List.prefix_append _ _
    · rfl

theorem parse_eq (tokens : List Token) :
    parse tokens =
      ((chunk (rulesPerToken * (tokens.length + 1))).run tokens).map Prod.fst := rfl

theorem fits_parse (tokens : List Token) :
    match parse tokens with
    | .error refusal => refusal = .unexpected
    | .ok tree => tree.tokens <+: tokens := by
  have enough : 16 * tokens.length + 3 ≤ rulesPerToken * (tokens.length + 1) := by
    rw [rulesPerToken]
    omega
  have fits := fits_chunk enough
  rw [parse_eq]
  generalize StateT.run _ tokens = result at fits ⊢
  rcases result with refusal | ⟨tree, rest⟩ <;> exact fits

/-- No list of tokens uses up the allowance. -/
theorem parse_ne_exhausted (tokens : List Token) : parse tokens ≠ .error .exhausted := by
  intro exhausted
  have fits := fits_parse tokens
  rw [exhausted] at fits
  cases fits

/-- A tree has the first tokens of its source. -/
theorem tokens_prefix_of_parse {tokens : List Token} {tree : Tree}
    (parsed : parse tokens = .ok tree) : tree.tokens <+: tokens := by
  have fits := fits_parse tokens
  rwa [parsed] at fits

end Parser
end Lua
end LuaCoverage
