import LuaCoverage.Lua.Native
import LuaCoverage.Proofs.Coverage.Figures
import LuaCoverage.Proofs.Lua.Positions
import LuaCoverage.Proofs.Lua.Rules
import LuaCoverage.Proofs.Text.Lines

/-!
# Statements of a source

A syntax library is relied on for three things: the tokens of a tree stand in its source, a node
starts with its first token, and a visitor is shown a node and whatever it is shown of the parts of
this node.  Then the lines that the visitor records are exactly those on which a statement starts
that stands in the tree at whatever depth.
-/

namespace LuaCoverage
namespace Lua

namespace Tree

/-- What holds of every token, and of every node if it holds of all its parts, holds of every
tree. -/
theorem induct {motive : Tree → Prop} (token : ∀ own, motive (.token own))
    (node : ∀ kind parts, (∀ part ∈ parts, motive part) → motive (.node kind parts)) :
    ∀ tree, motive tree
  | .token own => token own
  | .node kind parts => node kind parts fun part _ => induct token node part

/-- A tree stands inside another one, at whatever depth. -/
inductive Inside (inner : Tree) : Tree → Prop
  /-- The tree itself. -/
  | itself : Inside inner inner
  /-- Inside a part. -/
  | part {kind : Kind} {parts : List Tree} {part : Tree} (listed : part ∈ parts)
      (inside : Inside inner part) : Inside inner (.node kind parts)

/-- Statements, final ones among them. -/
def IsStatement (tree : Tree) : Prop := tree.kind? = some .statement ∨ tree.kind? = some .final

/-- At whatever depth, a statement stands in a tree whose first token is on the given line. -/
def HasStatementOn (tree : Tree) (line : Nat) : Prop :=
  ∃ (statement : Tree) (first : Token) (others : List Token), statement.Inside tree ∧
    statement.IsStatement ∧ statement.tokens = first :: others ∧ first.line = line

theorem mem_tokensOf {token : Token} {trees : List Tree} :
    token ∈ tokensOf trees ↔ ∃ tree ∈ trees, token ∈ tree.tokens := by
  induction trees with
  | nil => simp [tokensOf]
  | cons tree trees ih => simp [tokensOf, ih]

theorem Inside.mem_tokens {inner tree : Tree} (inside : inner.Inside tree) {token : Token}
    (listed : token ∈ inner.tokens) : token ∈ tree.tokens := by
  induction inside with
  | itself => exact listed
  | part found _ ih =>
      rw [tokens, mem_tokensOf]
      exact ⟨_, found, ih⟩

end Tree

/-- A token stands in a source, from a character on that is no white space, and its line says how
many line feeds are in front of it. -/
def Token.BeginsIn (token : Token) (source : String) : Prop :=
  ∃ before first after, source.toList = before ++ first :: after ∧
    Lines.isWhiteSpace first = false ∧ token.line = 1 + before.count '\n'

namespace Toolkit

/-- What a syntax library is relied on for. -/
structure Lawful (toolkit : Toolkit) : Prop where
  /-- The tokens of a tree stand in its source. -/
  begins : ∀ {source tree}, toolkit.parse source = .ok tree →
    ∀ token ∈ tree.tokens, token.BeginsIn source
  /-- A node starts on the line of its first token. -/
  starts : ∀ tree, toolkit.startLine? tree = tree.tokens.head?.map (·.line)
  /-- A visitor is shown a node and what it is shown of the parts of this node. -/
  showsNode : ∀ kind parts other, other ∈ toolkit.visits (.node kind parts) ↔
    other = .node kind parts ∨ ∃ part ∈ parts, other ∈ toolkit.visits part
  /-- Of a token a visitor is shown no more than this token. -/
  showsToken : ∀ own other, other ∈ toolkit.visits (.token own) → other = .token own

/-! ## Recorded lines -/

section Recorded

variable {toolkit : Toolkit}

theorem mem_record {collector : LineCollector} {start? : Option Nat} {line : UInt32} :
    line ∈ (collector.record start?).lines ↔
      start? = some line.toNat ∨ line ∈ collector.lines := by
  cases start? with
  | none => simp [LineCollector.record]
  | some number =>
      rw [LineCollector.record]
      split
      · next small =>
          have same : UInt32.ofNat number = line ↔ number = line.toNat := by
            rw [← UInt32.toNat_inj, UInt32.toNat_ofNat_of_lt' small]
          rw [Std.TreeSet.mem_insert, Std.LawfulEqCmp.compare_eq_iff_eq, same, Option.some.injEq]
      · next large =>
          have other : ¬ number = line.toNat := fun same => large (same ▸ line.toNat_lt)
          simp [other]

theorem mem_visit {collector : LineCollector} {node : Tree} {line : UInt32} :
    line ∈ (collector.visit toolkit node).lines ↔
      (node.IsStatement ∧ toolkit.startLine? node = some line.toNat) ∨
        line ∈ collector.lines := by
  rw [LineCollector.visit, Tree.IsStatement]
  split
  · next kind => simp [mem_record, kind]
  · next kind => simp [mem_record, kind]
  · next notStatement notFinal =>
      have other : ¬(node.kind? = some .statement ∨ node.kind? = some .final) :=
        not_or.mpr ⟨notStatement, notFinal⟩
      simp [other]

theorem mem_statementLines {tree : Tree} {line : UInt32} :
    line ∈ toolkit.statementLines tree ↔ ∃ node ∈ toolkit.visits tree,
      node.IsStatement ∧ toolkit.startLine? node = some line.toNat := by
  have recorded (nodes : List Tree) (collector : LineCollector) :
      line ∈ (nodes.foldl (LineCollector.visit toolkit) collector).lines ↔
        (∃ node ∈ nodes, node.IsStatement ∧ toolkit.startLine? node = some line.toNat) ∨
          line ∈ collector.lines := by
    induction nodes generalizing collector with
    | nil => simp
    | cons node nodes ih =>
        rw [List.foldl_cons, ih, mem_visit, List.exists_mem_cons_iff, or_left_comm, or_assoc]
  rw [statementLines, recorded]
  exact or_iff_left Std.TreeSet.not_mem_emptyc

end Recorded

namespace Lawful

variable {toolkit : Toolkit} (lawful : toolkit.Lawful)
include lawful

theorem inside_of_mem_visits {tree other : Tree} (shown : other ∈ toolkit.visits tree) :
    other.Inside tree := by
  induction tree using Tree.induct with
  | token own =>
      rw [lawful.showsToken own other shown]
      exact .itself
  | node kind parts ih =>
      rcases (lawful.showsNode kind parts other).mp shown with rfl | ⟨part, listed, shown⟩
      · exact .itself
      · exact .part listed (ih part listed shown)

theorem mem_visits_of_inside {tree statement : Tree} (inside : statement.Inside tree)
    (isStatement : statement.IsStatement) : statement ∈ toolkit.visits tree := by
  induction inside with
  | itself =>
      cases statement with
      | token own => exact absurd isStatement (by simp [Tree.IsStatement, Tree.kind?])
      | node kind parts => exact (lawful.showsNode ..).mpr (.inl rfl)
  | part listed _ ih => exact (lawful.showsNode ..).mpr (.inr ⟨_, listed, ih⟩)

theorem mem_statementLines_iff {tree : Tree} {line : UInt32} :
    line ∈ toolkit.statementLines tree ↔ tree.HasStatementOn line.toNat := by
  rw [mem_statementLines]
  constructor
  · rintro ⟨node, shown, isStatement, start⟩
    rw [lawful.starts, Option.map_eq_some_iff] at start
    obtain ⟨first, head, onLine⟩ := start
    obtain ⟨others, tokens⟩ := List.head?_eq_some_iff.mp head
    exact ⟨node, first, others, lawful.inside_of_mem_visits shown, isStatement, tokens, onLine⟩
  · rintro ⟨statement, first, others, inside, isStatement, tokens, onLine⟩
    refine ⟨statement, lawful.mem_visits_of_inside inside isStatement, isStatement, ?_⟩
    rw [lawful.starts, tokens, List.head?_cons, Option.map_some, onLine]

/-- Of the lines on which statements start those within 32 bits are found, and no others. -/
theorem mem_numbers_iff {tree : Tree} {line : Nat} :
    line ∈ (toolkit.statementLines tree).numbers ↔
      tree.HasStatementOn line ∧ line ≤ 4294967295 := by
  rw [StatementLines.mem_numbers]
  constructor
  · rintro ⟨statement, found, rfl⟩
    exact ⟨lawful.mem_statementLines_iff.mp found, Nat.le_of_lt_succ statement.toNat_lt⟩
  · rintro ⟨has, small⟩
    have same : (UInt32.ofNat line).toNat = line :=
      UInt32.toNat_ofNat_of_lt' (Nat.lt_succ_of_le small)
    exact ⟨.ofNat line, lawful.mem_statementLines_iff.mpr (same.symm ▸ has), same⟩

/-- A statement starts on one of the lines that the line feeds of the source end or begin. -/
theorem le_of_hasStatementOn {source : String} {tree : Tree} {line : Nat}
    (parsed : toolkit.parse source = .ok tree) (has : tree.HasStatementOn line) :
    line ≤ 1 + source.toList.count '\n' := by
  obtain ⟨statement, first, others, inside, -, tokens, rfl⟩ := has
  have listed : first ∈ statement.tokens := tokens ▸ List.mem_cons_self
  obtain ⟨before, character, after, whole, -, onLine⟩ :=
    lawful.begins parsed first (inside.mem_tokens listed)
  rw [onLine, whole, List.count_append]
  omega

end Lawful

/-! ## Accepted sources -/

section Accepted

variable {toolkit : Toolkit} {path : Path} {source : String}

theorem exists_of_grammar {statements : StatementLines}
    (accepted : toolkit.grammar path source = .ok statements) :
    ∃ tree, toolkit.parse source = .ok tree ∧ toolkit.statementLines tree = statements := by
  rw [grammar] at accepted
  cases parsed : toolkit.parse source with
  | error messages =>
      rw [parsed] at accepted
      cases accepted
  | ok tree =>
      rw [parsed] at accepted
      exact ⟨tree, rfl, Except.ok.inj accepted⟩

theorem exists_of_numbers {numbers : List Nat}
    (found : (toolkit.grammar path source).toOption.map StatementLines.numbers = some numbers) :
    ∃ statements, toolkit.grammar path source = .ok statements ∧ statements.numbers = numbers := by
  obtain ⟨statements, accepted, same⟩ := Option.map_eq_some_iff.mp found
  refine ⟨statements, ?_, same⟩
  cases result : toolkit.grammar path source with
  | error reason =>
      rw [result] at accepted
      cases accepted
  | ok own =>
      rw [result] at accepted
      rw [Option.some.inj accepted]

end Accepted

/-! ## The library of the program -/

theorem exists_of_tree? {source : String} {tree : Tree} (parsed : tree? source = some tree) :
    ∃ tokens, Lexer.tokens source.toList = some tokens ∧ Parser.parse tokens = .ok tree := by
  obtain ⟨tokens, cut, parsed⟩ := Option.bind_eq_some_iff.mp parsed
  refine ⟨tokens, cut, ?_⟩
  cases result : Parser.parse tokens with
  | error refusal =>
      rw [result] at parsed
      cases parsed
  | ok own =>
      rw [result] at parsed
      cases parsed
      rfl

theorem tree?_of_native {source : String} {tree : Tree}
    (parsed : native.parse source = .ok tree) : tree? source = some tree := by
  simp only [native] at parsed
  split at parsed
  · next own found => rw [found, Except.ok.inj parsed]
  · cases parsed

theorem native_lawful : native.Lawful where
  begins {source tree} parsed token listed := by
    obtain ⟨tokens, cut, parsed⟩ := exists_of_tree? (tree?_of_native parsed)
    have among := (Parser.tokens_prefix_of_parse parsed).mem listed
    obtain ⟨before, first, others, after, whole, -, visible, onLine⟩ :=
      Lexer.tokens_standIn cut token among
    exact ⟨before, first, others ++ after, whole, Lines.isWhiteSpace_of_visible visible, onLine⟩
  starts _ := rfl
  showsNode kind parts other := by
    have inside : other ∈ Tree.nodesOf parts ↔ ∃ part ∈ parts, other ∈ part.nodes := by
      induction parts with
      | nil => simp [Tree.nodesOf]
      | cons part parts ih => simp [Tree.nodesOf, ih]
    change other ∈ Tree.nodes (.node kind parts) ↔ _
    rw [Tree.nodes, List.mem_cons, inside]
    rfl
  showsToken _ _ := nofun

/-! ## Statement lines -/

/-- Whatever library is relied on, a source that it does not parse is rejected with all that the
library says, and a source that it parses has the lines on which the first token of a statement
stands, final statements among them, at whatever depth the statement stands in the tree; no other
line is found.  Only lines beyond 32 bits are left out, of which there are none unless the source
has as many line feeds. -/
theorem grammar_finds_statements {toolkit : Toolkit} (lawful : toolkit.Lawful) (path : Path)
    (source : String) :
    (∀ messages, toolkit.parse source = .error messages →
      toolkit.grammar path source =
        .error (.rejectedSource path ("; ".intercalate messages))) ∧
    ∀ tree, toolkit.parse source = .ok tree →
      ∃ lines, toolkit.grammar path source = .ok lines ∧
        (∀ line, line ∈ lines.numbers ↔ tree.HasStatementOn line ∧ line ≤ 4294967295) ∧
        (source.toList.count '\n' < 4294967295 →
          ∀ line, line ∈ lines.numbers ↔ tree.HasStatementOn line) := by
  constructor
  · intro messages refused
    rw [grammar, refused]
  · intro tree parsed
    refine ⟨toolkit.statementLines tree, by rw [grammar, parsed],
      fun _ => lawful.mem_numbers_iff, fun few line => ?_⟩
    rw [lawful.mem_numbers_iff]
    refine and_iff_left_of_imp fun has => ?_
    have bound := lawful.le_of_hasStatementOn parsed has
    omega

/-- A function in a table: the table starts on the first line and the statement of the function on
the third, and nothing starts on the line of its name or after it. -/
theorem grammar_finds_statements_inside :
    let path : Path := .ofText "a.lua"
    let source := "local t = \x7b\n  go = function()\n    print(1)\n  end,\n\x7d\n"
    native.Lawful ∧ ∃ tree lines, native.parse source = .ok tree ∧
      native.grammar path source = .ok lines ∧ lines.numbers = [1, 3] ∧
      ∀ line, tree.HasStatementOn line ↔ line = 1 ∨ line = 3 := by
  intro path source
  have few : source.toList.count '\n' < 4294967295 := by decide +kernel
  have found : (native.grammar path source).toOption.map StatementLines.numbers = some [1, 3] := by
    decide +kernel
  obtain ⟨lines, accepted, numbers⟩ := exists_of_numbers found
  obtain ⟨tree, parsed, -⟩ := exists_of_grammar accepted
  obtain ⟨same, sameAccepted, -, complete⟩ :=
    (grammar_finds_statements native_lawful path source).2 tree parsed
  obtain rfl : same = lines := Except.ok.inj (sameAccepted.symm.trans accepted)
  refine ⟨native_lawful, tree, same, parsed, accepted, numbers, fun line => ?_⟩
  rw [← complete few line, numbers]
  simp

end Toolkit
end Lua
end LuaCoverage
