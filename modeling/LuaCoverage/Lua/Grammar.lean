import LuaCoverage.Lua.Tree
import LuaCoverage.Report.Basic

/-!
# The grammar of Lua

The statement lines of a source are found with a syntax library, which parses the source and shows
the nodes of its tree to a visitor.  The visitor records the line on which every statement starts.
Lines are kept in 32 bits; a statement that starts on a line beyond them is left out.
-/

namespace LuaCoverage
namespace Lua

/-- What a syntax library offers. -/
structure Toolkit where
  /-- The tree of a source, or what is wrong with it. -/
  parse : String → Except (List String) Tree
  /-- The line on which a node starts, counted from 1. -/
  startLine? : Tree → Option Nat
  /-- The nodes that a visitor of a tree is shown, in order. -/
  visits : Tree → List Tree

/-- A visitor that records the starting lines of statements. -/
structure LineCollector where
  /-- Lines recorded so far. -/
  lines : StatementLines := ∅

namespace LineCollector

/-- Record a starting line, if there is one and it can be kept. -/
def record (collector : LineCollector) (start? : Option Nat) : LineCollector :=
  match start? with
  | none => collector
  | some line =>
      if line < UInt32.size then { lines := collector.lines.insert (.ofNat line) } else collector

/-- What the visitor does with a node that it is shown. -/
def visit (toolkit : Toolkit) (collector : LineCollector) (node : Tree) : LineCollector :=
  match node.kind? with
  | some .statement => collector.record (toolkit.startLine? node)
  | some .final => collector.record (toolkit.startLine? node)
  | _ => collector

end LineCollector

namespace Toolkit

/-- The lines on which statements of a tree start. -/
def statementLines (toolkit : Toolkit) (tree : Tree) : StatementLines :=
  ((toolkit.visits tree).foldl (LineCollector.visit toolkit) {}).lines

/-- The grammar of Lua sources. -/
def grammar (toolkit : Toolkit) : Grammar := fun path source =>
  match toolkit.parse source with
  | .error messages => .error (.rejectedSource path ("; ".intercalate messages))
  | .ok tree => .ok (toolkit.statementLines tree)

end Toolkit
end Lua
end LuaCoverage
