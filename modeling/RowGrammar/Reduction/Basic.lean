import RowGrammar.Grammar.Basic
import RowGrammar.NodeTable

/-!
# Reports of reductions

What a reduction can be asked for, what it reports and why it may fail.
-/

namespace RowGrammar

open RowGrammar.Text

/-- Why a sequence of symbols cannot be reduced to one node. -/
inductive ParseError where
  /-- There is nothing to reduce. -/
  | emptyInput (parser : String)
  | unknownParser (parser : String)
  /-- In strict mode, several symbols are left to which no rule applies. -/
  | incomplete (parser : String) (remaining : List String)
  /-- Rules delegate to one another without end. -/
  | endlessDelegation (parser : String)
  deriving DecidableEq, Repr

def ParseError.message : ParseError → String
  | .emptyInput parser => "parser " ++ parser ++ ": nothing to parse"
  | .unknownParser parser => "parser " ++ parser ++ " has no rules"
  | .incomplete parser remaining =>
      "parser " ++ parser ++ ": unable to reduce " ++ decimal remaining.length ++ " nodes: " ++
        " ".intercalate remaining
  | .endlessDelegation parser => "parser " ++ parser ++ ": subParser delegation does not end"

/-- The first reduction that built a tree which is no part of the expected tree. -/
structure Divergence where
  rule : RuleId
  nodeType : String
  parser : String
  group : Nat
  subtree : Tree
  deriving DecidableEq, Repr

structure ParseOptions where
  /-- The parser to start with; none for the main parser. -/
  parser : Option String := none
  /-- Whether unmatched text and unreduced symbols are errors. -/
  strict : Bool := false
  /-- Reducing stops once there are this many nodes. -/
  maxNodes : Option Nat := none
  /-- The tree that every reduction is compared with. -/
  expected : Option Tree := none
  deriving DecidableEq, Repr

structure ParseReport where
  root : NodeId
  tree : Tree
  divergence : Option Divergence
  /-- How many reductions built a part of the expected tree. -/
  validSteps : Nat
  /-- Whether reducing stopped at a divergence or at the node limit. -/
  halted : Bool
  nodeCount : Nat
  deriving DecidableEq, Repr

namespace ParseReport

/-- Whether reducing ended by itself. -/
def converged (report : ParseReport) : Bool :=
  report.divergence.isNone && !report.halted

end ParseReport

end RowGrammar
