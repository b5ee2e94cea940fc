import RowGrammar.Engine

/-!
# Repairing precedence

An example text is parsed against its tree.  As long as some reduction leaves the tree, its rule is
moved to a later precedence group and the text is parsed again.  A precedence configuration that
comes up again shows that the moves go in circles.
-/

namespace RowGrammar

open RowGrammar.Text

/-- How many configurations a repair tries unless told otherwise. -/
def defaultRepairIterations : Nat := 256

structure RepairOptions where
  maxIterations : Nat := defaultRepairIterations
  /-- The node limit of each parse. -/
  maxNodes : Option Nat := none
  deriving DecidableEq, Repr

/-- Why a repair gives up. -/
inductive NonConvergence where
  | loopDetected
  | iterationLimit
  /-- Every reduction belongs to the expected tree, but the result is another one. -/
  | incomplete
  deriving DecidableEq, Repr

def NonConvergence.message : NonConvergence → String
  | .loopDetected => "precedence configuration repeated"
  | .iterationLimit => "iteration limit reached"
  | .incomplete => "parse stopped short of the expected tree"

/-- The result of a repair, with the number of rules moved. -/
inductive RepairOutcome where
  | converged (relocations : Nat) (tree : Tree)
  | nonConvergent (relocations : Nat) (reason : NonConvergence)
  deriving DecidableEq, Repr

namespace Engine

/-- Repairs with at most `budget` further parses.  `seen` holds the configurations tried before and
`relocations` counts the moves so far; the engine is returned as the last move left it. -/
def repairFrom (text : String) (expected : Tree) (maxNodes : Option Nat) :
    Nat → List String → Nat → Engine → Except RunError RepairOutcome × Engine
  | 0, _, relocations, engine => (.ok (.nonConvergent relocations .iterationLimit), engine)
  | budget + 1, seen, relocations, engine =>
      let signature := engine.grammar.signature
      if seen.contains signature then
        (.ok (.nonConvergent relocations .loopDetected), engine)
      else
        match engine.parse text { maxNodes, expected := some expected } with
        | .error error => (.error error, engine)
        | .ok report =>
            match report.divergence with
            | none =>
                if report.tree = expected then
                  (.ok (.converged relocations report.tree), engine)
                else (.ok (.nonConvergent relocations .incomplete), engine)
            | some divergence =>
                match engine.resolve? divergence with
                | some moved =>
                    repairFrom text expected maxNodes budget (signature :: seen)
                      (relocations + 1) moved
                | none =>
                    repairFrom text expected maxNodes budget (signature :: seen) relocations engine

/-- Moves rules until the text is parsed into the expected tree. -/
def repair (engine : Engine) (text : String) (expected : Tree) (options : RepairOptions) :
    Except RunError RepairOutcome × Engine :=
  repairFrom text expected options.maxNodes options.maxIterations [] 0 engine

end Engine

end RowGrammar
