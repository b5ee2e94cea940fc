import RowGrammar.Derivation.Search

/-!
# Deriving grammars

A grammar is inferred from one example, a source text and the tree it should become.  Seed rows,
such as those for white space, are put in front of the inferred ones.
-/

namespace RowGrammar.Derivation

open RowGrammar.Text

/-- Why a subtree cannot be part of an example. -/
def subtreeProblem? : Tree → Option DeriveError
  | .leaf nodeType text => if text = "" then some (.emptyLeaf nodeType) else none
  | .branch nodeType children => if children.isEmpty then some (.emptyNode nodeType) else none

/-- Accepts an example in which nothing is empty and no type is used for leaves and branches. -/
def checkExample (example_ : Tree) : Except DeriveError Unit :=
  let subtrees := example_.subtrees
  match subtrees.findSome? subtreeProblem? with
  | some error => .error error
  | none =>
      let branches := (subtrees.filter fun tree => !tree.isLeaf).map (·.nodeType)
      match subtrees.find? fun tree => tree.isLeaf && branches.contains tree.nodeType with
      | some tree => .error (.nodeTypeClash tree.nodeType)
      | none => .ok ()

/-- The parser of the derived grammar: that of the first seed that has one, or else the type of
the example. -/
def parserName (seeds : List Row) (example_ : Tree) : String :=
  ((seeds.map fun seed => trim seed.parser).find? (· != "")).getD example_.nodeType

/-- The seeds that define a node type, as rows of the derived parser. -/
def usableSeeds (seeds : List Row) (parser : String) : List Row :=
  (seeds.filter fun seed => !isBlankText seed.nodeType).map fun seed => { seed with parser }

/-- The token rows that cut the source into the leaves of the example. -/
def inferTokens (parser source : String) (example_ : Tree) (seeds : List Row) :
    Except DeriveError TokenInference := do
  let leaves ← locateLeaves source example_
  match (TokenInference.infer leaves seeds example_).correct parser source leaves seeds with
  | (some error, _) => .error error
  | (none, tokens) => return tokens

/-- Derives a grammar that parses the source into the example, and reports on the way there. -/
def deriveReport (source : String) (example_ : Tree) (seeds : List Row)
    (options : DeriveOptions) : DerivationReport :=
  let parser := parserName seeds example_
  let seeds := usableSeeds seeds parser
  match checkExample example_ *> inferTokens parser source example_ seeds with
  | .error error => ⟨[], .error error⟩
  | .ok tokens => search parser seeds tokens (.infer example_) source example_ options

/-- Derives a grammar that parses the source into the example; none if the bounds are too narrow. -/
def derive (source : String) (example_ : Tree) (seeds : List Row) (options : DeriveOptions) :
    Outcome :=
  (deriveReport source example_ seeds options).outcome

end RowGrammar.Derivation
