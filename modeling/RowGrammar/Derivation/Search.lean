import RowGrammar.Derivation.Shapes
import RowGrammar.Derivation.Tokens
import RowGrammar.Repair

/-!
# Searching for context

When branches of several types have the same children, their patterns need some of the siblings as
context.  The search spreads more and more context over the patterns in conflict, and tests every
candidate grammar on the example, with precedence repair.
-/

namespace RowGrammar.Derivation

open RowGrammar.Text

/-! ## Distributing widths -/

/-- The shares of the first slot that leave no more than the other slots can take, the largest
first. -/
def shares (budget cap rest : Nat) : List Nat :=
  let least := budget - rest
  let greatest := min cap budget
  (List.range' least (greatest + 1 - least)).reverse

/-- What slots with the given capacities take together. -/
def capacity (caps : List Nat) : Nat :=
  caps.foldr (· + ·) 0

/-- Visits every distribution of a budget over slots with the given capacities until a visit
fails.  `before` holds the shares of the slots before these, the last one first. -/
def visitWidthsFrom {σ ε : Type} (visit : σ → List Nat → Except ε σ) (before : List Nat) :
    Nat → List Nat → σ → Except ε σ
  | budget, [], state => if budget = 0 then visit state before.reverse else .ok state
  | budget, cap :: caps, state =>
      (shares budget cap (capacity caps)).foldlM
        (fun state share => visitWidthsFrom visit (share :: before) (budget - share) caps state)
        state

/-- Visits every distribution of a budget over slots with the given capacities until a visit
fails. -/
def visitWidths {σ ε : Type} (visit : σ → List Nat → Except ε σ) (budget : Nat)
    (caps : List Nat) (state : σ) : Except ε σ :=
  visitWidthsFrom visit [] budget caps state

/-! ## Candidates -/

structure DeriveOptions where
  maxContext : Nat := 10
  maxTrials : Nat := 1000
  /-- How many configurations the repair of a candidate tries. -/
  maxRepairIterations : Nat := defaultRepairIterations
  deriving DecidableEq, Repr

/-- A grammar that reproduces an example. -/
structure DerivedGrammar where
  rows : List Row
  /-- The candidates tested, this one included. -/
  trials : Nat
  contextBudget : Nat
  deriving DecidableEq, Repr

/-- A pattern that may need context, with the most siblings that any occurrence has on the left and
on the right. -/
structure ContextSlot where
  nodeType : String
  children : List String
  left : Nat
  right : Nat
  deriving DecidableEq, Repr

/-- The patterns in conflict. -/
def contextSlots (inference : ShapeInference) : List ContextSlot :=
  inference.conflicts.map fun (nodeType, children) =>
    let occurrences := inference.shapes.filter fun shape =>
      shape.nodeType == nodeType && shape.children == children
    { nodeType
      children
      left := occurrences.foldl (fun width shape => max width shape.left.length) 0
      right := occurrences.foldl (fun width shape => max width shape.right.length) 0 }

/-- How much context each slot can take, left before right. -/
def capacities (slots : List ContextSlot) : List Nat :=
  slots.flatMap fun slot => [slot.left, slot.right]

/-- The pattern of a shape with so much context on the left and on the right. -/
def alternative (shape : Shape) (left right : Nat) : String :=
  let behind := (shape.left.take left).reverse
  let ahead := shape.right.take right
  " ".intercalate (
    (if behind.isEmpty then [] else ["(?<= " ++ " ".intercalate behind ++ " )"]) ++
    [" ".intercalate shape.children] ++
    (if ahead.isEmpty then [] else ["(?= " ++ " ".intercalate ahead ++ " )"]))

/-- The widths of the slot that a shape belongs to, none and none without a slot. -/
def widthsFor (slots : List ContextSlot) (widths : List Nat) (shape : Shape) : Nat × Nat :=
  match slots.findIdx? fun slot =>
      slot.nodeType == shape.nodeType && slot.children == shape.children with
  | some index => (widths.getD (2 * index) 0, widths.getD (2 * index + 1) 0)
  | none => (0, 0)

/-- The alternatives of a branch type, those with more children first. -/
def alternatives (inference : ShapeInference) (slots : List ContextSlot) (widths : List Nat)
    (nodeType : String) : List String :=
  let rendered := (inference.shapes.filter (·.nodeType == nodeType)).map fun shape =>
    let (left, right) := widthsFor slots widths shape
    (shape.children.length, alternative shape left right)
  let distinct := rendered.foldl
    (fun kept pair => if kept.any (·.2 == pair.2) then kept else kept ++ [pair]) []
  (distinct.mergeSort fun first second => second.1 ≤ first.1).map (·.2)

/-- One row for each branch type, inner ones first, each in a precedence group of its own. -/
def parseRows (parser : String) (inference : ShapeInference) (slots : List ContextSlot)
    (widths : List Nat) : List Row :=
  inference.order.zipIdx.map fun (nodeType, index) =>
    .production parser nodeType
      (" | ".intercalate (alternatives inference slots widths nodeType)) (decimal (index + 1))

/-- Tests a candidate grammar on the example: the rows as the repair leaves them, if it succeeds. -/
def trial (rows : List Row) (source : String) (example_ : Tree) (options : DeriveOptions) :
    Except DeriveError (Option (List Row)) :=
  match Engine.ofRows rows with
  | .error error => .error (.grammar error)
  | .ok engine =>
      match engine.repair source example_
          ⟨options.maxRepairIterations, some (example_.size * 2 + 16)⟩ with
      | (.error error, _) => .error (.ofRun error)
      | (.ok (.converged ..), repaired) => .ok (some repaired.grammar.toRows)
      | (.ok (.nonConvergent ..), _) => .ok none

/-- The end of a search: a grammar, nothing, or the error of a candidate. -/
abbrev Outcome := Except DeriveError (Option DerivedGrammar)

/-- How many candidates a search has tested, and how it ends. -/
structure SearchResult where
  tested : Nat
  outcome : Outcome

/-- Tests the candidate for one distribution of context and counts it; the search ends with the
result that is thrown. -/
def visitCandidate (candidate : List Nat → Except DeriveError (Option (List Row)))
    (options : DeriveOptions) (budget tested : Nat) (widths : List Nat) :
    Except SearchResult Nat :=
  if options.maxTrials < tested + 1 then .error ⟨tested, .ok none⟩
  else
    match candidate widths with
    | .ok (some rows) => .error ⟨tested + 1, .ok (some ⟨rows, tested + 1, budget⟩)⟩
    | .ok none => .ok (tested + 1)
    | .error error => .error ⟨tested + 1, .error error⟩

/-- Tests candidates with more and more context, up to the options' and the slots' limits. -/
def searchWidths (candidate : List Nat → Except DeriveError (Option (List Row)))
    (options : DeriveOptions) (caps : List Nat) : SearchResult :=
  let visited := (List.range (min options.maxContext (capacity caps) + 1)).foldlM
    (fun tested budget =>
      visitWidths (visitCandidate candidate options budget) budget caps tested) 0
  match visited with
  | .error result => result
  | .ok tested => ⟨tested, .ok none⟩

/-- The end of a derivation, with what there is to say about the grammars that were loaded. -/
structure DerivationReport where
  warnings : List String
  outcome : Outcome

/-- What there is to say about a candidate grammar, nothing if it cannot be loaded. -/
def candidateWarnings (rows : List Row) : List String :=
  match Grammar.load rows with
  | .ok grammar => grammar.warnings
  | .error _ => []

/-- Searches for a grammar that reproduces the example.  All candidates refer to the same types,
those of the example, so there is the same to say about each of them. -/
def search (parser : String) (seeds : List Row) (tokens : TokenInference)
    (shapes : ShapeInference) (source : String) (example_ : Tree) (options : DeriveOptions) :
    DerivationReport :=
  let slots := contextSlots shapes
  let base := seeds ++ tokens.rows parser
  let candidateRows := fun widths => base ++ parseRows parser shapes slots widths
  let result := searchWidths
    (fun widths => trial (candidateRows widths) source example_ options)
    options (capacities slots)
  { warnings := (List.replicate result.tested (candidateWarnings (candidateRows []))).flatten
    outcome := result.outcome }

end RowGrammar.Derivation
