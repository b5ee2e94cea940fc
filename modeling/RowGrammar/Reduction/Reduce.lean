import RowGrammar.Reduction.Basic
import RowGrammar.SymbolPattern.Match

/-!
# Reduction

A sequence of symbols is reduced by the precedence groups of a parser in turn, over and over until
a pass over all groups changes nothing.  A group replaces the leftmost match of any of its rules by
one new node, the first rule winning where several match, and goes on from the start of that match.
A rule with a sub-parser has the captured symbols reduced by that parser first.
-/

namespace RowGrammar

structure ReductionContext where
  grammar : Grammar
  /-- The compiled parse patterns, by rule. -/
  patterns : Array SymbolPattern
  strict : Bool
  maxNodes : Option Nat
  /-- The subtrees of the expected tree. -/
  expected : Option (List Tree)

/-- What a reduction changes as it goes. -/
structure ReductionState where
  nodes : NodeTable
  divergence : Option Divergence
  validSteps : Nat
  halted : Bool

namespace ReductionState

def start (nodes : NodeTable) : ReductionState := ⟨nodes, none, 0, false⟩

def push (state : ReductionState) (nodeType : NodeTypeId) (children : List NodeId) :
    NodeId × ReductionState :=
  (state.nodes.size, { state with nodes := state.nodes.push ⟨nodeType, .children children⟩ })

end ReductionState

/-- A step of a reduction; the state stays as it is when the step fails. -/
abbrev Reduction := EStateM ParseError ReductionState

/-- The sequence during a pass over the groups. -/
structure Progress where
  symbols : List Symbol
  /-- Whether the pass has reduced anything. -/
  changed : Bool
  /-- Whether reducing has to stop. -/
  stopped : Bool

/-- A rule that can be applied and where it matches. -/
structure Candidate where
  id : RuleId
  rule : ParserRule
  found : SymbolPattern.Match

namespace ReductionContext

variable (context : ReductionContext)

/-- Whether reducing has to stop: at a divergence or at the node limit. -/
def mustHalt (state : ReductionState) : Bool :=
  state.halted || state.divergence.isSome || context.maxNodes.any (· ≤ state.nodes.size)

/-- Whether patterns take unrecognized symbols along. -/
def absorbs (kinds : Array NodeTypeId) : Bool :=
  !context.strict && kinds.contains unrecognized

/-- The match of a rule at a position.  A single symbol is not reduced to a type that is already
on its chain of only children. -/
def candidateAt? (nodes : NodeTable) (symbols : List Symbol) (kinds : Array NodeTypeId)
    (absorb : Bool) (start : Nat) (id : RuleId) : Option Candidate := do
  let rule ← context.grammar.parserRules[id]?
  let pattern ← context.patterns[id]?
  let found ← pattern.matchAt kinds start absorb
  let repeats :=
    found.capture.length = 1 &&
      symbols[found.capture.start]?.any fun symbol =>
        nodes.chainContains symbol.node rule.nodeType
  if repeats then none else return ⟨id, rule, found⟩

/-- The leftmost match of a rule of a group at `from` or later. -/
def candidate? (nodes : NodeTable) (group : PrecedenceGroup) (symbols : List Symbol)
    (position : Nat) : Option Candidate :=
  let kinds := (symbols.map (·.nodeType)).toArray
  let absorb := context.absorbs kinds
  (List.range' position (kinds.size - position)).findSome? fun start =>
    group.rules.findSome? (context.candidateAt? nodes symbols kinds absorb start)

/-- Compares the tree below a new node with the expected tree, unless a divergence is known. -/
def judge (candidate : Candidate) (parser : String) (group : Nat) (node : NodeId)
    (state : ReductionState) : ReductionState :=
  match context.expected, state.divergence with
  | some subtrees, none =>
      match state.nodes.tree? context.grammar.registry node with
      | some subtree =>
          if subtrees.contains subtree then { state with validSteps := state.validSteps + 1 }
          else
            { state with
              divergence := some {
                rule := candidate.id
                nodeType := context.grammar.registry.name candidate.rule.nodeType
                parser
                group
                subtree } }
      | none => state
  | _, _ => state

/-- Makes the node for the symbols that a rule has captured. -/
def build (delegate : String → List Symbol → Reduction NodeId) (rule : ParserRule)
    (captured : List Symbol) : Reduction NodeId := do
  let children ←
    match rule.subparser with
    | some parser => do
        let root ← delegate parser captured
        pure [root]
    | none => pure (captured.map (·.node))
  modifyGet fun state => state.push rule.nodeType children

/-- Applies the rules of a group from `position` on; `fuel` bounds the number of reductions. -/
def reduceGroup (delegate : String → List Symbol → Reduction NodeId) (parser : String)
    (groupIndex : Nat) (group : PrecedenceGroup) : Nat → Nat → Progress → Reduction Progress
  | 0, _, progress => pure progress
  | fuel + 1, position, progress => do
      let state ← get
      if context.mustHalt state then
        set { state with halted := true }
        return { progress with stopped := true }
      else
        match context.candidate? state.nodes group progress.symbols position with
        | none => return progress
        | some candidate => do
            let span := candidate.found.capture
            let captured := (progress.symbols.drop span.start).take span.length
            let node ← build delegate candidate.rule captured
            modify (context.judge candidate parser groupIndex node)
            let symbols := progress.symbols.take span.start ++
              ⟨candidate.rule.nodeType, node⟩ :: progress.symbols.drop span.stop
            reduceGroup delegate parser groupIndex group fuel candidate.found.start
              { progress with symbols, changed := true }

/-- Applies the groups one after the other. -/
def reducePass (delegate : String → List Symbol → Reduction NodeId) (parser : String)
    (fuel : Nat) : List (PrecedenceGroup × Nat) → Progress → Reduction Progress
  | [], progress => pure progress
  | (group, index) :: groups, progress => do
      let progress ← context.reduceGroup delegate parser index group fuel 0 progress
      if progress.stopped then return progress
      else reducePass delegate parser fuel groups progress

/-- Repeats passes over the groups until one changes nothing; `fuel` bounds their number. -/
def reducePasses (delegate : String → List Symbol → Reduction NodeId) (parser : String)
    (groups : List (PrecedenceGroup × Nat)) (steps : Nat) :
    Nat → List Symbol → Reduction (List Symbol)
  | 0, symbols => pure symbols
  | fuel + 1, symbols => do
      let progress ← context.reducePass delegate parser steps groups ⟨symbols, false, false⟩
      if progress.stopped || !progress.changed then return progress.symbols
      else reducePasses delegate parser groups steps fuel progress.symbols

/-- The node for a sequence that is not reduced any further. -/
def wrap (parser : String) : List Symbol → Reduction NodeId
  | [symbol] => pure symbol.node
  | symbols => do
      let state ← get
      if context.strict && !state.halted then
        throw (.incomplete parser
          (symbols.map fun symbol => context.grammar.registry.name symbol.nodeType))
      else modifyGet fun state => state.push unrecognized (symbols.map (·.node))

/-- More reductions than a sequence of `count` symbols admits: each makes the sequence shorter or
adds a type to the chain of only children below a symbol. -/
def stepBound (count : Nat) : Nat :=
  2 * count * (context.grammar.parserRules.size + 2) + 1

/-- Reduces a sequence of symbols to one node; `levels` bounds how deeply parsers may delegate to
one another. -/
def reduceWith : Nat → String → List Symbol → Reduction NodeId
  | 0, parser, _ => throw (.endlessDelegation parser)
  | levels + 1, parser, symbols =>
      if symbols.isEmpty then throw (.emptyInput parser)
      else
        match context.grammar.parser? parser with
        | none => throw (.unknownParser parser)
        | some table => do
            let steps := context.stepBound symbols.length
            let symbols ← context.reducePasses (reduceWith levels) parser table.groups.zipIdx
              steps steps symbols
            context.wrap parser symbols

/-- More levels of delegation than end by themselves: each level has fewer symbols than the one
around it, or a longer chain below one of them, or another parser. -/
def levelBound (count : Nat) : Nat :=
  (context.grammar.parsers.length + 1) * (context.stepBound count + 1)

/-- Reduces the symbols of a parser and reports the result. -/
def parse (parser : String) (symbols : List Symbol) : Reduction ParseReport := do
  let root ← context.reduceWith (context.levelBound symbols.length) parser symbols
  let state ← get
  match state.nodes.tree? context.grammar.registry root with
  | some tree =>
      return ⟨root, tree, state.divergence, state.validSteps, state.halted, state.nodes.size⟩
  | none => throw (.emptyInput parser)

end ReductionContext

end RowGrammar
