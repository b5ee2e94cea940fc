import RowGrammar.SymbolPattern.Basic

/-!
# Matching symbol patterns

A backtracking search over a sequence of node types.  Every part of a pattern gets the path that
has led to it and what to do after it; when the rest of the search fails, the part tries its next
alternative.  The first path that reaches the end wins: earlier branches before later ones, more
iterations before fewer where a repetition is greedy.  With absorption, a node may take an
unrecognized node that directly follows it along, and that is tried first.
-/

namespace RowGrammar.SymbolPattern

/-- A stretch of positions from `start` up to but not including `stop`. -/
structure Span where
  start : Nat
  stop : Nat
  deriving DecidableEq, Repr

namespace Span

def isEmpty (span : Span) : Bool :=
  span.stop ≤ span.start

def length (span : Span) : Nat :=
  span.stop - span.start

end Span

/-- Where a path through a pattern has arrived, and what its capturing group has taken. -/
structure Path where
  stop : Nat
  capture : Option Span
  deriving DecidableEq, Repr

/-- What is left to do after a part of a pattern: the whole path if that succeeds. -/
abbrev Continuation := Path → Option Path

/-- The paths that take one node, and with absorption an unrecognized node after it. -/
def stepOver (input : Array NodeTypeId) (absorb : Bool) (accepts : NodeTypeId → Bool)
    (path : Path) (next : Continuation) : Option Path :=
  match input[path.stop]? with
  | some nodeType =>
      if accepts nodeType then
        if absorb && input[path.stop + 1]? == some unrecognized then
          next { path with stop := path.stop + 2 } <|> next { path with stop := path.stop + 1 }
        else next { path with stop := path.stop + 1 }
      else none
  | none => none

/-- The paths through the iterations of a loop after `count` of them.  Beyond the least number an
iteration has to take a node; `fuel` bounds the number of iterations. -/
def runLoop (body : Path → Continuation → Option Path) (least : Nat) (most : Option Nat)
    (greedy : Bool) : Nat → Nat → Path → Continuation → Option Path
  | 0, _, _, _ => none
  | fuel + 1, count, path, next =>
      let goOn := fun (_ : Unit) =>
        if most.all (count < ·) then
          body path fun reached =>
            if reached.stop = path.stop ∧ least ≤ count then none
            else runLoop body least most greedy fuel (count + 1) reached next
        else none
      let leave := fun (_ : Unit) => if least ≤ count then next path else none
      if greedy then (goOn ()).orElse leave else (leave ()).orElse goOn

/-- The start of a lookbehind that ends at a position: the nearest one that `reaches` it. -/
def looksBehind (reaches : Nat → Bool) : Nat → Bool
  | 0 => reaches 0
  | position + 1 => reaches (position + 1) || looksBehind reaches position

mutual

/-- The best path through a pattern that goes on from `path` and then satisfies `next`. -/
def run (input : Array NodeTypeId) (absorb : Bool) :
    SymbolPattern → Path → Continuation → Option Path
  | .empty, path, next => next path
  | .any, path, next => stepOver input absorb (fun _ => true) path next
  | .symbols members, path, next => stepOver input absorb members.contains path next
  | .concat items, path, next => runItems input absorb items path next
  | .alternation branches, path, next => runBranches input absorb branches path next
  | .loop body least most greedy, path, next =>
      runLoop (run input absorb body) least most greedy (least + input.size + 1) 0 path next
  | .capture body, path, next =>
      run input absorb body path fun reached =>
        next { reached with capture := some ⟨path.stop, reached.stop⟩ }
  | .look direction negated body, path, next =>
      let found :=
        match direction with
        | .ahead => (run input absorb body ⟨path.stop, none⟩ some).isSome
        | .behind =>
            looksBehind (fun start =>
              (run input absorb body ⟨start, none⟩ fun reached =>
                if reached.stop = path.stop then some reached else none).isSome) path.stop
      if found != negated then next path else none

/-- The best path through the items one after the other. -/
def runItems (input : Array NodeTypeId) (absorb : Bool) :
    List SymbolPattern → Path → Continuation → Option Path
  | [], path, next => next path
  | item :: items, path, next =>
      run input absorb item path fun reached => runItems input absorb items reached next

/-- The best path through the first branch that has one. -/
def runBranches (input : Array NodeTypeId) (absorb : Bool) :
    List SymbolPattern → Path → Continuation → Option Path
  | [], _, _ => none
  | branch :: branches, path, next =>
      (run input absorb branch path next).orElse fun _ =>
        runBranches input absorb branches path next

end

/-- A match: where it starts and stops, and the nodes that the capturing group takes. -/
structure Match where
  start : Nat
  stop : Nat
  capture : Span
  deriving DecidableEq, Repr

/-- Accepts a path whose capturing group has taken something. -/
def accept (path : Path) : Option Path :=
  match path.capture with
  | some span => if span.isEmpty then none else some path
  | none => none

/-- The match that starts exactly at a position. -/
def matchAt (pattern : SymbolPattern) (input : Array NodeTypeId) (start : Nat) (absorb : Bool) :
    Option Match := do
  let path ← run input absorb pattern ⟨start, none⟩ accept
  let capture ← path.capture
  return ⟨start, path.stop, capture⟩

/-- The leftmost match that starts at `position` or later. -/
def find? (pattern : SymbolPattern) (input : Array NodeTypeId) (position : Nat) (absorb : Bool) :
    Option Match :=
  (List.range' position (input.size - position)).findSome? fun start =>
    pattern.matchAt input start absorb

end RowGrammar.SymbolPattern
