import RowGrammar.Regex.Basic

/-!
# Matching character patterns

The meaning of a pattern at a position of a text is the list of paths through it, best first, with
at most one path for each position a path can end at: what follows a pattern succeeds or fails by
that position alone.  The best path is the match.
-/

/-! ## Sets of indices -/

namespace RowGrammar.Text

/-- A finite set of natural numbers; `index` is a member when that binary digit is set. -/
structure IndexSet where
  bits : Nat
  deriving DecidableEq

namespace IndexSet

def empty : IndexSet := ⟨0⟩

def contains (set : IndexSet) (index : Nat) : Bool :=
  set.bits.testBit index

def insert (set : IndexSet) (index : Nat) : IndexSet :=
  ⟨set.bits ||| 1 <<< index⟩

@[simp]
theorem contains_empty (index : Nat) : empty.contains index = false := by
  simp [empty, contains]

/-- Inserting an index adds that index and nothing else. -/
@[simp]
theorem contains_insert (set : IndexSet) (added index : Nat) :
    (set.insert added).contains index = (set.contains index || decide (added = index)) := by
  simp [insert, contains, Nat.testBit_or, Nat.one_shiftLeft, Nat.testBit_two_pow]

end IndexSet

end RowGrammar.Text

/-! ## Paths -/

namespace RowGrammar.Regex

open RowGrammar.Text

/-- Where a path through a pattern has arrived, and the capturing groups it has left. -/
structure Path where
  stop : Nat
  groups : List Nat
  deriving DecidableEq, Repr

namespace Path

/-- A path that has not left its start. -/
def start (position : Nat) : Path := ⟨position, []⟩

def advance (path : Path) : Path :=
  { path with stop := path.stop + 1 }

/-- The path after the end of a group. -/
def leave (index : Option Nat) (path : Path) : Path :=
  match index with
  | some index => { path with groups := path.groups.insert index }
  | none => path

end Path

/-- Paths in the order they were found, the last one first, none ending where another does. -/
structure Found where
  stops : IndexSet
  reversed : List Path

namespace Found

def empty : Found := ⟨.empty, []⟩

/-- Adds a path unless a better one ends there. -/
def add (found : Found) (path : Path) : Found :=
  if found.stops.contains path.stop then found
  else ⟨found.stops.insert path.stop, path :: found.reversed⟩

def toList (found : Found) : List Path :=
  found.reversed.reverse

end Found

/-- The paths without those that end where an earlier one does. -/
def distinct (paths : List Path) : List Path :=
  (paths.foldl Found.add .empty).toList

/-- Exactly `count` iterations from each of the paths. -/
def iterations (step : Path → List Path) : Nat → List Path → List Path
  | 0, paths => paths
  | _, [] => []
  | count + 1, paths => iterations step count (distinct (paths.flatMap step))

/-- The state of a loop: the iterations already tried and the paths found. -/
structure Exploration where
  tried : IndexSet
  found : Found

namespace Exploration

def start : Exploration := ⟨.empty, .empty⟩

def emit (exploration : Exploration) (path : Path) : Exploration :=
  { exploration with found := exploration.found.add path }

/-- Goes on unless the iteration with this key has been tried. -/
def once (exploration : Exploration) (key : Nat) (go : Exploration → Exploration) :
    Exploration :=
  if exploration.tried.contains key then exploration
  else go { exploration with tried := exploration.tried.insert key }

end Exploration

/-- Up to `count` further iterations in a text of `size` characters. -/
def upTo (step : Path → List Path) (greedy : Bool) (size : Nat) :
    Nat → Path → Exploration → Exploration
  | 0, path, exploration => exploration.emit path
  | count + 1, path, exploration =>
      exploration.once (count * (size + 1) + path.stop) fun exploration =>
        if greedy then
          ((step path).foldl (fun exploration next => upTo step greedy size count next exploration)
            exploration).emit path
        else
          (step path).foldl (fun exploration next => upTo step greedy size count next exploration)
            (exploration.emit path)

/-- Any number of further iterations, each of which has to take a character; `fuel` bounds how
many characters are left. -/
def further (step : Path → List Path) (greedy : Bool) :
    Nat → Path → Exploration → Exploration
  | 0, path, exploration => exploration.emit path
  | fuel + 1, path, exploration =>
      exploration.once path.stop fun exploration =>
        let visit := fun (exploration : Exploration) (next : Path) =>
          if next.stop = path.stop then exploration
          else further step greedy fuel next exploration
        if greedy then ((step path).foldl visit exploration).emit path
        else (step path).foldl visit (exploration.emit path)

/-- One iteration and any number of further ones; a first iteration that takes no character ends
the loop. -/
def oneOrMore (step : Path → List Path) (greedy : Bool) (fuel : Nat) (path : Path)
    (exploration : Exploration) : Exploration :=
  (step path).foldl
    (fun exploration next =>
      if next.stop = path.stop then exploration.emit next
      else further step greedy fuel next exploration)
    exploration

def loopPaths (step : Path → List Path) (least : Nat) (most : Option Nat) (greedy : Bool)
    (size : Nat) (path : Path) : List Path :=
  match most, least with
  | some most, least =>
      ((iterations step least [path]).foldl
        (fun exploration path => upTo step greedy size (most - least) path exploration)
        .start).found.toList
  | none, 0 =>
      (if greedy then (oneOrMore step greedy size path .start).emit path
        else oneOrMore step greedy size path (Exploration.start.emit path)).found.toList
  | none, least + 1 =>
      ((iterations step least [path]).foldl
        (fun exploration path => oneOrMore step greedy size path exploration)
        .start).found.toList

/-- Whether an assertion holds at a position of a text. -/
def assertionAt (text : Array Char) (condition : Assertion) (position : Nat) : Bool :=
  condition.holds (if position = 0 then none else text[position - 1]?) text[position]?

/-- The paths through a pattern that go on from `path`, best first. -/
def paths (text : Array Char) : Regex → Path → List Path
  | .empty, path => [path]
  | .char set, path =>
      match text[path.stop]? with
      | some c => if set.contains c then [path.advance] else []
      | none => []
  | .assertion condition, path => if assertionAt text condition path.stop then [path] else []
  | .seq first second, path => distinct ((paths text first path).flatMap (paths text second))
  | .either first second, path => distinct (paths text first path ++ paths text second path)
  | .loop body least most greedy, path =>
      loopPaths (paths text body) least most greedy text.size path
  | .group index body, path => (paths text body path).map (Path.leave index)

/-- A match: where it starts, where it stops and the capturing groups that took part. -/
structure Match where
  start : Nat
  stop : Nat
  groups : List Nat
  deriving DecidableEq, Repr

namespace Match

def isEmpty (found : Match) : Bool :=
  found.start == found.stop

end Match

/-- The match that starts exactly at a position. -/
def matchAt (regex : Regex) (text : Array Char) (position : Nat) : Option Match :=
  ((paths text regex (.start position)).head?).map fun path =>
    ⟨position, path.stop, path.groups⟩

/-- The leftmost match that starts at one of `count` positions from `position` on. -/
def findWithin (regex : Regex) (text : Array Char) : Nat → Nat → Option Match
  | 0, _ => none
  | count + 1, position =>
      match regex.matchAt text position with
      | some found => some found
      | none => findWithin regex text count (position + 1)

/-- The leftmost match that starts at `position` or later. -/
def find? (regex : Regex) (text : Array Char) (position : Nat) : Option Match :=
  findWithin regex text (text.size + 1 - position) position

end RowGrammar.Regex
