import RowGrammar.Regex.Lexeme

/-!
# Reading character patterns

The second step of reading: lexemes are put together, one after the other, into a pattern.  Groups
that are still open wait on a stack, so a group reads the same wherever it stands.  How deeply a
pattern may be nested is limited; how large it may get is not.
-/

namespace RowGrammar.Regex

/-- One item of a sequence; a group that only changes flags cannot be repeated. -/
structure Item where
  regex : Regex
  repeatable : Bool

/-- A group being read: its number if it captures, the finished branches and the items of the
last branch, the last ones first. -/
structure Frame where
  capture : Option Nat
  branches : List Regex
  items : List Item

namespace Frame

/-- A group of which nothing has been read. -/
def fresh (capture : Option Nat) : Frame := ⟨capture, [], []⟩

def branch (frame : Frame) : Regex :=
  sequence (frame.items.reverse.map (·.regex))

def body (frame : Frame) : Regex :=
  choice (frame.branches.reverse ++ [frame.branch])

def push (frame : Frame) (item : Item) : Frame :=
  { frame with items := item :: frame.items }

/-- Ends the branch being read and starts the next one. -/
def divide (frame : Frame) : Frame :=
  { frame with branches := frame.branch :: frame.branches, items := [] }

/-- Repeats the last item; none where there is nothing to repeat. -/
def quantify? (frame : Frame) (least : Nat) (most : Option Nat) (greedy : Bool) : Option Frame :=
  match frame.items with
  | ⟨regex, true⟩ :: items =>
      some { frame with items := ⟨.loop regex least most greedy, true⟩ :: items }
  | _ => none

end Frame

/-- What has been read of a pattern: the innermost open group, those around it, how many groups
capture so far and the names among them. -/
structure Builder where
  current : Frame
  outer : List Frame
  captures : Nat
  names : List String

namespace Builder

def start : Builder := ⟨.fresh none, [], 0, []⟩

def step? (builder : Builder) : Lexeme → Option Builder
  | .atom regex => some { builder with current := builder.current.push ⟨regex, true⟩ }
  | .flags _ => some { builder with current := builder.current.push ⟨.empty, false⟩ }
  | .openPlain _ =>
      some { builder with current := .fresh none, outer := builder.current :: builder.outer }
  | .openCapture name =>
      if name.any builder.names.contains then none
      else
        some {
          current := .fresh (some (builder.captures + 1))
          outer := builder.current :: builder.outer
          captures := builder.captures + 1
          names := name.toList ++ builder.names }
  | .close =>
      match builder.outer with
      | around :: outer =>
          let regex := Regex.group builder.current.capture builder.current.body
          some { builder with current := around.push ⟨regex, true⟩, outer }
      | [] => none
  | .bar => some { builder with current := builder.current.divide }
  | .quantifier least most greedy =>
      (builder.current.quantify? least most greedy).map fun current => { builder with current }

/-- The pattern, once no group is open. -/
def finish? (builder : Builder) : Option Regex :=
  if builder.outer.isEmpty then some builder.current.body else none

end Builder

def maxHeight : Nat := 250

/-- The pattern that a notation describes; none if the notation is not valid. -/
def parse? (pattern : String) : Option Regex := do
  let lexemes ← lexemes? pattern.toList
  let builder ← lexemes.foldlM Builder.step? .start
  let regex ← builder.finish?
  guard (regex.height ≤ maxHeight)
  return regex

end RowGrammar.Regex
