import RowGrammar.Grammar.Registry

/-!
# Symbol patterns

Regular expressions over node types.  A parse pattern describes a stretch of a sequence of nodes;
the part of it inside the capturing group is the part that becomes one new node.
-/

namespace RowGrammar

/-- Where a lookaround looks from its position. -/
inductive Direction where
  | ahead
  | behind
  deriving DecidableEq, Repr

/-- A regular expression over node types. -/
inductive SymbolPattern where
  | empty
  | any
  /-- One node of any of these types, in increasing order. -/
  | symbols (members : List NodeTypeId)
  | concat (items : List SymbolPattern)
  | alternation (branches : List SymbolPattern)
  | loop (body : SymbolPattern) (least : Nat) (most : Option Nat) (greedy : Bool)
  | capture (body : SymbolPattern)
  | look (direction : Direction) (negated : Bool) (body : SymbolPattern)
  deriving Repr

namespace SymbolPattern

mutual

def captures : SymbolPattern → Nat
  | .empty | .any | .symbols _ => 0
  | .concat items => capturesList items
  | .alternation branches => capturesList branches
  | .loop body _ _ _ => body.captures
  | .capture body => body.captures + 1
  | .look _ _ body => body.captures

def capturesList : List SymbolPattern → Nat
  | [] => 0
  | pattern :: patterns => pattern.captures + capturesList patterns

end

mutual

/-- Whether a capturing group stands inside a lookaround. -/
def capturesInLook : SymbolPattern → Bool
  | .empty | .any | .symbols _ => false
  | .concat items => capturesInLookList items
  | .alternation branches => capturesInLookList branches
  | .loop body _ _ _ => body.capturesInLook
  | .capture body => body.capturesInLook
  | .look _ _ body => 0 < body.captures

def capturesInLookList : List SymbolPattern → Bool
  | [] => false
  | pattern :: patterns => pattern.capturesInLook || capturesInLookList patterns

end

/-- The items one after the other; a single item stands for itself. -/
def ofItems : List SymbolPattern → SymbolPattern
  | [] => .empty
  | [item] => item
  | items => .concat items

/-- The branches in order of preference; a single branch stands for itself. -/
def ofBranches : List SymbolPattern → SymbolPattern
  | [branch] => branch
  | branches => .alternation branches

end SymbolPattern

end RowGrammar
