import RowGrammar.Grammar.Registry
import RowGrammar.Text.Digits
import RowGrammar.Tree.Basic

/-!
# Node tables

Tokens and the nodes built from them get consecutive numbers in the order they are made.  A node is
never changed, so the children of a node have smaller numbers than the node itself.
-/

namespace RowGrammar

open RowGrammar.Text

abbrev NodeId := Nat

inductive Payload where
  | text (text : String)
  | children (ids : List NodeId)
  deriving DecidableEq, Repr

structure Node where
  nodeType : NodeTypeId
  payload : Payload
  deriving DecidableEq, Repr

/-- An entry of the sequence that is being reduced. -/
structure Symbol where
  nodeType : NodeTypeId
  node : NodeId
  deriving DecidableEq, Repr

/-- The nodes made so far; the position of a node is its number. -/
structure NodeTable where
  nodes : Array Node
  deriving DecidableEq, Repr

namespace NodeTable

def empty : NodeTable := ⟨#[]⟩

/-- The number of nodes, which is the number of the next node. -/
def size (table : NodeTable) : Nat :=
  table.nodes.size

def get? (table : NodeTable) (id : NodeId) : Option Node :=
  table.nodes[id]?

/-- Adds a node, whose number is the size before. -/
def push (table : NodeTable) (node : Node) : NodeTable :=
  ⟨table.nodes.push node⟩

/-- Whether a node type occurs on the chain of only children that starts at a node; `fuel` bounds
the length of the chain. -/
def chainContainsWithin (table : NodeTable) (nodeType : NodeTypeId) : Nat → NodeId → Bool
  | 0, _ => false
  | fuel + 1, id =>
      match table.get? id with
      | some node =>
          node.nodeType == nodeType ||
            match node.payload with
            | .children [child] => table.chainContainsWithin nodeType fuel child
            | _ => false
      | none => false

/-- Whether a node type occurs on the chain of only children that starts at a node. -/
def chainContains (table : NodeTable) (id : NodeId) (nodeType : NodeTypeId) : Bool :=
  table.chainContainsWithin nodeType (id + 1) id

/-- The tree below a node; `fuel` bounds its height. -/
def treeWithin (table : NodeTable) (registry : Registry) : Nat → NodeId → Option Tree
  | 0, _ => none
  | fuel + 1, id => do
      let node ← table.get? id
      match node.payload with
      | .text text => return .leaf (registry.name node.nodeType) text
      | .children ids => do
          let trees ← ids.mapM (table.treeWithin registry fuel)
          return .branch (registry.name node.nodeType) trees

def tree? (table : NodeTable) (registry : Registry) (id : NodeId) : Option Tree :=
  table.treeWithin registry (id + 1) id

/-- The number of a node as it is shown. -/
def idText (id : NodeId) : String :=
  "#" ++ decimal id

end NodeTable

end RowGrammar
