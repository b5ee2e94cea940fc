import RowGrammar.Grammar.Error
import RowGrammar.Text.CharClass

/-!
# Node type registry

Node types are numbered in the order they are registered; number 0 is the type of unrecognized
input, `?`.  A group is a named list of node types, and no name stands for both.
-/

namespace RowGrammar

open RowGrammar.Text

abbrev NodeTypeId := Nat

/-- The node type of input that nothing else describes. -/
def unrecognized : NodeTypeId := 0

/-- The name of the node type `unrecognized`. -/
def unrecognizedName : String := "?"

/-- How many node types there may be, `?` among them. -/
def maxNodeTypes : Nat := 10000

/-- The node types, groups and primitive types of a grammar. -/
structure Registry where
  /-- The names of the node types; the position is the number. -/
  names : Array String
  groups : List (String × List NodeTypeId)
  primitives : List (NodeTypeId × String)
  deriving DecidableEq, Repr

namespace Registry

/-- The registry that knows `?` only. -/
def empty : Registry := ⟨#[unrecognizedName], [], []⟩

/-- Names have at least two characters, all of them letters or underscores. -/
def isValidName (name : String) : Bool :=
  2 ≤ name.toList.length && name.toList.all isNameLetter

def id? (registry : Registry) (name : String) : Option NodeTypeId :=
  registry.names.idxOf? name

/-- The name of a node type; an unknown one counts as unrecognized. -/
def name (registry : Registry) (id : NodeTypeId) : String :=
  registry.names[id]?.getD unrecognizedName

def group? (registry : Registry) (name : String) : Option (List NodeTypeId) :=
  registry.groups.lookup name

def size (registry : Registry) : Nat :=
  registry.names.size

/-- Whether there is no node type but `?`. -/
def isEmpty (registry : Registry) : Bool :=
  registry.names.size ≤ 1

/-- Gives a new node type the next number. -/
def register (registry : Registry) (name : String) :
    Except GrammarError (NodeTypeId × Registry) :=
  if !isValidName name then .error (.invalidNodeTypeName name)
  else if (registry.id? name).isSome then .error (.duplicateNodeType name)
  else if (registry.group? name).isSome then .error (.nameCollision name)
  else if maxNodeTypes ≤ registry.size then .error (.tooManyNodeTypes maxNodeTypes)
  else .ok (registry.size, { registry with names := registry.names.push name })

/-- The groups with a member added to one of them, which is new if need be. -/
def insertMember (group : String) (member : NodeTypeId) :
    List (String × List NodeTypeId) → List (String × List NodeTypeId)
  | [] => [(group, [member])]
  | (name, members) :: groups =>
      if name = group then
        (name, if members.contains member then members else members ++ [member]) :: groups
      else (name, members) :: insertMember group member groups

def addToGroup (registry : Registry) (group : String) (member : NodeTypeId) :
    Except GrammarError Registry :=
  if (registry.id? group).isSome then .error (.nameCollision group)
  else if !isValidName group then .error (.invalidNodeTypeName group)
  else .ok { registry with groups := insertMember group member registry.groups }

def primitive? (registry : Registry) (id : NodeTypeId) : Option String :=
  registry.primitives.lookup id

/-- The primitive type of a node type given by name. -/
def primitiveOf? (registry : Registry) (name : String) : Option String :=
  (registry.id? name).bind registry.primitive?

/-- Sets the primitive type of a node type, which cannot be changed later. -/
def setPrimitive (registry : Registry) (id : NodeTypeId) (primitive : String) :
    Except GrammarError Registry :=
  match registry.primitive? id with
  | some existing =>
      if existing = primitive then .ok registry
      else .error (.inconsistentPrimitiveType (registry.name id) existing primitive)
  | none => .ok { registry with primitives := (id, primitive) :: registry.primitives }

/-- The node types that a name in a pattern stands for: a type for itself, a group for its
members. -/
def resolve? (registry : Registry) (name : String) : Option (List NodeTypeId) :=
  if name = unrecognizedName then none
  else
    match registry.id? name with
    | some id => some [id]
    | none => registry.group? name

end Registry

end RowGrammar
