import RowGrammar.Json.Basic
import RowGrammar.Text.Quoted
import RowGrammar.Tree.Basic

/-!
# Rendering trees

The texts a tree can be shown as: JSON, an s-expression on one line, and one line per node.
-/

namespace RowGrammar

open RowGrammar.Text

namespace Tree

mutual

/-- A leaf as `[type, text]`, a branch as `[type, [child, ...]]`. -/
def toJson : Tree → Json
  | .leaf nodeType text => .array [.string nodeType, .string text]
  | .branch nodeType children => .array [.string nodeType, .array (toJsonList children)]

def toJsonList : List Tree → List Json
  | [] => []
  | tree :: trees => tree.toJson :: toJsonList trees

end

mutual

def ofJson? : Json → Option Tree
  | .array [.string nodeType, .string text] => some (.leaf nodeType text)
  | .array [.string nodeType, .array items] => (ofJsonList? items).map (.branch nodeType)
  | _ => none

def ofJsonList? : List Json → Option (List Tree)
  | [] => some []
  | item :: items => do
      let tree ← ofJson? item
      let trees ← ofJsonList? items
      return tree :: trees

end

mutual

def expression : Tree → List Char
  | .leaf nodeType text =>
      '(' :: (nodeType.toList ++ ' ' :: (quotedChars text.toList ++ [')']))
  | .branch nodeType children =>
      '(' :: (nodeType.toList ++ (expressionList children ++ [')']))

/-- The s-expressions of some trees, a space before each. -/
def expressionList : List Tree → List Char
  | [] => []
  | tree :: trees => ' ' :: (tree.expression ++ expressionList trees)

end

/-- How many characters of a literal an outline shows. -/
def outlineWidth : Nat := 30

/-- A literal cut to the width of an outline. -/
def shortened (text : String) : String :=
  let chars := text.toList
  if outlineWidth < chars.length then String.ofList (chars.take outlineWidth) ++ "..." else text

/-- The blanks before a node at a level. -/
def indent (level : Nat) : String :=
  String.ofList (List.replicate (2 * level) ' ')

mutual

/-- One line per node, two blanks before it for every level above. -/
def outline (level : Nat) : Tree → List String
  | .leaf nodeType text => [indent level ++ nodeType ++ " " ++ quoted (shortened text)]
  | .branch nodeType children =>
      (indent level ++ nodeType) :: outlineList (level + 1) children

def outlineList (level : Nat) : List Tree → List String
  | [] => []
  | tree :: trees => tree.outline level ++ outlineList level trees

end

end Tree

/-- A way to show trees. -/
inductive TreeFormat where
  | json
  | expression
  | outline
  deriving DecidableEq, Repr

namespace TreeFormat

/-- The formats in the order of their names. -/
def all : List TreeFormat := [.json, .expression, .outline]

def name : TreeFormat → String
  | .json => "json"
  | .expression => "sexp"
  | .outline => "treeviz"

def description : TreeFormat → String
  | .json => "JSON arrays of node type and literal or children"
  | .expression => "One-line s-expression"
  | .outline => "One line per node, indented by depth"

def render (tree : Tree) : TreeFormat → String
  | .json => tree.toJson.pretty
  | .expression => String.ofList tree.expression
  | .outline => String.join ((tree.outline 0).map (· ++ "\n"))

def ofName? (name : String) : Option TreeFormat :=
  all.find? (·.name == name)

/-- The wording for a name that no format has. -/
def notFoundMessage (name : String) : String :=
  "Format '" ++ name ++ "' not found"

end TreeFormat

end RowGrammar
