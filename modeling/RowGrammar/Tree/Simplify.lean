import RowGrammar.Grammar.Registry
import RowGrammar.Json.Read
import RowGrammar.Tree.Basic

/-!
# Simplifying trees

The data that a tree stands for, as a JSON value.  The primitive type of a node type says which
value its trees become; a tree without one becomes what its children become, and a leaf without one
stands for nothing.
-/

namespace RowGrammar

open RowGrammar.Text

/-- The ways in which a tree becomes a value. -/
inductive PrimitiveType where
  | string
  | number
  | boolean
  | null
  | array
  | object
  /-- A key and a value, as an array. -/
  | member
  deriving DecidableEq, Repr

def PrimitiveType.ofName? (name : String) : Option PrimitiveType :=
  match name with
  | "string" => some .string
  | "number" => some .number
  | "boolean" => some .boolean
  | "null" => some .null
  | "array" => some .array
  | "object" => some .object
  | "member" => some .member
  | _ => none

/-- The primitive type of a node type given by name, if it is a known one. -/
def Registry.knownPrimitive? (registry : Registry) (nodeType : String) : Option PrimitiveType :=
  (registry.primitiveOf? nodeType).bind PrimitiveType.ofName?

namespace Simplify

/-- The characters between quotes that start and end a text. -/
def between? : List Char → Option (List Char)
  | '"' :: chars => if chars.getLast? = some '"' then some chars.dropLast else none
  | _ => none

/-- The string that a text denotes: a JSON string without its quotes and escapes, another quoted
text without its quotes, and any other text as it is. -/
def stringValue (text : String) : String :=
  let trimmed := trim text
  match between? trimmed.toList with
  | some inner =>
      match Json.read? trimmed with
      | some (.string value) => value
      | _ => String.ofList inner
  | none => text

/-- The number that a text denotes, a whole one if possible, and null if there is none. -/
def numberValue (text : String) : Json :=
  let trimmed := trimChars text.toList
  match readInteger? trimmed with
  | some value => .integer value
  | none =>
      match readBinary64? trimmed with
      | some value => .real value
      | none => .null

/-- The key that a value makes. -/
def keyOf : Json → String
  | .string key => key
  | value => value.compact

/-- The key and the value that the items of an array make, if they are a member: two items, the
first of which is no array. -/
def memberOf? : List Json → Option (String × Json)
  | [key, value] => if key.isArray then none else some (keyOf key, value)
  | _ => none

mutual

/-- Puts the members that a value holds into an object; arrays that are no members themselves may
hold some further inside. -/
def collect (members : List (String × Json)) : Json → List (String × Json)
  | .array items =>
      match memberOf? items with
      | some (key, value) => Json.insertMember key value members
      | none => collectList members items
  | _ => members

def collectList (members : List (String × Json)) : List Json → List (String × Json)
  | [] => members
  | item :: items => collectList (collect members item) items

end

/-- The key and the value of a member, null where missing. -/
def memberValue : List Json → Json
  | key :: value :: _ => .array [key, value]
  | [key] => .array [key, .null]
  | [] => .array [.null, .null]

/-- What values stand for where nothing is known about their tree. -/
def passOn : List Json → Option Json
  | [] => none
  | [value] => some value
  | values => some (.array values)

/-- The value of a tree with a literal text, given the values of its children. -/
def primitiveValue (primitive : PrimitiveType) (text : String) (values : List Json) : Json :=
  match primitive with
  | .string => .string (stringValue text)
  | .number => numberValue text
  | .boolean => .bool (trim text == "true")
  | .null => .null
  | .array => .array values
  | .object => .object (collectList [] values)
  | .member => memberValue values

end Simplify

namespace Tree

open Simplify

mutual

/-- The value of a tree, if it stands for one. -/
def value? (registry : Registry) : Tree → Option Json
  | .leaf nodeType text =>
      (registry.knownPrimitive? nodeType).map fun primitive => primitiveValue primitive text []
  | .branch nodeType children =>
      let values := valueList registry children
      match registry.knownPrimitive? nodeType with
      | some primitive =>
          some (primitiveValue primitive (Tree.branch nodeType children).sourceText values)
      | none => passOn values

/-- The values of those trees that stand for one. -/
def valueList (registry : Registry) : List Tree → List Json
  | [] => []
  | tree :: trees => (tree.value? registry).toList ++ valueList registry trees

end

/-- The value of a tree, null if it stands for none. -/
def simplify (registry : Registry) (tree : Tree) : Json :=
  (tree.value? registry).getD .null

end Tree

end RowGrammar
