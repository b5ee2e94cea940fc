import RowGrammar.Grammar.Row
import RowGrammar.Json.Read
import RowGrammar.Yaml.Print
import RowGrammar.Yaml.Read

/-!
# Rows as documents

Rows are kept in JSON or YAML documents: a sequence of objects that give the columns by heading, or
of arrays that give them in order.
-/

namespace RowGrammar

open RowGrammar.Text

namespace Row

/-- The row with these columns, of which the last ones may be missing. -/
def ofColumns? (columns : List String) : Option Row :=
  if columns.length ≤ 8 then
    some {
      parser := columns.getD 0 ""
      nodeType := columns.getD 1 ""
      tokenPattern := columns.getD 2 ""
      parsePattern := columns.getD 3 ""
      primitiveType := columns.getD 4 ""
      group := columns.getD 5 ""
      precedence := columns.getD 6 ""
      subparser := columns.getD 7 "" }
  else none

/-- The headings of the columns, each with the other heading that it may have. -/
def headings : List (String × Option String) := [
  ("parser", none), ("nodetype", none), ("tokenizepattern", some "charpattern"),
  ("parsepattern", some "nodepattern"), ("primitivetype", none), ("nodegroup", none),
  ("precedence", none), ("subparser", none)]

/-- A column of an object whose values are texts or something else.  It may be given only once. -/
def column? (entries : List (String × Option String)) (heading : String × Option String) :
    Option String :=
  match entries.filter fun entry => entry.1 == heading.1 || some entry.1 == heading.2 with
  | [] => some ""
  | [entry] => entry.2
  | _ => none

/-- The row of an object; entries with other headings are ignored. -/
def ofEntries? (entries : List (String × Option String)) : Option Row := do
  ofColumns? (← headings.mapM (column? entries))

def ofJson? : Json → Option Row
  | .object members => ofEntries? (members.map fun (name, value) => (name, textOf? value))
  | .array items => do ofColumns? (← items.mapM textOf?)
  | _ => none
where
  textOf? : Json → Option String
    | .string text => some text
    | _ => none

/-- The row that a YAML node describes; a node that is left out is a blank row. -/
def ofYaml? : Yaml → Option Row
  | .mapping entries => ofEntries? (entries.map fun (name, node) => (name, textOf? node))
  | .sequence items => do ofColumns? (← items.mapM textOf?)
  | .scalar text => if text.isEmpty then some {} else none
where
  textOf? : Yaml → Option String
    | .scalar text => some text
    | _ => none

def readJson? (text : String) : Option (List Row) :=
  match Json.read? text with
  | some (.array items) => items.mapM ofJson?
  | _ => none

def readYaml? (text : String) : Option (List Row) :=
  match Yaml.read? text with
  | some (.sequence items) => items.mapM ofYaml?
  | some (.scalar text) => if text.isEmpty then some [] else none
  | _ => none

def toJson (row : Row) : Json :=
  .object (row.columns.map fun (heading, text) => (heading, .string text))

def jsonText (rows : List Row) : String :=
  (Json.array (rows.map toJson)).pretty ++ "\n"

/-- A row as an item of a YAML sequence. -/
def yamlItem (row : Row) : String :=
  "- " ++ "\n  ".intercalate (row.columns.map fun (heading, text) =>
    heading ++ ": " ++ Yaml.scalarText 4 text) ++ "\n"

def yamlText (rows : List Row) : String :=
  if rows.isEmpty then "[]\n" else String.join (rows.map yamlItem)

end Row

end RowGrammar
