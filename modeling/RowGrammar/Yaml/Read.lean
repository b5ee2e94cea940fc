import RowGrammar.Yaml.Scalar

/-!
# Reading YAML

One document of block and flow sequences and mappings, with scalars in every notation.  Anchors,
tags, directives and keys that are no scalars on one line are not read.
-/

namespace RowGrammar

/-- A YAML node.  Scalars are kept as texts, without a type of their own; keys are scalars. -/
inductive Yaml where
  | scalar (text : String)
  | sequence (items : List Yaml)
  | mapping (entries : List (String × Yaml))
  deriving Repr

namespace Yaml

/-- What stands where a node is left out. -/
def missing : Yaml := .scalar ""

end Yaml

end RowGrammar

namespace RowGrammar.Yaml

/-- A quoted or plain scalar, and the place after it. -/
def keyScalar? (flow : Bool) (cursor : Cursor) : Option (String × Cursor) :=
  match cursor.rest with
  | '"' :: _ | '\'' :: _ =>
      let quote := cursor.rest.headD '"'
      (quoted? quote (cursor.rest.length + 1) (cursor.skip 1)).map fun (text, after) =>
        (String.ofList text, after)
  | rest =>
      if startsPlain flow rest then
        let (text, after) := plainPart flow cursor
        some (String.ofList text, after)
      else none

/-- A key of a block mapping with its colon, and the place after it. -/
def key? (cursor : Cursor) : Option (String × Cursor) := do
  let (key, after) ← keyScalar? false cursor
  let after := after.skipWhile isBlank
  guard (after.rest.head? = some ':' ∧ startsBlank (after.rest.drop 1))
  let read := cursor.rest.take (cursor.rest.length - after.rest.length)
  guard !(read.contains '\n')
  return (key, after.skip 1)

/-- Whether an item of a block sequence starts here. -/
def startsItem (cursor : Cursor) : Bool :=
  cursor.rest.head? == some '-' && startsBlank (cursor.rest.drop 1) && !cursor.isEnd

mutual

/-- A flow sequence, a flow mapping or a scalar within one. -/
def flowNode? : Nat → Cursor → Option (Yaml × Cursor)
  | 0, _ => none
  | fuel + 1, cursor =>
      match cursor.rest with
      | '[' :: _ => do
          let (items, after) ← flowItems? fuel (cursor.skip 1)
          return (.sequence items, after)
      | '{' :: _ => do
          let (entries, after) ← flowEntries? fuel (cursor.skip 1)
          return (.mapping entries, after)
      | '"' :: _ | '\'' :: _ => do
          let (text, after) ← keyScalar? true cursor
          return (.scalar text, after)
      | rest => do
          guard (startsPlain true rest)
          let (text, after) := plain true 0 (rest.length + 1) cursor
          return (.scalar (String.ofList text), after)

/-- The items of a flow sequence up to its closing bracket. -/
def flowItems? : Nat → Cursor → Option (List Yaml × Cursor)
  | 0, _ => none
  | fuel + 1, cursor => do
      let cursor := cursor.next
      if cursor.rest.head? = some ']' then return ([], cursor.skip 1)
      let (item, after) ← flowNode? fuel cursor
      let after := after.next
      match after.rest with
      | ',' :: _ => do
          let (items, after) ← flowItems? fuel (after.skip 1)
          return (item :: items, after)
      | ']' :: _ => return ([item], after.skip 1)
      | _ => none

/-- The entries of a flow mapping up to its closing brace. -/
def flowEntries? : Nat → Cursor → Option (List (String × Yaml) × Cursor)
  | 0, _ => none
  | fuel + 1, cursor => do
      let cursor := cursor.next
      if cursor.rest.head? = some '}' then return ([], cursor.skip 1)
      let (key, after) ← keyScalar? true cursor
      let after := after.next
      let (value, after) ←
        match after.rest with
        | ':' :: _ => do
            let next := (after.skip 1).next
            match next.rest with
            | ',' :: _ | '}' :: _ => some (missing, next)
            | _ => flowNode? fuel next
        | _ => some (missing, after)
      let after := after.next
      match after.rest with
      | ',' :: _ => do
          let (entries, after) ← flowEntries? fuel (after.skip 1)
          return ((key, value) :: entries, after)
      | '}' :: _ => return ([(key, value)], after.skip 1)
      | _ => none

end

/-- A node that is neither a block sequence nor a block mapping, up to the end of its last line. -/
def inlineNode? (least : Nat) (cursor : Cursor) : Option (Yaml × Cursor) := do
  let (node, after) ←
    match cursor.rest with
    | '|' :: _ => (block? false least (cursor.skip 1)).map fun (text, after) =>
        (Yaml.scalar (String.ofList text), after)
    | '>' :: _ => (block? true least (cursor.skip 1)).map fun (text, after) =>
        (Yaml.scalar (String.ofList text), after)
    | '[' :: _ | '{' :: _ | '"' :: _ | '\'' :: _ => flowNode? (2 * cursor.rest.length + 2) cursor
    | rest => do
        guard (startsPlain false rest)
        let (text, after) := plain false least (rest.length + 1) cursor
        some (.scalar (String.ofList text), after)
  guard after.endsLine
  return (node, after)

mutual

/-- The node at a token, if that is in the column `least` or later; `fuel` bounds the number of
steps. -/
def node? : Nat → Nat → Cursor → Option (Yaml × Cursor)
  | 0, _, _ => none
  | fuel + 1, least, cursor =>
      if cursor.isEnd || cursor.column < least then some (missing, cursor)
      else if startsItem cursor then do
        let (items, after) ← blockItems? fuel cursor.column cursor
        return (.sequence items, after)
      else if (key? cursor).isSome then do
        let (entries, after) ← blockEntries? fuel cursor.column cursor
        return (.mapping entries, after)
      else inlineNode? least cursor

/-- The items of a block sequence in a column, from the one at a token on. -/
def blockItems? : Nat → Nat → Cursor → Option (List Yaml × Cursor)
  | 0, _, _ => none
  | fuel + 1, column, cursor => do
      let (item, after) ← node? fuel (column + 1) (cursor.skip 1).next
      let next := after.next
      if next.column = column ∧ startsItem next then do
        let (items, after) ← blockItems? fuel column next
        return (item :: items, after)
      else
        guard (next.isEnd ∨ next.column ≤ column)
        return ([item], next)

/-- The entries of a block mapping in a column, from the one at a token on. -/
def blockEntries? : Nat → Nat → Cursor → Option (List (String × Yaml) × Cursor)
  | 0, _, _ => none
  | fuel + 1, column, cursor => do
      let (key, after) ← key? cursor
      let (gap, token) := after.skipGap
      let (value, after) ←
        if gap = .lines then
          if token.column = column ∧ startsItem token then node? fuel column token
          else node? fuel (column + 1) token
        else if token.rest.isEmpty then some (missing, token)
        else inlineNode? (column + 1) token
      let next := after.next
      if next.isEnd ∨ next.column < column then return ([(key, value)], next)
      else if startsItem next ∨ next.column ≠ column then none
      else do
        let (entries, after) ← blockEntries? fuel column next
        return ((key, value) :: entries, after)

end

/-- The text with single characters for line breaks. -/
def normalizeBreaks : List Char → List Char
  | '\r' :: '\n' :: rest => '\n' :: normalizeBreaks rest
  | '\r' :: rest => '\n' :: normalizeBreaks rest
  | c :: rest => c :: normalizeBreaks rest
  | [] => []

/-- The node that a text holds as its only document; without any document the node is missing. -/
def read? (text : String) : Option Yaml := do
  let chars := normalizeBreaks text.toList
  let start := (Cursor.mk 0 chars).next
  let start := if start.isMarker '-' then (start.skip 3).next else start
  let (node, after) ← node? (2 * chars.length + 4) 0 start
  let after := after.next
  let after := if after.isMarker '.' then (after.skip 3).next else after
  guard after.rest.isEmpty
  return node

end RowGrammar.Yaml
