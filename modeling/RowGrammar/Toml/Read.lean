import RowGrammar.Toml.Scalar

/-!
# Reading TOML

A document is a sequence of lines: entries, and headers of the tables that the entries after them
belong to.  Tables come into being in several ways, which decide by which lines they can be
continued.
-/

namespace RowGrammar.Toml

open RowGrammar.Text

/-! ## Keys and values -/

def isKeyChar (c : Char) : Bool :=
  isAsciiLetter c || isAsciiDigit c || c == '_' || c == '-'

/-- A key without dots. -/
def simpleKey? (chars : List Char) : Option (String × List Char) :=
  match opening? chars with
  | some (style, _) => if style.multiline then none else string? chars
  | none =>
      let name := chars.takeWhile isKeyChar
      if name.isEmpty then none else some (String.ofList name, chars.dropWhile isKeyChar)

/-- Keys with dots between them and the blanks around them; `fuel` bounds their number. -/
def keyPath? : Nat → List Char → Option (List String × List Char)
  | 0, _ => none
  | fuel + 1, chars => do
      let (key, rest) ← simpleKey? (chars.dropWhile isSpace)
      match rest.dropWhile isSpace with
      | '.' :: rest => do
          let (keys, rest) ← keyPath? fuel rest
          return (key :: keys, rest)
      | rest => return ([key], rest)

/-- The characters after a comment at the start, if there is one. -/
def skipComment? : List Char → Option (List Char)
  | '#' :: rest =>
      match rest.dropWhile isText with
      | [] => some []
      | rest => if (lineBreak? rest).isSome then some rest else none
  | chars => some chars

/-- The characters after the end of a line: blanks, a comment and a line break. -/
def endLine? (chars : List Char) : Option (List Char) := do
  match ← skipComment? (chars.dropWhile isSpace) with
  | [] => some []
  | rest => lineBreak? rest

/-- The characters after blanks, comments and line breaks; `fuel` bounds their number. -/
def skipLines? : Nat → List Char → Option (List Char)
  | 0, _ => none
  | fuel + 1, chars => do
      let rest ← skipComment? (chars.dropWhile isSpace)
      match lineBreak? rest with
      | some rest => skipLines? fuel rest
      | none => some rest

/-- How a table came into being. -/
inductive TableOrigin where
  /-- By its own header. -/
  | header
  /-- By the header of a table inside it. -/
  | implied
  /-- By a key with dots. -/
  | dotted
  deriving DecidableEq, Repr

/-- What a key stands for while a document is read. -/
inductive Entry where
  | value (value : Toml)
  | table (origin : TableOrigin) (entries : List (String × Entry))
  /-- An array of tables, of which the last one is still open. -/
  | tables (closed : List (List (String × Entry))) (last : List (String × Entry))

/-- The entries with the one of a key changed, which may be new. -/
def changeEntry (key : String) (change : Option Entry → Option Entry) :
    List (String × Entry) → Option (List (String × Entry))
  | [] => (change none).map fun entry => [(key, entry)]
  | (name, entry) :: entries =>
      if name = key then (change (some entry)).map fun entry => (name, entry) :: entries
      else (changeEntry key change entries).map ((name, entry) :: ·)

/-- Changes the entries of the table that headers lead to; missing tables are implied. -/
def changeTable (change : List (String × Entry) → Option (List (String × Entry))) :
    List String → List (String × Entry) → Option (List (String × Entry))
  | [], entries => change entries
  | key :: path, entries =>
      changeEntry key (fun entry =>
        match entry with
        | none => (changeTable change path []).map (.table .implied)
        | some (.table origin entries) => (changeTable change path entries).map (.table origin)
        | some (.tables closed last) => (changeTable change path last).map (.tables closed)
        | some (.value _) => none) entries

/-- Puts a value under a key with dots.  Tables with a header of their own cannot be continued so,
nor can the last one if it is only implied. -/
def putDotted (value : Toml) (key : String) :
    List String → Bool → List (String × Entry) → Option (List (String × Entry))
  | [], open_, entries =>
      if open_ then
        changeEntry key (fun entry => if entry.isNone then some (.value value) else none) entries
      else none
  | next :: path, _, entries =>
      changeEntry next (fun entry =>
        match entry with
        | none => (putDotted value key path true []).map (.table .dotted)
        | some (.table .header _) => none
        | some (.table origin entries) =>
            (putDotted value key path (origin == .dotted) entries).map (.table origin)
        | some (.tables closed last) => (putDotted value key path false last).map (.tables closed)
        | some (.value _) => none) entries

/-- Puts a value under a path of keys. -/
def putEntry (path : List String) (value : Toml) (entries : List (String × Entry)) :
    Option (List (String × Entry)) := do
  let key ← path.getLast?
  putDotted value key path.dropLast true entries

mutual

def Entry.toToml : Entry → Toml
  | .value value => value
  | .table _ entries => .table (entriesToToml entries)
  | .tables closed last => .array (tablesToToml closed ++ [.table (entriesToToml last)])

def entriesToToml : List (String × Entry) → List (String × Toml)
  | [] => []
  | (key, entry) :: entries => (key, entry.toToml) :: entriesToToml entries

def tablesToToml : List (List (String × Entry)) → List Toml
  | [] => []
  | entries :: tables => .table (entriesToToml entries) :: tablesToToml tables

end

mutual

/-- The value at the start; `fuel` bounds the number of steps. -/
def value? : Nat → List Char → Option (Toml × List Char)
  | 0, _ => none
  | fuel + 1, chars =>
      match chars with
      | '[' :: rest => (items? fuel rest).map fun (items, rest) => (.array items, rest)
      | '{' :: rest =>
          match rest.dropWhile isSpace with
          | '}' :: rest => some (.table [], rest)
          | rest => (inlineEntries? fuel [] rest).map fun (entries, rest) =>
              (.table (entriesToToml entries), rest)
      | _ =>
          match opening? chars with
          | some _ => (string? chars).map fun (text, rest) => (.string text, rest)
          | none =>
              let (word, rest) := splitWord chars
              (ofWord? word).map fun value => (value, rest)

/-- The items of an array up to its closing bracket. -/
def items? : Nat → List Char → Option (List Toml × List Char)
  | 0, _ => none
  | fuel + 1, chars => do
      match ← skipLines? (chars.length + 1) chars with
      | ']' :: rest => return ([], rest)
      | rest => do
          let (item, rest) ← value? fuel rest
          match ← skipLines? (rest.length + 1) rest with
          | ',' :: rest => do
              let (items, rest) ← items? fuel rest
              return (item :: items, rest)
          | ']' :: rest => return ([item], rest)
          | _ => none

/-- The entries of a table between braces up to its closing brace, after those already read. -/
def inlineEntries? :
    Nat → List (String × Entry) → List Char → Option (List (String × Entry) × List Char)
  | 0, _, _ => none
  | fuel + 1, entries, chars => do
      let (path, rest) ← keyPath? (chars.length + 1) chars
      let '=' :: rest := rest | none
      let (value, rest) ← value? fuel (rest.dropWhile isSpace)
      let entries ← putEntry path value entries
      match rest.dropWhile isSpace with
      | ',' :: rest => inlineEntries? fuel entries rest
      | '}' :: rest => return (entries, rest)
      | _ => none

end

/-! ## Documents -/

/-- Gives a table a header of its own. -/
def openTable (path : List String) (root : List (String × Entry)) :
    Option (List (String × Entry)) := do
  let key ← path.getLast?
  changeTable (changeEntry key fun entry =>
    match entry with
    | none => some (.table .header [])
    | some (.table .implied entries) => some (.table .header entries)
    | some _ => none) path.dropLast root

/-- Opens a new table at the end of an array of tables. -/
def openItem (path : List String) (root : List (String × Entry)) :
    Option (List (String × Entry)) := do
  let key ← path.getLast?
  changeTable (changeEntry key fun entry =>
    match entry with
    | none => some (.tables [] [])
    | some (.tables closed last) => some (.tables (closed ++ [last]) [])
    | some _ => none) path.dropLast root

/-- The part of a document that has been read: its entries, and the table that further entries
belong to. -/
structure Document where
  root : List (String × Entry)
  current : List String

def line? (document : Document) (chars : List Char) : Option (Document × List Char) :=
  let fuel := chars.length + 1
  match chars.dropWhile isSpace with
  | '[' :: '[' :: rest => do
      let (path, rest) ← keyPath? fuel rest
      let ']' :: ']' :: rest := rest | none
      let root ← openItem path document.root
      return (⟨root, path⟩, ← endLine? rest)
  | '[' :: rest => do
      let (path, rest) ← keyPath? fuel rest
      let ']' :: rest := rest | none
      let root ← openTable path document.root
      return (⟨root, path⟩, ← endLine? rest)
  | rest =>
      match endLine? rest with
      | some rest => some (document, rest)
      | none => do
          let (path, rest) ← keyPath? fuel rest
          let '=' :: rest := rest | none
          let (value, rest) ← value? fuel (rest.dropWhile isSpace)
          let root ← changeTable (putEntry path value) document.current document.root
          return ({ document with root }, ← endLine? rest)

/-- Reads lines to the end; `fuel` bounds their number. -/
def lines? : Nat → Document → List Char → Option Document
  | _, document, [] => some document
  | 0, _, _ => none
  | fuel + 1, document, chars => do
      let (document, rest) ← line? document chars
      lines? fuel document rest

/-- The table that a document describes. -/
def read? (text : String) : Option Toml := do
  let chars := text.toList
  let document ← lines? (chars.length + 1) ⟨[], []⟩ chars
  return .table (entriesToToml document.root)

end RowGrammar.Toml
