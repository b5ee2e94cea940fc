import RowGrammar.Settings.Convert
import RowGrammar.Toml.Read

/-!
# Layers of settings

Files are laid over the defaults one after the other, and over all of them single settings that
are given directly.
-/

namespace RowGrammar

open RowGrammar.Text

namespace Settings

/-- A step from a value to one inside it. -/
inductive Step where
  | name (name : String)
  /-- The item at a position, from the end on if negative. -/
  | index (index : Int)
  deriving DecidableEq, Repr

def isStepChar (c : Char) : Bool :=
  isAsciiLetter c || isAsciiDigit c || c == '_' || c == '-' || c == ' '

/-- A name at the start of a path. -/
def stepName? (chars : List Char) : Option (String × List Char) :=
  let name := chars.takeWhile isStepChar
  if name.isEmpty then none else some (String.ofList name, chars.dropWhile isStepChar)

/-- The number between brackets, after the opening one. -/
def stepIndex? (chars : List Char) : Option (Int × List Char) := do
  let isSpace := fun c => c == ' ' || c == '\t' || c == '\n' || c == '\r'
  let isNumber := fun c => isAsciiDigit c || c == '-'
  let rest := chars.dropWhile isSpace
  let index ← readInteger? (rest.takeWhile isNumber)
  let ']' :: rest := (rest.dropWhile isNumber).dropWhile isSpace | none
  return (index, rest)

/-- The steps after the first one; `fuel` bounds their number. -/
def moreSteps? : Nat → List Char → Option (List Step)
  | _, [] => some []
  | 0, _ => none
  | fuel + 1, '.' :: chars => do
      let (name, rest) ← stepName? chars
      return .name name :: (← moreSteps? fuel rest)
  | fuel + 1, '[' :: chars => do
      let (index, rest) ← stepIndex? chars
      return .index index :: (← moreSteps? fuel rest)
  | _ + 1, _ => none

/-- The steps that a path describes: names with dots between them, and positions in brackets. -/
def path? (text : String) : Option (List Step) := do
  let (name, rest) ← stepName? text.toList
  return .name name :: (← moreSteps? rest.length rest)

/-- The entries with a change made to the one of a name, which may be new. -/
def changeEntry (name : String) (change : Option Toml → Toml) :
    List (String × Toml) → List (String × Toml)
  | [] => [(name, change none)]
  | (other, value) :: entries =>
      if other = name then (other, change (some value)) :: entries
      else (other, value) :: changeEntry name change entries

/-- The items with a change made to the one at a position; missing ones are empty arrays. -/
def changeItem (change : Toml → Toml) : Nat → List Toml → List Toml
  | 0, [] => [change (.array [])]
  | 0, item :: items => change item :: items
  | index + 1, [] => .array [] :: changeItem change index []
  | index + 1, item :: items => item :: changeItem change index items

/-- The position that an index means in a list of a length. -/
def position (index : Int) (length : Nat) : Nat :=
  if 0 ≤ index then index.natAbs else length - index.natAbs

mutual

/-- Lays a value over another one: tables are merged, and anything else is replaced. -/
def overlay (value : Toml) (below : Option Toml) : Toml :=
  match value with
  | .table entries => overlayEntries entries (below.getD (.table []))
  | value => value

def overlayEntries : List (String × Toml) → Toml → Toml
  | [], below => below
  | (name, value) :: entries, below =>
      overlayEntries entries (.table (changeEntry name (overlay value) below.entries))

end

/-- Lays a value over the one that a path leads to.  Whatever is in the way is replaced. -/
def assign (value : Toml) : List Step → Option Toml → Toml
  | [], below => overlay value below
  | .name name :: steps, below =>
      .table (changeEntry name (assign value steps) ((below.map Toml.entries).getD []))
  | .index index :: steps, below =>
      let items := (below.map Toml.items).getD []
      .array (changeItem (fun item => assign value steps (some item))
        (position index items.length) items)

/-- Lays the entries of a file over settings; their keys may be paths. -/
def overlayFile (root file : Toml) : Toml :=
  file.entries.foldl
    (fun root (key, value) => assign value ((path? key).getD [.name key]) (some root)) root

end Settings

/-- Why there are no settings. -/
inductive SettingsError where
  | invalidLogLevel (level : String)
  | invalidPath (path : String)
  | missingFile (path : String)
  /-- A file that is no TOML document. -/
  | invalidFile (path : String)
  /-- A setting with a value of the wrong kind. -/
  | invalidValue
  deriving DecidableEq, Repr

def SettingsError.message : SettingsError → String
  | .invalidLogLevel level =>
      "invalid log level '" ++ level ++ "', expected one of " ++
        ", ".intercalate (LogLevel.all.map LogLevel.name)
  | .invalidPath path => "invalid path of a setting: " ++ path
  | .missingFile path => "configuration file \"" ++ path ++ "\" not found"
  | .invalidFile path => "invalid configuration file " ++ path
  | .invalidValue => "invalid value of a setting"

/-- A file of settings and its content, if there is one. -/
structure SettingsFile where
  path : String
  content : Option String
  deriving DecidableEq, Repr

/-- What is laid over the default settings, in the order in which it was given. -/
structure SettingsLayers where
  files : List SettingsFile := []
  assignments : List (List Settings.Step × Toml) := []

namespace SettingsLayers

open Settings

def withFile (layers : SettingsLayers) (file : SettingsFile) : SettingsLayers :=
  { layers with files := layers.files ++ [file] }

/-- Gives a single setting directly. -/
def withSetting (layers : SettingsLayers) (path : String) (value : Toml) :
    Except SettingsError SettingsLayers :=
  match path? path with
  | some steps => .ok { layers with assignments := layers.assignments ++ [(steps, value)] }
  | none => .error (.invalidPath path)

/-- Makes tokenizing and parsing strict. -/
def withStrict (layers : SettingsLayers) : SettingsLayers :=
  { layers with
    assignments := layers.assignments ++ [
      ([.name "tokenize", .name "throw_on_error"], .bool true),
      ([.name "parse", .name "throw_on_error"], .bool true)] }

/-- Gives the log level directly. -/
def withLogLevel (layers : SettingsLayers) (level : String) :
    Except SettingsError SettingsLayers :=
  match LogLevel.ofName? level with
  | some level =>
      .ok { layers with
        assignments :=
          layers.assignments ++ [([.name "log", .name "level"], .string level.name)] }
  | none => .error (.invalidLogLevel (LogLevel.lowerCase level))

/-- Lays a file over settings. -/
def addFile (root : Toml) (file : SettingsFile) : Except SettingsError Toml :=
  match file.content with
  | none => .error (.missingFile file.path)
  | some content =>
      match Toml.read? content with
      | some table => .ok (overlayFile root table)
      | none => .error (.invalidFile file.path)

/-- The settings with all layers over the defaults. -/
def build (layers : SettingsLayers) : Except SettingsError Settings := do
  let root ← layers.files.foldlM addFile (Settings.toToml {})
  let root := layers.assignments.foldl (fun root (steps, value) => assign value steps (some root))
    root
  match Settings.ofToml? root with
  | some settings => return settings
  | none => throw .invalidValue

end SettingsLayers

end RowGrammar
