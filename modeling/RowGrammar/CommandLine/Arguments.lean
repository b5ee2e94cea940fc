import RowGrammar.Settings.Convert
import RowGrammar.Tree.Render

/-!
# Command line arguments

What a command line asks for.  Options may stand before and after the positional arguments of a
command; those that every command has may also stand before its name.
-/

namespace RowGrammar.CommandLine

open RowGrammar.Text

/-! ## Commands -/

/-- How tokens are shown. -/
inductive TokenFormat where
  | json
  /-- One line per token. -/
  | lines
  deriving DecidableEq, Repr

/-- How the result of a parse is shown. -/
inductive ReportFormat where
  | tree (format : TreeFormat)
  /-- As the data that the tree stands for. -/
  | value
  deriving DecidableEq, Repr

/-- How the rows of a grammar are shown. -/
inductive RowFormat where
  | json
  | yaml
  deriving DecidableEq, Repr

/-- A command and its arguments; files are given by path. -/
inductive Command where
  | tokenize (grammar input : String) (parser : Option String) (strict : Bool)
      (format : TokenFormat)
  | parse (grammar input : String) (parser : Option String) (strict : Bool)
      (maxNodes : Option Nat) (expected : Option String) (format : ReportFormat)
  | derive (source tree : String) (seeds : Option String) (maxContext maxTrials : Option Nat)
      (format : RowFormat)
  | repair (grammar input tree : String) (maxIterations : Option Nat) (format : RowFormat)
  deriving DecidableEq, Repr

namespace Command

def isStrict : Command → Bool
  | .tokenize _ _ _ strict _ => strict
  | .parse _ _ _ strict _ _ _ => strict
  | .derive .. | .repair .. => false

/-- The paths that a command reads, in their order. -/
def paths : Command → List String
  | .tokenize grammar input .. => [grammar, input]
  | .parse grammar input _ _ _ expected _ => [grammar, input] ++ expected.toList
  | .derive source tree seeds .. => [source, tree] ++ seeds.toList
  | .repair grammar input tree .. => [grammar, input, tree]

end Command

/-- A command with the arguments that all commands have. -/
structure Invocation where
  settings : Option String
  logLevel : Option String
  command : Command
  deriving DecidableEq, Repr

/-- What a command line asks for. -/
inductive Request where
  | run (invocation : Invocation)
  | help
  | version
  deriving DecidableEq, Repr

/-! ## Options -/

/-- What an option does. -/
inductive OptionKind where
  /-- It has a value. -/
  | value
  /-- It stands for itself. -/
  | switch
  /-- It asks about the program, and nothing after it matters. -/
  | question
  deriving DecidableEq, Repr

/-- An option with its name, its letter and what it does. -/
structure OptionSpec where
  name : String
  letter : Option Char
  kind : OptionKind
  deriving DecidableEq, Repr

def commonOptions : List OptionSpec := [
  ⟨"config", some 'c', .value⟩, ⟨"log-level", none, .value⟩, ⟨"help", some 'h', .question⟩]

/-- The options that may stand before the name of a command. -/
def leadingOptions : List OptionSpec :=
  commonOptions ++ [⟨"version", some 'V', .question⟩]

def inputOptions : List OptionSpec := [
  ⟨"parser", some 'p', .value⟩, ⟨"strict", none, .switch⟩, ⟨"format", some 'f', .value⟩]

def optionsOf? (command : String) : Option (List OptionSpec) :=
  match command with
  | "tokenize" => some (commonOptions ++ inputOptions)
  | "parse" =>
      some (commonOptions ++ inputOptions ++
        [⟨"max-nodes", none, .value⟩, ⟨"expected", none, .value⟩])
  | "derive" =>
      some (commonOptions ++ [⟨"seeds", none, .value⟩, ⟨"max-context", none, .value⟩,
        ⟨"max-trials", none, .value⟩, ⟨"format", some 'f', .value⟩])
  | "repair" =>
      some (commonOptions ++ [⟨"max-iterations", none, .value⟩, ⟨"format", some 'f', .value⟩])
  | _ => none

/-- An argument that has been recognized. -/
inductive Argument where
  | option (name value : String)
  | switch (name : String)
  | positional (text : String)
  deriving DecidableEq, Repr

/-- Arguments recognized in one word, and the option among them that still lacks its value. -/
structure Recognized where
  arguments : List Argument
  lacking : Option String
  deriving DecidableEq, Repr

/-- The option that a word of a name, and perhaps a value after an equals sign, stands for. -/
def readName? (specs : List OptionSpec) (word : List Char) : Option Recognized := do
  let name := String.ofList (word.takeWhile (· != '='))
  let spec ← specs.find? (·.name == name)
  match spec.kind, word.dropWhile (· != '=') with
  | .value, [] => return ⟨[], some name⟩
  | .value, _ :: value => return ⟨[.option name (String.ofList value)], none⟩
  | _, [] => return ⟨[.switch name], none⟩
  | _, _ :: _ => none

/-- The options that letters stand for; the letters after an option with a value are its value. -/
def readLetters? (specs : List OptionSpec) : List Char → Option Recognized
  | [] => some ⟨[], none⟩
  | letter :: rest => do
      let spec ← specs.find? (·.letter == some letter)
      match spec.kind, rest with
      | .value, [] => return ⟨[], some spec.name⟩
      | .value, '=' :: value => return ⟨[.option spec.name (String.ofList value)], none⟩
      | .value, value => return ⟨[.option spec.name (String.ofList value)], none⟩
      | .switch, rest => do
          let more ← readLetters? specs rest
          return { more with arguments := .switch spec.name :: more.arguments }
      | .question, _ => return ⟨[.switch spec.name], none⟩

/-- The arguments in one word; a hyphen alone is positional. -/
def recognize? (specs : List OptionSpec) (word : String) : Option Recognized :=
  match word.toList with
  | '-' :: '-' :: name => readName? specs name
  | '-' :: letter :: letters => readLetters? specs (letter :: letters)
  | _ => some ⟨[.positional word], none⟩

/-- Whether a word can be the value of the option before it. -/
def isValue (word : String) : Bool :=
  match word.toList with
  | '-' :: _ :: _ => false
  | _ => true

/-- Whether an argument asks about the program. -/
def asks (specs : List OptionSpec) : Argument → Bool
  | .switch name => specs.any fun spec => spec.name == name && spec.kind == .question
  | _ => false

/-- Recognizes arguments up to the first one that asks about the program, or up to the first
positional one if that is the name of a command.  The words from there on are returned. -/
def scan? (specs : List OptionSpec) (untilCommand : Bool) :
    List String → Option (List Argument × List String)
  | [] => some ([], [])
  | word :: words =>
      if word = "--" then
        if untilCommand then none else some (words.map .positional, [])
      else do
        let found ← recognize? specs word
        match found.lacking, words with
        | some name, value :: words => do
            guard (isValue value)
            let (arguments, rest) ← scan? specs untilCommand words
            return (found.arguments ++ .option name value :: arguments, rest)
        | some _, [] => none
        | none, words =>
            if found.arguments.any (asks specs) then return (found.arguments, [])
            else if untilCommand && found.arguments.contains (.positional word) then
              return ([], word :: words)
            else do
              let (arguments, rest) ← scan? specs untilCommand words
              return (found.arguments ++ arguments, rest)

/-! ## Reading commands -/

def positionals (arguments : List Argument) : List String :=
  arguments.filterMap fun argument =>
    match argument with
    | .positional text => some text
    | _ => none

/-- The value of an option, which may be given only once. -/
def valueOf? (arguments : List Argument) (name : String) : Option (Option String) :=
  let values := arguments.filterMap fun argument =>
    match argument with
    | .option other value => if other = name then some value else none
    | _ => none
  match values with
  | [] => some none
  | [value] => some (some value)
  | _ => none

/-- Whether a switch is given, which it may be only once. -/
def switchOf? (arguments : List Argument) (name : String) : Option Bool :=
  match (arguments.filter (· == .switch name)).length with
  | 0 => some false
  | 1 => some true
  | _ => none

/-- The count that an option gives. -/
def countOf? (arguments : List Argument) (name : String) : Option (Option Nat) := do
  match ← valueOf? arguments name with
  | some text => return some (← Settings.readCount? text.toList)
  | none => return none

/-- The format that an option gives, JSON by default. -/
def formatOf? {α : Type} (ofName? : String → Option α) (arguments : List Argument) : Option α := do
  ofName? ((← valueOf? arguments "format").getD "json")

def TokenFormat.ofName? (name : String) : Option TokenFormat :=
  match name with
  | "json" => some .json
  | "simple" => some .lines
  | _ => none

def ReportFormat.ofName? (name : String) : Option ReportFormat :=
  if name = "simple" then some .value else (TreeFormat.ofName? name).map .tree

def RowFormat.ofName? (name : String) : Option RowFormat :=
  match name with
  | "json" => some .json
  | "yaml" => some .yaml
  | _ => none

/-- The command with a name and arguments. -/
def readCommand? (name : String) (arguments : List Argument) : Option Command :=
  match name, positionals arguments with
  | "tokenize", [grammar, input] => do
      return .tokenize grammar input (← valueOf? arguments "parser")
        (← switchOf? arguments "strict") (← formatOf? TokenFormat.ofName? arguments)
  | "parse", [grammar, input] => do
      return .parse grammar input (← valueOf? arguments "parser")
        (← switchOf? arguments "strict") (← countOf? arguments "max-nodes")
        (← valueOf? arguments "expected") (← formatOf? ReportFormat.ofName? arguments)
  | "derive", [source, tree] => do
      return .derive source tree (← valueOf? arguments "seeds")
        (← countOf? arguments "max-context") (← countOf? arguments "max-trials")
        (← formatOf? RowFormat.ofName? arguments)
  | "repair", [grammar, input, tree] => do
      return .repair grammar input tree (← countOf? arguments "max-iterations")
        (← formatOf? RowFormat.ofName? arguments)
  | _, _ => none

/-- The question that arguments ask. -/
def questionOf? (arguments : List Argument) : Option Request :=
  if arguments.contains (.switch "version") then some .version
  else if arguments.contains (.switch "help") then some .help
  else none

/-- The request for help about a command, or about all of them. -/
def readHelp? : List String → Option Request
  | [] => some .help
  | [name] => if name = "help" ∨ (optionsOf? name).isSome then some .help else none
  | _ => none

/-- What a command line asks for; none if it is not understood. -/
def Request.read? (words : List String) : Option Request := do
  let (leading, rest) ← scan? leadingOptions true words
  match questionOf? leading, rest with
  | some question, _ => return question
  | none, [] => none
  | none, "help" :: rest => readHelp? rest
  | none, name :: rest => do
      let (arguments, _) ← scan? (← optionsOf? name) false rest
      match questionOf? arguments with
      | some question => return question
      | none => do
          let command ← readCommand? name arguments
          let settings := (← valueOf? arguments "config") <|> (← valueOf? leading "config")
          let logLevel := (← valueOf? arguments "log-level") <|> (← valueOf? leading "log-level")
          return .run ⟨settings, logLevel, command⟩

end RowGrammar.CommandLine
