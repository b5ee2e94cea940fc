import RowGrammar.CommandLine.Arguments
import RowGrammar.Derivation.Derive
import RowGrammar.Grammar.Document
import RowGrammar.Settings.Layers
import RowGrammar.Tree.Compare
import RowGrammar.Tree.Simplify

/-!
# Running commands

A command reads its files and the standard input, and leaves an output, messages and an exit code.
-/

namespace RowGrammar.CommandLine

open RowGrammar.Text

/-- Why a command fails. -/
inductive CommandError where
  | settings (error : SettingsError)
  | invalidLogLevel (level : String)
  | unreadable (path reason : String)
  | invalidRows (path : String)
  | invalidTree (path : String)
  | grammar (path : String) (error : GrammarError)
  | tokenize (error : TokenizeError)
  | run (error : RunError)
  | derive (error : DeriveError)
  deriving DecidableEq, Repr

/-- The wording of what is behind an error of a run. -/
def causeOf : RunError → String
  | .grammar error => error.message
  | .tokenize error => error.message
  | .parse error => error.message

/-- The wording of an error, followed by its cause. -/
def CommandError.message : CommandError → String
  | .settings error => error.message
  | .invalidLogLevel level => "invalid log level '" ++ level ++ "'"
  | .unreadable path reason => "reading " ++ path ++ ": " ++ reason
  | .invalidRows path => "parsing grammar " ++ path
  | .invalidTree path => "parsing tree " ++ path
  | .grammar path error => "loading grammar " ++ path ++ ": " ++ error.message
  | .tokenize error => error.message
  | .run error => error.message ++ ": " ++ causeOf error
  | .derive error => error.message

/-- What a command works with. -/
structure Surroundings where
  /-- The text of a file, or the reason for which it cannot be read. -/
  file : String → Except String String
  input : String

/-- What is left of the standard input, and the lines reported so far. -/
structure Console where
  input : String
  messages : List String
  deriving DecidableEq, Repr

/-- A step of a command. -/
abbrev Action := ReaderT Surroundings (EStateM CommandError Console)

/-- The result of a command: the text to print, and whether it is what was asked for. -/
structure Output where
  text : String
  success : Bool
  deriving DecidableEq, Repr

def report (line : String) : Action Unit :=
  modify fun console => { console with messages := console.messages ++ [line] }

/-- Reports warnings, unless only graver messages are wanted. -/
def warn (level : LogLevel) (warnings : List String) : Action Unit :=
  if level.reportsWarnings then warnings.forM fun warning => report (" [WARN] " ++ warning)
  else pure ()

/-- Passes on a value or fails. -/
def orFail {ε α : Type} (error : ε → CommandError) : Except ε α → Action α
  | .ok value => pure value
  | .error cause => throw (error cause)

/-! ## Reading -/

/-- The text of a file, or of the standard input for a hyphen; that can be read only once. -/
def readText (path : String) : Action String := do
  if path = "-" then
    let console ← get
    set { console with input := "" }
    return console.input
  else orFail (.unreadable path) ((← read).file path)

def fileName (path : String) : List Char :=
  let chars := path.toList.reverse.dropWhile (· == '/')
  (chars.takeWhile (· != '/')).reverse

/-- The part of a file name after its last dot, if there is something before that dot. -/
def fileExtension? (path : String) : Option String :=
  let name := (fileName path).reverse
  match name.dropWhile (· != '.') with
  | _ :: _ :: _ =>
      if fileName path = ['.', '.'] then none
      else some (String.ofList (name.takeWhile (· != '.')).reverse)
  | _ => none

def isYaml (path : String) : Bool :=
  fileExtension? path == some "yaml" || fileExtension? path == some "yml"

def readRows (path : String) : Action (List Row) := do
  let text ← readText path
  match if isYaml path then Row.readYaml? text else Row.readJson? text with
  | some rows => return rows
  | none => throw (.invalidRows path)

def readTree (path : String) : Action Tree := do
  let text ← readText path
  match (Json.read? text).bind Tree.ofJson? with
  | some tree => return tree
  | none => throw (.invalidTree path)

/-- The engine of a grammar file.  What there is to say about the grammar is reported. -/
def readEngine (level : LogLevel) (path : String) : Action Engine := do
  let rows ← readRows path
  let grammar ← orFail (.grammar path) (Grammar.load rows)
  warn level grammar.warnings
  orFail (.grammar path) (Engine.ofGrammar grammar)

/-! ## Commands -/

def tokensText (registry : Registry) (tokens : List Token) : TokenFormat → String
  | .json =>
      (Json.array (tokens.map fun token => .array [
        .string (registry.name token.nodeType), .string token.text,
        .integer token.index])).pretty ++ "\n"
  | .lines =>
      String.join (tokens.map fun token =>
        registry.name token.nodeType ++ " " ++ quoted token.text ++ "\n")

/-- A text with a line break at its end. -/
def terminated (text : String) : String :=
  if text.toList.getLast? = some '\n' then text else text ++ "\n"

def treeText (registry : Registry) (tree : Tree) : ReportFormat → String
  | .tree format => terminated (format.render tree)
  | .value => (tree.simplify registry).pretty ++ "\n"

def rowsText (rows : List Row) : RowFormat → String
  | .json => Row.jsonText rows
  | .yaml => Row.yamlText rows

/-- The line about a reduction that left the expected tree. -/
def divergenceText (validSteps : Nat) (divergence : Divergence) : String :=
  "diverged after " ++ decimal validSteps ++ " valid reductions: " ++ divergence.nodeType ++
    " in precedence group " ++ decimal (divergence.group + 1) ++ " of parser " ++
    divergence.parser

/-- Reports how the result of a parse differs from the expected tree, and whether it does. -/
def compareWith (expected : Tree) (result : ParseReport) : Action Bool := do
  if let some divergence := result.divergence then
    report (divergenceText result.validSteps divergence)
  let differences := result.tree.differences expected
  for difference in differences do
    report difference.text
  return !differences.isEmpty

def runTokenize (settings : Settings) (level : LogLevel) (grammar input : String)
    (parser : Option String) (format : TokenFormat) : Action Output := do
  let engine ← readEngine level grammar
  let text ← readText input
  let tokens ← orFail .tokenize
    (engine.tokenize text { settings.tokenizeOptions with parser })
  return ⟨tokensText engine.grammar.registry tokens format, true⟩

def runParse (settings : Settings) (level : LogLevel) (grammar input : String)
    (parser : Option String) (maxNodes : Option Nat) (expected : Option String)
    (format : ReportFormat) : Action Output := do
  let engine ← readEngine level grammar
  let text ← readText input
  let expected ← expected.mapM readTree
  let options := settings.parseOptions
  let result ← orFail .run (engine.parse text
    { options with parser, expected, maxNodes := maxNodes <|> options.maxNodes })
  let output := treeText engine.grammar.registry result.tree format
  match expected with
  | none => return ⟨output, true⟩
  | some expected => return ⟨output, !(← compareWith expected result)⟩

def runDerive (settings : Settings) (level : LogLevel) (source tree : String)
    (seeds : Option String) (maxContext maxTrials : Option Nat) (format : RowFormat) :
    Action Output := do
  let text ← readText source
  let example_ ← readTree tree
  let seeds ← seeds.mapM readRows
  let options := {
    settings.derive with
    maxContext := maxContext.getD settings.derive.maxContext
    maxTrials := maxTrials.getD settings.derive.maxTrials }
  let derivation := Derivation.deriveReport text example_ (seeds.getD []) options
  warn level derivation.warnings
  match ← orFail .derive derivation.outcome with
  | some derived => return ⟨rowsText derived.rows format, true⟩
  | none => do
      report ("no grammar found within " ++ decimal options.maxContext ++
        " context symbols and " ++ decimal options.maxTrials ++ " trials")
      return ⟨"", false⟩

def runRepair (settings : Settings) (level : LogLevel) (grammar input tree : String)
    (maxIterations : Option Nat) (format : RowFormat) : Action Output := do
  let engine ← readEngine level grammar
  let text ← readText input
  let expected ← readTree tree
  let options := {
    settings.repair with
    maxIterations := maxIterations.getD settings.repair.maxIterations }
  let (outcome, repaired) := engine.repair text expected options
  match ← orFail .run outcome with
  | .converged .. => return ⟨rowsText repaired.grammar.toRows format, true⟩
  | .nonConvergent relocations reason => do
      report ("repair failed after " ++ decimal relocations ++ " relocations: " ++
        reason.message)
      return ⟨"", false⟩

/-! ## Whole command lines -/

def readSettings (invocation : Invocation) : Action Settings := do
  let layers : SettingsLayers := {}
  let layers ←
    match invocation.settings with
    | some path => do
        let content := ((← read).file path).toOption
        pure (layers.withFile ⟨path, content⟩)
    | none => pure layers
  let layers ←
    match invocation.logLevel with
    | some level => orFail .settings (layers.withLogLevel level)
    | none => pure layers
  let layers := if invocation.command.isStrict then layers.withStrict else layers
  orFail .settings layers.build

def runInvocation (invocation : Invocation) : Action Output := do
  let settings ← readSettings invocation
  match LogLevel.ofName? settings.logLevel with
  | none => throw (.invalidLogLevel settings.logLevel)
  | some level =>
      match invocation.command with
      | .tokenize grammar input parser _ format =>
          runTokenize settings level grammar input parser format
      | .parse grammar input parser _ maxNodes expected format =>
          runParse settings level grammar input parser maxNodes expected format
      | .derive source tree seeds maxContext maxTrials format =>
          runDerive settings level source tree seeds maxContext maxTrials format
      | .repair grammar input tree maxIterations format =>
          runRepair settings level grammar input tree maxIterations format

/-- How a command line ends: its exit code and what it writes to the two outputs. -/
structure Ending where
  code : Nat
  output : String
  messages : String
  deriving DecidableEq, Repr

/-- The name and the version of the program. -/
def versionText : String := "drx 0.1.0\n"

/-- A short description of the command line. -/
def usageText : String :=
  "Usage: drx [--config FILE] [--log-level LEVEL] COMMAND ...\n" ++
    "  tokenize GRAMMAR INPUT [--parser NAME] [--strict] [--format json|simple]\n" ++
    "  parse GRAMMAR INPUT [--parser NAME] [--strict] [--max-nodes COUNT] [--expected TREE]\n" ++
    "    [--format json|treeviz|sexp|simple]\n" ++
    "  derive SOURCE TREE [--seeds GRAMMAR] [--max-context COUNT] [--max-trials COUNT]\n" ++
    "    [--format json|yaml]\n" ++
    "  repair GRAMMAR INPUT TREE [--max-iterations COUNT] [--format json|yaml]\n"

/-- Lines one after the other. -/
def linesText (lines : List String) : String :=
  String.join (lines.map (· ++ "\n"))

/-- Runs an invocation.  The exit code is 1 after an error and 2 without the desired result. -/
def Invocation.run (invocation : Invocation) (surroundings : Surroundings) : Ending :=
  match (runInvocation invocation).run surroundings ⟨surroundings.input, []⟩ with
  | .ok output console =>
      ⟨if output.success then 0 else 2, output.text, linesText console.messages⟩
  | .error error console =>
      ⟨1, "", linesText (console.messages ++ ["Error: " ++ error.message])⟩

/-- Runs a command line; one that is not understood ends with the exit code 2. -/
def run (words : List String) (surroundings : Surroundings) : Ending :=
  match Request.read? words with
  | none => ⟨2, "", usageText⟩
  | some .help => ⟨0, usageText, ""⟩
  | some .version => ⟨0, versionText, ""⟩
  | some (.run invocation) => invocation.run surroundings

/-- The paths that a command line reads, the standard input apart. -/
def pathsOf (words : List String) : List String :=
  match Request.read? words with
  | some (.run invocation) =>
      (invocation.settings.toList ++ invocation.command.paths).filter (· != "-")
  | _ => []

end RowGrammar.CommandLine
