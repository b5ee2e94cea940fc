import RowGrammar.Derivation.Search
import RowGrammar.Repair

/-!
# Settings

How the commands work unless their arguments say otherwise.
-/

namespace RowGrammar

/-- How much is reported besides the results, from nothing to everything. -/
inductive LogLevel where
  | off
  | error
  | warn
  | info
  | debug
  | trace
  deriving DecidableEq, Repr

namespace LogLevel

/-- The levels from the quietest on. -/
def all : List LogLevel := [.off, .error, .warn, .info, .debug, .trace]

def name : LogLevel → String
  | .off => "off"
  | .error => "error"
  | .warn => "warn"
  | .info => "info"
  | .debug => "debug"
  | .trace => "trace"

/-- A text with the ASCII letters in lower case. -/
def lowerCase (text : String) : String :=
  String.ofList (text.toList.map Char.toLower)

/-- The level with a name, in letters of either case. -/
def ofName? (text : String) : Option LogLevel :=
  all.find? (·.name == lowerCase text)

def reportsWarnings : LogLevel → Bool
  | .off | .error => false
  | _ => true

end LogLevel

structure Settings where
  /-- Whether unmatched text is an error when tokenizing. -/
  strictTokens : Bool := false
  /-- Whether unmatched text and unreduced symbols are errors when parsing. -/
  strictParse : Bool := false
  maxNodes : Option Nat := none
  derive : Derivation.DeriveOptions := {}
  repair : RepairOptions := {}
  /-- The name of the log level, which need not be a valid one. -/
  logLevel : String := LogLevel.warn.name
  deriving DecidableEq, Repr

namespace Settings

def tokenizeOptions (settings : Settings) : TokenizeOptions :=
  { strict := settings.strictTokens }

def parseOptions (settings : Settings) : ParseOptions :=
  { strict := settings.strictParse, maxNodes := settings.maxNodes }

end Settings

end RowGrammar
