import RowGrammar.Number.Shortest
import RowGrammar.Settings.Basic
import RowGrammar.Toml.Scalar

/-!
# Settings as values

Settings are kept in sections, and each may be given as a value of another kind: truth values as
numbers or words, counts as texts, truth values or fractions, and texts as any scalar.
-/

namespace RowGrammar.Settings

open RowGrammar.Text

def maxCount : Nat := Nat.pow 2 64 - 1

/-- The nearest whole number, away from zero from halfway and at most the largest count; zero for
negative numbers. -/
def roundCount (number : Binary64) : Nat :=
  if number.negative then 0
  else
    min maxCount
      (if number.exponent < 0 then
        (2 * number.mantissa + Nat.pow 2 number.exponent.natAbs) /
          Nat.pow 2 (number.exponent.natAbs + 1)
      else number.mantissa * Nat.pow 2 number.exponent.natAbs)

/-- The truth value that a word stands for. -/
def wordTruth? (word : String) : Option Bool :=
  match word with
  | "true" | "on" | "yes" => some true
  | "false" | "off" | "no" => some false
  | _ => none

/-- The count that digits denote, with an optional plus sign. -/
def readCount? (text : List Char) : Option Nat :=
  let digits :=
    match text with
    | '+' :: digits => digits
    | digits => digits
  if digits.isEmpty || !digits.all isAsciiDigit then none
  else if decimalValue digits ≤ maxCount then some (decimalValue digits)
  else none

def truth? : Toml → Option Bool
  | .bool value => some value
  | .integer value => some (value ≠ 0)
  | .real value => some (value.mantissa ≠ 0)
  | .infinity _ | .notANumber => some true
  | .string text =>
      match LogLevel.lowerCase text with
      | "1" => some true
      | "0" => some false
      | word => wordTruth? word
  | .array _ | .table _ => none

def count? : Toml → Option Nat
  | .bool value => some value.toNat
  | .integer value => if 0 ≤ value then some value.toNat else none
  | .real value => some (roundCount value)
  | .infinity negative => some (if negative then 0 else maxCount)
  | .notANumber => some 0
  | .string text =>
      match wordTruth? (LogLevel.lowerCase text) with
      | some value => some value.toNat
      | none => readCount? text.toList
  | .array _ | .table _ => none

/-- A decimal without exponent, and without a point if it is whole. -/
def plainDecimal (number : Decimal) : List Char :=
  let point : Int := number.digits.length + number.exponent
  if 0 ≤ number.exponent then
    number.digits ++ List.replicate number.exponent.natAbs '0'
  else if 0 < point then
    number.digits.take point.natAbs ++ '.' :: number.digits.drop point.natAbs
  else '0' :: '.' :: (List.replicate point.natAbs '0' ++ number.digits)

/-- A number without exponent. -/
def plainText (number : Binary64) : String :=
  let digits := if number.mantissa = 0 then ['0'] else plainDecimal number.shortest
  String.ofList (if number.negative then '-' :: digits else digits)

def text? : Toml → Option String
  | .bool value => some (if value then "true" else "false")
  | .integer value => some ((if value < 0 then "-" else "") ++ decimal value.natAbs)
  | .real value => some (plainText value)
  | .infinity negative => some (if negative then "-inf" else "inf")
  | .notANumber => some "NaN"
  | .string text => some text
  | .array _ | .table _ => none

/-- A setting of a section: an entry with a name, or an item at a position. -/
def field? (section_ : Toml) (index : Nat) (name : String) : Option Toml :=
  match section_ with
  | .table entries => entries.lookup name
  | .array items => items[index]?
  | _ => none

/-- A limit; zero stands for none. -/
def limit (count : Nat) : Option Nat :=
  if count = 0 then none else some count

/-- The settings that a table of sections holds. -/
def ofToml? (root : Toml) : Option Settings := do
  let tokenize ← field? root 0 "tokenize"
  let parse ← field? root 1 "parse"
  let derive ← field? root 2 "derive"
  let repair ← field? root 3 "repair"
  let log ← field? root 4 "log"
  return {
    strictTokens := ← truth? (← field? tokenize 0 "throw_on_error")
    strictParse := ← truth? (← field? parse 0 "throw_on_error")
    maxNodes := limit (← count? (← field? parse 1 "max_nodes"))
    derive := {
      maxContext := ← count? (← field? derive 0 "max_context")
      maxTrials := ← count? (← field? derive 1 "max_trials")
      maxRepairIterations := ← count? (← field? derive 2 "max_repair_iterations") }
    repair := {
      maxIterations := ← count? (← field? repair 0 "max_iterations")
      maxNodes := limit (← count? (← field? repair 1 "max_nodes")) }
    logLevel := ← text? (← field? log 0 "level") }

def limitCount (limit : Option Nat) : Toml :=
  .integer (limit.getD 0)

/-- The table of sections that holds settings. -/
def toToml (settings : Settings) : Toml :=
  .table [
    ("tokenize", .table [("throw_on_error", .bool settings.strictTokens)]),
    ("parse", .table [
      ("throw_on_error", .bool settings.strictParse),
      ("max_nodes", limitCount settings.maxNodes)]),
    ("derive", .table [
      ("max_context", .integer settings.derive.maxContext),
      ("max_trials", .integer settings.derive.maxTrials),
      ("max_repair_iterations", .integer settings.derive.maxRepairIterations)]),
    ("repair", .table [
      ("max_iterations", .integer settings.repair.maxIterations),
      ("max_nodes", limitCount settings.repair.maxNodes)]),
    ("log", .table [("level", .string settings.logLevel)])]

end RowGrammar.Settings
