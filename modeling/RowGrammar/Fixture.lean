import RowGrammar.Grammar.Row

/-!
# Fixtures

Small grammars to try things out on.
-/

namespace RowGrammar.Fixture

/-- A row for a token of a group. -/
def operandToken (parser nodeType pattern group : String) : Row :=
  { Row.token parser nodeType pattern with group }

/-- Two numbers make a sum; blanks are dropped. -/
def sum : List Row := [
  .token "main" "NUM" "\\d+",
  .token "main" "WS" "\\s+",
  .production "main" "SUM" "NUM NUM" "1"]

/-- The tokens of arithmetic. -/
def arithmeticTokens : List Row := [
  operandToken "calc" "Num" "\\d+" "Operand",
  .token "calc" "WS" "\\s+",
  .token "calc" "Plus" "\\+",
  .token "calc" "Times" "\\*"]

/-- A production of arithmetic. -/
def arithmeticProduction (nodeType pattern precedence : String) : Row :=
  { Row.production "calc" nodeType pattern precedence with group := "Operand" }

/-- Sums, products and parentheses, each with a precedence of its own. -/
def arithmetic : List Row :=
  arithmeticTokens ++ [
    .token "calc" "LParen" "\\(",
    .token "calc" "RParen" "\\)",
    arithmeticProduction "Paren" "LParen . RParen" "1",
    arithmeticProduction "Product" "Operand Times Operand" "2",
    arithmeticProduction "Sum" "Operand Plus Operand (?! Times )" "3"]

/-- Sums and products of the same precedence, so that `1+2*3` becomes a product until its rules
are put in order. -/
def eagerSum : List Row :=
  arithmeticTokens ++ [
    arithmeticProduction "Sum" "Operand Plus Operand" "1",
    arithmeticProduction "Product" "Operand Times Operand" "1"]

/-- A token of the JSON grammar that is a value. -/
def valueToken (nodeType pattern primitiveType : String) : Row :=
  { Row.token "json" nodeType pattern with primitiveType, group := "Value" }

/-- A production of the JSON grammar. -/
def valueProduction (nodeType pattern precedence primitiveType group : String) : Row :=
  { Row.production "json" nodeType pattern precedence with primitiveType, group }

/-- JSON, with primitive types. -/
def json : List Row := [
  .token "json" "WS" "\\s+",
  .token "json" "LBrace" "\\\x7b",
  .token "json" "RBrace" "\\\x7d",
  .token "json" "LBracket" "\\[",
  .token "json" "RBracket" "\\]",
  .token "json" "Colon" ":",
  .token "json" "Comma" ",",
  valueToken "String" "\"(?:[^\"\\\\]|\\\\.)*\"" "string",
  valueToken "Number" "-?\\d+(?:\\.\\d+)?" "number",
  valueToken "Boolean" "true|false" "boolean",
  valueToken "Null" "null" "null",
  valueProduction "Member" "String Colon Value" "1" "member" "",
  valueProduction "Object" "LBrace (?: Member (?: Comma Member )* )? RBrace" "2" "object" "Value",
  valueProduction "Array" "LBracket (?: Value (?: Comma Value )* )? RBracket" "2" "array" "Value"]

/-- The rows with a name. -/
def ofName? (name : String) : Option (List Row) :=
  match name with
  | "sum" => some sum
  | "arithmetic" => some arithmetic
  | "eager_sum" => some eagerSum
  | "json" => some json
  | _ => none

end RowGrammar.Fixture
