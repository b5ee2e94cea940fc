import RowGrammar.SymbolPattern.Basic
import RowGrammar.SymbolPattern.Lexeme
import RowGrammar.Text.Digits

/-!
# Compiling parse patterns

A parse pattern is compiled lexeme by lexeme.  Groups that are still open wait on a stack, and the
first lexeme that does not fit is reported with the offset the reading has reached there.  The
result always holds exactly one capturing group, outside of all lookarounds.
-/

namespace RowGrammar.SymbolPattern

open RowGrammar.Text

/-- What a pair of parentheses means. -/
inductive GroupKind where
  | capturing
  | plain
  | look (direction : Direction) (negated : Bool)
  deriving DecidableEq, Repr

/-- A group being read: its finished branches and the items of the last one, last ones first. -/
structure Frame where
  kind : GroupKind
  branches : List SymbolPattern
  items : List SymbolPattern

namespace Frame

/-- A group of which nothing has been read. -/
def fresh (kind : GroupKind) : Frame := ⟨kind, [], []⟩

def push (frame : Frame) (item : SymbolPattern) : Frame :=
  { frame with items := item :: frame.items }

def branch (frame : Frame) : SymbolPattern :=
  ofItems frame.items.reverse

/-- Ends the branch being read and starts the next one. -/
def divide (frame : Frame) : Frame :=
  { frame with branches := frame.branch :: frame.branches, items := [] }

def body (frame : Frame) : SymbolPattern :=
  ofBranches (frame.branches.reverse ++ [frame.branch])

/-- The pattern that the whole group stands for. -/
def pattern (frame : Frame) : SymbolPattern :=
  match frame.kind with
  | .capturing => .capture frame.body
  | .plain => frame.body
  | .look direction negated => .look direction negated frame.body

end Frame

/-- What may come next. -/
inductive Expected where
  /-- An item, a bar or the end of a group. -/
  | item
  /-- The same, or a quantifier for the item before. -/
  | quantifier
  /-- The same as `item`, or a question mark right after the quantifier that ended at `stop`. -/
  | laziness (stop : Nat)
  | least
  /-- A comma or the closing brace after the least number. -/
  | comma (least : Nat)
  /-- The greatest number of repetitions or the closing brace. -/
  | most (least : Nat)
  /-- The closing brace; a greatest number that is out of range counts as missing. -/
  | brace (least : Nat) (most : Option Nat)
  /-- A member of a bracketed set or its closing bracket. -/
  | member (members : List NodeTypeId)
  /-- What follows a parenthesis at `offset`. -/
  | opened (offset : Nat)
  /-- What follows a question mark at `offset` that opens a special group. -/
  | special (offset : Nat)
  /-- What follows an angle bracket at `offset` that opens a lookbehind. -/
  | behind (offset : Nat)
  deriving DecidableEq, Repr

/-- What has been read of a pattern. -/
structure Reading where
  current : Frame
  outer : List Frame
  expected : Expected

namespace Reading

def start : Reading := ⟨.fresh .plain, [], .item⟩

/-- The reading after one more item. -/
def push (reading : Reading) (item : SymbolPattern) : Reading :=
  { reading with current := reading.current.push item, expected := .quantifier }

/-- The reading after the start of a group. -/
def opening (reading : Reading) (kind : GroupKind) : Reading :=
  ⟨.fresh kind, reading.current :: reading.outer, .item⟩

/-- The reading after a quantifier whose last character stands before `stop`. -/
def quantify (reading : Reading) (least : Nat) (most : Option Nat) (stop : Nat) : Reading :=
  match reading.current.items with
  | item :: items =>
      { reading with
        current := { reading.current with items := .loop item least most true :: items }
        expected := .laziness stop }
  | [] => { reading with expected := .laziness stop }

/-- The reading after the last quantifier is made lazy. -/
def makeLazy (reading : Reading) : Reading :=
  match reading.current.items with
  | .loop item least most _ :: items =>
      { reading with
        current := { reading.current with items := .loop item least most false :: items }
        expected := .item }
  | _ => { reading with expected := .item }

end Reading

/-- Adds a node type to a set kept in increasing order. -/
def insertMember (id : NodeTypeId) : List NodeTypeId → List NodeTypeId
  | [] => [id]
  | member :: members =>
      if id < member then id :: member :: members
      else if id = member then member :: members
      else member :: insertMember id members

/-- The set of some node types in increasing order. -/
def sortMembers (ids : List NodeTypeId) : List NodeTypeId :=
  ids.foldr insertMember []

/-- The number that digits denote, if it has at most 64 binary digits. -/
def countOf? (digits : List Char) : Option Nat :=
  if decimalValue digits < Nat.pow 2 64 then some (decimalValue digits) else none

section

variable (registry : Registry) (nodeType : String)

/-- The error for a pattern that cannot be read on at `offset`. -/
def malformed {α : Type} (offset : Nat) (reason : String) : Except GrammarError α :=
  .error (.malformedParsePattern nodeType offset reason)

/-- The node types that a name refers to. -/
def resolve (letters : List Char) : Except GrammarError (List NodeTypeId) :=
  match registry.resolve? (String.ofList letters) with
  | some ids => .ok ids
  | none => .error (.unresolvedReference nodeType (String.ofList letters))

/-- Reads a lexeme where an item, a bar or the end of a group may stand. -/
def readItem (reading : Reading) (placed : Placed) : Except GrammarError Reading :=
  match placed.lexeme with
  | .name letters => do
      let ids ← resolve registry nodeType letters
      return reading.push (.symbols (sortMembers ids))
  | .sign '.' => .ok (reading.push .any)
  | .sign '[' => .ok { reading with expected := .member [] }
  | .sign '(' => .ok { reading with expected := .opened placed.offset }
  | .sign '|' => .ok { reading with current := reading.current.divide, expected := .item }
  | .sign ')' =>
      match reading.outer with
      | around :: outer => .ok (Reading.push ⟨around, outer, .item⟩ reading.current.pattern)
      | [] => malformed nodeType placed.offset "unmatched ')'"
  | _ => malformed nodeType placed.offset "unexpected character"

def readLexeme (reading : Reading) (placed : Placed) : Except GrammarError Reading :=
  match reading.expected with
  | .item => readItem registry nodeType reading placed
  | .quantifier =>
      match placed.lexeme with
      | .sign '*' => .ok (reading.quantify 0 none (placed.offset + 1))
      | .sign '+' => .ok (reading.quantify 1 none (placed.offset + 1))
      | .sign '?' => .ok (reading.quantify 0 (some 1) (placed.offset + 1))
      | .sign '{' => .ok { reading with expected := .least }
      | _ => readItem registry nodeType reading placed
  | .laziness stop =>
      if placed = ⟨stop, .sign '?'⟩ then .ok reading.makeLazy
      else readItem registry nodeType reading placed
  | .least =>
      match placed.lexeme with
      | .number digits =>
          match countOf? digits with
          | some least => .ok { reading with expected := .comma least }
          | none =>
              malformed nodeType (placed.offset + digits.length) "expected a repetition count"
      | _ => malformed nodeType placed.offset "expected a repetition count"
  | .comma least =>
      match placed.lexeme with
      | .sign '}' => .ok (reading.quantify least (some least) (placed.offset + 1))
      | .sign ',' => .ok { reading with expected := .most least }
      | _ => malformed nodeType placed.offset "unclosed '\x7b'"
  | .most least =>
      match placed.lexeme with
      | .sign '}' => .ok (reading.quantify least none (placed.offset + 1))
      | .number digits => .ok { reading with expected := .brace least (countOf? digits) }
      | _ => malformed nodeType placed.offset "unclosed '\x7b'"
  | .brace least most =>
      match placed.lexeme with
      | .sign '}' =>
          if most.any (· < least) then
            malformed nodeType placed.offset "repetition bounds out of order"
          else .ok (reading.quantify least most (placed.offset + 1))
      | _ => malformed nodeType placed.offset "unclosed '\x7b'"
  | .member members =>
      match placed.lexeme with
      | .name letters => do
          let ids ← resolve registry nodeType letters
          return { reading with expected := .member (members ++ ids) }
      | .sign ']' =>
          if members.isEmpty then malformed nodeType (placed.offset + 1) "empty '[ ]'"
          else .ok (reading.push (.symbols (sortMembers members)))
      | _ => malformed nodeType placed.offset "expected a node type name in '[ ]'"
  | .opened offset =>
      if placed = ⟨offset + 1, .sign '?'⟩ then
        .ok { reading with expected := .special placed.offset }
      else readItem registry nodeType (reading.opening .capturing) placed
  | .special offset =>
      if placed = ⟨offset + 1, .sign ':'⟩ then .ok (reading.opening .plain)
      else if placed = ⟨offset + 1, .sign '='⟩ then .ok (reading.opening (.look .ahead false))
      else if placed = ⟨offset + 1, .sign '!'⟩ then .ok (reading.opening (.look .ahead true))
      else if placed = ⟨offset + 1, .sign '<'⟩ then
        .ok { reading with expected := .behind placed.offset }
      else malformed nodeType (offset + 1) "unknown group type"
  | .behind offset =>
      if placed = ⟨offset + 1, .sign '='⟩ then .ok (reading.opening (.look .behind false))
      else if placed = ⟨offset + 1, .sign '!'⟩ then .ok (reading.opening (.look .behind true))
      else malformed nodeType (offset + 1) "expected '=' or '!' after '(?<'"

/-- The pattern that has been read when the lexemes end at `stop`. -/
def finish (reading : Reading) (stop : Nat) : Except GrammarError SymbolPattern :=
  match reading.expected with
  | .least => malformed nodeType stop "expected a repetition count"
  | .comma _ | .most _ | .brace _ _ => malformed nodeType stop "unclosed '\x7b'"
  | .member _ => malformed nodeType stop "unclosed '['"
  | .opened _ => malformed nodeType stop "unclosed '('"
  | .special offset => malformed nodeType (offset + 1) "unknown group type"
  | .behind offset => malformed nodeType (offset + 1) "expected '=' or '!' after '(?<'"
  | .item | .quantifier | .laziness _ =>
      if reading.outer.isEmpty then .ok reading.current.body
      else malformed nodeType stop "unclosed '('"

/-- The pattern that a notation describes, with as many capturing groups as it shows. -/
def read (pattern : String) : Except GrammarError SymbolPattern := do
  let chars := pattern.toList
  let reading ← (lexemesFrom 0 chars).foldlM (readLexeme registry nodeType) .start
  finish nodeType reading chars.length

/-- Compiles the parse pattern of a node type.  Without a capturing group the whole match is
captured. -/
def compile (pattern : String) : Except GrammarError SymbolPattern := do
  let compiled ← read registry nodeType pattern
  if compiled.capturesInLook then
    malformed nodeType pattern.toList.length "capturing group inside a lookaround"
  else
    match compiled.captures with
    | 0 => return .capture compiled
    | 1 => return compiled
    | found => .error (.captureGroupCount nodeType found)

end

end RowGrammar.SymbolPattern
