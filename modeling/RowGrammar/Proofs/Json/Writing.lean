import Mathlib.Data.List.Forall2
import RowGrammar.Proofs.Json.Members
import RowGrammar.Proofs.Json.Sentences
import RowGrammar.Proofs.Json.Spelling
import RowGrammar.Proofs.Token.Cutting

/-!
# Writing JSON in lexemes

A value can be written in many ways: its strings can be spelled in different ways, and the members
of an object may stand in any order.  Whichever way it is written, its lexemes are a sentence for
the value, and of any two neighbours among them one is a bracket, a colon or a comma.
-/

namespace RowGrammar.Json

open Simplify

mutual

/-- A value as it may be written, one lexeme after the other. -/
inductive Written : Json → List (List Char) → Prop where
  | null : Written .null [['n', 'u', 'l', 'l']]
  | true : Written (.bool true) [['t', 'r', 'u', 'e']]
  | false : Written (.bool false) [['f', 'a', 'l', 's', 'e']]
  | integer {value : Int} {digits : List Char} :
      IntegerSpelling value digits → Written (.integer value) [digits]
  | string {text : String} {quoted : List Char} :
      StringSpelling text quoted → Written (.string text) [quoted]
  | emptyArray : Written (.array []) [['['], [']']]
  | array {items : List Json} {lexemes : List (List Char)} :
      WrittenItems items lexemes → Written (.array items) (['['] :: (lexemes ++ [[']']]))
  | emptyObject : Written (.object []) [['{'], ['}']]
  | object {members listed : List (String × Json)} {lexemes : List (List Char)} :
      Ordered members → listed.Perm members → WrittenMembers listed lexemes →
      Written (.object members) (['{'] :: (lexemes ++ [['}']]))

/-- Values with commas between them. -/
inductive WrittenItems : List Json → List (List Char) → Prop where
  | last {item : Json} {lexemes : List (List Char)} :
      Written item lexemes → WrittenItems [item] lexemes
  | cons {item : Json} {items : List Json} {lexemes others : List (List Char)} :
      Written item lexemes → WrittenItems items others →
      WrittenItems (item :: items) (lexemes ++ [','] :: others)

/-- Keys and values, with colons between them and commas between the members. -/
inductive WrittenMembers : List (String × Json) → List (List Char) → Prop where
  | last {key : String} {value : Json} {quoted : List Char} {lexemes : List (List Char)} :
      StringSpelling key quoted → Written value lexemes →
      WrittenMembers [(key, value)] (quoted :: [':'] :: lexemes)
  | cons {key : String} {value : Json} {members : List (String × Json)} {quoted : List Char}
      {lexemes others : List (List Char)} :
      StringSpelling key quoted → Written value lexemes → WrittenMembers members others →
      WrittenMembers ((key, value) :: members) (quoted :: [':'] :: (lexemes ++ [','] :: others))

end

/-! ## The marks of lexemes -/

def Bracket.opening : Bracket → Char
  | .square => '['
  | .curly => '{'

def Bracket.closing : Bracket → Char
  | .square => ']'
  | .curly => '}'

/-- The lexemes and the marks that they are. -/
inductive Lexeme : Mark → List Char → Prop where
  | opening (bracket : Bracket) : Lexeme ⟨.opening bracket, none⟩ [bracket.opening]
  | closing (bracket : Bracket) : Lexeme ⟨.closing bracket, none⟩ [bracket.closing]
  | colon : Lexeme ⟨.colon, none⟩ [':']
  | comma : Lexeme ⟨.comma, none⟩ [',']
  | string {text : String} {quoted : List Char} :
      StringSpelling text quoted → Lexeme ⟨.text, some (.string text)⟩ quoted
  | integer {value : Int} {digits : List Char} :
      IntegerSpelling value digits → Lexeme ⟨.atom, some (.integer value)⟩ digits
  | true : Lexeme ⟨.atom, some (.bool true)⟩ ['t', 'r', 'u', 'e']
  | false : Lexeme ⟨.atom, some (.bool false)⟩ ['f', 'a', 'l', 's', 'e']
  | null : Lexeme ⟨.atom, some .null⟩ ['n', 'u', 'l', 'l']

/-- A mark without a value, which can be told from its neighbours without blanks. -/
def Mark.IsSign (mark : Mark) : Prop :=
  mark.value = none

/-- Lexemes that take a reader from one place in a sentence to another. -/
def Leads (reader : Reader) (lexemes : List (List Char)) (later : Reader) : Prop :=
  ∃ marks, List.Forall₂ Lexeme marks lexemes ∧ KeptApart Mark.IsSign marks ∧
    reader.readAll marks = some later

theorem Leads.nil (reader : Reader) : Leads reader [] reader :=
  ⟨[], .nil, .nil, rfl⟩

theorem Leads.single {reader later : Reader} {mark : Mark} {lexeme : List Char}
    (is : Lexeme mark lexeme) (reads : reader.read mark = some later) :
    Leads reader [lexeme] later :=
  ⟨[mark], .cons is .nil, .singleton _, by rw [Reader.readAll_cons, reads]; rfl⟩

/-- Lexemes on both sides of a sign. -/
theorem Leads.join {reader middle next later : Reader} {mark : Mark} {lexeme : List Char}
    {lexemes others : List (List Char)} (before : Leads reader lexemes middle)
    (is : Lexeme mark lexeme) (sign : mark.IsSign) (reads : middle.read mark = some next)
    (after : Leads next others later) : Leads reader (lexemes ++ lexeme :: others) later := by
  obtain ⟨marks, are, apart, leads⟩ := before
  obtain ⟨rest, others, apart', goes⟩ := after
  refine ⟨marks ++ mark :: rest, List.rel_append are (.cons is others), apart.join sign apart', ?_⟩
  rw [Reader.readAll_append, leads, Option.bind_some, Reader.readAll_cons, reads]
  exact goes

/-- Lexemes in brackets. -/
theorem Leads.enclosed (bracket : Bracket) {turn : Turn} {values : List Json}
    {levels : List Level} {later : Reader} {lexemes : List (List Char)}
    (closes : turn.closes = true) (puts : Reader.put levels (bracket.complete values) = some later)
    (inside : Leads (.inside (⟨bracket, .first, []⟩ :: levels)) lexemes
      (.inside (⟨bracket, turn, values⟩ :: levels))) :
    Leads (.inside levels) ([bracket.opening] :: (lexemes ++ [[bracket.closing]])) later := by
  refine Leads.join (.nil _) (.opening bracket) rfl rfl ?_
  refine inside.join (.closing bracket) rfl ?_ (.nil _)
  exact (if_pos ⟨rfl, closes⟩).trans puts

/-! ## Reading what is written -/

/-- A member that has been put together. -/
def member (entry : String × Json) : Json :=
  .array [.string entry.1, entry.2]

theorem collectList_member (members listed : List (String × Json)) :
    collectList members (listed.map member) = insertAll members listed := by
  induction listed generalizing members with
  | nil => rfl
  | cons entry listed induction =>
      rw [List.map_cons, collectList, induction]
      rfl

/-- A string before a colon is the key of a member. -/
theorem leads_member {key : String} {value : Json} {quoted : List Char}
    {lexemes : List (List Char)} {turn : Turn} (values : List Json) (outer : List Level)
    (spells : StringSpelling key quoted) (expects : turn.expects = true)
    (leads : ∀ levels later, Reader.put levels value = some later →
      Leads (.inside levels) lexemes later) :
    Leads (.inside (⟨.curly, turn, values⟩ :: outer)) (quoted :: [':'] :: lexemes)
      (.inside (⟨.curly, .after, values ++ [member (key, value)]⟩ :: outer)) := by
  have named : Leads (.inside (⟨.curly, turn, values⟩ :: outer)) [quoted]
      (.inside (⟨.curly, .key (.string key), values⟩ :: outer)) :=
    .single (.string spells) (if_pos expects)
  exact named.join .colon rfl rfl (leads _ _ rfl)

mutual

/-- What is written of a value reads as the value. -/
theorem Written.leads {value : Json} {lexemes : List (List Char)} (written : Written value lexemes)
    (levels : List Level) (later : Reader) (puts : Reader.put levels value = some later) :
    Leads (.inside levels) lexemes later :=
  match written with
  | .null => .single .null puts
  | .true => .single .true puts
  | .false => .single .false puts
  | .integer spells => .single (.integer spells) puts
  | .string spells => .single (.string spells) (Reader.putText_eq_put puts)
  | .emptyArray => .enclosed .square rfl puts (.nil _)
  | .array items => .enclosed .square rfl puts (items.leads .first [] levels rfl)
  | .emptyObject => .enclosed .curly rfl puts (.nil _)
  | .object ordered same members => by
      refine .enclosed .curly rfl ?_ (members.leads .first [] levels rfl)
      rw [Bracket.complete, List.nil_append, collectList_member, insertAll_perm ordered same]
      exact puts

theorem WrittenItems.leads {items : List Json} {lexemes : List (List Char)}
    (written : WrittenItems items lexemes) (turn : Turn) (values : List Json) (outer : List Level)
    (expects : turn.expects = true) :
    Leads (.inside (⟨.square, turn, values⟩ :: outer)) lexemes
      (.inside (⟨.square, .after, values ++ items⟩ :: outer)) :=
  match written with
  | .last item => item.leads _ _ (if_pos expects)
  | .cons item items => by
      rw [List.append_cons values]
      have first := item.leads (⟨.square, turn, values⟩ :: outer) _ (if_pos expects)
      exact first.join .comma rfl rfl (items.leads .next _ outer rfl)

theorem WrittenMembers.leads {members : List (String × Json)} {lexemes : List (List Char)}
    (written : WrittenMembers members lexemes) (turn : Turn) (values : List Json)
    (outer : List Level) (expects : turn.expects = true) :
    Leads (.inside (⟨.curly, turn, values⟩ :: outer)) lexemes
      (.inside (⟨.curly, .after, values ++ members.map member⟩ :: outer)) :=
  match written with
  | .last key value => leads_member values outer key expects value.leads
  | .cons key value members => by
      rw [List.map_cons, List.append_cons values]
      have first := leads_member values outer key expects value.leads
      exact first.join .comma rfl rfl (members.leads .next _ outer rfl)

end

end RowGrammar.Json
