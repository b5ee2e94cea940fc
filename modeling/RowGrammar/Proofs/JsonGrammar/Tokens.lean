import RowGrammar.Proofs.Json.Writing
import RowGrammar.Proofs.Regex.Literal
import RowGrammar.Proofs.Tables

/-!
# The tokens of the JSON grammar

Whatever is a lexeme of JSON is a token of the grammar, and what follows it does not matter as long
as a number is not followed by another digit or a point.
-/

namespace RowGrammar.JsonGrammar

open Regex RowGrammar.Text Json

/-! ## Tables -/

/-- The characters that stand for themselves in a string. -/
def plainText : CharSet :=
  .bracketed (.complement (.union (.union .nothing (.singleton '"')) (.singleton '\\')))

/-- A character that stands for itself in a string, or an escape. -/
def textPart : Regex :=
  .group none (.either (.char plainText)
    (.seq (.char (.singleton '\\')) (.char (.complement (.singleton '\n')))))

def digits : Regex :=
  .loop (.char .digit) 1 none true

/-- A point and digits. -/
def fraction : Regex :=
  .group none (.seq (.char (.singleton '.')) digits)

def string : Regex :=
  .seq (.char (.singleton '"')) (.seq (.loop textPart 0 none true) (.char (.singleton '"')))

def number : Regex :=
  .seq (.loop (.char (.singleton '-')) 0 (some 1) true)
    (.seq digits (.loop fraction 0 (some 1) true))

def boolean : Regex :=
  .either (letters ['t', 'r', 'u', 'e']) (letters ['f', 'a', 'l', 's', 'e'])

/-- The patterns of the tokens, of which the first has the type 1. -/
def tokens : List Regex := [
  .loop (.char .blank) 1 none true, letters ['{'], letters ['}'], letters ['['], letters [']'],
  letters [':'], letters [','], string, number, boolean, letters ['n', 'u', 'l', 'l']]

/-- The types of values. -/
def values : List NodeTypeId := [8, 9, 10, 11, 13, 14]

def tables : Tables where
  registry := {
    names := #["?", "WS", "LBrace", "RBrace", "LBracket", "RBracket", "Colon", "Comma", "String",
      "Number", "Boolean", "Null", "Member", "Object", "Array"]
    groups := [("Value", values)]
    primitives := [(14, "array"), (13, "object"), (12, "member"), (11, "null"), (10, "boolean"),
      (9, "number"), (8, "string")] }
  parser := "json"
  blank := 1
  alternatives := Tables.alternativesOf tokens
  groups := [⟨"1", [0]⟩, ⟨"2", [1, 2]⟩]
  rules := [
    ⟨12, "String Colon Value", .concat [.symbols [8], .symbols [6], .symbols values]⟩,
    ⟨13, "LBrace (?: Member (?: Comma Member )* )? RBrace",
      SymbolPattern.bracketed 2 [12] 7 3⟩,
    ⟨14, "LBracket (?: Value (?: Comma Value )* )? RBracket",
      SymbolPattern.bracketed 4 values 7 5⟩]

/-! ## Marks -/

def roleOf (nodeType : NodeTypeId) : Role :=
  match nodeType with
  | 2 => .opening .curly
  | 3 => .closing .curly
  | 4 => .opening .square
  | 5 => .closing .square
  | 6 => .colon
  | 7 => .comma
  | 8 => .text
  | 9 | 10 | 11 | 13 | 14 => .atom
  | 12 => .member
  | _ => .other

/-- What a cell is to a reader of JSON. -/
def markOf (cell : Cell) : Mark :=
  ⟨roleOf cell.nodeType, cell.tree.value? tables.registry⟩

/-! ## Lexemes -/

/-- What ends a number. -/
def delimiter (c : Char) : Bool :=
  isBlank c || ['{', '}', '[', ']', ':', ','].contains c

/-- No number goes on with a delimiter. -/
theorem not_number_of_delimiter {c : Char} (ends : delimiter c = true) :
    isDecimalDigit c = false ∧ c ≠ '.' := by
  rw [delimiter, Bool.or_eq_true] at ends
  rcases ends with blank | sign
  · refine ⟨isDecimalDigit_eq_false_of_isBlank blank, ?_⟩
    rintro rfl
    have inked : isBlank '.' = false := rfl
    rw [inked] at blank
    cases blank
  · have checked : ['{', '}', '[', ']', ':', ','].all
        (fun c => !isDecimalDigit c && c != '.') = true := rfl
    have each := List.all_eq_true.mp checked c (List.contains_iff_mem.mp sign)
    simpa using each

theorem isDecimalDigit_of_isAsciiDigit {c : Char} (digit : isAsciiDigit c = true) :
    isDecimalDigit c = true :=
  have all : ((List.range' 48 10).map Char.ofNat).all isDecimalDigit = true := rfl
  List.all_eq_true.mp all c (mem_of_isAsciiDigit digit)

theorem contains_singleton (c other : Char) :
    (CharSet.singleton c).contains other = (other == c) := by
  rw [Bool.eq_iff_iff, beq_iff_eq]
  exact CharSet.isExactly_singleton c other

/-- A number takes its digits up to a delimiter. -/
theorem takes_number {value : Int} {spelling rest : List Char}
    (spells : IntegerSpelling value spelling) (ends : ∀ c ∈ rest.head?, delimiter c = true) :
    number.Takes spelling rest := by
  obtain ⟨_, chars, filled, are, same⟩ := spells.exists_digits
  have whole : digits.Takes chars rest := by
    refine (runs_char (fun c member => ?_) fun c first => ?_).plus filled
    · exact isDecimalDigit_of_isAsciiDigit (are c member)
    · exact (not_number_of_delimiter (ends c first)).1
  have nothing : (Regex.loop fraction 0 (some 1) true).Takes [] rest := by
    refine RuledOut.optional ⟨rfl, fun c first => ?_⟩
    have unlike := (not_number_of_delimiter (ends c first)).2
    simpa [fraction, opens, nullable, contains_singleton] using unlike
  have unsigned : (Regex.seq digits (.loop fraction 0 (some 1) true)).Takes chars rest := by
    have both : (Regex.seq digits (.loop fraction 0 (some 1) true)).Takes (chars ++ []) rest :=
      Takes.seq whole nothing
    rwa [List.append_nil] at both
  rcases same with ⟨rfl, _⟩ | ⟨rfl, _⟩
  · have minus : (Regex.loop (.char (.singleton '-')) 0 (some 1) true).Takes []
        (spelling ++ rest) := by
      refine RuledOut.optional ⟨rfl, fun c first => ?_⟩
      obtain ⟨digit, others, rfl⟩ := List.exists_cons_of_ne_nil filled
      cases first
      have unlike : c ≠ '-' := by
        rintro rfl
        cases are '-' List.mem_cons_self
      simpa [opens, contains_singleton] using unlike
    exact minus.seq unsigned
  · have minus : (Regex.loop (.char (.singleton '-')) 0 (some 1) true).Takes ['-']
        (chars ++ rest) := (takes_letters ['-'] _).optional
    exact minus.seq unsigned

/-- A string goes on until the closing quote. -/
theorem runs_textPart {chars body : List Char} (spells : TextSpelling chars body)
    (rest : List Char) : Runs textPart body ('"' :: rest) := by
  have closing : textPart.RuledOut ('"' :: rest) := by
    refine ⟨rfl, ?_⟩
    rintro _ ⟨⟩
    rfl
  have plain {c : Char} (unquoted : c ≠ '"') (unescaped : c ≠ '\\') {taken : List Char}
      (runs : Runs textPart taken ('"' :: rest)) : Runs textPart (c :: taken) ('"' :: rest) := by
    have member : plainText.contains c = true := by
      simp [plainText, CharSet.contains, contains_singleton, unquoted, unescaped]
    exact .go ((takes_char member _).left _).plain (List.cons_ne_nil _ _) runs
  have escape {c : Char} (feedless : c ≠ '\n') {taken : List Char}
      (runs : Runs textPart taken ('"' :: rest)) :
      Runs textPart ('\\' :: c :: taken) ('"' :: rest) := by
    have member : (CharSet.complement (.singleton '\n')).contains c = true := by
      simp [CharSet.contains, contains_singleton, feedless]
    have pair := (takes_letters ['\\'] _).seq (takes_char member (taken ++ '"' :: rest))
    have out : (Regex.char plainText).RuledOut ('\\' :: c :: (taken ++ '"' :: rest)) := by
      refine ⟨rfl, ?_⟩
      rintro _ ⟨⟩
      rfl
    exact .go (Takes.right out pair).plain (List.cons_ne_nil _ _) runs
  have unit {digits : List Char} {unit : Nat} (spells : UnitSpelling unit digits)
      {taken : List Char} (runs : Runs textPart taken ('"' :: rest)) :
      Runs textPart ('\\' :: 'u' :: (digits ++ taken)) ('"' :: rest) := by
    refine escape (by decide) ?_
    have each := spells.plain
    clear spells
    induction digits with
    | nil => exact runs
    | cons digit digits induction =>
        obtain ⟨first, others⟩ := List.forall_mem_cons.mp each
        exact plain first.1 first.2 (induction others)
  induction spells with
  | nil => exact .stop closing
  | cons char _ runs =>
      cases char with
      | plain _ unquoted unescaped => exact plain unquoted unescaped runs
      | short member =>
          have checked : shortEscapes.all (fun escape => escape.1 != '\n') = true := by decide
          have feedless := List.all_eq_true.mp checked _ member
          exact escape (by simpa using feedless) runs
      | unit spelling => exact unit spelling runs
      | pair _ first second =>
          have both := unit first (unit second runs)
          simpa using both

theorem takes_string {text : String} {spelling : List Char}
    (spells : StringSpelling text spelling) (rest : List Char) : string.Takes spelling rest := by
  obtain ⟨body, spells, rfl⟩ := spells
  have quote (rest : List Char) : (Regex.char (.singleton '"')).Takes ['"'] rest :=
    takes_letters ['"'] rest
  exact (quote _).seq ((runs_textPart spells rest).star.seq (quote rest))

theorem takes_boolean (value : Bool) (rest : List Char) :
    boolean.Takes (if value then ['t', 'r', 'u', 'e'] else ['f', 'a', 'l', 's', 'e']) rest := by
  cases value with
  | true => exact (takes_letters ['t', 'r', 'u', 'e'] rest).left _
  | false =>
      refine Takes.right ⟨rfl, ?_⟩ (takes_letters ['f', 'a', 'l', 's', 'e'] rest)
      rintro _ ⟨⟩
      rfl

/-- The reader of JSON. -/
def lexicon : Tables.Lexicon Mark :=
  ⟨markOf, Mark.IsSign, isBlank, delimiter⟩

/-- What the tokens start with, and their places among the alternatives. -/
def initials : List (Nat × Char) :=
  [(1, '{'), (2, '}'), (3, '['), (4, ']'), (5, ':'), (6, ','), (7, '"'), (8, '-'), (9, 't'),
    (9, 'f'), (10, 'n')] ++ (List.range' 48 10).map fun code => (8, Char.ofNat code)

theorem passesTo_of_mem_initials :
    ∀ initial ∈ initials, tables.PassesTo isBlank initial.1 initial.2 := by
  decide +kernel

/-- The primitive types of the node types. -/
def primitiveOf (nodeType : NodeTypeId) : Option PrimitiveType :=
  match nodeType with
  | 8 => some .string
  | 9 => some .number
  | 10 => some .boolean
  | 11 => some .null
  | 12 => some .member
  | 13 => some .object
  | 14 => some .array
  | _ => none

theorem knownPrimitive?_eq : ∀ nodeType < 15,
    tables.registry.knownPrimitive? (tables.registry.name nodeType) = primitiveOf nodeType := by
  decide +kernel

/-- The type of a token says what it is to a reader. -/
theorem markOf_cellOf {id : NodeTypeId} (inside : id < 15) (text : String) :
    markOf (tables.cellOf ⟨id, text⟩) = ⟨roleOf id, (primitiveOf id).map fun primitive =>
      Simplify.primitiveValue primitive text []⟩ := by
  rw [markOf, Tables.cellOf, Tree.value?, knownPrimitive?_eq id inside]

/-- A bracket, a colon or a comma. -/
theorem shows_sign (place : Nat) {id : NodeTypeId} {c : Char}
    (listed : tables.alternatives[place]? = some ⟨id, id, letters [c], none⟩)
    (initial : (place, c) ∈ initials) (ends : c ∈ ['{', '}', '[', ']', ':', ','])
    (plain : 1 < id ∧ id < 15) (valueless : primitiveOf id = none) :
    tables.Shows lexicon ⟨roleOf id, none⟩ ⟨id, String.ofList [c]⟩ := by
  refine Tables.shows_sign listed (passesTo_of_mem_initials _ initial) (Nat.ne_of_gt plain.1) ?_ ?_
  · exact Bool.or_eq_true_iff.mpr (.inr (List.contains_iff_mem.mpr ends))
  · refine (markOf_cellOf plain.2 _).trans ?_
    rw [valueless]
    rfl

/-- A lexeme that stands for a value. -/
theorem shows_value (place : Nat) {id : NodeTypeId} {regex : Regex} {lexeme : List Char} {c : Char}
    (listed : tables.alternatives[place]? = some ⟨id, id, regex, none⟩)
    (takes : ∀ rest : List Char, (∀ c ∈ rest.head?, delimiter c = true) →
      regex.Takes lexeme rest) (first : lexeme.head? = some c) (initial : (place, c) ∈ initials)
    (plain : 1 < id ∧ id < 15) {primitive : PrimitiveType} (known : primitiveOf id = some primitive)
    {value : Json}
    (stands : Simplify.primitiveValue primitive (String.ofList lexeme) [] = value) :
    tables.Shows lexicon ⟨roleOf id, some value⟩ ⟨id, String.ofList lexeme⟩ :=
  Tables.shows_lexeme listed takes first (passesTo_of_mem_initials _ initial)
    (Nat.ne_of_gt plain.1)
    ((markOf_cellOf plain.2 _).trans (by rw [known, Option.map_some, stands])) nofun

theorem shows_string {text : String} {quoted : List Char} (spells : StringSpelling text quoted) :
    tables.Shows lexicon ⟨.text, some (.string text)⟩ ⟨8, String.ofList quoted⟩ := by
  have first : quoted.head? = some '"' := by
    obtain ⟨body, _, rfl⟩ := spells
    rfl
  have stands : Simplify.primitiveValue .string (String.ofList quoted) [] = .string text :=
    congrArg Json.string spells.stringValue_eq
  exact shows_value 7 rfl (fun rest _ => takes_string spells rest) first (by decide)
    (by decide) rfl stands

theorem shows_integer {value : Int} {spelling : List Char}
    (spells : IntegerSpelling value spelling) :
    tables.Shows lexicon ⟨.atom, some (.integer value)⟩ ⟨9, String.ofList spelling⟩ := by
  have stands : Simplify.primitiveValue .number (String.ofList spelling) [] = .integer value :=
    spells.numberValue_eq
  obtain ⟨c, first, member⟩ : ∃ c, spelling.head? = some c ∧ (8, c) ∈ initials := by
    obtain ⟨_, digits, filled, are, same⟩ := spells.exists_digits
    rcases same with ⟨rfl, _⟩ | ⟨rfl, _⟩
    · obtain ⟨digit, rest, rfl⟩ := List.exists_cons_of_ne_nil filled
      obtain ⟨code, listed, same⟩ :=
        List.mem_map.mp (mem_of_isAsciiDigit (are digit List.mem_cons_self))
      exact ⟨digit, rfl, List.mem_append_right _ (List.mem_map.mpr ⟨code, listed, by rw [same]⟩)⟩
    · exact ⟨'-', rfl, by decide⟩
  exact shows_value 8 rfl (fun rest ends => takes_number spells ends) first member (by decide) rfl
    stands

theorem shows_boolean (value : Bool) :
    tables.Shows lexicon ⟨.atom, some (.bool value)⟩ ⟨10, String.ofList
      (if value then ['t', 'r', 'u', 'e'] else ['f', 'a', 'l', 's', 'e'])⟩ := by
  have stands : Simplify.primitiveValue .boolean (String.ofList
      (if value then ['t', 'r', 'u', 'e'] else ['f', 'a', 'l', 's', 'e'])) [] = .bool value := by
    cases value <;> exact congrArg Json.bool rfl
  cases value with
  | true =>
      exact shows_value 9 rfl (fun rest _ => takes_boolean true rest) rfl (by decide)
        (by decide) rfl stands
  | false =>
      exact shows_value 9 rfl (fun rest _ => takes_boolean false rest) rfl (by decide)
        (by decide) rfl stands

theorem shows_null :
    tables.Shows lexicon ⟨.atom, some .null⟩ ⟨11, String.ofList ['n', 'u', 'l', 'l']⟩ := by
  have stands : Simplify.primitiveValue .null (String.ofList ['n', 'u', 'l', 'l']) [] = .null := rfl
  exact shows_value 10 rfl (fun rest _ => takes_letters _ rest) rfl (by decide)
    (by decide) rfl stands

/-- Every lexeme is a token. -/
theorem exists_piece {mark : Mark} {lexeme : List Char} (is : Lexeme mark lexeme) :
    ∃ piece : Piece, piece.text.toList = lexeme ∧ tables.Shows lexicon mark piece := by
  suffices ∃ id, tables.Shows lexicon mark ⟨id, String.ofList lexeme⟩ by
    obtain ⟨id, shows_⟩ := this
    exact ⟨_, String.toList_ofList, shows_⟩
  cases is with
  | opening bracket =>
      cases bracket with
      | curly => exact ⟨2, shows_sign 1 rfl (by decide) (by decide) (by decide) rfl⟩
      | square => exact ⟨4, shows_sign 3 rfl (by decide) (by decide) (by decide) rfl⟩
  | closing bracket =>
      cases bracket with
      | curly => exact ⟨3, shows_sign 2 rfl (by decide) (by decide) (by decide) rfl⟩
      | square => exact ⟨5, shows_sign 4 rfl (by decide) (by decide) (by decide) rfl⟩
  | colon => exact ⟨6, shows_sign 5 rfl (by decide) (by decide) (by decide) rfl⟩
  | comma => exact ⟨7, shows_sign 6 rfl (by decide) (by decide) (by decide) rfl⟩
  | string spells => exact ⟨8, shows_string spells⟩
  | integer spells => exact ⟨9, shows_integer spells⟩
  | true => exact ⟨10, shows_boolean true⟩
  | false => exact ⟨10, shows_boolean false⟩
  | null => exact ⟨11, shows_null⟩

/-- Any blank characters are a token that is dropped. -/
theorem spaces : tables.tokenizer.Spaces isBlank delimiter tables.blank where
  next := by
    intro gap rest filled blanks ends
    have takes : (Regex.loop (.char .blank) 1 none true).Takes gap rest :=
      (runs_char blanks ends).plus filled
    obtain ⟨c, others, rfl⟩ := List.exists_cons_of_ne_nil filled
    exact Tokenizer.next_of_getElem?
      (show tables.tokenizer.alternatives[0]? = some ⟨1, 1, _, none⟩ from rfl) rfl takes rfl
      (by simp)
  delimits := fun c blank => by rw [delimiter, blank, Bool.true_or]

end RowGrammar.JsonGrammar
