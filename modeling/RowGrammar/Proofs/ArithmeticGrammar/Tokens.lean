import RowGrammar.Proofs.Arithmetic.Writing
import RowGrammar.Proofs.Digits
import RowGrammar.Proofs.SymbolPattern.Guards
import RowGrammar.Proofs.Tables

/-!
# The tokens of the arithmetic grammar

Numbers, signs and parentheses are tokens of the grammar.  A number takes all of its digits, since
what follows it in an expression is a blank, a sign or a parenthesis.
-/

namespace RowGrammar.ArithmeticGrammar

open Regex RowGrammar.Text Arithmetic

/-! ## Tables -/

def digits : Regex :=
  .loop (.char .digit) 1 none true

def blanks : Regex :=
  .loop (.char .blank) 1 none true

/-- The patterns of the tokens, of which the first has the type 1. -/
def tokens : List Regex := [
  digits, blanks, letters ['+'], letters ['*'], letters ['('], letters [')']]

/-- The types of operands. -/
def operands : List NodeTypeId := [1, 7, 8, 9]

def tables : Tables where
  registry := {
    names := #["?", "Num", "WS", "Plus", "Times", "LParen", "RParen", "Paren", "Product", "Sum"]
    groups := [("Operand", operands)]
    primitives := [] }
  parser := "calc"
  blank := 2
  alternatives := Tables.alternativesOf tokens
  groups := [⟨"1", [0]⟩, ⟨"2", [1]⟩, ⟨"3", [2]⟩]
  rules := [
    ⟨7, "LParen . RParen", .concat [.symbols [5], .any, .symbols [6]]⟩,
    ⟨8, "Operand Times Operand", .concat [.symbols operands, .symbols [4], .symbols operands]⟩,
    ⟨9, "Operand Plus Operand (?! Times )",
      SymbolPattern.guarded [.symbols operands, .symbols [3], .symbols operands] [4]⟩]

/-! ## Marks -/

def roleOf (nodeType : NodeTypeId) : Role :=
  match nodeType with
  | 1 | 7 => .factor
  | 3 => .plus
  | 4 => .times
  | 5 => .opening
  | 6 => .closing
  | 8 => .product
  | 9 => .sum
  | _ => .other

/-- What a cell is to a reader of arithmetic. -/
def markOf (cell : Cell) : Mark :=
  ⟨roleOf cell.nodeType, cell.tree⟩

/-! ## Lexemes -/

/-- What ends a number. -/
def delimiter (c : Char) : Bool :=
  isBlank c || ['+', '*', '(', ')'].contains c

/-- The reader of arithmetic. -/
def lexicon : Tables.Lexicon Mark :=
  ⟨markOf, Mark.IsSign, isBlank, delimiter⟩

/-- No number goes on with a delimiter. -/
theorem isDecimalDigit_eq_false_of_delimiter {c : Char} (ends : delimiter c = true) :
    isDecimalDigit c = false := by
  rw [delimiter, Bool.or_eq_true] at ends
  rcases ends with blank | sign
  · exact isDecimalDigit_eq_false_of_isBlank blank
  · have checked : ['+', '*', '(', ')'].all (fun c => !isDecimalDigit c) = true := rfl
    simpa using List.all_eq_true.mp checked c (List.contains_iff_mem.mp sign)

/-- What the signs are, and their places among the alternatives. -/
def signs : List (Nat × Char) := [(2, '+'), (3, '*'), (4, '('), (5, ')')]

theorem passesTo_of_mem_signs : ∀ sign ∈ signs, tables.PassesTo isBlank sign.1 sign.2 := by
  decide +kernel

theorem shows_number (numeral : Numeral) :
    tables.Shows lexicon ⟨.factor, .leaf "Num" (String.ofList numeral.digits)⟩
      ⟨1, String.ofList numeral.digits⟩ := by
  obtain ⟨chars, filled, decimal⟩ := numeral
  obtain ⟨c, others, rfl⟩ := List.exists_cons_of_ne_nil filled
  have inked : isBlank c = false := by
    refine Bool.eq_false_iff.mpr fun blank => ?_
    have digit := decimal c List.mem_cons_self
    rw [isDecimalDigit_eq_false_of_isBlank blank] at digit
    cases digit
  have takes (rest : List Char) (ends : ∀ c ∈ rest.head?, delimiter c = true) :
      digits.Takes (c :: others) rest := by
    refine (runs_char decimal fun c first => ?_).plus filled
    exact isDecimalDigit_eq_false_of_delimiter (ends c first)
  exact Tables.shows_lexeme (show tables.alternatives[0]? = some ⟨1, 1, digits, none⟩ from rfl)
    takes rfl ⟨inked, nofun⟩ (by decide) rfl fun sign => sign rfl

theorem shows_sign (place : Nat) {id : NodeTypeId} {c : Char} {mark : Mark}
    (listed : tables.alternatives[place]? = some ⟨id, id, letters [c], none⟩)
    (sign : (place, c) ∈ signs) (ends : c ∈ ['+', '*', '(', ')']) (typed : id ≠ 2)
    (reads : markOf (tables.cellOf ⟨id, String.ofList [c]⟩) = mark) :
    tables.Shows lexicon mark ⟨id, String.ofList [c]⟩ :=
  Tables.shows_sign listed (passesTo_of_mem_signs _ sign) typed
    (Bool.or_eq_true_iff.mpr (.inr (List.contains_iff_mem.mpr ends))) reads

/-- Every lexeme is a token. -/
theorem exists_piece {mark : Mark} {lexeme : List Char} (is : Lexeme mark lexeme) :
    ∃ piece : Piece, piece.text.toList = lexeme ∧ tables.Shows lexicon mark piece := by
  suffices ∃ id, tables.Shows lexicon mark ⟨id, String.ofList lexeme⟩ by
    obtain ⟨id, shows_⟩ := this
    exact ⟨_, String.toList_ofList, shows_⟩
  cases is with
  | number numeral => exact ⟨1, shows_number numeral⟩
  | plus => exact ⟨3, shows_sign 2 rfl (by decide) (by decide) (by decide) rfl⟩
  | times => exact ⟨4, shows_sign 3 rfl (by decide) (by decide) (by decide) rfl⟩
  | opening => exact ⟨5, shows_sign 4 rfl (by decide) (by decide) (by decide) rfl⟩
  | closing => exact ⟨6, shows_sign 5 rfl (by decide) (by decide) (by decide) rfl⟩

/-- Any blank characters are a token that is dropped. -/
theorem spaces : tables.tokenizer.Spaces isBlank delimiter tables.blank where
  next := by
    intro gap rest filled spaces ends
    have takes : blanks.Takes gap rest := (runs_char spaces ends).plus filled
    obtain ⟨c, others, rfl⟩ := List.exists_cons_of_ne_nil filled
    refine Tokenizer.next_of_getElem?
      (show tables.tokenizer.alternatives[1]? = some ⟨2, 2, blanks, none⟩ from rfl) rfl takes rfl
      (List.forall_mem_singleton.mpr ⟨rfl, ?_⟩)
    exact isDecimalDigit_eq_false_of_isBlank (spaces c List.mem_cons_self)
  delimits := fun c blank => by rw [delimiter, blank, Bool.true_or]

end RowGrammar.ArithmeticGrammar
