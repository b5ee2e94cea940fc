import RowGrammar.Text.CharClass
import RowGrammar.Tree.Basic

/-!
# Arithmetic expressions

Sums of products of numbers and parenthesized expressions, with the trees that they are usually read
as: a product binds tighter than a sum, both group to the left, and a parenthesized expression is
one operand.
-/

namespace RowGrammar.Arithmetic

open RowGrammar.Text

/-- One decimal digit or more. -/
structure Numeral where
  digits : List Char
  filled : digits ≠ []
  decimal : ∀ c ∈ digits, isDecimalDigit c = true

mutual

/-- A term, or a sum of terms. -/
inductive Expression where
  | term (term : Term)
  | plus (sum : Expression) (term : Term)

/-- A factor, or a product of factors. -/
inductive Term where
  | factor (factor : Factor)
  | times (product : Term) (factor : Factor)

inductive Factor where
  | number (numeral : Numeral)
  | paren (inner : Expression)

end

def Factor.ofDigits (digits : List Char) (filled : digits ≠ [])
    (decimal : digits.all isDecimalDigit = true) : Factor :=
  .number ⟨digits, filled, List.all_eq_true.mp decimal⟩

/-! ## Trees -/

def parenTree (opening inner closing : Tree) : Tree :=
  .branch "Paren" [opening, inner, closing]

def productTree (product sign factor : Tree) : Tree :=
  .branch "Product" [product, sign, factor]

def sumTree (sum sign term : Tree) : Tree :=
  .branch "Sum" [sum, sign, term]

mutual

/-- The tree of the usual reading. -/
def Expression.tree : Expression → Tree
  | .term term => term.tree
  | .plus sum term => sumTree sum.tree (.leaf "Plus" "+") term.tree

def Term.tree : Term → Tree
  | .factor factor => factor.tree
  | .times product factor => productTree product.tree (.leaf "Times" "*") factor.tree

def Factor.tree : Factor → Tree
  | .number numeral => .leaf "Num" (String.ofList numeral.digits)
  | .paren inner => parenTree (.leaf "LParen" "(") inner.tree (.leaf "RParen" ")")

end

/-! ## Lexemes -/

mutual

def Expression.lexemes : Expression → List (List Char)
  | .term term => term.lexemes
  | .plus sum term => sum.lexemes ++ ['+'] :: term.lexemes

def Term.lexemes : Term → List (List Char)
  | .factor factor => factor.lexemes
  | .times product factor => product.lexemes ++ ['*'] :: factor.lexemes

def Factor.lexemes : Factor → List (List Char)
  | .number numeral => [numeral.digits]
  | .paren inner => ['('] :: (inner.lexemes ++ [[')']])

end

/-! ## Room after parentheses -/

/-- What may still come at a level, that is, inside of the same parentheses. -/
inductive Room where
  /-- Anything, as long as there is no parenthesized factor. -/
  | free
  /-- Right after a parenthesized factor: one more factor, or one more term. -/
  | factorOrTerm
  /-- Factors of the last term. -/
  | factors
  /-- One more factor. -/
  | factor
  | nothing
  deriving DecidableEq, Repr

namespace Room

/-- What may come after a parenthesized factor. -/
def paren : Room → Room
  | .free => .factorOrTerm
  | .factors => .factor
  | .factorOrTerm => .factorOrTerm
  | .factor => .factor
  | .nothing => .nothing

/-- What may come after a `*`, if there may be one. -/
def times? : Room → Option Room
  | .free => some .free
  | .factors => some .factors
  | .factorOrTerm | .factor => some .nothing
  | .nothing => none

/-- What may come after a `+`, if there may be one. -/
def plus? : Room → Option Room
  | .free => some .free
  | .factorOrTerm => some .factors
  | .factors | .factor | .nothing => none

end Room

mutual

/-- What may come after an expression at the start of a level, if there is room for its parts. -/
def Expression.room? : Expression → Option Room
  | .term term => term.room? .free
  | .plus sum term => do
      let before ← sum.room?
      let after ← before.plus?
      term.room? after

def Term.room? (room : Room) : Term → Option Room
  | .factor factor => factor.room? room
  | .times product factor => do
      let before ← product.room? room
      let after ← before.times?
      factor.room? after

def Factor.room? (room : Room) : Factor → Option Room
  | .number _ => some room
  | .paren inner => inner.room?.map fun _ => room.paren

end

/-- At every level, a parenthesized factor is followed by one more factor or one more term at most;
in that term, it may be followed by one more factor again. -/
def Expression.HasRoom (expression : Expression) : Prop :=
  expression.room?.isSome

instance (expression : Expression) : Decidable expression.HasRoom :=
  inferInstanceAs (Decidable (_ = true))

end RowGrammar.Arithmetic
