import RowGrammar.Proofs.Arithmetic.Sentences
import RowGrammar.Proofs.Token.Cutting

/-!
# The lexemes of an expression

The lexemes of an expression that leaves room after its parentheses are a sentence for its tree, and
of any two neighbours among them one is a sign.
-/

namespace RowGrammar.Arithmetic

/-- The lexemes and the marks that they are. -/
inductive Lexeme : Mark → List Char → Prop where
  | number (numeral : Numeral) :
      Lexeme ⟨.factor, .leaf "Num" (String.ofList numeral.digits)⟩ numeral.digits
  | plus : Lexeme ⟨.plus, .leaf "Plus" "+"⟩ ['+']
  | times : Lexeme ⟨.times, .leaf "Times" "*"⟩ ['*']
  | opening : Lexeme ⟨.opening, .leaf "LParen" "("⟩ ['(']
  | closing : Lexeme ⟨.closing, .leaf "RParen" ")"⟩ [')']

/-- A mark that can be told from its neighbours without blanks. -/
def Mark.IsSign (mark : Mark) : Prop :=
  mark.role ≠ .factor

/-- Lexemes that take a reader from one place in a sentence to another. -/
def Leads (reader : Reader) (lexemes : List (List Char)) (later : Reader) : Prop :=
  ∃ marks, List.Forall₂ Lexeme marks lexemes ∧ KeptApart Mark.IsSign marks ∧
    reader.ReadsAll marks later

theorem Leads.nil (reader : Reader) : Leads reader [] reader :=
  ⟨[], .nil, .nil, .nil⟩

theorem Leads.single {reader later : Reader} {mark : Mark} {lexeme : List Char}
    (is : Lexeme mark lexeme) (reads : reader.Reads mark later) : Leads reader [lexeme] later :=
  ⟨[mark], .cons is .nil, .singleton _, .single reads⟩

/-- Lexemes on both sides of a sign. -/
theorem Leads.join {reader middle next later : Reader} {mark : Mark} {lexeme : List Char}
    {lexemes others : List (List Char)} (before : Leads reader lexemes middle)
    (is : Lexeme mark lexeme) (sign : mark.IsSign) (reads : middle.Reads mark next)
    (after : Leads next others later) : Leads reader (lexemes ++ lexeme :: others) later := by
  obtain ⟨marks, are, apart, leads⟩ := before
  obtain ⟨rest, others, apart', goes⟩ := after
  exact ⟨marks ++ mark :: rest, List.rel_append are (.cons is others), apart.join sign apart',
    leads.append (.cons reads goes)⟩

mutual

theorem Expression.leads (outer : List (Tree × Level)) {room : Room} :
    (expression : Expression) → expression.room? = some room →
      ∃ turn, turn.value? = some expression.tree ∧
        Leads ⟨⟨.free, .first⟩, outer⟩ expression.lexemes ⟨⟨room, turn⟩, outer⟩
  | .term term, fits => ⟨_, rfl, term.leads outer .first fits⟩
  | .plus sum term, fits => by
      obtain ⟨before, fits, others⟩ := Option.bind_eq_some_iff.mp fits
      obtain ⟨after, goes, last⟩ := Option.bind_eq_some_iff.mp others
      obtain ⟨turn, valued, leads⟩ := sum.leads outer fits
      exact ⟨_, rfl, leads.join .plus nofun (.plus valued goes) (term.leads outer .term last)⟩

theorem Term.leads (outer : List (Tree × Level)) {room later : Room} {before after : Turn} :
    (term : Term) → before.Product term.tree after → term.room? room = some later →
      Leads ⟨⟨room, before⟩, outer⟩ term.lexemes ⟨⟨later, after⟩, outer⟩
  | .factor factor, goes, fits => factor.leads outer goes.factor fits
  | .times product factor, goes, fits => by
      obtain ⟨middle, fits, others⟩ := Option.bind_eq_some_iff.mp fits
      obtain ⟨next, room, last⟩ := Option.bind_eq_some_iff.mp others
      cases goes with
      | first =>
          exact (product.leads outer .first fits).join .times nofun (.times room)
            (factor.leads outer .factor last)
      | term =>
          exact (product.leads outer .term fits).join .times nofun (.times room)
            (factor.leads outer .factor last)

theorem Factor.leads (outer : List (Tree × Level)) {room later : Room} {before after : Turn} :
    (factor : Factor) → before.Factor factor.tree after → factor.room? room = some later →
      Leads ⟨⟨room, before⟩, outer⟩ factor.lexemes ⟨⟨later, after⟩, outer⟩
  | .number numeral, goes, fits => by
      cases fits
      exact .single (.number numeral) (.factor goes)
  | .paren inner, goes, fits => by
      obtain ⟨_, inside, rfl⟩ := Option.map_eq_some_iff.mp fits
      have valueless : before.value? = none := by cases goes <;> rfl
      obtain ⟨turn, valued, leads⟩ :=
        inner.leads ((.leaf "LParen" "(", ⟨room, before⟩) :: outer) inside
      refine Leads.join (.nil _) .opening nofun (.opening valueless) ?_
      exact leads.join .closing nofun (.closing valued goes) (.nil _)

end

/-- The lexemes of an expression are a sentence for its tree. -/
theorem Expression.exists_marks {expression : Expression} (fits : expression.HasRoom) :
    ∃ marks, List.Forall₂ Lexeme marks expression.lexemes ∧ KeptApart Mark.IsSign marks ∧
      Sentence expression.tree marks := by
  obtain ⟨room, fits⟩ := Option.isSome_iff_exists.mp fits
  obtain ⟨turn, valued, marks, are, apart, reads⟩ := expression.leads [] fits
  exact ⟨marks, are, apart, room, turn, reads, valued⟩

end RowGrammar.Arithmetic
