import Mathlib.Tactic.SplitIfs
import RowGrammar.Grammar.Registry
import RowGrammar.Proofs.Digits
import RowGrammar.Tree.Render

/-!
# Reading renderings

An s-expression can be read in one way only.  Every character between quotes is read back whatever
follows it, a name ends at the first blank or parenthesis, and what follows the blank is either a
literal or a child.
-/

namespace RowGrammar

namespace Text

/-! ## Quoted texts -/

/-- The first character of a text between quotes and what follows it, none at the closing quote. -/
def unquotedChar? : List Char → Option (Char × List Char)
  | '\\' :: 'u' :: '{' :: rest => do
      let value ← hexadecimalValue? (rest.takeWhile (· != '}'))
      let c ← charOf? value
      return (c, (rest.dropWhile (· != '}')).tail)
  | '\\' :: '0' :: rest => some ('\x00', rest)
  | '\\' :: 't' :: rest => some ('\t', rest)
  | '\\' :: 'n' :: rest => some ('\n', rest)
  | '\\' :: 'r' :: rest => some ('\r', rest)
  | '\\' :: c :: rest => some (c, rest)
  | '"' :: _ => none
  | c :: rest => some (c, rest)
  | [] => none

theorem hexadecimalValue?_digitsIn_lower (value : Nat) :
    hexadecimalValue? (digitsIn 16 value) = some value := by
  have digits : ∀ digit < 16, hexValue? (hexDigit digit) = some digit := by decide
  apply foldlM_digitsIn (by decide)
  intro value digit small
  rw [digits digit small]
  rfl

theorem bne_brace_of_mem_digitsIn {value : Nat} {c : Char} (member : c ∈ digitsIn 16 value) :
    (c != '}') = true := by
  have digits : ∀ digit < 16, (hexDigit digit != '}') = true := by decide
  obtain ⟨digit, small, rfl⟩ := exists_of_mem_digitsIn (by decide) member
  exact digits digit small

/-- Every character is read back, whatever follows it. -/
theorem unquotedChar?_quotedChar (c : Char) (rest : List Char) :
    unquotedChar? (quotedChar c ++ rest) = some (c, rest) := by
  unfold quotedChar
  split_ifs with nul tab feed carriage quote backslash
  case pos | pos | pos | pos | pos | pos => subst c; rfl
  case pos =>
    simp only [List.cons_append, List.nil_append]
    unfold unquotedChar?
    split <;> simp_all
  case neg =>
    have code :
        (digitsIn 16 c.toNat ++ '}' :: rest).takeWhile (· != '}') = digitsIn 16 c.toNat := by
      simp [List.takeWhile_append_of_pos fun _ => bne_brace_of_mem_digitsIn]
    have after : (digitsIn 16 c.toNat ++ '}' :: rest).dropWhile (· != '}') = '}' :: rest := by
      simp [List.dropWhile_append_of_pos fun _ => bne_brace_of_mem_digitsIn]
    simp [unquotedChar?, code, after, hexadecimalValue?_digitsIn_lower, charOf?_toNat]

/-- Texts between quotes that start alike are the same, and so is what follows them. -/
theorem quotedBody_append_inj {chars chars' rest rest' : List Char}
    (same : chars.flatMap quotedChar ++ '"' :: rest = chars'.flatMap quotedChar ++ '"' :: rest') :
    chars = chars' ∧ rest = rest' := by
  have closed (c : Char) (chars rest rest' : List Char) :
      '"' :: rest ≠ quotedChar c ++ (chars.flatMap quotedChar ++ '"' :: rest') := by
    intro same
    have read := congrArg unquotedChar? same
    rw [unquotedChar?_quotedChar] at read
    cases read
  induction chars generalizing chars' with
  | nil =>
      cases chars' with
      | nil => exact ⟨rfl, (List.cons.inj same).2⟩
      | cons c' chars' =>
          rw [List.flatMap_cons, List.append_assoc] at same
          exact absurd same (closed c' chars' rest rest')
  | cons c chars induction =>
      rw [List.flatMap_cons, List.append_assoc] at same
      cases chars' with
      | nil => exact absurd same.symm (closed c chars rest' rest)
      | cons c' chars' =>
          rw [List.flatMap_cons, List.append_assoc] at same
          have read := congrArg unquotedChar? same
          rw [unquotedChar?_quotedChar, unquotedChar?_quotedChar, Option.some.injEq,
            Prod.mk.injEq] at read
          obtain ⟨rfl, later⟩ := read
          obtain ⟨rfl, follows⟩ := induction later
          exact ⟨rfl, follows⟩

theorem quotedChars_append_inj {chars chars' rest rest' : List Char}
    (same : quotedChars chars ++ rest = quotedChars chars' ++ rest') :
    chars = chars' ∧ rest = rest' := by
  simp only [quotedChars, List.cons_append, List.append_assoc, List.nil_append, List.cons.injEq,
    true_and] at same
  exact quotedBody_append_inj same

end Text

namespace Tree

open RowGrammar.Text

/-! ## S-expressions -/

/-- A name that a node of a tree can have: the one of unrecognized input or a valid one. -/
def IsTypeName (name : String) : Prop :=
  name = unrecognizedName ∨ Registry.isValidName name

instance (name : String) : Decidable (IsTypeName name) :=
  inferInstanceAs (Decidable (_ ∨ _))

mutual

/-- A tree whose node types all have such a name. -/
def WellNamed : Tree → Prop
  | .leaf nodeType _ => IsTypeName nodeType
  | .branch nodeType children => IsTypeName nodeType ∧ WellNamedList children

def WellNamedList : List Tree → Prop
  | [] => True
  | tree :: trees => tree.WellNamed ∧ WellNamedList trees

end

/-- Whether a character cannot end a name. -/
def continuesName (c : Char) : Bool :=
  c != ' ' && c != ')'

theorem IsTypeName.continues {name : String} (named : IsTypeName name) :
    ∀ c ∈ name.toList, continuesName c = true := by
  rcases named with rfl | valid
  · exact List.all_eq_true.mp (by decide +kernel)
  · intro c member
    have letters := List.all_eq_true.mp (Bool.and_eq_true_iff.mp valid).2
    have letter : isNameLetter c = true := letters c member
    have noBlank : c ≠ ' ' := ne_of_isNameLetter letter (by decide)
    have noClosing : c ≠ ')' := ne_of_isNameLetter letter (by decide)
    simp [continuesName, noBlank, noClosing]

/-- Names are told from what follows them, where that starts with a blank or a parenthesis. -/
theorem IsTypeName.append_inj {name name' : String} (named : IsTypeName name)
    (named' : IsTypeName name') {rest rest' : List Char} (ends : rest.takeWhile continuesName = [])
    (ends' : rest'.takeWhile continuesName = [])
    (same : name.toList ++ rest = name'.toList ++ rest') : name = name' ∧ rest = rest' := by
  have names := congrArg (List.takeWhile continuesName) same
  rw [List.takeWhile_append_of_pos named.continues, List.takeWhile_append_of_pos named'.continues,
    ends, ends', List.append_nil, List.append_nil, String.toList_inj] at names
  subst names
  exact ⟨rfl, List.append_cancel_left same⟩

theorem takeWhile_expressionList (trees : List Tree) (rest : List Char) :
    (expressionList trees ++ ')' :: rest).takeWhile continuesName = [] := by
  cases trees <;> rfl

/-- A blank is followed by a quote in a leaf, and by a parenthesis in a branch. -/
theorem quoted_ne_expressionList (text : List Char) (trees : List Tree) (rest rest' : List Char) :
    ' ' :: (quotedChars text ++ rest) ≠ expressionList trees ++ ')' :: rest' := by
  cases trees with
  | nil => simp [expressionList]
  | cons tree trees => cases tree <;> simp [expressionList, expression, quotedChars]

mutual

/-- Trees whose s-expressions start alike are the same, and so is what follows them. -/
theorem expression_append_inj : (tree tree' : Tree) → (rest rest' : List Char) →
    tree.WellNamed → tree'.WellNamed → tree.expression ++ rest = tree'.expression ++ rest' →
    tree = tree' ∧ rest = rest'
  | .leaf name text, .leaf name' text', rest, rest', named, named', same => by
      simp only [expression, List.cons_append, List.append_assoc, List.nil_append, List.cons.injEq,
        true_and] at same
      obtain ⟨rfl, literal⟩ := IsTypeName.append_inj named named' rfl rfl same
      obtain ⟨texts, follows⟩ := quotedChars_append_inj (List.cons.inj literal).2
      rw [String.toList_inj] at texts
      exact ⟨by rw [texts], (List.cons.inj follows).2⟩
  | .branch name children, .branch name' children', rest, rest', named, named', same => by
      simp only [expression, List.cons_append, List.append_assoc, List.nil_append, List.cons.injEq,
        true_and] at same
      obtain ⟨rfl, inside⟩ := IsTypeName.append_inj named.1 named'.1
        (takeWhile_expressionList _ _) (takeWhile_expressionList _ _) same
      obtain ⟨rfl, follows⟩ := expressionList_append_inj _ _ _ _ named.2 named'.2 inside
      exact ⟨rfl, follows⟩
  | .leaf name text, .branch name' children', rest, rest', named, named', same => by
      simp only [expression, List.cons_append, List.append_assoc, List.nil_append, List.cons.injEq,
        true_and] at same
      obtain ⟨_, inside⟩ :=
        IsTypeName.append_inj named named'.1 rfl (takeWhile_expressionList _ _) same
      exact absurd inside (quoted_ne_expressionList _ _ _ _)
  | .branch name children, .leaf name' text', rest, rest', named, named', same => by
      simp only [expression, List.cons_append, List.append_assoc, List.nil_append, List.cons.injEq,
        true_and] at same
      obtain ⟨_, inside⟩ :=
        IsTypeName.append_inj named.1 named' (takeWhile_expressionList _ _) rfl same
      exact absurd inside.symm (quoted_ne_expressionList _ _ _ _)

theorem expressionList_append_inj : (trees trees' : List Tree) → (rest rest' : List Char) →
    WellNamedList trees → WellNamedList trees' →
    expressionList trees ++ ')' :: rest = expressionList trees' ++ ')' :: rest' →
    trees = trees' ∧ rest = rest'
  | [], [], rest, rest', named, named', same => ⟨rfl, (List.cons.inj same).2⟩
  | [], tree' :: trees', rest, rest', named, named', same => by
      simp [expressionList] at same
  | tree :: trees, [], rest, rest', named, named', same => by
      simp [expressionList] at same
  | tree :: trees, tree' :: trees', rest, rest', named, named', same => by
      simp only [expressionList, List.cons_append, List.append_assoc, List.cons.injEq,
        true_and] at same
      obtain ⟨rfl, later⟩ := expression_append_inj tree tree' _ _ named.1 named'.1 same
      obtain ⟨rfl, follows⟩ := expressionList_append_inj trees trees' _ _ named.2 named'.2 later
      exact ⟨rfl, follows⟩

end

/-- No two trees have the same s-expression, whatever the literals of their leaves are. -/
theorem render_expression_eq_iff {tree tree' : Tree} (named : tree.WellNamed)
    (named' : tree'.WellNamed) :
    TreeFormat.expression.render tree = TreeFormat.expression.render tree' ↔ tree = tree' := by
  constructor
  · intro same
    have chars : tree.expression = tree'.expression := String.ofList_injective same
    apply And.left
    apply expression_append_inj tree tree' [] [] named named'
    rw [chars]
  · rintro rfl
    rfl

/-- A literal that looks like the end of its leaf and the start of the next one. -/
theorem render_expression_lookalike :
    TreeFormat.expression.render (.branch "Text" [.leaf "Part" "a\") (Part \"b"]) ≠
      TreeFormat.expression.render (.branch "Text" [.leaf "Part" "a", .leaf "Part" "b"]) := by
  have named : WellNamed (.branch "Text" [.leaf "Part" "a\") (Part \"b"]) := by
    simp only [WellNamed, WellNamedList]
    decide
  have named' : WellNamed (.branch "Text" [.leaf "Part" "a", .leaf "Part" "b"]) := by
    simp only [WellNamed, WellNamedList]
    decide
  intro same
  exact absurd ((render_expression_eq_iff named named').mp same) (by decide +kernel)

end Tree

end RowGrammar
