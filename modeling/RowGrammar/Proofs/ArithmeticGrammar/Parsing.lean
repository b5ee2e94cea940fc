import Mathlib.Computability.Primrec.List
import RowGrammar.Fixture
import RowGrammar.Proofs.Arithmetic.Reductions
import RowGrammar.Proofs.ArithmeticGrammar.Tokens

/-!
# The arithmetic grammar parses expressions

A pass puts all parentheses around single operands together, then all products, then the sums that
no `*` follows.  Where an expression leaves room after its parentheses, the cells stay a sentence
for its tree: a parenthesis that is not yet put together has no operand after it that a rule takes
away from what comes before.
-/

namespace RowGrammar.ArithmeticGrammar

open SymbolPattern ReductionContext Arithmetic

/-! ## Roles -/

/-- The types of the symbols that play a part. -/
def typesOf : Role → List NodeTypeId
  | .opening => [5]
  | .closing => [6]
  | .plus => [3]
  | .times => [4]
  | .factor => [1, 7]
  | .product => [8]
  | .sum => [9]
  | .other => []

theorem roleOf_eq_iff {nodeType : NodeTypeId} {role : Role} (known : role ≠ .other) :
    roleOf nodeType = role ↔ nodeType ∈ typesOf role := by
  cases role
  case other => exact absurd rfl known
  all_goals
    unfold roleOf
    split <;> simp_all [typesOf]

/-- A part that only symbols of one type play. -/
theorem role_markOf_iff {cell : Cell} {role : Role} {nodeType : NodeTypeId}
    (types : typesOf role = [nodeType]) : (markOf cell).role = role ↔ cell.nodeType = nodeType := by
  have known : role ≠ .other := by
    rintro rfl
    cases types
  rw [markOf, roleOf_eq_iff known, types, List.mem_singleton]

theorem isOperand_markOf_iff {cell : Cell} :
    (markOf cell).IsOperand ↔ cell.nodeType ∈ operands := by
  have types : operands = typesOf .factor ++ (typesOf .product ++ typesOf .sum) := rfl
  rw [types, List.mem_append, List.mem_append, ← roleOf_eq_iff (by decide),
    ← roleOf_eq_iff (by decide), ← roleOf_eq_iff (by decide)]
  exact Iff.rfl

/-! ## Words of the rules -/

section

variable {captured : List Cell}

theorem word_paren_iff :
    (SymbolPattern.concat [.symbols [5], .any, .symbols [6]]).Word (captured.map (·.nodeType)) ↔
      ∃ opening inner closing, captured = [opening, inner, closing] ∧
        (markOf opening).role = .opening ∧ (markOf closing).role = .closing := by
  simp only [word_concat_iff, wordItems_symbols_map_iff, wordItems_any_map_iff,
    wordItems_nil_map_iff, List.mem_singleton,
    role_markOf_iff (show typesOf .opening = [5] from rfl),
    role_markOf_iff (show typesOf .closing = [6] from rfl)]
  constructor
  · rintro ⟨opening, _, rfl, opens, inner, _, rfl, closing, _, rfl, closes, rfl⟩
    exact ⟨opening, inner, closing, rfl, opens, closes⟩
  · rintro ⟨opening, inner, closing, rfl, opens, closes⟩
    exact ⟨opening, _, rfl, opens, inner, _, rfl, closing, _, rfl, closes, rfl⟩

theorem word_operator_iff {sign : NodeTypeId} {role : Role} (types : typesOf role = [sign]) :
    WordItems [.symbols operands, .symbols [sign], .symbols operands]
        (captured.map (·.nodeType)) ↔
      ∃ left middle right, captured = [left, middle, right] ∧ (markOf left).IsOperand ∧
        (markOf middle).role = role ∧ (markOf right).IsOperand := by
  simp only [wordItems_symbols_map_iff, wordItems_nil_map_iff, List.mem_singleton,
    role_markOf_iff types, isOperand_markOf_iff]
  constructor
  · rintro ⟨left, _, rfl, leftIs, middle, _, rfl, is, right, _, rfl, rightIs, rfl⟩
    exact ⟨left, middle, right, rfl, leftIs, is, rightIs⟩
  · rintro ⟨left, middle, right, rfl, leftIs, is, rightIs⟩
    exact ⟨left, _, rfl, leftIs, middle, _, rfl, is, right, _, rfl, rightIs, rfl⟩

end

theorem getElem?_kinds (cells : List Cell) (position : Nat) :
    (Cell.kinds cells)[position]? = cells[position]?.map (·.nodeType) := by
  rw [Cell.kinds, List.getElem?_toArray, List.getElem?_map]

/-- No `*` is at a position. -/
theorem guard_iff {cells : List Cell} {position : Nat} :
    (∀ next, (Cell.kinds cells)[position]? = some next → next ∉ [4]) ↔
      ∀ next, (cells.map markOf)[position]? = some next → next.role ≠ .times := by
  rw [getElem?_kinds, List.getElem?_map]
  cases cells[position]? with
  | none => simp
  | some cell => simp [role_markOf_iff (show typesOf .times = [4] from rfl)]

/-! ## Rules and marks -/

def parens : PrecedenceGroup := ⟨"1", [0]⟩

def products : PrecedenceGroup := ⟨"2", [1]⟩

def sums : PrecedenceGroup := ⟨"3", [2]⟩

section

variable {engine : Engine} (runs : tables.Runs engine) {options : ParseOptions}
  {cells : List Cell} (known : (engine.reduction options).absorbs (Cell.kinds cells) = false)

include runs known

section

variable {start : Nat} {rule : ParserRule} {found : Match}

theorem joins_of_parens
    (applies : (engine.reduction options).Applies parens (Cell.kinds cells) start rule found) :
    ∃ before opening inner closing after,
      cells.map markOf = before ++ ([opening, inner, closing] ++ after) ∧
      before.length = start ∧ opening.role = .opening ∧ closing.role = .closing ∧
      (found.capture.splice (Cell.branch (engine.reduction options).grammar.registry rule.nodeType
        (found.capture.slice cells)) cells).map markOf =
          before ++ ⟨.factor, parenTree opening.tree inner.tree closing.tree⟩ :: after := by
  obtain ⟨id, member, entry, listed, _, before, captured, after, rfl, rfl, _, word, made⟩ :=
    runs.exists_captured known applies
  obtain rfl := List.mem_singleton.mp member
  cases listed
  obtain ⟨opening, inner, closing, rfl, opens, closes⟩ := word_paren_iff.mp word
  refine ⟨before.map markOf, markOf opening, markOf inner, markOf closing, after.map markOf,
    by simp, by simp, opens, closes, ?_⟩
  rw [made, List.map_append, List.map_cons]
  rfl

theorem joins_of_products
    (applies : (engine.reduction options).Applies products (Cell.kinds cells) start rule found) :
    ∃ before left sign right after,
      cells.map markOf = before ++ ([left, sign, right] ++ after) ∧
      before.length = start ∧ left.IsOperand ∧ sign.role = .times ∧ right.IsOperand ∧
      (found.capture.splice (Cell.branch (engine.reduction options).grammar.registry rule.nodeType
        (found.capture.slice cells)) cells).map markOf =
          before ++ ⟨.product, productTree left.tree sign.tree right.tree⟩ :: after := by
  obtain ⟨id, member, entry, listed, _, before, captured, after, rfl, rfl, _, word, made⟩ :=
    runs.exists_captured known applies
  obtain rfl := List.mem_singleton.mp member
  cases listed
  obtain ⟨left, sign, right, rfl, leftIs, times, rightIs⟩ :=
    (word_operator_iff (show typesOf .times = [4] from rfl)).mp (word_concat_iff.mp word)
  refine ⟨before.map markOf, markOf left, markOf sign, markOf right, after.map markOf,
    by simp, by simp, leftIs, times, rightIs, ?_⟩
  rw [made, List.map_append, List.map_cons]
  rfl

theorem joins_of_sums
    (applies : (engine.reduction options).Applies sums (Cell.kinds cells) start rule found) :
    ∃ before left sign right after,
      cells.map markOf = before ++ ([left, sign, right] ++ after) ∧
      before.length = start ∧ left.IsOperand ∧ sign.role = .plus ∧ right.IsOperand ∧
      (∀ next ∈ after.head?, next.role ≠ .times) ∧
      (found.capture.splice (Cell.branch (engine.reduction options).grammar.registry rule.nodeType
        (found.capture.slice cells)) cells).map markOf =
          before ++ ⟨.sum, sumTree left.tree sign.tree right.tree⟩ :: after := by
  obtain ⟨id, member, entry, listed, matched, before, captured, after, rfl, rfl, stop, word,
    made⟩ := runs.exists_captured known applies
  obtain rfl := List.mem_singleton.mp member
  cases listed
  obtain ⟨left, sign, right, rfl, leftIs, plus, rightIs⟩ :=
    (word_operator_iff (show typesOf .plus = [3] from rfl)).mp (word_guarded_iff.mp word)
  refine ⟨before.map markOf, markOf left, markOf sign, markOf right, after.map markOf,
    by simp, by simp, leftIs, plus, rightIs, fun next first => ?_, ?_⟩
  · have clear := guard_iff.mp (stop ▸ not_mem_guard_of_matchAt matched)
    refine clear next ?_
    simpa using (getElem?_behind (before.map markOf) (after.map markOf) (markOf left) (markOf sign)
      (markOf right)).trans first
  · rw [made, List.map_append, List.map_cons]
    rfl

end

variable {place : Nat}

omit runs known in
/-- Marks in a row are the marks of cells in a row. -/
theorem exists_cells {one two three : Mark} (here : At (cells.map markOf) place one two three) :
    ∃ first second third, markOf first = one ∧ markOf second = two ∧ markOf third = three ∧
      [first, second, third].map (·.nodeType) <+: (Cell.kinds cells).toList.drop place := by
  obtain ⟨one, two, three⟩ := here
  rw [List.getElem?_map, Option.map_eq_some_iff] at one two three
  obtain ⟨first, one, is⟩ := one
  obtain ⟨second, two, is'⟩ := two
  obtain ⟨third, three, is''⟩ := three
  refine ⟨first, second, third, is, is', is'', ?_⟩
  simp only [List.map_cons, List.map_nil, cons_prefix_drop_iff, getElem?_kinds, one, two, three]
  exact ⟨rfl, rfl, rfl, List.nil_prefix⟩

theorem applies_of_parenAt (here : ParenAt (cells.map markOf) place) :
    ∃ rule found,
      (engine.reduction options).Applies parens (Cell.kinds cells) place rule found := by
  obtain ⟨_, _, _, here, opens, closes⟩ := here
  obtain ⟨first, second, third, rfl, rfl, rfl, stands⟩ := exists_cells here
  exact runs.applies known (List.mem_singleton.mpr rfl) rfl (matchAt_ne_none rfl
    (word_paren_iff.mpr ⟨first, second, third, rfl, opens, closes⟩) (List.cons_ne_nil _ _) stands)

theorem applies_of_productAt (here : ProductAt (cells.map markOf) place) :
    ∃ rule found,
      (engine.reduction options).Applies products (Cell.kinds cells) place rule found := by
  obtain ⟨_, _, _, here, leftIs, times, rightIs⟩ := here
  obtain ⟨first, second, third, rfl, rfl, rfl, stands⟩ := exists_cells here
  have word := (word_operator_iff (show typesOf .times = [4] from rfl)).mpr
    ⟨first, second, third, rfl, leftIs, times, rightIs⟩
  exact runs.applies known (List.mem_singleton.mpr rfl) rfl
    (matchAt_ne_none rfl (word_concat_iff.mpr word) (List.cons_ne_nil _ _) stands)

theorem applies_of_sumAt (here : SumAt (cells.map markOf) place) :
    ∃ rule found, (engine.reduction options).Applies sums (Cell.kinds cells) place rule found := by
  obtain ⟨_, _, _, here, leftIs, plus, rightIs, clear⟩ := here
  obtain ⟨first, second, third, rfl, rfl, rfl, stands⟩ := exists_cells here
  have word := (word_operator_iff (show typesOf .plus = [3] from rfl)).mpr
    ⟨first, second, third, rfl, leftIs, plus, rightIs⟩
  exact runs.applies known (List.mem_singleton.mpr rfl) rfl
    (matchAt_guarded_ne_none rfl word (List.cons_ne_nil _ _) stands (guard_iff.mpr clear))

end

/-! ## Sentences -/

/-- The cells are a sentence for a tree. -/
def Stands (tree : Tree) (cells : List Cell) : Prop :=
  Sentence tree (cells.map markOf)

/-- No product is left before a place. -/
def Multiplied (tree : Tree) (place : Nat) (cells : List Cell) : Prop :=
  Stands tree cells ∧ ∀ earlier < place, ¬ProductAt (cells.map markOf) earlier

/-- No product is left, and no sum before a place. -/
def Added (tree : Tree) (place : Nat) (cells : List Cell) : Prop :=
  Stands tree cells ∧ (∀ place, ¬ProductAt (cells.map markOf) place) ∧
    ∀ earlier < place, ¬SumAt (cells.map markOf) earlier

section

variable {engine : Engine} (runs : tables.Runs engine) {options : ParseOptions} {tree : Tree}

/-- Every cell of a sentence has been recognized. -/
theorem absorbs_eq_false {cells : List Cell} (stands : Stands tree cells) :
    (engine.reduction options).absorbs (Cell.kinds cells) = false := by
  obtain ⟨_, _, reads, _⟩ := stands
  have recognized : unrecognized ∉ cells.map (·.nodeType) := by
    intro member
    obtain ⟨cell, member, same⟩ := List.mem_map.mp member
    refine reads.ne_other (markOf cell) (List.mem_map_of_mem member) ?_
    rw [markOf, same]
    rfl
  have absent : (Cell.kinds cells).contains unrecognized = false := by
    simpa [Cell.kinds] using recognized
  rw [absorbs, absent, Bool.and_false]

include runs

/-- Where no rule applies, a sentence is a single operand. -/
theorem single_of_silent {cells : List Cell} (stands : Stands tree cells)
    (silent : ∀ group ∈ tables.groups, ∀ stop,
      (engine.reduction options).Silent group (Cell.kinds cells) 0 stop) :
    ∃ cell, cells = [cell] := by
  have known := @absorbs_eq_false engine options tree cells stands
  have stuck : Stuck (cells.map markOf) := fun place =>
    ⟨(silent parens (.head _) (place + 1)).not_before nofun
        (fun _ => applies_of_parenAt runs known) place (Nat.lt_succ_self _),
      (silent products (.tail _ (.head _)) (place + 1)).not_before nofun
        (fun _ => applies_of_productAt runs known) place (Nat.lt_succ_self _),
      (silent sums (.tail _ (.tail _ (.head _))) (place + 1)).not_before nofun
        (fun _ => applies_of_sumAt runs known) place (Nat.lt_succ_self _)⟩
  obtain ⟨mark, single⟩ := stands.single_of_stuck stuck
  obtain ⟨cell, rfl, _⟩ := List.map_eq_singleton_iff.mp single
  exact ⟨cell, rfl⟩

variable (merges : (engine.reduction options).Merges) (parser : String)

include merges

theorem brings_parens :
    (engine.reduction options).Brings parser parens (Stands tree) (Multiplied tree 0) := by
  have reduces := @Merges.brings _ merges parser parens (fun _ => Stands tree)
    fun {position start cells rule found} stands _ applies _ => by
      obtain ⟨before, opening, inner, closing, after, same, _, opens, closes, made⟩ :=
        joins_of_parens runs (absorbs_eq_false stands) applies
      rw [Stands, same] at stands
      rw [Stands, made]
      exact stands.paren_step opens closes
  exact reduces.imp fun cells left => ⟨left.choose_spec.1, nofun⟩

theorem brings_products :
    (engine.reduction options).Brings parser products (Multiplied tree 0) (Added tree 0) := by
  have reduces := @Merges.brings _ merges parser products (Multiplied tree)
    fun {position start cells rule found} holds _ applies silent => by
      obtain ⟨stands, earlier⟩ := holds
      have known := @absorbs_eq_false engine options tree cells stands
      have leftmost := silent.not_before earlier fun _ => applies_of_productAt runs known
      obtain ⟨before, left, sign, right, after, same, rfl, leftIs, times, rightIs, made⟩ :=
        joins_of_products runs known applies
      rw [Stands, same] at stands
      rw [same] at leftmost
      rw [Multiplied, Stands, made]
      refine ⟨stands.product_step leftIs times rightIs leftmost, fun place early => ?_⟩
      exact not_productAt_exchange leftIs nofun (leftmost place early) early
  refine reduces.imp fun cells left => ?_
  obtain ⟨position, ⟨stands, earlier⟩, silent⟩ := left
  refine ⟨stands, fun place => ?_, nofun⟩
  exact (silent (place + 1)).not_before earlier
    (fun _ => applies_of_productAt runs (absorbs_eq_false stands)) place (Nat.lt_succ_self _)

theorem brings_sums :
    (engine.reduction options).Brings parser sums (Added tree 0) (Stands tree) := by
  have reduces := @Merges.brings _ merges parser sums (Added tree)
    fun {position start cells rule found} holds _ applies silent => by
      obtain ⟨stands, productless, earlier⟩ := holds
      have known := @absorbs_eq_false engine options tree cells stands
      have leftmost := silent.not_before earlier fun _ => applies_of_sumAt runs known
      obtain ⟨before, left, sign, right, after, same, rfl, leftIs, plus, rightIs, clear, made⟩ :=
        joins_of_sums runs known applies
      rw [Stands, same] at stands
      rw [same] at leftmost productless
      rw [Added, Stands, made]
      refine ⟨stands.sum_step leftIs plus rightIs clear productless leftmost, fun place => ?_,
        fun place early => ?_⟩
      · exact not_productAt_sum leftIs nofun clear productless
      · exact not_sumAt_exchange leftIs plus (.inr (.inr rfl)) (leftmost place early) early
  exact reduces.imp fun cells left => left.choose_spec.1.1

end

/-! ## Texts -/

theorem compiles : tables.Compiles := by
  refine List.forall_mem_cons.mpr ⟨?_, List.forall_mem_cons.mpr ⟨?_,
    List.forall_mem_singleton.mpr ?_⟩⟩
  · cbv
  · cbv
  · cbv

/-- The rows are compiled to an engine that works from the tables. -/
theorem exists_engine :
    ∃ engine, Engine.ofRows Fixture.arithmetic = .ok engine ∧ tables.Runs engine :=
  Tables.exists_runs (by decide +kernel) compiles (by decide)

/-- An expression that leaves room after its parentheses, with any blanks between its lexemes, is
parsed to the tree of its usual reading. -/
theorem parse_expression {expression : Expression} {text : String} (room : expression.HasRoom)
    (laid : Laid RowGrammar.Text.isBlank expression.lexemes text.toList) (strict : Bool) :
    ∃ engine, Engine.ofRows Fixture.arithmetic = .ok engine ∧
      ∃ report, engine.parse text { strict := strict } = .ok report ∧ report.halted = false ∧
        report.tree = expression.tree := by
  obtain ⟨engine, loads, runs⟩ := exists_engine
  obtain ⟨marks, are, kept, sentence⟩ := Expression.exists_marks room
  obtain ⟨pieces, texts, rfl, apart⟩ :=
    Tables.exists_pieces (are.imp fun _ _ => exists_piece) kept
  rw [← texts] at laid
  have nonempty : pieces ≠ [] := by
    rintro rfl
    obtain ⟨_, _, reads, valued⟩ := sentence
    cases reads
    cases valued
  have merges := @Tables.Runs.merges _ _ runs { strict := strict } rfl rfl
  obtain ⟨report, cell, parsed, shows_, runs_, left⟩ := runs.parse_laid { strict := strict } rfl rfl
    rfl (.cons (brings_parens runs merges _) (.cons (brings_products runs merges _)
      (.cons (brings_sums runs merges _) .nil))) (fun _ => id)
    (fun cells stands silent => single_of_silent runs stands silent) spaces apart laid nonempty
    sentence
  exact ⟨engine, loads, report, parsed, runs_, shows_.trans left.eq_of_single⟩

/-- One more term after parentheses. -/
theorem parse_expression_nested : ∃ engine, Engine.ofRows Fixture.arithmetic = .ok engine ∧
    ∃ report, engine.parse "2*(1+30)+4*5" {} = .ok report ∧ report.halted = false ∧
      report.tree = sumTree
        (productTree (.leaf "Num" "2") (.leaf "Times" "*") (parenTree (.leaf "LParen" "(")
          (sumTree (.leaf "Num" "1") (.leaf "Plus" "+") (.leaf "Num" "30")) (.leaf "RParen" ")")))
        (.leaf "Plus" "+")
        (productTree (.leaf "Num" "4") (.leaf "Times" "*") (.leaf "Num" "5")) := by
  let one := Factor.ofDigits ['1'] nofun rfl
  let two := Factor.ofDigits ['2'] nofun rfl
  let four := Factor.ofDigits ['4'] nofun rfl
  let five := Factor.ofDigits ['5'] nofun rfl
  let thirty := Factor.ofDigits ['3', '0'] nofun rfl
  let expression := Expression.plus
    (.term (.times (.factor two) (.paren (.plus (.term (.factor one)) (.factor thirty)))))
    (.times (.factor four) five)
  have chars : "2*(1+30)+4*5".toList = expression.lexemes.flatten := rfl
  exact @parse_expression expression _ rfl (chars ▸ .flatten _ _) false

/-- When a sum is put together, what may come before it is not looked at. -/
theorem parse_left_parenthesis :
    ∃ engine, Engine.ofRows Fixture.arithmetic = .ok engine ∧
    ∃ report, engine.parse "(1+2)*3+4" {} = .ok report ∧
      report.tree = productTree
        (parenTree (.leaf "LParen" "(")
          (sumTree (.leaf "Num" "1") (.leaf "Plus" "+") (.leaf "Num" "2")) (.leaf "RParen" ")"))
        (.leaf "Times" "*") (sumTree (.leaf "Num" "3") (.leaf "Plus" "+") (.leaf "Num" "4")) ∧
      ∃ expression : Expression,
        Laid RowGrammar.Text.isBlank expression.lexemes "(1+2)*3+4".toList ∧
          report.tree ≠ expression.tree := by
  have evaluated : (Engine.ofRows Fixture.arithmetic).toOption.any (fun engine =>
      (engine.parse "(1+2)*3+4" {}).toOption.any fun report => decide (report.tree = productTree
        (parenTree (.leaf "LParen" "(")
          (sumTree (.leaf "Num" "1") (.leaf "Plus" "+") (.leaf "Num" "2")) (.leaf "RParen" ")"))
        (.leaf "Times" "*") (sumTree (.leaf "Num" "3") (.leaf "Plus" "+") (.leaf "Num" "4")))) =
          true := by decide +kernel
  rw [Option.any_eq_true] at evaluated
  obtain ⟨engine, loads, evaluated⟩ := evaluated
  rw [Option.any_eq_true] at evaluated
  obtain ⟨report, parses, evaluated⟩ := evaluated
  let one := Factor.ofDigits ['1'] nofun rfl
  let two := Factor.ofDigits ['2'] nofun rfl
  let three := Factor.ofDigits ['3'] nofun rfl
  let four := Factor.ofDigits ['4'] nofun rfl
  let expression := Expression.plus
    (.term (.times (.factor (.paren (.plus (.term (.factor one)) (.factor two)))) three))
    (.factor four)
  have chars : "(1+2)*3+4".toList = expression.lexemes.flatten := rfl
  have same := of_decide_eq_true evaluated
  refine ⟨engine, eq_ok_of_toOption loads, report, eq_ok_of_toOption parses, same, expression,
    chars ▸ .flatten _ _, ?_⟩
  rw [same]
  decide

end RowGrammar.ArithmeticGrammar
