import Mathlib.Computability.Primrec.List
import RowGrammar.Fixture
import RowGrammar.Proofs.JsonGrammar.Tokens

/-!
# The JSON grammar parses JSON

What the rules of the grammar put together is what a reader of JSON reads as one mark, so the cells
of a text stay a sentence for its value.  A sentence that is not a single value has something in it
to put together, and a rule applies there.
-/

namespace RowGrammar.JsonGrammar

open SymbolPattern ReductionContext Json

/-! ## Roles -/

/-- The types of the symbols that play a part. -/
def typesOf : Role → List NodeTypeId
  | .opening .curly => [2]
  | .closing .curly => [3]
  | .opening .square => [4]
  | .closing .square => [5]
  | .colon => [6]
  | .comma => [7]
  | .text => [8]
  | .atom => [9, 10, 11, 13, 14]
  | .member => [12]
  | .other => []

theorem roleOf_eq_iff {nodeType : NodeTypeId} {role : Role} (known : role ≠ .other) :
    roleOf nodeType = role ↔ nodeType ∈ typesOf role := by
  rcases role with (_ | _) | (_ | _) | _ | _ | _ | _ | _ | _
  case other => exact absurd rfl known
  all_goals
    unfold roleOf
    split <;> simp_all [typesOf]

theorem isValue_markOf_iff {cell : Cell} : (markOf cell).IsValue ↔ cell.nodeType ∈ values := by
  have types : values = typesOf .text ++ typesOf .atom := rfl
  rw [types, List.mem_append, ← roleOf_eq_iff (by decide), ← roleOf_eq_iff (by decide)]
  exact Iff.rfl

/-! ## What rules do -/

theorem valueList_eq (registry : Registry) (trees : List Tree) :
    Tree.valueList registry trees = trees.filterMap (·.value? registry) := by
  induction trees with
  | nil => rw [Tree.valueList, List.filterMap_nil]
  | cons tree trees induction =>
      rw [Tree.valueList, induction, List.filterMap_cons]
      cases tree.value? registry <;> rfl

/-- A branch stands for what its type makes of the values of its children. -/
theorem markOf_branch (nodeType : NodeTypeId) (primitive : PrimitiveType)
    (known : tables.registry.knownPrimitive? (tables.registry.name nodeType) = some primitive)
    (captured : List Cell) :
    ∃ text, markOf (.branch tables.registry nodeType captured) =
      ⟨roleOf nodeType, some (Simplify.primitiveValue primitive text
        ((captured.map markOf).filterMap Mark.value))⟩ := by
  refine ⟨(Cell.branch tables.registry nodeType captured).tree.sourceText, ?_⟩
  rw [markOf, Cell.branch, Tree.value?, known, valueList_eq, List.filterMap_map, List.filterMap_map]
  rfl

/-- A list in brackets is put together. -/
theorem contracts_of_bracketed (bracket : Bracket) (primitive : PrimitiveType)
    {nodeType : NodeTypeId}
    (known : tables.registry.knownPrimitive? (tables.registry.name nodeType) = some primitive)
    (atom : roleOf nodeType = .atom)
    (completes : ∀ text values,
      Simplify.primitiveValue primitive text values = bracket.complete values)
    {captured : List Cell} {items : List NodeTypeId}
    (item : ∀ cell : Cell, cell.nodeType ∈ items → bracket.Item (markOf cell))
    {opening separator closing : NodeTypeId} (opens : roleOf opening = .opening bracket)
    (separates : roleOf separator = .comma) (closes : roleOf closing = .closing bracket)
    (word : (bracketed opening items separator closing).Word (captured.map (·.nodeType))) :
    Contracts (captured.map markOf) (markOf (.branch tables.registry nodeType captured)) := by
  obtain ⟨inner, listed, same⟩ := word_bracketed_iff.mp word
  obtain ⟨first, _, rfl, rfl, others⟩ := List.map_eq_cons_iff.mp same
  obtain ⟨middle, _, rfl, rfl, ending⟩ := List.map_eq_append_iff.mp others
  obtain ⟨final, rfl, rfl⟩ := List.map_eq_singleton_iff.mp ending
  obtain ⟨text, made⟩ := markOf_branch _ _ known (first :: (middle ++ [final]))
  rw [made, atom, completes, List.map_cons, List.map_append, List.map_singleton]
  refine .list opens closes (listed_map_iff.mpr ?_)
  refine (listed_map_iff.mp listed).imp (fun cell => item cell) fun cell is => ?_
  rw [markOf, is, separates]

/-- What a rule takes is put together. -/
theorem contracts_of_word {entry : Tables.Rule} (listed : entry ∈ tables.rules)
    {captured : List Cell} (word : entry.body.Word (captured.map (·.nodeType))) :
    Contracts (captured.map markOf) (markOf (.branch tables.registry entry.nodeType captured)) := by
  simp only [tables, List.mem_cons, List.not_mem_nil, or_false] at listed
  rcases listed with rfl | rfl | rfl
  · simp only [word_concat_iff, wordItems_symbols_iff, wordItems_nil_iff,
      List.mem_singleton] at word
    obtain ⟨_, rfl, _, ⟨_, rfl, _, ⟨nodeType, isValue, _, rfl, rfl⟩, rfl⟩, same⟩ := word
    obtain ⟨key, _, rfl, isKey, others⟩ := List.map_eq_cons_iff.mp same.symm
    obtain ⟨colon, _, rfl, isColon, ending⟩ := List.map_eq_cons_iff.mp others
    obtain ⟨value, rfl, rfl⟩ := List.map_eq_singleton_iff.mp ending
    obtain ⟨text, made⟩ :=
      markOf_branch 12 .member (knownPrimitive?_eq 12 (by decide)) [key, colon, value]
    rw [made]
    exact .member ((roleOf_eq_iff (by decide)).mpr (List.mem_singleton.mpr isKey))
      ((roleOf_eq_iff (by decide)).mpr (List.mem_singleton.mpr isColon))
      (isValue_markOf_iff.mpr isValue)
  · exact contracts_of_bracketed .curly .object (knownPrimitive?_eq 13 (by decide)) rfl
      (fun _ _ => rfl) (fun cell is => (roleOf_eq_iff (by decide)).mpr is) rfl rfl rfl word
  · exact contracts_of_bracketed .square .array (knownPrimitive?_eq 14 (by decide)) rfl
      (fun _ _ => rfl) (fun cell is => isValue_markOf_iff.mpr is) rfl rfl rfl word

theorem word_of_listed (bracket : Bracket) {captured : List Cell} {opening closing : Mark}
    {inner : List Mark} (same : captured.map markOf = opening :: (inner ++ [closing]))
    (opens : opening.role = .opening bracket) (closes : closing.role = .closing bracket)
    (listed : Listed bracket.Item (·.role = .comma) inner) {items : List NodeTypeId}
    (item : ∀ cell : Cell, bracket.Item (markOf cell) → cell.nodeType ∈ items)
    {opening' closing' : NodeTypeId} (before : typesOf (.opening bracket) = [opening'])
    (after : typesOf (.closing bracket) = [closing']) :
    (bracketed opening' items 7 closing').Word (captured.map (·.nodeType)) := by
  obtain ⟨first, _, rfl, rfl, others⟩ := List.map_eq_cons_iff.mp same
  obtain ⟨middle, _, rfl, rfl, ending⟩ := List.map_eq_append_iff.mp others
  obtain ⟨final, rfl, rfl⟩ := List.map_eq_singleton_iff.mp ending
  have typed (role : Role) {nodeType : NodeTypeId} {cell : Cell} (known : role ≠ .other)
      (types : typesOf role = [nodeType]) (is : (markOf cell).role = role) :
      cell.nodeType = nodeType := by
    have member := (roleOf_eq_iff known).mp is
    rwa [types, List.mem_singleton] at member
  refine word_bracketed_iff.mpr ⟨middle.map (·.nodeType), ?_, ?_⟩
  · refine listed_map_iff.mpr ((listed_map_iff.mp listed).imp item fun cell is => ?_)
    exact typed .comma (by decide) rfl is
  · have opened := typed (.opening bracket) nofun before opens
    have closed := typed (.closing bracket) nofun after closes
    simp [opened, closed]

/-- Where something can be put together, there is a rule for it. -/
theorem exists_word_of_contracts {captured : List Cell} {mark : Mark}
    (contracts : Contracts (captured.map markOf) mark) :
    ∃ group ∈ tables.groups, ∃ id ∈ group.rules, ∃ entry, tables.rules[id]? = some entry ∧
      entry.body.looks = false ∧ entry.body.Word (captured.map (·.nodeType)) := by
  generalize same : captured.map markOf = marks at contracts
  cases contracts with
  | member isKey isColon isValue =>
      obtain ⟨key, _, rfl, rfl, others⟩ := List.map_eq_cons_iff.mp same
      obtain ⟨colon, _, rfl, rfl, ending⟩ := List.map_eq_cons_iff.mp others
      obtain ⟨value, rfl, rfl⟩ := List.map_eq_singleton_iff.mp ending
      refine ⟨⟨"1", [0]⟩, List.mem_cons_self, 0, List.mem_cons_self, _, rfl, rfl, ?_⟩
      have keyed := List.mem_singleton.mp ((roleOf_eq_iff (by decide)).mp isKey)
      have parted := List.mem_singleton.mp ((roleOf_eq_iff (by decide)).mp isColon)
      simp only [word_concat_iff, wordItems_symbols_iff, wordItems_nil_iff, List.mem_singleton]
      exact ⟨_, rfl, _, ⟨_, rfl, _, ⟨_, isValue_markOf_iff.mp isValue, _, rfl, rfl⟩, rfl⟩, by
        simp [keyed, parted]⟩
  | @list bracket _ _ _ opens closes listed =>
      cases bracket with
      | curly =>
          exact ⟨⟨"2", [1, 2]⟩, .tail _ List.mem_cons_self, 1, List.mem_cons_self, _, rfl, rfl,
            word_of_listed .curly same opens closes listed
              (fun cell is => (roleOf_eq_iff (by decide)).mp is) rfl rfl⟩
      | square =>
          exact ⟨⟨"2", [1, 2]⟩, .tail _ List.mem_cons_self, 2, .tail _ List.mem_cons_self, _, rfl,
            rfl, word_of_listed .square same opens closes listed
              (fun cell is => isValue_markOf_iff.mp is) rfl rfl⟩

/-! ## Sentences -/

/-- The cells are a sentence for a value. -/
def Sentence (value : Json) (cells : List Cell) : Prop :=
  (Reader.inside []).readAll (cells.map markOf) = some (.done value)

section

variable {engine : Engine} (runs : tables.Runs engine) {options : ParseOptions}
  (strict : options.strict = true)

include runs strict

/-- A reduction leaves a sentence for the same value. -/
theorem sentence_reduced {value : Json} {group : PrecedenceGroup} {start : Nat} {cells : List Cell}
    {rule : ParserRule} {found : Match} (sentence : Sentence value cells)
    (applies : (engine.reduction options).Applies group (Cell.kinds cells) start rule found) :
    Sentence value (found.capture.splice (Cell.branch (engine.reduction options).grammar.registry
      rule.nodeType (found.capture.slice cells)) cells) := by
  obtain ⟨id, _, entry, listed, _, before, captured, after, rfl, _, _, word, reduced⟩ :=
    runs.exists_captured (absorbs_eq_false_of_strict strict _) applies
  rw [reduced]
  have contracts := contracts_of_word (List.mem_of_getElem? listed) word
  rw [Sentence, List.map_append, List.map_append] at sentence
  rw [Sentence, List.map_append, List.map_cons]
  exact Reader.readAll_contracted contracts sentence

/-- Where no rule applies, a sentence is a single value. -/
theorem single_of_silent {value : Json} {cells : List Cell} (sentence : Sentence value cells)
    (silent : ∀ group ∈ tables.groups, ∀ stop,
      (engine.reduction options).Silent group (Cell.kinds cells) 0 stop) :
    ∃ cell, cells = [cell] := by
  rcases Reader.single_or_contracts sentence with
    ⟨mark, same, _⟩ | ⟨before, word, after, mark, same, contracts⟩
  · obtain ⟨cell, rfl, _⟩ := List.map_eq_singleton_iff.mp same
    exact ⟨cell, rfl⟩
  · obtain ⟨first, _, rfl, rfl, rest⟩ := List.map_eq_append_iff.mp same
    obtain ⟨captured, last, rfl, rfl, rfl⟩ := List.map_eq_append_iff.mp rest
    obtain ⟨group, member, id, inside, entry, listed, blind, is⟩ :=
      exists_word_of_contracts contracts
    have filled : captured.map (·.nodeType) ≠ [] := by
      rintro nothing
      rw [List.map_eq_nil_iff] at nothing
      subst nothing
      cases contracts
    have stands : captured.map (·.nodeType) <+:
        (Cell.kinds (first ++ (captured ++ last))).toList.drop first.length := by
      simp [Cell.kinds]
    obtain ⟨rule, found, applies⟩ := runs.applies (absorbs_eq_false_of_strict strict _) inside
      listed (matchAt_ne_none blind is filled stands)
    exact absurd applies (silent group member (first.length + 1) _ (Nat.zero_le _)
      (Nat.lt_succ_self _) rule found)

theorem brings (unlimited : options.maxNodes = none) (unexpected : options.expected = none)
    (value : Json) (parser : String) (group : PrecedenceGroup) :
    (engine.reduction options).Brings parser group (Sentence value) (Sentence value) := by
  have reduces := @Merges.brings _ (runs.merges unlimited unexpected) parser group
    (fun _ => Sentence value) fun sentence _ applies _ =>
      sentence_reduced runs strict sentence applies
  exact reduces.imp fun _ left => left.choose_spec.1

end

/-! ## Texts -/

theorem compiles : tables.Compiles := by
  refine List.forall_mem_cons.mpr ⟨?_, List.forall_mem_cons.mpr ⟨?_,
    List.forall_mem_singleton.mpr ?_⟩⟩
  · cbv
  · cbv
  · cbv

/-- The rows are compiled to an engine that works from the tables. -/
theorem exists_engine : ∃ engine, Engine.ofRows Fixture.json = .ok engine ∧ tables.Runs engine :=
  Tables.exists_runs (by decide +kernel) compiles (by decide)

/-- However a value is written, with any blanks between the lexemes, the text is parsed, and the
tree stands for the value. -/
theorem parse_written : ∃ engine, Engine.ofRows Fixture.json = .ok engine ∧
    ∀ (value : Json) (lexemes : List (List Char)) (text : String), Written value lexemes →
      Laid isSpace lexemes text.toList →
      ∃ report, engine.parse text { strict := true } = .ok report ∧ report.halted = false ∧
        report.tree.simplify engine.grammar.registry = value := by
  obtain ⟨engine, loads, runs⟩ := exists_engine
  refine ⟨engine, loads, fun value lexemes text written laid => ?_⟩
  have blanks (c : Char) (space : isSpace c = true) : RowGrammar.Text.isBlank c = true := by
    simp only [isSpace, Bool.or_eq_true, beq_iff_eq] at space
    rcases space with ((rfl | rfl) | rfl) | rfl <;> rfl
  obtain ⟨marks, are, kept, reads⟩ := written.leads [] _ rfl
  obtain ⟨pieces, rfl, rfl, apart⟩ := Tables.exists_pieces (are.imp fun _ _ => exists_piece) kept
  have nonempty : pieces ≠ [] := by
    rintro rfl
    cases reads
  have each := @brings engine runs { strict := true } rfl rfl rfl value tables.parser
  obtain ⟨report, cell, parsed, shows_, runs_, left⟩ := runs.parse_laid { strict := true } rfl rfl
    rfl (.cons (each _) (.cons (each _) .nil)) (fun _ => id)
    (fun cells sentence silent => single_of_silent runs rfl sentence silent) spaces apart
    (laid.imp blanks) nonempty reads
  refine ⟨report, parsed, runs_, ?_⟩
  have stands : cell.tree.value? tables.registry = some value :=
    Reader.value_of_readAll_singleton left
  rw [shows_, Tree.simplify, runs.registry_eq, stands, Option.getD_some]

/-- An escape in a key, and blanks of several kinds. -/
theorem parse_written_record : ∃ engine, Engine.ofRows Fixture.json = .ok engine ∧
    ∃ report, engine.parse "\x7b\"\\u006B\" :\n[-1,\tnull] \x7d" { strict := true } = .ok report ∧
      report.halted = false ∧ report.tree.simplify engine.grammar.registry =
        .object [("k", .array [.integer (-1), .null])] := by
  obtain ⟨engine, loads, parses⟩ := parse_written
  refine ⟨engine, loads, parses _ [['{'], ['"', '\\', 'u', '0', '0', '6', 'B', '"'], [':'], ['['],
    ['-', '1'], [','], ['n', 'u', 'l', 'l'], [']'], ['}']] _ ?_ ?_⟩
  · have key : StringSpelling "k" ['"', '\\', 'u', '0', '0', '6', 'B', '"'] :=
      ⟨_, .cons (.unit (show UnitSpelling 'k'.toNat ['0', '0', '6', 'B'] from ⟨rfl, by decide⟩))
        .nil, rfl⟩
    have digits : (integerText (-1)).toList = ['-', '1'] := rfl
    have number : Written (.integer (-1)) [['-', '1']] := by
      rw [← digits]
      exact .integer (.plain (by decide) (by decide))
    exact .object (List.pairwise_singleton _ _) (.refl _)
      (.last key (.array (.cons number (.last .null))))
  · have chars : "\x7b\"\\u006B\" :\n[-1,\tnull] \x7d".toList =
        [] ++ (['{'] ++ ([] ++ (['"', '\\', 'u', '0', '0', '6', 'B', '"'] ++ ([' '] ++ ([':'] ++
          (['\n'] ++ (['['] ++ ([] ++ (['-', '1'] ++ ([] ++ ([','] ++ (['\t'] ++
          (['n', 'u', 'l', 'l'] ++ ([] ++ ([']'] ++ ([' '] ++ (['}'] ++ []))))))))))))))))) := by
      rfl
    have none_ : ∀ c ∈ ([] : List Char), isSpace c = true := nofun
    have one {c : Char} (space : isSpace c = true) : ∀ other ∈ [c], isSpace other = true :=
      List.forall_mem_singleton.mpr space
    rw [chars]
    exact .lexeme none_ (.lexeme none_ (.lexeme (one rfl) (.lexeme (one rfl) (.lexeme none_
      (.lexeme none_ (.lexeme (one rfl) (.lexeme none_ (.lexeme (one rfl) (.last none_)))))))))

end RowGrammar.JsonGrammar
