import RowGrammar.Proofs.Grammar.Renumbering

/-!
# Consistent tables

The precedence groups of all parsers fit the parser rules and the rows: every rule has one place,
and the key of its group.  Moving rules keeps them so, whatever moves are asked for, and a move puts
nothing later but the rule that it names.
-/

namespace RowGrammar

open RowGrammar.Text

/-! ## Moving a rule between groups -/

/-- The rules of some groups without one of them, group by group. -/
def rulesWithout (rule : RuleId) (groups : List PrecedenceGroup) : List (List RuleId) :=
  (groups.map fun group => group.rules.filter (· != rule)).filter (· ≠ [])

theorem rulesWithout_append (rule : RuleId) (groups others : List PrecedenceGroup) :
    rulesWithout rule (groups ++ others) =
      rulesWithout rule groups ++ rulesWithout rule others := by
  simp [rulesWithout]

/-- A rule that is alone in its group leaves nothing. -/
theorem rulesWithout_alone {rule : RuleId} {group : PrecedenceGroup} (alone : group.rules = [rule])
    (groups : List PrecedenceGroup) :
    rulesWithout rule (group :: groups) = rulesWithout rule groups := by
  rw [rulesWithout, List.map_cons, alone, List.filter_cons_of_neg (by simp)]
  rfl

theorem rulesWithout_cons (rule : RuleId) (group : PrecedenceGroup)
    (groups : List PrecedenceGroup) : rulesWithout rule (group :: groups) =
      rulesWithout rule [group] ++ rulesWithout rule groups :=
  rulesWithout_append rule [group] groups

theorem rulesWithout_renumber (rule : RuleId) (groups : List PrecedenceGroup) :
    rulesWithout rule (renumber groups) = rulesWithout rule groups := by
  have shown (groups : List PrecedenceGroup) : rulesWithout rule groups =
      ((groups.map (·.rules)).map (·.filter (· != rule))).filter (· ≠ []) := by
    rw [rulesWithout, List.map_map]
    rfl
  rw [shown, map_rules_renumber, shown]

/-- A rule that moves gets into the next group, and the other rules stay in order. -/
theorem moveLater?_puts {rule : RuleId} {index : Nat} {groups moved : List PrecedenceGroup}
    {group : PrecedenceGroup} (present : groups[index]? = some group) (member : rule ∈ group.rules)
    (result : moveLater? rule index groups = some moved) :
    (∃ next, moved[index + 1]? = some next ∧ rule ∈ next.rules) ∧
      rulesWithout rule moved = rulesWithout rule groups := by
  cases moveLater?_eq_some_iff.mp result with
  | @apart before after held several =>
      refine ⟨⟨⟨"", [rule]⟩, by simp, by simp⟩, ?_⟩
      have others : rulesWithout rule [{ held with rules := held.rules.filter (· != rule) }] =
          rulesWithout rule [held] := by simp [rulesWithout]
      have alone : (⟨"", [rule]⟩ : PrecedenceGroup).rules = [rule] := rfl
      rw [rulesWithout_append, rulesWithout_append, rulesWithout_cons, others,
        rulesWithout_alone alone, ← rulesWithout_cons]
  | @past before after held next alone =>
      have same : held = group := by simpa using present
      subst same
      refine ⟨⟨held, by simp, member⟩, ?_⟩
      have single := eq_singleton_of_mem member alone
      rw [rulesWithout_append, rulesWithout_append, rulesWithout_cons, rulesWithout_alone single,
        rulesWithout_alone single, ← rulesWithout_cons]

/-- A rule can move when its group has other rules or another group follows. -/
theorem moveLater?_isSome_iff {rule : RuleId} {index : Nat} {groups : List PrecedenceGroup}
    {group : PrecedenceGroup} (present : groups[index]? = some group) :
    (moveLater? rule index groups).isSome ↔
      1 < group.rules.length ∨ index + 1 < groups.length := by
  induction groups generalizing index with
  | nil => simp at present
  | cons first groups induction =>
      cases index with
      | zero =>
          cases present
          unfold moveLater?
          split_ifs with several
          · simp [several]
          · cases groups with
            | nil => simp [several]
            | cons next groups => simp
      | succ index =>
          rw [moveLater?, Option.isSome_map, induction present, List.length_cons]
          simp

/-- Where a rule is in one group only, that group is found. -/
theorem groupOf?_eq_some_iff {groups : List PrecedenceGroup} {rule : RuleId}
    (unique : ∀ {index other : Nat} {group group' : PrecedenceGroup}, groups[index]? = some group →
      groups[other]? = some group' → rule ∈ group.rules → rule ∈ group'.rules → index = other)
    {suggested index : Nat} :
    groupOf? groups suggested rule = some index ↔
      ∃ group, groups[index]? = some group ∧ rule ∈ group.rules := by
  refine ⟨groupOf?_eq_some, ?_⟩
  rintro ⟨group, present, member⟩
  have searched : groups.findIdx? (·.rules.contains rule) = some index := by
    obtain ⟨inside, rfl⟩ := List.getElem?_eq_some_iff.mp present
    rw [List.findIdx?_eq_some_iff_getElem]
    refine ⟨inside, by simpa using member, ?_⟩
    intro earlier before held
    have listed := List.getElem?_eq_getElem (Nat.lt_trans before inside)
    exact Nat.ne_of_lt before (unique listed present (by simpa using held) member)
  rw [groupOf?]
  split
  · split_ifs with held
    · rename_i other found
      rw [unique found present (List.contains_iff_mem.mp held) member]
    · exact searched
  · exact searched

/-- The keys of a table read `1`, `2` and so on. -/
def ParserTable.Numbered (table : ParserTable) : Prop :=
  table.groups.map (·.key) = (List.range' 1 table.groups.length).map decimal

theorem map_key_renumber (groups : List PrecedenceGroup) :
    (renumber groups).map (·.key) = (List.range' 1 (renumber groups).length).map decimal := by
  apply List.ext_getElem?
  intro index
  simp only [renumber, List.map_map, List.getElem?_map, List.getElem?_zipIdx, List.length_map,
    List.length_zipIdx]
  by_cases inside : index < groups.length
  · simp [inside, Nat.add_comm]
  · simp [inside]

namespace Grammar

/-- The group at `index` of a parser holds a rule. -/
def Holds (grammar : Grammar) (parser : String) (index : Nat) (rule : RuleId) : Prop :=
  ∃ table group, grammar.parser? parser = some table ∧ table.groups[index]? = some group ∧
    rule ∈ group.rules

theorem holds_iff {grammar : Grammar} {parser : String} {table : ParserTable}
    (known : grammar.parser? parser = some table) {index : Nat} {rule : RuleId} :
    grammar.Holds parser index rule ↔
      ∃ group, table.groups[index]? = some group ∧ rule ∈ group.rules := by
  simp [Holds, known]

/-- The precedence groups of all parsers fit the parser rules and the rows. -/
structure Consistent (grammar : Grammar) : Prop where
  /-- No parser has two tables. -/
  distinct : (tableNames grammar.parsers).Nodup
  filled : ∀ table ∈ grammar.parsers, ∀ group ∈ table.groups, group.rules ≠ []
  /-- No rule is in a group twice. -/
  once : ∀ table ∈ grammar.parsers, ∀ group ∈ table.groups, group.rules.Nodup
  /-- Every rule is in exactly one group of its parser. -/
  placed : ∀ (id : RuleId) rule, grammar.parserRules[id]? = some rule →
    ∃! index, grammar.Holds rule.parser index id
  /-- Groups hold rules of their own parser, and these have the key of the group, in their rows as
  well. -/
  keyed : ∀ table ∈ grammar.parsers, ∀ group ∈ table.groups, ∀ id ∈ group.rules,
    ∃ rule row, grammar.parserRules[id]? = some rule ∧ rule.parser = table.name ∧
      grammar.rows[rule.row]? = some row ∧
      row.nodeType = grammar.registry.name rule.nodeType ∧
      rule.precedence = group.key ∧ row.precedence = group.key

/-- A rule can move when there are other rules in its group or a group behind it. -/
def Movable (grammar : Grammar) (parser : String) (rule : RuleId) : Prop :=
  ∃ index, grammar.Holds parser index rule ∧
    ((∃ other, other ≠ rule ∧ grammar.Holds parser index other) ∨
      ∃ other, grammar.Holds parser (index + 1) other)

/-- What becomes of a grammar when nothing but one rule of a parser is put later. -/
structure PutsLater (grammar : Grammar) (parser : String) (rule : RuleId) (moved : Grammar) :
    Prop where
  /-- The group of the rule is the next one. -/
  later : ∃ index, grammar.Holds parser index rule ∧ moved.Holds parser (index + 1) rule
  /-- The other rules of the parser stay in their groups, and the groups in their order. -/
  others : ∃ table groups, grammar.parser? parser = some table ∧
    moved.parser? parser = some { table with groups } ∧
    rulesWithout rule groups = rulesWithout rule table.groups
  tables : ∀ other, other ≠ parser → moved.parser? other = grammar.parser? other
  names : tableNames moved.parsers = tableNames grammar.parsers
  /-- Rows and rules may have other keys. -/
  rows : moved.rows.toList.map Row.unkeyed = grammar.rows.toList.map Row.unkeyed
  rules : moved.parserRules.toList.map ParserRule.unkeyed =
    grammar.parserRules.toList.map ParserRule.unkeyed
  rest : moved = { grammar with
    rows := moved.rows, parserRules := moved.parserRules, parsers := moved.parsers }

/-! ## Arrangements -/

namespace Arranges

variable {rows : List Row} {groups : String → List PrecedenceGroup}
  (arranges : Arranges rows groups)

include arranges

omit arranges in
theorem parser?_of_mem {table : ParserTable} (member : table ∈ (arranged rows groups).parsers) :
    (arranged rows groups).parser? table.name = some table := by
  refine (find?_table_eq_some_iff ?_).mpr ⟨member, rfl⟩
  rw [tableNames_arranged]
  exact parserNames_nodup rows

/-- A rule is in one group at most. -/
theorem holds_unique {parser : String} {index other : Nat} {rule : RuleId}
    (held : (arranged rows groups).Holds parser index rule)
    (held' : (arranged rows groups).Holds parser other rule) : index = other := by
  obtain ⟨table, group, known, found, member⟩ := held
  obtain ⟨table', group', known', found', member'⟩ := held'
  rw [known, Option.some.injEq] at known'
  subst known'
  exact arranges.group_unique known found found' member member'

theorem consistent : (arranged rows groups).Consistent where
  distinct := by
    rw [tableNames_arranged]
    exact parserNames_nodup rows
  filled := by
    rw [parsers_arranged, List.forall_mem_map]
    exact fun parser known => (arranges.orderly parser known).filled
  once := by
    rw [parsers_arranged, List.forall_mem_map]
    intro parser known
    have ids := ((arranges.complete parser known).map Prod.fst).nodup_iff.mpr (rulesFor_nodup _ _)
    rw [keyedRules_map_fst] at ids
    exact (List.nodup_flatMap.mp ids).1
  placed id rule found := by
    have member : rule ∈ (ungrouped rows).parserRules.toList :=
      Array.mem_toList_iff.mpr (Array.mem_of_getElem? found)
    have known : (arranged rows groups).parser? rule.parser = some _ :=
      parser?_arranged.mpr ⟨parser_mem_of_parserRule member, rfl⟩
    obtain ⟨group, listed, inside⟩ := arranges.exists_group known found rfl
    obtain ⟨index, present⟩ := List.mem_iff_getElem?.mp listed
    have held : (arranged rows groups).Holds rule.parser index id :=
      ⟨_, group, known, present, inside⟩
    exact ⟨index, held, fun other held' => arranges.holds_unique held' held⟩
  keyed table member group listed id inside := by
    obtain ⟨rule, found, owned, key⟩ :=
      arranges.exists_rule (parser?_of_mem member) listed inside
    obtain ⟨row, here, _, same⟩ :=
      exists_row (Array.mem_toList_iff.mpr (Array.mem_of_getElem? found))
    have named := name_of_row here
    refine ⟨rule, row, found, owned, by simpa [arranged, ungrouped] using here, ?_, key, ?_⟩
    · rw [same]
      exact named.symm
    · rw [← key, same]

end Arranges

/-! ## What a move leaves -/

theorem find?_regroup (parser : String) (groups : List PrecedenceGroup)
    (tables : List ParserTable) (name : String) :
    (regroup parser groups tables).find? (·.name == name) =
      (tables.find? (·.name == name)).map fun table =>
        if name = parser then { table with groups } else table := by
  rw [regroup, List.find?_map]
  have names : ((·.name == name) ∘ fun table : ParserTable =>
      if table.name = parser then { table with groups } else table) = (·.name == name) := by
    funext table
    simp only [Function.comp_apply]
    split_ifs
    · rfl
    · rfl
  rw [names]
  cases found : tables.find? (·.name == name) with
  | none => rfl
  | some table =>
      have named : table.name = name := by simpa using List.find?_some found
      rw [Option.map_some, Option.map_some, named]

/-- Only the groups of one parser change, and they are numbered. -/
theorem parser?_relocate? {grammar moved : Grammar} {parser : String} {suggested : Nat}
    {rule : RuleId} (result : grammar.relocate? parser suggested rule = some moved) :
    (∀ other, other ≠ parser → moved.parser? other = grammar.parser? other) ∧
      ∃ table index later, grammar.parser? parser = some table ∧
        groupOf? table.groups suggested rule = some index ∧
        moveLater? rule index table.groups = some later ∧
        moved.parser? parser = some { table with groups := renumber later } := by
  simp only [relocate?, Option.bind_eq_bind, Option.bind_eq_some_iff, Option.pure_def,
    Option.some.injEq] at result
  obtain ⟨table, known, index, held, later, moves, rfl⟩ := result
  have tables (name : String) := find?_regroup parser (renumber later) grammar.parsers name
  refine ⟨?_, table, index, later, known, held, moves, ?_⟩
  · intro other apart
    have untouched := tables other
    simp only [if_neg apart, Option.map_id'] at untouched
    exact untouched
  · have changed := tables parser
    rw [← parser?, known, Option.map_some, if_pos rfl] at changed
    exact changed

/-- Once the groups of a parser are numbered, they always are. -/
theorem relocateAll_numbered {grammar : Grammar} {parser : String}
    (numbered : ∃ table, grammar.parser? parser = some table ∧ table.Numbered)
    (moves : List (String × Nat × RuleId)) :
    ∃ table, (grammar.relocateAll moves).parser? parser = some table ∧ table.Numbered := by
  induction moves generalizing grammar with
  | nil => exact numbered
  | cons move moves induction =>
      obtain ⟨other, group, rule⟩ := move
      rw [relocateAll]
      cases result : grammar.relocate? other group rule with
      | none => exact induction numbered
      | some moved =>
          apply induction
          rw [Option.getD_some]
          obtain ⟨untouched, table, _, later, _, _, _, known⟩ := parser?_relocate? result
          by_cases same : parser = other
          · rw [same]
            exact ⟨_, known, map_key_renumber later⟩
          · rw [untouched parser same]
            exact numbered

namespace Arranges

variable {rows : List Row} {groups : String → List PrecedenceGroup}
  (arranges : Arranges rows groups)

include arranges

theorem groupOf?_eq_some_iff {parser : String} {table : ParserTable}
    (known : (arranged rows groups).parser? parser = some table) {suggested index : Nat}
    {rule : RuleId} : groupOf? table.groups suggested rule = some index ↔
      (arranged rows groups).Holds parser index rule := by
  rw [holds_iff known]
  apply RowGrammar.groupOf?_eq_some_iff
  exact fun found found' member member' => arranges.group_unique known found found' member member'

/-- Which group is looked at first does not matter. -/
theorem relocate?_suggested (parser : String) (suggested other : Nat) (rule : RuleId) :
    (arranged rows groups).relocate? parser suggested rule =
      (arranged rows groups).relocate? parser other rule := by
  simp only [relocate?]
  cases known : (arranged rows groups).parser? parser with
  | none => rfl
  | some table =>
      have same : groupOf? table.groups suggested rule = groupOf? table.groups other rule := by
        apply Option.ext
        intro index
        rw [arranges.groupOf?_eq_some_iff known, arranges.groupOf?_eq_some_iff known]
      simp only [Option.bind_eq_bind, Option.bind_some, same]

theorem moveLater?_isSome_iff {parser : String} {table : ParserTable}
    (known : (arranged rows groups).parser? parser = some table) {index : Nat}
    {group : PrecedenceGroup} (present : table.groups[index]? = some group) {rule : RuleId}
    (member : rule ∈ group.rules) : (moveLater? rule index table.groups).isSome ↔
      (∃ other, other ≠ rule ∧ (arranged rows groups).Holds parser index other) ∨
        ∃ other, (arranged rows groups).Holds parser (index + 1) other := by
  have listed := List.mem_of_find?_eq_some known
  have nodup := arranges.consistent.once _ listed _ (List.mem_of_getElem? present)
  rw [RowGrammar.moveLater?_isSome_iff present, one_lt_length_iff nodup member]
  simp only [holds_iff known, present, Option.some.injEq, exists_eq_left']
  apply or_congr
  · simp only [and_comm]
  · constructor
    · intro inside
      have follows := List.getElem?_eq_getElem inside
      have filled := arranges.consistent.filled _ listed _ (List.mem_of_getElem? follows)
      exact ⟨_, _, follows, List.head_mem filled⟩
    · rintro ⟨_, _, follows, _⟩
      exact (List.getElem?_eq_some_iff.mp follows).1

/-- Only rules that can move are moved. -/
theorem relocate?_isSome_iff (parser : String) (suggested : Nat) (rule : RuleId) :
    ((arranged rows groups).relocate? parser suggested rule).isSome ↔
      (arranged rows groups).Movable parser rule := by
  constructor
  · intro moves
    obtain ⟨moved, result⟩ := Option.isSome_iff_exists.mp moves
    obtain ⟨_, table, index, later, known, held, moves, _⟩ := parser?_relocate? result
    obtain ⟨group, present, member⟩ := groupOf?_eq_some held
    refine ⟨index, (arranges.groupOf?_eq_some_iff known).mp held, ?_⟩
    rw [← arranges.moveLater?_isSome_iff known present member, moves]
    rfl
  · rintro ⟨index, held, free⟩
    obtain ⟨table, group, known, present, member⟩ := held
    rw [← arranges.moveLater?_isSome_iff known present member] at free
    obtain ⟨later, moves⟩ := Option.isSome_iff_exists.mp free
    have found : groupOf? table.groups suggested rule = some index :=
      (arranges.groupOf?_eq_some_iff known).mpr ⟨table, group, known, present, member⟩
    simp only [relocate?, known, found, moves, Option.bind_eq_bind, Option.bind_some]
    rfl

/-- A move puts one rule later. -/
theorem putsLater {parser : String} {suggested : Nat} {rule : RuleId} {moved : Grammar}
    (result : (arranged rows groups).relocate? parser suggested rule = some moved) :
    (arranged rows groups).PutsLater parser rule moved := by
  obtain ⟨others, regrouped, _, arranged_, same⟩ := relocate?_arranged arranges result
  obtain ⟨untouched, table, index, later, known, held, moves, known'⟩ := parser?_relocate? result
  obtain ⟨group, present, member⟩ := groupOf?_eq_some held
  obtain ⟨⟨next, follows, inside⟩, kept⟩ := moveLater?_puts present member moves
  have rules := congrArg (·[index + 1]?) (map_rules_renumber later)
  simp only [List.getElem?_map, follows, Option.map_some, Option.map_eq_some_iff] at rules
  obtain ⟨next', follows', equal⟩ := rules
  have whole := arranged_of_unkeyed same regrouped
  constructor
  case later =>
    refine ⟨index, ⟨table, group, known, present, member⟩, _, next', known', follows', ?_⟩
    rw [equal]
    exact inside
  case others =>
    exact ⟨table, _, known, known', (rulesWithout_renumber rule later).trans kept⟩
  case tables => exact untouched
  all_goals subst arranged_
  case names =>
    rw [tableNames_arranged, tableNames_arranged, parserNames_of_unkeyed same]
  case rows => exact same
  case rules => exact parserRules_of_unkeyed same
  case rest =>
    rw [whole]
    rfl

end Arranges

theorem relocateAll_append (grammar : Grammar) (moves more : List (String × Nat × RuleId)) :
    grammar.relocateAll (moves ++ more) = (grammar.relocateAll moves).relocateAll more := by
  induction moves generalizing grammar with
  | nil => rfl
  | cons move moves induction => exact induction _

/-- However rules of a loaded grammar are moved, its tables stay consistent.  What the next move
does is the same whichever group the rule is looked for in first: where it cannot move the grammar
stays as it is, and where it can, it alone is put later, and the groups of its parser are numbered
from then on. -/
theorem relocateAll_consistent {rows : List Row} {grammar : Grammar}
    (loaded : load rows = .ok grammar) (moves : List (String × Nat × RuleId)) :
    let state := grammar.relocateAll moves
    state.Consistent ∧ ∀ parser group rule,
      (∀ other, state.relocate? parser other rule = state.relocate? parser group rule) ∧
      (state.relocate? parser group rule = none ↔ ¬state.Movable parser rule) ∧
      (state.relocate? parser group rule = none →
        grammar.relocateAll (moves ++ [(parser, group, rule)]) = state) ∧
      ∀ moved, state.relocate? parser group rule = some moved →
        grammar.relocateAll (moves ++ [(parser, group, rule)]) = moved ∧
        state.PutsLater parser rule moved ∧
        ∀ later, ∃ table, (moved.relocateAll later).parser? parser = some table ∧
          table.Numbered := by
  intro state
  obtain ⟨groups, arranges, rfl⟩ := load_arranges loaded
  obtain ⟨others, regrouped, arranges, same⟩ := relocateAll_arranged arranges moves
  have state_eq : state = arranged others regrouped := same
  have next (move : String × Nat × RuleId) :
      (arranged (cleaned rows) groups).relocateAll (moves ++ [move]) =
        (state.relocate? move.1 move.2.1 move.2.2).getD state := relocateAll_append _ _ _
  clear_value state
  subst state_eq
  refine ⟨arranges.consistent, fun parser group rule => ⟨?_, ?_, ?_, ?_⟩⟩
  · exact fun other => arranges.relocate?_suggested parser other group rule
  · rw [← arranges.relocate?_isSome_iff parser group rule, Option.not_isSome_iff_eq_none]
  · intro stays
    rw [next, stays, Option.getD_none]
  · intro moved result
    refine ⟨by rw [next, result, Option.getD_some], arranges.putsLater result, ?_⟩
    intro later
    obtain ⟨_, table, _, _, _, _, _, known⟩ := parser?_relocate? result
    exact relocateAll_numbered ⟨_, known, map_key_renumber _⟩ later

/-- Rules of `main`, two of them in one group and one without a key, around a rule of `inner`. -/
def sharedRows : List Row := [
  .token "main" "Num" "[0-9]+",
  .production "main" "One" "Num" "a",
  .production "main" "Two" "Num Num" "a",
  .production "inner" "Three" "Num" "a",
  .production "main" "Four" "One" ""]

def sharedGrammar : Grammar :=
  ((load sharedRows).toOption).get (by decide +kernel)

/-- The first rule leaves its group, and then trades places with the last one; the only rule of
`inner` cannot move. -/
theorem relocateAll_shared :
    sharedGrammar.signature = "main:[One Two][Four];inner:[Three];" ∧
    let state := sharedGrammar.relocateAll [("main", 9, 0), ("inner", 0, 2)]
    state.Consistent ∧ state.signature = "main:[Two][One][Four];inner:[Three];" ∧
      ¬state.Movable "inner" 2 ∧
      ∃ moved, state.relocate? "main" 0 0 = some moved ∧ state.PutsLater "main" 0 moved ∧
        moved.signature = "main:[Two][Four][One];inner:[Three];" := by
  have loaded : load sharedRows = .ok sharedGrammar := eq_ok_get _
  obtain ⟨consistent, moves⟩ := relocateAll_consistent loaded [("main", 9, 0), ("inner", 0, 2)]
  refine ⟨by decide +kernel, consistent, by decide +kernel, ?_, ?_⟩
  · exact (moves "inner" 0 2).2.1.mp (by decide +kernel)
  · have shown : ((sharedGrammar.relocateAll [("main", 9, 0), ("inner", 0, 2)]).relocate?
        "main" 0 0).map signature = some "main:[Two][Four][One];inner:[Three];" := by
      decide +kernel
    obtain ⟨moved, result, signed⟩ := Option.map_eq_some_iff.mp shown
    exact ⟨moved, result, ((moves "main" 0 0).2.2.2 moved result).2.1, signed⟩

end Grammar

end RowGrammar
