import Mathlib.Data.List.Nodup
import RowGrammar.Proofs.Grammar.Grouping
import RowGrammar.Proofs.Grammar.Reading
import RowGrammar.Proofs.Trimming

/-!
# Arranged grammars

A loaded grammar is its rows together with an arrangement of the parser rules into precedence
groups.  Everything but the groups follows from the rows; loading chooses the one arrangement that
leaves the rules in the order of their rows.
-/

namespace RowGrammar

open RowGrammar.Text

/-- A row as it is after blank characters around its columns are dropped. -/
structure Row.Clean (row : Row) : Prop where
  filled : row.isBlank = false
  trimmed_eq : row.trimmed = row

/-- The parsers of rows in the order of their first rows. -/
def parserNames (rows : List Row) : List String :=
  rows.foldl (fun names row => if row.parser ∈ names then names else names ++ [row.parser]) []

namespace Grammar

theorem parserNames_append_singleton (rows : List Row) (row : Row) :
    parserNames (rows ++ [row]) =
      if row.parser ∈ parserNames rows then parserNames rows
      else parserNames rows ++ [row.parser] := by
  rw [parserNames, List.foldl_append]
  rfl

theorem mem_parserNames {rows : List Row} {parser : String} :
    parser ∈ parserNames rows ↔ ∃ row ∈ rows, row.parser = parser := by
  induction rows using List.reverseRecOn with
  | nil => simp [parserNames]
  | append_singleton rows row induction =>
      rw [parserNames_append_singleton]
      split_ifs with known
      · rw [induction]
        constructor
        · rintro ⟨other, member, same⟩
          exact ⟨other, by simp [member], same⟩
        · rintro ⟨other, member, same⟩
          rcases List.mem_append.mp member with before | last
          · exact ⟨other, before, same⟩
          · rw [List.mem_singleton.mp last] at same
            exact induction.mp (same ▸ known)
      · rw [List.mem_append, induction, List.mem_singleton]
        constructor
        · rintro (⟨other, member, same⟩ | rfl)
          · exact ⟨other, by simp [member], same⟩
          · exact ⟨row, by simp, rfl⟩
        · rintro ⟨other, member, same⟩
          rcases List.mem_append.mp member with before | last
          · exact .inl ⟨other, before, same⟩
          · rw [List.mem_singleton.mp last] at same
            exact .inr same.symm

theorem parserNames_congr {rows others : List Row}
    (same : others.map (·.parser) = rows.map (·.parser)) :
    parserNames others = parserNames rows := by
  have names (list : List Row) : parserNames list = (list.map (·.parser)).foldl
      (fun names parser => if parser ∈ names then names else names ++ [parser]) [] := by
    rw [parserNames, List.foldl_map]
  rw [names, names, same]

theorem mainParser_congr {rows others : List Row}
    (same : others.map (·.parser) = rows.map (·.parser)) :
    (ungrouped others).mainParser = (ungrouped rows).mainParser := by
  have main (list : List Row) : (ungrouped list).mainParser = (list.map (·.parser)).foldl
      (fun main parser => if main = "" then parser else main) "" := by
    rw [List.foldl_map]
    rfl
  rw [main, main, same]

theorem parserNames_nodup (rows : List Row) : (parserNames rows).Nodup := by
  induction rows using List.reverseRecOn with
  | nil => simp [parserNames]
  | append_singleton rows row induction =>
      rw [parserNames_append_singleton]
      split_ifs with known
      · exact induction
      · rw [List.nodup_append]
        refine ⟨induction, by simp, ?_⟩
        intro name inside other last same
        rw [List.mem_singleton.mp last] at same
        exact known (same ▸ inside)

/-- Reading rows makes an empty table for each of their parsers. -/
theorem ungrouped_parsers (rows : List Row) :
    (ungrouped rows).parsers = (parserNames rows).map fun name => ⟨name, [], []⟩ := by
  induction rows using List.reverseRecOn with
  | nil => rfl
  | append_singleton rows row induction =>
      have names : tableNames (ungrouped rows).parsers = parserNames rows := by
        rw [induction]
        simp [tableNames, Function.comp_def]
      have step : (ungrouped (rows ++ [row])).parsers =
          updateTable row.parser (fun table => table) (ungrouped rows).parsers := by
        simp [ungrouped]
      rw [step, parserNames_append_singleton]
      split_ifs with known
      · rw [updateTable_of_mem (by rw [names]; exact parserNames_nodup rows)
          (by rw [names]; exact known), ← induction]
        simp
      · rw [updateTable_of_notMem (by rw [names]; exact known), List.map_append, ← induction]
        rfl

/-- What the tokens of a token rule of rows are for. -/
def roleIn (rows : List Row) (rule : TokenRule) : TokenRole :=
  roleOf (ungrouped rows).parsedTypes (ungrouped rows).fragmentTypes rule

/-- The token types of a parser in the order they are tried. -/
def tokenTypesOf (rows : List Row) (parser : String) : List NodeTypeId :=
  ((ungrouped rows).tokenRules.toList.filter fun rule =>
    roleIn rows rule ≠ .fragment ∧ rule.parser = parser).map (·.nodeType)

/-- The token types that nothing refers to. -/
def unusedOf (rows : List Row) : List NodeTypeId :=
  ((ungrouped rows).tokenRules.toList.filter fun rule => roleIn rows rule = .unused).map
    (·.nodeType)

/-- The grammar of rows with the given precedence groups for every parser. -/
def arranged (rows : List Row) (groups : String → List PrecedenceGroup) : Grammar := {
  ungrouped rows with
  parsers := (parserNames rows).map fun name => ⟨name, tokenTypesOf rows name, groups name⟩
  suppressed := if (ungrouped rows).parserRules.isEmpty then [] else unusedOf rows
  unused := unusedOf rows }

theorem mem_tokenRules {rows : List Row} {rule : TokenRule} :
    rule ∈ (ungrouped rows).tokenRules.toList ↔
      ∃ (row : Row) (place : Nat), rows[place]? = some row ∧ row.tokenRule? place = some rule := by
  simp [ungrouped, List.mk_mem_zipIdx_iff_getElem?]

theorem mem_parserRules {rows : List Row} {rule : ParserRule} :
    rule ∈ (ungrouped rows).parserRules.toList ↔
      ∃ (row : Row) (place : Nat), rows[place]? = some row ∧ row.parserRule? place = some rule := by
  simp [ungrouped, List.mk_mem_zipIdx_iff_getElem?]

private theorem foldl_addType (rules : List TokenRule) (table : ParserTable) :
    rules.foldl
        (fun table rule => { table with tokenTypes := table.tokenTypes ++ [rule.nodeType] }) table =
      { table with tokenTypes := table.tokenTypes ++ rules.map (·.nodeType) } := by
  induction rules generalizing table with
  | nil => simp
  | cons rule rules induction => simp [induction]

theorem parser_mem_of_tokenRule {rows : List Row} {rule : TokenRule}
    (member : rule ∈ (ungrouped rows).tokenRules.toList) : rule.parser ∈ parserNames rows := by
  obtain ⟨row, place, found, made⟩ := mem_tokenRules.mp member
  rw [Row.tokenRule?] at made
  split_ifs at made
  cases made
  exact mem_parserNames.mpr ⟨row, List.mem_of_getElem? found, rfl⟩

theorem parser_mem_of_parserRule {rows : List Row} {rule : ParserRule}
    (member : rule ∈ (ungrouped rows).parserRules.toList) : rule.parser ∈ parserNames rows := by
  obtain ⟨row, place, found, made⟩ := mem_parserRules.mp member
  rw [Row.parserRule?] at made
  split_ifs at made
  cases made
  exact mem_parserNames.mpr ⟨row, List.mem_of_getElem? found, rfl⟩

/-- The groups decide nothing but the groups. -/
theorem classify_withGroups (rows : List Row) (groups : String → List PrecedenceGroup) :
    ({ ungrouped rows with
      parsers := withGroups groups (ungrouped rows).parsers } : Grammar).classify =
      arranged rows groups := by
  have names : tableNames (withGroups groups (ungrouped rows).parsers) = parserNames rows := by
    simp [ungrouped_parsers, tableNames, withGroups, Function.comp_def]
  have typed : (ungrouped rows).tokenRules.toList.foldl
      (fun parsers rule =>
        if roleIn rows rule = .fragment then parsers
        else updateTable rule.parser
          (fun table => { table with tokenTypes := table.tokenTypes ++ [rule.nodeType] }) parsers)
      (withGroups groups (ungrouped rows).parsers) =
      (parserNames rows).map fun name => ⟨name, tokenTypesOf rows name, groups name⟩ := by
    have kept : (ungrouped rows).tokenRules.toList.foldl
        (fun parsers rule =>
          if roleIn rows rule = .fragment then parsers
          else updateTable rule.parser
            (fun table => { table with tokenTypes := table.tokenTypes ++ [rule.nodeType] })
            parsers)
        (withGroups groups (ungrouped rows).parsers) =
        ((ungrouped rows).tokenRules.toList.filter fun rule => roleIn rows rule ≠ .fragment).foldl
          (fun parsers rule => updateTable rule.parser
            (fun table => { table with tokenTypes := table.tokenTypes ++ [rule.nodeType] })
            parsers)
          (withGroups groups (ungrouped rows).parsers) := by
      simp [List.foldl_filter]
    rw [kept, foldl_updateTable TokenRule.parser (fun rule table =>
      { table with tokenTypes := table.tokenTypes ++ [TokenRule.nodeType rule] }) (fun _ _ => rfl)]
    · simp only [foldl_addType, ungrouped_parsers, withGroups, List.map_map, List.filter_filter]
      refine List.map_congr_left fun name _ => ?_
      simp [tokenTypesOf, and_comm]
    · rw [names]
      exact parserNames_nodup rows
    · rw [names]
      intro rule member
      exact parser_mem_of_tokenRule (List.mem_filter.mp member).1
  rw [classify, arranged]
  congr 1

/-- The parser rules of rows with their numbers. -/
def numberedRules (rows : List Row) : List (ParserRule × RuleId) :=
  (ungrouped rows).parserRules.toList.zipIdx

theorem mem_rulesFor {rows : List Row} {parser : String} {pair : RuleId × String} :
    pair ∈ rulesFor parser (numberedRules rows) ↔
      ∃ rule, (ungrouped rows).parserRules[pair.1]? = some rule ∧ rule.parser = parser ∧
        rule.precedence = pair.2 := by
  obtain ⟨id, key⟩ := pair
  simp only [rulesFor, numberedRules, List.mem_map, List.mem_filter, Prod.exists,
    List.mk_mem_zipIdx_iff_getElem?, Array.getElem?_toList, Prod.mk.injEq, decide_eq_true_eq]
  constructor
  · rintro ⟨rule, _, ⟨found, owned⟩, rfl, rfl⟩
    exact ⟨rule, found, owned, rfl⟩
  · rintro ⟨rule, found, owned, rfl⟩
    exact ⟨rule, id, ⟨found, owned⟩, rfl, rfl⟩

theorem rulesFor_nodup (rules : List ParserRule) (parser : String) :
    ((rulesFor parser rules.zipIdx).map (·.1)).Nodup := by
  have whole : (rules.zipIdx.map (·.2)).Nodup := by
    rw [List.zipIdx_map_snd]
    exact List.nodup_range'
  rw [rulesFor, List.map_map]
  exact (List.filter_sublist.map _).nodup whole

theorem parser?_arranged {rows : List Row} {groups : String → List PrecedenceGroup}
    {parser : String} {table : ParserTable} :
    (arranged rows groups).parser? parser = some table ↔
      parser ∈ parserNames rows ∧ table = ⟨parser, tokenTypesOf rows parser, groups parser⟩ := by
  have names : tableNames (arranged rows groups).parsers = parserNames rows := by
    simp [arranged, tableNames, Function.comp_def]
  rw [parser?, find?_table_eq_some_iff (by rw [names]; exact parserNames_nodup rows)]
  simp only [arranged, List.mem_map]
  constructor
  · rintro ⟨⟨name, member, rfl⟩, rfl⟩
    exact ⟨member, rfl⟩
  · rintro ⟨member, rfl⟩
    exact ⟨⟨parser, member, rfl⟩, rfl⟩

theorem parsers_arranged (rows : List Row) (groups : String → List PrecedenceGroup) :
    (arranged rows groups).parsers =
      (parserNames rows).map fun name => ⟨name, tokenTypesOf rows name, groups name⟩ := rfl

theorem tableNames_arranged (rows : List Row) (groups : String → List PrecedenceGroup) :
    tableNames (arranged rows groups).parsers = parserNames rows := by
  simp [arranged, tableNames, Function.comp_def]

/-- A parser rule says what its row says. -/
theorem exists_row {rows : List Row} {rule : ParserRule}
    (member : rule ∈ (ungrouped rows).parserRules.toList) :
    ∃ row, rows[rule.row]? = some row ∧ row.isParserRow = true ∧
      rule = ⟨rule.row + 1, row.parser, row.parsePattern, row.delegate?, row.precedence,
        rule.row⟩ := by
  obtain ⟨row, place, found, made⟩ := mem_parserRules.mp member
  rw [Row.parserRule?] at made
  split_ifs at made with production
  cases made
  exact ⟨row, found, production, rfl⟩

theorem name_of_row {rows : List Row} {place : Nat} {row : Row} (found : rows[place]? = some row) :
    (ungrouped rows).registry.name (place + 1) = row.nodeType := by
  simp [Registry.name, ungrouped, found]

/-- The sub-parsers of the rules are looked for among the parsers. -/
theorem checkSubparsers_eq_ok_iff {grammar : Grammar} :
    grammar.checkSubparsers = .ok () ↔
      ∀ delegation ∈ grammar.delegations, delegation.2 ∈ tableNames grammar.parsers := by
  rw [checkSubparsers]
  cases found : grammar.delegations.find? fun delegation =>
      (grammar.parser? delegation.2).isNone with
  | none =>
      simp only [true_iff]
      intro delegation member
      have known := List.find?_eq_none.mp found delegation member
      refine find?_table_isSome_iff.mp ?_
      rw [← parser?, Option.isSome_iff_ne_none]
      simpa using known
  | some delegation =>
      simp only [reduceCtorEq, false_iff, not_forall]
      refine ⟨delegation, List.mem_of_find?_eq_some found, ?_⟩
      have unknown := List.find?_some found
      rw [← find?_table_isSome_iff, ← parser?]
      simpa using unknown

/-- The rules delegate to the sub-parsers of their rows. -/
theorem mem_delegations {rows : List Row} (readable : Readable rows) {parser : String} :
    (∃ id, (id, parser) ∈ (ungrouped rows).delegations) ↔
      ∃ row ∈ rows, row.delegate? = some parser := by
  constructor
  · rintro ⟨id, member⟩
    rcases List.mem_append.mp member with token | production
    · obtain ⟨rule, inside, named⟩ := List.mem_filterMap.mp token
      obtain ⟨row, place, found, made⟩ := mem_tokenRules.mp inside
      rw [Row.tokenRule?] at made
      split_ifs at made
      cases made
      obtain ⟨_, delegated, same⟩ := Option.map_eq_some_iff.mp named
      cases same
      exact ⟨row, List.mem_of_getElem? found, delegated⟩
    · obtain ⟨rule, inside, named⟩ := List.mem_filterMap.mp production
      obtain ⟨row, place, found, made⟩ := mem_parserRules.mp inside
      rw [Row.parserRule?] at made
      split_ifs at made
      cases made
      obtain ⟨_, delegated, same⟩ := Option.map_eq_some_iff.mp named
      cases same
      exact ⟨row, List.mem_of_getElem? found, delegated⟩
  · rintro ⟨row, member, delegated⟩
    obtain ⟨place, found⟩ := List.mem_iff_getElem?.mp member
    have one := (readable.each row member).onePattern
    refine ⟨place + 1, ?_⟩
    rw [delegations, List.mem_append]
    cases production : row.isParserRow with
    | false =>
        rw [production] at one
        have made : row.tokenRule? place =
            some ⟨place + 1, row.parser, row.tokenPattern, row.delegate?⟩ := by
          rw [Row.tokenRule?, one]
          rfl
        exact .inl (List.mem_filterMap.mpr
          ⟨_, mem_tokenRules.mpr ⟨row, place, found, made⟩, by simp [delegated]⟩)
    | true =>
        have made : row.parserRule? place = some ⟨place + 1, row.parser, row.parsePattern,
            row.delegate?, row.precedence, place⟩ := by
          rw [Row.parserRule?, production]
          rfl
        exact .inr (List.mem_filterMap.mpr
          ⟨_, mem_parserRules.mpr ⟨row, place, found, made⟩, by simp [delegated]⟩)

/-- Sub-parsers are known when the rows have them among their parsers. -/
theorem known_delegations_iff {rows : List Row} (readable : Readable rows) :
    (∀ delegation ∈ (ungrouped rows).delegations, delegation.2 ∈ parserNames rows) ↔
      ∀ row ∈ rows, ∀ parser, row.delegate? = some parser → parser ∈ parserNames rows := by
  constructor
  · intro known row member parser delegated
    obtain ⟨id, inside⟩ := (mem_delegations readable).mpr ⟨row, member, delegated⟩
    exact known (id, parser) inside
  · rintro known ⟨id, parser⟩ member
    obtain ⟨row, inside, delegated⟩ := (mem_delegations readable).mp ⟨id, member⟩
    exact known row inside parser delegated

theorem groupRules_ungrouped {rows : List Row} {grammar : Grammar} :
    (ungrouped rows).groupRules = .ok grammar ↔
      ∃ groups : String → List PrecedenceGroup,
        (∀ parser ∈ parserNames rows, Orderly (groups parser) ∧
          keyedRules (groups parser) = rulesFor parser (numberedRules rows)) ∧
        grammar = { ungrouped rows with
          parsers := withGroups groups (ungrouped rows).parsers } := by
  have names : tableNames (ungrouped rows).parsers = parserNames rows := by
    simp [ungrouped_parsers, tableNames, Function.comp_def]
  have present : ∀ rule ∈ numberedRules rows,
      rule.1.parser ∈ tableNames (ungrouped rows).parsers := by
    intro rule member
    rw [names]
    exact parser_mem_of_parserRule (List.fst_mem_of_mem_zipIdx member)
  have each (groups : String → List PrecedenceGroup) :
      (∀ table ∈ (ungrouped rows).parsers,
        addRules table.groups (rulesFor table.name (numberedRules rows)) =
          some (groups table.name)) ↔
      ∀ parser ∈ parserNames rows, Orderly (groups parser) ∧
        keyedRules (groups parser) = rulesFor parser (numberedRules rows) := by
    rw [ungrouped_parsers, List.forall_mem_map]
    exact forall_congr' fun parser => imp_congr_right fun _ => addRules_eq_some_iff
  rw [groupRules, bind_eq_ok_iff]
  have grouped := fun tables => @groupRules_eq_ok_iff _ _ tables
    (by rw [names]; exact parserNames_nodup rows) present
  simp only [numberedRules] at grouped each
  simp only [grouped, each, pure_eq_ok_iff]
  constructor
  · rintro ⟨_, ⟨groups, arranged_, rfl⟩, rfl⟩
    exact ⟨groups, arranged_, rfl⟩
  · rintro ⟨groups, arranged_, rfl⟩
    exact ⟨_, ⟨groups, arranged_, rfl⟩, rfl⟩

/-- An arrangement of the parser rules of clean rows into groups. -/
structure Arranges (rows : List Row) (groups : String → List PrecedenceGroup) : Prop where
  clean : ∀ row ∈ rows, row.Clean
  readable : Readable rows
  delegated : ∀ row ∈ rows, ∀ parser, row.delegate? = some parser → parser ∈ parserNames rows
  orderly : ∀ parser ∈ parserNames rows, Orderly (groups parser)
  /-- Every rule is in one group, with the key of its row. -/
  complete : ∀ parser ∈ parserNames rows,
    (keyedRules (groups parser)).Perm (rulesFor parser (numberedRules rows))

namespace Arranges

variable {rows : List Row} {groups : String → List PrecedenceGroup}
  (arranges : Arranges rows groups)

include arranges

/-- The groups of a parser hold its own rules, each with the key of the group. -/
theorem exists_rule {parser : String} {table : ParserTable}
    (known : (arranged rows groups).parser? parser = some table) {group : PrecedenceGroup}
    (member : group ∈ table.groups) {id : RuleId} (inside : id ∈ group.rules) :
    ∃ rule, (arranged rows groups).parserRules[id]? = some rule ∧ rule.parser = parser ∧
      rule.precedence = group.key := by
  obtain ⟨present, rfl⟩ := parser?_arranged.mp known
  have keyed : (id, group.key) ∈ keyedRules (groups parser) :=
    List.mem_flatMap.mpr ⟨group, member, List.mem_map.mpr ⟨id, inside, rfl⟩⟩
  exact mem_rulesFor.mp ((arranges.complete parser present).mem_iff.mp keyed)

/-- Every rule of a parser is in one of its groups. -/
theorem exists_group {parser : String} {table : ParserTable}
    (known : (arranged rows groups).parser? parser = some table) {id : RuleId} {rule : ParserRule}
    (found : (arranged rows groups).parserRules[id]? = some rule) (owned : rule.parser = parser) :
    ∃ group ∈ table.groups, id ∈ group.rules := by
  obtain ⟨present, rfl⟩ := parser?_arranged.mp known
  have keyed : (id, rule.precedence) ∈ keyedRules (groups parser) :=
    (arranges.complete parser present).mem_iff.mpr (mem_rulesFor.mpr ⟨rule, found, owned, rfl⟩)
  obtain ⟨group, member, inside⟩ := List.mem_flatMap.mp keyed
  obtain ⟨other, listed, same⟩ := List.mem_map.mp inside
  obtain rfl : other = id := congrArg Prod.fst same
  exact ⟨group, member, listed⟩

/-- No rule is in two groups. -/
theorem group_unique {parser : String} {table : ParserTable}
    (known : (arranged rows groups).parser? parser = some table) {index other : Nat}
    {group group' : PrecedenceGroup} (found : table.groups[index]? = some group)
    (found' : table.groups[other]? = some group') {id : RuleId} (member : id ∈ group.rules)
    (member' : id ∈ group'.rules) : index = other := by
  obtain ⟨present, rfl⟩ := parser?_arranged.mp known
  have distinct : ((groups parser).flatMap (·.rules)).Nodup := by
    have ids := ((arranges.complete parser present).map Prod.fst).nodup_iff.mpr
      (rulesFor_nodup _ _)
    simpa [keyedRules, PrecedenceGroup.keyed, List.map_flatMap, Function.comp_def] using ids
  have apart := (List.nodup_flatMap.mp distinct).2
  rw [List.pairwise_iff_getElem] at apart
  obtain ⟨inside, rfl⟩ := List.getElem?_eq_some_iff.mp found
  obtain ⟨inside', rfl⟩ := List.getElem?_eq_some_iff.mp found'
  rcases Nat.lt_trichotomy index other with before | same | after
  · exact absurd member' (apart index other inside inside' before member)
  · exact same
  · exact absurd member (apart other index inside' inside after member')

/-- Rows have names of their own. -/
theorem name_ne {place : Nat} {row : Row} (found : rows[place]? = some row) :
    (arranged rows groups).registry.name (place + 1) ≠ unrecognizedName := by
  change (ungrouped rows).registry.name (place + 1) ≠ unrecognizedName
  rw [name_of_row found]
  have readable := arranges.readable.each row (List.mem_of_getElem? found)
  exact (Registry.ne_of_isValidName readable.named).2

/-- The sub-parser of a rule has a table. -/
theorem parser?_isSome_of_delegation {id : NodeTypeId} {parser : String}
    (delegation : (id, parser) ∈ (arranged rows groups).delegations) :
    ((arranged rows groups).parser? parser).isSome := by
  rw [parser?, find?_table_isSome_iff, tableNames_arranged]
  exact (known_delegations_iff arranges.readable).mpr arranges.delegated _ delegation

end Arranges

/-- The rows that loading keeps. -/
def cleaned (rows : List Row) : List Row :=
  (rows.filter fun row => !row.isBlank).map Row.trimmed

/-- Rows are loaded when they are readable, every parser has orderly groups in the order of its
rows, and the sub-parsers are known. -/
theorem load_eq_ok_iff {rows : List Row} {grammar : Grammar} :
    load rows = .ok grammar ↔
      Readable (cleaned rows) ∧
      (∀ row ∈ cleaned rows, ∀ parser, row.delegate? = some parser →
        parser ∈ parserNames (cleaned rows)) ∧
      ∃ groups : String → List PrecedenceGroup,
        (∀ parser ∈ parserNames (cleaned rows), Orderly (groups parser) ∧
          keyedRules (groups parser) = rulesFor parser (numberedRules (cleaned rows))) ∧
        grammar = arranged (cleaned rows) groups := by
  have subparsers (groups : String → List PrecedenceGroup)
      (readable : Readable (cleaned rows)) :
      ({ ungrouped (cleaned rows) with
        parsers := withGroups groups (ungrouped (cleaned rows)).parsers } :
          Grammar).checkSubparsers = .ok () ↔
        ∀ row ∈ cleaned rows, ∀ parser, row.delegate? = some parser →
          parser ∈ parserNames (cleaned rows) := by
    rw [checkSubparsers_eq_ok_iff, ← known_delegations_iff readable]
    simp only [tableNames_withGroups]
    simp only [ungrouped_parsers, tableNames, List.map_map, Function.comp_def, List.map_id']
    rfl
  change ((cleaned rows).foldlM addRow .empty >>= fun grammar => _) = _ ↔ _
  simp only [bind_eq_ok_iff, foldlM_addRow_eq_ok_iff, pure_eq_ok_iff]
  constructor
  · rintro ⟨_, ⟨readable, rfl⟩, _, grouped, ⟨⟩, checked, rfl⟩
    obtain ⟨groups, each, rfl⟩ := groupRules_ungrouped.mp grouped
    exact ⟨readable, (subparsers groups readable).mp checked, groups, each,
      classify_withGroups _ _⟩
  · rintro ⟨readable, delegated, groups, each, rfl⟩
    exact ⟨_, ⟨readable, rfl⟩, _, groupRules_ungrouped.mpr ⟨groups, each, rfl⟩, (),
      (subparsers groups readable).mpr delegated, classify_withGroups _ _⟩

theorem clean_of_mem_cleaned {rows : List Row} {row : Row} (member : row ∈ cleaned rows) :
    row.Clean := by
  obtain ⟨given, kept, rfl⟩ := List.mem_map.mp member
  have filled := (List.mem_filter.mp kept).2
  exact ⟨by simpa [Row.isBlank_trimmed] using filled, Row.trimmed_trimmed given⟩

/-- Nothing changes when clean rows are cleaned. -/
theorem cleaned_eq_self {rows : List Row} (clean : ∀ row ∈ rows, row.Clean) :
    cleaned rows = rows := by
  have kept : rows.filter (fun row => !row.isBlank) = rows := by
    rw [List.filter_eq_self]
    intro row member
    simp [(clean row member).filled]
  rw [cleaned, kept]
  exact (List.map_congr_left fun row member => (clean row member).trimmed_eq).trans
    (List.map_id _)

/-- A loaded grammar is an arrangement of its rows. -/
theorem load_arranges {rows : List Row} {grammar : Grammar} (loaded : load rows = .ok grammar) :
    ∃ groups, Arranges (cleaned rows) groups ∧ grammar = arranged (cleaned rows) groups := by
  obtain ⟨readable, delegated, groups, each, same⟩ := load_eq_ok_iff.mp loaded
  refine ⟨groups, ⟨fun row member => clean_of_mem_cleaned member, readable, delegated, ?_, ?_⟩,
    same⟩
  · exact fun parser member => (each parser member).1
  · exact fun parser member => (each parser member).2 ▸ .refl _

end Grammar

end RowGrammar
