import RowGrammar.Grammar.Precedence
import RowGrammar.Proofs.Grammar.Arrangement

/-!
# Moving rules

Moving a rule to a later group gives new keys to the rules of its parser and changes nothing else.
The result is an arrangement again, of the rows with the new keys.
-/

namespace RowGrammar

open RowGrammar.Text

/-- A row without its precedence key. -/
def Row.unkeyed (row : Row) : Row :=
  { row with precedence := "" }

/-- A rule without its precedence key. -/
def ParserRule.unkeyed (rule : ParserRule) : ParserRule :=
  { rule with precedence := "" }

theorem Row.parserRule?_unkeyed (row : Row) (place : Nat) :
    row.unkeyed.parserRule? place = (row.parserRule? place).map ParserRule.unkeyed := by
  cases production : row.isParserRow with
  | false =>
      have same : row.unkeyed.isParserRow = false := production
      simp [Row.parserRule?, production, same]
  | true =>
      have same : row.unkeyed.isParserRow = true := production
      simp only [Row.parserRule?, production, same, if_true]
      rfl

/-- The rows with another key for the row at a place. -/
def rekey (key : String) (place : Nat) (rows : List Row) : List Row :=
  rows.modify place fun row => { row with precedence := key }

namespace Grammar

@[simp]
theorem map_unkeyed_rekey (key : String) (place : Nat) (rows : List Row) :
    (rekey key place rows).map Row.unkeyed = rows.map Row.unkeyed := by
  apply List.ext_getElem?
  intro index
  simp only [rekey, List.getElem?_map, List.getElem?_modify]
  cases rows[index]? with
  | none => simp
  | some row =>
      by_cases here : place = index
      · simp [here, Row.unkeyed]
      · simp [here]

section Unkeyed

variable {rows others : List Row} (same : others.map Row.unkeyed = rows.map Row.unkeyed)

include same

/-- What does not depend on keys is the same for rows that differ in keys only. -/
theorem map_eq_of_unkeyed {α : Type} (f : Row → α) (blind : ∀ row, f row.unkeyed = f row) :
    others.map f = rows.map f := by
  have mapped := congrArg (List.map f) same
  simpa [Function.comp_def, blind] using mapped

theorem forall_mem_of_unkeyed {property : Row → Prop}
    (blind : ∀ row, property row.unkeyed ↔ property row) :
    (∀ row ∈ others, property row) ↔ ∀ row ∈ rows, property row := by
  have mapped (list : List Row) :
      (∀ row ∈ list.map Row.unkeyed, property row) ↔ ∀ row ∈ list, property row := by
    simp [blind]
  rw [← mapped others, same, mapped rows]

theorem parserNames_of_unkeyed : parserNames others = parserNames rows :=
  parserNames_congr (map_eq_of_unkeyed same (·.parser) (fun _ => rfl))

theorem registry_of_unkeyed : (ungrouped others).registry = (ungrouped rows).registry := by
  have names := map_eq_of_unkeyed same (·.nodeType) (fun _ => rfl)
  have members := map_eq_of_unkeyed same (·.group) (fun _ => rfl)
  have types := map_eq_of_unkeyed same (·.primitiveType) (fun _ => rfl)
  have groups (list : List Row) : groupsOf list = (list.map (·.group)).zipIdx.foldl
      (fun groups (group, place) =>
        if group = "" then groups else Registry.insertMember group (place + 1) groups) [] := by
    rw [groupsOf, List.zipIdx_map, List.foldl_map]
    rfl
  have primitives (list : List Row) : primitivesOf list =
      (list.map (·.primitiveType)).zipIdx.foldl
        (fun primitives (primitive, place) =>
          if primitive = "" then primitives else (place + 1, primitive) :: primitives) [] := by
    rw [primitivesOf, List.zipIdx_map, List.foldl_map]
    rfl
  simp only [ungrouped, names, groups, members, primitives, types]

theorem mainParser_of_unkeyed : (ungrouped others).mainParser = (ungrouped rows).mainParser :=
  mainParser_congr (map_eq_of_unkeyed same (·.parser) (fun _ => rfl))

theorem tokenRules_of_unkeyed : (ungrouped others).tokenRules = (ungrouped rows).tokenRules := by
  have rules (list : List Row) : (ungrouped list).tokenRules =
      ((list.map Row.unkeyed).zipIdx.filterMap fun pair => pair.1.tokenRule? pair.2).toArray := by
    rw [List.zipIdx_map, List.filterMap_map]
    rfl
  rw [rules others, same, rules rows]

theorem readable_of_unkeyed : Readable others ↔ Readable rows := by
  have names := map_eq_of_unkeyed same (·.nodeType) (fun _ => rfl)
  have lengths : others.length = rows.length := by
    have counted := congrArg List.length same
    simpa using counted
  have single : (∀ row ∈ others, row.Readable) ↔ ∀ row ∈ rows, row.Readable := by
    refine forall_mem_of_unkeyed same fun row => ?_
    exact ⟨fun ⟨named, grouped, one, plain⟩ => ⟨named, grouped, one, plain⟩,
      fun ⟨named, grouped, one, plain⟩ => ⟨named, grouped, one, plain⟩⟩
  have apart : (∀ row ∈ others, row.group ∉ rows.map (·.nodeType)) ↔
      ∀ row ∈ rows, row.group ∉ rows.map (·.nodeType) :=
    forall_mem_of_unkeyed same fun _ => Iff.rfl
  constructor
  · rintro ⟨each, distinct, separate, few⟩
    rw [names] at distinct separate
    exact ⟨single.mp each, distinct, apart.mp separate, lengths ▸ few⟩
  · rintro ⟨each, distinct, separate, few⟩
    refine ⟨single.mpr each, ?_, ?_, lengths ▸ few⟩
    · rwa [names]
    · rw [names]
      exact apart.mpr separate

theorem delegated_of_unkeyed :
    (∀ row ∈ others, ∀ parser, row.delegate? = some parser → parser ∈ parserNames others) ↔
      ∀ row ∈ rows, ∀ parser, row.delegate? = some parser → parser ∈ parserNames rows := by
  rw [parserNames_of_unkeyed same]
  exact forall_mem_of_unkeyed same fun _ => Iff.rfl

theorem parserRules_of_unkeyed :
    (ungrouped others).parserRules.toList.map ParserRule.unkeyed =
      (ungrouped rows).parserRules.toList.map ParserRule.unkeyed := by
  have rules (list : List Row) : (ungrouped list).parserRules.toList.map ParserRule.unkeyed =
      (list.map Row.unkeyed).zipIdx.filterMap fun pair => pair.1.parserRule? pair.2 := by
    rw [List.zipIdx_map, List.filterMap_map]
    simp only [ungrouped, List.map_filterMap]
    refine List.filterMap_congr fun pair _ => ?_
    exact (Row.parserRule?_unkeyed pair.1 pair.2).symm
  rw [rules others, same, rules rows]

/-- The rule with a number is the same up to its key. -/
theorem parserRules_related_of_unkeyed (id : RuleId) :
    Option.Rel (fun other rule : ParserRule => other.unkeyed = rule.unkeyed)
      (ungrouped others).parserRules[id]? (ungrouped rows).parserRules[id]? := by
  have each := parserRules_of_unkeyed same
  rw [← List.forall₂_eq_eq_eq, List.forall₂_map_left_iff, List.forall₂_map_right_iff] at each
  have related := getElem?_related each id
  rwa [Array.getElem?_toList, Array.getElem?_toList] at related

theorem parsedTypes_of_unkeyed :
    (ungrouped others).parsedTypes = (ungrouped rows).parsedTypes := by
  have types (list : List Row) : (ungrouped list).parsedTypes =
      ((ungrouped list).parserRules.toList.map ParserRule.unkeyed).flatMap fun rule =>
        (SymbolPattern.referencedNames rule.pattern).flatMap fun name =>
          ((ungrouped list).registry.resolve? name).getD [] := by
    rw [List.flatMap_map]
    rfl
  rw [types others, types rows, parserRules_of_unkeyed same, registry_of_unkeyed same]

theorem roleIn_of_unkeyed : roleIn others = roleIn rows := by
  funext rule
  have fragments : (ungrouped others).fragmentTypes = (ungrouped rows).fragmentTypes := by
    rw [fragmentTypes, fragmentTypes, tokenRules_of_unkeyed same, registry_of_unkeyed same]
  rw [roleIn, roleIn, parsedTypes_of_unkeyed same, fragments]

theorem tokenTypesOf_of_unkeyed : tokenTypesOf others = tokenTypesOf rows := by
  funext parser
  rw [tokenTypesOf, tokenTypesOf, tokenRules_of_unkeyed same, roleIn_of_unkeyed same]

/-- Only rows, rules and groups depend on keys. -/
theorem arranged_of_unkeyed (groups : String → List PrecedenceGroup) :
    arranged others groups = {
      arranged rows groups with
      rows := others.toArray
      parserRules := (ungrouped others).parserRules } := by
  have types := tokenTypesOf_of_unkeyed same
  have unused : unusedOf others = unusedOf rows := by
    rw [unusedOf, unusedOf, tokenRules_of_unkeyed same, roleIn_of_unkeyed same]
  have empty : (ungrouped others).parserRules.isEmpty = (ungrouped rows).parserRules.isEmpty := by
    have lengths := congrArg List.length (parserRules_of_unkeyed same)
    simp only [List.length_map, Array.length_toList] at lengths
    rw [Array.isEmpty, Array.isEmpty, lengths]
  have registry := registry_of_unkeyed same
  have main := mainParser_of_unkeyed same
  have tokens := tokenRules_of_unkeyed same
  simp only [arranged, types, unused, empty, registry, main, tokens, parserNames_of_unkeyed same]
  rfl

end Unkeyed

/-- Rules come from rows in their order. -/
theorem parserRules_rows_lt (rows : List Row) :
    ((ungrouped rows).parserRules.toList.map (·.row)).Pairwise (· < ·) ∧
      ∀ rule ∈ (ungrouped rows).parserRules.toList, rule.row < rows.length := by
  induction rows using List.reverseRecOn with
  | nil => exact ⟨.nil, by simp [ungrouped]⟩
  | append_singleton rows row induction =>
      rw [parserRules_append_singleton, List.length_append, List.length_singleton]
      split_ifs
      · simp only [Array.toList_push, List.map_append, List.map_singleton, List.mem_append,
          List.mem_singleton]
        refine ⟨List.pairwise_append.mpr ⟨induction.1, List.pairwise_singleton _ _, ?_⟩, ?_⟩
        · intro place inside last final
          obtain ⟨rule, member, rfl⟩ := List.mem_map.mp inside
          rw [List.mem_singleton.mp final]
          exact induction.2 rule member
        · rintro rule (member | rfl)
          · exact Nat.lt_succ_of_lt (induction.2 rule member)
          · exact Nat.lt_succ_self _
      · exact ⟨induction.1, fun rule member => Nat.lt_succ_of_lt (induction.2 rule member)⟩

theorem parserRules_row_inj {rows : List Row} {id other : RuleId} {rule rule' : ParserRule}
    (found : (ungrouped rows).parserRules[id]? = some rule)
    (found' : (ungrouped rows).parserRules[other]? = some rule') :
    rule.row = rule'.row ↔ id = other := by
  have nodup : ((ungrouped rows).parserRules.toList.map (·.row)).Nodup :=
    (parserRules_rows_lt rows).1.imp Nat.ne_of_lt
  rw [← Array.getElem?_toList] at found found'
  constructor
  · intro same
    have mapped : ((ungrouped rows).parserRules.toList.map (·.row))[id]? = some rule.row := by
      simp [found]
    have mapped' : ((ungrouped rows).parserRules.toList.map (·.row))[other]? = some rule.row := by
      simp [found', same]
    have inside := (List.getElem?_eq_some_iff.mp mapped).1
    exact (List.getElem?_inj inside nodup).mp (mapped.trans mapped'.symm)
  · rintro rfl
    rw [found, Option.some.injEq] at found'
    rw [found']

theorem zipIdx_rekey (key : String) (place : Nat) (rows : List Row) :
    (rekey key place rows).zipIdx =
      rows.zipIdx.map fun (row, index) =>
        (if place = index then { row with precedence := key } else row, index) := by
  apply List.ext_getElem?
  intro index
  simp only [rekey, List.getElem?_zipIdx, List.getElem?_modify, List.getElem?_map]
  cases rows[index]? with
  | none => simp
  | some row =>
      by_cases here : place = index
      · simp [here]
      · simp [here]

/-- A new key for a row is a new key for its rule. -/
theorem parserRules_rekey {rows : List Row} {id : RuleId} {rule : ParserRule}
    (found : (ungrouped rows).parserRules[id]? = some rule) (key : String) :
    (ungrouped (rekey key rule.row rows)).parserRules =
      (ungrouped rows).parserRules.modify id fun rule => { rule with precedence := key } := by
  have changed : (ungrouped (rekey key rule.row rows)).parserRules.toList =
      (ungrouped rows).parserRules.toList.map fun other =>
        if rule.row = other.row then { other with precedence := key } else other := by
    simp only [ungrouped, zipIdx_rekey, List.filterMap_map, List.map_filterMap]
    refine List.filterMap_congr fun pair _ => ?_
    obtain ⟨row, index⟩ := pair
    cases production : row.isParserRow with
    | false =>
        by_cases here : rule.row = index
        · have same : ({ row with precedence := key } : Row).isParserRow = false := production
          simp [here, Row.parserRule?, production, same]
        · simp [here, Row.parserRule?, production]
    | true =>
        by_cases here : rule.row = index
        · have same : ({ row with precedence := key } : Row).isParserRow = true := production
          simp only [Function.comp_apply, here, if_true, Row.parserRule?, production, same,
            Option.map_some]
          rfl
        · simp [here, Row.parserRule?, production]
  apply Array.ext'
  rw [changed]
  apply List.ext_getElem?
  intro index
  conv_rhs => rw [Array.getElem?_toList, Array.getElem?_modify]
  rw [List.getElem?_map, Array.getElem?_toList]
  cases present : (ungrouped rows).parserRules[index]? with
  | none => simp
  | some other =>
      have same := parserRules_row_inj found present
      by_cases here : id = index
      · simp [here, same.mpr here]
      · simp [here, mt same.mp here]

/-- Giving a key to a rule of an arrangement. -/
theorem setPrecedence_arranged {rows : List Row} {groups : String → List PrecedenceGroup}
    {id : RuleId} {rule : ParserRule} (found : (ungrouped rows).parserRules[id]? = some rule)
    (key : String) :
    (arranged rows groups).setPrecedence key id = arranged (rekey key rule.row rows) groups := by
  have known : (arranged rows groups).parserRules[id]? = some rule := found
  rw [arranged_of_unkeyed (map_unkeyed_rekey key rule.row rows), parserRules_rekey found]
  simp only [setPrecedence, known]
  congr 1
  simp [arranged, ungrouped, rekey]

theorem clean_rekey {rows : List Row} {key : String} (short : trim key = key)
    (clean : ∀ row ∈ rows, row.Clean) {place : Nat} : ∀ row ∈ rekey key place rows, row.Clean := by
  intro row member
  obtain ⟨index, present⟩ := List.mem_iff_getElem?.mp member
  rw [rekey, List.getElem?_modify] at present
  obtain ⟨before, inside, same⟩ := Option.map_eq_some_iff.mp present
  have fine := clean before (List.mem_of_getElem? inside)
  split at same
  · subst same
    refine ⟨fine.filled, ?_⟩
    have columns := fine.trimmed_eq
    simp only [Row.trimmed] at columns ⊢
    rw [Row.mk.injEq] at columns ⊢
    exact ⟨columns.1, columns.2.1, rfl, rfl, columns.2.2.2.2.1, columns.2.2.2.2.2.1, short,
      columns.2.2.2.2.2.2.2⟩
  · exact same ▸ fine

/-- Keys given to several rules, each once. -/
theorem foldl_setPrecedence {rows : List Row} (groups : String → List PrecedenceGroup)
    {keyed : List (RuleId × String)} (nodup : (keyed.map (·.1)).Nodup)
    (known : ∀ pair ∈ keyed, ((ungrouped rows).parserRules[pair.1]?).isSome)
    (clean : ∀ row ∈ rows, row.Clean) (trimmed : ∀ pair ∈ keyed, trim pair.2 = pair.2) :
    ∃ others, others.map Row.unkeyed = rows.map Row.unkeyed ∧ (∀ row ∈ others, row.Clean) ∧
      keyed.foldl (fun grammar pair => grammar.setPrecedence pair.2 pair.1)
        (arranged rows groups) = arranged others groups ∧
      ∀ id, (ungrouped others).parserRules[id]? =
        ((ungrouped rows).parserRules[id]?).map fun (rule : ParserRule) =>
          ({ rule with precedence := (keyed.lookup id).getD rule.precedence } : ParserRule) := by
  induction keyed generalizing rows with
  | nil => exact ⟨rows, rfl, clean, rfl, by simp⟩
  | cons pair keyed induction =>
      obtain ⟨id, key⟩ := pair
      obtain ⟨rule, found⟩ := Option.isSome_iff_exists.mp (known (id, key) List.mem_cons_self)
      simp only [List.map_cons, List.nodup_cons] at nodup
      have rules := parserRules_rekey found key
      have knownRekeyed : ∀ other ∈ keyed,
          ((ungrouped (rekey key rule.row rows)).parserRules[other.1]?).isSome := by
        intro other member
        rw [rules, Array.getElem?_modify]
        have before := known other (List.mem_cons_of_mem _ member)
        split
        · rw [Option.isSome_map]
          exact before
        · exact before
      obtain ⟨others, same, fine, given, all⟩ := induction nodup.2 knownRekeyed
        (clean_rekey (trimmed (id, key) List.mem_cons_self) clean)
        fun other member => trimmed other (List.mem_cons_of_mem _ member)
      refine ⟨others, by rw [same, map_unkeyed_rekey], fine, ?_, ?_⟩
      · rw [List.foldl_cons, setPrecedence_arranged found, given]
      · intro index
        rw [all, rules, Array.getElem?_modify, List.lookup_cons]
        cases present : (ungrouped rows).parserRules[index]? with
        | none => simp
        | some other =>
            by_cases here : id = index
            · subst here
              have absent : keyed.lookup id = none := by
                rw [List.lookup_eq_none_iff]
                intro pair member
                have apart : id ≠ pair.1 := fun equal =>
                  nodup.1 (equal ▸ List.mem_map_of_mem member)
                simpa using apart
              simp [absent]
            · have apart : (index == id) = false := by simpa using Ne.symm here
              simp [here, apart]

end Grammar

theorem groupOf?_eq_some {groups : List PrecedenceGroup} {suggested index : Nat} {rule : RuleId}
    (found : groupOf? groups suggested rule = some index) :
    ∃ group, groups[index]? = some group ∧ rule ∈ group.rules := by
  have searched (found : groups.findIdx? (·.rules.contains rule) = some index) :
      ∃ group, groups[index]? = some group ∧ rule ∈ group.rules := by
    obtain ⟨inside, holds, _⟩ := List.findIdx?_eq_some_iff_getElem.mp found
    exact ⟨groups[index], List.getElem?_eq_getElem inside, by simpa using holds⟩
  rw [groupOf?] at found
  split at found
  · split at found
    · rename_i group present held
      cases found
      exact ⟨group, present, List.contains_iff_mem.mp held⟩
    · exact searched found
  · exact searched found

/-- The groups after a rule of the group at a position has moved later: into a new group right
behind that one or, if it is alone there, past the next group. -/
inductive MovesLater (rule : RuleId) :
    Nat → List PrecedenceGroup → List PrecedenceGroup → Prop where
  | apart (before after : List PrecedenceGroup) {group : PrecedenceGroup} :
      1 < group.rules.length →
      MovesLater rule before.length (before ++ group :: after)
        (before ++ { group with rules := group.rules.filter (· != rule) } :: ⟨"", [rule]⟩ :: after)
  | past (before after : List PrecedenceGroup) {group next : PrecedenceGroup} :
      ¬1 < group.rules.length →
      MovesLater rule before.length (before ++ group :: next :: after)
        (before ++ next :: group :: after)

theorem MovesLater.cons {rule : RuleId} {index : Nat} {groups moved : List PrecedenceGroup}
    (moves : MovesLater rule index groups moved) (first : PrecedenceGroup) :
    MovesLater rule (index + 1) (first :: groups) (first :: moved) := by
  cases moves with
  | apart before after several => exact .apart (first :: before) after several
  | past before after alone => exact .past (first :: before) after alone

/-- The groups in front of the one that a rule leaves stay as they are. -/
theorem moveLater?_append (rule : RuleId) (before groups : List PrecedenceGroup) :
    moveLater? rule before.length (before ++ groups) =
      (moveLater? rule 0 groups).map (before ++ ·) := by
  induction before with
  | nil => simp
  | cons group before induction =>
      rw [List.length_cons, List.cons_append, moveLater?, induction, Option.map_map]
      rfl

theorem moveLater?_eq_some_iff {rule : RuleId} {index : Nat}
    {groups moved : List PrecedenceGroup} :
    moveLater? rule index groups = some moved ↔ MovesLater rule index groups moved := by
  constructor
  · intro result
    induction groups generalizing index moved with
    | nil => simp [moveLater?] at result
    | cons group groups induction =>
        cases index with
        | zero =>
            unfold moveLater? at result
            split at result
            · cases result
              exact .apart [] groups ‹_›
            · split at result
              · cases result
                exact .past [] _ ‹_›
              · cases result
        | succ index =>
            obtain ⟨later, moves, rfl⟩ := Option.map_eq_some_iff.mp result
            exact (induction moves).cons group
  · intro moves
    cases moves with
    | apart before after several => simp [moveLater?_append, moveLater?, several]
    | past before after alone => rw [moveLater?_append, moveLater?, if_neg alone, Option.map_some]

/-- Moving a rule keeps the rules and leaves no group empty. -/
theorem moveLater?_keeps {rule : RuleId} {index : Nat} {groups moved : List PrecedenceGroup}
    {group : PrecedenceGroup} (present : groups[index]? = some group) (member : rule ∈ group.rules)
    (filled : ∀ group ∈ groups, group.rules ≠ [])
    (nodup : ∀ group ∈ groups, group.rules.Nodup)
    (result : moveLater? rule index groups = some moved) :
    (moved.flatMap (·.rules)).Perm (groups.flatMap (·.rules)) ∧
      ∀ group ∈ moved, group.rules ≠ [] := by
  cases moveLater?_eq_some_iff.mp result with
  | @apart before after held several =>
      have same : held = group := by simpa using present
      subst same
      have others : held.rules.filter (· != rule) = held.rules.erase rule :=
        (nodup held (by simp)).erase_eq_filter rule ▸ rfl
      simp only [others, List.flatMap_append, List.flatMap_cons, List.mem_append, List.mem_cons,
        ← List.append_assoc] at filled ⊢
      refine ⟨.append_right _ ?_, ?_⟩
      · rw [List.append_assoc]
        refine .append_left _ ?_
        exact List.perm_append_comm.trans (List.perm_cons_erase member).symm
      · rintro other (early | rfl | rfl | late)
        · exact filled other (.inl early)
        · intro empty
          have lengths := List.length_erase_of_mem member
          have gone : held.rules.erase rule = [] := empty
          rw [gone, List.length_nil] at lengths
          omega
        · simp
        · exact filled other (.inr (.inr late))
  | @past before after held next alone =>
      have swapped : (before ++ next :: held :: after).Perm (before ++ held :: next :: after) :=
        .append_left before (.swap held next after)
      exact ⟨swapped.flatMap_right _, fun other inside => filled other (swapped.mem_iff.mp inside)⟩

/-- Numbered groups are orderly as long as none is empty. -/
theorem orderly_renumber {groups : List PrecedenceGroup}
    (filled : ∀ group ∈ groups, group.rules ≠ []) : Orderly (renumber groups) := by
  have keyed (group : PrecedenceGroup) (member : group ∈ renumber groups) :
      group.key ≠ "" ∧ group.rules ≠ [] := by
    obtain ⟨⟨before, index⟩, inside, rfl⟩ := List.mem_map.mp member
    exact ⟨decimal_ne_empty _, filled before (List.fst_mem_of_mem_zipIdx inside)⟩
  refine ⟨fun group member => (keyed group member).2,
    fun group member unkeyed => absurd unkeyed (keyed group member).1, ?_⟩
  rw [renumber, List.pairwise_map, List.pairwise_iff_getElem]
  intro earlier later inside inside' ordered _ same
  rw [decimal_inj] at same
  simp only [List.getElem_zipIdx] at same
  omega

@[simp]
theorem map_rules_renumber (groups : List PrecedenceGroup) :
    (renumber groups).map (·.rules) = groups.map (·.rules) := by
  apply List.ext_getElem?
  intro index
  rw [renumber, List.map_map, List.getElem?_map, List.getElem?_zipIdx, List.getElem?_map]
  cases groups[index]? with
  | none => rfl
  | some group => rfl

theorem flatMap_rules_renumber (groups : List PrecedenceGroup) :
    (renumber groups).flatMap (·.rules) = groups.flatMap (·.rules) := by
  rw [List.flatMap_def, map_rules_renumber, List.flatMap_def]

theorem keyedRules_map_fst (groups : List PrecedenceGroup) :
    (keyedRules groups).map (·.1) = groups.flatMap (·.rules) := by
  simp [keyedRules, PrecedenceGroup.keyed, List.map_flatMap, Function.comp_def]

namespace Grammar

/-- The rules of one parser after new keys. -/
theorem rulesFor_of_lookup {rows others : List Row} {keyed : List (RuleId × String)}
    (all : ∀ id : RuleId, (ungrouped others).parserRules[id]? =
      ((ungrouped rows).parserRules[id]?).map fun (rule : ParserRule) =>
        ({ rule with precedence := (keyed.lookup id).getD rule.precedence } : ParserRule))
    (parser : String) :
    rulesFor parser (numberedRules others) =
      (rulesFor parser (numberedRules rows)).map fun pair =>
        (pair.1, (keyed.lookup pair.1).getD pair.2) := by
  have numbered : numberedRules others = (numberedRules rows).map fun pair =>
      ({ pair.1 with precedence := (keyed.lookup pair.2).getD pair.1.precedence }, pair.2) := by
    apply List.ext_getElem?
    intro index
    have here := all index
    simp only [numberedRules, List.getElem?_map, List.getElem?_zipIdx, Array.getElem?_toList, here]
    cases (ungrouped rows).parserRules[index]? with
    | none => rfl
    | some rule => simp
  rw [numbered]
  simp [rulesFor, List.filter_map, Function.comp_def]

theorem setPrecedences_eq (grammar : Grammar) (groups : List PrecedenceGroup) :
    grammar.setPrecedences groups =
      (keyedRules groups).foldl (fun grammar pair => grammar.setPrecedence pair.2 pair.1)
        grammar := by
  simp only [setPrecedences, keyedRules, PrecedenceGroup.keyed, List.foldl_flatMap, List.foldl_map]

/-- Rules that are all given a key have just the given keys. -/
theorem perm_given {given old : List (RuleId × String)} (nodup : (given.map (·.1)).Nodup)
    (ids : (given.map (·.1)).Perm (old.map (·.1))) :
    given.Perm (old.map fun pair => (pair.1, (given.lookup pair.1).getD pair.2)) := by
  have looked : ∀ pair ∈ given, (pair.1, (given.lookup pair.1).getD "") = pair := by
    intro pair inside
    rw [lookup_eq_some_of_mem nodup inside]
    rfl
  have found : ∀ pair ∈ old, (pair.1, (given.lookup pair.1).getD pair.2) =
      (pair.1, (given.lookup pair.1).getD "") := by
    intro pair inside
    have member := ids.mem_iff.mpr (List.mem_map_of_mem inside)
    obtain ⟨other, first, equal⟩ := List.mem_map.mp member
    rw [← equal, lookup_eq_some_of_mem nodup first]
    rfl
  have mapped := ids.map fun id => (id, (given.lookup id).getD "")
  simp only [List.map_map, Function.comp_def] at mapped
  rw [(List.map_congr_left looked).trans (List.map_id' _)] at mapped
  rw [List.map_congr_left found]
  exact mapped

/-- Rules that are not given a key keep theirs. -/
theorem map_given_eq_self {given old : List (RuleId × String)}
    (apart : ∀ pair ∈ old, pair.1 ∉ given.map (·.1)) :
    (old.map fun pair => (pair.1, (given.lookup pair.1).getD pair.2)) = old := by
  refine (List.map_congr_left fun pair inside => ?_).trans (List.map_id' _)
  have absent : given.lookup pair.1 = none := by
    rw [List.lookup_eq_none_iff]
    intro other moved
    have different : pair.1 ≠ other.1 :=
      fun same => apart pair inside (same ▸ List.mem_map_of_mem moved)
    simpa using different
  rw [absent]
  rfl

/-- A rule belongs to one parser. -/
theorem not_mem_rulesFor {rows : List Row} {parser other : String} (apart : parser ≠ other)
    {pair : RuleId × String} (member : pair ∈ rulesFor parser (numberedRules rows)) :
    pair.1 ∉ (rulesFor other (numberedRules rows)).map (·.1) := by
  intro owned
  obtain ⟨given, first, equal⟩ := List.mem_map.mp owned
  obtain ⟨rule, found, one, _⟩ := mem_rulesFor.mp member
  obtain ⟨rule', found', two, _⟩ := mem_rulesFor.mp first
  rw [equal, found, Option.some.injEq] at found'
  subst found'
  exact apart (one.symm.trans two)

/-- New keys for the rules of one parser fit the groups they come from. -/
theorem Arranges.regroup {rows others : List Row} {groups : String → List PrecedenceGroup}
    (arranges : Arranges rows groups) {parser : String} {target : List PrecedenceGroup}
    (same : others.map Row.unkeyed = rows.map Row.unkeyed) (clean : ∀ row ∈ others, row.Clean)
    (orderly : Orderly target)
    (ids : ((keyedRules target).map (·.1)).Perm
      ((rulesFor parser (numberedRules rows)).map (·.1)))
    (all : ∀ id : RuleId, (ungrouped others).parserRules[id]? =
      ((ungrouped rows).parserRules[id]?).map fun (rule : ParserRule) =>
        ({ rule with precedence := ((keyedRules target).lookup id).getD rule.precedence } :
          ParserRule)) :
    Arranges others fun name => if name = parser then target else groups name := by
  have names := parserNames_of_unkeyed same
  have nodup : ((keyedRules target).map (·.1)).Nodup := ids.nodup_iff.mpr (rulesFor_nodup _ _)
  refine ⟨clean, (readable_of_unkeyed same).mpr arranges.readable,
    (delegated_of_unkeyed same).mpr arranges.delegated, ?_, ?_⟩
  · intro name member
    rw [names] at member
    split_ifs
    · exact orderly
    · exact arranges.orderly name member
  · intro name member
    rw [names] at member
    rw [rulesFor_of_lookup all]
    split_ifs with here
    · subst here
      exact perm_given nodup ids
    · rw [map_given_eq_self fun pair inside => mt ids.mem_iff.mp (not_mem_rulesFor here inside)]
      exact arranges.complete name member

/-- A moved rule leaves an arrangement of the rows with new keys. -/
theorem relocate?_arranged {rows : List Row} {groups : String → List PrecedenceGroup}
    (arranges : Arranges rows groups) {parser : String} {suggested : Nat} {rule : RuleId}
    {moved : Grammar}
    (result : (arranged rows groups).relocate? parser suggested rule = some moved) :
    ∃ others regrouped, Arranges others regrouped ∧ moved = arranged others regrouped ∧
      others.map Row.unkeyed = rows.map Row.unkeyed := by
  simp only [relocate?, Option.bind_eq_bind, Option.bind_eq_some_iff, Option.pure_def,
    Option.some.injEq] at result
  obtain ⟨table, found, index, held, later, moves, rfl⟩ := result
  obtain ⟨known, rfl⟩ := parser?_arranged.mp found
  obtain ⟨group, present, member⟩ := groupOf?_eq_some held
  have orderly := arranges.orderly parser known
  have ids : ((groups parser).flatMap (·.rules)).Perm
      ((rulesFor parser (numberedRules rows)).map (·.1)) := by
    rw [← keyedRules_map_fst]
    exact (arranges.complete parser known).map _
  have nodup := ids.nodup_iff.mpr (rulesFor_nodup _ _)
  obtain ⟨kept, filled⟩ := moveLater?_keeps present member orderly.filled
    (List.nodup_flatMap.mp nodup).1 moves
  have target : ((keyedRules (renumber later)).map (·.1)).Perm
      ((rulesFor parser (numberedRules rows)).map (·.1)) := by
    rw [keyedRules_map_fst, flatMap_rules_renumber]
    exact kept.trans ids
  have ruled : ∀ pair ∈ keyedRules (renumber later),
      ((ungrouped rows).parserRules[pair.1]?).isSome := by
    intro pair inside
    obtain ⟨given, first, equal⟩ := List.mem_map.mp (target.mem_iff.mp (List.mem_map_of_mem inside))
    obtain ⟨_, found, _⟩ := mem_rulesFor.mp first
    rw [← equal, found]
    rfl
  have trimmed : ∀ pair ∈ keyedRules (renumber later), trim pair.2 = pair.2 := by
    intro pair inside
    obtain ⟨numbered, first, second⟩ := List.mem_flatMap.mp inside
    obtain ⟨_, _, rfl⟩ := List.mem_map.mp second
    obtain ⟨_, _, rfl⟩ := List.mem_map.mp first
    exact trim_decimal _
  obtain ⟨others, same, clean, given, all⟩ := foldl_setPrecedence groups
    (target.nodup_iff.mpr (rulesFor_nodup _ _)) ruled arranges.clean trimmed
  refine ⟨others, _, arranges.regroup same clean (orderly_renumber filled) target all, ?_, same⟩
  rw [setPrecedences_eq, given]
  simp only [arranged, List.map_map, parserNames_of_unkeyed same]
  congr 1
  refine List.map_congr_left fun name _ => ?_
  have types := tokenTypesOf_of_unkeyed same
  simp only [Function.comp_apply, types]
  split_ifs
  · rfl
  · rfl

end Grammar

end RowGrammar
