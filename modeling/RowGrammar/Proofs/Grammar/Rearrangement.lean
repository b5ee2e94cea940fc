import Mathlib.Data.List.Sections
import RowGrammar.Proofs.Grammar.Configuration
import RowGrammar.Proofs.Grammar.Orderings
import RowGrammar.Proofs.Grammar.Relocation

/-!
# Rearranged grammars

The precedence groups of every parser are an ordering of its rules, and moving a rule makes another
ordering of them.  Which one it is depends on the precedence configuration alone, and there are only
so many of them.
-/

namespace RowGrammar

/-- Which group holds a rule depends on the rules of the groups. -/
theorem groupOf?_congr {groups others : List PrecedenceGroup}
    (same : others.map (·.rules) = groups.map (·.rules)) (suggested : Nat) (rule : RuleId) :
    groupOf? others suggested rule = groupOf? groups suggested rule := by
  have shown (groups : List PrecedenceGroup) : groupOf? groups suggested rule =
      if ((groups.map (·.rules))[suggested]?).any (·.contains rule) then some suggested
      else (groups.map (·.rules)).findIdx? (·.contains rule) := by
    rw [groupOf?, List.getElem?_map, List.findIdx?_map]
    cases groups[suggested]? with
    | none => rfl
    | some group => rfl
  rw [shown others, same, shown groups]

theorem moveLater?_congr {groups others : List PrecedenceGroup}
    (same : others.map (·.rules) = groups.map (·.rules)) (rule : RuleId) (index : Nat) :
    (moveLater? rule index others).map (·.map (·.rules)) =
      (moveLater? rule index groups).map (·.map (·.rules)) := by
  induction groups generalizing others index with
  | nil =>
      rw [List.map_nil, List.map_eq_nil_iff] at same
      rw [same]
  | cons group groups induction =>
      cases others with
      | nil => cases same
      | cons other others =>
          rw [List.map_cons, List.map_cons, List.cons.injEq] at same
          obtain ⟨first, later⟩ := same
          cases index with
          | zero =>
              unfold moveLater?
              rw [first]
              by_cases several : 1 < group.rules.length
              · simp [several, later]
              · rw [if_neg several, if_neg several]
                cases groups with
                | nil =>
                    rw [List.map_nil, List.map_eq_nil_iff] at later
                    rw [later]
                | cons next groups =>
                    cases others with
                    | nil => cases later
                    | cons next' others =>
                        rw [List.map_cons, List.map_cons, List.cons.injEq] at later
                        simp [first, later]
          | succ index =>
              have moved := congrArg (Option.map (group.rules :: ·)) (induction later index)
              simpa [moveLater?, Option.map_map, Function.comp_def, first] using moved

/-- Where a rule moves, the groups keep what they have, and the rule may get one of its own. -/
theorem rules_of_moveLater? {rule : RuleId} {index : Nat} {groups moved : List PrecedenceGroup}
    (result : moveLater? rule index groups = some moved) :
    ∀ group ∈ moved, group.rules = [rule] ∨ ∃ other ∈ groups, group.rules.Sublist other.rules := by
  have kept (group : PrecedenceGroup) (member : group ∈ groups) :
      group.rules = [rule] ∨ ∃ other ∈ groups, group.rules.Sublist other.rules :=
    .inr ⟨group, member, .refl _⟩
  cases moveLater?_eq_some_iff.mp result with
  | @apart before after held several =>
      intro group member
      rw [List.mem_append, List.mem_cons, List.mem_cons] at member
      rcases member with early | rfl | rfl | late
      · exact kept group (by simp [early])
      · exact .inr ⟨held, by simp, List.filter_sublist⟩
      · exact .inl rfl
      · exact kept group (by simp [late])
  | @past before after held next alone =>
      have swapped : (before ++ next :: held :: after).Perm (before ++ held :: next :: after) :=
        .append_left before (.swap held next after)
      exact fun group member => kept group (swapped.mem_iff.mp member)

theorem Orders.moveLater {rules : List RuleId} (distinct : rules.Nodup)
    {groups moved : List PrecedenceGroup} (orders : Orders (groups.map (·.rules)) rules)
    {rule : RuleId} {index : Nat} {group : PrecedenceGroup} (present : groups[index]? = some group)
    (member : rule ∈ group.rules) (result : moveLater? rule index groups = some moved) :
    Orders (moved.map (·.rules)) rules := by
  obtain ⟨filled, kept, complete⟩ := orders
  rw [List.forall_mem_map] at filled kept
  rw [← List.flatMap_def] at complete
  obtain ⟨perm, nonempty⟩ := moveLater?_keeps present member filled
    (fun group inside => distinct.sublist (kept group inside)) result
  have whole := perm.trans complete
  refine ⟨List.forall_mem_map.mpr nonempty, List.forall_mem_map.mpr ?_, ?_⟩
  · intro other inside
    obtain alone | ⟨before, listed, below⟩ := rules_of_moveLater? result other inside
    · rw [alone, List.singleton_sublist]
      exact (kept group (List.mem_of_getElem? present)).subset member
    · exact below.trans (kept before listed)
  · rwa [← List.flatMap_def]

namespace Grammar

/-- The configuration with other groups for one parser. -/
def Configuration.regroup (parser : String) (groups : List (List RuleId))
    (configuration : Configuration) : Configuration :=
  configuration.map fun entry => if entry.1 = parser then (entry.1, groups) else entry

theorem relocate?_configuration (grammar : Grammar) (parser : String) (suggested : Nat)
    (rule : RuleId) :
    (grammar.relocate? parser suggested rule).map configuration =
      (grammar.parser? parser).bind fun table =>
        (groupOf? table.groups suggested rule).bind fun index =>
          (moveLater? rule index table.groups).map fun later =>
            grammar.configuration.regroup parser (later.map (·.rules)) := by
  have regrouped (later : List PrecedenceGroup) : configuration {
      grammar.setPrecedences (renumber later) with
      parsers := grammar.parsers.map fun other =>
        if other.name = parser then { other with groups := renumber later } else other } =
      grammar.configuration.regroup parser (later.map (·.rules)) := by
    simp only [configuration, Configuration.regroup, List.map_map]
    apply List.map_congr_left
    intro other _
    simp only [Function.comp_apply]
    split_ifs
    · rw [map_rules_renumber]
    · rfl
  simp only [relocate?, Option.bind_eq_bind, Option.pure_def, ← regrouped]
  cases grammar.parser? parser with
  | none => rfl
  | some table =>
      simp only [Option.bind_some]
      cases groupOf? table.groups suggested rule with
      | none => rfl
      | some index =>
          simp only [Option.bind_some]
          cases moveLater? rule index table.groups with
          | none => rfl
          | some later => rfl

/-- Moving a rule makes of a configuration what depends on the configuration alone. -/
theorem relocate?_congr {grammar other : Grammar}
    (same : other.configuration = grammar.configuration) (parser : String) (suggested : Nat)
    (rule : RuleId) :
    (other.relocate? parser suggested rule).map configuration =
      (grammar.relocate? parser suggested rule).map configuration := by
  have tables := find?_configuration other parser
  rw [same, find?_configuration] at tables
  rw [relocate?_configuration, relocate?_configuration, same]
  cases found : grammar.parser? parser with
  | none =>
      rw [found, Option.map_none, eq_comm, Option.map_eq_none_iff] at tables
      rw [tables]
  | some table =>
      rw [found, Option.map_some, eq_comm, Option.map_eq_some_iff] at tables
      obtain ⟨table', found', groups⟩ := tables
      rw [found', Option.bind_some, Option.bind_some, groupOf?_congr groups]
      congr 1
      funext index
      have moved := congrArg (Option.map (grammar.configuration.regroup parser))
        (moveLater?_congr groups rule index)
      rwa [Option.map_map, Option.map_map] at moved

/-! ## Orderings of rules -/

/-- The rules of a parser in the order of their rows. -/
def rulesOf (grammar : Grammar) (parser : String) : List RuleId :=
  (rulesFor parser grammar.parserRules.toList.zipIdx).map (·.1)

/-- Every parser has its rules in an ordering. -/
def Ordered (grammar : Grammar) : Prop :=
  ∀ entry ∈ grammar.configuration, Orders entry.2 (grammar.rulesOf entry.1)

theorem rulesOf_of_unkeyed {rows others : List Row}
    (same : others.map Row.unkeyed = rows.map Row.unkeyed)
    (groups regrouped : String → List PrecedenceGroup) :
    (arranged others regrouped).rulesOf = (arranged rows groups).rulesOf := by
  funext parser
  have shown (rows : List Row) (groups : String → List PrecedenceGroup) :
      (arranged rows groups).rulesOf parser =
        (((ungrouped rows).parserRules.toList.map ParserRule.unkeyed).zipIdx.filter
          (·.1.parser = parser)).map (·.2) := by
    rw [List.zipIdx_map, List.filter_map, List.map_map]
    change (rulesFor parser (numberedRules rows)).map (·.1) = _
    rw [rulesFor, List.map_map]
    rfl
  rw [shown, shown, parserRules_of_unkeyed same]

theorem rulesOf_nodup (grammar : Grammar) (parser : String) : (grammar.rulesOf parser).Nodup :=
  rulesFor_nodup _ _

theorem ordered_of_load {rows : List Row} {grammar : Grammar} (loaded : load rows = .ok grammar) :
    grammar.Ordered := by
  obtain ⟨_, _, groups, each, rfl⟩ := load_eq_ok_iff.mp loaded
  intro ⟨parser, ordering⟩ member
  obtain ⟨known, rfl⟩ := mem_configuration.mp member
  obtain ⟨orderly, keyed⟩ := each parser known
  have whole : ((groups parser).map (·.rules)).flatten =
      (arranged (cleaned rows) groups).rulesOf parser := by
    rw [← List.flatMap_def, ← keyedRules_map_fst, keyed]
    rfl
  refine ⟨List.forall_mem_map.mpr orderly.filled, ?_, .of_eq whole⟩
  intro rules listed
  change rules.Sublist ((arranged (cleaned rows) groups).rulesOf parser)
  rw [← whole]
  exact List.sublist_flatten_of_mem listed

theorem Ordered.relocate {rows : List Row} {groups : String → List PrecedenceGroup}
    (ordered : (arranged rows groups).Ordered) (arranges : Arranges rows groups)
    {parser : String} {suggested : Nat} {rule : RuleId} {moved : Grammar}
    (result : (arranged rows groups).relocate? parser suggested rule = some moved) :
    moved.Ordered := by
  obtain ⟨others, regrouped, _, rfl, same⟩ := relocate?_arranged arranges result
  have becomes := relocate?_configuration (arranged rows groups) parser suggested rule
  rw [result, Option.map_some, eq_comm] at becomes
  simp only [Option.bind_eq_some_iff, Option.map_eq_some_iff] at becomes
  obtain ⟨table, found, index, held, later, moves, becomes⟩ := becomes
  obtain ⟨known, rfl⟩ := parser?_arranged.mp found
  intro entry member
  rw [← becomes] at member
  rw [rulesOf_of_unkeyed same groups regrouped]
  obtain ⟨before, listed, rfl⟩ := List.mem_map.mp member
  split_ifs with owned
  · obtain ⟨group, present, inside⟩ := groupOf?_eq_some held
    rw [owned]
    exact (ordered (parser, _) (mem_configuration.mpr ⟨known, rfl⟩)).moveLater
      (rulesOf_nodup _ _) present inside moves
  · exact ordered before listed

/-! ## The number of configurations -/

/-- The configurations in which every parser has its rules in an ordering. -/
def configurations (grammar : Grammar) : List Configuration :=
  List.sections <| grammar.parsers.map fun table =>
    (orderings (grammar.rulesOf table.name)).map fun groups => (table.name, groups)

/-- The number of ways to arrange the rules of each parser into an ordered list of non-empty groups.
-/
noncomputable def orderingCount (grammar : Grammar) : Nat :=
  (grammar.parsers.map fun table =>
    {groups | Orders groups (grammar.rulesOf table.name)}.ncard).prod

theorem orderingCount_eq (grammar : Grammar) : grammar.orderingCount =
    (grammar.parsers.map fun table => (orderings (grammar.rulesOf table.name)).length).prod := by
  simp only [orderingCount, ncard_orders (rulesOf_nodup _ _)]

theorem length_configurations (grammar : Grammar) :
    grammar.configurations.length = grammar.orderingCount := by
  rw [configurations, orderingCount_eq]
  induction grammar.parsers with
  | nil => rfl
  | cons table tables induction =>
      rw [List.map_cons, List.sections, List.length_flatMap]
      simp [induction, Nat.mul_comm]

theorem Ordered.mem_configurations {rows : List Row} {groups : String → List PrecedenceGroup}
    (ordered : (arranged rows groups).Ordered) :
    (arranged rows groups).configuration ∈ (arranged rows groups).configurations := by
  rw [configurations, List.mem_sections, configuration, List.forall₂_map_left_iff,
    List.forall₂_map_right_iff, List.forall₂_same]
  intro table member
  refine List.mem_map.mpr ⟨_, ?_, rfl⟩
  rw [mem_orderings (rulesOf_nodup _ _)]
  exact ordered (table.name, table.groups.map (·.rules)) (List.mem_map_of_mem member)

theorem configurations_of_unkeyed {rows others : List Row}
    (same : others.map Row.unkeyed = rows.map Row.unkeyed)
    (groups regrouped : String → List PrecedenceGroup) :
    (arranged others regrouped).configurations = (arranged rows groups).configurations := by
  rw [configurations, configurations, rulesOf_of_unkeyed same groups regrouped, parsers_arranged,
    parsers_arranged, List.map_map, List.map_map, parserNames_of_unkeyed same]
  rfl

end Grammar

end RowGrammar
