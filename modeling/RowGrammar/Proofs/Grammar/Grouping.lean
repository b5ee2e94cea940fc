import Mathlib.Data.List.Induction
import Mathlib.Tactic.SplitIfs
import RowGrammar.Proofs.Grammar.Tables
import RowGrammar.Proofs.Traversal

/-!
# Precedence groups

The rules of a parser fall into groups in exactly one way: neighbours with the same key belong
together, and a key never comes back.  Groups that are orderly in this sense are grouped again into
themselves.
-/

namespace RowGrammar

/-- Groups that could come from reading rules in their order. -/
structure Orderly (groups : List PrecedenceGroup) : Prop where
  filled : ∀ group ∈ groups, group.rules ≠ []
  /-- A rule without a key is a group of its own. -/
  alone : ∀ group ∈ groups, group.key = "" → group.rules.length = 1
  /-- No key stands for two groups. -/
  apart : groups.Pairwise fun earlier later => later.key ≠ "" → earlier.key ≠ later.key

/-- The rules of a group, each with the key. -/
def PrecedenceGroup.keyed (group : PrecedenceGroup) : List (RuleId × String) :=
  group.rules.map (·, group.key)

/-- The rules of some groups in order, each with its key. -/
def keyedRules (groups : List PrecedenceGroup) : List (RuleId × String) :=
  groups.flatMap (·.keyed)

/-- The groups after some more rules with their keys. -/
def addRules (groups : List PrecedenceGroup) (rules : List (RuleId × String)) :
    Option (List PrecedenceGroup) :=
  rules.foldlM (fun groups rule => addRule rule.1 rule.2 groups) groups

@[simp]
theorem keyedRules_append (left right : List PrecedenceGroup) :
    keyedRules (left ++ right) = keyedRules left ++ keyedRules right := by
  simp [keyedRules]

@[simp]
theorem keyedRules_singleton (group : PrecedenceGroup) :
    keyedRules [group] = group.rules.map (·, group.key) := by
  simp [keyedRules, PrecedenceGroup.keyed]

theorem orderly_nil : Orderly [] :=
  ⟨by simp, by simp, .nil⟩

theorem orderly_append_singleton {groups : List PrecedenceGroup} {last : PrecedenceGroup} :
    Orderly (groups ++ [last]) ↔
      Orderly groups ∧ last.rules ≠ [] ∧ (last.key = "" → last.rules.length = 1) ∧
        (last.key ≠ "" → ∀ group ∈ groups, group.key ≠ last.key) := by
  constructor
  · rintro ⟨filled, alone, apart⟩
    rw [List.pairwise_append] at apart
    refine ⟨⟨?_, ?_, apart.1⟩, filled last (by simp), alone last (by simp), ?_⟩
    · exact fun group member => filled group (by simp [member])
    · exact fun group member => alone group (by simp [member])
    · exact fun keyed group member => apart.2.2 group member last (by simp) keyed
  · rintro ⟨⟨filled, alone, apart⟩, filledLast, aloneLast, apartLast⟩
    refine ⟨?_, ?_, ?_⟩
    · intro group member
      rcases List.mem_append.mp member with before | final
      · exact filled group before
      · rwa [List.mem_singleton.mp final]
    · intro group member
      rcases List.mem_append.mp member with before | final
      · exact alone group before
      · rwa [List.mem_singleton.mp final]
    · rw [List.pairwise_append]
      refine ⟨apart, List.pairwise_singleton _ _, ?_⟩
      intro group before final member keyed
      rw [List.mem_singleton.mp member] at keyed ⊢
      exact apartLast keyed group before

theorem addRule_cons {id : RuleId} {key : String} {group : PrecedenceGroup}
    {groups : List PrecedenceGroup} (more : groups ≠ []) :
    addRule id key (group :: groups) =
      if key ≠ "" ∧ group.key = key then none else (addRule id key groups).map (group :: ·) := by
  cases groups with
  | nil => exact absurd rfl more
  | cons => rfl

/-- A rule joins the last group or starts a new one, unless its key was used before that group. -/
theorem addRule_append_singleton (id : RuleId) (key : String) (before : List PrecedenceGroup)
    (last : PrecedenceGroup) :
    addRule id key (before ++ [last]) =
      if key ≠ "" ∧ ∃ group ∈ before, group.key = key then none
      else if key ≠ "" ∧ last.key = key then some (before ++ [⟨key, last.rules ++ [id]⟩])
      else some (before ++ [last, ⟨key, [id]⟩]) := by
  induction before with
  | nil => simp [addRule]
  | cons group before induction =>
      rw [List.cons_append, addRule_cons (by simp), induction]
      by_cases unkeyed : key = ""
      · simp [unkeyed]
      · by_cases here : group.key = key
        · simp [unkeyed, here]
        · by_cases earlier : ∃ other ∈ before, other.key = key
          · simp [unkeyed, here, earlier]
          · by_cases same : last.key = key
            · simp [unkeyed, here, earlier, same]
            · simp [unkeyed, here, earlier, same]

/-- Groups stay orderly when a rule is added, and the rule comes last. -/
theorem Orderly.addRule {id : RuleId} {key : String} {groups after : List PrecedenceGroup}
    (orderly : Orderly groups) (added : addRule id key groups = some after) :
    Orderly after ∧ keyedRules after = keyedRules groups ++ [(id, key)] := by
  induction groups using List.reverseRecOn with
  | nil =>
      cases added
      refine ⟨orderly_append_singleton.mpr ⟨orderly_nil, by simp, by simp, by simp⟩, rfl⟩
  | append_singleton before last =>
      rw [addRule_append_singleton] at added
      split_ifs at added with used joins
      · cases added
        obtain ⟨before_, filled, alone, apart⟩ := orderly_append_singleton.mp orderly
        constructor
        · refine orderly_append_singleton.mpr ⟨before_, by simp, ?_, ?_⟩
          · exact fun unkeyed => absurd unkeyed joins.1
          · intro _ group member same
            exact used ⟨joins.1, group, member, same⟩
        · simp [joins.2]
      · cases added
        have regrouped : before ++ [last, ⟨key, [id]⟩] = (before ++ [last]) ++ [⟨key, [id]⟩] := by
          simp
        rw [regrouped, keyedRules_append (before ++ [last])]
        refine ⟨orderly_append_singleton.mpr ⟨orderly, by simp, by simp, ?_⟩, rfl⟩
        intro keyed group member same
        rcases List.mem_append.mp member with earlier | final
        · exact used ⟨keyed, group, earlier, same⟩
        · rw [List.mem_singleton.mp final] at same
          exact joins ⟨keyed, same⟩

/-- Without its last rule, an orderly list of groups is orderly, and the rule goes back there. -/
theorem Orderly.exists_addRule {id : RuleId} {key : String} {groups : List PrecedenceGroup}
    {rules : List (RuleId × String)} (orderly : Orderly groups)
    (keyed : keyedRules groups = rules ++ [(id, key)]) :
    ∃ before, Orderly before ∧ keyedRules before = rules ∧
      RowGrammar.addRule id key before = some groups := by
  induction groups using List.reverseRecOn with
  | nil => simp [keyedRules] at keyed
  | append_singleton init last =>
      obtain ⟨ordered, filled, alone, apart⟩ := orderly_append_singleton.mp orderly
      obtain ⟨others, final, split_⟩ : ∃ others final, last.rules = others ++ [final] :=
        ⟨_, _, (List.dropLast_append_getLast filled).symm⟩
      rw [keyedRules_append, keyedRules_singleton, split_, List.map_append, ← List.append_assoc]
        at keyed
      obtain ⟨same, tail⟩ := List.append_inj' keyed rfl
      simp only [List.map_cons, List.map_nil, List.cons.injEq, Prod.mk.injEq, and_true] at tail
      obtain ⟨rfl, rfl⟩ := tail
      by_cases single : others = []
      · refine ⟨init, ordered, by simpa [single] using same, ?_⟩
        rw [single, List.nil_append] at split_
        have whole : last = ⟨last.key, [final]⟩ := by rw [← split_]
        induction init using List.reverseRecOn with
        | nil =>
            rw [whole]
            rfl
        | append_singleton earlier before =>
            rw [addRule_append_singleton, if_neg, if_neg]
            · rw [List.append_assoc, List.singleton_append, ← whole]
            · exact fun joins => apart joins.1 before (by simp) joins.2
            · rintro ⟨keyed_, group, member, equal⟩
              exact apart keyed_ group (by simp [member]) equal
      · have several : last.key ≠ "" := by
          intro unkeyed
          have lengths := alone unkeyed
          rw [split_, List.length_append, List.length_singleton] at lengths
          exact single (List.length_eq_zero_iff.mp (by omega))
        refine ⟨init ++ [⟨last.key, others⟩], ?_, by simpa using same, ?_⟩
        · exact orderly_append_singleton.mpr
            ⟨ordered, single, fun unkeyed => absurd unkeyed several, apart⟩
        · rw [addRule_append_singleton, if_neg, if_pos ⟨several, rfl⟩, ← split_]
          rintro ⟨keyed_, group, member, equal⟩
          exact apart keyed_ group member equal

/-- Rules fall into groups in exactly one way. -/
theorem addRules_eq_some_iff {rules : List (RuleId × String)} {groups : List PrecedenceGroup} :
    addRules [] rules = some groups ↔ Orderly groups ∧ keyedRules groups = rules := by
  induction rules using List.reverseRecOn generalizing groups with
  | nil =>
      constructor
      · intro same
        cases same
        exact ⟨orderly_nil, rfl⟩
      · rintro ⟨orderly, none_⟩
        cases groups with
        | nil => rfl
        | cons group groups =>
            have filled := orderly.filled group (by simp)
            simp [keyedRules, PrecedenceGroup.keyed, filled] at none_
  | append_singleton rules rule induction =>
      have step : addRules [] (rules ++ [rule]) =
          (addRules [] rules).bind fun before => addRule rule.1 rule.2 before := by
        simp [addRules, List.foldlM_append]
      rw [step, Option.bind_eq_some_iff]
      constructor
      · rintro ⟨before, grouped, added⟩
        obtain ⟨orderly, keyed⟩ := induction.mp grouped
        have after := orderly.addRule added
        rw [keyed] at after
        exact after
      · rintro ⟨orderly, keyed⟩
        obtain ⟨before, ordered, same, added⟩ := orderly.exists_addRule keyed
        exact ⟨before, induction.mpr ⟨ordered, same⟩, added⟩

/-- The rules of one parser among numbered rules, each with its key. -/
def rulesFor (parser : String) (rules : List (ParserRule × RuleId)) : List (RuleId × String) :=
  (rules.filter (·.1.parser = parser)).map fun rule => (rule.2, rule.1.precedence)

/-- The tables with the groups that a function gives to their parsers. -/
def withGroups (groups : String → List PrecedenceGroup) (tables : List ParserTable) :
    List ParserTable :=
  tables.map fun table => { table with groups := groups table.name }

@[simp]
theorem tableNames_withGroups (groups : String → List PrecedenceGroup)
    (tables : List ParserTable) : tableNames (withGroups groups tables) = tableNames tables := by
  simp [tableNames, withGroups]

theorem withGroups_eq_self {groups : String → List PrecedenceGroup} {tables : List ParserTable}
    (same : ∀ table ∈ tables, groups table.name = table.groups) :
    withGroups groups tables = tables := by
  refine (List.map_congr_left fun table member => ?_).trans (List.map_id' _)
  rw [same table member]

/-- Names tell tables apart, so some function gives every table the groups that it has. -/
theorem exists_groups_of_nodup {tables : List ParserTable} (nodup : (tableNames tables).Nodup) :
    ∃ groups : String → List PrecedenceGroup, ∀ table ∈ tables,
      groups table.name = table.groups := by
  refine ⟨fun name => ((tables.find? (·.name == name)).map (·.groups)).getD [], ?_⟩
  intro table member
  have found := (find?_table_eq_some_iff nodup).mpr ⟨member, rfl⟩
  simp [found]

/-- The tables with other groups for one parser. -/
def regroup (parser : String) (groups : List PrecedenceGroup) (tables : List ParserTable) :
    List ParserTable :=
  tables.map fun table => if table.name = parser then { table with groups } else table

@[simp]
theorem tableNames_regroup (parser : String) (groups : List PrecedenceGroup)
    (tables : List ParserTable) :
    tableNames (regroup parser groups tables) = tableNames tables := by
  rw [tableNames, tableNames, regroup, List.map_map]
  refine List.map_congr_left fun table _ => ?_
  simp only [Function.comp_apply]
  split
  · rfl
  · rfl

theorem withGroups_regroup (parser : String) (middle : List PrecedenceGroup)
    (groups : String → List PrecedenceGroup) (tables : List ParserTable) :
    withGroups groups (regroup parser middle tables) = withGroups groups tables := by
  rw [withGroups, withGroups, regroup, List.map_map]
  refine List.map_congr_left fun other _ => ?_
  simp only [Function.comp_apply]
  split
  · rfl
  · rfl

theorem rulesFor_cons_of_ne {parser : String} {rule : ParserRule} (apart : parser ≠ rule.parser)
    (id : RuleId) (rules : List (ParserRule × RuleId)) :
    rulesFor parser ((rule, id) :: rules) = rulesFor parser rules := by
  simp [rulesFor, Ne.symm apart]

theorem addRules_rulesFor_cons (groups : List PrecedenceGroup) (rule : ParserRule) (id : RuleId)
    (rules : List (ParserRule × RuleId)) :
    addRules groups (rulesFor rule.parser ((rule, id) :: rules)) =
      (addRule id rule.precedence groups).bind fun middle =>
        addRules middle (rulesFor rule.parser rules) := by
  simp [addRules, rulesFor]

namespace Grammar

/-- A rule changes the groups of its parser. -/
theorem groupRule_eq_ok_iff {tables after : List ParserTable}
    (nodup : (tableNames tables).Nodup) {rule : ParserRule} {id : RuleId} {table : ParserTable}
    (member : table ∈ tables) (named : table.name = rule.parser) :
    groupRule tables rule id = .ok after ↔
      ∃ groups, addRule id rule.precedence table.groups = some groups ∧
        after = regroup rule.parser groups tables := by
  have found := (find?_table_eq_some_iff nodup).mpr ⟨member, named⟩
  have present : rule.parser ∈ tableNames tables := named ▸ List.mem_map_of_mem member
  simp only [groupRule, found]
  cases added : addRule id rule.precedence table.groups with
  | none => simp
  | some groups =>
      simp only [updateTable_of_mem nodup present, Except.ok.injEq, Option.some.injEq,
        exists_eq_left']
      exact eq_comm

/-- The rules of every parser fall into groups by themselves. -/
theorem groupRules_eq_ok_iff {rules : List (ParserRule × RuleId)}
    {tables after : List ParserTable} (nodup : (tableNames tables).Nodup)
    (present : ∀ rule ∈ rules, rule.1.parser ∈ tableNames tables) :
    rules.foldlM (fun tables (rule, id) => groupRule tables rule id) tables = .ok after ↔
      ∃ groups : String → List PrecedenceGroup,
        (∀ table ∈ tables,
          addRules table.groups (rulesFor table.name rules) = some (groups table.name)) ∧
        after = withGroups groups tables := by
  induction rules generalizing tables with
  | nil =>
      rw [List.foldlM_nil, pure_eq_ok_iff]
      have blank (table : ParserTable) : addRules table.groups (rulesFor table.name []) =
          some table.groups := rfl
      simp only [blank, Option.some.injEq]
      constructor
      · rintro rfl
        obtain ⟨groups, same⟩ := exists_groups_of_nodup nodup
        exact ⟨groups, fun table member => (same table member).symm, (withGroups_eq_self same).symm⟩
      · rintro ⟨groups, same, rfl⟩
        exact (withGroups_eq_self fun table member => (same table member).symm).symm
  | cons rule rules induction =>
      obtain ⟨rule, id⟩ := rule
      obtain ⟨table, member, named⟩ := List.mem_map.mp (present (rule, id) List.mem_cons_self)
      have later : ∀ rule ∈ rules, rule.1.parser ∈ tableNames tables :=
        fun rule member => present rule (List.mem_cons_of_mem _ member)
      rw [List.foldlM_cons, bind_eq_ok_iff]
      simp only [groupRule_eq_ok_iff nodup member named]
      constructor
      · rintro ⟨_, ⟨middle, added, rfl⟩, rest⟩
        rw [induction (by rwa [tableNames_regroup]) (by rwa [tableNames_regroup])] at rest
        obtain ⟨groups, each, rfl⟩ := rest
        refine ⟨groups, ?_, withGroups_regroup _ _ _ _⟩
        intro other inside
        have known := each _ (List.mem_map_of_mem inside)
        by_cases same : other.name = rule.parser
        · have equal := (find?_table_eq_some_iff nodup).mpr ⟨inside, same⟩
          rw [(find?_table_eq_some_iff nodup).mpr ⟨member, named⟩, Option.some.injEq] at equal
          subst equal
          rw [if_pos same] at known
          rw [named, addRules_rulesFor_cons, added]
          exact named ▸ known
        · rw [if_neg same] at known
          rw [rulesFor_cons_of_ne same]
          exact known
      · rintro ⟨groups, each, rfl⟩
        have first := each table member
        rw [named, addRules_rulesFor_cons, Option.bind_eq_some_iff] at first
        obtain ⟨middle, added, rest⟩ := first
        refine ⟨_, ⟨middle, added, rfl⟩, ?_⟩
        rw [induction (by rwa [tableNames_regroup]) (by rwa [tableNames_regroup])]
        refine ⟨groups, ?_, (withGroups_regroup _ _ _ _).symm⟩
        intro other inside
        obtain ⟨before, old, rfl⟩ := List.mem_map.mp inside
        by_cases same : before.name = rule.parser
        · rw [if_pos same]
          simp only [same]
          exact rest
        · rw [if_neg same, ← rulesFor_cons_of_ne same id]
          exact each before old

end Grammar

end RowGrammar
