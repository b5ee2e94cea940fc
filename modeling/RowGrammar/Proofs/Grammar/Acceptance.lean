import RowGrammar.Proofs.Grammar.Reloading

/-!
# Accepted rows

Rows are checked one after the other: first what they name, then the keys of each parser, then the
sub-parsers.  The checks amount to one condition on all of the rows, and rows that meet it fall into
precedence groups by their keys.
-/

namespace RowGrammar

open RowGrammar.Text

/-! ## Keys next to each other -/

/-- Equal keys stand next to each other, empty ones apart. -/
def Consecutive (keys : List String) : Prop :=
  ∀ (first middle last : Nat) (key : String), first < middle → middle < last →
    keys[first]? = some key → keys[last]? = some key → key ≠ "" → keys[middle]? = some key

theorem consecutive_append_singleton {keys : List String} {key : String} :
    Consecutive (keys ++ [key]) ↔
      Consecutive keys ∧ (key ≠ "" → key ∈ keys → keys.getLast? = some key) := by
  have inside {index : Nat} (before : index < keys.length) :
      (keys ++ [key])[index]? = keys[index]? := List.getElem?_append_left before
  have final : (keys ++ [key])[keys.length]? = some key := by simp
  rw [List.getLast?_eq_getElem?]
  constructor
  · intro whole
    constructor
    · intro first middle last shared before after found found' keyed
      have bounded := (List.getElem?_eq_some_iff.mp found').1
      have between := whole first middle last shared before after
        (by rwa [inside (by omega)]) (by rwa [inside bounded]) keyed
      rwa [inside (by omega)] at between
    · intro keyed member
      obtain ⟨first, found⟩ := List.mem_iff_getElem?.mp member
      have bounded := (List.getElem?_eq_some_iff.mp found).1
      by_cases adjacent : first = keys.length - 1
      · rwa [adjacent] at found
      · have between := whole first (keys.length - 1) keys.length key (by omega) (by omega)
          (by rwa [inside bounded]) final keyed
        rwa [inside (by omega)] at between
  · rintro ⟨within, continues⟩ first middle last shared before after found found' keyed
    have bounded := (List.getElem?_eq_some_iff.mp found').1
    rw [List.length_append, List.length_singleton] at bounded
    rw [inside (by omega)] at found ⊢
    by_cases new : last = keys.length
    · rw [new, final, Option.some.injEq] at found'
      subst found'
      have latest := continues keyed (List.mem_of_getElem? found)
      by_cases adjacent : middle = keys.length - 1
      · rwa [adjacent]
      · exact within first middle (keys.length - 1) key before (by omega) found latest keyed
    · rw [inside (by omega)] at found'
      exact within first middle last shared before after found found' keyed

/-- The keys of some groups, once for each rule. -/
theorem map_keys_eq (groups : List PrecedenceGroup) :
    (keyedRules groups).map (·.2) =
      groups.flatMap fun group => List.replicate group.rules.length group.key := by
  simp [keyedRules, PrecedenceGroup.keyed, List.map_flatMap, Function.comp_def]

theorem mem_keys_iff {groups : List PrecedenceGroup} (filled : ∀ group ∈ groups, group.rules ≠ [])
    {key : String} :
    key ∈ (keyedRules groups).map (·.2) ↔ ∃ group ∈ groups, group.key = key := by
  rw [map_keys_eq, List.mem_flatMap]
  refine exists_congr fun group => and_congr_right fun member => ?_
  simp [filled group member, eq_comm]

/-- A rule can be added when its key is new, is that of the rule before, or is empty. -/
theorem Orderly.addRule_isSome_iff {groups : List PrecedenceGroup} (orderly : Orderly groups)
    (id : RuleId) {key : String} : (RowGrammar.addRule id key groups).isSome ↔
      (key ≠ "" → key ∈ (keyedRules groups).map (·.2) →
        ((keyedRules groups).map (·.2)).getLast? = some key) := by
  induction groups using List.reverseRecOn with
  | nil => simp [RowGrammar.addRule, keyedRules]
  | append_singleton before last =>
      obtain ⟨_, filled, _, apart⟩ := orderly_append_singleton.mp orderly
      have latest : ((keyedRules (before ++ [last])).map (·.2)).getLast? = some last.key := by
        simp [map_keys_eq, List.getLast?_eq_some_getLast filled]
      rw [addRule_append_singleton, latest, mem_keys_iff orderly.filled, Option.some.injEq]
      split_ifs with used joins
      · obtain ⟨keyed, group, member, same⟩ := used
        simp only [Option.isSome_none, Bool.false_eq_true, false_iff]
        intro continues
        have repeated := continues keyed ⟨group, List.mem_append_left _ member, same⟩
        exact apart (repeated ▸ keyed) group member (same.trans repeated.symm)
      · simp only [Option.isSome_some, true_iff]
        exact fun _ _ => joins.2
      · simp only [Option.isSome_some, true_iff]
        rintro keyed ⟨group, member, same⟩
        rcases List.mem_append.mp member with earlier | final
        · exact absurd ⟨keyed, group, earlier, same⟩ used
        · rwa [← List.mem_singleton.mp final]

/-- Rules fall into groups exactly when equal keys stand next to each other. -/
theorem exists_groups_iff {rules : List (RuleId × String)} :
    (∃ groups, Orderly groups ∧ keyedRules groups = rules) ↔ Consecutive (rules.map (·.2)) := by
  simp only [← addRules_eq_some_iff]
  induction rules using List.reverseRecOn with
  | nil => simp [addRules, Consecutive]
  | append_singleton rules rule induction =>
      -- The last rule is added to the groups of the others, which its key has to continue.
      have step : addRules [] (rules ++ [rule]) =
          (addRules [] rules).bind fun before => addRule rule.1 rule.2 before := by
        simp [addRules, List.foldlM_append]
      rw [List.map_append, List.map_singleton, consecutive_append_singleton, ← induction, step]
      constructor
      · rintro ⟨groups, grouped⟩
        obtain ⟨before, first, added⟩ := Option.bind_eq_some_iff.mp grouped
        obtain ⟨orderly, keyed⟩ := addRules_eq_some_iff.mp first
        refine ⟨⟨before, first⟩, ?_⟩
        rw [← keyed, ← orderly.addRule_isSome_iff rule.1, added]
        rfl
      · rintro ⟨⟨before, first⟩, continues⟩
        obtain ⟨orderly, keyed⟩ := addRules_eq_some_iff.mp first
        rw [← keyed, ← orderly.addRule_isSome_iff rule.1] at continues
        obtain ⟨groups, added⟩ := Option.isSome_iff_exists.mp continues
        exact ⟨groups, Option.bind_eq_some_iff.mpr ⟨before, first, added⟩⟩

/-- Two rules are in the same group when they have the same key and it is not empty. -/
theorem Orderly.shared_iff {groups : List PrecedenceGroup} (orderly : Orderly groups)
    (nodup : ((keyedRules groups).map (·.1)).Nodup) {first second : RuleId} {key key' : String}
    (one : (first, key) ∈ keyedRules groups) (two : (second, key') ∈ keyedRules groups)
    (different : first ≠ second) :
    (∃ group ∈ groups, first ∈ group.rules ∧ second ∈ group.rules) ↔ key = key' ∧ key ≠ "" := by
  have key_eq {group : PrecedenceGroup} (member : group ∈ groups) {rule : RuleId} {key : String}
      (inside : rule ∈ group.rules) (known : (rule, key) ∈ keyedRules groups) :
      key = group.key := by
    have listed : (rule, group.key) ∈ keyedRules groups :=
      List.mem_flatMap.mpr ⟨group, member, List.mem_map.mpr ⟨rule, inside, rfl⟩⟩
    exact congrArg Prod.snd (List.inj_on_of_nodup_map nodup known listed rfl)
  constructor
  · rintro ⟨group, member, inside, inside'⟩
    have same := key_eq member inside one
    refine ⟨same.trans (key_eq member inside' two).symm, ?_⟩
    rintro rfl
    obtain ⟨rule, single⟩ := List.length_eq_one_iff.mp (orderly.alone group member same.symm)
    rw [single, List.mem_singleton] at inside inside'
    exact different (inside.trans inside'.symm)
  · rintro ⟨rfl, keyed⟩
    obtain ⟨group, member, listed⟩ := List.mem_flatMap.mp one
    obtain ⟨group', member', listed'⟩ := List.mem_flatMap.mp two
    obtain ⟨rule, inside, same⟩ := List.mem_map.mp listed
    obtain ⟨rule', inside', same'⟩ := List.mem_map.mp listed'
    obtain ⟨rfl, shared⟩ := Prod.mk.inj same
    obtain ⟨rfl, shared'⟩ := Prod.mk.inj same'
    obtain ⟨index, bound, rfl⟩ := List.getElem_of_mem member
    obtain ⟨index', bound', rfl⟩ := List.getElem_of_mem member'
    have apart := List.pairwise_iff_getElem.mp orderly.apart
    rcases Nat.lt_trichotomy index index' with before | rfl | after
    · exact absurd (shared.trans shared'.symm)
        (apart index index' bound bound' before (shared' ▸ keyed))
    · exact ⟨_, member, inside, inside'⟩
    · exact absurd (shared'.trans shared.symm)
        (apart index' index bound' bound after (shared ▸ keyed))

/-! ## Well-formed rows -/

/-- At least two characters, all of them letters of the Latin alphabet or underscores. -/
def IsName (name : String) : Prop :=
  2 ≤ name.length ∧ ∀ c ∈ name.toList, ('a' ≤ c ∧ c ≤ 'z') ∨ ('A' ≤ c ∧ c ≤ 'Z') ∨ c = '_'

theorem isNameLetter_iff {c : Char} :
    isNameLetter c ↔ ('a' ≤ c ∧ c ≤ 'z') ∨ ('A' ≤ c ∧ c ≤ 'Z') ∨ c = '_' := by
  simp [isNameLetter, isAsciiLetter, or_assoc]

theorem Registry.isValidName_iff {name : String} : isValidName name ↔ IsName name := by
  simp [isValidName, IsName, isNameLetter_iff, ← String.length_toList]

/-- Rows that make a grammar. -/
structure WellFormed (rows : List Row) : Prop where
  named : ∀ row ∈ rows, IsName row.nodeType
  distinct : (rows.map (·.nodeType)).Nodup
  few : rows.length ≤ 9999
  grouped : ∀ row ∈ rows, row.group ≠ "" →
    IsName row.group ∧ ∀ other ∈ rows, other.nodeType ≠ row.group
  onePattern : ∀ row ∈ rows, isBlankText row.tokenPattern ≠ isBlankText row.parsePattern
  plain : ∀ row ∈ rows, '\\' ∉ row.parsePattern.toList
  /-- The productions of a parser with the same key stand next to each other. -/
  consecutive : ∀ parser, Consecutive ((rows.filter (Row.produces parser)).map (·.precedence))
  delegated : ∀ row ∈ rows, row.subparser ≠ "" → ∃ other ∈ rows, other.parser = row.subparser

/-- A blank pattern has no backslash. -/
theorem Row.plain_iff {row : Row} : (row.isParserRow → '\\' ∉ row.parsePattern.toList) ↔
    '\\' ∉ row.parsePattern.toList := by
  refine ⟨fun plain escaped => ?_, fun plain _ => plain⟩
  cases production : row.isParserRow with
  | true => exact plain production escaped
  | false =>
      have blank : isBlankText row.parsePattern = true := by simpa [isParserRow] using production
      have backslash := List.all_eq_true.mp blank _ escaped
      exact absurd backslash (by decide)

theorem readable_iff {rows : List Row} : Readable rows ↔
    (∀ row ∈ rows, IsName row.nodeType) ∧ (rows.map (·.nodeType)).Nodup ∧ rows.length ≤ 9999 ∧
      (∀ row ∈ rows, row.group ≠ "" →
        IsName row.group ∧ ∀ other ∈ rows, other.nodeType ≠ row.group) ∧
      (∀ row ∈ rows, isBlankText row.tokenPattern ≠ isBlankText row.parsePattern) ∧
      ∀ row ∈ rows, '\\' ∉ row.parsePattern.toList := by
  have one (row : Row) : row.isTokenRow = !row.isParserRow ↔
      isBlankText row.tokenPattern ≠ isBlankText row.parsePattern := by
    rw [Row.isTokenRow, Row.isParserRow]
    cases isBlankText row.tokenPattern <;> cases isBlankText row.parsePattern <;> simp
  constructor
  · rintro ⟨each, distinct, apart, few⟩
    refine ⟨fun row member => Registry.isValidName_iff.mp (each row member).named, distinct,
      Nat.le_of_lt_succ few, ?_, fun row member => (one row).mp (each row member).onePattern,
      fun row member => Row.plain_iff.mp (each row member).plain⟩
    intro row member named
    refine ⟨Registry.isValidName_iff.mp ((each row member).grouped named), ?_⟩
    intro other inside same
    exact apart row member (same ▸ List.mem_map_of_mem inside)
  · rintro ⟨named, distinct, few, grouped, onePattern, plain⟩
    refine ⟨?_, distinct, ?_, Nat.lt_succ_of_le few⟩
    · intro row member
      exact ⟨Registry.isValidName_iff.mpr (named row member),
        fun given => Registry.isValidName_iff.mpr (grouped row member given).1,
        (one row).mpr (onePattern row member), Row.plain_iff.mpr (plain row member)⟩
    · intro row member inside
      obtain ⟨other, listed, same⟩ := List.mem_map.mp inside
      by_cases given : row.group = ""
      · have valid := Registry.isValidName_iff.mpr (named other listed)
        exact (Registry.ne_of_isValidName valid).1 (same.trans given)
      · exact (grouped row member given).2 other listed same

namespace Grammar

/-- The keys of the rules of a parser are those of its productions. -/
theorem keys_rulesFor (rows : List Row) (parser : String) :
    (rulesFor parser (numberedRules rows)).map (·.2) =
      (rows.filter (Row.produces parser)).map (·.precedence) := by
  rw [← filterMap_rowOf_rulesFor, List.filterMap_map, List.map_filterMap, ← List.filterMap_eq_map]
  apply List.filterMap_congr
  intro pair member
  obtain ⟨row, found, key⟩ := exists_rowOf member
  simp [found, key]

theorem delegated_iff {rows : List Row} :
    (∀ row ∈ rows, ∀ parser, row.delegate? = some parser → parser ∈ parserNames rows) ↔
      ∀ row ∈ rows, row.subparser ≠ "" → ∃ other ∈ rows, other.parser = row.subparser := by
  refine forall_congr' fun row => imp_congr_right fun _ => ?_
  rw [Row.delegate?]
  split_ifs with direct
  · simp [direct]
  · simp [direct, mem_parserNames]

/-- Every parser can have groups when it can by itself. -/
theorem exists_arrangement_iff {rows : List Row} :
    (∃ groups : String → List PrecedenceGroup, ∀ parser ∈ parserNames rows,
      Orderly (groups parser) ∧
        keyedRules (groups parser) = rulesFor parser (numberedRules rows)) ↔
      ∀ parser, Consecutive ((rows.filter (Row.produces parser)).map (·.precedence)) := by
  constructor
  · rintro ⟨groups, each⟩ parser
    by_cases known : parser ∈ parserNames rows
    · rw [← keys_rulesFor, ← exists_groups_iff]
      exact ⟨groups parser, each parser known⟩
    · have idle : rows.filter (Row.produces parser) = [] := by
        rw [List.filter_eq_nil_iff]
        intro row member produced
        rw [Row.produces, Bool.and_eq_true, beq_iff_eq] at produced
        exact known (mem_parserNames.mpr ⟨row, member, produced.2⟩)
      simp [idle, Consecutive]
  · intro consecutive
    have each (parser : String) : ∃ groups, Orderly groups ∧
        keyedRules groups = rulesFor parser (numberedRules rows) := by
      rw [exists_groups_iff, keys_rulesFor]
      exact consecutive parser
    choose groups grouped using each
    exact ⟨groups, fun parser _ => grouped parser⟩

theorem exists_load_iff {rows : List Row} :
    (∃ grammar, load rows = .ok grammar) ↔ WellFormed (cleaned rows) := by
  simp only [load_eq_ok_iff, readable_iff, delegated_iff]
  constructor
  · rintro ⟨_, ⟨named, distinct, few, grouped, onePattern, plain⟩, delegated, groups, each, _⟩
    exact ⟨named, distinct, few, grouped, onePattern, plain,
      exists_arrangement_iff.mp ⟨groups, each⟩, delegated⟩
  · rintro ⟨named, distinct, few, grouped, onePattern, plain, consecutive, delegated⟩
    obtain ⟨groups, each⟩ := exists_arrangement_iff.mpr consecutive
    exact ⟨_, ⟨named, distinct, few, grouped, onePattern, plain⟩, delegated, groups, each, rfl⟩

/-! ## Groups by keys -/

/-- The row that a parser rule comes from. -/
def ruleRow? (grammar : Grammar) (id : RuleId) : Option Row :=
  (grammar.parserRules[id]?).bind fun rule => grammar.rows[rule.row]?

/-- The groups of a table divide the rules of some rows by the keys of the rows. -/
structure Divides (grammar : Grammar) (table : ParserTable) (productions : List Row) : Prop where
  filled : ∀ group ∈ table.groups, group.rules ≠ []
  ordered : (table.groups.flatMap (·.rules)).map grammar.ruleRow? = productions.map some
  /-- Rules are in one group when they have the same key, unless it is empty. -/
  shared : ∀ (index other : Nat) (first second : RuleId) (row row' : Row), index ≠ other →
    (table.groups.flatMap (·.rules))[index]? = some first →
    (table.groups.flatMap (·.rules))[other]? = some second →
    productions[index]? = some row → productions[other]? = some row' →
    ((∃ group ∈ table.groups, first ∈ group.rules ∧ second ∈ group.rules) ↔
      row.precedence = row'.precedence ∧ row.precedence ≠ "")

theorem divides_of_load {rows : List Row} {grammar : Grammar} (loaded : load rows = .ok grammar)
    {parser : String} (known : ∃ row ∈ cleaned rows, row.parser = parser) :
    ∃ table, grammar.parser? parser = some table ∧
      grammar.Divides table ((cleaned rows).filter (Row.produces parser)) := by
  obtain ⟨_, _, groups, each, rfl⟩ := load_eq_ok_iff.mp loaded
  have present := mem_parserNames.mpr known
  obtain ⟨orderly, keyed⟩ := each parser present
  generalize cleaned rows = rows at *
  have ids : (groups parser).flatMap (·.rules) = (keyedRules (groups parser)).map (·.1) :=
    (keyedRules_map_fst _).symm
  have ruleRow (id : RuleId) : (arranged rows groups).ruleRow? id = rowOf rows id := by
    simp only [ruleRow?, rowOf, arranged, ungrouped, List.getElem?_toArray]
  have ordered : ((groups parser).flatMap (·.rules)).map (arranged rows groups).ruleRow? =
      (rows.filter (Row.produces parser)).map some := by
    rw [← filterMap_rowOf_rulesFor, ids, keyed, List.map_filterMap, List.map_map,
      List.filterMap_map, ← List.filterMap_eq_map]
    apply List.filterMap_congr
    intro pair member
    obtain ⟨row, here, _⟩ := exists_rowOf member
    simp [ruleRow, here]
  have nodup : ((keyedRules (groups parser)).map (·.1)).Nodup := keyed ▸ rulesFor_nodup _ _
  have listed {index : Nat} {id : RuleId} {row : Row}
      (found : ((groups parser).flatMap (·.rules))[index]? = some id)
      (here : (rows.filter (Row.produces parser))[index]? = some row) :
      (id, row.precedence) ∈ keyedRules (groups parser) := by
    have rowed := congrArg (·[index]?) ordered
    simp only [List.getElem?_map, found, here, Option.map_some, Option.some.injEq,
      ruleRow] at rowed
    rw [ids, List.getElem?_map, Option.map_eq_some_iff] at found
    obtain ⟨pair, present, rfl⟩ := found
    have member := List.mem_of_getElem? present
    obtain ⟨row', here', key⟩ := exists_rowOf (keyed ▸ member)
    rw [rowed, Option.some.injEq] at here'
    rw [here', key]
    exact member
  refine ⟨_, parser?_arranged.mpr ⟨present, rfl⟩, orderly.filled, ordered, ?_⟩
  intro index other first second row row' apart found found' here here'
  apply orderly.shared_iff nodup (listed found here) (listed found' here')
  rintro rfl
  rw [← keyedRules_map_fst] at found found'
  have inside := (List.getElem?_eq_some_iff.mp found).1
  exact apart ((List.getElem?_inj inside nodup).mp (found.trans found'.symm))

/-! ## Primitive types -/

/-- A step that does not fail over primitive types. -/
def Undisputed {α : Type} (result : Except GrammarError α) : Prop :=
  ∀ nodeType existing requested,
    result ≠ .error (.inconsistentPrimitiveType nodeType existing requested)

theorem undisputed_ok {α : Type} (value : α) : Undisputed (.ok value) := by
  intro _ _ _ failed
  cases failed

theorem Undisputed.bind {α β : Type} {first : Except GrammarError α}
    {next : α → Except GrammarError β} (one : Undisputed first)
    (two : ∀ value, first = .ok value → Undisputed (next value)) :
    Undisputed (first >>= next) := by
  cases first with
  | error error =>
      intro nodeType existing requested failed
      exact one nodeType existing requested (by cases failed; rfl)
  | ok value => exact two value rfl

theorem undisputed_registered (registry : Registry) (name : String) :
    Undisputed (registry.register name) := by
  intro _ _ _ failed
  rw [Registry.register] at failed
  split_ifs at failed <;> cases failed

theorem undisputed_join (registry : Registry) (group : String) (member : NodeTypeId) :
    Undisputed (registry.join group member) := by
  intro _ _ _ failed
  rw [Registry.join, Registry.addToGroup] at failed
  split_ifs at failed <;> cases failed

/-- A new node type has no primitive type that another one could conflict with. -/
theorem undisputed_register (rows : List Row) (row : Row) :
    Undisputed ((ungrouped rows).register row) := by
  rw [register_eq]
  apply (undisputed_registered _ _).bind
  rintro ⟨id, registry⟩ registered
  obtain ⟨_, _, _, _, same⟩ := Registry.register_eq_ok_iff.mp registered
  cases same
  apply (undisputed_join _ _ _).bind
  intro after joined
  obtain ⟨_, rfl⟩ := Registry.join_eq_ok_iff.mp joined
  have new : (primitivesOf rows).lookup (ungrouped rows).registry.size = none := by
    rw [show (ungrouped rows).registry.size = rows.length + 1 by simp [ungrouped, Registry.size]]
    exact primitive?_new rows
  have unset : (ungrouped rows).registry.primitives = primitivesOf rows := rfl
  apply Undisputed.bind
  · rw [Registry.prime]
    by_cases bare : row.primitiveType = ""
    · rw [if_pos bare]
      exact undisputed_ok _
    · rw [if_neg bare]
      simp only [Registry.setPrimitive, Registry.primitive?, unset, new]
      exact undisputed_ok _
  · exact fun _ _ => undisputed_ok _

theorem undisputed_addRow (rows : List Row) (row : Row) :
    Undisputed ((ungrouped rows).addRow row) := by
  rw [addRow]
  apply (undisputed_register rows row).bind
  rintro ⟨id, registered⟩ _ _ _ _ failed
  dsimp only at failed
  split at failed
  · cases failed
  · cases failed
  · cases failed
  · split_ifs at failed <;> cases failed

theorem undisputed_rows (rows : List Row) : Undisputed (rows.foldlM addRow .empty) := by
  induction rows using List.reverseRecOn with
  | nil => exact undisputed_ok _
  | append_singleton rows row induction =>
      rw [List.foldlM_append]
      apply induction.bind
      intro grammar read
      obtain ⟨_, rfl⟩ := foldlM_addRow_eq_ok_iff.mp read
      simpa using undisputed_addRow rows row

theorem undisputed_groupRules (grammar : Grammar) : Undisputed grammar.groupRules := by
  rw [groupRules]
  apply Undisputed.bind
  · intro _ _ _ failed
    obtain ⟨tables, ⟨rule, id⟩, _, stopped⟩ := exists_of_foldlM_eq_error failed
    simp only [groupRule] at stopped
    split at stopped
    · cases stopped
    · cases stopped
  · exact fun _ _ => undisputed_ok _

theorem undisputed_checkSubparsers (grammar : Grammar) : Undisputed grammar.checkSubparsers := by
  intro _ _ _ failed
  rw [checkSubparsers] at failed
  split at failed
  · cases failed
  · cases failed

theorem undisputed_load (rows : List Row) : Undisputed (load rows) := by
  apply (undisputed_rows (cleaned rows)).bind
  intro grammar _
  apply (undisputed_groupRules grammar).bind
  intro grouped _
  apply (undisputed_checkSubparsers grouped).bind
  exact fun _ _ => undisputed_ok _

/-! ## Loading -/

/-- Exactly well-formed rows make a grammar, in which the groups of every parser divide its
productions by their keys; it never matters which primitive types the rows have. -/
theorem load_accepts (rows : List Row) :
    ((∃ grammar, load rows = .ok grammar) ↔ WellFormed (cleaned rows)) ∧
    (∀ grammar, load rows = .ok grammar →
      ∀ parser, (∃ row ∈ cleaned rows, row.parser = parser) →
        ∃ table, grammar.parser? parser = some table ∧
          grammar.Divides table ((cleaned rows).filter (Row.produces parser))) ∧
    ∀ nodeType existing requested,
      load rows ≠ .error (.inconsistentPrimitiveType nodeType existing requested) :=
  ⟨exists_load_iff, fun _ loaded _ known => divides_of_load loaded known, undisputed_load rows⟩

/-- Rules of `main` whose shared key is continued after a rule of another parser, with blanks
around some columns and an empty row. -/
def untidyRows : List Row := [
  { parser := "main ", nodeType := " Num", tokenPattern := "[0-9]+", group := " Atom" },
  .production "main" "One" "Num" "a",
  {},
  .production "inner" "Two" "Num" "b",
  .production "main" "Three" "Atom Num" " a ",
  .production "main" "Four" "One" "",
  { parser := "main", nodeType := "Five", parsePattern := "Four", subparser := "inner " }]

def untidyGrammar : Grammar :=
  ((load untidyRows).toOption).get (by decide +kernel)

/-- The rows are well formed, and the first two rules of `main` are in one group; the two without
a key are not. -/
theorem load_untidy :
    WellFormed (cleaned untidyRows) ∧
    ∃ table, untidyGrammar.parser? "main" = some table ∧
      table.groups.flatMap (·.rules) = [0, 2, 3, 4] ∧
      (∃ group ∈ table.groups, 0 ∈ group.rules ∧ 2 ∈ group.rules) ∧
      ¬∃ group ∈ table.groups, 3 ∈ group.rules ∧ 4 ∈ group.rules := by
  have loaded : load untidyRows = .ok untidyGrammar := eq_ok_get _
  obtain ⟨accepted, divided, _⟩ := load_accepts untidyRows
  obtain ⟨table, known, _, _, shared⟩ := divided _ loaded "main" (by decide +kernel)
  have flat : (untidyGrammar.parser? "main").map (fun table =>
      table.groups.flatMap (·.rules)) = some [0, 2, 3, 4] := by decide +kernel
  rw [known, Option.map_some, Option.some.injEq] at flat
  have productions : (cleaned untidyRows).filter (Row.produces "main") =
      [.production "main" "One" "Num" "a", .production "main" "Three" "Atom Num" "a",
        .production "main" "Four" "One" "",
        { parser := "main", nodeType := "Five", parsePattern := "Four", subparser := "inner" }] :=
    by decide +kernel
  rw [flat, productions] at shared
  refine ⟨accepted.mp ⟨_, loaded⟩, table, known, flat, ?_, ?_⟩
  · exact (shared 0 1 0 2 _ _ (by decide) rfl rfl rfl rfl).mpr (by decide)
  · exact fun both => ((shared 2 3 3 4 _ _ (by decide) rfl rfl rfl rfl).mp both).2 rfl

end Grammar

end RowGrammar
