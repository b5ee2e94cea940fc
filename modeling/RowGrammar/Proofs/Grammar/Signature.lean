import RowGrammar.Proofs.Grammar.Renumbering

/-!
# Signatures

The names in a signature are made of letters and underscores, except for those of the parsers, which
do not change.  So grammars that differ in nothing but keys and groups have the same signature only
if they have the same precedence configuration.
-/

namespace RowGrammar

/-- Two texts that end at the first separator agree up to there and after it. -/
theorem append_separator_inj {α : Type} {separator : α} {left left' rest rest' : List α}
    (free : separator ∉ left) (free' : separator ∉ left')
    (same : left ++ separator :: rest = left' ++ separator :: rest') :
    left = left' ∧ rest = rest' := by
  induction left generalizing left' with
  | nil =>
      cases left' with
      | nil => exact ⟨rfl, List.tail_eq_of_cons_eq same⟩
      | cons item left' =>
          have first := List.head_eq_of_cons_eq same
          exact absurd (first ▸ List.mem_cons_self) free'
  | cons item left induction =>
      cases left' with
      | nil =>
          have first := List.head_eq_of_cons_eq same
          exact absurd (first ▸ List.mem_cons_self) free
      | cons item' left' =>
          rw [List.cons_append, List.cons_append, List.cons.injEq] at same
          obtain ⟨rfl, later⟩ := same
          obtain ⟨rfl, after⟩ := induction (List.not_mem_of_not_mem_cons free)
            (List.not_mem_of_not_mem_cons free') later
          exact ⟨rfl, after⟩

/-- What is in joined texts is in one of them or between them. -/
theorem mem_of_mem_intercalate {α : Type} {separator item : α} {texts : List (List α)}
    (member : item ∈ [separator].intercalate texts) :
    item = separator ∨ ∃ text ∈ texts, item ∈ text := by
  induction texts with
  | nil => cases member
  | cons text texts induction =>
      by_cases last : texts = []
      · rw [last, List.intercalate_singleton] at member
        exact .inr ⟨text, List.mem_cons_self, member⟩
      · rw [List.intercalate_cons_of_ne_nil last, List.mem_append, List.mem_append,
          List.mem_singleton] at member
        rcases member with (here | between) | later
        · exact .inr ⟨text, List.mem_cons_self, here⟩
        · exact .inl between
        · rcases induction later with between | ⟨other, listed, inside⟩
          · exact .inl between
          · exact .inr ⟨other, List.mem_cons_of_mem _ listed, inside⟩

/-- Lists with the same images are the same where the images tell items apart. -/
theorem eq_of_map_eq {α β : Type} {image : α → β} {items others : List α}
    (apart : ∀ item ∈ items, ∀ other ∈ others, image item = image other → item = other)
    (same : items.map image = others.map image) : items = others := by
  induction items generalizing others with
  | nil => exact (List.map_eq_nil_iff.mp same.symm).symm
  | cons item items induction =>
      cases others with
      | nil => cases same
      | cons other others =>
          rw [List.map_cons, List.map_cons, List.cons.injEq] at same
          rw [apart item List.mem_cons_self other List.mem_cons_self same.1,
            induction (fun item member other member' => apart item (List.mem_cons_of_mem _ member)
              other (List.mem_cons_of_mem _ member')) same.2]

namespace Grammar

theorem Configuration.toList_text_cons (names : RuleId → String) (parser : String)
    (groups : List (List RuleId)) (configuration : Configuration) :
    (text names ((parser, groups) :: configuration)).toList =
      parser.toList ++ ':' :: ((groups.flatMap fun rules => (groupText names rules).toList) ++
        ';' :: (configuration.text names).toList) := by
  simp [text, List.flatMap_map]

/-! ## Reading a signature back -/

/-- The known rules have names that can be read back and tell them apart. -/
structure Told (names : RuleId → String) (known : RuleId → Prop) : Prop where
  valid : ∀ id, known id → Registry.isValidName (names id)
  injective : ∀ id other, known id → known other → names id = names other → id = other

/-- The groups have known rules, and none is empty. -/
def Configuration.Filled (known : RuleId → Prop) (configuration : Configuration) : Prop :=
  ∀ entry ∈ configuration, ∀ rules ∈ entry.2, rules ≠ [] ∧ ∀ id ∈ rules, known id

section

variable {names : RuleId → String} {known : RuleId → Prop} (told : Told names known)

include told

theorem Told.not_mem {id : RuleId} (present : known id) {char : Char}
    (between : Text.isNameLetter char = false) : char ∉ (names id).toList := by
  intro member
  have valid := told.valid id present
  rw [Registry.isValidName, Bool.and_eq_true, List.all_eq_true] at valid
  have letter := valid.2 char member
  rw [between] at letter
  cases letter

theorem Told.not_mem_intercalate {rules : List RuleId} (present : ∀ id ∈ rules, known id)
    {char : Char} (between : Text.isNameLetter char = false) (apart : char ≠ ' ') :
    char ∉ (" ".intercalate (rules.map names)).toList := by
  intro member
  rw [String.toList_intercalate] at member
  rcases mem_of_mem_intercalate member with same | ⟨text, listed, inside⟩
  · exact apart same
  · obtain ⟨name, given, rfl⟩ := List.mem_map.mp listed
    obtain ⟨id, held, rfl⟩ := List.mem_map.mp given
    exact told.not_mem (present id held) between inside

/-- Names with blanks between them can be told apart. -/
theorem Told.intercalate_inj {rules others : List RuleId} (present : ∀ id ∈ rules, known id)
    (present' : ∀ id ∈ others, known id) (filled : rules ≠ []) (filled' : others ≠ [])
    (same : " ".intercalate (rules.map names) = " ".intercalate (others.map names)) :
    rules = others := by
  have parts {rules : List RuleId} (present : ∀ id ∈ rules, known id) (filled : rules ≠ []) :
      List.splitOn ' ' (" ".intercalate (rules.map names)).toList =
        rules.map fun id => (names id).toList := by
    rw [String.toList_intercalate, List.map_map]
    apply List.splitOn_intercalate
    · intro text listed
      obtain ⟨id, held, rfl⟩ := List.mem_map.mp listed
      exact told.not_mem (present id held) (by decide)
    · simpa using filled
  apply @eq_of_map_eq _ _ fun id => (names id).toList
  · intro id held other held' equal
    exact told.injective id other (present id held) (present' other held')
      (String.toList_injective equal)
  · rw [← parts present filled, same, parts present' filled']

/-- The groups of a parser can be told apart, whatever comes after them. -/
theorem Told.groups_inj {groups others : List (List RuleId)}
    (filled : ∀ rules ∈ groups, rules ≠ [] ∧ ∀ id ∈ rules, known id)
    (filled' : ∀ rules ∈ others, rules ≠ [] ∧ ∀ id ∈ rules, known id)
    (same : groups.flatMap (fun rules => (groupText names rules).toList) =
      others.flatMap fun rules => (groupText names rules).toList) : groups = others := by
  have shape (rules : List RuleId) : (groupText names rules).toList =
      '[' :: ((" ".intercalate (rules.map names)).toList ++ [']']) := by
    simp [groupText]
  induction groups generalizing others with
  | nil =>
      cases others with
      | nil => rfl
      | cons rules others =>
          rw [List.flatMap_nil, List.flatMap_cons, shape] at same
          cases same
  | cons rules groups induction =>
      cases others with
      | nil =>
          rw [List.flatMap_nil, List.flatMap_cons, shape] at same
          cases same
      | cons rules' others =>
          obtain ⟨nonempty, present⟩ := filled rules List.mem_cons_self
          obtain ⟨nonempty', present'⟩ := filled' rules' List.mem_cons_self
          rw [List.flatMap_cons, List.flatMap_cons, shape, shape, List.cons_append,
            List.cons_append, List.cons.injEq, List.append_assoc, List.append_assoc] at same
          obtain ⟨inside, after⟩ := append_separator_inj
            (told.not_mem_intercalate present (by decide) (by decide))
            (told.not_mem_intercalate present' (by decide) (by decide)) same.2
          rw [told.intercalate_inj present present' nonempty nonempty'
              (String.toList_injective inside),
            induction (fun rules member => filled rules (List.mem_cons_of_mem _ member))
              (fun rules member => filled' rules (List.mem_cons_of_mem _ member)) after]

theorem Told.not_mem_groups {groups : List (List RuleId)}
    (filled : ∀ rules ∈ groups, rules ≠ [] ∧ ∀ id ∈ rules, known id) :
    ';' ∉ groups.flatMap fun rules => (groupText names rules).toList := by
  intro member
  obtain ⟨rules, listed, inside⟩ := List.mem_flatMap.mp member
  rw [groupText, String.toList_append, String.toList_append, List.mem_append, List.mem_append]
    at inside
  rcases inside with (opens | here) | closes
  · exact absurd opens (by decide)
  · exact told.not_mem_intercalate (filled rules listed).2 (by decide) (by decide) here
  · exact absurd closes (by decide)

/-- A signature shows the configuration as long as the parsers are known. -/
theorem Told.text_inj {configuration other : Configuration}
    (parsers : configuration.map (·.1) = other.map (·.1)) (filled : configuration.Filled known)
    (filled' : other.Filled known) (same : configuration.text names = other.text names) :
    configuration = other := by
  induction configuration generalizing other with
  | nil => exact (List.map_eq_nil_iff.mp parsers.symm).symm
  | cons entry configuration induction =>
      cases other with
      | nil => cases parsers
      | cons entry' other =>
          obtain ⟨parser, groups⟩ := entry
          obtain ⟨parser', groups'⟩ := entry'
          obtain ⟨rfl, later⟩ := List.cons.inj parsers
          have here : ∀ rules ∈ groups, _ := filled (parser, groups) List.mem_cons_self
          have here' : ∀ rules ∈ groups', _ := filled' (parser, groups') List.mem_cons_self
          have chars := congrArg String.toList same
          rw [Configuration.toList_text_cons, Configuration.toList_text_cons,
            List.append_cancel_left_eq, List.cons.injEq] at chars
          obtain ⟨inside, after⟩ := append_separator_inj (told.not_mem_groups here)
            (told.not_mem_groups here') chars.2
          rw [told.groups_inj here here' inside,
            induction later (fun entry member => filled entry (List.mem_cons_of_mem _ member))
              (fun entry member => filled' entry (List.mem_cons_of_mem _ member))
              (String.toList_injective after)]

end

/-! ## Signatures of arrangements -/

theorem ruleName_of_unkeyed {rows others : List Row}
    (same : others.map Row.unkeyed = rows.map Row.unkeyed)
    (groups regrouped : String → List PrecedenceGroup) :
    (arranged others regrouped).ruleName = (arranged rows groups).ruleName := by
  funext id
  have related := parserRules_related_of_unkeyed same id
  have registry : (arranged others regrouped).registry = (arranged rows groups).registry :=
    registry_of_unkeyed same
  rw [ruleName, ruleName, registry]
  change Option.Rel _ (arranged others regrouped).parserRules[id]?
    (arranged rows groups).parserRules[id]? at related
  generalize (arranged others regrouped).parserRules[id]? = found at related ⊢
  generalize (arranged rows groups).parserRules[id]? = found' at related ⊢
  cases related with
  | none => rfl
  | some equal =>
      have typed := congrArg ParserRule.nodeType equal
      exact congrArg (arranged rows groups).registry.name typed

namespace Arranges

variable {rows : List Row} {groups : String → List PrecedenceGroup}
  (arranges : Arranges rows groups)

include arranges

/-- Rules go by the names of their rows, which are all different. -/
theorem told : Told (arranged rows groups).ruleName
    fun id => ((ungrouped rows).parserRules[id]?).isSome := by
  have named {id : RuleId} (known : ((ungrouped rows).parserRules[id]?).isSome) :
      ∃ row, rowOf rows id = some row ∧ row ∈ rows ∧
        (arranged rows groups).ruleName id = row.nodeType := by
    cases found : rowOf rows id with
    | none =>
        rw [rowOf_eq_none_iff.mp found] at known
        cases known
    | some row =>
        obtain ⟨place, here, _⟩ := rowOf_eq_some_iff.mp found
        refine ⟨row, rfl, List.mem_of_getElem? here, ?_⟩
        rw [ruleName_arranged, found]
        rfl
  constructor
  · intro id known
    obtain ⟨row, _, member, same⟩ := named known
    rw [same]
    exact (arranges.readable.each row member).named
  · intro id other known known' same
    obtain ⟨row, found, member, first⟩ := named known
    obtain ⟨row', found', member', second⟩ := named known'
    have rowed : row = row' := List.inj_on_of_nodup_map arranges.readable.distinct member member'
      (first.symm.trans (same.trans second))
    rw [← rowed] at found'
    exact rowOf_inj arranges.readable found found'

theorem configuration_filled : (arranged rows groups).configuration.Filled
    fun id => ((ungrouped rows).parserRules[id]?).isSome := by
  intro ⟨parser, ordering⟩ member rules listed
  obtain ⟨known, rfl⟩ := mem_configuration.mp member
  obtain ⟨group, inside, rfl⟩ := List.mem_map.mp listed
  refine ⟨(arranges.orderly parser known).filled group inside, ?_⟩
  intro id held
  obtain ⟨rule, found, _⟩ := arranges.exists_rule (parser?_arranged.mpr ⟨known, rfl⟩) inside held
  change (ungrouped rows).parserRules[id]? = some rule at found
  rw [found]
  rfl

/-- Arrangements of the same rows have the same signature just when they have the same groups. -/
theorem signature_eq_iff {others : List Row} {regrouped : String → List PrecedenceGroup}
    (arranges' : Arranges others regrouped)
    (same : others.map Row.unkeyed = rows.map Row.unkeyed) :
    (arranged others regrouped).signature = (arranged rows groups).signature ↔
      (arranged others regrouped).configuration = (arranged rows groups).configuration := by
  have names := ruleName_of_unkeyed same groups regrouped
  rw [signature_eq_text, signature_eq_text, names]
  constructor
  · intro equal
    refine arranges.told.text_inj ?_ ?_ arranges.configuration_filled equal
    · simp only [configuration, parsers_arranged, List.map_map, Function.comp_def,
        parserNames_of_unkeyed same]
    · intro entry member rules listed
      obtain ⟨filled, known⟩ := arranges'.configuration_filled entry member rules listed
      refine ⟨filled, ?_⟩
      intro id held
      have present : ((ungrouped others).parserRules[id]?).isSome := known id held
      change ((ungrouped rows).parserRules[id]?).isSome
      have related := parserRules_related_of_unkeyed same id
      generalize (ungrouped others).parserRules[id]? = found at present related
      generalize (ungrouped rows).parserRules[id]? = found' at related ⊢
      cases related with
      | none => cases present
      | some _ => rfl
  · intro equal
    rw [equal]

end Arranges

end Grammar

end RowGrammar
