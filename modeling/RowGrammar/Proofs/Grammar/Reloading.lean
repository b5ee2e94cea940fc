import RowGrammar.Proofs.Grammar.Reordering

/-!
# Loading grammars that were written back

The rows of an arranged grammar can be loaded again.  The productions of each parser come in the
order of its groups, so they fall into groups with the same keys and the same rows.
-/

namespace RowGrammar

/-- Lists that look the same item by item. -/
theorem forall₂_of_filterMap_eq {α β γ : Type} {look : α → Option γ} {look' : β → Option γ}
    {items : List α} {others : List β} (all : ∀ item ∈ items, (look item).isSome)
    (all' : ∀ other ∈ others, (look' other).isSome)
    (same : items.filterMap look = others.filterMap look') :
    List.Forall₂ (fun item other => ∃ found, look item = some found ∧ look' other = some found)
      items others := by
  induction items generalizing others with
  | nil =>
      cases others with
      | nil => exact .nil
      | cons other others =>
          obtain ⟨found, here⟩ := Option.isSome_iff_exists.mp (all' other List.mem_cons_self)
          rw [List.filterMap_cons_some here] at same
          cases same
  | cons item items induction =>
      obtain ⟨found, here⟩ := Option.isSome_iff_exists.mp (all item List.mem_cons_self)
      rw [List.filterMap_cons_some here] at same
      cases others with
      | nil => cases same
      | cons other others =>
          obtain ⟨found', here'⟩ := Option.isSome_iff_exists.mp (all' other List.mem_cons_self)
          rw [List.filterMap_cons_some here', List.cons.injEq] at same
          refine .cons ⟨found, here, same.1 ▸ here'⟩ ?_
          apply induction _ _ same.2
          · exact fun item member => all item (List.mem_cons_of_mem _ member)
          · exact fun other member => all' other (List.mem_cons_of_mem _ member)

/-- Two groups with the same key, whose rules are related. -/
def SameKey (related : RuleId → RuleId → Prop) (group other : PrecedenceGroup) : Prop :=
  other.key = group.key ∧ List.Forall₂ related group.rules other.rules

/-- Rules with the same keys fall into groups like those of other rules. -/
theorem exists_regrouped {related : RuleId → RuleId → Prop} {groups : List PrecedenceGroup}
    {rules : List (RuleId × String)}
    (same : List.Forall₂ (fun rule other => related rule.1 other.1 ∧ other.2 = rule.2)
      (keyedRules groups) rules) :
    ∃ regrouped, keyedRules regrouped = rules ∧
      List.Forall₂ (SameKey related) groups regrouped := by
  induction groups generalizing rules with
  | nil =>
      cases same
      exact ⟨[], rfl, .nil⟩
  | cons group groups induction =>
      have first := (List.forall₂_take_append rules group.keyed (keyedRules groups) same.flip).flip
      have later := (List.forall₂_drop_append rules group.keyed (keyedRules groups) same.flip).flip
      obtain ⟨regrouped, keyed, alike⟩ := induction later
      rw [PrecedenceGroup.keyed, List.forall₂_map_left_iff] at first
      refine ⟨⟨group.key, (rules.take group.keyed.length).map (·.1)⟩ :: regrouped, ?_,
        .cons ⟨rfl, ?_⟩ alike⟩
      · have joined : ((rules.take group.keyed.length).map (·.1)).map (·, group.key) =
            rules.take group.keyed.length := by
          rw [List.map_map]
          conv_rhs => rw [← List.map_id (rules.take group.keyed.length)]
          apply List.map_congr_left
          intro pair member
          obtain ⟨id, _, alike⟩ := exists_of_forall₂ first.flip member
          exact Prod.ext rfl alike.2.symm
        rw [keyedRules, List.flatMap_cons, PrecedenceGroup.keyed, joined]
        rw [keyedRules] at keyed
        rw [keyed, List.take_append_drop]
      · rw [List.forall₂_map_right_iff]
        exact first.imp fun _ _ alike => alike.1

theorem Orderly.of_sameKey {related : RuleId → RuleId → Prop}
    {groups regrouped : List PrecedenceGroup} (orderly : Orderly groups)
    (same : List.Forall₂ (SameKey related) groups regrouped) : Orderly regrouped := by
  refine ⟨?_, ?_, ?_⟩
  · intro group member empty
    obtain ⟨other, inside, _, rules⟩ := exists_of_forall₂ same.flip member
    rw [empty, List.forall₂_nil_right_iff] at rules
    exact orderly.filled other inside rules
  · intro group member unkeyed
    obtain ⟨other, inside, key, rules⟩ := exists_of_forall₂ same.flip member
    rw [← rules.length_eq]
    exact orderly.alone other inside (key ▸ unkeyed)
  · have keys : regrouped.map (·.key) = groups.map (·.key) := by
      have equal : List.Forall₂ (· = ·) (regrouped.map (·.key)) (groups.map (·.key)) := by
        rw [List.forall₂_map_left_iff, List.forall₂_map_right_iff]
        exact (same.imp fun _ _ alike => alike.1).flip
      rwa [List.forall₂_eq_eq_eq] at equal
    have apart : (groups.map (·.key)).Pairwise fun earlier later => later ≠ "" → earlier ≠ later :=
      List.pairwise_map.mpr orderly.apart
    rw [← keys] at apart
    exact List.pairwise_map.mp apart

namespace Grammar

/-- Two numbers stand for the rule of one row, before and after the rows are reordered. -/
def SameRow (rows others : List Row) (id other : RuleId) : Prop :=
  ∃ row, rowOf rows id = some row ∧ rowOf others other = some row

theorem rowOf_eq_some_iff {rows : List Row} {id : RuleId} {row : Row} :
    rowOf rows id = some row ↔ ∃ place, rows[place]? = some row ∧ row.isParserRow = true ∧
      (ungrouped rows).parserRules[id]? = some ⟨place + 1, row.parser, row.parsePattern,
        row.delegate?, row.precedence, place⟩ := by
  rw [rowOf, Option.bind_eq_some_iff]
  constructor
  · rintro ⟨rule, known, found⟩
    obtain ⟨other, found', production, made⟩ := exists_row
      (List.mem_of_getElem? ((Array.getElem?_toList ..).trans known))
    rw [found'] at found
    cases found
    exact ⟨rule.row, found', production, made ▸ known⟩
  · rintro ⟨place, found, _, known⟩
    exact ⟨_, known, found⟩

theorem exists_rowOf {rows : List Row} {parser : String} {pair : RuleId × String}
    (member : pair ∈ rulesFor parser (numberedRules rows)) :
    ∃ row, rowOf rows pair.1 = some row ∧ row.precedence = pair.2 := by
  obtain ⟨rule, known, _, key⟩ := mem_rulesFor.mp member
  obtain ⟨row, found, production, made⟩ := exists_row
    (List.mem_of_getElem? ((Array.getElem?_toList ..).trans known))
  refine ⟨row, rowOf_eq_some_iff.mpr ⟨rule.row, found, production, made ▸ known⟩, ?_⟩
  rw [made] at key
  exact key

namespace Arranges

variable {rows : List Row} {groups : String → List PrecedenceGroup}
  (arranges : Arranges rows groups)

include arranges

/-- The rules of reordered rows fall into the groups they were in. -/
theorem exists_groups {others : List Row} {parser : String} (known : parser ∈ parserNames rows)
    (ordered : others.filter (Row.produces parser) = orderedRows rows (groups parser)) :
    ∃ regrouped, Orderly regrouped ∧
      keyedRules regrouped = rulesFor parser (numberedRules others) ∧
      List.Forall₂ (SameKey (SameRow rows others)) (groups parser) regrouped := by
  have complete := arranges.complete parser known
  have here (pair : RuleId × String) (member : pair ∈ keyedRules (groups parser)) :=
    exists_rowOf (complete.mem_iff.mp member)
  have same : (keyedRules (groups parser)).filterMap (fun pair => rowOf rows pair.1) =
      (rulesFor parser (numberedRules others)).filterMap fun pair => rowOf others pair.1 := by
    have split (list : List Row) (pairs : List (RuleId × String)) :
        pairs.filterMap (fun pair => rowOf list pair.1) =
          (pairs.map (·.1)).filterMap (rowOf list) := by
      rw [List.filterMap_map]
      rfl
    rw [split, split, filterMap_rowOf_rulesFor, ordered, orderedRows, keyedRules_map_fst]
  have alike := forall₂_of_filterMap_eq
    (fun pair member => (here pair member).elim fun row found => by simp [found.1])
    (fun pair member => (exists_rowOf member).elim fun row found => by simp [found.1]) same
  have keyed : List.Forall₂ (fun rule other => SameRow rows others rule.1 other.1 ∧
      other.2 = rule.2) (keyedRules (groups parser)) (rulesFor parser (numberedRules others)) := by
    apply List.forall₂_iff_get.mpr
    refine ⟨alike.length_eq, ?_⟩
    intro place inside inside'
    obtain ⟨row, found, found'⟩ := alike.get inside inside'
    obtain ⟨one, first, key⟩ := here _ (List.get_mem _ ⟨place, inside⟩)
    obtain ⟨two, second, key'⟩ := exists_rowOf (List.get_mem _ ⟨place, inside'⟩)
    rw [found] at first
    rw [found'] at second
    cases first
    cases second
    exact ⟨⟨row, found, found'⟩, key'.symm.trans key⟩
  obtain ⟨regrouped, rules, grouped⟩ := exists_regrouped keyed
  exact ⟨regrouped, (arranges.orderly parser known).of_sameKey grouped, rules, grouped⟩

/-- A grammar that was written back is loaded with the same rules in the same groups. -/
theorem load_toRows : ∃ regrouped, Reorders rows (arranged rows groups).toRows ∧
    load (arranged rows groups).toRows = .ok (arranged (arranged rows groups).toRows regrouped) ∧
    ∀ parser ∈ parserNames rows,
      List.Forall₂ (SameKey (SameRow rows (arranged rows groups).toRows)) (groups parser)
        (regrouped parser) := by
  obtain ⟨reorders, ordered⟩ := arranges.toRows_reorders
  generalize (arranged rows groups).toRows = others at reorders ordered ⊢
  have each (parser : String) : ∃ regrouped, parser ∈ parserNames rows → Orderly regrouped ∧
      keyedRules regrouped = rulesFor parser (numberedRules others) ∧
      List.Forall₂ (SameKey (SameRow rows others)) (groups parser) regrouped := by
    by_cases known : parser ∈ parserNames rows
    · obtain ⟨regrouped, found⟩ := arranges.exists_groups known (ordered parser known)
      exact ⟨regrouped, fun _ => found⟩
    · exact ⟨[], fun inside => absurd inside known⟩
  choose regrouped found using each
  have names := parserNames_congr reorders.parsers_eq
  have clean : cleaned others = others := by
    apply cleaned_eq_self
    intro row member
    exact arranges.clean row (reorders.perm.mem_iff.mp member)
  refine ⟨regrouped, reorders, ?_, fun parser known => (found parser known).2.2⟩
  rw [load_eq_ok_iff, clean, names]
  refine ⟨arranges.readable.of_perm reorders.perm, ?_, regrouped, ?_, rfl⟩
  · intro row member
    exact arranges.delegated row (reorders.perm.mem_iff.mp member)
  · intro parser known
    exact ⟨(found parser known).1, (found parser known).2.1⟩

end Arranges

end Grammar

end RowGrammar
