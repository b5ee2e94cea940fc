import RowGrammar.Proofs.Grammar.Configuration
import RowGrammar.Proofs.Grammar.Reloading

/-!
# Renumbered rules

Rows in another order give their rules other numbers.  A rule is found again by its row, so the
renumbering has an inverse, and the precedence groups of a grammar that was written back and loaded
again are those it had, apart from these numbers.
-/

namespace RowGrammar

/-- Putting in what was taken out changes nothing. -/
theorem refill_filter {α : Type} (chosen : α → Bool) (items : List α) :
    refill chosen (items.filter chosen) items = items := by
  induction items with
  | nil => rw [refill]
  | cons item items induction =>
      by_cases picked : chosen item = true
      · rw [List.filter_cons_of_pos picked, refill, if_pos picked, induction]
      · rw [List.filter_cons_of_neg picked]
        cases rest : items.filter chosen with
        | nil => rw [refill_nil]
        | cons new fresh =>
            rw [rest] at induction
            rw [refill, if_neg picked, induction]

namespace Grammar

/-- The number that a rule of some rows has when they come in another order. -/
def renumberedRule (rows others : List Row) (id : RuleId) : RuleId :=
  match rowOf rows id with
  | some row =>
      ((List.range (ungrouped others).parserRules.size).find? fun other =>
        rowOf others other = some row).getD id
  | none => id

theorem rowOf_eq_none_iff {rows : List Row} {id : RuleId} :
    rowOf rows id = none ↔ (ungrouped rows).parserRules[id]? = none := by
  constructor
  · intro absent
    cases known : (ungrouped rows).parserRules[id]? with
    | none => rfl
    | some rule =>
        obtain ⟨row, found, _, _⟩ := exists_row
          (List.mem_of_getElem? ((Array.getElem?_toList ..).trans known))
        rw [rowOf, known, Option.bind_some, found] at absent
        cases absent
  · intro unknown
    rw [rowOf, unknown, Option.bind_none]

/-- A row has one rule. -/
theorem rowOf_inj {rows : List Row} (readable : Readable rows) {id other : RuleId} {row : Row}
    (found : rowOf rows id = some row) (found' : rowOf rows other = some row) : id = other := by
  obtain ⟨place, here, _, known⟩ := rowOf_eq_some_iff.mp found
  obtain ⟨place', here', _, known'⟩ := rowOf_eq_some_iff.mp found'
  have distinct : rows.Nodup := readable.distinct.of_map
  obtain ⟨inside, same⟩ := List.getElem?_eq_some_iff.mp here
  obtain ⟨inside', same'⟩ := List.getElem?_eq_some_iff.mp here'
  have places : place = place' := distinct.getElem_inj_iff.mp (same.trans same'.symm)
  exact (parserRules_row_inj known known').mp places

theorem exists_rowOf_of_mem {rows : List Row} {row : Row} (member : row ∈ rows)
    (production : row.isParserRow = true) : ∃ id, rowOf rows id = some row := by
  obtain ⟨place, found⟩ := List.mem_iff_getElem?.mp member
  have listed : ⟨place + 1, row.parser, row.parsePattern, row.delegate?, row.precedence, place⟩ ∈
      (ungrouped rows).parserRules.toList :=
    mem_parserRules.mpr ⟨row, place, found, if_pos production⟩
  obtain ⟨id, known⟩ := List.mem_iff_getElem?.mp listed
  rw [Array.getElem?_toList] at known
  exact ⟨id, rowOf_eq_some_iff.mpr ⟨place, found, production, known⟩⟩

/-- The rule of a node type goes by the name of its row. -/
theorem ruleName_arranged (rows : List Row) (groups : String → List PrecedenceGroup)
    (id : RuleId) :
    (arranged rows groups).ruleName id =
      ((rowOf rows id).map (·.nodeType)).getD unrecognizedName := by
  cases found : rowOf rows id with
  | none =>
      have absent : (arranged rows groups).parserRules[id]? = none := rowOf_eq_none_iff.mp found
      rw [ruleName, absent]
      rfl
  | some row =>
      obtain ⟨place, here, _, known⟩ := rowOf_eq_some_iff.mp found
      have present : (arranged rows groups).parserRules[id]? = _ := known
      rw [ruleName, present, Option.map_some, Option.getD_some]
      exact name_of_row here

namespace Reorders

variable {rows others : List Row} (reorders : Reorders rows others) (readable : Readable rows)

include reorders

/-- The rule of a row is found again. -/
theorem exists_sameRow {id : RuleId} {row : Row} (found : rowOf rows id = some row) :
    ∃ other, rowOf others other = some row := by
  obtain ⟨place, here, production, _⟩ := rowOf_eq_some_iff.mp found
  exact exists_rowOf_of_mem (reorders.perm.mem_iff.mpr (List.mem_of_getElem? here)) production

include readable

theorem renumberedRule_eq {id other : RuleId} (same : SameRow rows others id other) :
    renumberedRule rows others id = other := by
  obtain ⟨row, found, found'⟩ := same
  have inside : other < (ungrouped others).parserRules.size := by
    obtain ⟨_, _, _, known⟩ := rowOf_eq_some_iff.mp found'
    exact (Array.getElem?_eq_some_iff.mp known).1
  rw [renumberedRule]
  simp only [found]
  cases searched : (List.range (ungrouped others).parserRules.size).find? fun other =>
      rowOf others other = some row with
  | none =>
      have missed := List.find?_eq_none.mp searched other (List.mem_range.mpr inside)
      exact absurd found' (by simpa using missed)
  | some first =>
      have here : rowOf others first = some row := by simpa using List.find?_some searched
      exact rowOf_inj (readable.of_perm reorders.perm) here found'

/-- The new number of a rule stands for the same row. -/
theorem rowOf_renumberedRule (id : RuleId) :
    rowOf others (renumberedRule rows others id) = rowOf rows id := by
  cases found : rowOf rows id with
  | some row =>
      obtain ⟨other, found'⟩ := reorders.exists_sameRow found
      rw [reorders.renumberedRule_eq readable ⟨row, found, found'⟩, found']
  | none =>
      have kept : renumberedRule rows others id = id := by
        rw [renumberedRule]
        simp only [found]
      rw [kept, rowOf_eq_none_iff, Array.getElem?_eq_none_iff, reorders.parserRules_size_eq,
        ← Array.getElem?_eq_none_iff]
      exact rowOf_eq_none_iff.mp found

theorem renumberedRule_renumberedRule (id : RuleId) :
    renumberedRule others rows (renumberedRule rows others id) = id := by
  have back := reorders.rowOf_renumberedRule readable id
  cases found : rowOf rows id with
  | some row =>
      exact reorders.symm.renumberedRule_eq (readable.of_perm reorders.perm)
        ⟨row, back.trans found, found⟩
  | none =>
      have kept : renumberedRule rows others id = id := by
        rw [renumberedRule]
        simp only [found]
      rw [found, kept] at back
      rw [kept, renumberedRule]
      simp only [back]

/-- Rules are only renumbered: none is lost and no two become one. -/
theorem renumberedRule_bijective : Function.Bijective (renumberedRule rows others) :=
  Function.bijective_iff_has_inverse.mpr ⟨renumberedRule others rows,
    reorders.renumberedRule_renumberedRule readable,
    reorders.symm.renumberedRule_renumberedRule (readable.of_perm reorders.perm)⟩

theorem ruleName_renumberedRule (groups regrouped : String → List PrecedenceGroup) (id : RuleId) :
    (arranged others regrouped).ruleName (renumberedRule rows others id) =
      (arranged rows groups).ruleName id := by
  rw [ruleName_arranged, ruleName_arranged, reorders.rowOf_renumberedRule readable]

/-- Groups of the rules of the same rows hold the same rules. -/
theorem rules_renumbered {groups regrouped : List PrecedenceGroup}
    (same : List.Forall₂ (SameKey (SameRow rows others)) groups regrouped) :
    regrouped.map (·.rules) = groups.map (·.rules.map (renumberedRule rows others)) := by
  induction same with
  | nil => rfl
  | @cons group other groups regrouped first _ induction =>
      rw [List.map_cons, List.map_cons, induction]
      congr 1
      have members : List.Forall₂ (fun id id' => id = id')
          (group.rules.map (renumberedRule rows others)) other.rules := by
        rw [List.forall₂_map_left_iff]
        exact first.2.imp fun id id' same => reorders.renumberedRule_eq readable same
      rw [List.forall₂_eq_eq_eq] at members
      exact members.symm

/-- The signature shows names, and these are the same. -/
theorem signature_eq {groups regrouped : String → List PrecedenceGroup}
    (same : ∀ parser ∈ parserNames rows,
      List.Forall₂ (SameKey (SameRow rows others)) (groups parser) (regrouped parser)) :
    (arranged others regrouped).signature = (arranged rows groups).signature := by
  have shown (rules : List RuleId) :
      groupText (arranged others regrouped).ruleName (rules.map (renumberedRule rows others)) =
        groupText (arranged rows groups).ruleName rules := by
    have named : (arranged others regrouped).ruleName ∘ renumberedRule rows others =
        (arranged rows groups).ruleName :=
      funext (reorders.ruleName_renumberedRule readable groups regrouped)
    rw [groupText, groupText, List.map_map, named]
  simp only [signature_eq_text, Configuration.text, configuration, parsers_arranged,
    parserNames_congr reorders.parsers_eq, List.map_map]
  congr 1
  apply List.map_congr_left
  intro parser known
  have rules := reorders.rules_renumbered readable (same parser known)
  have texts := congrArg (List.map (groupText (arranged others regrouped).ruleName)) rules
  simp only [List.map_map, Function.comp_def, shown] at texts
  simp only [Function.comp_apply, List.map_map, Function.comp_def, texts]

end Reorders

/-! ## Writing back -/

/-- A grammar that was just loaded is written back as its rows. -/
theorem toRows_of_load {rows : List Row} {grammar : Grammar} (loaded : load rows = .ok grammar) :
    grammar.toRows = cleaned rows := by
  obtain ⟨readable, delegated, groups, each, rfl⟩ := load_eq_ok_iff.mp loaded
  have arranges : Arranges (cleaned rows) groups := by
    refine ⟨fun row => clean_of_mem_cleaned, readable, delegated, fun parser known =>
      (each parser known).1, ?_⟩
    intro parser known
    rw [(each parser known).2]
  have kept (parser : String) (known : parser ∈ parserNames (cleaned rows)) :
      refill (Row.produces parser) (orderedRows (cleaned rows) (groups parser)) (cleaned rows) =
        cleaned rows := by
    rw [orderedRows, ← keyedRules_map_fst, (each parser known).2, filterMap_rowOf_rulesFor,
      refill_filter]
  rw [arranges.toRows_eq]
  generalize parserNames (cleaned rows) = names at kept
  induction names with
  | nil => rfl
  | cons parser names induction =>
      rw [List.foldl_cons, kept parser List.mem_cons_self]
      exact induction fun other member => kept other (List.mem_cons_of_mem _ member)

/-- Moves rules one after the other; moves that are not possible change nothing. -/
def relocateAll (grammar : Grammar) : List (String × Nat × RuleId) → Grammar
  | [] => grammar
  | (parser, group, rule) :: moves =>
      ((grammar.relocate? parser group rule).getD grammar).relocateAll moves

theorem relocateAll_arranged {rows : List Row} {groups : String → List PrecedenceGroup}
    (arranges : Arranges rows groups) (moves : List (String × Nat × RuleId)) :
    ∃ others regrouped, Arranges others regrouped ∧
      (arranged rows groups).relocateAll moves = arranged others regrouped := by
  induction moves generalizing rows groups with
  | nil => exact ⟨rows, groups, arranges, rfl⟩
  | cons move moves induction =>
      obtain ⟨parser, group, rule⟩ := move
      cases result : (arranged rows groups).relocate? parser group rule with
      | none =>
          obtain ⟨others, regrouped, arranges, same⟩ := induction arranges
          refine ⟨others, regrouped, arranges, ?_⟩
          rw [relocateAll, result, Option.getD_none]
          exact same
      | some moved =>
          obtain ⟨others, regrouped, arranges, rfl, _⟩ := relocate?_arranged arranges result
          obtain ⟨others', regrouped', arranges, same⟩ := induction arranges
          refine ⟨others', regrouped', arranges, ?_⟩
          rw [relocateAll, result, Option.getD_some]
          exact same

/-- A grammar with everything of another one but the numbers of the node types and rules, those of
the token types apart. -/
structure Restores (grammar reloaded : Grammar) : Prop where
  signature : reloaded.signature = grammar.signature
  mainParser : reloaded.mainParser = grammar.mainParser
  tokenRules : reloaded.tokenRules = grammar.tokenRules
  tokenNames : ∀ rule ∈ grammar.tokenRules.toList,
    reloaded.registry.name rule.nodeType = grammar.registry.name rule.nodeType
  tokenOrder : reloaded.parsers.map (fun table => (table.name, table.tokenTypes)) =
    grammar.parsers.map fun table => (table.name, table.tokenTypes)
  suppressed : reloaded.suppressed = grammar.suppressed
  unused : reloaded.unused = grammar.unused
  rows : reloaded.toRows = grammar.toRows

theorem restores_of_reorders {rows others : List Row} (reorders : Reorders rows others)
    (readable : Readable rows) {groups regrouped : String → List PrecedenceGroup}
    (same : ∀ parser ∈ parserNames rows,
      List.Forall₂ (SameKey (SameRow rows others)) (groups parser) (regrouped parser))
    (kept : (arranged others regrouped).toRows = (arranged rows groups).toRows) :
    (arranged rows groups).Restores (arranged others regrouped) where
  signature := reorders.signature_eq readable same
  mainParser := mainParser_congr reorders.parsers_eq
  tokenRules := reorders.tokenRules_eq readable
  tokenNames rule member := by
    have named := reorders.name_renumbered readable rule.nodeType
    rwa [reorders.renumbered_of_tokenRule readable member] at named
  tokenOrder := by
    rw [parsers_arranged, parsers_arranged, List.map_map, List.map_map,
      parserNames_congr reorders.parsers_eq]
    apply List.map_congr_left
    intro name _
    simp only [Function.comp_apply, reorders.tokenTypesOf_eq readable]
  suppressed := reorders.suppressed_eq readable groups regrouped
  unused := reorders.unusedOf_eq readable
  rows := kept

/-- A grammar that was written back is loaded again as it was. -/
theorem Arranges.reload {rows : List Row} {groups : String → List PrecedenceGroup}
    (arranges : Arranges rows groups) :
    ∃ others regrouped, (arranged rows groups).toRows = others ∧
      load others = .ok (arranged others regrouped) ∧ Reorders rows others ∧
      (∀ parser ∈ parserNames rows,
        List.Forall₂ (SameKey (SameRow rows others)) (groups parser) (regrouped parser)) ∧
      (arranged rows groups).Restores (arranged others regrouped) := by
  obtain ⟨regrouped, reorders, loaded, same⟩ := arranges.load_toRows
  have clean : cleaned (arranged rows groups).toRows = (arranged rows groups).toRows := by
    apply cleaned_eq_self
    intro row member
    exact arranges.clean row (reorders.perm.mem_iff.mp member)
  exact ⟨_, regrouped, rfl, loaded, reorders, same,
    restores_of_reorders reorders arranges.readable same ((toRows_of_load loaded).trans clean)⟩

end Grammar

end RowGrammar
