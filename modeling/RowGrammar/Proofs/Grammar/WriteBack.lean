import Mathlib.Data.List.Forall2
import RowGrammar.Proofs.Grammar.Relocation

/-!
# Writing grammars back

The rows of a grammar are written back with the productions of every parser in the order of its
groups.  They trade places among themselves, so every place keeps its parser, and the rows with
token patterns stay where they are.
-/

namespace RowGrammar

/-! ## Filling places again -/

section

variable {α : Type} (chosen : α → Bool)

/-- The items with the chosen ones replaced, in order, by fresh ones as long as there are any. -/
def refill : List α → List α → List α
  | _, [] => []
  | [], items => items
  | new :: fresh, item :: items =>
      if chosen item then new :: refill fresh items else item :: refill (new :: fresh) items

/-- The places of the chosen items, of which the first item has the place `start`. -/
def placesFrom (start : Nat) (items : List α) : List Nat :=
  ((items.zipIdx start).filter fun pair => chosen pair.1).map (·.2)

variable {chosen}

theorem refill_nil (items : List α) : refill chosen [] items = items := by
  cases items with
  | nil => rfl
  | cons item items => rfl

/-- Fresh items that are written to the places of the chosen ones. -/
theorem foldl_set_places (fresh before items : List α) :
    ((placesFrom chosen before.length items).zip fresh).foldl
        (fun items pair => items.set pair.1 pair.2) (before ++ items) =
      before ++ refill chosen fresh items := by
  induction items generalizing before fresh with
  | nil => rfl
  | cons item items induction =>
      have longer (other : α) : before.length + 1 = (before ++ [other]).length := by simp
      have regroup (other : α) : before ++ other :: items = (before ++ [other]) ++ items := by simp
      cases picked : chosen item with
      | false =>
          have places : placesFrom chosen before.length (item :: items) =
              placesFrom chosen (before ++ [item]).length items := by
            simp [placesFrom, List.zipIdx_cons, picked]
          rw [places, regroup, induction]
          cases fresh with
          | nil => simp [refill_nil]
          | cons new fresh => simp [refill, picked]
      | true =>
          have places : placesFrom chosen before.length (item :: items) =
              before.length :: placesFrom chosen (before.length + 1) items := by
            simp [placesFrom, List.zipIdx_cons, picked]
          cases fresh with
          | nil => simp [refill_nil]
          | cons new fresh =>
              have written : (before ++ item :: items).set before.length new =
                  (before ++ [new]) ++ items := by simp
              rw [places, List.zip_cons_cons, List.foldl_cons, written, longer new, induction]
              simp [refill, picked]

variable {fresh items : List α}

/-- The fresh items are the chosen ones now. -/
theorem filter_refill (fits : ∀ item ∈ fresh, chosen item = true)
    (count : fresh.length = (items.filter chosen).length) :
    (refill chosen fresh items).filter chosen = fresh := by
  induction items generalizing fresh with
  | nil =>
      rw [List.filter_nil, List.length_nil, List.length_eq_zero_iff] at count
      rw [count]
      rfl
  | cons item items induction =>
      cases picked : chosen item with
      | false =>
          rw [List.filter_cons_of_neg (by simp [picked])] at count
          cases fresh with
          | nil => rw [refill_nil, List.filter_cons_of_neg (by simp [picked]),
              List.length_eq_zero_iff.mp count.symm]
          | cons new fresh =>
              rw [refill, picked, if_neg Bool.false_ne_true,
                List.filter_cons_of_neg (by simp [picked])]
              exact induction fits count
      | true =>
          rw [List.filter_cons_of_pos picked] at count
          cases fresh with
          | nil => cases count
          | cons new fresh =>
              rw [refill, picked, if_pos rfl,
                List.filter_cons_of_pos (fits new List.mem_cons_self)]
              apply congrArg (new :: ·)
              apply induction _ (Nat.succ.inj count)
              intro item member
              exact fits item (List.mem_cons_of_mem _ member)

/-- What holds between an item and itself, and between a chosen and a fresh one, holds at every
place. -/
theorem forall₂_refill {related : α → α → Prop} (same : ∀ item, related item item)
    (replaced : ∀ item new, chosen item = true → new ∈ fresh → related item new) :
    List.Forall₂ related items (refill chosen fresh items) := by
  induction items generalizing fresh with
  | nil => exact .nil
  | cons item items induction =>
      cases fresh with
      | nil =>
          rw [refill_nil]
          exact List.forall₂_same.mpr fun other _ => same other
      | cons new fresh =>
          rw [refill]
          split_ifs with picked
          · apply List.Forall₂.cons (replaced item new picked List.mem_cons_self)
            apply induction
            intro item other picked member
            exact replaced item other picked (List.mem_cons_of_mem _ member)
          · exact .cons (same item) (induction replaced)

/-- Items that are chosen otherwise are not touched. -/
theorem filter_refill_of_disjoint {other : α → Bool}
    (disjoint : ∀ item, chosen item = true → other item = false)
    (fits : ∀ item ∈ fresh, chosen item = true) :
    (refill chosen fresh items).filter other = items.filter other := by
  induction items generalizing fresh with
  | nil => cases fresh <;> rfl
  | cons item items induction =>
      cases fresh with
      | nil => rw [refill_nil]
      | cons new fresh =>
          rw [refill]
          split_ifs with picked
          · have free := disjoint item picked
            have free' := disjoint new (fits new List.mem_cons_self)
            rw [List.filter_cons_of_neg (by simp [free']), List.filter_cons_of_neg (by simp [free])]
            apply induction
            intro other_ member
            exact fits other_ (List.mem_cons_of_mem _ member)
          · rw [List.filter_cons, List.filter_cons, induction fits]

end

/-! ## Rows in another order -/

/-- Whether a row is a production of a parser. -/
def Row.produces (parser : String) (row : Row) : Bool :=
  row.isParserRow && row.parser == parser

/-- What a place of the rows keeps: the parser and the kind of its row, and a row with a token
pattern as a whole. -/
structure Row.Steady (row other : Row) : Prop where
  parser : other.parser = row.parser
  production : other.isParserRow = row.isParserRow
  token : row.isParserRow = false → other = row

theorem Row.Steady.refl (row : Row) : row.Steady row :=
  ⟨rfl, rfl, fun _ => rfl⟩

theorem Row.Steady.symm {row other : Row} (steady : row.Steady other) : other.Steady row :=
  ⟨steady.parser.symm, steady.production.symm,
    fun token => (steady.token (steady.production.symm.trans token)).symm⟩

theorem Row.Steady.trans {row middle other : Row} (one : row.Steady middle)
    (two : middle.Steady other) : row.Steady other := by
  refine ⟨two.parser.trans one.parser, two.production.trans one.production, ?_⟩
  intro token
  rw [two.token (one.production.trans token), one.token token]

theorem Row.Steady.produces_eq {row other : Row} (steady : row.Steady other) (parser : String) :
    other.produces parser = row.produces parser := by
  rw [produces, produces, steady.parser, steady.production]

/-- Rows with token patterns stay where they are. -/
theorem filter_tokens_of_steady {rows others : List Row}
    (steady : List.Forall₂ Row.Steady rows others) :
    others.filter (!·.isParserRow) = rows.filter (!·.isParserRow) := by
  induction steady with
  | nil => rfl
  | @cons row other _ _ first _ induction =>
      rw [List.filter_cons, List.filter_cons, first.production, induction]
      split_ifs with token
      · rw [first.token (by simpa using token)]
      · rfl

theorem placesFrom_congr {α : Type} {chosen : α → Bool} {items others : List α}
    (same : List.Forall₂ (fun item other => chosen other = chosen item) items others)
    (start : Nat) : placesFrom chosen start others = placesFrom chosen start items := by
  induction same generalizing start with
  | nil => rfl
  | cons first _ induction =>
      have later := induction (start + 1)
      simp only [placesFrom, List.zipIdx_cons, List.filter_cons, first] at later ⊢
      split
      · simp only [List.map_cons, later]
      · exact later

theorem map_fst_filter_zipIdx {α : Type} (chosen : α → Bool) (items : List α) :
    (items.zipIdx.filter fun pair => chosen pair.1).map (·.1) = items.filter chosen := by
  conv_rhs => rw [← List.zipIdx_map_fst 0 items, List.filter_map]
  rfl

namespace Grammar

/-- The row that a parser rule comes from. -/
def rowOf (rows : List Row) (id : RuleId) : Option Row :=
  (ungrouped rows).parserRules[id]?.bind fun rule => rows[rule.row]?

/-- The rows of the rules of a parser in the order of its groups. -/
def orderedRows (rows : List Row) (groups : List PrecedenceGroup) : List Row :=
  (groups.flatMap (·.rules)).filterMap (rowOf rows)

theorem parserRules_of_produces (rows : List Row) (parser : String) :
    (ungrouped rows).parserRules.toList.filter (·.parser == parser) =
      (rows.zipIdx.filter fun pair => pair.1.produces parser).filterMap
        fun (row, place) => row.parserRule? place := by
  simp only [ungrouped]
  induction rows.zipIdx with
  | nil => rfl
  | cons pair pairs induction =>
      obtain ⟨row, place⟩ := pair
      rw [List.filterMap_cons, List.filter_cons]
      cases production : row.isParserRow with
      | false =>
          have made : row.parserRule? place = none := by simp [Row.parserRule?, production]
          have produced : row.produces parser = false := by simp [Row.produces, production]
          simp only [made, produced, induction, Bool.false_eq_true, if_false]
      | true =>
          have made : row.parserRule? place = some ⟨place + 1, row.parser, row.parsePattern,
              row.delegate?, row.precedence, place⟩ := by simp [Row.parserRule?, production]
          have produced : row.produces parser = (row.parser == parser) := by
            simp [Row.produces, production]
          simp only [made, produced, List.filter_cons]
          split_ifs
          · simp only [List.filterMap_cons, made, induction]
          · exact induction

theorem slots_arranged (rows : List Row) (groups : String → List PrecedenceGroup)
    (table : ParserTable) :
    (arranged rows groups).slots table = placesFrom (Row.produces table.name) 0 rows := by
  have rules : (arranged rows groups).parserRules = (ungrouped rows).parserRules := rfl
  rw [slots, rules, parserRules_of_produces, placesFrom]
  induction rows.zipIdx with
  | nil => rfl
  | cons pair pairs induction =>
      obtain ⟨row, place⟩ := pair
      rw [List.filter_cons]
      split_ifs with produced
      · have production : row.isParserRow = true := by
          rw [Row.produces, Bool.and_eq_true] at produced
          exact produced.1
        simp only [List.filterMap_cons, Row.parserRule?, production, if_true, List.map_cons]
        exact congrArg (place :: ·) induction
      · exact induction

theorem orderedRules_arranged (rows : List Row) (groups : String → List PrecedenceGroup)
    (table : ParserTable) :
    ((arranged rows groups).orderedRules table).map
        (fun rule => (arranged rows groups).rows[rule.row]?.getD {}) =
      orderedRows rows table.groups := by
  rw [orderedRules, List.map_filterMap, orderedRows]
  apply List.filterMap_congr
  intro id _
  change ((ungrouped rows).parserRules[id]?).map (fun rule => rows.toArray[rule.row]?.getD {}) =
    rowOf rows id
  rw [rowOf]
  cases found : (ungrouped rows).parserRules[id]? with
  | none => rfl
  | some rule =>
      obtain ⟨row, present, _⟩ := exists_row
        (List.mem_of_getElem? ((Array.getElem?_toList ..).trans found))
      simp [present]

/-- The rules of a parser in their order come from its productions in their order. -/
theorem filterMap_rowOf_rulesFor (rows : List Row) (parser : String) :
    ((rulesFor parser (numberedRules rows)).map (·.1)).filterMap (rowOf rows) =
      rows.filter (Row.produces parser) := by
  have rules : (rulesFor parser (numberedRules rows)).map (·.1) =
      ((ungrouped rows).parserRules.toList.zipIdx.filter (·.1.parser == parser)).map (·.2) := by
    simp [rulesFor, numberedRules, Function.comp_def]
    rfl
  have looked : (((ungrouped rows).parserRules.toList.zipIdx.filter
      (·.1.parser == parser)).map (·.2)).filterMap (rowOf rows) =
      ((ungrouped rows).parserRules.toList.zipIdx.filter (·.1.parser == parser)).filterMap
        fun pair => rows[pair.1.row]? := by
    rw [List.filterMap_map]
    apply List.filterMap_congr
    intro pair member
    have found := List.mk_mem_zipIdx_iff_getElem?.mp (List.mem_of_mem_filter member)
    rw [Array.getElem?_toList] at found
    simp only [Function.comp_apply, rowOf, found, Option.bind_some]
  have unnumbered : ((ungrouped rows).parserRules.toList.zipIdx.filter
      (·.1.parser == parser)).filterMap (fun pair => rows[pair.1.row]?) =
      ((ungrouped rows).parserRules.toList.filter (·.parser == parser)).filterMap
        fun rule => rows[rule.row]? := by
    rw [← map_fst_filter_zipIdx (fun rule : ParserRule => rule.parser == parser),
      List.filterMap_map]
    rfl
  rw [rules, looked, unnumbered, parserRules_of_produces, List.filterMap_filterMap,
    ← map_fst_filter_zipIdx (Row.produces parser) rows, ← List.filterMap_eq_map]
  apply List.filterMap_congr
  intro pair member
  obtain ⟨inside, produced⟩ := List.mem_filter.mp member
  rw [Row.produces, Bool.and_eq_true] at produced
  have made : pair.1.parserRule? pair.2 = some ⟨pair.2 + 1, pair.1.parser, pair.1.parsePattern,
      pair.1.delegate?, pair.1.precedence, pair.2⟩ := by
    simp [Row.parserRule?, produced.1]
  simp only [made, Option.bind_some]
  exact List.mem_zipIdx_iff_getElem?.mp inside

namespace Arranges

variable {rows : List Row} {groups : String → List PrecedenceGroup}
  (arranges : Arranges rows groups)

include arranges

theorem orderedRows_perm {parser : String} (known : parser ∈ parserNames rows) :
    (orderedRows rows (groups parser)).Perm (rows.filter (Row.produces parser)) := by
  rw [← filterMap_rowOf_rulesFor, orderedRows, ← keyedRules_map_fst]
  exact ((arranges.complete parser known).map _).filterMap _

theorem produces_of_mem_orderedRows {parser : String} (known : parser ∈ parserNames rows)
    {row : Row} (member : row ∈ orderedRows rows (groups parser)) :
    row.produces parser = true :=
  (List.mem_filter.mp ((arranges.orderedRows_perm known).mem_iff.mp member)).2

/-- Written back parser by parser, the places stay what they are and the productions of each parser
come in the order of its groups. -/
theorem foldl_refill {names : List String} (distinct : names.Nodup)
    (known : names ⊆ parserNames rows) :
    List.Forall₂ Row.Steady rows (names.foldl (fun current parser =>
        refill (Row.produces parser) (orderedRows rows (groups parser)) current) rows) ∧
      ∀ parser, (names.foldl (fun current parser =>
          refill (Row.produces parser) (orderedRows rows (groups parser)) current) rows).filter
            (Row.produces parser) =
        if parser ∈ names then orderedRows rows (groups parser)
        else rows.filter (Row.produces parser) := by
  induction names using List.reverseRecOn with
  | nil => exact ⟨List.forall₂_same.mpr fun row _ => .refl row, fun parser => rfl⟩
  | append_singleton names last induction =>
      have before : names ⊆ parserNames rows := fun name member =>
        known (List.mem_append_left _ member)
      have here : last ∈ parserNames rows := known (by simp)
      rw [List.nodup_append] at distinct
      have new : last ∉ names := fun member => distinct.2.2 last member last (by simp) rfl
      obtain ⟨steady, filtered⟩ := induction distinct.1 before
      rw [List.foldl_append, List.foldl_cons, List.foldl_nil]
      have fits : ∀ row ∈ orderedRows rows (groups last), row.produces last = true :=
        fun row => arranges.produces_of_mem_orderedRows here
      constructor
      · refine forall₂_trans ?_ steady ?_
        · exact fun _ _ _ => Row.Steady.trans
        · apply forall₂_refill Row.Steady.refl
          intro row new produced member
          have fresh := fits new member
          rw [Row.produces, Bool.and_eq_true, beq_iff_eq] at produced fresh
          refine ⟨fresh.2.trans produced.2.symm, fresh.1.trans produced.1.symm, ?_⟩
          intro token
          rw [token] at produced
          cases produced.1
      · intro parser
        by_cases same : parser = last
        · subst same
          rw [if_pos (by simp), filter_refill fits]
          rw [filtered, if_neg new]
          exact (arranges.orderedRows_perm here).length_eq
        · rw [filter_refill_of_disjoint _ fits, filtered]
          · simp [same]
          · intro row produced
            rw [Row.produces, Bool.and_eq_true, beq_iff_eq] at produced
            rw [Row.produces, produced.2, produced.1, Bool.true_and]
            exact beq_eq_false_iff_ne.mpr (Ne.symm same)

omit arranges in
theorem foldl_setIfInBounds (pairs : List (Nat × Row)) (rows : Array Row) :
    (pairs.foldl (fun rows pair => rows.setIfInBounds pair.1 pair.2) rows).toList =
      pairs.foldl (fun rows pair => rows.set pair.1 pair.2) rows.toList := by
  induction pairs generalizing rows with
  | nil => rfl
  | cons pair pairs induction =>
      rw [List.foldl_cons, List.foldl_cons, induction, Array.toList_setIfInBounds]

/-- The rows are written back parser by parser. -/
theorem toRows_eq :
    (arranged rows groups).toRows = (parserNames rows).foldl (fun current parser =>
      refill (Row.produces parser) (orderedRows rows (groups parser)) current) rows := by
  have table (parser : String) (current : Array Row) :
      (((arranged rows groups).slots ⟨parser, tokenTypesOf rows parser, groups parser⟩).zip
        ((arranged rows groups).orderedRules
          ⟨parser, tokenTypesOf rows parser, groups parser⟩)).foldl
            (fun rows_ pair => rows_.setIfInBounds pair.1
              ((arranged rows groups).rows[pair.2.row]?.getD {})) current =
      ((placesFrom (Row.produces parser) 0 rows).zip (orderedRows rows (groups parser))).foldl
        (fun rows_ pair => rows_.setIfInBounds pair.1 pair.2) current := by
    rw [slots_arranged, ← orderedRules_arranged rows groups
      ⟨parser, tokenTypesOf rows parser, groups parser⟩, List.zip_map_right, List.foldl_map]
    rfl
  have each (names : List String) (distinct : names.Nodup) (known : names ⊆ parserNames rows) :
      (names.foldl (fun current parser =>
        ((placesFrom (Row.produces parser) 0 rows).zip (orderedRows rows (groups parser))).foldl
          (fun rows_ pair => rows_.setIfInBounds pair.1 pair.2) current) rows.toArray).toList =
      names.foldl (fun current parser =>
        refill (Row.produces parser) (orderedRows rows (groups parser)) current) rows := by
    induction names using List.reverseRecOn with
    | nil => rfl
    | append_singleton names last induction =>
        have before : names ⊆ parserNames rows := fun name member =>
          known (List.mem_append_left _ member)
        rw [List.nodup_append] at distinct
        have steady := (arranges.foldl_refill distinct.1 before).1
        rw [List.foldl_append, List.foldl_append, List.foldl_cons, List.foldl_cons,
          List.foldl_nil, List.foldl_nil, foldl_setIfInBounds, induction distinct.1 before]
        have places := placesFrom_congr (steady.imp fun _ _ steady => steady.produces_eq last) 0
        rw [← places]
        exact foldl_set_places _ [] _
  rw [toRows]
  simp only [arranged] at table ⊢
  rw [List.foldl_map]
  simp only [table]
  exact each _ (parserNames_nodup rows) (List.Subset.refl _)

end Arranges

/-- The rows in another order, in which the productions of each parser have traded places. -/
structure Reorders (rows others : List Row) : Prop where
  perm : others.Perm rows
  steady : List.Forall₂ Row.Steady rows others

theorem Reorders.symm {rows others : List Row} (reorders : Reorders rows others) :
    Reorders others rows :=
  ⟨reorders.perm.symm, (reorders.steady.imp fun _ _ => Row.Steady.symm).flip⟩

theorem Arranges.toRows_reorders {rows : List Row} {groups : String → List PrecedenceGroup}
    (arranges : Arranges rows groups) : Reorders rows (arranged rows groups).toRows ∧
      ∀ parser ∈ parserNames rows,
        (arranged rows groups).toRows.filter (Row.produces parser) =
          orderedRows rows (groups parser) := by
  obtain ⟨steady, filtered⟩ :=
    arranges.foldl_refill (parserNames_nodup rows) (List.Subset.refl _)
  rw [← arranges.toRows_eq] at steady filtered
  have productions (parser : String) (known : parser ∈ parserNames rows) :
      (arranged rows groups).toRows.filter (Row.produces parser) =
        orderedRows rows (groups parser) := by
    rw [filtered, if_pos known]
  refine ⟨⟨List.perm_iff_count.mpr ?_, steady⟩, productions⟩
  intro row
  cases production : row.isParserRow with
  | false =>
      have count (list : List Row) :
          (list.filter (!·.isParserRow)).count row = list.count row :=
        List.count_filter (by simp [production])
      rw [← count, filter_tokens_of_steady steady, count]
  | true =>
      have count (list : List Row) :
          (list.filter (Row.produces row.parser)).count row = list.count row :=
        List.count_filter (by simp [Row.produces, production])
      rw [← count, ← count rows, filtered]
      split_ifs with known
      · exact (arranges.orderedRows_perm known).count_eq row
      · rfl

end Grammar

end RowGrammar
