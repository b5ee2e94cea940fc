import RowGrammar.Grammar.Load

/-!
# Tables of parsers

Changing the table of a parser changes that table only, and a parser that has no table yet gets one
at the end.  The names of the tables stay apart.
-/

namespace RowGrammar

open RowGrammar.Text

/-- The names of tables. -/
def tableNames (tables : List ParserTable) : List String :=
  tables.map (·.name)

@[simp]
theorem tableNames_nil : tableNames [] = [] := rfl

@[simp]
theorem tableNames_cons (table : ParserTable) (tables : List ParserTable) :
    tableNames (table :: tables) = table.name :: tableNames tables := rfl

section

variable {parser : String} {change : ParserTable → ParserTable}

/-- A new table goes to the end. -/
theorem updateTable_of_notMem {tables : List ParserTable} (absent : parser ∉ tableNames tables) :
    updateTable parser change tables = tables ++ [change ⟨parser, [], []⟩] := by
  induction tables with
  | nil => rfl
  | cons table tables induction =>
      simp only [tableNames_cons, List.mem_cons, not_or] at absent
      rw [updateTable, if_neg (Ne.symm absent.1), induction absent.2]
      rfl

/-- Only the table of the parser changes. -/
theorem updateTable_of_mem {tables : List ParserTable} (nodup : (tableNames tables).Nodup)
    (present : parser ∈ tableNames tables) :
    updateTable parser change tables =
      tables.map fun table => if table.name = parser then change table else table := by
  induction tables with
  | nil => simp at present
  | cons table tables induction =>
      simp only [tableNames_cons, List.nodup_cons] at nodup
      rw [updateTable, List.map_cons]
      by_cases same : table.name = parser
      · rw [if_pos same, if_pos same]
        congr 1
        have unchanged : ∀ other ∈ tables,
            (if other.name = parser then change other else other) = other := by
          intro other member
          refine if_neg fun equal => nodup.1 ?_
          rw [same, ← equal]
          exact List.mem_map_of_mem member
        rw [List.map_congr_left unchanged, List.map_id']
      · rw [if_neg same, if_neg same]
        congr 1
        refine induction nodup.2 ?_
        simpa [Ne.symm same] using present

/-- The table of a parser is the only one with its name. -/
theorem find?_table_eq_some_iff {tables : List ParserTable} (nodup : (tableNames tables).Nodup)
    {table : ParserTable} :
    tables.find? (·.name == parser) = some table ↔ table ∈ tables ∧ table.name = parser := by
  induction tables with
  | nil => simp
  | cons first tables induction =>
      simp only [tableNames_cons, List.nodup_cons] at nodup
      rw [List.find?_cons]
      by_cases same : first.name = parser
      · simp only [same, beq_self_eq_true, Option.some.injEq, List.mem_cons]
        constructor
        · rintro rfl
          exact ⟨.inl rfl, same⟩
        · rintro ⟨rfl | member, equal⟩
          · rfl
          · have repeated : table.name ∈ tableNames tables := List.mem_map_of_mem member
            rw [equal, ← same] at repeated
            exact absurd repeated nodup.1
      · simp only [beq_eq_false_iff_ne.mpr same, induction nodup.2, List.mem_cons]
        constructor
        · rintro ⟨member, equal⟩
          exact ⟨.inr member, equal⟩
        · rintro ⟨rfl | member, equal⟩
          · exact absurd equal same
          · exact ⟨member, equal⟩

/-- Exactly the named parsers have a table. -/
theorem find?_table_isSome_iff {tables : List ParserTable} :
    (tables.find? (·.name == parser)).isSome ↔ parser ∈ tableNames tables := by
  simp [tableNames, List.find?_isSome]

end

/-- Tables changed one after the other, each by the items of its parser. -/
theorem foldl_updateTable {α : Type} (parserOf : α → String)
    (change : α → ParserTable → ParserTable)
    (keeps : ∀ item table, (change item table).name = table.name) {items : List α}
    {tables : List ParserTable} (nodup : (tableNames tables).Nodup)
    (present : ∀ item ∈ items, parserOf item ∈ tableNames tables) :
    items.foldl (fun tables item => updateTable (parserOf item) (change item) tables) tables =
      tables.map fun table =>
        (items.filter fun item => parserOf item = table.name).foldl
          (fun table item => change item table) table := by
  induction items generalizing tables with
  | nil => simp
  | cons item items induction =>
      have changed := @updateTable_of_mem _ (change item) _ nodup
        (present item List.mem_cons_self)
      have names : tableNames (updateTable (parserOf item) (change item) tables) =
          tableNames tables := by
        rw [changed, tableNames, tableNames, List.map_map]
        refine List.map_congr_left fun table _ => ?_
        simp only [Function.comp_apply]
        split
        · exact keeps item table
        · rfl
      rw [List.foldl_cons, induction (by rw [names]; exact nodup) (by
        intro other member
        rw [names]
        exact present other (List.mem_cons_of_mem _ member)), changed, List.map_map]
      refine List.map_congr_left fun table _ => ?_
      simp only [Function.comp_apply, List.filter_cons]
      by_cases same : table.name = parserOf item
      · simp [same, keeps]
      · simp [same, Ne.symm same]

end RowGrammar
