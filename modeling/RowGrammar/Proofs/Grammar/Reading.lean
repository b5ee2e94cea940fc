import Mathlib.Data.List.Induction
import Mathlib.Data.List.Nodup
import Mathlib.Tactic.SplitIfs
import RowGrammar.Proofs.Grammar.Tables
import RowGrammar.Proofs.Traversal

/-!
# Grammars of rows

Reading rows one after the other ends in a grammar that can be written down at once: the place of a
row is the number of its node type, and every table lists what its rows say.  Whether the rows can
be read at all does not depend on their order.
-/

namespace RowGrammar

open RowGrammar.Text

namespace Registry

theorem register_eq_ok_iff {registry : Registry} {name : String}
    {result : NodeTypeId × Registry} :
    registry.register name = .ok result ↔
      isValidName name ∧ registry.id? name = none ∧ registry.group? name = none ∧
        registry.size < maxNodeTypes ∧
        result = (registry.size, { registry with names := registry.names.push name }) := by
  simp only [register]
  split_ifs with invalid known grouped full
  · simp_all
  · simp_all [Option.isSome_iff_ne_none]
  · simp_all [Option.isSome_iff_ne_none]
  · simp only [false_iff]
    omega
  · rw [Except.ok.injEq, eq_comm]
    refine ⟨fun same => ⟨by simpa using invalid, by simpa using known, by simpa using grouped,
      by omega, same⟩, fun all => all.2.2.2.2⟩

theorem addToGroup_eq_ok_iff {registry after : Registry} {group : String} {member : NodeTypeId} :
    registry.addToGroup group member = .ok after ↔
      registry.id? group = none ∧ isValidName group ∧
        after = { registry with groups := insertMember group member registry.groups } := by
  simp only [addToGroup]
  split_ifs with known invalid
  · simp_all [Option.isSome_iff_ne_none]
  · simp_all
  · rw [Except.ok.injEq, eq_comm]
    exact ⟨fun same => ⟨by simpa using known, by simpa using invalid, same⟩, fun all => all.2.2⟩

theorem setPrimitive_eq_ok_iff {registry next : Registry} {id : NodeTypeId} {primitive : String} :
    registry.setPrimitive id primitive = .ok next ↔
      registry.primitive? id = some primitive ∧ next = registry ∨
        registry.primitive? id = none ∧
          next = { registry with primitives := (id, primitive) :: registry.primitives } := by
  rw [setPrimitive]
  cases known : registry.primitive? id with
  | none => simp [eq_comm]
  | some existing =>
      by_cases same : existing = primitive
      · simp [same, eq_comm]
      · simp [same]

/-- Adds a node type to a group, if one is named. -/
def join (registry : Registry) (group : String) (member : NodeTypeId) :
    Except GrammarError Registry :=
  if group = "" then .ok registry else registry.addToGroup group member

/-- Sets the primitive type of a node type, if one is named. -/
def prime (registry : Registry) (primitive : String) (id : NodeTypeId) :
    Except GrammarError Registry :=
  if primitive = "" then .ok registry else registry.setPrimitive id primitive

theorem join_eq_ok_iff {registry after : Registry} {group : String} {member : NodeTypeId} :
    registry.join group member = .ok after ↔
      (group ≠ "" → registry.id? group = none ∧ isValidName group) ∧
        after = { registry with
          groups := if group = "" then registry.groups
            else insertMember group member registry.groups } := by
  rw [join]
  split_ifs with unnamed
  · rw [Except.ok.injEq, eq_comm]
    exact ⟨fun same => ⟨fun named => absurd unnamed named, same⟩, fun both => both.2⟩
  · rw [addToGroup_eq_ok_iff]
    exact ⟨fun ⟨free, valid, same⟩ => ⟨fun _ => ⟨free, valid⟩, same⟩,
      fun ⟨both, same⟩ => ⟨(both unnamed).1, (both unnamed).2, same⟩⟩

/-- A valid name is neither empty nor that of unrecognized input. -/
theorem ne_of_isValidName {name : String} (valid : isValidName name) :
    name ≠ "" ∧ name ≠ unrecognizedName := by
  refine ⟨?_, ?_⟩
  · rintro rfl
    exact absurd valid (by decide)
  · rintro rfl
    exact absurd valid (by decide)

theorem id?_eq_none_iff {registry : Registry} {name : String} :
    registry.id? name = none ↔ name ∉ registry.names.toList := by
  simp [id?, Array.idxOf?_eq_none_iff]

theorem group?_eq_none_iff {registry : Registry} {name : String} :
    registry.group? name = none ↔ name ∉ registry.groups.map (·.1) := by
  rw [group?, List.lookup_eq_none_iff]
  constructor
  · intro absent member
    obtain ⟨pair, inside, same⟩ := List.mem_map.mp member
    have apart := absent pair inside
    simp [same] at apart
  · intro absent pair inside
    have apart : name ≠ pair.1 := fun same => absent (same ▸ List.mem_map_of_mem inside)
    simpa using apart

/-- The number of a name is its place, where no name is listed twice. -/
theorem id?_eq_some_iff {registry : Registry} (distinct : registry.names.toList.Nodup)
    {name : String} {id : NodeTypeId} :
    registry.id? name = some id ↔ registry.names[id]? = some name := by
  obtain ⟨⟨names⟩, groups, primitives⟩ := registry
  change (List.toArray names).idxOf? name = some id ↔ (List.toArray names)[id]? = some name
  rw [List.idxOf?_toArray, List.getElem?_toArray, List.idxOf?_eq_some_iff]
  constructor
  · rintro ⟨inside, same, _⟩
    rw [List.getElem?_eq_getElem inside, same]
  · intro found
    obtain ⟨inside, same⟩ := List.getElem?_eq_some_iff.mp found
    refine ⟨inside, same, fun earlier before equal => ?_⟩
    have apart : earlier = id := distinct.getElem_inj_iff.mp (equal.trans same.symm)
    omega

theorem map_fst_insertMember (group : String) (member : NodeTypeId)
    (groups : List (String × List NodeTypeId)) :
    (insertMember group member groups).map (·.1) =
      if group ∈ groups.map (·.1) then groups.map (·.1) else groups.map (·.1) ++ [group] := by
  induction groups with
  | nil => rfl
  | cons first groups induction =>
      obtain ⟨other, members⟩ := first
      rw [insertMember]
      by_cases here : other = group
      · simp [here]
      · rw [if_neg here, List.map_cons, induction]
        by_cases later : group ∈ groups.map (·.1)
        · simp [later]
        · simp [later, Ne.symm here]

theorem insertMember_names (group : String) (member : NodeTypeId)
    (groups : List (String × List NodeTypeId)) (name : String) :
    name ∈ (insertMember group member groups).map (·.1) ↔
      name = group ∨ name ∈ groups.map (·.1) := by
  rw [map_fst_insertMember]
  split_ifs with listed
  · exact ⟨.inr, Or.rec (fun same => same ▸ listed) id⟩
  · rw [List.mem_append, List.mem_singleton, or_comm]

end Registry

namespace Row

/-- The sub-parser that a row names. -/
def delegate? (row : Row) : Option String :=
  if row.subparser = "" then none else some row.subparser

/-- The token rule of a row at a place. -/
def tokenRule? (row : Row) (place : Nat) : Option TokenRule :=
  if row.isTokenRow then some ⟨place + 1, row.parser, row.tokenPattern, row.delegate?⟩ else none

/-- The parser rule of a row at a place. -/
def parserRule? (row : Row) (place : Nat) : Option ParserRule :=
  if row.isParserRow then
    some ⟨place + 1, row.parser, row.parsePattern, row.delegate?, row.precedence, place⟩
  else none

/-- A row that can be read by itself. -/
structure Readable (row : Row) : Prop where
  named : Registry.isValidName row.nodeType
  grouped : row.group ≠ "" → Registry.isValidName row.group
  onePattern : row.isTokenRow = !row.isParserRow
  plain : row.isParserRow → '\\' ∉ row.parsePattern.toList

end Row

/-- Rows that can be read one after the other. -/
structure Readable (rows : List Row) : Prop where
  each : ∀ row ∈ rows, row.Readable
  distinct : (rows.map (·.nodeType)).Nodup
  /-- No group has the name of a node type. -/
  apart : ∀ row ∈ rows, row.group ∉ rows.map (·.nodeType)
  few : rows.length < maxNodeTypes

namespace Grammar

/-- The groups that rows put their node types into. -/
def groupsOf (rows : List Row) : List (String × List NodeTypeId) :=
  rows.zipIdx.foldl
    (fun groups (row, place) =>
      if row.group = "" then groups else Registry.insertMember row.group (place + 1) groups) []

/-- The primitive types that rows give to their node types, the last ones first. -/
def primitivesOf (rows : List Row) : List (NodeTypeId × String) :=
  rows.zipIdx.foldl
    (fun primitives (row, place) =>
      if row.primitiveType = "" then primitives
      else (place + 1, row.primitiveType) :: primitives) []

/-- The grammar of rows before its rules are grouped and its token types are sorted. -/
def ungrouped (rows : List Row) : Grammar := {
  rows := rows.toArray
  registry := {
    names := (unrecognizedName :: rows.map (·.nodeType)).toArray
    groups := groupsOf rows
    primitives := primitivesOf rows }
  mainParser := rows.foldl (fun main row => if main = "" then row.parser else main) ""
  tokenRules := (rows.zipIdx.filterMap fun (row, place) => row.tokenRule? place).toArray
  parserRules := (rows.zipIdx.filterMap fun (row, place) => row.parserRule? place).toArray
  parsers := rows.foldl (fun tables row => updateTable row.parser (fun table => table) tables) []
  suppressed := []
  unused := [] }

theorem groupsOf_append_singleton (rows : List Row) (row : Row) :
    groupsOf (rows ++ [row]) =
      if row.group = "" then groupsOf rows
      else Registry.insertMember row.group (rows.length + 1) (groupsOf rows) := by
  simp [groupsOf, List.zipIdx_append]

theorem mem_groupsOf_names {rows : List Row} {name : String} :
    name ∈ (groupsOf rows).map (·.1) ↔ name ≠ "" ∧ ∃ row ∈ rows, row.group = name := by
  induction rows using List.reverseRecOn with
  | nil => simp [groupsOf]
  | append_singleton rows row induction =>
      rw [groupsOf_append_singleton]
      by_cases ungrouped : row.group = ""
      · rw [if_pos ungrouped, induction]
        constructor
        · rintro ⟨filled, other, member, same⟩
          exact ⟨filled, other, by simp [member], same⟩
        · rintro ⟨filled, other, member, same⟩
          rcases List.mem_append.mp member with before | last
          · exact ⟨filled, other, before, same⟩
          · rw [List.mem_singleton.mp last] at same
            exact absurd (same.symm.trans ungrouped) filled
      · rw [if_neg ungrouped, Registry.insertMember_names, induction]
        constructor
        · rintro (rfl | ⟨filled, other, member, same⟩)
          · exact ⟨ungrouped, row, by simp, rfl⟩
          · exact ⟨filled, other, by simp [member], same⟩
        · rintro ⟨filled, other, member, same⟩
          rcases List.mem_append.mp member with before | last
          · exact .inr ⟨filled, other, before, same⟩
          · rw [List.mem_singleton.mp last] at same
            exact .inl same.symm

theorem primitivesOf_append_singleton (rows : List Row) (row : Row) :
    primitivesOf (rows ++ [row]) =
      if row.primitiveType = "" then primitivesOf rows
      else (rows.length + 1, row.primitiveType) :: primitivesOf rows := by
  simp [primitivesOf, List.zipIdx_append]

/-- Primitive types belong to node types of the rows. -/
theorem lt_of_mem_primitivesOf {rows : List Row} {pair : NodeTypeId × String}
    (member : pair ∈ primitivesOf rows) : pair.1 ≤ rows.length := by
  induction rows using List.reverseRecOn with
  | nil => simp [primitivesOf] at member
  | append_singleton rows row induction =>
      rw [primitivesOf_append_singleton] at member
      rw [List.length_append, List.length_singleton]
      split_ifs at member
      · exact Nat.le_succ_of_le (induction member)
      · rcases List.mem_cons.mp member with rfl | before
        · exact Nat.le_refl _
        · exact Nat.le_succ_of_le (induction before)

/-- The grammar of no rows. -/
theorem ungrouped_nil : ungrouped [] = .empty := rfl

theorem registry_append_singleton (rows : List Row) (row : Row) :
    (ungrouped (rows ++ [row])).registry = {
      names := (ungrouped rows).registry.names.push row.nodeType
      groups := if row.group = "" then groupsOf rows
        else Registry.insertMember row.group (rows.length + 1) (groupsOf rows)
      primitives := if row.primitiveType = "" then primitivesOf rows
        else (rows.length + 1, row.primitiveType) :: primitivesOf rows } := by
  simp [ungrouped, groupsOf_append_singleton, primitivesOf_append_singleton]

theorem primitive?_new (rows : List Row) :
    (primitivesOf rows).lookup (rows.length + 1) = none := by
  rw [List.lookup_eq_none_iff]
  intro pair member
  have bounded := lt_of_mem_primitivesOf member
  have apart : rows.length + 1 ≠ pair.1 := Nat.ne_of_gt (Nat.lt_succ_of_le bounded)
  simpa using apart

/-- The steps of registering a row. -/
theorem register_eq (grammar : Grammar) (row : Row) :
    grammar.register row = (do
      let (id, registry) ← grammar.registry.register row.nodeType
      let registry ← registry.join row.group id
      let registry ← registry.prime row.primitiveType id
      return (id, {
        grammar with
        registry
        mainParser := if grammar.mainParser = "" then row.parser else grammar.mainParser
        parsers := updateTable row.parser (fun table => table) grammar.parsers })) := by
  unfold register Registry.join Registry.prime
  cases grammar.registry.register row.nodeType with
  | error error => rfl
  | ok registered =>
      by_cases ungrouped : row.group = ""
      · by_cases plain : row.primitiveType = ""
        · simp [ungrouped, plain, bind, Except.bind, pure, Except.pure]
        · simp [ungrouped, plain, bind, Except.bind, pure, Except.pure]
      · by_cases plain : row.primitiveType = ""
        · simp [ungrouped, plain, bind, Except.bind, pure, Except.pure]
        · simp [ungrouped, plain, bind, Except.bind, pure, Except.pure]

theorem prime_eq_ok {registry : Registry} {rows : List Row}
    (same : registry.primitives = primitivesOf rows) (row : Row) :
    registry.prime row.primitiveType (rows.length + 1) =
      .ok { registry with primitives := primitivesOf (rows ++ [row]) } := by
  rw [Registry.prime, primitivesOf_append_singleton]
  split_ifs with plain
  · rw [← same]
  · simp [Registry.setPrimitive, Registry.primitive?, same, primitive?_new]

/-- What registering a row makes of the grammar of the rows before it. -/
theorem registered_ungrouped (rows : List Row) (row : Row) :
    { ungrouped rows with
      registry := {
        names := (ungrouped rows).registry.names.push row.nodeType
        groups := if row.group = "" then groupsOf rows
          else Registry.insertMember row.group (rows.length + 1) (groupsOf rows)
        primitives := primitivesOf (rows ++ [row]) }
      mainParser :=
        if (ungrouped rows).mainParser = "" then row.parser else (ungrouped rows).mainParser
      parsers := updateTable row.parser (fun table => table) (ungrouped rows).parsers } =
    { ungrouped rows with
      registry := (ungrouped (rows ++ [row])).registry
      mainParser := (ungrouped (rows ++ [row])).mainParser
      parsers := (ungrouped (rows ++ [row])).parsers } := by
  rw [registry_append_singleton, primitivesOf_append_singleton]
  simp [ungrouped]

theorem register_ungrouped {rows : List Row} {row : Row} {result : NodeTypeId × Grammar} :
    (ungrouped rows).register row = .ok result ↔
      Registry.isValidName row.nodeType ∧ row.nodeType ∉ rows.map (·.nodeType) ∧
        (∀ other ∈ rows, other.group ≠ row.nodeType) ∧ rows.length + 1 < maxNodeTypes ∧
        (row.group ≠ "" → Registry.isValidName row.group ∧
          row.group ∉ (rows ++ [row]).map (·.nodeType)) ∧
        result = (rows.length + 1, {
          ungrouped rows with
          registry := (ungrouped (rows ++ [row])).registry
          mainParser := (ungrouped (rows ++ [row])).mainParser
          parsers := (ungrouped (rows ++ [row])).parsers }) := by
  have size : (ungrouped rows).registry.size = rows.length + 1 := by
    simp [ungrouped, Registry.size]
  have names : (ungrouped rows).registry.id? row.nodeType = none ↔
      row.nodeType ∉ unrecognizedName :: rows.map (·.nodeType) := Registry.id?_eq_none_iff
  have groups : (ungrouped rows).registry.group? row.nodeType = none ↔
      ¬(row.nodeType ≠ "" ∧ ∃ other ∈ rows, other.group = row.nodeType) := by
    rw [Registry.group?_eq_none_iff, ← mem_groupsOf_names]
    rfl
  have inNames : row.group ∉ ((ungrouped rows).registry.names.push row.nodeType).toList ↔
      row.group ∉ unrecognizedName :: (rows ++ [row]).map (·.nodeType) := by
    simp [ungrouped]
  rw [register_eq, ← registered_ungrouped]
  simp only [bind_eq_ok_iff, pure_eq_ok_iff, Registry.register_eq_ok_iff, size,
    Registry.join_eq_ok_iff, names, groups]
  constructor
  · rintro ⟨_, ⟨valid, new, free, few, rfl⟩, _, ⟨joins, rfl⟩, last, done, rfl⟩
    rw [prime_eq_ok rfl, Except.ok.injEq] at done
    subst done
    refine ⟨valid, fun old => new (List.mem_cons_of_mem _ old), ?_, few, ?_, rfl⟩
    · intro other member same
      exact free ⟨(Registry.ne_of_isValidName valid).1, other, member, same⟩
    · intro named
      obtain ⟨unknown, validGroup⟩ := joins named
      rw [Registry.id?_eq_none_iff, inNames] at unknown
      exact ⟨validGroup, fun old => unknown (List.mem_cons_of_mem _ old)⟩
  · rintro ⟨valid, new, free, few, joins, rfl⟩
    refine ⟨_, ⟨valid, ?_, ?_, few, rfl⟩, _, ⟨?_, rfl⟩, _, prime_eq_ok rfl row, rfl⟩
    · rw [List.mem_cons, not_or]
      exact ⟨(Registry.ne_of_isValidName valid).2, new⟩
    · rintro ⟨_, other, member, same⟩
      exact free other member same
    · intro named
      obtain ⟨validGroup, unknown⟩ := joins named
      rw [Registry.id?_eq_none_iff, inNames, List.mem_cons, not_or]
      exact ⟨⟨(Registry.ne_of_isValidName validGroup).2, unknown⟩, validGroup⟩

theorem tokenRules_append_singleton (rows : List Row) (row : Row) :
    (ungrouped (rows ++ [row])).tokenRules =
      if row.isTokenRow then
        (ungrouped rows).tokenRules.push
          ⟨rows.length + 1, row.parser, row.tokenPattern, row.delegate?⟩
      else (ungrouped rows).tokenRules := by
  cases token : row.isTokenRow with
  | true => simp [ungrouped, List.zipIdx_append, Row.tokenRule?, token]
  | false => simp [ungrouped, List.zipIdx_append, Row.tokenRule?, token]

theorem parserRules_append_singleton (rows : List Row) (row : Row) :
    (ungrouped (rows ++ [row])).parserRules =
      if row.isParserRow then
        (ungrouped rows).parserRules.push
          ⟨rows.length + 1, row.parser, row.parsePattern, row.delegate?, row.precedence,
            rows.length⟩
      else (ungrouped rows).parserRules := by
  cases production : row.isParserRow with
  | true => simp [ungrouped, List.zipIdx_append, Row.parserRule?, production]
  | false => simp [ungrouped, List.zipIdx_append, Row.parserRule?, production]

/-- A row is added by registering it and adding the one rule that it has. -/
theorem addRow_eq_ok_iff {grammar result : Grammar} {row : Row} :
    grammar.addRow row = .ok result ↔
      ∃ id registered, grammar.register row = .ok (id, registered) ∧
        row.isTokenRow = !row.isParserRow ∧
        (row.isParserRow → '\\' ∉ row.parsePattern.toList) ∧
        result = {
          registered with
          rows := registered.rows.push row
          tokenRules :=
            if row.isTokenRow then
              registered.tokenRules.push ⟨id, row.parser, row.tokenPattern, row.delegate?⟩
            else registered.tokenRules
          parserRules :=
            if row.isParserRow then
              registered.parserRules.push ⟨id, row.parser, row.parsePattern, row.delegate?,
                row.precedence, registered.rows.size⟩
            else registered.parserRules } := by
  rw [addRow, bind_eq_ok_iff, Prod.exists]
  refine exists_congr fun id => exists_congr fun registered => and_congr_right fun _ => ?_
  cases token : row.isTokenRow with
  | true =>
      cases production : row.isParserRow with
      | true => simp
      | false =>
          simp only [pure_eq_ok_iff, eq_comm (b := result)]
          simp [Row.delegate?]
  | false =>
      cases production : row.isParserRow with
      | true =>
          by_cases escaped : '\\' ∈ row.parsePattern.toList
          · simp [escaped]
          · simp [escaped, Row.delegate?, pure_eq_ok_iff, eq_comm (b := result)]
      | false => simp

theorem addRow_ungrouped {rows : List Row} {row : Row} {result : Grammar} :
    (ungrouped rows).addRow row = .ok result ↔
      (Registry.isValidName row.nodeType ∧ row.nodeType ∉ rows.map (·.nodeType) ∧
        (∀ other ∈ rows, other.group ≠ row.nodeType) ∧ rows.length + 1 < maxNodeTypes ∧
        (row.group ≠ "" → Registry.isValidName row.group ∧
          row.group ∉ (rows ++ [row]).map (·.nodeType)) ∧
        row.isTokenRow = !row.isParserRow ∧
        (row.isParserRow → '\\' ∉ row.parsePattern.toList)) ∧
        result = ungrouped (rows ++ [row]) := by
  have read : ungrouped (rows ++ [row]) = {
      ungrouped rows with
      rows := (ungrouped rows).rows.push row
      registry := (ungrouped (rows ++ [row])).registry
      mainParser := (ungrouped (rows ++ [row])).mainParser
      tokenRules := (ungrouped (rows ++ [row])).tokenRules
      parserRules := (ungrouped (rows ++ [row])).parserRules
      parsers := (ungrouped (rows ++ [row])).parsers } := by
    simp [ungrouped]
  have size : (ungrouped rows).rows.size = rows.length := by simp [ungrouped]
  rw [read, tokenRules_append_singleton, parserRules_append_singleton]
  simp only [addRow_eq_ok_iff, register_ungrouped, Prod.mk.injEq]
  constructor
  · rintro ⟨_, _, ⟨valid, new, free, few, joins, rfl, rfl⟩, one, plain, rfl⟩
    refine ⟨⟨valid, new, free, few, joins, one, plain⟩, ?_⟩
    rw [size]
  · rintro ⟨⟨valid, new, free, few, joins, one, plain⟩, rfl⟩
    refine ⟨_, _, ⟨valid, new, free, few, joins, rfl, rfl⟩, one, plain, ?_⟩
    rw [size]

end Grammar

/-- One more row can be read when it is readable by itself and its names are new. -/
theorem readable_append_singleton {rows : List Row} {row : Row} :
    Readable (rows ++ [row]) ↔
      Readable rows ∧ Registry.isValidName row.nodeType ∧
        row.nodeType ∉ rows.map (·.nodeType) ∧
        (∀ other ∈ rows, other.group ≠ row.nodeType) ∧ rows.length + 1 < maxNodeTypes ∧
        (row.group ≠ "" → Registry.isValidName row.group ∧
          row.group ∉ (rows ++ [row]).map (·.nodeType)) ∧
        row.isTokenRow = !row.isParserRow ∧
        (row.isParserRow → '\\' ∉ row.parsePattern.toList) := by
  constructor
  · rintro ⟨each, distinct, apart, few⟩
    have last := each row (by simp)
    rw [List.map_append, List.nodup_append] at distinct
    rw [List.length_append, List.length_singleton] at few
    refine ⟨⟨?_, distinct.1, ?_, by omega⟩, last.named, ?_, ?_, few, ?_, last.onePattern,
      last.plain⟩
    · intro other member
      exact each other (by simp [member])
    · intro other member inside
      refine apart other (by simp [member]) ?_
      rw [List.map_append]
      exact List.mem_append_left _ inside
    · intro inside
      exact distinct.2.2 _ inside _ (by simp) rfl
    · intro other member same
      exact apart other (by simp [member]) (by simp [same])
    · intro named
      exact ⟨last.grouped named, apart row (by simp)⟩
  · rintro ⟨⟨each, distinct, apart, _⟩, valid, new, free, few, joins, one, plain⟩
    refine ⟨?_, ?_, ?_, by simpa using few⟩
    · intro other member
      rcases List.mem_append.mp member with before | last
      · exact each other before
      · rw [List.mem_singleton.mp last]
        exact ⟨valid, fun named => (joins named).1, one, plain⟩
    · rw [List.map_append, List.nodup_append]
      refine ⟨distinct, by simp, ?_⟩
      intro name inside other last
      rw [List.map_singleton, List.mem_singleton] at last
      rintro rfl
      exact new (last ▸ inside)
    · intro other member
      rcases List.mem_append.mp member with before | last
      · rw [List.map_append, List.mem_append, not_or]
        exact ⟨apart other before, by simpa using free other before⟩
      · rw [List.mem_singleton.mp last]
        by_cases named : row.group = ""
        · rw [named]
          intro inside
          obtain ⟨some_, member, same⟩ := List.mem_map.mp inside
          rcases List.mem_append.mp member with before | final
          · exact (Registry.ne_of_isValidName (each some_ before).named).1 same
          · rw [List.mem_singleton.mp final] at same
            exact (Registry.ne_of_isValidName valid).1 same
        · exact (joins named).2

/-- Rows are read exactly when they are readable, and what they say is known then. -/
theorem foldlM_addRow_eq_ok_iff {rows : List Row} {result : Grammar} :
    rows.foldlM Grammar.addRow .empty = .ok result ↔
      Readable rows ∧ result = .ungrouped rows := by
  induction rows using List.reverseRecOn generalizing result with
  | nil =>
      rw [List.foldlM_nil, pure_eq_ok_iff, Grammar.ungrouped_nil, eq_comm]
      exact ⟨fun same => ⟨⟨by simp, by simp, by simp, by decide⟩, same⟩, fun both => both.2⟩
  | append_singleton rows row induction =>
      rw [List.foldlM_append, bind_eq_ok_iff, readable_append_singleton]
      simp only [List.foldlM_cons, List.foldlM_nil, bind_pure, induction]
      constructor
      · rintro ⟨_, ⟨readable, rfl⟩, added⟩
        rw [Grammar.addRow_ungrouped] at added
        exact ⟨⟨readable, added.1⟩, added.2⟩
      · rintro ⟨⟨readable, one⟩, same⟩
        exact ⟨_, ⟨readable, rfl⟩, Grammar.addRow_ungrouped.mpr ⟨one, same⟩⟩

end RowGrammar
