import Mathlib.Data.List.Forall2
import RowGrammar.Proofs.Grammar.WriteBack
import RowGrammar.Proofs.SymbolPattern.Renaming

/-!
# Grammars of reordered rows

When the productions of a parser trade places, their node types get other numbers and nothing else
changes: the same names are known, the same token types are tried, and every rule has a counterpart
with the same row.
-/

namespace RowGrammar

open RowGrammar.Text

/-- Rows are as readable in any other order. -/
theorem Readable.of_perm {rows others : List Row} (readable : Readable rows)
    (perm : others.Perm rows) : Readable others := by
  have names := perm.map (·.nodeType)
  refine ⟨?_, names.nodup_iff.mpr readable.distinct, ?_, perm.length_eq ▸ readable.few⟩
  · intro row member
    exact readable.each row (perm.mem_iff.mp member)
  · intro row member inside
    exact readable.apart row (perm.mem_iff.mp member) (names.mem_iff.mp inside)

theorem Registry.lookup_insertMember (group name : String) (member : NodeTypeId)
    (groups : List (String × List NodeTypeId)) :
    (insertMember group member groups).lookup name =
      if name = group then
        some (if ((groups.lookup group).getD []).contains member then (groups.lookup group).getD []
          else (groups.lookup group).getD [] ++ [member])
      else groups.lookup name := by
  induction groups with
  | nil =>
      rw [insertMember, List.lookup_cons]
      by_cases same : name = group
      · simp [same]
      · simp [same, beq_eq_false_iff_ne.mpr same]
  | cons first groups induction =>
      obtain ⟨other, members⟩ := first
      rw [insertMember]
      by_cases here : other = group
      · subst here
        rw [if_pos rfl, List.lookup_cons, List.lookup_cons, List.lookup_cons]
        by_cases same : name = other
        · simp [same]
        · simp [same, beq_eq_false_iff_ne.mpr same]
      · rw [if_neg here, List.lookup_cons, List.lookup_cons, List.lookup_cons, induction]
        by_cases same : name = other
        · subst same
          simp [here]
        · simp [beq_eq_false_iff_ne.mpr same, beq_eq_false_iff_ne.mpr (Ne.symm here)]

namespace Grammar

open SymbolPattern

/-- The node types of the rows that name a group. -/
def membersOf (rows : List Row) (name : String) : List NodeTypeId :=
  (rows.zipIdx.filter fun pair => pair.1.group == name).map (·.2 + 1)

theorem mem_membersOf {rows : List Row} {name : String} {id : NodeTypeId} :
    id ∈ membersOf rows name ↔
      ∃ (row : Row) (place : Nat), rows[place]? = some row ∧ row.group = name ∧ id = place + 1 := by
  simp only [membersOf, List.mem_map, List.mem_filter, Prod.exists,
    List.mk_mem_zipIdx_iff_getElem?, beq_iff_eq]
  constructor
  · rintro ⟨row, place, ⟨found, grouped⟩, rfl⟩
    exact ⟨row, place, found, grouped, rfl⟩
  · rintro ⟨row, place, found, grouped, rfl⟩
    exact ⟨row, place, ⟨found, grouped⟩, rfl⟩

/-- The members of a group come in the order of their numbers. -/
theorem membersOf_sorted (rows : List Row) (name : String) :
    (membersOf rows name).Pairwise (· < ·) := by
  have places : (rows.zipIdx.map (·.2)).Pairwise (· < ·) := by
    rw [List.zipIdx_map_snd]
    exact List.pairwise_lt_range' ..
  rw [List.pairwise_map] at places
  rw [membersOf, List.pairwise_map]
  apply (places.sublist List.filter_sublist).imp
  intro pair other before
  exact Nat.succ_lt_succ before

theorem membersOf_append_singleton (rows : List Row) (row : Row) (name : String) :
    membersOf (rows ++ [row]) name =
      if row.group = name then membersOf rows name ++ [rows.length + 1]
      else membersOf rows name := by
  by_cases same : row.group = name
  · simp [membersOf, List.zipIdx_append, same]
  · simp [membersOf, List.zipIdx_append, same]

/-- The members of a group so far come before a new row. -/
theorem contains_membersOf_new (rows : List Row) (name : String) :
    (membersOf rows name).contains (rows.length + 1) = false := by
  apply Bool.eq_false_iff.mpr
  intro present
  obtain ⟨row, place, found, _, equal⟩ := mem_membersOf.mp (List.contains_iff_mem.mp present)
  have inside := (List.getElem?_eq_some_iff.mp found).1
  rw [← Nat.succ.inj equal] at inside
  exact Nat.lt_irrefl _ inside

theorem membersOf_eq_nil {rows : List Row} {name : String}
    (unnamed : ¬∃ row ∈ rows, row.group = name) : membersOf rows name = [] := by
  apply List.eq_nil_iff_forall_not_mem.mpr
  intro id member
  obtain ⟨row, place, found, grouped, _⟩ := mem_membersOf.mp member
  exact unnamed ⟨row, List.mem_of_getElem? found, grouped⟩

/-- A group has the node types of the rows that name it. -/
theorem lookup_groupsOf (rows : List Row) (name : String) :
    (groupsOf rows).lookup name =
      if name ≠ "" ∧ ∃ row ∈ rows, row.group = name then some (membersOf rows name) else none := by
  induction rows using List.reverseRecOn with
  | nil => simp [groupsOf]
  | append_singleton rows row induction =>
      have named : (∃ other ∈ rows ++ [row], other.group = name) ↔
          (∃ other ∈ rows, other.group = name) ∨ row.group = name := by
        simp [or_and_right, exists_or]
      rw [groupsOf_append_singleton, membersOf_append_singleton]
      simp only [named]
      by_cases grouped : row.group = ""
      · rw [if_pos grouped, induction]
        by_cases same : row.group = name
        · have empty : name = "" := same.symm.trans grouped
          simp [empty]
        · simp [same]
      · rw [if_neg grouped, Registry.lookup_insertMember, induction]
        by_cases same : row.group = name
        · have filled : name ≠ "" := fun empty => grouped (same.trans empty)
          have before : ((groupsOf rows).lookup name).getD [] = membersOf rows name := by
            rw [induction]
            split_ifs with known
            · rfl
            · exact (membersOf_eq_nil fun member => known ⟨filled, member⟩).symm
          simp only [same, before, contains_membersOf_new, if_true, filled, ne_eq,
            not_false_eq_true, or_true, and_self, Bool.false_eq_true, if_false]
        · rw [if_neg (Ne.symm same), if_neg same]
          simp [same]

theorem resolve?_sorted {rows : List Row} {name : String} {ids : List NodeTypeId}
    (resolved : (ungrouped rows).registry.resolve? name = some ids) : ids.Pairwise (· < ·) := by
  rw [Registry.resolve?] at resolved
  split_ifs at resolved
  split at resolved
  · cases resolved
    exact List.pairwise_singleton _ _
  · change (groupsOf rows).lookup name = some ids at resolved
    rw [lookup_groupsOf] at resolved
    split_ifs at resolved
    cases resolved
    exact membersOf_sorted rows name

/-- The number that a node type of some rows has when they come in another order. -/
def renumbered (rows others : List Row) : NodeTypeId → NodeTypeId
  | 0 => 0
  | place + 1 =>
      match rows[place]? with
      | some row => others.idxOf row + 1
      | none => place + 1

namespace Reorders

variable {rows others : List Row} (reorders : Reorders rows others) (readable : Readable rows)

include reorders

theorem length_eq : others.length = rows.length :=
  reorders.perm.length_eq

theorem parsers_eq : others.map (·.parser) = rows.map (·.parser) := by
  have same : List.Forall₂ (· = ·) (others.map (·.parser)) (rows.map (·.parser)) := by
    rw [List.forall₂_map_left_iff, List.forall₂_map_right_iff]
    exact (reorders.steady.imp fun _ _ steady => steady.parser).flip
  rwa [List.forall₂_eq_eq_eq] at same

/-- Every row has a place in the other order. -/
theorem exists_place {place : Nat} {row : Row} (found : rows[place]? = some row) :
    ∃ place' : Nat, others[place']? = some row :=
  List.mem_iff_getElem?.mp (reorders.perm.mem_iff.mpr (List.mem_of_getElem? found))

include readable

theorem nodup : others.Nodup :=
  (readable.of_perm reorders.perm).distinct.of_map

/-- The new number of a node type tells the new place of its row. -/
theorem renumbered_eq {place place' : Nat} {row : Row} (found : rows[place]? = some row)
    (found' : others[place']? = some row) : renumbered rows others (place + 1) = place' + 1 := by
  obtain ⟨inside, same⟩ := List.getElem?_eq_some_iff.mp found'
  have nodup := reorders.nodup readable
  rw [renumbered]
  simp only [found]
  rw [← same, nodup.idxOf_getElem place' inside]

omit reorders readable in
theorem renumbered_of_none {place : Nat} (absent : rows[place]? = none) :
    renumbered rows others (place + 1) = place + 1 := by
  rw [renumbered]
  simp only [absent]

/-- Rows with token patterns keep their numbers. -/
theorem renumbered_of_token {place : Nat} {row : Row} (found : rows[place]? = some row)
    (token : row.isParserRow = false) : renumbered rows others (place + 1) = place + 1 := by
  obtain ⟨inside, same⟩ := List.getElem?_eq_some_iff.mp found
  have inside' : place < others.length := reorders.length_eq ▸ inside
  have kept := (reorders.steady.get inside inside').token
  apply reorders.renumbered_eq readable found
  rw [List.getElem?_eq_getElem inside']
  apply congrArg some
  simp only [List.get_eq_getElem, same] at kept
  exact kept token

/-- The numbers are found again when the rows go back. -/
theorem renumbered_renumbered (id : NodeTypeId) :
    renumbered others rows (renumbered rows others id) = id := by
  have readable' := readable.of_perm reorders.perm
  cases id with
  | zero => rfl
  | succ place =>
      cases found : rows[place]? with
      | none =>
          rw [renumbered_of_none found, renumbered_of_none]
          rw [List.getElem?_eq_none_iff] at found ⊢
          rwa [reorders.length_eq]
      | some row =>
          obtain ⟨place', found'⟩ := reorders.exists_place found
          rw [reorders.renumbered_eq readable found found',
            reorders.symm.renumbered_eq readable' found' found]

theorem renumbered_injective : Function.Injective (renumbered rows others) :=
  Function.LeftInverse.injective (reorders.renumbered_renumbered readable)

theorem names_renumbered (id : NodeTypeId) :
    (ungrouped others).registry.names[renumbered rows others id]? =
      (ungrouped rows).registry.names[id]? := by
  cases id with
  | zero => rfl
  | succ place =>
      have names (list : List Row) (place : Nat) :
          (ungrouped list).registry.names[place + 1]? = (list[place]?).map (·.nodeType) := by
        simp [ungrouped]
      cases found : rows[place]? with
      | none =>
          have absent : others[place]? = none := by
            rw [List.getElem?_eq_none_iff] at found ⊢
            rwa [reorders.length_eq]
          rw [renumbered_of_none found, names, names, found, absent]
      | some row =>
          obtain ⟨place', found'⟩ := reorders.exists_place found
          rw [reorders.renumbered_eq readable found found', names, names, found, found']

theorem name_renumbered (id : NodeTypeId) :
    (ungrouped others).registry.name (renumbered rows others id) =
      (ungrouped rows).registry.name id := by
  rw [Registry.name, Registry.name, reorders.names_renumbered readable]

/-! ## Names -/

omit reorders readable in
theorem id?_eq_some_iff (readable : Readable rows) {name : String} {id : NodeTypeId} :
    (ungrouped rows).registry.id? name = some id ↔
      (ungrouped rows).registry.names[id]? = some name := by
  have distinct : (unrecognizedName :: rows.map (·.nodeType)).Nodup := by
    refine List.nodup_cons.mpr ⟨?_, readable.distinct⟩
    intro inside
    obtain ⟨row, member, same⟩ := List.mem_map.mp inside
    exact (Registry.ne_of_isValidName (readable.each row member).named).2 same
  exact Registry.id?_eq_some_iff distinct

theorem id?_renumbered (name : String) :
    (ungrouped others).registry.id? name =
      ((ungrouped rows).registry.id? name).map (renumbered rows others) := by
  have readable' := readable.of_perm reorders.perm
  cases found : (ungrouped rows).registry.id? name with
  | some id =>
      rw [Option.map_some, id?_eq_some_iff readable', reorders.names_renumbered readable]
      exact (id?_eq_some_iff readable).mp found
  | none =>
      rw [Option.map_none, Registry.id?_eq_none_iff]
      rw [Registry.id?_eq_none_iff] at found
      have names (list : List Row) : (ungrouped list).registry.names.toList =
          unrecognizedName :: list.map (·.nodeType) := rfl
      rw [names] at found ⊢
      rwa [((reorders.perm.map _).cons _).mem_iff]

theorem membersOf_renumbered (name : String) :
    SameTypes (renumbered rows others) (membersOf rows name) (membersOf others name) := by
  intro id
  rw [List.mem_map, mem_membersOf]
  constructor
  · intro ⟨row, place', found', grouped, equal⟩
    obtain ⟨place, found⟩ := reorders.symm.exists_place found'
    refine ⟨place + 1, mem_membersOf.mpr ⟨row, place, found, grouped, rfl⟩, ?_⟩
    rw [reorders.renumbered_eq readable found found', equal]
  · intro ⟨_, member, equal⟩
    obtain ⟨row, place, found, grouped, rfl⟩ := mem_membersOf.mp member
    obtain ⟨place', found'⟩ := reorders.exists_place found
    rw [reorders.renumbered_eq readable found found'] at equal
    exact ⟨row, place', found', grouped, equal.symm⟩

/-- Every name stands for the same types in both orders. -/
theorem sameNames :
    SameNames (renumbered rows others) (ungrouped rows).registry (ungrouped others).registry := by
  intro name
  rw [Registry.resolve?, Registry.resolve?, reorders.id?_renumbered readable]
  split_ifs
  · exact .none
  · cases (ungrouped rows).registry.id? name with
    | some id => exact .some fun other => by simp
    | none =>
        have named : (∃ row ∈ others, row.group = name) ↔ ∃ row ∈ rows, row.group = name := by
          simp only [reorders.perm.mem_iff]
        change Option.Rel _ ((groupsOf rows).lookup name) ((groupsOf others).lookup name)
        rw [lookup_groupsOf, lookup_groupsOf]
        simp only [named]
        split_ifs
        · exact .some (reorders.membersOf_renumbered readable name)
        · exact .none

/-! ## Rules -/

theorem tokenRules_eq : (ungrouped others).tokenRules = (ungrouped rows).tokenRules := by
  have readable' := readable.of_perm reorders.perm
  have alike : List.Forall₂ (fun row other : Row => ∀ place, other.tokenRule? place =
      row.tokenRule? place) rows others := by
    apply List.forall₂_iff_get.mpr
    refine ⟨reorders.length_eq.symm, ?_⟩
    intro place inside inside' index
    have steady := reorders.steady.get inside inside'
    have one := (readable.each _ (List.get_mem rows ⟨place, inside⟩)).onePattern
    have one' := (readable'.each _ (List.get_mem others ⟨place, inside'⟩)).onePattern
    cases production : (rows.get ⟨place, inside⟩).isParserRow with
    | false => rw [steady.token production]
    | true =>
        rw [production] at one
        rw [steady.production, production] at one'
        rw [Row.tokenRule?, Row.tokenRule?, one, one']
        rfl
  have rules : List.Forall₂ (· = ·) (ungrouped rows).tokenRules.toList
      (ungrouped others).tokenRules.toList := by
    refine List.rel_filterMap ?_ (forall₂_zipIdx alike 0)
    rintro ⟨row, place⟩ ⟨other, place'⟩ ⟨same, equal⟩
    cases equal
    change Option.Rel _ (row.tokenRule? place) (other.tokenRule? place)
    rw [same place]
    cases row.tokenRule? place with
    | none => exact .none
    | some rule => exact .some rfl
  rw [List.forall₂_eq_eq_eq] at rules
  exact (Array.toList_inj.mp rules).symm

omit readable in
theorem parserRules_size_eq :
    (ungrouped others).parserRules.size = (ungrouped rows).parserRules.size := by
  have rules : List.Forall₂ (fun _ _ => True) (ungrouped rows).parserRules.toList
      (ungrouped others).parserRules.toList := by
    refine List.rel_filterMap ?_ (forall₂_zipIdx reorders.steady 0)
    rintro ⟨row, place⟩ ⟨other, place'⟩ ⟨same, _⟩
    change Option.Rel _ (row.parserRule? place) (other.parserRule? place')
    rw [Row.parserRule?, Row.parserRule?, same.production]
    split_ifs
    · exact .some trivial
    · exact .none
  rw [← Array.length_toList, ← Array.length_toList]
  exact rules.length_eq.symm

/-- Token types keep their numbers. -/
theorem renumbered_of_tokenRule {rule : TokenRule}
    (member : rule ∈ (ungrouped rows).tokenRules.toList) :
    renumbered rows others rule.nodeType = rule.nodeType := by
  obtain ⟨row, place, found, made⟩ := mem_tokenRules.mp member
  have one := (readable.each row (List.mem_of_getElem? found)).onePattern
  rw [Row.tokenRule?] at made
  split_ifs at made with token
  cases made
  apply reorders.renumbered_of_token readable found
  rw [token] at one
  simpa using one.symm

/-! ## Roles -/

omit reorders readable in
theorem mem_parsedTypes {list : List Row} {id : NodeTypeId} :
    id ∈ (ungrouped list).parsedTypes ↔
      ∃ row ∈ list, row.isParserRow = true ∧
        ∃ name ∈ SymbolPattern.referencedNames row.parsePattern,
          id ∈ ((ungrouped list).registry.resolve? name).getD [] := by
  simp only [parsedTypes, List.mem_flatMap]
  constructor
  · intro ⟨rule, member, name, inside, resolved⟩
    obtain ⟨row, found, production, made⟩ := exists_row member
    rw [made] at inside
    exact ⟨row, List.mem_of_getElem? found, production, name, inside, resolved⟩
  · intro ⟨row, member, production, name, inside, resolved⟩
    obtain ⟨place, found⟩ := List.mem_iff_getElem?.mp member
    have made : row.parserRule? place = some ⟨place + 1, row.parser, row.parsePattern,
        row.delegate?, row.precedence, place⟩ := by simp [Row.parserRule?, production]
    exact ⟨_, mem_parserRules.mpr ⟨row, place, found, made⟩, name, inside, resolved⟩

theorem resolved_renumbered (name : String) :
    SameTypes (renumbered rows others) (((ungrouped rows).registry.resolve? name).getD [])
      (((ungrouped others).registry.resolve? name).getD []) := by
  have related := reorders.sameNames readable name
  generalize (ungrouped rows).registry.resolve? name = ids at related ⊢
  generalize (ungrouped others).registry.resolve? name = ids' at related ⊢
  cases related with
  | none => exact fun id => by simp
  | some same => exact same

theorem parsedTypes_renumbered :
    SameTypes (renumbered rows others) (ungrouped rows).parsedTypes
      (ungrouped others).parsedTypes := by
  intro id
  have resolved (name : String) := reorders.resolved_renumbered readable name id
  simp only [List.mem_map] at resolved
  rw [mem_parsedTypes, List.mem_map]
  simp only [reorders.perm.mem_iff, resolved, mem_parsedTypes]
  constructor
  · intro ⟨row, member, production, name, inside, other, known, equal⟩
    exact ⟨other, ⟨row, member, production, name, inside, known⟩, equal⟩
  · intro ⟨other, ⟨row, member, production, name, inside, known⟩, equal⟩
    exact ⟨row, member, production, name, inside, other, known, equal⟩

theorem fragmentTypes_renumbered :
    SameTypes (renumbered rows others) (ungrouped rows).fragmentTypes
      (ungrouped others).fragmentTypes := by
  have injective := reorders.renumbered_injective readable
  intro id
  have resolved (name : String) := reorders.resolved_renumbered readable name id
  simp only [List.mem_map] at resolved
  simp only [fragmentTypes, wordTargets, reorders.tokenRules_eq readable, List.mem_map,
    List.mem_flatMap, List.mem_filter, resolved, bne_iff_ne]
  constructor
  · rintro ⟨rule, member, ⟨word, inside, other, known, equal⟩, apart⟩
    refine ⟨other, ⟨rule, member, ⟨word, inside, known⟩, ?_⟩, equal⟩
    intro same
    apply apart
    rw [← equal, same, reorders.renumbered_of_tokenRule readable member]
  · rintro ⟨other, ⟨rule, member, ⟨word, inside, known⟩, apart⟩, equal⟩
    refine ⟨rule, member, ⟨word, inside, other, known, equal⟩, ?_⟩
    intro same
    apply apart
    apply injective
    rw [equal, same, reorders.renumbered_of_tokenRule readable member]

omit reorders readable in
/-- A type that keeps its number is in both lists or in none. -/
theorem contains_eq {types : NodeTypeId → NodeTypeId} (injective : Function.Injective types)
    {ids others : List NodeTypeId} (same : SameTypes types ids others) {id : NodeTypeId}
    (fixed : types id = id) : others.contains id = ids.contains id := by
  rw [Bool.eq_iff_iff, List.contains_iff_mem, List.contains_iff_mem, same id]
  conv_lhs => rw [← fixed]
  exact List.mem_map_of_injective injective

theorem roleIn_eq {rule : TokenRule} (member : rule ∈ (ungrouped rows).tokenRules.toList) :
    roleIn others rule = roleIn rows rule := by
  have injective := reorders.renumbered_injective readable
  have fixed := reorders.renumbered_of_tokenRule readable member
  rw [roleIn, roleIn, roleOf, roleOf,
    contains_eq injective (reorders.parsedTypes_renumbered readable) fixed,
    contains_eq injective (reorders.fragmentTypes_renumbered readable) fixed]

theorem tokenTypesOf_eq (parser : String) :
    tokenTypesOf others parser = tokenTypesOf rows parser := by
  rw [tokenTypesOf, tokenTypesOf, reorders.tokenRules_eq readable]
  apply congrArg (List.map TokenRule.nodeType)
  apply List.filter_congr
  intro rule member
  rw [reorders.roleIn_eq readable member]

theorem unusedOf_eq : unusedOf others = unusedOf rows := by
  rw [unusedOf, unusedOf, reorders.tokenRules_eq readable]
  apply congrArg (List.map TokenRule.nodeType)
  apply List.filter_congr
  intro rule member
  rw [reorders.roleIn_eq readable member]

/-- The same token types are suppressed. -/
theorem suppressed_eq (groups groups' : String → List PrecedenceGroup) :
    (arranged others groups').suppressed = (arranged rows groups).suppressed := by
  have empty : (ungrouped others).parserRules.isEmpty = (ungrouped rows).parserRules.isEmpty := by
    rw [Array.isEmpty, Array.isEmpty, reorders.parserRules_size_eq]
  simp only [arranged, empty, reorders.unusedOf_eq readable]

end Reorders

end Grammar

end RowGrammar
