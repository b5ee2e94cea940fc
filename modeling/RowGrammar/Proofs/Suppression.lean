import RowGrammar.Proofs.Compiled
import RowGrammar.Proofs.SymbolPattern.References

/-!
# Suppressed tokens

A loaded grammar suppresses the tokens that no pattern seems to need.  What a parse pattern needs is
decided by its text before any pattern is compiled; the compiled patterns bear it out.
-/

namespace RowGrammar

namespace Grammar

theorem reached_addRow {grammar after : Grammar} {row : Row} (reached : grammar.registry.Reached)
    (added : grammar.addRow row = .ok after) : after.registry.Reached := by
  obtain ⟨⟨id, registered⟩, registers, rest⟩ := bind_eq_ok_iff.mp added
  have kept : after.registry = registered.registry := by
    dsimp only at rest
    split at rest
    · cases rest
    · cases rest
    · cases rest
      rfl
    · by_cases escaped : row.parsePattern.toList.contains '\\'
      · rw [if_pos escaped] at rest
        cases rest
      · rw [if_neg escaped] at rest
        cases rest
        rfl
  rw [kept]
  rw [register_eq] at registers
  obtain ⟨⟨id, first⟩, named, registers⟩ := bind_eq_ok_iff.mp registers
  obtain ⟨second, joined, registers⟩ := bind_eq_ok_iff.mp registers
  obtain ⟨third, primed, made⟩ := bind_eq_ok_iff.mp registers
  cases made
  have one : first.Reached := reached.register named
  have two : second.Reached := by
    rw [Registry.join] at joined
    split_ifs at joined
    · cases joined
      exact one
    · exact one.addToGroup joined
  rw [Registry.prime] at primed
  split_ifs at primed
  · cases primed
    exact two
  · exact two.setPrimitive primed

theorem reached_foldlM {rows : List Row} {grammar after : Grammar}
    (reached : grammar.registry.Reached) (read : rows.foldlM addRow grammar = .ok after) :
    after.registry.Reached := by
  induction rows generalizing grammar with
  | nil =>
      cases read
      exact reached
  | cons row rows induction =>
      rw [List.foldlM_cons, bind_eq_ok_iff] at read
      obtain ⟨next, added, rest⟩ := read
      exact induction (reached_addRow reached added) rest

theorem reached_ungrouped {rows : List Row} (readable : Readable rows) :
    (ungrouped rows).registry.Reached := by
  have read : rows.foldlM addRow .empty = .ok (ungrouped rows) :=
    foldlM_addRow_eq_ok_iff.mpr ⟨readable, rfl⟩
  exact reached_foldlM .empty read

/-- The pattern of another token rule refers to a node type. -/
def IsFragment (grammar : Grammar) (id : NodeTypeId) : Prop :=
  ∃ rule ∈ grammar.tokenRules, rule.nodeType ≠ id ∧
    ∃ word ∈ TokenPattern.words rule.pattern,
      ∃ ids, grammar.registry.resolve? word.text = some ids ∧ id ∈ ids

theorem mem_getD_nil {found : Option (List NodeTypeId)} {id : NodeTypeId} :
    id ∈ found.getD [] ↔ ∃ ids, found = some ids ∧ id ∈ ids := by
  cases found <;> simp

theorem mem_fragmentTypes {grammar : Grammar} {id : NodeTypeId} :
    id ∈ grammar.fragmentTypes ↔ grammar.IsFragment id := by
  simp only [fragmentTypes, wordTargets, IsFragment, List.mem_flatMap, List.mem_filter,
    Array.mem_toList_iff, bne_iff_ne, mem_getD_nil]
  refine exists_congr fun rule => and_congr_right fun _ => ?_
  rw [and_comm, ne_comm]

theorem mem_parsedTypes {grammar : Grammar} {id : NodeTypeId} :
    id ∈ grammar.parsedTypes ↔ ∃ rule ∈ grammar.parserRules.toList,
      ∃ name ∈ SymbolPattern.referencedNames rule.pattern,
        ∃ ids, grammar.registry.resolve? name = some ids ∧ id ∈ ids := by
  simp only [parsedTypes, List.mem_flatMap, mem_getD_nil]

theorem roleOf_eq_unused_iff {parsed fragments : List NodeTypeId} {rule : TokenRule} :
    roleOf parsed fragments rule = .unused ↔
      rule.nodeType ∉ parsed ∧ rule.subparser = none ∧ rule.nodeType ∉ fragments := by
  unfold roleOf
  split_ifs with used fragment
  · simp only [false_iff]
    rintro ⟨apart, direct, _⟩
    simp [apart, direct] at used
  · simp_all
  · simp_all

/-- Token rules have different node types. -/
theorem tokenRule_inj {rows : List Row} {rule other : TokenRule}
    (listed : rule ∈ (ungrouped rows).tokenRules.toList)
    (listed' : other ∈ (ungrouped rows).tokenRules.toList) (same : rule.nodeType = other.nodeType) :
    rule = other := by
  obtain ⟨row, place, here, made⟩ := mem_tokenRules.mp listed
  obtain ⟨row', place', here', made'⟩ := mem_tokenRules.mp listed'
  have numbered {row : Row} {place : Nat} {rule : TokenRule}
      (made : row.tokenRule? place = some rule) : rule.nodeType = place + 1 := by
    rw [Row.tokenRule?] at made
    split_ifs at made
    cases made
    rfl
  rw [numbered made, numbered made', Nat.add_right_cancel_iff] at same
  subst same
  cases here.symm.trans here'
  exact Option.some.inj (made.symm.trans made')

theorem mem_unusedOf {rows : List Row} {rule : TokenRule}
    (listed : rule ∈ (ungrouped rows).tokenRules.toList) :
    rule.nodeType ∈ unusedOf rows ↔ rule.nodeType ∉ (ungrouped rows).parsedTypes ∧
      rule.subparser = none ∧ ¬(ungrouped rows).IsFragment rule.nodeType := by
  rw [← mem_fragmentTypes, ← roleOf_eq_unused_iff, unusedOf, List.mem_map]
  constructor
  · rintro ⟨other, member, same⟩
    obtain ⟨listed', unused⟩ := List.mem_filter.mp member
    cases tokenRule_inj listed' listed same
    exact of_decide_eq_true unused
  · intro unused
    exact ⟨rule, List.mem_filter.mpr ⟨listed, decide_eq_true unused⟩, rfl⟩

end Grammar

namespace Engine

open SymbolPattern

section

variable {engine : Engine} (compiled : engine.Compiled)

include compiled

theorem Compiled.reached : engine.grammar.registry.Reached := by
  obtain ⟨rows, groups, arranges, same, _⟩ := compiled.exists_arranged
  rw [same]
  exact Grammar.reached_ungrouped arranges.readable

/-- The node types in compiled patterns are those that the parse patterns refer to. -/
theorem Compiled.mem_parsedTypes {id : NodeTypeId} :
    id ∈ engine.grammar.parsedTypes ↔ ∃ pattern ∈ engine.patterns, id ∈ pattern.members := by
  have each := compiled.forall₂_patterns.imp fun rule pattern accepted =>
    (compile_references compiled.reached.named accepted).2 id
  rw [Grammar.mem_parsedTypes]
  constructor
  · rintro ⟨rule, listed, referenced⟩
    obtain ⟨pattern, member, speaks⟩ := exists_of_forall₂ each listed
    exact ⟨pattern, Array.mem_toList_iff.mp member, speaks.mpr referenced⟩
  · rintro ⟨pattern, member, inside⟩
    obtain ⟨rule, listed, speaks⟩ :=
      exists_of_forall₂ each.flip (Array.mem_toList_iff.mpr member)
    exact ⟨rule, listed, speaks.mp inside⟩

theorem Compiled.mem_unused_iff {rule : TokenRule} (listed : rule ∈ engine.grammar.tokenRules) :
    rule.nodeType ∈ engine.grammar.unused ↔
      (∀ pattern ∈ engine.patterns, rule.nodeType ∉ pattern.members) ∧
        rule.subparser = none ∧ ¬engine.grammar.IsFragment rule.nodeType := by
  have parsed : rule.nodeType ∉ engine.grammar.parsedTypes ↔
      ∀ pattern ∈ engine.patterns, rule.nodeType ∉ pattern.members := by
    rw [compiled.mem_parsedTypes]
    simp only [not_exists, not_and]
  rw [← parsed]
  obtain ⟨rows, groups, _, same, _⟩ := compiled.exists_arranged
  rw [same] at listed ⊢
  exact Grammar.mem_unusedOf (Array.mem_toList_iff.mpr listed)

theorem Compiled.exists_tokenRule {id : NodeTypeId} (unused : id ∈ engine.grammar.unused) :
    ∃ rule ∈ engine.grammar.tokenRules, rule.nodeType = id := by
  obtain ⟨rows, groups, _, same, _⟩ := compiled.exists_arranged
  rw [same] at unused ⊢
  obtain ⟨rule, member, found⟩ := List.mem_map.mp unused
  exact ⟨rule, Array.mem_toList_iff.mp (List.mem_filter.mp member).1, found⟩

theorem Compiled.unused_of_suppressed {id : NodeTypeId}
    (suppressed : id ∈ engine.grammar.suppressed) : id ∈ engine.grammar.unused := by
  obtain ⟨rows, groups, _, same, _⟩ := compiled.exists_arranged
  rw [same] at suppressed ⊢
  change id ∈ if (Grammar.ungrouped rows).parserRules.isEmpty then [] else Grammar.unusedOf rows
    at suppressed
  split_ifs at suppressed
  · cases suppressed
  · exact suppressed

end

/-- The scan for names in a parse pattern finds exactly the names that are resolved when the pattern
is compiled, and these stand for exactly the node types in the compiled pattern.  So a token type is
unused when no compiled pattern has it, no sub-parser reads its tokens and no other token pattern
refers to it, and nothing that is suppressed is needed by a compiled pattern. -/
theorem references_agree :
    (∀ registry : Registry, registry.Reached → ∀ nodeType pattern compiled,
      compile registry nodeType pattern = .ok compiled →
        referencedNames pattern = scanNames [] pattern.toList ∧
        (∀ names, (∃ stop, Resolves registry nodeType .start (lexemesFrom 0 pattern.toList)
          names stop) ↔ names = referencedNames pattern) ∧
        ∀ id, id ∈ compiled.members ↔ ∃ name ∈ referencedNames pattern,
          ∃ ids, registry.resolve? name = some ids ∧ id ∈ ids) ∧
    ∀ engine : Engine, engine.Compiled →
      engine.grammar.registry.Reached ∧
      (∀ id ∈ engine.grammar.unused, ∃ rule ∈ engine.grammar.tokenRules, rule.nodeType = id) ∧
      (∀ rule ∈ engine.grammar.tokenRules, rule.nodeType ∈ engine.grammar.unused ↔
        (∀ pattern ∈ engine.patterns, rule.nodeType ∉ pattern.members) ∧
          rule.subparser = none ∧ ¬engine.grammar.IsFragment rule.nodeType) ∧
      ∀ id ∈ engine.grammar.suppressed, ∀ pattern ∈ engine.patterns, id ∉ pattern.members := by
  constructor
  · intro registry reached nodeType pattern compiled accepted
    obtain ⟨⟨stop, resolves⟩, speaks⟩ := compile_references reached.named accepted
    refine ⟨referencedNames_eq pattern, fun names => ⟨?_, ?_⟩, speaks⟩
    · rintro ⟨other, resolves'⟩
      exact resolves'.unique resolves
    · rintro rfl
      exact ⟨stop, resolves⟩
  · intro engine compiled
    refine ⟨compiled.reached, fun _ => compiled.exists_tokenRule,
      fun _ => compiled.mem_unused_iff, ?_⟩
    intro id suppressed
    have unused := compiled.unused_of_suppressed suppressed
    obtain ⟨rule, listed, rfl⟩ := compiled.exists_tokenRule unused
    exact ((compiled.mem_unused_iff listed).mp unused).1

/-- Dashes that nothing refers to, digits for numbers only, and words that a group stands for. -/
def scantRows : List Row := [
  .token "main" "Num" "Digit+",
  .token "main" "Digit" "[0-9]",
  .token "main" "Dash" "-+",
  { Row.token "main" "Word" "[a-z]+" with group := "Atom" },
  .production "main" "Pair" "([Num Atom]\x7b2\x7d?) (?! Word )" "1"]

def scantEngine : Engine :=
  ((ofRows scantRows).toOption).get (by decide +kernel)

/-- The dashes are suppressed and the pattern does without them; the digits are not, though it does
without them as well. -/
theorem references_scant :
    (∃ stop, Resolves scantEngine.grammar.registry "Pair" .start
      (lexemesFrom 0 "([Num Atom]\x7b2\x7d?) (?! Word )".toList) ["Num", "Atom", "Word"] stop) ∧
    scantEngine.grammar.suppressed = [3] ∧
    (∀ pattern ∈ scantEngine.patterns, 3 ∉ pattern.members ∧ 2 ∉ pattern.members) ∧
    scantEngine.grammar.IsFragment 2 := by
  have made : Engine.Compiled scantEngine := .ofRows (eq_ok_get (by decide +kernel))
  obtain ⟨reached, _, unused, needless⟩ := references_agree.2 scantEngine made
  have suppressed : scantEngine.grammar.suppressed = [3] := by decide +kernel
  have free : ∀ pattern ∈ scantEngine.patterns, 2 ∉ pattern.members := by decide +kernel
  have compiled : compile scantEngine.grammar.registry "Pair"
      "([Num Atom]\x7b2\x7d?) (?! Word )" = .ok _ := eq_ok_get (by decide +kernel)
  have resolves := (references_agree.1 _ reached _ _ _ compiled).2.1 ["Num", "Atom", "Word"]
  refine ⟨resolves.mpr (by decide +kernel), suppressed, fun pattern member => ⟨?_, ?_⟩, ?_⟩
  · exact needless 3 (by simp [suppressed]) pattern member
  · exact free pattern member
  · have listed : (⟨2, "main", "[0-9]", none⟩ : TokenRule) ∈ scantEngine.grammar.tokenRules := by
      decide +kernel
    by_contra apart
    have absent : 2 ∉ scantEngine.grammar.unused := by decide +kernel
    exact absent ((unused _ listed).mpr ⟨free, rfl, apart⟩)

end Engine

end RowGrammar
