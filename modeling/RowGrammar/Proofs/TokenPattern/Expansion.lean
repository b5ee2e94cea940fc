import RowGrammar.Proofs.Suppression

/-!
# Expanded token patterns

The token patterns of a loaded grammar expand exactly when their references lead to token types
only and never in a circle.  Each then expands to its full substitution without the layout, and
otherwise a reported cycle is one.
-/

namespace RowGrammar

open Grammar

namespace TokenPattern

/-- Every word of a token pattern that stands for something stands for token types. -/
def Resolved (grammar : Grammar) : Prop :=
  ∀ rule ∈ grammar.tokenRules, ∀ word ∈ words rule.pattern, ∀ targets,
    grammar.registry.resolve? word.text = some targets →
      ∀ target ∈ targets, (grammar.tokenRule? target).isSome

/-- Each type in a list refers to the next one, and the last one is the first one. -/
structure IsCycle (grammar : Grammar) (ids : List NodeTypeId) : Prop where
  several : 2 ≤ ids.length
  closed : ids.head? = ids.getLast?
  refers : ids.IsChain (References grammar)

variable {grammar : Grammar}

/-- In a loaded grammar a token rule is found by its node type. -/
theorem tokenRule?_nodeType {rows : List Row} (loaded : load rows = .ok grammar)
    {rule : TokenRule} (listed : rule ∈ grammar.tokenRules) :
    grammar.tokenRule? rule.nodeType = some rule := by
  obtain ⟨groups, _, rfl⟩ := load_arranges loaded
  obtain ⟨other, found⟩ := Option.isSome_iff_exists.mp (tokenRule?_isSome listed)
  have typed : other.nodeType = rule.nodeType := by simpa using Array.find?_some found
  rw [found, tokenRule_inj (Array.mem_toList_iff.mpr (Array.mem_of_find?_eq_some found))
    (Array.mem_toList_iff.mpr listed) typed]

/-- Expanding the token patterns of a loaded grammar succeeds exactly when their references lead to
token types and never in a circle; it gives the full substitutions without layout; and what it
reports as a cycle is one. -/
theorem expandAll_exact {rows : List Row} (loaded : load rows = .ok grammar) :
    ((∃ table, expandAll grammar = .ok table) ↔ Resolved grammar ∧ Acyclic grammar) ∧
    (∀ table, expandAll grammar = .ok table →
      List.Forall₂ (fun rule entry => entry.1 = rule.nodeType ∧
        ∃ full, Substituted grammar rule.nodeType full ∧ entry.2 = strip full)
        grammar.tokenRules.toList table) ∧
    ∀ names, expandAll grammar = .error (.expansionCycle names) →
      ∃ ids, names = ids.map grammar.registry.name ∧ IsCycle grammar ids := by
  refine ⟨⟨?_, ?_⟩, fun table => expanded_of_expandAll, ?_⟩
  · rintro ⟨table, expands⟩
    have each (rule : TokenRule) (listed : rule ∈ grammar.tokenRules) :
        ∃ full, Substituted grammar rule.nodeType full := by
      obtain ⟨_, _, _, full, substituted, _⟩ := exists_of_forall₂ (expanded_of_expandAll expands)
        (Array.mem_toList_iff.mpr listed)
      exact ⟨full, substituted⟩
    constructor
    · intro rule listed word inside targets resolved target member
      obtain ⟨full, substituted⟩ := each rule listed
      obtain ⟨_, inner⟩ := substituted.exists_target
        ⟨rule, word, targets, tokenRule?_nodeType loaded listed, inside, resolved, member⟩
      exact inner.tokenRule?_isSome
    · intro id cycle
      obtain ⟨next, ⟨rule, _, _, found, _⟩, _⟩ := Relation.TransGen.head'_iff.mp cycle
      have typed : rule.nodeType = id := by simpa using Array.find?_some found
      obtain ⟨full, substituted⟩ := each rule (Array.mem_of_find?_eq_some found)
      exact (typed ▸ substituted).not_transGen cycle
  · rintro ⟨resolved, acyclic⟩
    cases result : expandAll grammar with
    | ok table => exact ⟨table, rfl⟩
    | error error =>
        cases blames_of_expandAll result with
        | cycle chain => exact absurd (transGen_of_isChain chain) (acyclic _)
        | unresolved refers absent =>
            obtain ⟨rule, word, targets, found, inside, stands, member⟩ := refers
            have known := Array.mem_of_find?_eq_some found
            have token := resolved rule known word inside targets stands _ member
            rw [absent] at token
            cases token
  · intro names fails
    cases blames_of_expandAll fails with
    | @cycle first rest chain =>
        refine ⟨_, rfl, ?_, ?_, chain⟩
        · simp
        · simp [List.getLast?_cons]

/-- Numbers with a sign, which two rules refer to. -/
def signedRows : List Row := [
  { Row.token "main" "PLUS" "\\+" with group := "SIGN" },
  { Row.token "main" "MINUS" "-" with group := "SIGN" },
  .token "main" "NUMBER" "SIGN? \\d +",
  .token "main" "PAIR" "NUMBER , NUMBER"]

/-- Two token types that refer to each other. -/
def circularRows : List Row := [
  .token "main" "ODD" "x EVEN",
  .token "main" "EVEN" "y ODD | z"]

theorem expandAll_signed :
    (∃ grammar, load signedRows = .ok grammar ∧ Resolved grammar ∧ Acyclic grammar ∧
      expandAll grammar = .ok [(1, "\\+"), (2, "-"), (3, "(?:\\+|-)?\\d+"),
        (4, "(?:(?:\\+|-)?\\d+),(?:(?:\\+|-)?\\d+)")]) ∧
    ∃ grammar, load circularRows = .ok grammar ∧
      expandAll grammar = .error (.expansionCycle ["ODD", "EVEN", "ODD"]) ∧
      ∃ ids, ["ODD", "EVEN", "ODD"] = ids.map grammar.registry.name ∧ IsCycle grammar ids := by
  have signed : load signedRows = .ok _ := eq_ok_get (by decide +kernel)
  have circular : load circularRows = .ok _ := eq_ok_get (by decide +kernel)
  have expands : expandAll ((load signedRows).toOption.get (by decide +kernel)) =
      .ok [(1, "\\+"), (2, "-"), (3, "(?:\\+|-)?\\d+"),
        (4, "(?:(?:\\+|-)?\\d+),(?:(?:\\+|-)?\\d+)")] := by decide +kernel
  have fails : expandAll ((load circularRows).toOption.get (by decide +kernel)) =
      .error (.expansionCycle ["ODD", "EVEN", "ODD"]) := by decide +kernel
  obtain ⟨resolved, acyclic⟩ := (expandAll_exact signed).1.mp ⟨_, expands⟩
  exact ⟨⟨_, signed, resolved, acyclic, expands⟩, _, circular, fails,
    (expandAll_exact circular).2.2 _ fails⟩

end TokenPattern

end RowGrammar
