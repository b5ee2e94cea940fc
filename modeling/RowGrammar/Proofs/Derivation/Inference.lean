import RowGrammar.Derivation.Derive
import RowGrammar.Proofs.Parsing

/-!
# Types of an example

Every node type of an example gets a row, and a row must have a proper name to be loaded.  So no
part of an example for which a grammar is derived goes by the name of what is unrecognized.
-/

namespace RowGrammar

open RowGrammar.Text

namespace Tree

mutual

theorem mem_leaves_of_mem_subtrees {nodeType text : String} :
    (tree : Tree) → .leaf nodeType text ∈ tree.subtrees → (nodeType, text) ∈ tree.leaves
  | .leaf .., member => by
      rw [subtrees, List.mem_singleton] at member
      cases member
      exact List.mem_singleton_self _
  | .branch _ children, member => by
      rw [subtrees, List.mem_cons] at member
      rcases member with same | inside
      · cases same
      · rw [leaves]
        exact mem_leavesList_of_mem_subtreesList children inside

theorem mem_leavesList_of_mem_subtreesList {nodeType text : String} :
    (trees : List Tree) → .leaf nodeType text ∈ subtreesList trees →
      (nodeType, text) ∈ leavesList trees
  | [], member => by cases member
  | tree :: trees, member => by
      rw [subtreesList, List.mem_append] at member
      rw [leavesList, List.mem_append]
      rcases member with first | later
      · exact .inl (mem_leaves_of_mem_subtrees tree first)
      · exact .inr (mem_leavesList_of_mem_subtreesList trees later)

end

mutual

theorem mem_subtrees_of_mem_leaves {nodeType text : String} :
    (tree : Tree) → (nodeType, text) ∈ tree.leaves → .leaf nodeType text ∈ tree.subtrees
  | .leaf .., member => by
      rw [leaves, List.mem_singleton] at member
      cases member
      exact List.mem_singleton_self _
  | .branch _ children, member =>
      List.mem_cons_of_mem _ (mem_subtreesList_of_mem_leavesList children member)

theorem mem_subtreesList_of_mem_leavesList {nodeType text : String} :
    (trees : List Tree) → (nodeType, text) ∈ leavesList trees →
      .leaf nodeType text ∈ subtreesList trees
  | [], member => by cases member
  | tree :: trees, member => by
      rw [leavesList, List.mem_append] at member
      rw [subtreesList, List.mem_append]
      rcases member with first | later
      · exact .inl (mem_subtrees_of_mem_leaves tree first)
      · exact .inr (mem_subtreesList_of_mem_leavesList trees later)

end

end Tree

namespace Derivation

mutual

theorem exists_shape {nodeType : String} {children : List Tree} (left right : List String) :
    (tree : Tree) → .branch nodeType children ∈ tree.subtrees →
      ∃ shape ∈ shapesOf left right tree, shape.nodeType = nodeType
  | .leaf .., member => by
      rw [Tree.subtrees, List.mem_singleton] at member
      cases member
  | .branch other inner, member => by
      rw [Tree.subtrees, List.mem_cons] at member
      rw [shapesOf]
      rcases member with same | inside
      · cases same
        exact ⟨_, List.mem_append_right _ (List.mem_singleton_self _), rfl⟩
      · obtain ⟨shape, found, typed⟩ := exists_shape_of_list [] inner inside
        exact ⟨shape, List.mem_append_left _ found, typed⟩

theorem exists_shape_of_list {nodeType : String} {children : List Tree} (left : List String) :
    (trees : List Tree) → .branch nodeType children ∈ Tree.subtreesList trees →
      ∃ shape ∈ shapesOfList left trees, shape.nodeType = nodeType
  | [], member => by cases member
  | tree :: trees, member => by
      rw [Tree.subtreesList, List.mem_append] at member
      rw [shapesOfList]
      rcases member with first | later
      · obtain ⟨shape, found, typed⟩ := exists_shape left (trees.map Tree.nodeType) tree first
        exact ⟨shape, List.mem_append_left _ found, typed⟩
      · obtain ⟨shape, found, typed⟩ := exists_shape_of_list (tree.nodeType :: left) trees later
        exact ⟨shape, List.mem_append_right _ found, typed⟩

end

/-- Every branch type of an example gets a row. -/
theorem exists_parseRow {example_ : Tree} {nodeType : String} {children : List Tree}
    (member : .branch nodeType children ∈ example_.subtrees) (parser : String)
    (slots : List ContextSlot) (widths : List Nat) :
    ∃ row ∈ parseRows parser (.infer example_) slots widths,
      row.nodeType = nodeType ∧ row.parser = parser := by
  obtain ⟨shape, found, rfl⟩ := exists_shape [] [] example_ member
  have listed : shape.nodeType ∈ (ShapeInference.infer example_).order :=
    List.mem_eraseDups.mpr (List.mem_map_of_mem found)
  obtain ⟨place, inside⟩ := List.mem_iff_getElem?.mp listed
  have indexed : (shape.nodeType, place) ∈ (ShapeInference.infer example_).order.zipIdx :=
    List.mk_mem_zipIdx_iff_getElem?.mpr inside
  exact ⟨_, List.mem_map_of_mem indexed, rfl, rfl⟩

/-- The leaves of an example are located in their order. -/
theorem locateFrom_types {leaves : List (String × String)} {offset : Nat} {rest : List Char}
    {occurrences : List LeafOccurrence}
    (located : locateFrom offset rest leaves = .ok occurrences) :
    occurrences.map (·.nodeType) = leaves.map (·.1) := by
  induction leaves generalizing offset rest occurrences with
  | nil =>
      cases located
      rfl
  | cons leaf leaves induction =>
      obtain ⟨nodeType, text⟩ := leaf
      rw [locateFrom] at located
      split at located
      · cases located
      · simp only [bind_eq_ok_iff, pure_eq_ok_iff] at located
        obtain ⟨others, found, rfl⟩ := located
        rw [List.map_cons, List.map_cons, induction found]

/-- Every leaf type is that of a seed or gets a row. -/
theorem exists_tokenRow {leaves : List LeafOccurrence} {leaf : LeafOccurrence}
    (member : leaf ∈ leaves) (seeds : List Row) (example_ : Tree) (parser : String) :
    ∃ row ∈ seeds ++ (TokenInference.infer leaves seeds example_).rows parser,
      row.nodeType = leaf.nodeType := by
  by_cases seeded : leaf.nodeType ∈ seeds.map (·.nodeType)
  · obtain ⟨seed, found, typed⟩ := List.mem_map.mp seeded
    exact ⟨seed, List.mem_append_left _ found, typed⟩
  · have listed : leaf.nodeType ∈ ((leaves.map (·.nodeType)).filter fun name =>
        !(seeds.map (·.nodeType)).contains name).eraseDups := by
      apply List.mem_eraseDups.mpr
      apply List.mem_filter.mpr
      exact ⟨List.mem_map_of_mem member, by simpa using seeded⟩
    exact ⟨_, List.mem_append_right _ (List.mem_map_of_mem (List.mem_map_of_mem listed)), rfl⟩

/-- The inferred token patterns make a grammar that tokenizes the source. -/
theorem tokenizes_of_correct {inference tokens : TokenInference} {parser source : String}
    {leaves : List LeafOccurrence} {seeds : List Row}
    (corrected : inference.correct parser source leaves seeds = (none, tokens)) :
    ∃ engine found, Engine.ofRows (seeds ++ inference.rows parser) = .ok engine ∧
      engine.tokenize source {} = .ok found := by
  rw [TokenInference.correct, TokenInference.correctFrom, if_neg (by simp)] at corrected
  split at corrected
  · cases corrected
  · rename_i tokenized
    rw [TokenInference.tokenizeWith] at tokenized
    split at tokenized
    · cases tokenized
    · rename_i engine made
      split at tokenized
      · cases tokenized
      · rename_i found scanned
        exact ⟨engine, found, made, scanned⟩

/-! ## Names of rows -/

/-- Rows that are not blank have proper names. -/
theorem nodeType_ne_of_ofRows {rows : List Row} {engine : Engine}
    (made : Engine.ofRows rows = .ok engine) {row : Row} (member : row ∈ rows)
    (filled : row.isBlank = false) : row.nodeType ≠ unrecognizedName := by
  rw [Engine.ofRows, bind_eq_ok_iff] at made
  obtain ⟨grammar, loaded, _⟩ := made
  have readable := (Grammar.load_eq_ok_iff.mp loaded).1
  have cleaned : row.trimmed ∈ Grammar.cleaned rows :=
    List.mem_map_of_mem (List.mem_filter.mpr ⟨member, by rw [filled]; rfl⟩)
  intro unnamed
  have named : row.trimmed.nodeType = unrecognizedName := by
    change trim row.nodeType = unrecognizedName
    rw [unnamed]
    decide
  exact (Registry.ne_of_isValidName (readable.each _ cleaned).named).2 named

/-- Blank rows do not tokenize anything. -/
theorem exists_filled_of_tokenize {rows : List Row} {engine : Engine}
    (made : Engine.ofRows rows = .ok engine) {source : String} {tokens : List Token}
    (tokenized : engine.tokenize source {} = .ok tokens) : ∃ row ∈ rows, row.isBlank = false := by
  by_contra blank
  have none_ : Grammar.cleaned rows = [] := by
    rw [Grammar.cleaned, List.map_eq_nil_iff, List.filter_eq_nil_iff]
    intro row member filled
    exact blank ⟨row, member, by simpa using filled⟩
  rw [Engine.ofRows, bind_eq_ok_iff] at made
  obtain ⟨grammar, loaded, compiled⟩ := made
  obtain ⟨_, _, groups, _, same⟩ := Grammar.load_eq_ok_iff.mp loaded
  obtain ⟨_, _, tokenizers, _⟩ := Engine.ofGrammar_eq_ok_iff.mp compiled
  rw [same, none_] at tokenizers
  have empty : engine.tokenizers = [] := List.forall₂_nil_left_iff.mp tokenizers
  have failed : engine.scanned source {} = .fail (.unknownParser engine.grammar.mainParser) := by
    rw [Engine.scanned, ScanContext.scan, ScanContext.scanWith, empty]
    rfl
  have succeeds := (Engine.tokenizeIn_eq_ok_iff.mp (Prod.ext tokenized rfl)).1
  rw [failed] at succeeds
  cases succeeds

/-- The rows of one parser are all blank or none of them is. -/
theorem isBlank_eq_false {row other : Row} (same : row.parser = other.parser)
    (filled : other.isBlank = false) : row.isBlank = false := by
  rwa [Row.isBlank, same]

/-- Where token patterns are found and some candidate can be loaded, all types of the example have
proper names. -/
theorem recognized_of_inferTokens {parser source : String} {example_ : Tree} {seeds : List Row}
    {tokens : TokenInference} (inferred : inferTokens parser source example_ seeds = .ok tokens)
    (seeded : ∀ row ∈ seeds, row.parser = parser) {slots : List ContextSlot} {widths : List Nat}
    {engine : Engine}
    (made : Engine.ofRows (seeds ++ tokens.rows parser ++
      parseRows parser (.infer example_) slots widths) = .ok engine) :
    ∀ subtree ∈ example_.subtrees, subtree.nodeType ≠ unrecognizedName := by
  rw [inferTokens, bind_eq_ok_iff] at inferred
  obtain ⟨leaves, located, corrected⟩ := inferred
  split at corrected
  · cases corrected
  · rename_i corrects
    obtain ⟨first, found, loaded, tokenized⟩ := tokenizes_of_correct corrects
    have own (row : Row) (member : row ∈ seeds ++
        (TokenInference.infer leaves seeds example_).rows parser) : row.parser = parser := by
      rcases List.mem_append.mp member with seed | inferred
      · exact seeded row seed
      · obtain ⟨entry, _, rfl⟩ := List.mem_map.mp inferred
        rfl
    obtain ⟨other, listed, filled⟩ := exists_filled_of_tokenize loaded tokenized
    intro subtree part
    cases subtree with
    | leaf nodeType text =>
        have leaf : nodeType ∈ example_.leaves.map (·.1) :=
          List.mem_map.mpr ⟨_, Tree.mem_leaves_of_mem_subtrees example_ part, rfl⟩
        rw [← locateFrom_types located] at leaf
        obtain ⟨occurrence, member, typed⟩ := List.mem_map.mp leaf
        obtain ⟨row, inside, named⟩ := exists_tokenRow member seeds example_ parser
        have proper := nodeType_ne_of_ofRows loaded inside
          (isBlank_eq_false ((own row inside).trans (own other listed).symm) filled)
        rwa [named, typed] at proper
    | branch nodeType children =>
        obtain ⟨row, inside, rfl, parsed⟩ := exists_parseRow part parser slots widths
        exact nodeType_ne_of_ofRows made (List.mem_append_right _ inside)
          (isBlank_eq_false (parsed.trans (own other listed).symm) filled)

end Derivation

end RowGrammar
