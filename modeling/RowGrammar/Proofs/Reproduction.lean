import RowGrammar.Proofs.Parsing
import RowGrammar.Proofs.Reduction.Undisturbed

/-!
# Reproduced parses

A text that is parsed into an expected tree below the node limit, with everything recognized, is
parsed into this tree in any case: without a limit, with nothing expected, and in strict mode.
-/

namespace RowGrammar

open NodeTable ReductionContext

namespace Tree

theorem sizeList_map_leaf {α : Type} (nodeType text : α → String) (items : List α) :
    sizeList (items.map fun item => .leaf (nodeType item) (text item)) = items.length := by
  induction items with
  | nil => rfl
  | cons item items induction =>
      rw [List.map_cons, sizeList, induction, size, List.length_cons, Nat.add_comm]

end Tree

namespace Session

/-- A token of a type that is not suppressed has a node. -/
theorem addPieces_significant (grammar : Grammar) (index : Nat) (pieces : List Piece)
    (session : Session) :
    ∀ token ∈ (addPieces grammar index pieces session).1,
      grammar.isSuppressed token.nodeType = false → token.isSignificant := by
  induction pieces generalizing index session with
  | nil => simp [addPieces]
  | cons piece pieces induction =>
      rw [addPieces_cons]
      intro token member significant
      rcases List.mem_cons.mp member with rfl | later
      · have pushed : (session.addPiece grammar piece).1 = some session.nodes.size := by
          rw [addPiece, if_neg (Bool.eq_false_iff.mp significant)]
        rw [Token.isSignificant, pushed]
        rfl
      · exact induction _ _ token later significant

end Session

namespace Engine

/-- Nothing is recognized as the type of what nothing else describes. -/
theorem Compiled.name_unrecognized {engine : Engine} (compiled : engine.Compiled) :
    engine.grammar.registry.name unrecognized = unrecognizedName ∧
      engine.grammar.isSuppressed unrecognized = false := by
  obtain ⟨rows, groups, _, same, _⟩ := compiled.exists_arranged
  rw [same]
  refine ⟨rfl, ?_⟩
  apply Bool.eq_false_iff.mpr
  intro suppressed
  have member : unrecognized ∈ (Grammar.arranged rows groups).suppressed :=
    List.contains_iff_mem.mp suppressed
  have unused : unrecognized ∈ Grammar.unusedOf rows := by
    simp only [Grammar.arranged] at member
    split at member
    · cases member
    · exact member
  obtain ⟨rule, listed, zero⟩ := List.mem_map.mp unused
  obtain ⟨row, place, _, made⟩ := Grammar.mem_tokenRules.mp (List.mem_filter.mp listed).1
  rw [Row.tokenRule?] at made
  split at made
  · cases made
    cases zero
  · cases made

/-- Where all tokens are recognized, strict mode finds the same ones.  Tokens that strict mode finds
are found outside of it anyway. -/
theorem tokenizeIn_strict {engine : Engine} {text : String} {options : TokenizeOptions}
    {tokens : List Token} {session : Session}
    (tokenized : engine.tokenizeIn .start text options = (.ok tokens, session)) {strict : Bool}
    (recognized : strict = true → ∀ token ∈ tokens, token.nodeType ≠ unrecognized) :
    engine.tokenizeIn .start text { options with strict } = (.ok tokens, session) := by
  obtain ⟨succeeds, added⟩ := tokenizeIn_eq_ok_iff.mp tokenized
  obtain ⟨pieces, _⟩ := Session.addPieces_tokens _ _ _ _ added
  have clear : (engine.scanned text options).Clear strict := by
    refine ⟨succeeds, ?_⟩
    intro strictly piece member
    rw [← pieces] at member
    obtain ⟨token, inside, rfl⟩ := List.mem_map.mp member
    exact recognized strictly token inside
  have same : engine.scanned text { options with strict } = engine.scanned text options :=
    @ScanContext.scanWith_eq (engine.scanning options.strict) (engine.scanning strict) rfl _ _ _ _
      clear
  rw [tokenizeIn_eq_ok_iff, same]
  exact ⟨succeeds, added⟩

/-- The leaf of a token that has a node is part of what is built over the leaves. -/
theorem exists_subtree_of_token {registry : Registry} {tokens : List Token} {types : List String}
    {tree : Tree} (builds : Tree.Builds ((tokens.filter Token.isSignificant).map fun token =>
      .leaf (registry.name token.nodeType) token.text) types [tree]) {token : Token}
    (member : token ∈ tokens) (significant : token.isSignificant) :
    ∃ subtree ∈ tree.subtrees, subtree.nodeType = registry.name token.nodeType := by
  refine ⟨.leaf (registry.name token.nodeType) token.text, ?_, rfl⟩
  have listed : Tree.leaf (registry.name token.nodeType) token.text ∈
      (tokens.filter Token.isSignificant).map fun token =>
        .leaf (registry.name token.nodeType) token.text :=
    List.mem_map_of_mem (List.mem_filter.mpr ⟨member, significant⟩)
  have part := builds.subtreesList_subset
    (Tree.subtrees_subset_subtreesList listed (Tree.mem_subtrees_self _))
  simpa only [Tree.subtreesList, List.append_nil] using part

/-- The nodes of a parse are the nodes of its tree. -/
theorem parse_nodes {engine : Engine} {text : String} {options : TokenizeOptions}
    {tokens : List Token} {session : Session}
    (tokenized : engine.tokenizeIn .start text options = (.ok tokens, session))
    {context : ReductionContext} (same : context.grammar = engine.grammar) {parser : String}
    {report : ParseReport} {final : ReductionState}
    (parsed : context.parse parser (tokens.filterMap Token.symbol?) (.start session.nodes) =
      .ok report final) :
    final.nodes.size = report.tree.size ∧
      (∀ token ∈ tokens, token.isSignificant → ∃ subtree ∈ report.tree.subtrees,
        subtree.nodeType = engine.grammar.registry.name token.nodeType) ∧
      ∀ {id : NodeId} {node : Node}, final.nodes.get? id = some node →
        ∃ subtree ∈ report.tree.subtrees,
          subtree.nodeType = engine.grammar.registry.name node.nodeType := by
  obtain ⟨nodes, held⟩ := nodes_of_tokenized tokenized
  have shown := Session.showsAll_tokens held context.grammar.registry
  obtain ⟨⟨added, grows, builds⟩, below⟩ := context.parse_encloses shown parsed
  have whole : Tree.subtreesList [report.tree] = report.tree.subtrees := by
    rw [Tree.subtreesList, Tree.subtreesList, List.append_nil]
  rw [whole] at below
  have leaves (token : Token) (member : token ∈ tokens) (significant : token.isSignificant) :
      ∃ subtree ∈ report.tree.subtrees,
        subtree.nodeType = engine.grammar.registry.name token.nodeType := by
    rw [← same]
    exact exists_subtree_of_token builds member significant
  refine ⟨?_, leaves, ?_⟩
  · have sizes := builds.sizeList_eq
    have count : session.nodes.size = (tokens.filter Token.isSignificant).length := by
      have lengths := congrArg List.length nodes
      rwa [List.length_map] at lengths
    rw [Tree.sizeList_map_leaf, List.length_map, ← count, Tree.sizeList, Tree.sizeList] at sizes
    exact grows.size_eq.trans sizes.symm
  · intro id node got
    by_cases early : id < session.nodes.size
    · have first : session.nodes.get? id = some session.nodes.nodes[id] :=
        Array.getElem?_eq_getElem early
      obtain ⟨token, member, significant, leaf⟩ := exists_token_of_tokenized tokenized first
      have kept := got.symm.trans (grows.get? (first.trans (congrArg some leaf)))
      cases kept
      exact leaves token member significant
    · have inside : id < final.nodes.size := (Array.getElem?_eq_some_iff.mp got).1
      obtain ⟨subtree, part, found⟩ := below id (Nat.le_of_not_lt early) inside
      have shows_ : final.nodes.Shows context.grammar.registry ⟨node.nodeType, id⟩ subtree :=
        ⟨by rw [got]; rfl, found⟩
      exact ⟨subtree, part, by rw [shows_.nodeType_eq, same]⟩

/-- Where the tree of a parse has nothing unrecognized, neither nodes nor tokens are. -/
theorem Compiled.recognized_of_tree {engine : Engine} (compiled : engine.Compiled) {text : String}
    {options : ParseOptions} {tokens : List Token} {session : Session}
    (tokenized : engine.tokenizeIn .start text ⟨options.parser, options.strict⟩ =
      (.ok tokens, session)) {parser : String} {report : ParseReport} {final : ReductionState}
    (parsed : (engine.reduction options).parse parser (tokens.filterMap Token.symbol?)
      (.start session.nodes) = .ok report final)
    (recognized : ∀ subtree ∈ report.tree.subtrees, subtree.nodeType ≠ unrecognizedName) :
    (∀ {id : NodeId} {node : Node}, final.nodes.get? id = some node →
      node.nodeType ≠ unrecognized) ∧ ∀ token ∈ tokens, token.nodeType ≠ unrecognized := by
  obtain ⟨unnamed, unsuppressed⟩ := compiled.name_unrecognized
  obtain ⟨_, leaves, nodes⟩ := parse_nodes tokenized rfl parsed
  constructor
  · intro id node got unknown
    obtain ⟨subtree, part, named⟩ := nodes got
    rw [unknown, unnamed] at named
    exact recognized subtree part named
  · intro token member unknown
    obtain ⟨_, added⟩ := tokenizeIn_eq_ok_iff.mp tokenized
    have significant : token.isSignificant := by
      apply Session.addPieces_significant engine.grammar 0
        (engine.scanned text ⟨options.parser, options.strict⟩).pieces .start
      · rwa [added]
      · rwa [unknown]
    obtain ⟨subtree, part, named⟩ := leaves token member significant
    rw [unknown, unnamed] at named
    exact recognized subtree part named

/-- A parse that finds its expected tree below the node limit is reproduced without either, strict
or not. -/
theorem Compiled.parse_reproduced {engine : Engine} (compiled : engine.Compiled) {text : String}
    {limit : Nat} {expected : Tree} {report : ParseReport}
    (parsed : engine.parse text { maxNodes := some limit, expected := some expected } = .ok report)
    (agreed : report.divergence = none) (found : report.tree = expected)
    (below : expected.size < limit)
    (recognized : ∀ subtree ∈ expected.subtrees, subtree.nodeType ≠ unrecognizedName)
    (strict : Bool) :
    ∃ plain, engine.parse text { strict } = .ok plain ∧ plain.tree = expected := by
  subst found
  obtain ⟨tokens, session, final, tokenized, reduced⟩ := parse_eq_ok_iff.mp parsed
  obtain ⟨_, held⟩ := nodes_of_tokenized tokenized
  obtain ⟨size, _⟩ := parse_nodes tokenized rfl reduced
  obtain ⟨nodes, known⟩ := compiled.recognized_of_tree tokenized reduced recognized
  have calm : final.Undisturbed strict := by
    refine ⟨parse_running reduced agreed ?_, (parse_report reduced).divergence.symm.trans agreed,
      fun _ _ _ => nodes⟩
    rintro _ ⟨⟩
    rwa [size]
  obtain ⟨plain, _, reduced', _, same⟩ := (tolerates_unlimited rfl strict).parse_eq_ok
    (Session.showsAll_tokens held _) reduced calm
  exact ⟨plain, parse_eq_ok_iff.mpr ⟨_, _, _, tokenizeIn_strict tokenized fun _ => known, reduced'⟩,
    same⟩

end Engine

end RowGrammar
