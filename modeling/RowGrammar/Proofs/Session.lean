import RowGrammar.Proofs.Compiled
import RowGrammar.Proofs.Reduction.Growth
import RowGrammar.Proofs.Reduction.Totality

/-!
# Sessions

A session is reached by tokenizing texts and parsing tokens of its own, in any order.  All along,
the node of a token stays a leaf with the type and the text of the token.  So a parse turns tokens
into a tree whose leaves are these tokens, and outside of strict mode it always does.
-/

namespace RowGrammar

open NodeTable

/-- The sessions of an engine, each with all the tokens that were made in it. -/
inductive Session.Reached (engine : Engine) : Session → List Token → Prop where
  | start : Reached engine .start []
  | tokenized {session after : Session} {made tokens : List Token} {text : String}
      {options : TokenizeOptions} :
      Reached engine session made →
      engine.tokenizeIn session text options = (.ok tokens, after) →
      Reached engine after (made ++ tokens)
  | rejected {session after : Session} {made : List Token} {text : String}
      {options : TokenizeOptions} {error : TokenizeError} :
      Reached engine session made →
      engine.tokenizeIn session text options = (.error error, after) →
      Reached engine after made
  | parsed {session after : Session} {made tokens : List Token} {options : ParseOptions}
      {result : Except ParseError ParseReport} :
      Reached engine session made → tokens ⊆ made →
      engine.parseIn session tokens options = (result, after) →
      Reached engine after made

/-- How an engine reduces under some options. -/
def Engine.reduction (engine : Engine) (options : ParseOptions) : ReductionContext := {
  grammar := engine.grammar
  patterns := engine.patterns
  strict := options.strict
  maxNodes := options.maxNodes
  expected := options.expected.map Tree.subtrees }

/-- What an engine finds in a text under some options. -/
def Engine.scanned (engine : Engine) (text : String) (options : TokenizeOptions) : Scanned :=
  (ScanContext.mk engine.grammar.registry engine.tokenizers options.strict).scan
    (options.parser.getD engine.grammar.mainParser) text

theorem Engine.tokenizeIn_eq (engine : Engine) (session : Session) (text : String)
    (options : TokenizeOptions) :
    engine.tokenizeIn session text options =
      (match (engine.scanned text options).failure with
        | some error => .error error
        | none => .ok (session.addPieces engine.grammar 0 (engine.scanned text options).pieces).1,
        (session.addPieces engine.grammar 0 (engine.scanned text options).pieces).2) := by
  change (match (engine.scanned text options).failure with
    | some error => _
    | none => _) = _
  cases (engine.scanned text options).failure with
  | none => rfl
  | some error => rfl

theorem Engine.parseIn_eq (engine : Engine) (session : Session) (tokens : List Token)
    (options : ParseOptions) :
    engine.parseIn session tokens options =
      match (engine.reduction options).parse (options.parser.getD engine.grammar.mainParser)
        (tokens.filterMap Token.symbol?) (.start session.nodes) with
      | .ok report state => (.ok report, ⟨state.nodes⟩)
      | .error error state => (.error error, ⟨state.nodes⟩) := rfl

namespace Session

/-- The node of a token, if it has one, is a leaf with its type and its text. -/
def Holds (session : Session) (token : Token) : Prop :=
  ∀ node, token.node = some node →
    session.nodes.get? node = some ⟨token.nodeType, .text token.text⟩

theorem Holds.mono {session after : Session} {token : Token} {added : List Node}
    (holds : session.Holds token) (grows : session.nodes.Grows added after.nodes) :
    after.Holds token :=
  fun node has => grows.get? (holds node has)

theorem addPieces_cons (grammar : Grammar) (index : Nat) (piece : Piece) (pieces : List Piece)
    (session : Session) :
    addPieces grammar index (piece :: pieces) session =
      (⟨piece.nodeType, piece.text, index, (session.addPiece grammar piece).1⟩ ::
          (addPieces grammar (index + 1) pieces (session.addPiece grammar piece).2).1,
        (addPieces grammar (index + 1) pieces (session.addPiece grammar piece).2).2) := rfl

/-- New tokens get the nodes that are added for them. -/
theorem addPieces_holds (grammar : Grammar) (index : Nat) (pieces : List Piece)
    (session : Session) :
    (∃ added, session.nodes.Grows added (addPieces grammar index pieces session).2.nodes) ∧
      ∀ token ∈ (addPieces grammar index pieces session).1,
        (addPieces grammar index pieces session).2.Holds token := by
  induction pieces generalizing index session with
  | nil => exact ⟨⟨[], .refl _⟩, by simp [addPieces]⟩
  | cons piece pieces induction =>
      rw [addPieces_cons]
      obtain ⟨⟨added, grows⟩, held⟩ := induction (index + 1) (session.addPiece grammar piece).2
      cases suppressed : grammar.isSuppressed piece.nodeType with
      | true =>
          have unchanged : session.addPiece grammar piece = (none, session) := by
            simp [addPiece, suppressed]
          rw [unchanged] at grows held ⊢
          refine ⟨⟨added, grows⟩, ?_⟩
          intro token member
          rcases List.mem_cons.mp member with rfl | later
          · exact fun node has => by cases has
          · exact held token later
      | false =>
          have pushed : session.addPiece grammar piece = (some session.nodes.size,
              ⟨session.nodes.push ⟨piece.nodeType, .text piece.text⟩⟩) := by
            simp [addPiece, suppressed]
          rw [pushed] at grows held ⊢
          refine ⟨⟨_, (Grows.push _ _).trans grows⟩, ?_⟩
          intro token member
          rcases List.mem_cons.mp member with rfl | later
          · intro node has
            cases has
            exact grows.get? (get?_push_size _ _)
          · exact held token later

theorem parseIn_grows (engine : Engine) (session : Session) (tokens : List Token)
    (options : ParseOptions) :
    ∃ added, session.nodes.Grows added (engine.parseIn session tokens options).2.nodes := by
  have keeps := (engine.reduction options).parse_keeps
    (options.parser.getD engine.grammar.mainParser) (tokens.filterMap Token.symbol?)
    (.start session.nodes)
  obtain ⟨added, grows⟩ := keeps
  refine ⟨added, ?_⟩
  rw [Engine.parseIn_eq]
  split
  · rename_i same
    rw [same] at grows
    exact grows
  · rename_i same
    rw [same] at grows
    exact grows

/-- A session keeps the tokens that were made in it. -/
theorem Reached.holds {engine : Engine} {session : Session} {made : List Token}
    (reached : Reached engine session made) : ∀ token ∈ made, session.Holds token := by
  induction reached with
  | start => simp
  | @tokenized session after made tokens text options _ ran induction =>
      obtain ⟨⟨added, grows⟩, held⟩ := addPieces_holds engine.grammar 0
        (engine.scanned text options).pieces session
      rw [Engine.tokenizeIn_eq, Prod.mk.injEq] at ran
      obtain ⟨results, rfl⟩ := ran
      split at results
      · cases results
      cases results
      intro token member
      rcases List.mem_append.mp member with before | new
      · exact (induction token before).mono grows
      · exact held token new
  | @rejected session after made text options error _ ran induction =>
      obtain ⟨⟨added, grows⟩, _⟩ := addPieces_holds engine.grammar 0
        (engine.scanned text options).pieces session
      rw [Engine.tokenizeIn_eq, Prod.mk.injEq] at ran
      obtain ⟨_, rfl⟩ := ran
      exact fun token member => (induction token member).mono grows
  | @parsed session after made tokens options result _ _ ran induction =>
      obtain ⟨added, grows⟩ := parseIn_grows engine session tokens options
      rw [ran] at grows
      exact fun token member => (induction token member).mono grows

/-- A token with a node is a symbol to be reduced. -/
theorem symbols_ne_nil {tokens : List Token} (significant : ∃ token ∈ tokens, token.isSignificant) :
    tokens.filterMap Token.symbol? ≠ [] := by
  obtain ⟨token, member, has⟩ := significant
  obtain ⟨node, given⟩ := Option.isSome_iff_exists.mp has
  intro empty
  have symbol : token.symbol? = some ⟨token.nodeType, node⟩ := by simp [Token.symbol?, given]
  have inside := List.mem_filterMap.mpr ⟨token, member, symbol⟩
  rw [empty] at inside
  cases inside

/-- The symbols of tokens show the leaves that the tokens are. -/
theorem showsAll_tokens {session : Session} {tokens : List Token}
    (held : ∀ token ∈ tokens, session.Holds token) (registry : Registry) :
    session.nodes.ShowsAll registry (tokens.filterMap Token.symbol?)
      ((tokens.filter Token.isSignificant).map fun token =>
        .leaf (registry.name token.nodeType) token.text) := by
  induction tokens with
  | nil => exact .nil
  | cons token tokens induction =>
      have others := induction fun other member => held other (List.mem_cons_of_mem _ member)
      cases has : token.node with
      | none => simpa [Token.symbol?, Token.isSignificant, has] using others
      | some node =>
          have leaf := held token List.mem_cons_self node has
          have shown : session.nodes.Shows registry ⟨token.nodeType, node⟩
              (.leaf (registry.name token.nodeType) token.text) := by
            refine ⟨by rw [leaf]; rfl, ?_⟩
            simp [tree?, treeWithin, leaf]
          simpa [Token.symbol?, Token.isSignificant, has, ShowsAll] using
            And.intro shown others

end Session

namespace Engine

open Grammar

/-- Parsing tokens of a session.  Outside of strict mode and without endless delegation it always
succeeds, and the tree of every success consists of the tokens that have nodes. -/
theorem parseIn_total_lossless {engine : Engine} (compiled : engine.Compiled)
    {session : Session} {made tokens : List Token} (reached : session.Reached engine made)
    (own : tokens ⊆ made) (significant : ∃ token ∈ tokens, token.isSignificant)
    (options : ParseOptions)
    (known : (engine.grammar.parser?
      (options.parser.getD engine.grammar.mainParser)).isSome) :
    (options.strict = false → engine.grammar.DelegationEnds →
      ∃ report, (engine.parseIn session tokens options).1 = .ok report) ∧
    (∀ report, (engine.parseIn session tokens options).1 = .ok report →
      report.tree.leaves = (tokens.filter Token.isSignificant).map (fun token =>
        (engine.grammar.registry.name token.nodeType, token.text)) ∧
      report.tree.Filled) ∧
    (∀ table ∈ engine.grammar.parsers, ∀ group ∈ table.groups, ∀ id ∈ group.rules,
      ∃ rule pattern, engine.grammar.parserRules[id]? = some rule ∧
        engine.patterns[id]? = some pattern) := by
  obtain ⟨rows, groups, arranges, same, _⟩ := compiled.exists_arranged
  have shown : (ReductionState.start session.nodes).nodes.ShowsAll
      (engine.reduction options).grammar.registry _ _ :=
    Session.showsAll_tokens (fun token member => reached.holds token (own member)) _
  have nonempty := Session.symbols_ne_nil significant
  refine ⟨?_, ?_, ?_⟩
  · intro lenient ends
    obtain ⟨report, final, parsed⟩ :=
      (engine.reduction options).parse_total arranges same lenient ends known nonempty shown
    exact ⟨report, by rw [parseIn_eq, parsed]⟩
  · intro report reported
    rw [parseIn_eq] at reported
    split at reported
    · rename_i parsed
      cases reported
      obtain ⟨_, _, builds⟩ := (engine.reduction options).parse_extends shown parsed
      constructor
      · have leaves := builds.leavesList_eq
        rw [Tree.leavesList_map_leaf] at leaves
        simpa [Tree.leavesList, Engine.reduction] using leaves
      · refine builds.filled ?_ report.tree (by simp)
        intro leaf member
        obtain ⟨token, _, rfl⟩ := List.mem_map.mp member
        exact Tree.filled_leaf _ _
    · cases reported
  · intro table listed group member id inside
    exact compiled.exists_pattern listed member inside

/-- A parser that has each letter reduced by another one before it makes a node of its own. -/
def nestedRows : List Row := [
  .token "outer" "Letter" "a",
  { Row.production "outer" "Outer" "Letter" "1" with subparser := "inner" },
  .production "inner" "Inner" "Letter" "1"]

def nestedEngine : Engine :=
  ((ofRows nestedRows).toOption).get (by decide +kernel)

theorem ofRows_nestedRows : ofRows nestedRows = .ok nestedEngine :=
  eq_ok_get _

/-- Only the outer parser delegates, and only to the inner one. -/
theorem nestedEngine_delegationEnds : nestedEngine.grammar.DelegationEnds := by
  have rules : ∀ rule ∈ nestedEngine.grammar.parserRules.toList,
      rule.subparser = none ∨ rule.parser = "outer" ∧ rule.subparser = some "inner" := by
    decide +kernel
  have step {parser other : String} (delegates : nestedEngine.grammar.Delegates parser other) :
      parser = "outer" ∧ other = "inner" := by
    obtain ⟨rule, member, rfl, delegation⟩ := delegates
    rcases rules rule member with none_ | ⟨outer, inner⟩
    · rw [none_] at delegation
      cases delegation
    · rw [inner] at delegation
      cases delegation
      exact ⟨outer, rfl⟩
  intro parser cycle
  have ends : parser = "outer" ∧ parser = "inner" := by
    obtain ⟨other, first, _⟩ := Relation.TransGen.head'_iff.mp cycle
    obtain ⟨other', _, last⟩ := Relation.TransGen.tail'_iff.mp cycle
    exact ⟨(step first).1, (step last).2⟩
  exact absurd (ends.1.symm.trans ends.2) (by decide)

theorem parseIn_nested :
    ∃ report, (nestedEngine.parseIn (nestedEngine.tokenizeIn .start "aa" {}).2
        [⟨1, "a", 0, some 0⟩, ⟨1, "a", 1, some 1⟩] {}).1 = .ok report ∧
      report.tree.leaves = [("Letter", "a"), ("Letter", "a")] := by
  have made : (nestedEngine.tokenizeIn .start "aa" {}).1 =
      .ok [⟨1, "a", 0, some 0⟩, ⟨1, "a", 1, some 1⟩] := by decide +kernel
  have all := parseIn_total_lossless (.ofRows ofRows_nestedRows)
    (.tokenized .start (Prod.ext made rfl)) (List.Subset.refl _) ⟨_, List.mem_cons_self, rfl⟩ {}
    (by decide +kernel)
  obtain ⟨report, parsed⟩ := all.1 rfl nestedEngine_delegationEnds
  exact ⟨report, parsed, (all.2.1 report parsed).1.trans (by decide +kernel)⟩

end Engine

end RowGrammar
