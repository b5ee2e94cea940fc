import RowGrammar.Proofs.Session
import RowGrammar.Proofs.Token.Strictness
import RowGrammar.Proofs.Tokenization

/-!
# Parses of texts

A text is parsed in a session of its own, so the first nodes are the leaves of its tokens and a
parse is the reduction of their symbols.
-/

namespace RowGrammar

open NodeTable

namespace Session

/-- The leaf that stands for a token. -/
def leafOf (token : Token) : Node :=
  ⟨token.nodeType, .text token.text⟩

/-- Each token that is not suppressed adds its leaf. -/
theorem addPieces_grows (grammar : Grammar) (index : Nat) (pieces : List Piece)
    (session : Session) :
    session.nodes.Grows
      (((addPieces grammar index pieces session).1.filter Token.isSignificant).map leafOf)
      (addPieces grammar index pieces session).2.nodes := by
  induction pieces generalizing index session with
  | nil => exact .refl _
  | cons piece pieces induction =>
      rw [addPieces_cons]
      cases suppressed : grammar.isSuppressed piece.nodeType with
      | true =>
          have unchanged : session.addPiece grammar piece = (none, session) := by
            simp [addPiece, suppressed]
          rw [unchanged]
          exact induction (index + 1) session
      | false =>
          have pushed : session.addPiece grammar piece = (some session.nodes.size,
              ⟨session.nodes.push ⟨piece.nodeType, .text piece.text⟩⟩) := by
            simp [addPiece, suppressed]
          rw [pushed]
          exact (Grows.push _ _).trans (induction (index + 1) _)

end Session

namespace Engine

/-- A parse of a text is a reduction of the symbols of its tokens. -/
theorem parse_eq_ok_iff {engine : Engine} {text : String} {options : ParseOptions}
    {report : ParseReport} :
    engine.parse text options = .ok report ↔
      ∃ tokens session final,
        engine.tokenizeIn .start text ⟨options.parser, options.strict⟩ = (.ok tokens, session) ∧
        (engine.reduction options).parse (options.parser.getD engine.grammar.mainParser)
          (tokens.filterMap Token.symbol?) (.start session.nodes) = .ok report final := by
  unfold parse
  generalize engine.tokenizeIn .start text ⟨options.parser, options.strict⟩ = tokenized
  obtain ⟨result, session⟩ := tokenized
  cases result with
  | error error => simp
  | ok tokens =>
      simp only [parseIn_eq, Prod.mk.injEq, Except.ok.injEq, exists_and_left, and_assoc,
        exists_eq_left']
      cases (engine.reduction options).parse (options.parser.getD engine.grammar.mainParser)
          (tokens.filterMap Token.symbol?) (.start session.nodes) with
      | error error final => simp
      | ok result final => simp

/-- Tokenizing succeeds when scanning does, and then turns the pieces into tokens. -/
theorem tokenizeIn_eq_ok_iff {engine : Engine} {session after : Session} {text : String}
    {options : TokenizeOptions} {tokens : List Token} :
    engine.tokenizeIn session text options = (.ok tokens, after) ↔
      (engine.scanned text options).failure = none ∧
        session.addPieces engine.grammar 0 (engine.scanned text options).pieces =
          (tokens, after) := by
  rw [tokenizeIn_eq]
  cases (engine.scanned text options).failure with
  | some error => simp
  | none =>
      generalize session.addPieces engine.grammar 0 (engine.scanned text options).pieces = added
      obtain ⟨made, final⟩ := added
      simp

/-- Tokens are of the types of the tokenizers, or unrecognized outside of strict mode. -/
theorem known_of_tokenized {engine : Engine} {session after : Session} {text : String}
    {options : TokenizeOptions} {tokens : List Token} {known : NodeTypeId → Prop}
    (blank : options.strict = false → known unrecognized)
    (typed : ∀ tokenizer ∈ engine.tokenizers, ∀ alternative ∈ tokenizer.alternatives,
      known alternative.nodeType)
    (tokenized : engine.tokenizeIn session text options = (.ok tokens, after)) :
    ∀ token ∈ tokens, known token.nodeType := by
  have within : (engine.scanned text options).Within known :=
    @ScanContext.scanWith_within (engine.scanning options.strict) known blank typed _ _ _ _
  obtain ⟨_, added⟩ := tokenizeIn_eq_ok_iff.mp tokenized
  obtain ⟨pieces, _⟩ := Session.addPieces_tokens _ _ _ _ added
  intro token member
  have piece : (⟨token.nodeType, token.text⟩ : Piece) ∈ (engine.scanned text options).pieces := by
    rw [← pieces]
    exact List.mem_map_of_mem member
  exact within _ piece

/-- A session of one text has the leaves of its tokens. -/
theorem nodes_of_tokenized {engine : Engine} {text : String} {options : TokenizeOptions}
    {tokens : List Token} {session : Session}
    (tokenized : engine.tokenizeIn .start text options = (.ok tokens, session)) :
    session.nodes.nodes.toList = (tokens.filter Token.isSignificant).map Session.leafOf ∧
      ∀ token ∈ tokens, session.Holds token := by
  obtain ⟨_, added⟩ := tokenizeIn_eq_ok_iff.mp tokenized
  have pieces := Session.addPieces_grows engine.grammar 0 (engine.scanned text options).pieces
    .start
  have held := (Session.addPieces_holds engine.grammar 0 (engine.scanned text options).pieces
    .start).2
  rw [added] at pieces held
  exact ⟨pieces, held⟩

/-- What is on a node of such a session. -/
theorem exists_token_of_tokenized {engine : Engine} {text : String} {options : TokenizeOptions}
    {tokens : List Token} {session : Session}
    (tokenized : engine.tokenizeIn .start text options = (.ok tokens, session)) {id : NodeId}
    {node : Node} (got : session.nodes.get? id = some node) :
    ∃ token ∈ tokens, token.isSignificant ∧ node = Session.leafOf token := by
  obtain ⟨nodes, _⟩ := nodes_of_tokenized tokenized
  rw [NodeTable.get?, ← Array.getElem?_toList, nodes] at got
  obtain ⟨token, member, rfl⟩ := List.mem_map.mp (List.mem_of_getElem? got)
  obtain ⟨inside, significant⟩ := List.mem_filter.mp member
  exact ⟨token, inside, significant, rfl⟩

end Engine

end RowGrammar
