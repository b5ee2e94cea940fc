import RowGrammar.Proofs.Parsing
import RowGrammar.Proofs.Reduction.Mirroring

/-!
# Relabeled engines

Two engines may differ in nothing but the numbers of their node types and rules, those of the token
types apart.  They find the same tokens in every text, and they parse it with the same result.
-/

namespace RowGrammar

open NodeTable

namespace Session

/-- Pieces become the same tokens where the same types are suppressed. -/
theorem addPieces_congr {grammar other : Grammar} (same : other.suppressed = grammar.suppressed)
    (index : Nat) (pieces : List Piece) (session : Session) :
    addPieces other index pieces session = addPieces grammar index pieces session := by
  have each (session : Session) (piece : Piece) :
      session.addPiece other piece = session.addPiece grammar piece := by
    have suppressed : other.isSuppressed piece.nodeType = grammar.isSuppressed piece.nodeType := by
      rw [Grammar.isSuppressed, Grammar.isSuppressed, same]
    rw [addPiece, addPiece, suppressed]
  induction pieces generalizing index session with
  | nil => rfl
  | cons piece pieces induction => rw [addPieces_cons, addPieces_cons, each, induction]

end Session

namespace Engine

/-- An engine that does the same with other numbers for some node types and for the rules. -/
structure Relabels (types : NodeTypeId → NodeTypeId) (rules : RuleId → RuleId)
    (engine other : Engine) : Prop where
  same : ∀ options, ReductionContext.SameRules types rules
    (engine.reduction options) (other.reduction options)
  mainParser : other.grammar.mainParser = engine.grammar.mainParser
  suppressed : other.grammar.suppressed = engine.grammar.suppressed
  tokenizers : other.tokenizers = engine.tokenizers
  /-- Token types keep their numbers. -/
  kept : ∀ tokenizer ∈ engine.tokenizers, ∀ alternative ∈ tokenizer.alternatives,
    types alternative.nodeType = alternative.nodeType

namespace Relabels

variable {types : NodeTypeId → NodeTypeId} {rules : RuleId → RuleId} {engine other : Engine}
  (relabels : engine.Relabels types rules other)

include relabels

theorem scanned_eq (text : String) (options : TokenizeOptions) :
    other.scanned text options = engine.scanned text options := by
  have names (tokenizer : Tokenizer) (member : tokenizer ∈ engine.tokenizers)
      (alternative : Alternative) (listed : alternative ∈ tokenizer.alternatives) :
      other.grammar.registry.name alternative.nodeType =
        engine.grammar.registry.name alternative.nodeType := by
    have named := (relabels.same {}).names alternative.nodeType
    rwa [relabels.kept tokenizer member alternative listed] at named
  have agree :
      (other.scanning options.strict).scanWith = (engine.scanning options.strict).scanWith :=
    funext (ScanContext.scanWith_congr rfl names relabels.tokenizers)
  change (other.scanning options.strict).scanWith _ _ _ _ =
    (engine.scanning options.strict).scanWith _ _ _ _
  rw [agree, relabels.mainParser]

/-- The same tokens are made in every session. -/
theorem tokenizeIn_eq (session : Session) (text : String) (options : TokenizeOptions) :
    other.tokenizeIn session text options = engine.tokenizeIn session text options := by
  rw [Engine.tokenizeIn_eq, Engine.tokenizeIn_eq, relabels.scanned_eq,
    Session.addPieces_congr relabels.suppressed]

theorem nodeType_eq {session after : Session} {text : String} {options : TokenizeOptions}
    {tokens : List Token}
    (tokenized : engine.tokenizeIn session text options = (.ok tokens, after)) :
    ∀ token ∈ tokens, types token.nodeType = token.nodeType := by
  have fixed : types unrecognized = unrecognized := (relabels.same {}).fixed
  exact @known_of_tokenized _ _ _ _ _ _ (fun id => types id = id) (fun _ => fixed) relabels.kept
    tokenized

/-- The symbols of tokens keep their numbers. -/
theorem symbols_eq {session after : Session} {text : String} {options : TokenizeOptions}
    {tokens : List Token}
    (tokenized : engine.tokenizeIn session text options = (.ok tokens, after)) :
    (tokens.filterMap Token.symbol?).map (Symbol.rename types) =
      tokens.filterMap Token.symbol? := by
  conv_rhs => rw [← List.map_id (tokens.filterMap Token.symbol?)]
  apply List.map_congr_left
  intro symbol member
  obtain ⟨token, inside, made⟩ := List.mem_filterMap.mp member
  obtain ⟨node, _, rfl⟩ := Option.map_eq_some_iff.mp made
  rw [Symbol.rename, relabels.nodeType_eq tokenized token inside]
  rfl

/-- So do the leaves of tokens. -/
theorem nodes_eq {session : Session} {text : String} {options : TokenizeOptions}
    {tokens : List Token}
    (tokenized : engine.tokenizeIn .start text options = (.ok tokens, session)) :
    session.nodes.rename types = session.nodes := by
  have leaves := (nodes_of_tokenized tokenized).1
  obtain ⟨⟨array⟩⟩ := session
  rw [NodeTable.rename, NodeTable.mk.injEq, ← Array.toList_inj, Array.toList_map]
  conv_rhs => rw [← List.map_id array.toList]
  apply List.map_congr_left
  intro node member
  rw [show array.toList = _ from leaves] at member
  obtain ⟨token, inside, rfl⟩ := List.mem_map.mp member
  rw [Node.rename, Session.leafOf,
    relabels.nodeType_eq tokenized token (List.mem_filter.mp inside).1]
  rfl

/-- Texts are parsed with the same result, apart from the numbers of rules. -/
theorem parse_eq (text : String) (options : ParseOptions) :
    other.parse text options = (engine.parse text options).map (.renumber rules) := by
  rw [parse, parse, relabels.tokenizeIn_eq]
  cases tokenized : engine.tokenizeIn .start text ⟨options.parser, options.strict⟩ with
  | mk result session =>
      cases result with
      | error error => rfl
      | ok tokens =>
          have held := (nodes_of_tokenized tokenized).2
          have start : (ReductionState.start session.nodes).rename types rules =
              .start session.nodes := by
            rw [ReductionState.rename, ReductionState.start, relabels.nodes_eq tokenized]
            rfl
          have mirrors : ReductionContext.Mirrors types rules (engine.reduction options)
              (other.reduction options) := ⟨relabels.same options, rfl, rfl, rfl⟩
          have same (parser : String) := mirrors.parse_rename parser (.start session.nodes)
            (Session.showsAll_tokens held _)
          simp only [relabels.symbols_eq tokenized, start] at same
          simp only [parseIn_eq, relabels.mainParser, same]
          cases (engine.reduction options).parse
              (options.parser.getD engine.grammar.mainParser)
              (tokens.filterMap Token.symbol?) (.start session.nodes) with
          | error error final => rfl
          | ok report final => rfl

end Relabels

end Engine

end RowGrammar
