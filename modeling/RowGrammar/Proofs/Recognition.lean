import RowGrammar.Proofs.Parsing
import RowGrammar.Proofs.Reduction.Cells
import RowGrammar.Proofs.Token.Cutting

/-!
# Parses of texts of a language

Once a text is known to be cut into some pieces, its parse is a reduction of the cells of these
pieces.  So what is to be shown of a grammar is how the cells start, what its groups keep of them
and that they do not get stuck.
-/

namespace RowGrammar

open NodeTable

/-- The cells of the pieces that take part in parsing. -/
def Cell.ofPieces (grammar : Grammar) (pieces : List Piece) : List Cell :=
  (pieces.filter fun piece => !grammar.isSuppressed piece.nodeType).map fun piece =>
    ⟨piece.nodeType, .leaf (grammar.registry.name piece.nodeType) piece.text⟩

namespace Session

/-- The types and the leaves of the tokens with nodes are those of the pieces that are not
suppressed. -/
theorem addPieces_cells (grammar : Grammar) (index : Nat) (pieces : List Piece)
    (session : Session) :
    ((addPieces grammar index pieces session).1.filterMap Token.symbol?).map (·.nodeType) =
        (Cell.ofPieces grammar pieces).map (·.nodeType) ∧
      ((addPieces grammar index pieces session).1.filter Token.isSignificant).map (fun token =>
          Tree.leaf (grammar.registry.name token.nodeType) token.text) =
        (Cell.ofPieces grammar pieces).map (·.tree) := by
  induction pieces generalizing index session with
  | nil => exact ⟨rfl, rfl⟩
  | cons piece pieces induction =>
      rw [addPieces_cons]
      obtain ⟨types, leaves⟩ := induction (index + 1) (session.addPiece grammar piece).2
      cases suppressed : grammar.isSuppressed piece.nodeType with
      | true =>
          have unchanged : (session.addPiece grammar piece).1 = none := by
            simp [addPiece, suppressed]
          have skipped : Cell.ofPieces grammar (piece :: pieces) =
              Cell.ofPieces grammar pieces := by
            simp [Cell.ofPieces, suppressed]
          rw [unchanged, skipped]
          exact ⟨types, leaves⟩
      | false =>
          have pushed : (session.addPiece grammar piece).1 = some session.nodes.size := by
            simp [addPiece, suppressed]
          have taken : Cell.ofPieces grammar (piece :: pieces) =
              ⟨piece.nodeType, .leaf (grammar.registry.name piece.nodeType) piece.text⟩ ::
                Cell.ofPieces grammar pieces := by
            simp [Cell.ofPieces, suppressed]
          rw [pushed, taken]
          exact ⟨congrArg (piece.nodeType :: ·) types, congrArg (_ :: ·) leaves⟩

/-- The symbols of the tokens present the cells of their pieces. -/
theorem presents_addPieces (grammar : Grammar) (index : Nat) (pieces : List Piece)
    (session : Session) :
    (addPieces grammar index pieces session).2.nodes.Presents grammar.registry
      ((addPieces grammar index pieces session).1.filterMap Token.symbol?)
      (Cell.ofPieces grammar pieces) := by
  obtain ⟨types, leaves⟩ := addPieces_cells grammar index pieces session
  have shown := showsAll_tokens (addPieces_holds grammar index pieces session).2 grammar.registry
  rw [leaves] at shown
  exact ⟨types, shown⟩

end Session

namespace Engine

variable {engine : Engine}

/-- A text is scanned as it is cut. -/
theorem Compiled.scanned_eq (compiled : engine.Compiled) (unspaced : engine.Unspaced)
    {options : TokenizeOptions} {tokenizer : Tokenizer}
    (scans : engine.tokenizers.find?
      (·.parser == options.parser.getD engine.grammar.mainParser) = some tokenizer)
    {text : String} {pieces : List Piece} (cuts : tokenizer.Cuts text.toList pieces) :
    engine.scanned text options = ⟨pieces, none⟩ := by
  have found : (engine.scanning options.strict).tokenizers.find?
      (·.parser == options.parser.getD engine.grammar.mainParser) = some tokenizer := scans
  have walks : (engine.scanning options.strict).walkFrom
      ((engine.scanning options.strict).walkWith maxSubparserDepth) tokenizer text.toList.toArray
        0 0 0 = ⟨pieces, none⟩ :=
    cuts.walkFrom_eq _ _ 0 rfl
  change (engine.scanning options.strict).scanWith (maxSubparserDepth + 1) _ _ 0 = _
  rw [ScanContext.scanWith_eq_walkWith (compiled.joined unspaced), ScanContext.walkWith, found]
  exact walks

open ReductionContext in
/-- A text whose cells reduce to one cell is parsed, and the tree of that cell is reported. -/
theorem Compiled.parse_single (compiled : engine.Compiled) (unspaced : engine.Unspaced)
    {options : ParseOptions} {tokenizer : Tokenizer} {table : ParserTable}
    (scans : engine.tokenizers.find?
      (·.parser == options.parser.getD engine.grammar.mainParser) = some tokenizer)
    (known : engine.grammar.parser? (options.parser.getD engine.grammar.mainParser) = some table)
    (merges : (engine.reduction options).Merges) {before after : List Cell → Prop}
    (stages : (engine.reduction options).Stages
      (options.parser.getD engine.grammar.mainParser) table.groups before after)
    (again : ∀ cells, after cells → before cells)
    (single : ∀ cells, before cells → (∀ group ∈ table.groups, ∀ stop,
      (engine.reduction options).Silent group (Cell.kinds cells) 0 stop) → ∃ cell, cells = [cell])
    {text : String} {pieces : List Piece} (cuts : tokenizer.Cuts text.toList pieces)
    (nonempty : Cell.ofPieces engine.grammar pieces ≠ [])
    (holds : before (Cell.ofPieces engine.grammar pieces)) :
    ∃ report cell, engine.parse text options = .ok report ∧ report.tree = cell.tree ∧
      report.halted = false ∧ before [cell] := by
  have scanned : engine.scanned text ⟨options.parser, options.strict⟩ = ⟨pieces, none⟩ :=
    compiled.scanned_eq unspaced scans cuts
  have presents := Session.presents_addPieces engine.grammar 0 pieces .start
  obtain ⟨tokens, session, added⟩ : ∃ tokens session,
      Session.addPieces engine.grammar 0 pieces .start = (tokens, session) := ⟨_, _, rfl⟩
  rw [added] at presents
  obtain ⟨rows, groups, arranges, same, _⟩ := compiled.exists_arranged
  obtain ⟨report, final, cell, parsed, shows_, runs, left⟩ := stages.parse_single merges again
    arranges same compiled.namesApart known rfl single nonempty presents holds
  refine ⟨report, cell, parse_eq_ok_iff.mpr ⟨tokens, session, final, ?_, parsed⟩, shows_, runs,
    left⟩
  rw [tokenizeIn_eq_ok_iff, scanned]
  exact ⟨rfl, added⟩

end Engine

end RowGrammar
