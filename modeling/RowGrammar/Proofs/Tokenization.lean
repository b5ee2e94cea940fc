import RowGrammar.Proofs.Session
import RowGrammar.Proofs.Token.Refusal

/-!
# Tokenization

Tokenizing cuts a text into tokens without losing a character.  Outside of strict mode it succeeds
unless sub-parsers are nested too deeply, and it finds what trying the token patterns one by one at
every position would find.  In strict mode it finds the same, or fails at the first text that is
found without a token otherwise.
-/

namespace RowGrammar

open RowGrammar.Text

namespace Session

/-- Tokens have the texts and the types of their pieces, are numbered in order, and take the next
nodes of the session. -/
theorem addPieces_tokens (grammar : Grammar) (index : Nat) (pieces : List Piece)
    (session : Session) {tokens : List Token} {after : Session}
    (added : addPieces grammar index pieces session = (tokens, after)) :
    tokens.map (fun token => (⟨token.nodeType, token.text⟩ : Piece)) = pieces ∧
      tokens.map (·.index) = List.range' index tokens.length ∧
      tokens.filterMap (·.node) =
        List.range' session.nodes.size (tokens.filterMap (·.node)).length ∧
      after.nodes.size = session.nodes.size + (tokens.filterMap (·.node)).length := by
  induction pieces generalizing index session tokens after with
  | nil =>
      cases added
      simp
  | cons piece pieces induction =>
      rw [addPieces_cons] at added
      cases made : addPieces grammar (index + 1) pieces (session.addPiece grammar piece).2 with
      | mk rest later =>
          obtain ⟨texts, indices, nodes, size⟩ := induction (index + 1) _ made
          rw [made] at added
          cases added
          refine ⟨by simp [texts], by simp [indices, List.range'_succ], ?_⟩
          unfold addPiece at nodes size ⊢
          cases suppressed : grammar.isSuppressed piece.nodeType with
          | true =>
              simp only [suppressed, if_true] at nodes size
              exact ⟨by simpa using nodes, by simpa using size⟩
          | false =>
              simp only [suppressed, Bool.false_eq_true, if_false, NodeTable.push, NodeTable.size,
                Array.size_push] at nodes size
              refine ⟨?_, ?_⟩
              · simpa [NodeTable.size, List.range'_succ] using nodes
              · simp [NodeTable.size, size]
                omega

end Session

namespace Engine

/-- Whether no token pattern makes blank characters and comments layout. -/
def Unspaced (engine : Engine) : Prop :=
  ∀ pair ∈ engine.expanded, Regex.switchesLayout pair.2 = false

instance (engine : Engine) : Decidable engine.Unspaced :=
  inferInstanceAs (Decidable (∀ pair ∈ engine.expanded, Regex.switchesLayout pair.2 = false))

/-- How an engine scans texts. -/
def scanning (engine : Engine) (strict : Bool) : ScanContext :=
  ⟨engine.grammar.registry, engine.tokenizers, strict⟩

namespace Compiled

variable {engine : Engine} (compiled : engine.Compiled) {parser : String}

include compiled

theorem exists_table {tokenizer : Tokenizer} (member : tokenizer ∈ engine.tokenizers) :
    ∃ table ∈ engine.grammar.parsers,
      Tokenizer.compile engine.grammar engine.expanded table = .ok tokenizer := by
  have each := compiled.forall₂_tokenizers
  obtain ⟨place, inside, rfl⟩ := List.mem_iff_getElem.mp member
  have before : place < engine.grammar.parsers.length := each.length_eq ▸ inside
  exact ⟨_, List.getElem_mem before, each.get before inside⟩

/-- Tokens that a pattern matches have the types of rows. -/
theorem exists_row_of_alternative {tokenizer : Tokenizer} (member : tokenizer ∈ engine.tokenizers)
    {alternative : Alternative} (listed : alternative ∈ tokenizer.alternatives) :
    ∃ rows groups place row, Grammar.Arranges rows groups ∧
      engine.grammar = Grammar.arranged rows groups ∧ rows[place]? = some row ∧
      alternative.nodeType = place + 1 := by
  obtain ⟨table, inside, made⟩ := compiled.exists_table member
  obtain ⟨rows, groups, arranges, same, _⟩ := compiled.exists_arranged
  obtain ⟨typed, _⟩ := Tokenizer.mem_alternatives made listed
  rw [same] at inside
  obtain ⟨name, _, rfl⟩ := List.mem_map.mp inside
  obtain ⟨rule, kept, is⟩ := List.mem_map.mp typed
  obtain ⟨row, place, found, numbered⟩ := Grammar.mem_tokenRules.mp (List.mem_of_mem_filter kept)
  refine ⟨rows, groups, place, row, arranges, same, found, ?_⟩
  rw [Row.tokenRule?] at numbered
  split at numbered
  · cases numbered
    exact is.symm
  · cases numbered

/-- Tokens that a pattern matches are not of the type of unrecognized text. -/
theorem alternative_known {tokenizer : Tokenizer} (member : tokenizer ∈ engine.tokenizers)
    {alternative : Alternative} (listed : alternative ∈ tokenizer.alternatives) :
    alternative.nodeType ≠ unrecognized := by
  obtain ⟨_, _, place, _, _, _, _, numbered⟩ := compiled.exists_row_of_alternative member listed
  rw [numbered]
  exact Nat.succ_ne_zero place

theorem joined (unspaced : engine.Unspaced) :
    ∀ tokenizer ∈ engine.tokenizers, tokenizer.Joined := by
  intro tokenizer member
  obtain ⟨table, _, made⟩ := compiled.exists_table member
  exact Tokenizer.joined_of_compile made unspaced

end Compiled

/-- Tokens with groups of their own, one that may be empty, and one that another parser reads. -/
def mixedRows : List Row := [
  .token "main" "Word" "(a|b)+(c)?",
  .token "main" "Gap" "x*",
  .token "main" "Mark" "!",
  { Row.token "main" "Quoted" "'[^']*'" with subparser := "inner" },
  .token "inner" "Letter" "[a-z]"]

def mixedEngine : Engine :=
  ((ofRows mixedRows).toOption).get (by decide +kernel)

theorem ofRows_mixedRows : ofRows mixedRows = .ok mixedEngine :=
  eq_ok_get _

/-- Strict mode finds the tokens that are found outside of it, or refuses the first one that is not
recognized: it tells how many bytes come before it, and the first characters of it. -/
theorem tokenizeIn_refuses {engine : Engine} (compiled : engine.Compiled) (session : Session)
    (text : String) (options : TokenizeOptions) {tokens : List Token}
    (found : (engine.tokenizeIn session text { options with strict := false }).1 = .ok tokens) :
    ((∀ token ∈ tokens, token.isUnrecognized = false) →
      engine.tokenizeIn session text { options with strict := true } =
        (.ok tokens, (engine.tokenizeIn session text { options with strict := false }).2)) ∧
    ∀ before token after, tokens = before ++ token :: after →
      (∀ earlier ∈ before, earlier.isUnrecognized = false) → token.isUnrecognized = true →
      ∃ parser, (engine.tokenizeIn session text { options with strict := true }).1 =
        .error (.noMatch parser (before.map fun earlier => utf8Length earlier.text.toList).sum
          (String.ofList (token.text.toList.take 20))) := by
  have refuses : (engine.scanned text { options with strict := false }).Refuses 0
      (engine.scanned text { options with strict := true }) :=
    @ScanContext.scanWith_refuses (engine.scanning false) (engine.scanning true) rfl rfl rfl
      (fun _ member _ listed => compiled.alternative_known member listed)
      (maxSubparserDepth + 1) (options.parser.getD engine.grammar.mainParser) text.toList.toArray 0
  rw [tokenizeIn_eq] at found ⊢
  rw [tokenizeIn_eq]
  cases fails : (engine.scanned text { options with strict := false }).failure with
  | some error =>
      rw [fails] at found
      cases found
  | none =>
      rw [fails] at found
      cases found
      have strictly := refuses fails
      obtain ⟨pieces, _⟩ := Session.addPieces_tokens engine.grammar 0
        (engine.scanned text { options with strict := false }).pieces session rfl
      constructor
      · intro known
        rw [Piece.firstRefused_eq_none] at strictly
        · simp only [strictly, fails]
        · intro piece member
          rw [← pieces] at member
          obtain ⟨token, inside, rfl⟩ := List.mem_map.mp member
          simpa [Token.isUnrecognized] using known token inside
      · intro before token after split known unknown
        rw [split, List.map_append, List.map_cons] at pieces
        rw [← pieces, Piece.firstRefused_append, Piece.firstRefused_eq_none, Option.none_or,
          Piece.firstRefused, if_pos (by simpa [Token.isUnrecognized] using unknown)] at strictly
        · obtain ⟨parser, stops⟩ := strictly
          refine ⟨parser, ?_⟩
          rw [stops, Nat.zero_add, List.map_map]
          rfl
        · intro piece member
          obtain ⟨earlier, inside, rfl⟩ := List.mem_map.mp member
          simpa [Token.isUnrecognized] using known earlier inside

/-- A text is refused at the first quote, which belongs to an inner parser, and another one is not
refused at all. -/
theorem tokenizeIn_quoted :
    (∃ parser, (mixedEngine.tokenizeIn .start "ab'q'" { strict := true }).1 =
      .error (.noMatch parser 2 "'")) ∧
    (mixedEngine.tokenizeIn .start "abc!" { strict := true }).1 =
      .ok [⟨1, "abc", 0, some 0⟩, ⟨3, "!", 1, some 1⟩] := by
  have quoted : (mixedEngine.tokenizeIn .start "ab'q'" { strict := false }).1 =
      .ok [⟨1, "ab", 0, some 0⟩, ⟨0, "'", 1, some 1⟩, ⟨5, "q", 2, some 2⟩,
        ⟨0, "'", 3, some 3⟩] := by decide +kernel
  have clear : (mixedEngine.tokenizeIn .start "abc!" { strict := false }).1 =
      .ok [⟨1, "abc", 0, some 0⟩, ⟨3, "!", 1, some 1⟩] := by decide +kernel
  obtain ⟨parser, refused⟩ := (tokenizeIn_refuses (.ofRows ofRows_mixedRows) .start _ {} quoted).2
    [⟨1, "ab", 0, some 0⟩] _ _ rfl (by decide) rfl
  have kept := (tokenizeIn_refuses (.ofRows ofRows_mixedRows) .start _ {} clear).1 (by decide)
  have shown : String.ofList ("'".toList.take 20) = "'" := by decide +kernel
  have offset : ([⟨1, "ab", 0, some 0⟩].map fun token : Token =>
      utf8Length token.text.toList).sum = 2 := by decide +kernel
  rw [shown, offset] at refused
  exact ⟨⟨parser, refused⟩, congrArg Prod.fst kept⟩

end Engine

end RowGrammar
