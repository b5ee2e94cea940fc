import RowGrammar.Proofs.Recognition
import RowGrammar.Proofs.SymbolPattern.Words

/-!
# Engines with a single parser

What such an engine works from are the patterns of its tokens and its rules.  Once these are known,
reducing is a matter of words among the cells: where a word of a rule stands, the rule puts a branch
over it.
-/

namespace RowGrammar

open SymbolPattern ReductionContext

/-- A rule with its pattern, as it is written and without its group as it is compiled. -/
structure Tables.Rule where
  nodeType : NodeTypeId
  text : String
  body : SymbolPattern

/-- What a single parser works from. -/
structure Tables where
  registry : Registry
  parser : String
  /-- The type of the tokens that are dropped. -/
  blank : NodeTypeId
  alternatives : List Alternative
  groups : List PrecedenceGroup
  rules : List Tables.Rule

namespace Tables

/-- The tables of the loaded grammar and the token patterns of the engine are the given ones. -/
def Describes (tables : Tables) (engine : Engine) : Prop :=
  engine.Unspaced ∧ engine.grammar.registry = tables.registry ∧
    engine.grammar.mainParser = tables.parser ∧ engine.grammar.suppressed = [tables.blank] ∧
    engine.tokenizers.map (fun tokenizer => (tokenizer.parser, tokenizer.alternatives)) =
      [(tables.parser, tables.alternatives)] ∧
    engine.grammar.parsers.map (fun table => (table.name, table.groups)) =
      [(tables.parser, tables.groups)] ∧
    engine.grammar.parserRules.toList.map
        (fun rule => (rule.nodeType, rule.pattern, rule.subparser)) =
      tables.rules.map fun rule => (rule.nodeType, rule.text, none)

instance (tables : Tables) (engine : Engine) : Decidable (tables.Describes engine) :=
  inferInstanceAs (Decidable (_ ∧ _))

/-- The patterns of the rules are what their texts are compiled to. -/
def Compiles (tables : Tables) : Prop :=
  ∀ rule ∈ tables.rules, SymbolPattern.compile tables.registry
    (tables.registry.name rule.nodeType) rule.text = .ok (.capture rule.body)

/-- Every rule takes two symbols or more. -/
def Broad (tables : Tables) : Prop :=
  ∀ rule ∈ tables.rules, 2 ≤ rule.body.least

instance (tables : Tables) : Decidable tables.Broad :=
  inferInstanceAs (Decidable (∀ rule ∈ tables.rules, 2 ≤ rule.body.least))

/-- The alternatives as a tokenizer. -/
def tokenizer (tables : Tables) : Tokenizer :=
  ⟨tables.parser, none, tables.alternatives⟩

/-- Alternatives without captures inside, of which the first has the type 1. -/
def alternativesOf (tokens : List Regex) : List Alternative :=
  (tokens.zipIdx 1).map fun (regex, id) => ⟨id, id, regex, none⟩

/-- The cell of a piece. -/
def cellOf (tables : Tables) (piece : Piece) : Cell :=
  ⟨piece.nodeType, .leaf (tables.registry.name piece.nodeType) piece.text⟩

/-- An engine that works from the tables. -/
structure Runs (tables : Tables) (engine : Engine) : Prop where
  compiled : engine.Compiled
  describes : tables.Describes engine
  compiles : tables.Compiles
  broad : tables.Broad

variable {tables : Tables} {engine : Engine}

/-- A token of fixed letters comes first where they stand, if no earlier one does so. -/
theorem next_letters (place : Nat) {id group : Nat} {word : List Char} {c : Char}
    (listed : tables.alternatives[place]? = some ⟨id, group, .letters word, none⟩)
    (first : word.head? = some c)
    (out : ∀ earlier ∈ tables.alternatives.take place,
      earlier.regex.nullable = false ∧ earlier.regex.opens c = false) (rest : List Char) :
    tables.tokenizer.Next id word rest :=
  Tokenizer.next_of_getElem? (show tables.tokenizer.alternatives[place]? = _ from listed) rfl
    (Regex.takes_letters word rest) first out

/-! ## Lexemes -/

/-- What cells are to a reader of a language, and the characters between its lexemes. -/
structure Lexicon (Mark : Type) where
  markOf : Cell → Mark
  /-- The marks that can be told from their neighbours without blanks. -/
  isSign : Mark → Prop
  blank : Char → Bool
  /-- What ends a lexeme that is no sign. -/
  delimiter : Char → Bool

/-- A piece that is found among others, and the mark that it is to a reader. -/
structure Shows (tables : Tables) {Mark : Type} (lexicon : Lexicon Mark) (mark : Mark)
    (piece : Piece) : Prop where
  reads : lexicon.markOf (tables.cellOf piece) = mark
  delimited : tables.tokenizer.Delimited lexicon.delimiter piece
  sign : lexicon.isSign mark → tables.tokenizer.Sign lexicon.delimiter piece
  visible : piece.nodeType ≠ tables.blank ∧
    ∃ c, piece.text.toList.head? = some c ∧ lexicon.blank c = false

/-- A letter that is no blank and that no alternative before a place takes. -/
def PassesTo (tables : Tables) (blank : Char → Bool) (place : Nat) (c : Char) : Prop :=
  blank c = false ∧ ∀ earlier ∈ tables.alternatives.take place,
    earlier.regex.nullable = false ∧ earlier.regex.opens c = false

instance (tables : Tables) (blank : Char → Bool) (place : Nat) (c : Char) :
    Decidable (tables.PassesTo blank place c) :=
  inferInstanceAs (Decidable (_ ∧ _))

section

variable {Mark : Type} {lexicon : Lexicon Mark} {mark : Mark} {place : Nat} {id : NodeTypeId}
  {c : Char}

/-- A single letter is a sign. -/
theorem shows_sign (listed : tables.alternatives[place]? = some ⟨id, id, .letters [c], none⟩)
    (passes : tables.PassesTo lexicon.blank place c) (typed : id ≠ tables.blank)
    (ends : lexicon.delimiter c = true)
    (reads : lexicon.markOf (tables.cellOf ⟨id, String.ofList [c]⟩) = mark) :
    tables.Shows lexicon mark ⟨id, String.ofList [c]⟩ := by
  obtain ⟨inked, out⟩ := passes
  have next := next_letters place listed rfl out
  have chars : (String.ofList [c]).toList = [c] := String.toList_ofList
  refine ⟨reads, fun rest _ => ?_, fun _ => ⟨fun rest => ?_, ?_⟩, typed, c, by rw [chars]; rfl,
    inked⟩
  · rw [chars]
    exact next rest
  · rw [chars]
    exact next rest
  · rw [chars]
    rintro _ ⟨⟩
    exact ends

/-- A lexeme that takes a delimiter or the end of the text after it. -/
theorem shows_lexeme {regex : Regex} {lexeme : List Char}
    (listed : tables.alternatives[place]? = some ⟨id, id, regex, none⟩)
    (takes : ∀ rest : List Char, (∀ c ∈ rest.head?, lexicon.delimiter c = true) →
      regex.Takes lexeme rest) (first : lexeme.head? = some c)
    (passes : tables.PassesTo lexicon.blank place c) (typed : id ≠ tables.blank)
    (reads : lexicon.markOf (tables.cellOf ⟨id, String.ofList lexeme⟩) = mark)
    (unsigned : ¬lexicon.isSign mark) :
    tables.Shows lexicon mark ⟨id, String.ofList lexeme⟩ := by
  have chars : (String.ofList lexeme).toList = lexeme := String.toList_ofList
  refine ⟨reads, fun rest ends => ?_, fun sign => absurd sign unsigned, typed, c,
    by rw [chars]; exact first, passes.1⟩
  rw [chars]
  exact Tokenizer.next_of_getElem? (show tables.tokenizer.alternatives[place]? = _ from listed) rfl
    (takes rest ends) first passes.2

end

/-- Lexemes that are kept apart are pieces that can be told apart. -/
theorem exists_pieces {Mark : Type} {lexicon : Lexicon Mark} {marks : List Mark}
    {lexemes : List (List Char)}
    (are : List.Forall₂ (fun mark lexeme => ∃ piece : Piece, piece.text.toList = lexeme ∧
      tables.Shows lexicon mark piece) marks lexemes)
    (kept : KeptApart lexicon.isSign marks) :
    ∃ pieces : List Piece, pieces.map (·.text.toList) = lexemes ∧
      (pieces.map tables.cellOf).map lexicon.markOf = marks ∧
      tables.tokenizer.Apart lexicon.blank lexicon.delimiter tables.blank pieces := by
  obtain ⟨pieces, texts, reads, shows_⟩ : ∃ pieces : List Piece,
      pieces.map (·.text.toList) = lexemes ∧
        (pieces.map tables.cellOf).map lexicon.markOf = marks ∧
        ∀ piece ∈ pieces, tables.Shows lexicon (lexicon.markOf (tables.cellOf piece)) piece := by
    clear kept
    induction are with
    | nil => exact ⟨[], rfl, rfl, nofun⟩
    | cons is _ induction =>
        obtain ⟨piece, rfl, first⟩ := is
        obtain ⟨pieces, rfl, rfl, others⟩ := induction
        obtain rfl := first.reads
        exact ⟨piece :: pieces, rfl, rfl, List.forall_mem_cons.mpr ⟨first, others⟩⟩
  refine ⟨pieces, texts, reads, fun piece member => (shows_ piece member).delimited,
    fun piece member => (shows_ piece member).visible, ?_⟩
  rw [← reads, KeptApart, List.map_map, List.isChain_map] at kept
  refine kept.imp_of_mem_imp fun piece next member follows signs => ?_
  exact signs.imp (shows_ piece member).sign (shows_ next follows).sign

/-! ## Engines -/

/-- Rows that load are compiled to an engine that works from their tables. -/
theorem exists_runs {rows : List Row}
    (described : (Engine.ofRows rows).toOption.any
      (fun engine => decide (tables.Describes engine)) = true)
    (compiles : tables.Compiles) (broad : tables.Broad) :
    ∃ engine, Engine.ofRows rows = .ok engine ∧ tables.Runs engine := by
  cases loaded : Engine.ofRows rows with
  | error error =>
      rw [loaded] at described
      cases described
  | ok engine =>
      rw [loaded] at described
      exact ⟨engine, rfl, .ofRows loaded, of_decide_eq_true described, compiles, broad⟩

namespace Runs

variable (runs : tables.Runs engine)

include runs

theorem unspaced : engine.Unspaced := runs.describes.1

theorem registry_eq : engine.grammar.registry = tables.registry := runs.describes.2.1

theorem mainParser_eq : engine.grammar.mainParser = tables.parser := runs.describes.2.2.1

theorem suppressed_eq : engine.grammar.suppressed = [tables.blank] := runs.describes.2.2.2.1

theorem exists_tokenizer : ∃ tokenizer,
    engine.tokenizers.find? (·.parser == tables.parser) = some tokenizer ∧
      tokenizer.alternatives = tables.alternatives := by
  obtain ⟨tokenizer, rest, same, pair, none_⟩ := List.map_eq_cons_iff.mp runs.describes.2.2.2.2.1
  rw [Prod.mk.injEq] at pair
  exact ⟨tokenizer, by rw [same, List.find?_cons_of_pos (by simp [pair.1])], pair.2⟩

theorem exists_table : ∃ table, engine.grammar.parser? tables.parser = some table ∧
    table.groups = tables.groups := by
  obtain ⟨table, rest, same, pair, none_⟩ := List.map_eq_cons_iff.mp runs.describes.2.2.2.2.2.1
  rw [Prod.mk.injEq] at pair
  exact ⟨table, by rw [Grammar.parser?, same, List.find?_cons_of_pos (by simp [pair.1])], pair.2⟩

/-- The rules of the engine are those of the tables. -/
theorem exists_rule {id : RuleId} {rule : ParserRule}
    (known : engine.grammar.parserRules[id]? = some rule) :
    ∃ entry, tables.rules[id]? = some entry ∧ rule.nodeType = entry.nodeType ∧
      rule.subparser = none ∧ engine.patterns[id]? = some (.capture entry.body) := by
  have same := congrArg (·[id]?) runs.describes.2.2.2.2.2.2
  simp only [List.getElem?_map, Array.getElem?_toList, known, Option.map_some] at same
  obtain ⟨entry, listed, alike⟩ := Option.map_eq_some_iff.mp same.symm
  simp only [Prod.mk.injEq] at alike
  obtain ⟨typed, text, direct⟩ := alike
  have made := runs.compiled.forall₂_patterns
  have inside : id < engine.grammar.parserRules.toList.length := by
    simpa using (Array.getElem?_eq_some_iff.mp known).1
  have pattern := made.get inside (made.length_eq ▸ inside)
  have here : engine.grammar.parserRules.toList.get ⟨id, inside⟩ = rule := by
    rw [List.get_eq_getElem, Array.getElem_toList]
    exact (Array.getElem?_eq_some_iff.mp known).2
  have compiles := runs.compiles entry (List.mem_of_getElem? listed)
  rw [typed, text, ← here, ← runs.registry_eq] at compiles
  have same := Except.ok.inj (compiles.symm.trans pattern)
  rw [List.get_eq_getElem, Array.getElem_toList] at same
  refine ⟨entry, listed, typed.symm, direct.symm, ?_⟩
  rw [same]
  exact Array.getElem?_eq_getElem _

theorem exists_known {id : RuleId} {entry : Rule} (listed : tables.rules[id]? = some entry) :
    ∃ rule, engine.grammar.parserRules[id]? = some rule ∧ rule.nodeType = entry.nodeType ∧
      engine.patterns[id]? = some (.capture entry.body) := by
  have same := congrArg (·[id]?) runs.describes.2.2.2.2.2.2
  simp only [List.getElem?_map, Array.getElem?_toList, listed, Option.map_some] at same
  obtain ⟨rule, known, _⟩ := Option.map_eq_some_iff.mp same
  obtain ⟨entry', listed', typed, _, compiled⟩ := runs.exists_rule known
  rw [listed, Option.some.injEq] at listed'
  subst listed'
  exact ⟨rule, known, typed, compiled⟩

/-- Nothing stops or watches the rules. -/
theorem merges {options : ParseOptions} (unlimited : options.maxNodes = none)
    (unexpected : options.expected = none) : (engine.reduction options).Merges where
  unlimited := unlimited
  unexpected := congrArg (Option.map Tree.subtrees) unexpected
  direct := by
    intro rule member
    obtain ⟨id, known⟩ := List.getElem?_of_mem member
    rw [Array.getElem?_toList] at known
    exact (runs.exists_rule known).choose_spec.2.2.1
  broad := by
    intro id pattern compiled kinds start absorb found matched
    have bounded : id < engine.grammar.parserRules.size := by
      have sizes := runs.compiled.forall₂_patterns.length_eq
      rw [Array.length_toList, Array.length_toList] at sizes
      exact sizes ▸ (Array.getElem?_eq_some_iff.mp compiled).1
    obtain ⟨entry, listed, _, _, same⟩ :=
      runs.exists_rule (Array.getElem?_eq_getElem bounded)
    rw [show engine.patterns[id]? = some pattern from compiled, Option.some.injEq] at same
    subst same
    exact Nat.le_trans (runs.broad entry (List.mem_of_getElem? listed))
      (least_le_of_matchAt matched)

/-! ## Applications -/

section

variable {options : ParseOptions} {group : PrecedenceGroup} {cells : List Cell}
  (known : (engine.reduction options).absorbs (Cell.kinds cells) = false)

include known

/-- A rule puts a branch over cells whose types are a word of it. -/
theorem exists_captured {start : Nat} {rule : ParserRule} {found : Match}
    (applies : (engine.reduction options).Applies group (Cell.kinds cells) start rule found) :
    ∃ id ∈ group.rules, ∃ entry, tables.rules[id]? = some entry ∧
      (capture entry.body).matchAt (Cell.kinds cells) start false = some found ∧
      ∃ before captured after, cells = before ++ (captured ++ after) ∧ before.length = start ∧
        found.stop = start + captured.length ∧ entry.body.Word (captured.map (·.nodeType)) ∧
        found.capture.splice (Cell.branch (engine.reduction options).grammar.registry rule.nodeType
            (found.capture.slice cells)) cells =
          before ++ Cell.branch tables.registry entry.nodeType captured :: after := by
  obtain ⟨id, member, known_, pattern, compiled, matched⟩ := applies
  rw [known] at matched
  obtain ⟨entry, listed, typed, _, same⟩ := runs.exists_rule known_
  rw [show engine.patterns[id]? = some pattern from compiled, Option.some.injEq] at same
  subst same
  refine ⟨id, member, entry, listed, matched, ?_⟩
  obtain ⟨_, _, _, _, bounded⟩ := matchAt_bounds matched
  simp only [Cell.kinds, List.size_toArray, List.length_map] at bounded
  obtain ⟨word, is, stands, rfl⟩ := word_of_matchAt matched
  have span : (Span.mk start (start + word.length)).slice cells =
      (cells.drop start).take word.length := by
    rw [Span.slice, Span.length, Nat.add_sub_cancel_left]
  have word_eq : ((cells.drop start).take word.length).map (·.nodeType) = word := by
    rw [List.map_take, List.map_drop]
    exact (List.prefix_iff_eq_take.mp stands).symm
  refine ⟨cells.take start, (cells.drop start).take word.length,
    cells.drop (start + word.length), ?_, ?_, ?_, by rwa [word_eq], ?_⟩
  · rw [← List.drop_drop, List.take_append_drop, List.take_append_drop]
  · rw [List.length_take]
    omega
  · rw [List.length_take, List.length_drop, Nat.min_eq_left]
    exact Nat.le_sub_of_add_le' bounded
  · rw [span, typed]
    exact congrArg (fun registry : Registry => cells.take start ++
      Cell.branch registry entry.nodeType ((cells.drop start).take word.length) ::
        cells.drop (start + word.length)) runs.registry_eq

/-- Where a word of a rule stands, the rule applies. -/
theorem applies {id : RuleId} (member : id ∈ group.rules) {entry : Rule}
    (listed : tables.rules[id]? = some entry) {start : Nat}
    (matched : (capture entry.body).matchAt (Cell.kinds cells) start false ≠ none) :
    ∃ rule found, (engine.reduction options).Applies group (Cell.kinds cells) start rule found := by
  obtain ⟨found, matched⟩ := Option.ne_none_iff_exists'.mp matched
  obtain ⟨rule, present, _, compiled⟩ := runs.exists_known listed
  exact ⟨rule, found, id, member, present, _, compiled, by rw [known]; exact matched⟩

end

/-! ## Texts -/

/-- A text of pieces that can be told apart is parsed, if the rules bring their cells together. -/
theorem parse_laid (options : ParseOptions) (main : options.parser = none)
    (unlimited : options.maxNodes = none) (unexpected : options.expected = none)
    {before after : List Cell → Prop}
    (stages : (engine.reduction options).Stages tables.parser tables.groups before after)
    (again : ∀ cells, after cells → before cells)
    (single : ∀ cells, before cells → (∀ group ∈ tables.groups, ∀ stop,
      (engine.reduction options).Silent group (Cell.kinds cells) 0 stop) → ∃ cell, cells = [cell])
    {blank delimiter : Char → Bool} {pieces : List Piece}
    (spaces : tables.tokenizer.Spaces blank delimiter tables.blank)
    (apart : tables.tokenizer.Apart blank delimiter tables.blank pieces) {text : String}
    (laid : Laid blank (pieces.map (·.text.toList)) text.toList) (nonempty : pieces ≠ [])
    (holds : before (pieces.map tables.cellOf)) :
    ∃ report cell, engine.parse text options = .ok report ∧ report.tree = cell.tree ∧
      report.halted = false ∧ before [cell] := by
  obtain ⟨tokenizer, scans, same⟩ := runs.exists_tokenizer
  obtain ⟨table, known, groups⟩ := runs.exists_table
  have chosen : options.parser.getD engine.grammar.mainParser = tables.parser := by
    rw [main, runs.mainParser_eq]
    rfl
  obtain ⟨all, cuts, kept⟩ := Tokenizer.exists_cuts_of_laid spaces apart laid
  have cells : Cell.ofPieces engine.grammar all = pieces.map tables.cellOf := by
    have visible : (fun piece : Piece => !engine.grammar.isSuppressed piece.nodeType) =
        fun piece => piece.nodeType != tables.blank := by
      funext piece
      rw [Grammar.isSuppressed, runs.suppressed_eq, List.contains_cons, List.contains_nil,
        Bool.or_false]
      rfl
    rw [Cell.ofPieces, visible, kept, runs.registry_eq]
    rfl
  rw [← groups, ← chosen] at stages
  rw [← groups] at single
  refine runs.compiled.parse_single runs.unspaced (chosen ▸ scans) (chosen ▸ known)
    (runs.merges unlimited unexpected) stages again single
    (cuts.congr same.symm) ?_ ?_
  · rw [cells, ne_eq, List.map_eq_nil_iff]
    exact nonempty
  · rwa [cells]

end Runs

end Tables

end RowGrammar
