import RowGrammar.Proofs.Derivation.Fragments
import RowGrammar.Proofs.Derivation.Inference
import RowGrammar.Proofs.Grammar.Reordering
import RowGrammar.Proofs.TokenPattern.Expansion

/-!
# Expanding inferred rows

The alternatives of an inferred row have no layout and no reserved name among their words, also when
they are put side by side.  So the row expands to its own pattern, unless a word of it is a name
that other rows have with blank characters around it: names are reserved as they are given, and
registered without these.
-/

namespace RowGrammar

open Text

/-! ## Patterns that expand to themselves -/

namespace TokenPattern

theorem flatMap_chars_segments (pattern : List Char) :
    (segments pattern).flatMap Segment.chars = pattern := by
  rw [segments_eq, List.flatMap_map]
  simp only [chars_ofRun]
  rw [List.flatMap_def, ← List.map_flatten, flatten_runs, map_fst_marked]

/-- A word starts with a letter. -/
theorem exists_letter_of_mem_segments {pattern chars : List Char}
    (listed : .word chars ∈ segments pattern) :
    ∃ letter more, chars = letter :: more ∧ isNameLetter letter := by
  rw [segments_eq] at listed
  obtain ⟨run, among, is_word⟩ := List.mem_map.mp listed
  obtain ⟨⟨several, marks⟩, rfl⟩ := ofRun_eq_word_iff.mp is_word
  cases run with
  | nil => cases several
  | cons mark run =>
      have member : mark ∈ marked .start pattern := by
        rw [← flatten_runs (·.2) (marked .start pattern)]
        exact List.mem_flatten.mpr ⟨_, among, List.mem_cons_self⟩
      exact ⟨mark.1, run.map (·.1), rfl,
        isNameLetter_of_marked member (marks mark List.mem_cons_self)⟩

/-- A word is no name of unrecognized input. -/
theorem ne_of_mem_words {pattern : String} {word : Word} (member : word ∈ words pattern) :
    word.text ≠ "" ∧ word.text ≠ unrecognizedName := by
  have several := (hasWord_of_mem_words member).several
  constructor
  · intro empty
    rw [empty] at several
    exact absurd several (by decide)
  · intro unknown
    rw [unknown] at several
    exact absurd several (by decide)

theorem stripFrom_sublist (escaped : Bool) (chars : List Char) :
    (stripFrom escaped chars).Sublist chars := by
  induction chars generalizing escaped with
  | nil => exact .slnil
  | cons c chars induction =>
      rw [stripFrom]
      split_ifs
      · exact (induction _).cons _
      · exact (induction _).cons_cons _

/-- Where nothing is dropped from a text, nothing is dropped from either part of it. -/
theorem stripFrom_eq_self_of_append {escaped : Bool} {chars more : List Char}
    (same : stripFrom escaped (chars ++ more) = chars ++ more) :
    stripFrom escaped chars = chars ∧ stripFrom (dangles escaped chars) more = more := by
  rw [stripFrom_append] at same
  have first := (stripFrom_sublist escaped chars).length_le
  have second := (stripFrom_sublist (dangles escaped chars) more).length_le
  have lengths := congrArg List.length same
  simp only [List.length_append] at lengths
  exact ⟨(stripFrom_sublist _ _).eq_of_length (by omega),
    (stripFrom_sublist _ _).eq_of_length (by omega)⟩

section

variable {registry : Registry} {text : NodeTypeId → String}

theorem substitute_of_unresolved {segment : Segment}
    (unresolved : ∀ chars, segment = .word chars → registry.resolve? (String.ofList chars) = none) :
    substitute registry text segment = String.ofList segment.chars := by
  cases segment with
  | verbatim chars => rfl
  | word chars => simp [substitute, unresolved chars rfl, Segment.chars]

/-- A reference that is written out starts with a parenthesis, and a word does not. -/
theorem unresolved_of_stripFrom {pieces : List Segment} {escaped : Bool}
    (letters : ∀ chars, .word chars ∈ pieces →
      ∃ letter more, chars = letter :: more ∧ isNameLetter letter)
    (plain : stripFrom escaped (pieces.flatMap Segment.chars) = pieces.flatMap Segment.chars)
    (same : stripFrom escaped (String.join (pieces.map (substitute registry text))).toList =
      pieces.flatMap Segment.chars) :
    ∀ chars, .word chars ∈ pieces → registry.resolve? (String.ofList chars) = none := by
  induction pieces generalizing escaped with
  | nil => exact nofun
  | cons piece pieces induction =>
      obtain ⟨kept, rest⟩ := stripFrom_eq_self_of_append plain
      have unresolved (chars : List Char) (is_word : piece = .word chars) :
          registry.resolve? (String.ofList chars) = none := by
        subst is_word
        obtain ⟨letter, more, rfl, named⟩ := letters chars List.mem_cons_self
        cases resolved : registry.resolve? (String.ofList (letter :: more)) with
        | none => rfl
        | some targets =>
            obtain ⟨inner, opens⟩ : ∃ inner,
                (substitute registry text (.word (letter :: more))).toList = '(' :: inner := by
              simp only [substitute, resolved, inlined, String.toList_append, String.reduceToList]
              exact ⟨_, rfl⟩
            have seen : isBlank '(' = false := by decide
            rw [List.map_cons, String.join_cons, String.toList_append, opens, List.cons_append,
              stripFrom, seen, Bool.and_false, if_neg Bool.false_ne_true] at same
            obtain rfl : '(' = letter := (List.cons.inj same).1
            exact absurd named (by decide)
      rw [List.map_cons, String.join_cons, String.toList_append,
        substitute_of_unresolved unresolved, String.toList_ofList, stripFrom_append, kept,
        List.flatMap_cons] at same
      intro chars member
      rcases List.mem_cons.mp member with here | later
      · exact unresolved chars here.symm
      · exact induction (fun chars inside => letters chars (List.mem_cons_of_mem _ inside)) rest
          (List.append_cancel_left same) chars later

end

/-- The expanded pattern of a token type is found by its number. -/
theorem exists_lookup_of_expandAll {grammar : Grammar} {table : List (NodeTypeId × String)}
    (expands : expandAll grammar = .ok table) {rule : TokenRule}
    (listed : rule ∈ grammar.tokenRules) :
    ∃ full, Substituted grammar rule.nodeType full ∧
      table.lookup rule.nodeType = some (strip full) := by
  have each := expanded_of_expandAll expands
  obtain ⟨entry, member, typed, _⟩ := exists_of_forall₂ each (Array.mem_toList_iff.mpr listed)
  cases found : table.lookup rule.nodeType with
  | none =>
      have apart := List.lookup_eq_none_iff.mp found entry member
      simp [typed] at apart
  | some pattern =>
      obtain ⟨before, after, rfl, _⟩ := List.lookup_eq_some_iff.mp found
      have inside : (rule.nodeType, pattern) ∈ before ++ (rule.nodeType, pattern) :: after :=
        List.mem_append_right _ List.mem_cons_self
      obtain ⟨other, _, same, full, substituted, stripped⟩ := exists_of_forall₂ each.flip inside
      refine ⟨full, ?_, congrArg some stripped⟩
      rwa [show rule.nodeType = other.nodeType from same]

/-- What is left of a text without its layout, segment by segment. -/
theorem stripFrom_of_strip {text pattern : String} (same : strip text = pattern) :
    stripFrom false text.toList = (segments pattern.toList).flatMap Segment.chars := by
  rw [flatMap_chars_segments, ← stripChars_eq]
  simpa [strip] using congrArg String.toList same

/-- A pattern without layout is its own substitution exactly when no word of it stands for
anything. -/
theorem Substituted.strip_eq_iff {grammar : Grammar} {id : NodeTypeId} {full : String}
    (substituted : Substituted grammar id full) {rule : TokenRule}
    (found : grammar.tokenRule? id = some rule) (stripped : strip rule.pattern = rule.pattern) :
    strip full = rule.pattern ↔
      ∀ word ∈ words rule.pattern, grammar.registry.resolve? word.text = none := by
  have plain : stripFrom false ((segments rule.pattern.toList).flatMap Segment.chars) =
      (segments rule.pattern.toList).flatMap Segment.chars := by
    rw [flatMap_chars_segments, stripFrom_of_strip stripped, flatMap_chars_segments]
  cases substituted with
  | rule text same _ =>
      cases found.symm.trans same
      constructor
      · intro unchanged word member
        have listed : .word word.text.toList ∈ segments rule.pattern.toList :=
          exists_mem_words_iff.mp ⟨word, member, by rw [String.ofList_toList]⟩
        have unresolved := unresolved_of_stripFrom
          (fun _ listed => exists_letter_of_mem_segments listed) plain
          (stripFrom_of_strip unchanged) _ listed
        rwa [String.ofList_toList] at unresolved
      · intro unresolved
        have each : (segments rule.pattern.toList).map (substitute grammar.registry text) =
            (segments rule.pattern.toList).map fun segment => String.ofList segment.chars := by
          refine List.map_congr_left fun segment listed => substitute_of_unresolved ?_
          rintro chars rfl
          obtain ⟨word, member, same⟩ := exists_mem_words_iff.mpr listed
          exact same ▸ unresolved word member
        have joined : String.join ((segments rule.pattern.toList).map
            fun segment => String.ofList segment.chars) = rule.pattern := by
          rw [← String.toList_inj, String.toList_join, List.flatMap_map]
          simpa using flatMap_chars_segments rule.pattern.toList
        rw [each, joined, stripped]

end TokenPattern

/-! ## Names of a loaded grammar -/

theorem Registry.unresolved_iff {registry : Registry} {name : String}
    (known : name ≠ unrecognizedName) :
    registry.resolve? name = none ↔ registry.id? name = none ∧ registry.group? name = none := by
  rw [resolve?, if_neg known]
  cases registry.id? name with
  | none => simp
  | some id => simp

namespace Grammar

theorem mem_cleaned {rows : List Row} {row : Row} :
    row ∈ cleaned rows ↔ ∃ given ∈ rows, given.isBlank = false ∧ given.trimmed = row := by
  simp [cleaned, and_assoc]

/-- A name stands for something when a row has it as its type or its group, apart from blank
characters. -/
theorem resolve?_eq_none_iff {rows : List Row} {grammar : Grammar}
    (loaded : load rows = .ok grammar) {name : String} (filled : name ≠ "")
    (known : name ≠ unrecognizedName) :
    grammar.registry.resolve? name = none ↔
      ∀ row ∈ rows, row.isBlank = false → trim row.nodeType ≠ name ∧ trim row.group ≠ name := by
  obtain ⟨groups, _, rfl⟩ := load_arranges loaded
  have typed : (ungrouped (cleaned rows)).registry.id? name = none ↔
      ∀ row ∈ cleaned rows, row.nodeType ≠ name := by
    rw [Registry.id?_eq_none_iff]
    simp [ungrouped, known]
  have grouped : (ungrouped (cleaned rows)).registry.group? name = none ↔
      ∀ row ∈ cleaned rows, row.group ≠ name := by
    rw [Registry.group?_eq_none_iff]
    simp only [ungrouped, mem_groupsOf_names]
    simp [filled]
  change (ungrouped (cleaned rows)).registry.resolve? name = none ↔ _
  rw [Registry.unresolved_iff known, typed, grouped]
  simp only [mem_cleaned]
  constructor
  · rintro ⟨types, groups⟩ row member present
    exact ⟨types _ ⟨row, member, present, rfl⟩, groups _ ⟨row, member, present, rfl⟩⟩
  · intro each
    constructor
    · rintro _ ⟨row, member, present, rfl⟩
      exact (each row member present).1
    · rintro _ ⟨row, member, present, rfl⟩
      exact (each row member present).2

/-- The names that rows have with blank characters around them, as they are registered. -/
def paddedNames (rows : List Row) : List String :=
  (((rows.filter fun row => !row.isBlank).flatMap fun row => [row.nodeType, row.group]).filter
    fun name => trim name != name).map trim

theorem mem_paddedNames {rows : List Row} {name : String} :
    name ∈ paddedNames rows ↔ ∃ row ∈ rows, row.isBlank = false ∧
      ∃ given ∈ [row.nodeType, row.group], trim given ≠ given ∧ trim given = name := by
  simp only [paddedNames, List.mem_map, List.mem_filter, List.mem_flatMap, Bool.not_eq_true',
    bne_iff_ne]
  constructor
  · rintro ⟨given, ⟨⟨row, ⟨member, present⟩, among⟩, padded⟩, rfl⟩
    exact ⟨row, member, present, given, among, padded, rfl⟩
  · rintro ⟨row, member, present, given, among, padded, rfl⟩
    exact ⟨given, ⟨⟨row, ⟨member, present⟩, among⟩, padded⟩, rfl⟩

/-- Names that are no row's as it is given stand for something only without the blank characters
around a padded one. -/
theorem unresolved_iff {rows : List Row} {grammar : Grammar} (loaded : load rows = .ok grammar)
    {name : String} (filled : name ≠ "") (known : name ≠ unrecognizedName)
    (unnamed : ∀ row ∈ rows, row.nodeType ≠ name ∧ row.group ≠ name) :
    grammar.registry.resolve? name = none ↔ name ∉ paddedNames rows := by
  rw [resolve?_eq_none_iff loaded filled known, mem_paddedNames]
  constructor
  · rintro each ⟨row, member, present, given, among, _, same⟩
    rcases List.mem_pair.mp among with rfl | rfl
    · exact (each row member present).1 same
    · exact (each row member present).2 same
  · intro unpadded row member present
    obtain ⟨typed, grouped⟩ := unnamed row member
    constructor
    · intro same
      refine unpadded ⟨row, member, present, _, List.mem_cons_self, ?_, same⟩
      exact fun whole => typed (whole.symm.trans same)
    · intro same
      refine unpadded ⟨row, member, present, _, List.mem_of_mem_getLast? rfl, ?_, same⟩
      exact fun whole => grouped (whole.symm.trans same)

/-- A row without a parse pattern has a token rule. -/
theorem exists_tokenRule_of_row {rows : List Row} {grammar : Grammar}
    (loaded : load rows = .ok grammar) {row : Row} (member : row ∈ rows)
    (present : row.isBlank = false) (unparsed : row.isParserRow = false) :
    ∃ rule ∈ grammar.tokenRules, grammar.registry.id? (trim row.nodeType) = some rule.nodeType ∧
      rule.pattern = row.tokenPattern := by
  obtain ⟨groups, arranges, rfl⟩ := load_arranges loaded
  have cleaned : row.trimmed ∈ cleaned rows := mem_cleaned.mpr ⟨row, member, present, rfl⟩
  obtain ⟨place, found⟩ := List.mem_iff_getElem?.mp cleaned
  have token : row.isTokenRow = !row.isParserRow := (arranges.readable.each _ cleaned).onePattern
  rw [unparsed] at token
  have made : row.trimmed.tokenRule? place = some
      ⟨place + 1, row.trimmed.parser, row.tokenPattern, row.trimmed.delegate?⟩ := if_pos token
  have listed := mem_tokenRules.mpr ⟨_, _, found, made⟩
  refine ⟨_, Array.mem_toList_iff.mp listed, ?_, rfl⟩
  refine (Reorders.id?_eq_some_iff arranges.readable).mpr ?_
  simp [ungrouped, found, Row.trimmed]

end Grammar

/-! ## Alternatives side by side -/

namespace Derivation

open TokenPattern

/-- A pattern in pieces without layout, among whose words there is no reserved name. -/
structure Guarded (reserved : List String) (pattern : List Char) (pieces : List (List Char)) :
    Prop where
  joined : pieces.flatten = pattern
  inert : ∀ piece ∈ pieces, Inert piece
  absent : ∀ {letters}, HasWord (pieces.flatMap marksOf) letters →
    String.ofList letters ∉ reserved

namespace Guarded

variable {reserved : List String} {pattern more : List Char} {pieces others : List (List Char)}

theorem nil : Guarded reserved [] [] where
  joined := rfl
  inert := nofun
  absent has := by
    obtain ⟨_, inside, _⟩ := has.exists_marked
    cases inside

theorem literal (reserved : List String) (literal : List Char) :
    Guarded reserved (writeLiteral reserved literal).flatten (writeLiteral reserved literal) where
  joined := rfl
  inert := inert_of_writes (writes_writeLiteral reserved literal)
  absent := not_mem_reserved

/-- A piece without letters of words can stand between two patterns. -/
theorem between (first : Guarded reserved pattern pieces) {piece : List Char} (inert : Inert piece)
    (filled : marksOf piece ≠ []) (unmarked : ∀ mark ∈ marksOf piece, mark.2 = false)
    (second : Guarded reserved more others) :
    Guarded reserved (pattern ++ (piece ++ more)) (pieces ++ piece :: others) where
  joined := by simp [first.joined, second.joined]
  inert := by
    simp only [List.mem_append, List.mem_cons]
    rintro _ (before | rfl | after)
    · exact first.inert _ before
    · exact inert
    · exact second.inert _ after
  absent {letters} has := by
    rw [List.flatMap_append, List.flatMap_cons] at has
    have starts (mark : Char × Bool)
        (head : mark ∈ (marksOf piece ++ others.flatMap marksOf).head?) : mark.2 = false := by
      rw [List.head?_append_of_ne_nil _ filled] at head
      exact unmarked mark (List.mem_of_mem_head? head)
    rcases has.of_append (.inr starts) with inside | later
    · exact first.absent inside
    · rcases later.of_append (.inl fun mark last => unmarked mark (List.mem_of_mem_getLast? last))
        with among | after
      · obtain ⟨mark, inside, marked⟩ := among.exists_marked
        rw [unmarked mark inside] at marked
        cases marked
      · exact second.absent after

theorem strip_eq {pattern : String} (guarded : Guarded reserved pattern.toList pieces) :
    strip pattern = pattern := by
  rw [strip, stripChars_eq, ← guarded.joined, stripFrom_of_inert guarded.inert, guarded.joined,
    String.ofList_toList]

theorem not_mem {pattern : String} (guarded : Guarded reserved pattern.toList pieces) {word : Word}
    (member : word ∈ words pattern) : word.text ∉ reserved := by
  have has := hasWord_of_mem_words member
  rw [← guarded.joined, (cut_of_inert guarded.inert).marked_eq] at has
  simpa using guarded.absent has

end Guarded

theorem exists_guarded_fragment (leaves : List LeafOccurrence) (reserved : List String)
    (nodeType literal : String) :
    ∃ pieces, Guarded reserved
      (TokenInference.fragment leaves reserved nodeType literal).pattern.toList pieces := by
  change ∃ pieces, Guarded reserved (withBoundary _ _ _).toList pieces
  rw [withBoundary_eq]
  have plain := Guarded.literal reserved literal.toList
  rw [← toList_escapeLiteral] at plain
  split_ifs
  · have escape : Inert ['\\', 'b'] := inert_escape rfl
    have bounded := plain.between escape (by decide) (by decide) .nil
    exact ⟨_, by simpa using bounded⟩
  · exact ⟨_, plain⟩

theorem inert_bar : Inert ['|'] where
  cut := .plain (by decide) (by decide) (by decide) fun same => absurd same (by decide)
  strips := by decide
  settles := by decide

/-- Alternatives are put side by side with a bar between them. -/
theorem exists_guarded_intercalate {reserved : List String} {patterns : List String}
    (each : ∀ pattern ∈ patterns, ∃ pieces, Guarded reserved pattern.toList pieces) :
    ∃ pieces, Guarded reserved ("|".intercalate patterns).toList pieces := by
  induction patterns with
  | nil => exact ⟨[], .nil⟩
  | cons pattern patterns induction =>
      obtain ⟨⟨pieces, first⟩, rest⟩ := List.forall_mem_cons.mp each
      cases patterns with
      | nil => exact ⟨pieces, by simpa using first⟩
      | cons next patterns =>
          obtain ⟨others, second⟩ := induction rest
          have joined := first.between inert_bar (by decide) (by decide) second
          refine ⟨pieces ++ ['|'] :: others, ?_⟩
          rw [String.intercalate_cons_cons]
          simpa using joined

/-! ## Inferred rows -/

section

variable {source : String} {example_ : Tree} {seeds : List Row} {leaves : List LeafOccurrence}
  {parser : String}

theorem mem_rows_infer {row : Row}
    (member : row ∈ (TokenInference.infer leaves seeds example_).rows parser) :
    (∃ leaf ∈ leaves, leaf.nodeType = row.nodeType) ∧
      row = .token parser row.nodeType row.tokenPattern ∧
      ∃ pieces, Guarded (TokenInference.reservedNames seeds example_) row.tokenPattern.toList
        pieces := by
  obtain ⟨entry, listed, rfl⟩ := List.mem_map.mp member
  obtain ⟨typed, _, fragments⟩ := mem_entries_infer.mp listed
  refine ⟨typed, rfl, exists_guarded_intercalate fun pattern among => ?_⟩
  rw [fragments] at among
  obtain ⟨_, inside, rfl⟩ := List.mem_map.mp among
  obtain ⟨literal, _, rfl⟩ := List.mem_map.mp inside
  exact exists_guarded_fragment leaves _ entry.nodeType literal

/-- All names of seeds and of inferred rows are reserved. -/
theorem mem_reservedNames (located : locateLeaves source example_ = .ok leaves) {row : Row}
    (member : row ∈ seeds ++ (TokenInference.infer leaves seeds example_).rows parser) :
    row.nodeType ∈ TokenInference.reservedNames seeds example_ ∧
      (row.group ≠ "" → row.group ∈ TokenInference.reservedNames seeds example_) := by
  simp only [TokenInference.reservedNames, List.mem_append, List.mem_filter, bne_iff_ne]
  rcases List.mem_append.mp member with seed | inferred
  · exact ⟨.inl (.inl (List.mem_map_of_mem seed)),
      fun grouped => .inr ⟨List.mem_map_of_mem seed, grouped⟩⟩
  · obtain ⟨⟨leaf, inside, typed⟩, same, _⟩ := mem_rows_infer inferred
    refine ⟨.inl (.inr ?_), fun grouped => ?_⟩
    · have among : leaf.nodeType ∈ example_.leaves.map (·.1) := by
        rw [← locateFrom_types located]
        exact List.mem_map_of_mem inside
      obtain ⟨⟨_, text⟩, part, named⟩ := List.mem_map.mp among
      have subtree := Tree.mem_subtrees_of_mem_leaves example_ part
      exact List.mem_map.mpr ⟨_, subtree, named.trans typed⟩
    · rw [same] at grouped
      exact absurd rfl grouped

/-- In a grammar of seeds and inferred rows, an inferred row has no reserved name among the words of
its token pattern, and it expands to this pattern exactly when none of the words is a name that a
row has with blank characters around it. -/
theorem expandAll_inferred (located : locateLeaves source example_ = .ok leaves)
    {grammar : Grammar} {table : List (NodeTypeId × String)}
    (loaded : Grammar.load
      (seeds ++ (TokenInference.infer leaves seeds example_).rows parser) = .ok grammar)
    (expands : expandAll grammar = .ok table) {row : Row}
    (member : row ∈ (TokenInference.infer leaves seeds example_).rows parser)
    (present : row.isBlank = false) :
    (∀ word ∈ words row.tokenPattern,
      word.text ∉ TokenInference.reservedNames seeds example_) ∧
    ∃ id pattern, grammar.registry.id? (trim row.nodeType) = some id ∧
      table.lookup id = some pattern ∧
      (pattern = row.tokenPattern ↔ ∀ word ∈ words row.tokenPattern, word.text ∉
        Grammar.paddedNames
          (seeds ++ (TokenInference.infer leaves seeds example_).rows parser)) := by
  obtain ⟨_, same, pieces, guarded⟩ := mem_rows_infer member
  obtain ⟨rule, listed, numbered, pattern_eq⟩ := Grammar.exists_tokenRule_of_row loaded
    (List.mem_append_right seeds member) present (by rw [same]; rfl)
  obtain ⟨full, substituted, found⟩ := exists_lookup_of_expandAll expands listed
  refine ⟨fun word => guarded.not_mem, rule.nodeType, strip full, numbered, found, ?_⟩
  rw [← pattern_eq] at guarded ⊢
  rw [substituted.strip_eq_iff (tokenRule?_nodeType loaded listed) guarded.strip_eq]
  refine forall₂_congr fun word inside => ?_
  obtain ⟨filled, known⟩ := ne_of_mem_words inside
  refine Grammar.unresolved_iff loaded filled known fun other among => ?_
  obtain ⟨typed, grouped⟩ := mem_reservedNames located among
  have free := guarded.not_mem inside
  constructor
  · rintro named
    exact free (named ▸ typed)
  · intro named
    exact free (named ▸ grouped (named ▸ filled))

end

/-- The rows for a word that a seed has as its name, where the seed may have it with blank
characters around it. -/
def namedRows (name : String) : List Row :=
  [.token "main" name "\\s+"] ++ (TokenInference.infer [⟨"Word", "WS", 0, none⟩]
    [.token "main" name "\\s+"] (.leaf "Word" "WS")).rows "main"

/-- The word is written letter by letter, and so it stays. -/
theorem expandAll_inferred_named :
    locateLeaves "WS" (.leaf "Word" "WS") = .ok [⟨"Word", "WS", 0, none⟩] ∧
      ∃ grammar table, Grammar.load (namedRows "WS") = .ok grammar ∧
        expandAll grammar = .ok table ∧
        namedRows "WS" = [.token "main" "WS" "\\s+", .token "main" "Word" "[W][S]\\b"] ∧
        ∃ id, grammar.registry.id? "Word" = some id ∧ table.lookup id = some "[W][S]\\b" := by
  have located : locateLeaves "WS" (.leaf "Word" "WS") = .ok [⟨"Word", "WS", 0, none⟩] := by
    decide +kernel
  have loaded := @eq_ok_get _ _ (Grammar.load (namedRows "WS")) (by decide +kernel)
  have expands := @eq_ok_get _ _ (expandAll ((Grammar.load (namedRows "WS")).toOption.get
    (by decide +kernel))) (by decide +kernel)
  have inferred : Row.token "main" "Word" "[W][S]\\b" ∈
      (TokenInference.infer [⟨"Word", "WS", 0, none⟩] [.token "main" "WS" "\\s+"]
        (.leaf "Word" "WS")).rows "main" := by
    decide +kernel
  obtain ⟨_, id, pattern, numbered, found, kept⟩ :=
    expandAll_inferred located loaded expands inferred (by decide +kernel)
  rw [kept.mpr (by decide +kernel)] at found
  exact ⟨located, _, _, loaded, expands, by decide +kernel, id, numbered, found⟩

/-- With a blank character before the name of the seed, the word is taken for the seed. -/
theorem expandAll_padded :
    locateLeaves "WS" (.leaf "Word" "WS") = .ok [⟨"Word", "WS", 0, none⟩] ∧
      ∃ grammar table, Grammar.load (namedRows " WS") = .ok grammar ∧
        expandAll grammar = .ok table ∧
        namedRows " WS" = [.token "main" " WS" "\\s+", .token "main" "Word" "WS\\b"] ∧
        grammar.registry.id? "Word" = some 2 ∧ table.lookup 2 = some "(?:\\s+)\\b" := by
  have loaded := @eq_ok_get _ _ (Grammar.load (namedRows " WS")) (by decide +kernel)
  have expands := @eq_ok_get _ _ (expandAll ((Grammar.load (namedRows " WS")).toOption.get
    (by decide +kernel))) (by decide +kernel)
  exact ⟨by decide +kernel, _, _, loaded, expands, by decide +kernel, by decide +kernel,
    by decide +kernel⟩

end Derivation

end RowGrammar
