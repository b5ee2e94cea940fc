import RowGrammar.Proofs.Regex.Composite
import RowGrammar.Proofs.TokenPattern.Lexemes

/-!
# Words in plain text

A pattern that is cut into pieces has its words among the pieces that are single letters.  The
lexemes of a pattern are such pieces, unless a bracket class has a bracket in it that is neither
escaped nor one of a pair: the scan counts brackets, so it takes the end of such a class to be
somewhere else.
-/

namespace RowGrammar.TokenPattern

open RowGrammar.Text

/-- The letters of a word follow each other as pieces of their own, and the word starts where the
pieces before them end. -/
def Word.StandsIn (word : Word) (pieces : List (List Char)) : Prop :=
  ∃ earlier later, pieces = earlier ++ (word.text.toList.map ([·]) ++ later) ∧
    word.start = utf8Length earlier.flatten

/-- A word is the text of the pattern between its start and its stop. -/
structure Word.TakenFrom (word : Word) (pattern : String) : Prop where
  several : 2 ≤ word.text.toList.length
  letters : ∀ c ∈ word.text.toList, isNameLetter c
  split : ∃ before after, pattern.toList = before ++ (word.text.toList ++ after) ∧
    word.start = utf8Length before ∧ word.stop = utf8Length (before ++ word.text.toList)

theorem takenFrom_of_mem_words {pattern : String} {word : Word} (member : word ∈ words pattern) :
    word.TakenFrom pattern := by
  obtain ⟨before, after, occurs⟩ := exists_occurs member
  refine ⟨occurs.several, fun c inside => ?_, before.map (·.1), after.map (·.1), ?_,
    occurs.start_eq, ?_⟩
  · have marked : (c, true) ∈ marked .start pattern.toList := by
      rw [← occurs.marks_eq]
      exact List.mem_append_right _ (List.mem_append_left _ (List.mem_map_of_mem inside))
    exact isNameLetter_of_marked marked rfl
  · rw [← map_fst_marked .start pattern.toList, ← occurs.marks_eq]
    simp [Function.comp_def]
  · rw [occurs.stop_eq, occurs.start_eq, utf8Length_append]

/-- A valid pattern falls into its lexemes, and these are pieces of it as far as the brackets in its
bracket classes are in pairs or escaped. -/
theorem exists_spans_of_parse? {pattern : String} {regex : Regex}
    (parsed : Regex.parse? pattern = some regex)
    (unspaced : Regex.switchesLayout pattern = false) :
    ∃ texts, Regex.Spans ⟨.initial, [], pattern.toList⟩ texts ∧ texts.flatten = pattern.toList ∧
      ((∀ body, '[' :: (body ++ [']']) ∈ texts → ClassBody body) → Cut texts) := by
  obtain ⟨lexemes, _, lexed, _⟩ := Regex.parse?_eq_some parsed
  have plain : ∀ lexeme ∈ lexemes, lexeme.switchesLayout = false := by
    simpa [Regex.switchesLayout, lexed] using unspaced
  obtain ⟨flags, outer, lexes⟩ := Regex.lexes_of_lexemesFrom ⟨.initial, [], pattern.toList⟩ lexed
    (by simp [Regex.Flags.initial]) plain
  exact lexes.exists_spans rfl

/-- Words are found in plain text. -/
theorem words_plain (pattern : String) :
    (∀ pieces, Cut pieces → pieces.flatten = pattern.toList →
      ∀ word ∈ words pattern, word.StandsIn pieces) ∧
    (∀ regex, Regex.parse? pattern = some regex → Regex.switchesLayout pattern = false →
      ∃ texts, Regex.Spans ⟨.initial, [], pattern.toList⟩ texts ∧
        texts.flatten = pattern.toList ∧
        ((∀ body, '[' :: (body ++ [']']) ∈ texts → ClassBody body) →
          ∀ word ∈ words pattern, word.StandsIn texts)) ∧
    ((words pattern).Pairwise fun word later => word.stop ≤ later.start) ∧
    ∀ word ∈ words pattern, word.TakenFrom pattern := by
  refine ⟨fun pieces cut joined word member => cut.exists_of_mem_words joined member, ?_,
    pairwise_wordsFrom 0 _, fun word member => takenFrom_of_mem_words member⟩
  intro regex parsed unspaced
  obtain ⟨texts, spans, joined, cut⟩ := exists_spans_of_parse? parsed unspaced
  exact ⟨texts, spans, joined, fun balanced word member =>
    (cut balanced).exists_of_mem_words joined member⟩

/-- The pieces of a pattern with a group header, an escape sequence, a bracket class and a counted
repetition. -/
def headedPieces : List (List Char) :=
  [['(', '?', 'P', '<', 'n', 'a', 'm', 'e', '>'], ['S'], ['i'], ['g'], ['n'], [')'], ['?'],
    ['\\', 'd'], ['[', 'a', 'b', ']'], ['{', '2', '}'], ['N'], ['o']]

theorem words_plain_headed :
    Cut headedPieces ∧ headedPieces.flatten = "(?P<name>Sign)?\\d[ab]\x7b2\x7dNo".toList ∧
      words "(?P<name>Sign)?\\d[ab]\x7b2\x7dNo" = [⟨9, 13, "Sign"⟩, ⟨24, 26, "No"⟩] ∧
      ∀ word ∈ words "(?P<name>Sign)?\\d[ab]\x7b2\x7dNo", word.StandsIn headedPieces := by
  have plain {c : Char} {pieces : List (List Char)} (other : c ∉ ['\\', '[', '{', '('])
      (cut : Cut pieces) : Cut ([c] :: pieces) :=
    Regex.fits_of_char other pieces cut rfl
  have header : Markup ['(', '?', 'P', '<', 'n', 'a', 'm', 'e', '>'] :=
    @Markup.name ['P'] ['a', 'm', 'e'] 'n' (.inr rfl) (by decide) (by decide)
  have digit : Markup ['\\', 'd'] := .escape (.fixed rfl (by decide))
  have class_ : Markup ['[', 'a', 'b', ']'] :=
    @Markup.bracket ['a', 'b'] (.char (by decide) (by decide) (by decide)
      (.char (by decide) (by decide) (by decide) .nil))
  have counted : Markup ['{', '2', '}'] := @Markup.repetition ['2'] [] (by decide) (.inl rfl)
  have cut : Cut headedPieces :=
    .markup header <| plain (by decide) <| plain (by decide) <| plain (by decide) <|
      plain (by decide) <| plain (by decide) <| plain (by decide) <| .markup digit <|
      .markup class_ <| .markup counted <| plain (by decide) <| plain (by decide) .nil
  have joined : headedPieces.flatten = "(?P<name>Sign)?\\d[ab]\x7b2\x7dNo".toList := by
    decide +kernel
  exact ⟨cut, joined, by decide +kernel, (words_plain _).1 _ cut joined⟩

/-- A closing bracket that comes first in a bracket class does not end it, but the scan takes it for
the end and finds a word behind it. -/
theorem words_leading_bracket :
    (Regex.parse? "[]ab]").isSome ∧ Regex.switchesLayout "[]ab]" = false ∧
      Regex.Spans ⟨.initial, [], "[]ab]".toList⟩ ["[]ab]".toList] ∧
      words "[]ab]" = [⟨2, 4, "ab"⟩] := by
  have read : Regex.lexeme? .initial ("[]ab]".toList ++ []) =
      some (.atom (.char (.bracketed (.union (.union (.union .nothing (.singleton ']'))
        (.singleton 'a')) (.singleton 'b')))), []) := by
    decide +kernel
  have spans := Regex.Spans.next read rfl (@Regex.Spans.done _ [])
  exact ⟨by decide +kernel, by decide +kernel, spans, by decide +kernel⟩

end RowGrammar.TokenPattern
