import RowGrammar.Derivation.Escape
import RowGrammar.Proofs.Regex.Literal
import RowGrammar.Proofs.TokenPattern.Markup
import RowGrammar.Proofs.TokenPattern.Stripping

/-!
# Escaped literals

Every character of a literal is written on its own: as it is, as an escape sequence, or, in a word
that is a reserved name, as a bracket class.  Whichever it is, there is no layout in it, the scan
reads it alike wherever it stands, and it matches this one character.
-/

namespace RowGrammar.Derivation

open RowGrammar.Text RowGrammar.TokenPattern

/-! ## Classes of characters -/

theorem isSpecial_iff {c : Char} :
    isSpecial c ↔ c ∈ ['\\', '.', '+', '*', '?', '(', ')', '|', '[', ']', '{', '}', '^', '$', '#',
      '&', '-', '~'] := by
  simp [isSpecial, or_assoc]

/-- Whether a character of a literal is written as it is. -/
def isVerbatim (c : Char) : Bool :=
  !isBlank c && !isSpecial c

theorem isVerbatim_of_isNameLetter {c : Char} (letter : isNameLetter c) : isVerbatim c :=
  of_isNameLetter isVerbatim letter (by decide +kernel)

theorem escapeChar_of_isVerbatim {c : Char} (verbatim : isVerbatim c) : escapeChar c = [c] := by
  obtain ⟨seen, plain⟩ : isBlank c = false ∧ isSpecial c = false := by
    simpa [isVerbatim] using verbatim
  have other {d : Char} (blank : isBlank d) : c ≠ d := by
    rintro rfl
    rw [seen] at blank
    cases blank
  simp [escapeChar, other (show isBlank '\n' by decide), other (show isBlank '\t' by decide),
    other (show isBlank '\r' by decide), seen, plain]

/-! ## Spelling -/

section

open RowGrammar.Regex

theorem lexeme?_of_not_special {c : Char} (plain : isSpecial c = false) (rest : List Char) :
    lexeme? .initial (c :: rest) = some (literalChar .initial c, rest) := by
  have other {d : Char} (special : isSpecial d) : c ≠ d := by
    rintro rfl
    rw [plain] at special
    cases special
  unfold lexeme?
  split
  case h_1 same => cases same
  case h_14 same =>
    cases same
    rfl
  all_goals exact absurd (List.cons.inj ‹c :: rest = _›).1 (other rfl)

theorem spells_verbatim {c : Char} (plain : isSpecial c = false) : Spells [c] c :=
  fun rest => ⟨.singleton c, CharSet.isExactly_singleton c, Nat.zero_le _,
    lexeme?_of_not_special plain rest⟩

theorem spells_escape {c : Char} {chars : List Char}
    (escapes : ∀ rest, escape? .initial (chars ++ rest) = some (.literal c, rest)) :
    Spells ('\\' :: chars) c := by
  refine fun rest => ⟨.singleton c, CharSet.isExactly_singleton c, Nat.zero_le _, ?_⟩
  change (escape? .initial (chars ++ rest)).map _ = _
  rw [escapes]
  rfl

theorem escape?_of_special {c : Char} (special : isSpecial c) (rest : List Char) :
    escape? .initial (c :: rest) = some (.literal c, rest) := by
  rw [isSpecial_iff] at special
  simp only [List.mem_cons, List.not_mem_nil, or_false] at special
  rcases special with rfl | rfl | rfl | rfl | rfl | rfl | rfl | rfl | rfl | rfl | rfl | rfl | rfl |
    rfl | rfl | rfl | rfl | rfl <;> rfl

theorem of_mem_digits {value : Nat} {c : Char}
    (member : c ∈ (digitsIn 16 value).map Char.toUpper) :
    c ≠ '}' ∧ c ≠ '\\' ∧ isBlank c = false := by
  have digits : ∀ digit < 16, (hexDigit digit).toUpper ≠ '}' ∧ (hexDigit digit).toUpper ≠ '\\' ∧
      isBlank (hexDigit digit).toUpper = false := by decide
  obtain ⟨_, inside, rfl⟩ := List.mem_map.mp member
  obtain ⟨digit, small, rfl⟩ := exists_of_mem_digitsIn (by decide) inside
  exact digits digit small

theorem hexEscape?_digits (width : Nat) (c : Char) (rest : List Char) :
    hexEscape? .initial width
      ('{' :: ((digitsIn 16 c.toNat).map Char.toUpper ++ '}' :: rest)) = some (c, rest) := by
  have filled : digitsIn 16 c.toNat ≠ [] := digitsIn_ne_nil c.toNat
  apply (hexEscape?_eq_some_iff rfl).mpr
  refine .braced (fun closed => (of_mem_digits closed).1 rfl) ?_
  simp [hexadecimal?, filled, hexadecimalValue?_digitsIn, charOf?_toNat]

/-- A class with one letter in it matches this letter. -/
theorem spells_class {c : Char} (letter : isNameLetter c) : Spells ['[', c, ']'] c := by
  have other {d : Char} (unlike : isNameLetter d = false) : c ≠ d :=
    ne_of_isNameLetter letter unlike
  intro rest
  refine ⟨.bracketed (.union .nothing (.singleton c)), ?_, Nat.le_refl _, ?_⟩
  · intro other
    simpa [CharSet.contains] using CharSet.isExactly_singleton c other
  · have fuel : 2 * (c :: ']' :: rest).length + 2 = 2 * rest.length + 6 := by
      simp only [List.length_cons]
      omega
    change (bracket? .initial (2 * (c :: ']' :: rest).length + 2) (c :: ']' :: rest)).map _ = _
    rw [fuel]
    simp [bracket?, members?, classRange?, classMember?, leadingMembers, skip_eq_self, run_eq,
      Flags.initial, Flags.widen, Flags.negate?, Operand.apply, Primitive.isMember,
      Primitive.set?, other (show isNameLetter '^' = false by decide),
      other (show isNameLetter '-' = false by decide),
      other (show isNameLetter ']' = false by decide),
      other (show isNameLetter '[' = false by decide),
      other (show isNameLetter '&' = false by decide),
      other (show isNameLetter '~' = false by decide),
      other (show isNameLetter '\\' = false by decide)]

end

/-! ## Pieces for characters -/

/-- A piece of a pattern that can stand before any others and has no layout in it. -/
structure Inert (piece : List Char) : Prop where
  cut : ∀ {pieces}, Cut pieces → Cut (piece :: pieces)
  strips : stripFrom false piece = piece
  settles : dangles false piece = false

/-- A piece of a pattern that stands for a character of a literal. -/
structure Writes (piece : List Char) (c : Char) : Prop extends Inert piece where
  spells : Regex.Spells piece c

theorem stripFrom_eq_self {chars : List Char}
    (plain : ∀ c ∈ chars, c ≠ '\\' ∧ isBlank c = false) :
    stripFrom false chars = chars ∧ dangles false chars = false := by
  induction chars with
  | nil => exact ⟨rfl, rfl⟩
  | cons c chars induction =>
      obtain ⟨unlike, seen⟩ := plain c List.mem_cons_self
      obtain ⟨strips, settles⟩ := induction fun d member => plain d (List.mem_cons_of_mem _ member)
      rw [stripFrom, dangles_cons, escapes_of_ne unlike, strips, settles, seen]
      exact ⟨rfl, rfl⟩

/-- An escape sequence is left alone together with the character after its backslash. -/
theorem stripFrom_escape {letter : Char} {chars : List Char}
    (plain : ∀ c ∈ chars, c ≠ '\\' ∧ isBlank c = false) :
    stripFrom false ('\\' :: letter :: chars) = '\\' :: letter :: chars ∧
      dangles false ('\\' :: letter :: chars) = false := by
  obtain ⟨strips, settles⟩ := stripFrom_eq_self plain
  have seen : isBlank '\\' = false := by decide
  constructor
  · simpa [stripFrom, escapes, seen] using strips
  · simpa [dangles_cons, escapes] using settles

/-- A backslash and a character that takes no argument. -/
theorem inert_escape {letter : Char} (fixed : argumentWidth letter = 0) :
    Inert ['\\', letter] where
  cut := .markup (.escape (.fixed fixed.symm (by simp)))
  strips := (stripFrom_escape (by simp)).1
  settles := (stripFrom_escape (by simp)).2

theorem writes_escape {c letter : Char} (fixed : argumentWidth letter = 0)
    (escapes : ∀ rest, Regex.escape? .initial (letter :: rest) = some (.literal c, rest)) :
    Writes ['\\', letter] c :=
  ⟨inert_escape fixed, spells_escape escapes⟩

theorem writes_verbatim {c : Char} (verbatim : isVerbatim c) : Writes [c] c := by
  obtain ⟨seen, plain⟩ : isBlank c = false ∧ isSpecial c = false := by
    simpa [isVerbatim] using verbatim
  have other {d : Char} (special : isSpecial d) : c ≠ d := by
    rintro rfl
    rw [plain] at special
    cases special
  obtain ⟨strips, settles⟩ := @stripFrom_eq_self [c] (by simpa using ⟨other rfl, seen⟩)
  exact {
    cut := .plain (other rfl) (other rfl) (other rfl) fun same => absurd same (other rfl)
    strips
    settles
    spells := spells_verbatim plain }

theorem argumentWidth_of_isSpecial {c : Char} (special : isSpecial c) : argumentWidth c = 0 := by
  have none : ['\\', '.', '+', '*', '?', '(', ')', '|', '[', ']', '{', '}', '^', '$', '#', '&', '-',
      '~'].all (argumentWidth · == 0) := by decide
  exact beq_iff_eq.mp (List.all_eq_true.mp none c (isSpecial_iff.mp special))

/-- The escape sequence with the code point in braces. -/
theorem writes_code (c : Char) :
    Writes (['\\', 'x', '{'] ++ (digitsIn 16 c.toNat).map Char.toUpper ++ ['}']) c := by
  have plain : ∀ d ∈ '{' :: ((digitsIn 16 c.toNat).map Char.toUpper ++ ['}']),
      d ≠ '\\' ∧ isBlank d = false := by
    intro d member
    rcases List.mem_cons.mp member with rfl | inside
    · decide
    · rcases List.mem_append.mp inside with digit | last
      · exact (of_mem_digits digit).2
      · rw [List.mem_singleton.mp last]
        decide
  obtain ⟨strips, settles⟩ := @stripFrom_escape 'x' _ plain
  refine ⟨⟨.markup (.escape (.braced (by decide) ?_)), strips, settles⟩, spells_escape ?_⟩
  · exact fun closed => (of_mem_digits closed).1 rfl
  · intro rest
    change (Regex.hexEscape? .initial 2
      ('{' :: ((digitsIn 16 c.toNat).map Char.toUpper ++ ['}'] ++ rest))).map _ = _
    rw [List.append_assoc, List.singleton_append, hexEscape?_digits]
    rfl

theorem writes_escapeChar (c : Char) : Writes (escapeChar c) c := by
  unfold escapeChar
  split_ifs with newline tab return_ blank special
  · subst newline
    exact writes_escape rfl fun _ => rfl
  · subst tab
    exact writes_escape rfl fun _ => rfl
  · subst return_
    exact writes_escape rfl fun _ => rfl
  · exact writes_code c
  · exact writes_escape (argumentWidth_of_isSpecial special) (escape?_of_special special)
  · exact writes_verbatim (by simp [isVerbatim, blank, special])

/-- A letter of a reserved name as a bracket class. -/
def guardChar (c : Char) : List Char :=
  ['[', c, ']']

theorem writes_guardChar {c : Char} (letter : isNameLetter c) : Writes (guardChar c) c := by
  obtain ⟨seen, plain⟩ : isBlank c = false ∧ isSpecial c = false := by
    simpa [isVerbatim] using isVerbatim_of_isNameLetter letter
  have other {d : Char} (unlike : isNameLetter d = false) : c ≠ d :=
    ne_of_isNameLetter letter unlike
  have body : ClassBody [c] :=
    .char (other (by decide)) (other (by decide)) (other (by decide)) .nil
  have unescaped : ∀ d ∈ ['[', c, ']'], d ≠ '\\' ∧ isBlank d = false := by
    simpa [other (show isNameLetter '\\' = false by decide), seen] using by decide
  obtain ⟨strips, settles⟩ := stripFrom_eq_self unescaped
  exact ⟨⟨.markup (.bracket body), strips, settles⟩, spells_class letter⟩

theorem Writes.marks_ne_nil {piece : List Char} {c : Char} (writes : Writes piece c) :
    marksOf piece ≠ [] := by
  intro nothing
  apply writes.spells.ne_nil
  rw [← map_fst_marksOf piece, nothing, List.map_nil]

/-! ## Pieces of a literal -/

theorem marksOf_escapeChar_of_letter {c : Char} (letter : isNameLetter c) :
    marksOf (escapeChar c) = [(c, true)] := by
  rw [escapeChar_of_isVerbatim (isVerbatim_of_isNameLetter letter), marksOf, letter]

theorem mark_of_mem_escapeChar {c : Char} {mark : Char × Bool}
    (member : mark ∈ marksOf (escapeChar c)) : mark.2 = isNameLetter c := by
  by_cases letter : isNameLetter c
  · rw [marksOf_escapeChar_of_letter letter] at member
    rw [List.mem_singleton.mp member, letter]
  · rw [Bool.not_eq_true] at letter
    unfold escapeChar at member
    split_ifs at member
    case neg => rw [List.mem_singleton.mp member]
    all_goals
      obtain ⟨_, _, rfl⟩ := List.mem_map.mp member
      exact letter.symm

/-- The marks of characters that are written as they are or as escape sequences. -/
abbrev escapedMarks (run : List Char) : List (Char × Bool) :=
  run.flatMap fun c => marksOf (escapeChar c)

theorem escapedMarks_of_letters {run : List Char} (letters : ∀ c ∈ run, isNameLetter c) :
    escapedMarks run = run.map (·, true) := by
  rw [escapedMarks,
    List.flatMap_congr fun c member => marksOf_escapeChar_of_letter (letters c member)]
  exact List.flatMap_pure_eq_map _ _

theorem letters_of_escapedMarks {run : List Char} (marked : ∀ mark ∈ escapedMarks run, mark.2) :
    ∀ c ∈ run, isNameLetter c := by
  intro c member
  obtain ⟨mark, inside⟩ := List.exists_mem_of_ne_nil _ (writes_escapeChar c).marks_ne_nil
  rw [← mark_of_mem_escapeChar inside]
  exact marked mark (List.mem_flatMap.mpr ⟨c, member, inside⟩)

section

variable (reserved : List String)

/-- Whether a run of characters is a word and a reserved name. -/
def isGuarded (run : List Char) : Bool :=
  2 ≤ run.length && run.all isNameLetter && reserved.contains (String.ofList run)

theorem isGuarded_iff {run : List Char} :
    isGuarded reserved run ↔
      2 ≤ run.length ∧ (∀ c ∈ run, isNameLetter c) ∧ String.ofList run ∈ reserved := by
  simp [isGuarded, and_assoc]

/-- How a run of letters, or of other characters, is written. -/
def writeRun (run : List Char) : List (List Char) :=
  run.map (if isGuarded reserved run then guardChar else escapeChar)

/-- How a literal is written. -/
def writeLiteral (literal : List Char) : List (List Char) :=
  (runs isNameLetter literal).flatMap (writeRun reserved)

theorem writes_writeRun (run : List Char) : List.Forall₂ Writes (writeRun reserved run) run := by
  refine List.forall₂_map_left_iff.mpr (List.forall₂_same.mpr fun c member => ?_)
  split_ifs with guarded
  · exact writes_guardChar (((isGuarded_iff reserved).mp guarded).2.1 c member)
  · exact writes_escapeChar c

theorem writes_writeLiteral (literal : List Char) :
    List.Forall₂ Writes (writeLiteral reserved literal) literal := by
  conv => rhs; rw [← flatten_runs isNameLetter literal]
  rw [writeLiteral, List.flatMap_def]
  apply List.rel_flatten
  apply List.forall₂_map_left_iff.mpr
  exact List.forall₂_same.mpr fun run _ => writes_writeRun reserved run

theorem writeRun_of_not_isGuarded {run : List Char} (free : ¬isGuarded reserved run) :
    writeRun reserved run = run.map escapeChar := by
  rw [writeRun, if_neg free]

theorem mark_of_mem_writeRun {run : List Char} {mark : Char × Bool}
    (member : mark ∈ (writeRun reserved run).flatMap marksOf) :
    ∃ c ∈ run, mark.2 = (isNameLetter c && !isGuarded reserved run) := by
  obtain ⟨piece, inside, marked⟩ := List.mem_flatMap.mp member
  obtain ⟨c, among, rfl⟩ := List.mem_map.mp inside
  refine ⟨c, among, ?_⟩
  split_ifs at marked with guarded
  · obtain ⟨_, _, rfl⟩ := List.mem_map.mp marked
    simp [guarded]
  · simp [mark_of_mem_escapeChar marked, guarded]

end

theorem inert_of_writes {pieces : List (List Char)} {literal : List Char}
    (writes : List.Forall₂ Writes pieces literal) : ∀ piece ∈ pieces, Inert piece := by
  induction writes with
  | nil => exact nofun
  | cons first _ induction => exact List.forall_mem_cons.mpr ⟨first.toInert, induction⟩

theorem cut_of_inert {pieces : List (List Char)} (inert : ∀ piece ∈ pieces, Inert piece) :
    Cut pieces := by
  induction pieces with
  | nil => exact .nil
  | cons piece pieces induction =>
      obtain ⟨first, rest⟩ := List.forall_mem_cons.mp inert
      exact first.cut (induction rest)

theorem stripFrom_of_inert {pieces : List (List Char)} (inert : ∀ piece ∈ pieces, Inert piece) :
    stripFrom false pieces.flatten = pieces.flatten := by
  induction pieces with
  | nil => rfl
  | cons piece pieces induction =>
      obtain ⟨first, rest⟩ := List.forall_mem_cons.mp inert
      rw [List.flatten_cons, stripFrom_append, first.strips, first.settles, induction rest]

/-- The runs of an escaped literal are those of the literal. -/
theorem segments_escaped (literal : List Char) :
    segments (literal.flatMap escapeChar) =
      (runs isNameLetter literal).map fun run => Segment.ofRun (escapedMarks run) := by
  have writes : List.Forall₂ Writes (literal.map escapeChar) literal :=
    List.forall₂_map_left_iff.mpr (List.forall₂_same.mpr fun c _ => writes_escapeChar c)
  rw [segments_eq, List.flatMap_def, (cut_of_inert (inert_of_writes writes)).marked_eq,
    List.flatMap_map,
    runs_flatMap _ (fun c => (writes_escapeChar c).marks_ne_nil)
      fun c mark => mark_of_mem_escapeChar, List.map_map]
  rfl

theorem guardSegment_ofRun (reserved : List String) (run : List Char) :
    guardSegment reserved (Segment.ofRun (escapedMarks run)) = (writeRun reserved run).flatten := by
  by_cases guarded : isGuarded reserved run
  · obtain ⟨several, letters, named⟩ := (isGuarded_iff reserved).mp guarded
    have is_word : Segment.ofRun (escapedMarks run) = .word run := by
      rw [escapedMarks_of_letters letters, ofRun_eq_word_iff]
      simp [several, Function.comp_def]
    rw [is_word, guardSegment, if_pos (List.contains_iff_mem.mpr named), writeRun, if_pos guarded,
      ← List.flatMap_def]
    rfl
  · have chars : (Segment.ofRun (escapedMarks run)).chars = (run.map escapeChar).flatten := by
      rw [chars_ofRun, escapedMarks, ← map_fst_flatMap_marksOf, List.flatMap_map]
    rw [writeRun_of_not_isGuarded reserved guarded, ← chars]
    cases kind : Segment.ofRun (escapedMarks run) with
    | verbatim chars => rfl
    | word chars =>
        obtain ⟨⟨several, marked⟩, rfl⟩ := ofRun_eq_word_iff.mp kind
        have letters := letters_of_escapedMarks marked
        have text : (escapedMarks run).map (·.1) = run := by
          simp [escapedMarks_of_letters letters, Function.comp_def]
        rw [escapedMarks_of_letters letters, List.length_map] at several
        rw [text, guardSegment, if_neg]
        · rfl
        · exact fun named => guarded ((isGuarded_iff reserved).mpr
            ⟨several, letters, List.contains_iff_mem.mp named⟩)

theorem toList_escapeLiteral (literal : String) (reserved : List String) :
    (escapeLiteral literal reserved).toList = (writeLiteral reserved literal.toList).flatten := by
  rw [escapeLiteral, String.toList_ofList, segments_escaped, List.flatMap_map, writeLiteral,
    List.flatMap_def, List.flatMap_def, List.flatten_flatten, List.map_map]
  simp only [guardSegment_ofRun]
  rfl

/-! ## Words of a literal -/

/-- The marks of an escaped literal, run by run. -/
abbrev blocks (reserved : List String) (literal : List Char) : List (List (Char × Bool)) :=
  (runs isNameLetter literal).map fun run => (writeRun reserved run).flatMap marksOf

theorem filled_blocks (reserved : List String) (literal : List Char) :
    [] ∉ blocks reserved literal := by
  intro nothing
  obtain ⟨run, among, empty⟩ := List.mem_map.mp nothing
  have writes := writes_writeRun reserved run
  obtain ⟨c, run, rfl⟩ := List.exists_cons_of_ne_nil (ne_nil_of_mem_runs among)
  obtain ⟨piece, _, first, _, written⟩ := List.forall₂_cons_right_iff.mp writes
  rw [written, List.flatMap_cons, List.append_eq_nil_iff] at empty
  exact first.marks_ne_nil empty.1

theorem level_blocks (reserved : List String) (literal : List Char) :
    ∀ block ∈ blocks reserved literal, Level (·.2) block := by
  rintro _ member one first two second
  obtain ⟨run, among, rfl⟩ := List.mem_map.mp member
  obtain ⟨c, left, one_eq⟩ := mark_of_mem_writeRun reserved first
  obtain ⟨d, right, two_eq⟩ := mark_of_mem_writeRun reserved second
  simp only [one_eq, two_eq, level_of_mem_runs among c left d right]

/-- Of two neighbouring runs one has no letters. -/
theorem apart_blocks (reserved : List String) (literal : List Char) :
    (blocks reserved literal).IsChain fun one two =>
      (∀ mark ∈ one, mark.2 = false) ∨ ∀ mark ∈ two, mark.2 = false := by
  refine (List.isChain_map _).mpr ((isChain_runs isNameLetter literal).imp ?_)
  intro one two differ
  by_contra both
  simp only [not_or, not_forall, Bool.not_eq_false] at both
  obtain ⟨⟨mark, first, marked⟩, other, second, marked_⟩ := both
  obtain ⟨c, left, mark_eq⟩ := mark_of_mem_writeRun reserved first
  obtain ⟨d, right, other_eq⟩ := mark_of_mem_writeRun reserved second
  rw [mark_eq, Bool.and_eq_true_iff] at marked
  rw [other_eq, Bool.and_eq_true_iff] at marked_
  exact differ c left d right (marked.1.trans marked_.1.symm)

/-- No word of an escaped literal is a reserved name. -/
theorem not_mem_reserved {literal : List Char} {reserved : List String} {letters : List Char}
    (has : HasWord ((writeLiteral reserved literal).flatMap marksOf) letters) :
    String.ofList letters ∉ reserved := by
  obtain ⟨before, after, split, starts, stops⟩ := has.unextended
  rw [writeLiteral, List.flatMap_assoc, List.flatMap_def] at split
  have present : letters.map (·, true) ≠ [] := by
    simpa using has.ne_nil
  obtain ⟨run, among, same⟩ := List.mem_map.mp <| mem_of_unextended (·.2)
    (filled_blocks reserved _) (level_blocks reserved _) (apart_blocks reserved _) present (by simp)
    starts stops split
  have marked : ∀ mark ∈ (writeRun reserved run).flatMap marksOf, mark.2 := by
    simp [same]
  by_cases guarded : isGuarded reserved run
  · obtain ⟨mark, inside⟩ := List.exists_mem_of_ne_nil _ (same ▸ present)
    obtain ⟨c, _, unmarked⟩ := mark_of_mem_writeRun reserved inside
    rw [marked mark inside, guarded, Bool.not_true, Bool.and_false] at unmarked
    cases unmarked
  · rw [writeRun_of_not_isGuarded reserved guarded, List.flatMap_map] at same marked
    have all_letters := letters_of_escapedMarks marked
    have text : run = letters := by
      have chars := congrArg (List.map (·.1))
        ((escapedMarks_of_letters all_letters).symm.trans same)
      simpa [Function.comp_def] using chars
    intro named
    apply guarded
    rw [isGuarded_iff, text]
    exact ⟨has.several, text ▸ all_letters, named⟩

/-- An escaped literal keeps its text when layout is dropped, has no reserved name among its words,
and matches where the text goes on with the literal, and then exactly the literal. -/
theorem escapeLiteral_faithful (literal : String) (reserved : List String) :
    strip (escapeLiteral literal reserved) = escapeLiteral literal reserved ∧
      (∀ word ∈ words (escapeLiteral literal reserved), word.text ∉ reserved) ∧
      ∃ regex, Regex.parse? (escapeLiteral literal reserved) = some regex ∧
        ∀ text position found, regex.matchAt text position = some found ↔
          literal.toList <+: text.toList.drop position ∧
            found = ⟨position, position + literal.toList.length, []⟩ := by
  have writes := writes_writeLiteral reserved literal.toList
  have inert := inert_of_writes writes
  have joined := toList_escapeLiteral literal reserved
  refine ⟨?_, fun word member => ?_, ?_⟩
  · rw [strip, stripChars_eq, joined, stripFrom_of_inert inert, ← joined, String.ofList_toList]
  · have has := hasWord_of_mem_words member
    rw [joined, (cut_of_inert inert).marked_eq] at has
    simpa using not_mem_reserved has
  · exact Regex.exists_parse?_of_spells (writes.imp fun _ _ each => each.spells) joined.symm

end RowGrammar.Derivation
