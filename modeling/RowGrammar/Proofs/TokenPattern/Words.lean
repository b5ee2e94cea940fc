import RowGrammar.Proofs.Digits
import RowGrammar.Proofs.Runs
import RowGrammar.TokenPattern.Words

/-!
# Words of a token pattern

The scan marks the letters that are plain text, and the words are the longest marked runs of two
letters or more.  They stand in the pattern in their order, each where it says it does.
-/

namespace RowGrammar.TokenPattern

open RowGrammar.Text

/-! ## Marked characters -/

theorem map_fst_marked (state : ScanState) (chars : List Char) :
    (marked state chars).map (·.1) = chars := by
  induction chars generalizing state with
  | nil => rfl
  | cons c chars induction => rw [marked, List.map_cons, induction]

theorem marked_append (state : ScanState) (chars more : List Char) :
    marked state (chars ++ more) =
      marked state chars ++ marked (chars.foldl ScanState.next state) more := by
  induction chars generalizing state with
  | nil => rfl
  | cons c chars induction =>
      rw [List.cons_append, marked, induction, marked, List.foldl_cons, List.cons_append]

theorem isNameLetter_of_marked {state : ScanState} {chars : List Char} {mark : Char × Bool}
    (member : mark ∈ marked state chars) (letter : mark.2) : isNameLetter mark.1 := by
  induction chars generalizing state with
  | nil => cases member
  | cons c chars induction =>
      rw [marked, List.mem_cons] at member
      rcases member with rfl | later
      · exact (Bool.and_eq_true_iff.mp letter).2
      · exact induction later

/-! ## Words and segments -/

theorem segments_eq (pattern : List Char) :
    segments pattern = (runs (·.2) (marked .start pattern)).map Segment.ofRun := rfl

theorem ofRun_eq_word_iff {run : List (Char × Bool)} {chars : List Char} :
    Segment.ofRun run = .word chars ↔
      (2 ≤ run.length ∧ ∀ mark ∈ run, mark.2) ∧ run.map (·.1) = chars := by
  rw [← List.all_eq_true]
  unfold Segment.ofRun
  split_ifs with long
  · rw [Segment.word.injEq]
    exact (and_iff_right long).symm
  · exact iff_of_false (by simp) fun letters => long letters.1

theorem chars_ofRun (run : List (Char × Bool)) :
    (Segment.ofRun run).chars = run.map (·.1) := by
  unfold Segment.ofRun
  split_ifs <;> rfl

theorem exists_mem_wordsFrom_iff {offset : Nat} {chars : List Char} {pieces : List Segment} :
    (∃ word ∈ wordsFrom offset pieces, word.text = String.ofList chars) ↔
      .word chars ∈ pieces := by
  induction pieces generalizing offset with
  | nil => simp [wordsFrom]
  | cons piece pieces induction =>
      cases piece with
      | word letters => simp [wordsFrom, induction, String.ofList_inj, eq_comm]
      | verbatim letters => simp [wordsFrom, induction]

/-- The words of a pattern are its word segments. -/
theorem exists_mem_words_iff {pattern : String} {chars : List Char} :
    (∃ word ∈ words pattern, word.text = String.ofList chars) ↔
      .word chars ∈ segments pattern.toList :=
  exists_mem_wordsFrom_iff

/-- A word starts where the segments before its own end. -/
theorem exists_of_mem_wordsFrom {offset : Nat} {pieces : List Segment} {word : Word}
    (member : word ∈ wordsFrom offset pieces) :
    ∃ earlier later, pieces = earlier ++ .word word.text.toList :: later ∧
      word.start = offset + utf8Length (earlier.flatMap Segment.chars) ∧
      word.stop = word.start + utf8Length word.text.toList := by
  induction pieces generalizing offset with
  | nil => cases member
  | cons piece pieces induction =>
      have shift {chars : List Char} (same : piece.chars = chars)
          (member : word ∈ wordsFrom (offset + utf8Length chars) pieces) :
          ∃ earlier later, piece :: pieces = earlier ++ .word word.text.toList :: later ∧
            word.start = offset + utf8Length (earlier.flatMap Segment.chars) ∧
            word.stop = word.start + utf8Length word.text.toList := by
        obtain ⟨earlier, later, rfl, starts, stops⟩ := induction member
        refine ⟨piece :: earlier, later, rfl, ?_, stops⟩
        rw [starts, List.flatMap_cons, utf8Length_append, same, Nat.add_assoc]
      cases piece with
      | word chars =>
          rcases List.mem_cons.mp member with rfl | later
          · exact ⟨[], pieces, by simp [String.toList_ofList], rfl, by simp [String.toList_ofList]⟩
          · exact shift rfl later
      | verbatim chars => exact shift rfl member

/-! ## Places of words -/

theorem le_start_of_mem {offset : Nat} {pieces : List Segment} {word : Word}
    (member : word ∈ wordsFrom offset pieces) : offset ≤ word.start := by
  obtain ⟨_, _, _, starts, _⟩ := exists_of_mem_wordsFrom member
  exact starts ▸ Nat.le_add_right _ _

theorem pairwise_wordsFrom (offset : Nat) (pieces : List Segment) :
    (wordsFrom offset pieces).Pairwise fun word later => word.stop ≤ later.start := by
  induction pieces generalizing offset with
  | nil => exact .nil
  | cons piece pieces induction =>
      cases piece with
      | word chars => exact .cons (fun _ later => le_start_of_mem later) (induction _)
      | verbatim chars => exact induction _

/-- A word between the marks before it and those after it: marked letters, two at least, that
cannot be made a longer word. -/
structure Occurs (marks : List (Char × Bool)) (word : Word) (before after : List (Char × Bool)) :
    Prop where
  marks_eq : before ++ (word.text.toList.map (·, true) ++ after) = marks
  several : 2 ≤ word.text.toList.length
  starts : ∀ mark ∈ before.getLast?, mark.2 = false
  stops : ∀ mark ∈ after.head?, mark.2 = false
  start_eq : word.start = utf8Length (before.map (·.1))
  stop_eq : word.stop = word.start + utf8Length word.text.toList

theorem Occurs.ne_nil {marks before after : List (Char × Bool)} {word : Word}
    (occurs : Occurs marks word before after) : word.text.toList ≠ [] := by
  intro empty
  have several := occurs.several
  rw [empty] at several
  cases several

theorem exists_occurs {pattern : String} {word : Word} (member : word ∈ words pattern) :
    ∃ before after, Occurs (marked .start pattern.toList) word before after := by
  obtain ⟨earlier, later, split, starts, stops⟩ := exists_of_mem_wordsFrom member
  rw [segments_eq] at split
  obtain ⟨before, rest, runs_eq, rfl, following⟩ := List.map_eq_append_iff.mp split
  obtain ⟨run, after, rfl, is_word, rfl⟩ := List.map_eq_cons_iff.mp following
  obtain ⟨⟨several, letters⟩, text⟩ := ofRun_eq_word_iff.mp is_word
  have run_eq : word.text.toList.map (·, true) = run := by
    rw [← text, List.map_map]
    conv => rhs; rw [← List.map_id run]
    exact List.map_congr_left fun mark inside => Prod.ext rfl (letters mark inside).symm
  obtain ⟨closed, closes⟩ := unextended_of_runs_eq runs_eq letters
  refine ⟨before.flatten, after.flatten, ?_, ?_, closed, closes, ?_, stops⟩
  · rw [run_eq, ← flatten_runs (·.2) (marked .start pattern.toList), runs_eq]
    simp
  · rwa [← text, List.length_map]
  · rw [starts, Nat.zero_add, List.map_flatten, List.flatMap_map, List.flatMap_def]
    simp only [chars_ofRun]

/-! ## Words among marks -/

/-- Letters are a word among marks: two at least, all of them marked, that cannot be made a longer
word. -/
structure HasWord (marks : List (Char × Bool)) (letters : List Char) : Prop where
  several : 2 ≤ letters.length
  unextended : ∃ before after, before ++ (letters.map (·, true) ++ after) = marks ∧
    (∀ mark ∈ before.getLast?, mark.2 = false) ∧ ∀ mark ∈ after.head?, mark.2 = false

theorem hasWord_of_mem_words {pattern : String} {word : Word} (member : word ∈ words pattern) :
    HasWord (marked .start pattern.toList) word.text.toList := by
  obtain ⟨before, after, occurs⟩ := exists_occurs member
  exact ⟨occurs.several, before, after, occurs.marks_eq, occurs.starts, occurs.stops⟩

theorem HasWord.ne_nil {marks : List (Char × Bool)} {letters : List Char}
    (has : HasWord marks letters) : letters ≠ [] := by
  have several := has.several
  rintro rfl
  cases several

theorem HasWord.exists_marked {marks : List (Char × Bool)} {letters : List Char}
    (has : HasWord marks letters) : ∃ mark ∈ marks, mark.2 = true := by
  obtain ⟨letter, inside⟩ := List.exists_mem_of_ne_nil _ has.ne_nil
  obtain ⟨_, before, after, split, _⟩ := has
  refine ⟨(letter, true), ?_, rfl⟩
  rw [← split]
  exact List.mem_append_right _ (List.mem_append_left _ (List.mem_map_of_mem inside))

/-- Where no word can run on from the first marks into the second ones, every word is on one
side. -/
theorem HasWord.of_append {first second : List (Char × Bool)} {letters : List Char}
    (has : HasWord (first ++ second) letters)
    (apart : (∀ mark ∈ first.getLast?, mark.2 = false) ∨ ∀ mark ∈ second.head?, mark.2 = false) :
    HasWord first letters ∨ HasWord second letters := by
  obtain ⟨several, before, after, split, starts, stops⟩ := has
  rcases List.append_eq_append_iff.mp split with ⟨more, rfl, inside⟩ | ⟨more, rfl, later⟩
  · rcases List.append_eq_append_iff.mp inside with ⟨rest, rfl, rfl⟩ | ⟨rest, crossing, rfl⟩
    · refine .inl ⟨several, before, rest, rfl, starts, fun mark head => stops mark ?_⟩
      rw [List.head?_append, head]
      rfl
    · -- The word would lie on both sides, unless one of its parts is empty.
      have marked (mark : Char × Bool) (member : mark ∈ more ++ rest) : mark.2 = true := by
        rw [← crossing] at member
        obtain ⟨_, _, rfl⟩ := List.mem_map.mp member
        rfl
      rcases List.eq_nil_or_concat rest with rfl | ⟨_, _, rest_eq⟩
      · rw [List.append_nil] at crossing
        exact .inl ⟨several, before, [], by rw [crossing, List.append_nil], starts, nofun⟩
      · rcases List.eq_nil_or_concat more with rfl | ⟨front, last, rfl⟩
        · rw [List.nil_append] at crossing
          exact .inr ⟨several, [], after, by rw [crossing, List.nil_append], nofun, stops⟩
        · obtain ⟨head, tail, rfl⟩ := List.exists_cons_of_ne_nil (l := rest) (by simp [rest_eq])
          rcases apart with ends | begins
          · have unmarked := ends last (by simp)
            rw [marked last (by simp)] at unmarked
            cases unmarked
          · have unmarked := begins head rfl
            rw [marked head (by simp)] at unmarked
            cases unmarked
  · refine .inr ⟨several, more, after, later.symm, fun mark last => starts mark ?_, stops⟩
    exact List.mem_getLast?_append_of_mem_getLast? last

end RowGrammar.TokenPattern
