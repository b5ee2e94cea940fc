import RowGrammar.Proofs.TokenPattern.Words

/-!
# Markup in a token pattern

A pattern is cut into pieces: characters that may be plain text and pieces of markup, which are
escape sequences, bracket classes, repetitions and group headers.  The scan passes over all of a
piece of markup and then reads on as before it, so the letters of a word are pieces of their own.
-/

namespace RowGrammar.TokenPattern

open RowGrammar.Text

/-! ## Pieces of a pattern -/

/-- How many characters an escape sequence takes after its letter, unless they are in braces. -/
def argumentWidth (letter : Char) : Nat :=
  if letter = 'x' then 2
  else if letter = 'u' then 4
  else if letter = 'U' then 8
  else if letter = 'p' ∨ letter = 'P' then 1
  else 0

/-- An escape sequence, as it may also stand in a bracket class. -/
inductive Escape : List Char → Prop where
  | braced {letter : Char} {body : List Char} :
      argumentWidth letter ≠ 0 → '}' ∉ body → Escape ('\\' :: letter :: '{' :: (body ++ ['}']))
  | fixed {letter : Char} {argument : List Char} :
      argument.length = argumentWidth letter → argument.head? ≠ some '{' →
      Escape ('\\' :: letter :: argument)

/-- What may stand between the brackets of a class: every bracket in it is escaped or belongs to an
inner class. -/
inductive ClassBody : List Char → Prop where
  | nil : ClassBody []
  | char {c : Char} {body : List Char} :
      c ≠ '\\' → c ≠ '[' → c ≠ ']' → ClassBody body → ClassBody (c :: body)
  | escape {chars body : List Char} : Escape chars → ClassBody body → ClassBody (chars ++ body)
  | inner {inside body : List Char} :
      ClassBody inside → ClassBody body → ClassBody ('[' :: (inside ++ ']' :: body))

/-- A piece of a pattern that is more than a character. -/
inductive Markup : List Char → Prop where
  | escape {chars : List Char} : Escape chars → Markup chars
  /-- A named boundary. -/
  | boundary {name : List Char} : '}' ∉ name → Markup ('\\' :: 'b' :: '{' :: (name ++ ['}']))
  | bracket {body : List Char} : ClassBody body → Markup ('[' :: (body ++ [']']))
  /-- A lazy repetition. -/
  | lazy {c : Char} : c ∈ ['?', '*', '+'] → Markup [c, '?']
  /-- A counted repetition, which may be lazy. -/
  | repetition {bounds mark : List Char} :
      '}' ∉ bounds → mark = [] ∨ mark = ['?'] → Markup ('{' :: (bounds ++ '}' :: mark))
  /-- The header of a named group. -/
  | name {mark name : List Char} {first : Char} :
      mark = [] ∨ mark = ['P'] → first ∉ ['<', '=', '!', '>'] → '>' ∉ name →
      Markup ('(' :: '?' :: (mark ++ '<' :: first :: (name ++ ['>'])))
  /-- The header of a group with other flags, or of none. -/
  | flags {letters : List Char} {close : Char} :
      (∀ c ∈ letters, isAsciiLetter c ∨ c = '-') → letters.head? ≠ some 'P' →
      close = ':' ∨ close = ')' → Markup ('(' :: '?' :: (letters ++ [close]))

/-- The characters of a piece with the mark whether they may belong to a word. -/
def marksOf : List Char → List (Char × Bool)
  | [c] => [(c, isNameLetter c)]
  | chars => chars.map (·, false)

theorem map_fst_marksOf (piece : List Char) : (marksOf piece).map (·.1) = piece := by
  unfold marksOf
  split
  · rfl
  · simp [Function.comp_def]

theorem map_fst_flatMap_marksOf (pieces : List (List Char)) :
    (pieces.flatMap marksOf).map (·.1) = pieces.flatten := by
  simp only [List.map_flatMap, map_fst_marksOf, List.flatMap_id']

/-- Pieces that a pattern is cut into: none of the single characters opens a piece of markup. -/
inductive Cut : List (List Char) → Prop where
  | nil : Cut []
  | plain {c : Char} {pieces : List (List Char)} :
      c ≠ '\\' → c ≠ '[' → c ≠ '{' → (c = '(' → pieces.flatten.head? ≠ some '?') → Cut pieces →
      Cut ([c] :: pieces)
  | markup {piece : List Char} {pieces : List (List Char)} :
      Markup piece → Cut pieces → Cut (piece :: pieces)

/-! ## Passing over markup -/

/-- The scan takes none of the characters for text and is in another state after them. -/
structure Passes (state last : ScanState) (chars : List Char) : Prop where
  unread : marked state chars = chars.map (·, false)
  arrives : chars.foldl ScanState.next state = last

namespace Passes

theorem nil (state : ScanState) : Passes state state [] :=
  ⟨rfl, rfl⟩

theorem cons {state last : ScanState} {c : Char} {chars : List Char}
    (silent : (state.readsText c && isNameLetter c) = false)
    (passes : Passes (state.next c) last chars) : Passes state last (c :: chars) := by
  constructor
  · rw [marked, silent, passes.unread]
    rfl
  · exact passes.arrives

theorem append {state middle last : ScanState} {chars more : List Char}
    (passes : Passes state middle chars) (further : Passes middle last more) :
    Passes state last (chars ++ more) := by
  constructor
  · rw [marked_append, passes.unread, passes.arrives, further.unread, List.map_append]
  · rw [List.foldl_append, passes.arrives, further.arrives]

/-- A character that is no letter is passed over in any state. -/
theorem cons_of_not_letter {state last : ScanState} {c : Char} {chars : List Char}
    (other : isNameLetter c = false) (passes : Passes (state.next c) last chars) :
    Passes state last (c :: chars) :=
  cons (by simp [other]) passes

theorem through {depth : Nat} {last : ScanState} {close : Char} {body more : List Char}
    (inside : close ∉ body) (passes : Passes ⟨depth, .nothing⟩ last more) :
    Passes ⟨depth, .through close⟩ last (body ++ close :: more) := by
  induction body with
  | nil =>
      refine cons (by simp [ScanState.readsText]) ?_
      simpa [ScanState.next] using passes
  | cons c body induction =>
      rw [List.mem_cons, not_or] at inside
      refine cons (by simp [ScanState.readsText]) ?_
      simpa [ScanState.next, Ne.symm inside.1] using induction inside.2

theorem skipped {depth : Nat} (chars : List Char) :
    Passes (ScanState.skipped depth chars.length) ⟨depth, .nothing⟩ chars := by
  induction chars with
  | nil => exact nil _
  | cons c chars induction =>
      exact cons (by simp [ScanState.readsText, ScanState.skipped]) induction

end Passes

theorem afterEscape_eq (letter : Char) :
    ScanState.afterEscape letter =
      if argumentWidth letter = 0 then .nothing else .argument (argumentWidth letter) := by
  unfold argumentWidth ScanState.afterEscape
  split_ifs <;> first | rfl | contradiction

theorem Escape.passes {chars : List Char} (escape : Escape chars) (depth : Nat) :
    Passes ⟨depth, .nothing⟩ ⟨depth, .nothing⟩ chars := by
  have opens {letter : Char} {last : ScanState} {chars : List Char}
      (passes : Passes ⟨depth, ScanState.afterEscape letter⟩ last chars) :
      Passes ⟨depth, .nothing⟩ last ('\\' :: letter :: chars) :=
    .cons_of_not_letter (by decide) (.cons (by simp [ScanState.next, ScanState.plain,
      ScanState.readsText]) passes)
  cases escape with
  | braced takes inside =>
      apply opens
      rw [afterEscape_eq, if_neg takes]
      exact .cons_of_not_letter (by decide) (.through inside (.nil _))
  | @fixed letter argument width unbraced =>
      apply opens
      rw [afterEscape_eq, ← width]
      cases argument with
      | nil => exact .nil _
      | cons c argument =>
          have other : c ≠ '{' := fun same => unbraced (same ▸ rfl)
          refine .cons (by simp [ScanState.readsText]) ?_
          simpa [ScanState.next, other] using .skipped argument

theorem ClassBody.passes {body : List Char} (inside : ClassBody body) (depth : Nat) :
    Passes ⟨depth + 1, .nothing⟩ ⟨depth + 1, .nothing⟩ body := by
  induction inside generalizing depth with
  | nil => exact .nil _
  | @char c body plain unopened unclosed _ induction =>
      refine .cons rfl ?_
      simpa [ScanState.next, ScanState.plain, plain, unopened, unclosed] using induction depth
  | escape escape _ induction => exact (escape.passes _).append (induction depth)
  | @inner inside body _ _ first second =>
      refine .cons rfl ((first (depth + 1)).append (.cons rfl ?_))
      exact second depth

/-- After the question mark of a group header, or between its flags, letters are flags. -/
theorem passes_flags {pending : Pending} (among : pending = .header ∨ pending = .flags)
    {letters : List Char} (flags : ∀ c ∈ letters, isAsciiLetter c ∨ c = '-')
    (unnamed : pending = .header → letters.head? ≠ some 'P')
    {close : Char} (closes : close = ':' ∨ close = ')') :
    Passes ⟨0, pending⟩ .start (letters ++ [close]) := by
  induction letters generalizing pending with
  | nil =>
      refine .cons_of_not_letter (by rcases closes with rfl | rfl <;> decide) ?_
      rcases among with rfl | rfl <;> rcases closes with rfl | rfl <;> exact .nil _
  | cons c letters induction =>
      have flag := flags c List.mem_cons_self
      have goes : ScanState.next ⟨0, pending⟩ c = ⟨0, .flags⟩ := by
        rcases among with rfl | rfl
        · have other : c ≠ 'P' := fun same => unnamed rfl (same ▸ rfl)
          have unopened : c ≠ '<' := by
            rintro rfl
            revert flag
            decide
          simp [ScanState.next, other, unopened, flag]
        · simp [ScanState.next, flag]
      refine .cons ?_ (goes ▸ induction (.inr rfl)
        (fun d member => flags d (List.mem_cons_of_mem _ member)) (by simp))
      rcases flag with letter | rfl
      · rcases among with rfl | rfl <;> simp [ScanState.readsText, letter]
      · exact Bool.and_false _

theorem Markup.passes {chars : List Char} (markup : Markup chars) :
    Passes .start .start chars := by
  cases markup with
  | escape escape => exact escape.passes 0
  | boundary inside =>
      exact .cons rfl (.cons rfl (.cons_of_not_letter (by decide) (.through inside (.nil _))))
  | bracket inside =>
      exact .cons rfl ((inside.passes 0).append (.cons rfl (.nil _)))
  | lazy among =>
      have passes : ∀ c ∈ ['?', '*', '+'], Passes .start .start [c, '?'] := by
        simp only [List.forall_mem_cons]
        exact ⟨⟨rfl, rfl⟩, ⟨rfl, rfl⟩, ⟨rfl, rfl⟩, by simp⟩
      exact passes _ among
  | repetition inside lazy =>
      refine .cons rfl (.through inside ?_)
      rcases lazy with rfl | rfl
      · exact .nil _
      · exact .cons rfl (.nil _)
  | @name mark name first marks other inside =>
      simp only [List.mem_cons, List.not_mem_nil, or_false, not_or] at other
      obtain ⟨unopened, unequal, positive, unended⟩ := other
      have named {pending : Pending} (silent : ScanState.readsText ⟨0, pending⟩ first = false)
          (reads : ScanState.next ⟨0, pending⟩ first = ScanState.inName 0 first) :
          Passes ⟨0, pending⟩ .start (first :: (name ++ ['>'])) := by
        refine .cons (by rw [silent, Bool.false_and]) ?_
        simpa [reads, ScanState.inName, unequal, positive, unended] using .through inside (.nil _)
      rcases marks with rfl | rfl
      · exact .cons rfl (.cons rfl (.cons rfl (named rfl (if_neg unopened))))
      · exact .cons rfl (.cons rfl (.cons rfl (.cons rfl (named rfl rfl))))
  | flags letters unnamed closes =>
      exact .cons rfl (.cons rfl (passes_flags (.inl rfl) letters (fun _ => unnamed) closes))

/-! ## Marks of pieces -/

theorem Markup.marksOf_eq {piece : List Char} (markup : Markup piece) :
    piece ≠ [] ∧ marksOf piece = piece.map (·, false) := by
  cases markup with
  | escape escape => cases escape <;> exact ⟨by simp, rfl⟩
  | boundary _ => exact ⟨by simp, rfl⟩
  | @bracket body _ => cases body <;> exact ⟨by simp, rfl⟩
  | lazy _ => exact ⟨by simp, rfl⟩
  | @repetition bounds _ _ _ => cases bounds <;> exact ⟨by simp, rfl⟩
  | name _ _ _ => exact ⟨by simp, rfl⟩
  | flags _ _ _ => exact ⟨by simp, rfl⟩

/-- An opening parenthesis changes nothing unless a question mark follows. -/
theorem marked_opened {chars : List Char} (unasked : chars.head? ≠ some '?') :
    marked ⟨0, .opened⟩ chars = marked .start chars := by
  cases chars with
  | nil => rfl
  | cons c chars =>
      have other : c ≠ '?' := fun same => unasked (same ▸ rfl)
      rw [marked, marked, ScanState.next, if_neg other]
      rfl

namespace Cut

variable {pieces : List (List Char)}

theorem marked_eq (cut : Cut pieces) : marked .start pieces.flatten = pieces.flatMap marksOf := by
  induction cut with
  | nil => rfl
  | @plain c pieces unescaped unbracketed unbraced unasked _ induction =>
      have follows : marked (ScanState.start.next c) pieces.flatten = pieces.flatMap marksOf := by
        by_cases opening : c = '('
        · subst opening
          exact (marked_opened (unasked rfl)).trans induction
        · have goes : ScanState.start.next c = .start := by
            simp [ScanState.next, ScanState.start, ScanState.plain, unescaped, unbracketed,
              unbraced, opening]
          rw [goes, induction]
      rw [List.flatten_cons, List.flatMap_cons, ← follows]
      rfl
  | markup markup _ induction =>
      rw [List.flatten_cons, List.flatMap_cons, marked_append, markup.passes.unread,
        markup.passes.arrives, induction, markup.marksOf_eq.2]

theorem exists_of_marks_eq_append (cut : Cut pieces) {letters : List Char}
    {after : List (Char × Bool)}
    (split : pieces.flatMap marksOf = letters.map (·, true) ++ after) :
    ∃ later, pieces = letters.map ([·]) ++ later := by
  induction letters generalizing pieces with
  | nil => exact ⟨pieces, rfl⟩
  | cons letter letters induction =>
      cases cut with
      | nil => cases split
      | plain _ _ _ _ cut =>
          obtain ⟨same, rest⟩ := List.cons.inj split
          obtain ⟨rfl, _⟩ := Prod.mk.inj same
          obtain ⟨later, rfl⟩ := induction cut rest
          exact ⟨later, rfl⟩
      | @markup piece _ markup cut =>
          obtain ⟨present, marks⟩ := markup.marksOf_eq
          obtain ⟨c, piece, rfl⟩ := List.exists_cons_of_ne_nil present
          rw [List.flatMap_cons, marks] at split
          cases (List.cons.inj split).1

/-- Marked letters are pieces of their own. -/
theorem exists_of_marks_eq (cut : Cut pieces) {letters : List Char}
    {before after : List (Char × Bool)} (present : letters ≠ [])
    (split : pieces.flatMap marksOf = before ++ (letters.map (·, true) ++ after)) :
    ∃ earlier later, pieces = earlier ++ (letters.map ([·]) ++ later) ∧
      earlier.flatMap marksOf = before := by
  induction cut generalizing before with
  | nil =>
      have nothing := List.append_eq_nil_iff.mp split.symm
      exact absurd (List.map_eq_nil_iff.mp (List.append_eq_nil_iff.mp nothing.2).1) present
  | @plain c pieces unescaped unbracketed unbraced unasked cut induction =>
      cases before with
      | nil =>
          obtain ⟨later, equality⟩ := (Cut.plain unescaped unbracketed unbraced unasked
            cut).exists_of_marks_eq_append split
          exact ⟨[], later, equality, rfl⟩
      | cons mark before =>
          obtain ⟨rfl, rest⟩ := List.cons.inj split
          obtain ⟨earlier, later, rfl, marks⟩ := induction rest
          exact ⟨[c] :: earlier, later, rfl, congrArg _ marks⟩
  | @markup piece pieces markup cut induction =>
      obtain ⟨_, unmarked⟩ := markup.marksOf_eq
      have further {before : List (Char × Bool)}
          (split : pieces.flatMap marksOf = before ++ (letters.map (·, true) ++ after)) :
          ∃ earlier later, piece :: pieces = earlier ++ (letters.map ([·]) ++ later) ∧
            earlier.flatMap marksOf = piece.map (·, false) ++ before := by
        obtain ⟨earlier, later, rfl, marks⟩ := induction split
        refine ⟨piece :: earlier, later, rfl, ?_⟩
        rw [List.flatMap_cons, unmarked, marks]
      rw [List.flatMap_cons, unmarked] at split
      rcases List.append_eq_append_iff.mp split with ⟨more, rfl, rest⟩ | ⟨more, inside, rest⟩
      · exact further rest
      · cases more with
        | nil =>
            rw [List.append_nil] at inside
            obtain ⟨earlier, later, equality, marks⟩ := @further [] rest.symm
            exact ⟨earlier, later, equality, by rw [marks, List.append_nil, inside]⟩
        | cons mark more =>
            obtain ⟨letter, letters, rfl⟩ := List.exists_cons_of_ne_nil present
            obtain ⟨rfl, _⟩ := List.cons.inj rest
            have clash : (letter, true) ∈ piece.map (·, false) := by
              rw [inside]
              exact List.mem_append_right _ List.mem_cons_self
            simp at clash

/-- The letters of a word are pieces of their own, and the word starts where the pieces before it
end. -/
theorem exists_of_mem_words {pattern : String} (cut : Cut pieces)
    (joined : pieces.flatten = pattern.toList) {word : Word} (member : word ∈ words pattern) :
    ∃ earlier later, pieces = earlier ++ (word.text.toList.map ([·]) ++ later) ∧
      word.start = utf8Length earlier.flatten := by
  obtain ⟨before, after, occurs⟩ := exists_occurs member
  have split := occurs.marks_eq
  rw [← joined, cut.marked_eq] at split
  obtain ⟨earlier, later, equality, marks⟩ := cut.exists_of_marks_eq occurs.ne_nil split.symm
  refine ⟨earlier, later, equality, ?_⟩
  rw [occurs.start_eq, ← marks, map_fst_flatMap_marksOf]

end Cut

end RowGrammar.TokenPattern
