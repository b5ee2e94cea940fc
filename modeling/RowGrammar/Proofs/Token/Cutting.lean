import Mathlib.Data.List.Chain
import RowGrammar.Proofs.Regex.Taking
import RowGrammar.Proofs.Token.Walk

/-!
# Cutting a text into lexemes

Where a text is put together from lexemes with blanks between them, a walk through it finds these
lexemes and nothing else, as long as each of them is what its pattern takes there and the patterns
that are tried before are ruled out.
-/

namespace RowGrammar

open RowGrammar.Text

/-- The lexemes one after the other, with any blanks before each of them and at the end. -/
inductive Laid (blank : Char → Bool) : List (List Char) → List Char → Prop where
  | last {gap : List Char} : (∀ c ∈ gap, blank c = true) → Laid blank [] gap
  | lexeme {gap lexeme text : List Char} {lexemes : List (List Char)} :
      (∀ c ∈ gap, blank c = true) → Laid blank lexemes text →
      Laid blank (lexeme :: lexemes) (gap ++ (lexeme ++ text))

theorem Laid.imp {blank other : Char → Bool} (blanks : ∀ c, blank c = true → other c = true)
    {lexemes : List (List Char)} {text : List Char} (laid : Laid blank lexemes text) :
    Laid other lexemes text := by
  induction laid with
  | last gap => exact .last fun c member => blanks c (gap c member)
  | lexeme gap _ induction => exact .lexeme (fun c member => blanks c (gap c member)) induction

/-- There need not be any blanks. -/
theorem Laid.flatten (blank : Char → Bool) (lexemes : List (List Char)) :
    Laid blank lexemes lexemes.flatten := by
  induction lexemes with
  | nil => exact .last nofun
  | cons lexeme lexemes induction => exact @Laid.lexeme blank [] _ _ _ nofun induction

section

variable {α : Type} {isSign : α → Prop} {before after : List α}

/-- Of any two neighbours one is a sign, which can be told from what is beside it. -/
def KeptApart (isSign : α → Prop) (list : List α) : Prop :=
  list.IsChain fun item next => isSign item ∨ isSign next

theorem KeptApart.join {sign : α} (left : KeptApart isSign before) (is : isSign sign)
    (right : KeptApart isSign after) : KeptApart isSign (before ++ sign :: after) := by
  have behind : KeptApart isSign (sign :: after) :=
    List.isChain_cons.mpr ⟨fun _ _ => .inl is, right⟩
  refine List.isChain_append.mpr ⟨left, behind, ?_⟩
  rintro _ _ _ ⟨⟩
  exact .inr is

end

namespace Tokenizer

/-- The token that comes first in what is left of a text. -/
def Next (tokenizer : Tokenizer) (nodeType : NodeTypeId) (taken rest : List Char) : Prop :=
  ∃ before alternative after, tokenizer.alternatives = before ++ alternative :: after ∧
    alternative.nodeType = nodeType ∧ alternative.subparser = none ∧
    (∀ earlier ∈ before, earlier.regex.RuledOut (taken ++ rest)) ∧
    alternative.regex.Takes taken rest ∧ taken ≠ []

/-- The first character of what is left may be enough to rule out what is tried before. -/
theorem next_of_getElem? {tokenizer : Tokenizer} {place : Nat} {alternative : Alternative}
    (listed : tokenizer.alternatives[place]? = some alternative)
    (whole : alternative.subparser = none) {taken rest : List Char}
    (takes : alternative.regex.Takes taken rest) {c : Char} (first : taken.head? = some c)
    (out : ∀ earlier ∈ tokenizer.alternatives.take place,
      earlier.regex.nullable = false ∧ earlier.regex.opens c = false) :
    tokenizer.Next alternative.nodeType taken rest := by
  obtain ⟨inside, rfl⟩ := List.getElem?_eq_some_iff.mp listed
  refine ⟨tokenizer.alternatives.take place, _, tokenizer.alternatives.drop (place + 1), ?_, rfl,
    whole, fun earlier member => ?_, takes, ?_⟩
  · rw [List.getElem_cons_drop, List.take_append_drop]
  · obtain ⟨full, shut⟩ := out earlier member
    refine ⟨full, fun other head => ?_⟩
    rw [List.head?_append, first, Option.some_or] at head
    cases head
    exact shut
  · rintro rfl
    cases first

/-- The pieces of a text, each of which is the token that comes first where it stands. -/
inductive Cuts (tokenizer : Tokenizer) : List Char → List Piece → Prop where
  | nil : Cuts tokenizer [] []
  | cons {nodeType : NodeTypeId} {taken rest : List Char} {pieces : List Piece} :
      tokenizer.Next nodeType taken rest → Cuts tokenizer rest pieces →
      Cuts tokenizer (taken ++ rest) (⟨nodeType, String.ofList taken⟩ :: pieces)

/-- What comes first is up to the alternatives. -/
theorem Cuts.congr {tokenizer other : Tokenizer}
    (same : tokenizer.alternatives = other.alternatives) {chars : List Char} {pieces : List Piece}
    (cuts : tokenizer.Cuts chars pieces) : other.Cuts chars pieces := by
  induction cuts with
  | nil => exact .nil
  | cons next _ induction =>
      rw [Next, same] at next
      exact .cons next induction

section

variable {tokenizer : Tokenizer} {text : Array Char} {position : Nat}

theorem Next.nonEmptyAt_eq {nodeType : NodeTypeId} {taken rest : List Char}
    (next : tokenizer.Next nodeType taken rest)
    (goes : text.toList.drop position = taken ++ rest) :
    ∃ alternative, tokenizer.nonEmptyAt text position =
        some (alternative, position + taken.length) ∧
      alternative.nodeType = nodeType ∧ alternative.subparser = none := by
  obtain ⟨before, alternative, after, split, typed, whole, out, takes, filled⟩ := next
  have matched := takes.matchAt_eq goes
  have taken_ : 0 < taken.length := List.length_pos_of_ne_nil filled
  refine ⟨alternative, ?_, typed, whole⟩
  unfold nonEmptyAt
  rw [split]
  apply List.findSome?_eq_some_iff.mpr
  refine ⟨before, alternative, after, rfl, ?_, ?_⟩
  · have nonempty : (Regex.Match.mk position (position + taken.length) []).isEmpty = false := by
      have onward : position ≠ position + taken.length := by omega
      rwa [Regex.Match.isEmpty, beq_eq_false_iff_ne]
    simp [matched, nonempty]
  · intro earlier member
    simp [(out earlier member).matchAt_eq goes]

end

/-- A walk finds the pieces. -/
theorem Cuts.walkFrom_eq {tokenizer : Tokenizer} {chars : List Char} {pieces : List Piece}
    (cuts : tokenizer.Cuts chars pieces) (context : ScanContext)
    (delegate : String → Array Char → Nat → Scanned) {text : Array Char} (base : Nat)
    {position : Nat} (goes : text.toList.drop position = chars) :
    context.walkFrom delegate tokenizer text base position position = ⟨pieces, none⟩ := by
  induction cuts generalizing position with
  | nil =>
      have past : text.size ≤ position := by simpa using goes
      rw [ScanContext.walkFrom_end past, ScanContext.unrecognized, if_neg (Nat.not_lt.mpr past)]
      rfl
  | @cons nodeType taken rest pieces next _ induction =>
      obtain ⟨alternative, first, rfl, whole⟩ := next.nonEmptyAt_eq goes
      have later := Regex.drop_add_length goes
      have inside : position ≤ text.size := by
        obtain ⟨_, _, _, _, _, _, _, _, filled⟩ := next
        have sizes := congrArg List.length goes
        have taken_ : 0 < taken.length := List.length_pos_of_ne_nil filled
        simp only [List.length_drop, List.length_append, Array.length_toList] at sizes
        omega
      have cut : (text.extract position (position + taken.length)).toList = taken := by
        rw [Array.toList_extract, List.extract_eq_take_drop, goes, Nat.add_sub_cancel_left,
          List.take_left]
      rw [ScanContext.walkFrom_of_some inside first, ScanContext.unrecognized,
        if_neg (Nat.lt_irrefl _), Alternative.taken, whole, induction later]
      simp only [Scanned.andThen, Scanned.none, Scanned.piece, cut, List.nil_append,
        List.singleton_append]

/-! ## Laid out lexemes -/

section

variable {tokenizer : Tokenizer} {blank delimiter : Char → Bool} {blankType : NodeTypeId}

/-- A piece that comes first wherever it stands, and that any other piece may stand before. -/
def Sign (tokenizer : Tokenizer) (delimiter : Char → Bool) (piece : Piece) : Prop :=
  (∀ rest, tokenizer.Next piece.nodeType piece.text.toList rest) ∧
    ∀ c ∈ piece.text.toList.head?, delimiter c = true

/-- A piece that comes first where a delimiter or nothing follows. -/
def Delimited (tokenizer : Tokenizer) (delimiter : Char → Bool) (piece : Piece) : Prop :=
  ∀ rest : List Char, (∀ c ∈ rest.head?, delimiter c = true) →
    tokenizer.Next piece.nodeType piece.text.toList rest

/-- Pieces that can be told apart where there is no blank between them. -/
structure Apart (tokenizer : Tokenizer) (blank delimiter : Char → Bool) (blankType : NodeTypeId)
    (pieces : List Piece) : Prop where
  delimited : ∀ piece ∈ pieces, tokenizer.Delimited delimiter piece
  visible : ∀ piece ∈ pieces, piece.nodeType ≠ blankType ∧
    ∃ c, piece.text.toList.head? = some c ∧ blank c = false
  signs : KeptApart (tokenizer.Sign delimiter) pieces

/-- Blanks are tokens of a type of their own, and delimiters. -/
structure Spaces (tokenizer : Tokenizer) (blank delimiter : Char → Bool) (blankType : NodeTypeId) :
    Prop where
  next : ∀ {gap rest : List Char}, gap ≠ [] → (∀ c ∈ gap, blank c = true) →
    (∀ c ∈ rest.head?, blank c = false) → tokenizer.Next blankType gap rest
  delimits : ∀ c, blank c = true → delimiter c = true

/-- What follows a piece starts with a blank or with the next piece. -/
theorem head?_of_laid {piece : Piece} {pieces : List Piece}
    (spaces : tokenizer.Spaces blank delimiter blankType)
    (apart : tokenizer.Apart blank delimiter blankType (piece :: pieces)) {text : List Char}
    (laid : Laid blank (pieces.map (·.text.toList)) text) :
    tokenizer.Next piece.nodeType piece.text.toList text := by
  cases pieces with
  | nil =>
      cases laid with
      | last blanks =>
          refine apart.delimited piece List.mem_cons_self text fun c first => ?_
          exact spaces.delimits c (blanks c (List.mem_of_head? first))
  | cons next pieces =>
      cases laid with
      | @lexeme gap _ text _ blanks _ =>
          rcases (List.isChain_cons_cons.mp apart.signs).1 with loose | sign
          · exact loose.1 _
          · obtain ⟨_, c, first, _⟩ := apart.visible next (.tail _ List.mem_cons_self)
            refine apart.delimited piece List.mem_cons_self _ fun other head => ?_
            cases gap with
            | nil =>
                rw [List.nil_append, List.head?_append, first, Option.some_or] at head
                exact sign.2 other (first.trans head)
            | cons space gap =>
                exact spaces.delimits other (blanks other (List.mem_of_head? head))

theorem Apart.tail {piece : Piece} {pieces : List Piece}
    (apart : tokenizer.Apart blank delimiter blankType (piece :: pieces)) :
    tokenizer.Apart blank delimiter blankType pieces where
  delimited := fun other member => apart.delimited other (.tail _ member)
  visible := fun other member => apart.visible other (.tail _ member)
  signs := (List.isChain_cons.mp apart.signs).2

/-- Blanks before what is left are a piece or nothing. -/
theorem Cuts.spaced (spaces : tokenizer.Spaces blank delimiter blankType) {gap text : List Char}
    {pieces : List Piece} (blanks : ∀ c ∈ gap, blank c = true)
    (ends : ∀ c ∈ text.head?, blank c = false) (cuts : tokenizer.Cuts text pieces) :
    ∃ all, tokenizer.Cuts (gap ++ text) all ∧
      all.filter (·.nodeType != blankType) = pieces.filter (·.nodeType != blankType) := by
  by_cases none_ : gap = []
  · subst none_
    exact ⟨pieces, cuts, rfl⟩
  · exact ⟨_, .cons (spaces.next none_ blanks ends) cuts, by simp⟩

/-- Pieces that are laid out with blanks between them are found again, among blanks. -/
theorem exists_cuts_of_laid (spaces : tokenizer.Spaces blank delimiter blankType)
    {pieces : List Piece} (apart : tokenizer.Apart blank delimiter blankType pieces)
    {text : List Char} (laid : Laid blank (pieces.map (·.text.toList)) text) :
    ∃ all, tokenizer.Cuts text all ∧ all.filter (·.nodeType != blankType) = pieces := by
  induction pieces generalizing text with
  | nil =>
      cases laid with
      | last blanks =>
          have ends : ∀ c ∈ ([] : List Char).head?, blank c = false := by simp
          obtain ⟨all, cuts, same⟩ := Cuts.spaced spaces blanks ends .nil
          exact ⟨all, List.append_nil text ▸ cuts, same⟩
  | cons piece pieces induction =>
      cases laid with
      | @lexeme gap _ text _ blanks laid =>
          have first := head?_of_laid spaces apart laid
          obtain ⟨all, cuts, same⟩ := induction apart.tail laid
          obtain ⟨visible, c, head, inked⟩ := apart.visible piece List.mem_cons_self
          have ends : ∀ other ∈ (piece.text.toList ++ text).head?, blank other = false := by
            intro other first
            rw [List.head?_append, head, Option.some_or] at first
            cases first
            exact inked
          have found := Cuts.cons first cuts
          rw [String.ofList_toList] at found
          obtain ⟨whole, spaced, kept⟩ := found.spaced spaces blanks ends
          refine ⟨whole, spaced, kept.trans ?_⟩
          rw [List.filter_cons_of_pos (by simpa using visible), same]

end

end Tokenizer

end RowGrammar
