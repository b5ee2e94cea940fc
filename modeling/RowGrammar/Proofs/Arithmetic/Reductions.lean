import RowGrammar.Proofs.Arithmetic.Sentences

/-!
# Reducing sentences of arithmetic

Marks that are put together where the rules allow it, the leftmost product first and no sum before
all products, stand for what they stand for in the sentence.  Where nothing can be put together any
more, the sentence is a single operand.
-/

namespace RowGrammar.Arithmetic

/-! ## Where something can be put together -/

/-- Three marks in a row. -/
def At (marks : List Mark) (place : Nat) (one two three : Mark) : Prop :=
  marks[place]? = some one ∧ marks[place + 1]? = some two ∧ marks[place + 2]? = some three

/-- A single mark between parentheses. -/
def ParenAt (marks : List Mark) (place : Nat) : Prop :=
  ∃ opening inner closing, At marks place opening inner closing ∧
    opening.role = .opening ∧ closing.role = .closing

/-- Two operands with a `*` between them. -/
def ProductAt (marks : List Mark) (place : Nat) : Prop :=
  ∃ left sign right, At marks place left sign right ∧
    left.IsOperand ∧ sign.role = .times ∧ right.IsOperand

/-- Two operands with a `+` between them and no `*` after them. -/
def SumAt (marks : List Mark) (place : Nat) : Prop :=
  ∃ left sign right, At marks place left sign right ∧
    left.IsOperand ∧ sign.role = .plus ∧ right.IsOperand ∧
    ∀ next, marks[place + 3]? = some next → next.role ≠ .times

theorem getElem?_append_add (before after : List Mark) (place : Nat) :
    (before ++ after)[before.length + place]? = after[place]? := by
  rw [List.getElem?_append_right (Nat.le_add_right _ _), Nat.add_sub_cancel_left]

theorem getElem?_append_cons (before after : List Mark) (mark : Mark) :
    (before ++ mark :: after)[before.length]? = some mark :=
  getElem?_append_add before (mark :: after) 0

theorem at_append_iff {before after : List Mark} {place : Nat} {one two three : Mark} :
    At (before ++ after) (before.length + place) one two three ↔ At after place one two three := by
  simp only [At, Nat.add_assoc, getElem?_append_add]

theorem at_append (before after : List Mark) (one two three : Mark) :
    At (before ++ ([one, two, three] ++ after)) before.length one two three :=
  (@at_append_iff before _ 0 _ _ _).mpr ⟨rfl, rfl, rfl⟩

/-- What comes after three marks in a row. -/
theorem getElem?_behind (before after : List Mark) (one two three : Mark) :
    (before ++ ([one, two, three] ++ after))[before.length + 3]? = after.head? := by
  rw [getElem?_append_add, List.head?_eq_getElem?]
  rfl

theorem Mark.IsOperand.ne_times {mark : Mark} (is : mark.IsOperand) : mark.role ≠ .times := by
  rintro same
  rcases is with is | is | is <;> cases same.symm.trans is

section

variable {before after others : List Mark} {mark other one two three : Mark} {place : Nat}

/-- Marks in a row that start before a place are the same whatever is there, except that the last
of them may be at the place. -/
theorem At.exchange (here : At (before ++ mark :: after) place one two three)
    (early : place < before.length) (apart : two ≠ mark) (other : Mark) (others : List Mark) :
    place + 2 < before.length ∧ At (before ++ other :: others) place one two three ∨
      place + 2 = before.length ∧ three = mark ∧
        At (before ++ other :: others) place one two other := by
  obtain ⟨first, second, third⟩ := here
  have inner : place + 1 ≠ before.length := by
    rintro last
    rw [last, getElem?_append_cons] at second
    exact apart (Option.some.inj second).symm
  rw [List.getElem?_append_left early] at first
  rw [List.getElem?_append_left (by omega)] at second
  have same : (before ++ other :: others)[place]? = some one ∧
      (before ++ other :: others)[place + 1]? = some two := by
    rw [List.getElem?_append_left early, List.getElem?_append_left (by omega)]
    exact ⟨first, second⟩
  rcases Nat.lt_or_ge (place + 2) before.length with inside | outside
  · rw [List.getElem?_append_left inside] at third
    exact .inl ⟨inside, same.1, same.2, by rw [List.getElem?_append_left inside, third]⟩
  · have last : place + 2 = before.length := by omega
    rw [last, getElem?_append_cons] at third
    exact .inr ⟨last, (Option.some.inj third).symm, same.1, same.2,
      by rw [last, getElem?_append_cons]⟩

end

/-! ## Steps -/

section

variable {tree : Tree} {before after : List Mark}

/-- Marks that are put together as they are read. -/
theorem Sentence.replace {taken : List Mark} {mark : Mark}
    (sentence : Sentence tree (before ++ (taken ++ after)))
    (step : ∀ reader later, Recent reader before → Reader.ReadsAll reader taken later →
      later.Completes tree after → ∃ next, Reader.Reads reader mark next ∧
        next.Completes tree after) :
    Sentence tree (before ++ mark :: after) := by
  obtain ⟨reader, front, rest⟩ := Reader.completes_append_iff.mp sentence
  obtain ⟨later, reads, completes⟩ := Reader.completes_append_iff.mp rest
  have recent : Recent reader ([] ++ before) := front.recent Reader.recent_start
  obtain ⟨next, reads', completes'⟩ := step reader later recent reads completes
  exact Reader.completes_append_iff.mpr ⟨reader, front, .cons reads' completes'⟩

theorem Reader.ReadsAll.of_three {reader later : Reader} {one two three : Mark}
    (reads : reader.ReadsAll [one, two, three] later) :
    ∃ first second, reader.Reads one first ∧ first.Reads two second ∧ second.Reads three later := by
  cases reads with
  | cons one rest =>
      cases rest with
      | cons two rest =>
          cases rest with
          | cons three rest =>
              cases rest
              exact ⟨_, _, one, two, three⟩

/-- A value between parentheses is a factor. -/
theorem Sentence.paren_step {opening inner closing : Mark}
    (sentence : Sentence tree (before ++ ([opening, inner, closing] ++ after)))
    (opens : opening.role = .opening) (closes : closing.role = .closing) :
    Sentence tree
      (before ++ ⟨.factor, parenTree opening.tree inner.tree closing.tree⟩ :: after) := by
  refine sentence.replace fun ⟨⟨room, before⟩, outer⟩ later _ reads completes => ?_
  obtain ⟨first, second, opened, middle, closed⟩ := reads.of_three
  obtain ⟨valueless, rfl⟩ := opened.of_opening opens
  obtain ⟨value, _, _, _, turn, _, valued, around, goes, rfl⟩ := closed.of_closing closes
  have read : second.outer = (opening.tree, ⟨room, before⟩) :: outer ∧
      second.level.turn.value? = some inner.tree := by
    cases middle with
    | opening => cases valued
    | closing full => cases full
    | factor goes => cases goes; exact ⟨rfl, rfl⟩
    | product goes => cases goes; exact ⟨rfl, rfl⟩
    | sum => exact ⟨rfl, rfl⟩
    | plus full => cases full
  rw [read.1, List.cons.injEq, Prod.mk.injEq] at around
  obtain ⟨⟨rfl, level⟩, rfl⟩ := around
  rw [read.2, Option.some.injEq] at valued
  subst valued
  cases level
  exact ⟨_, .factor goes, completes.freer (.of_room (Room.freer_paren room) _ _)⟩

/-- The leftmost product of two operands is a product in the sentence. -/
theorem Sentence.product_step {left sign right : Mark}
    (sentence : Sentence tree (before ++ ([left, sign, right] ++ after)))
    (leftIs : left.IsOperand) (times : sign.role = .times) (rightIs : right.IsOperand)
    (leftmost : ∀ place < before.length,
      ¬ProductAt (before ++ ([left, sign, right] ++ after)) place) :
    Sentence tree
      (before ++ ⟨.product, productTree left.tree sign.tree right.tree⟩ :: after) := by
  refine sentence.replace fun ⟨⟨room, turn⟩, outer⟩ later recent reads completes => ?_
  obtain ⟨_, _, one, two, three⟩ := reads.of_three
  obtain ⟨_, rfl, begins⟩ := one.of_operand leftIs
  obtain ⟨sum, product, next, same, goes, rfl⟩ := two.of_times times
  obtain ⟨_, rfl, ends⟩ := three.of_operand rightIs
  change room.times? = some next at goes
  cases same
  rcases begins with begins | ⟨_, begins⟩
  case inr => cases begins
  rcases ends with ends | ⟨ends, _⟩
  case inr => cases ends
  cases ends
  have whole : turn.Product (productTree left.tree sign.tree right.tree)
      (.after sum (productTree product sign.tree right.tree)) := by
    cases begins with
    | first => exact .first
    | term => exact .term
    | factor =>
        obtain ⟨front, factor, star, rfl, again, is | little⟩ := recent
        · refine absurd ⟨factor, star, left, ?_, is, again, leftIs⟩
            (leftmost front.length (by simp))
          rw [List.append_assoc]
          exact at_append front _ factor star left
        · rw [show room = .nothing from little] at goes
          cases goes
  exact ⟨_, .product whole, completes.freer (.of_room (Room.freer_of_times? goes) _ _)⟩

/-- The leftmost sum of two operands is a sum in the sentence, where no product is left. -/
theorem Sentence.sum_step {left sign right : Mark}
    (sentence : Sentence tree (before ++ ([left, sign, right] ++ after)))
    (leftIs : left.IsOperand) (plus : sign.role = .plus) (rightIs : right.IsOperand)
    (unlike : ∀ next ∈ after.head?, next.role ≠ .times)
    (productless : ∀ place, ¬ProductAt (before ++ ([left, sign, right] ++ after)) place)
    (leftmost : ∀ place < before.length,
      ¬SumAt (before ++ ([left, sign, right] ++ after)) place) :
    Sentence tree (before ++ ⟨.sum, sumTree left.tree sign.tree right.tree⟩ :: after) := by
  refine sentence.replace fun ⟨⟨room, turn⟩, outer⟩ later recent reads completes => ?_
  obtain ⟨_, _, one, two, three⟩ := reads.of_three
  obtain ⟨middle, rfl, begins⟩ := one.of_operand leftIs
  obtain ⟨sum, next, valued, goes, rfl⟩ := two.of_plus plus
  obtain ⟨_, rfl, ends⟩ := three.of_operand rightIs
  change room.plus? = some next at goes
  change middle.value? = some sum at valued
  rcases ends with ends | ⟨ends, _⟩
  case inr => cases ends
  cases ends
  have fresh : turn = .first ∧ middle.value? = some left.tree := by
    rcases begins with begins | ⟨again, rfl⟩
    case inr => exact ⟨again, rfl⟩
    cases begins with
    | first => exact ⟨rfl, rfl⟩
    | term =>
        obtain ⟨front, term, add, rfl, again, is | little⟩ := recent
        · refine absurd ⟨term, add, left, ?_, is, again, leftIs, ?_⟩
            (leftmost front.length (by simp))
          · rw [List.append_assoc]
            exact at_append front _ term add left
          · intro next there
            have here : sign = next := by simpa using there
            rw [← here, plus]
            decide
        · rw [show room = .factors from little] at goes
          cases goes
    | factor =>
        obtain ⟨front, factor, star, rfl, again, is | little⟩ := recent
        · refine absurd ⟨factor, star, left, ?_, is, again, leftIs⟩ (productless front.length)
          rw [List.append_assoc]
          exact at_append front _ factor star left
        · rw [show room = .nothing from little] at goes
          cases goes
  obtain ⟨rfl, single⟩ := fresh
  rw [show room = .free from recent.1] at goes ⊢
  cases goes
  rw [single, Option.some.injEq] at valued
  subst valued
  exact ⟨_, .sum, completes.of_value rfl rfl unlike⟩

end

/-! ## What stays put together -/

section

variable {before after : List Mark} {left sign right mark : Mark} {place : Nat}

/-- A branch that is no sign makes no product to the left of it out of what was none. -/
theorem not_productAt_exchange (leftIs : left.IsOperand) (unlike : mark.role ≠ .times)
    (leftmost : ¬ProductAt (before ++ ([left, sign, right] ++ after)) place)
    (early : place < before.length) : ¬ProductAt (before ++ mark :: after) place := by
  rintro ⟨one, two, three, here, oneIs, times, threeIs⟩
  have apart : two ≠ mark := by
    rintro rfl
    exact unlike times
  rcases here.exchange early apart left ([sign, right] ++ after) with
    ⟨_, there⟩ | ⟨_, _, there⟩
  · exact leftmost ⟨one, two, three, there, oneIs, times, threeIs⟩
  · exact leftmost ⟨one, two, left, there, oneIs, times, leftIs⟩

/-- Where there are no products, a sum that no `*` follows makes none. -/
theorem not_productAt_sum (leftIs : left.IsOperand) (unlike : mark.role ≠ .times)
    (unfollowed : ∀ next ∈ after.head?, next.role ≠ .times)
    (productless : ∀ place, ¬ProductAt (before ++ ([left, sign, right] ++ after)) place) :
    ¬ProductAt (before ++ mark :: after) place := by
  rcases Nat.lt_or_ge place before.length with early | late
  · exact not_productAt_exchange leftIs unlike (productless place) early
  · obtain ⟨beyond, rfl⟩ := Nat.exists_eq_add_of_le late
    rintro ⟨one, two, three, here, oneIs, times, threeIs⟩
    have there := at_append_iff.mp here
    cases beyond with
    | zero => exact unfollowed two (List.head?_eq_getElem?.trans there.2.1) times
    | succ beyond =>
        have behind : At ([left, sign, right] ++ after) (beyond + 3) one two three := there
        exact productless _ ⟨one, two, three, at_append_iff.mpr behind, oneIs, times, threeIs⟩

/-- A branch that is no sign makes no sum to the left of it out of what was none. -/
theorem not_sumAt_exchange (leftIs : left.IsOperand) (plus : sign.role = .plus)
    (markIs : mark.IsOperand)
    (leftmost : ¬SumAt (before ++ ([left, sign, right] ++ after)) place)
    (early : place < before.length) : ¬SumAt (before ++ mark :: after) place := by
  rintro ⟨one, two, three, here, oneIs, adds, threeIs, unlike⟩
  have apart : two ≠ mark := by
    rintro rfl
    rcases markIs with is | is | is <;> cases adds.symm.trans is
  rcases here.exchange early apart left ([sign, right] ++ after) with
    ⟨inside, there⟩ | ⟨last, _, there⟩
  · refine leftmost ⟨one, two, three, there, oneIs, adds, threeIs, fun next follows => ?_⟩
    rcases Nat.lt_or_ge (place + 3) before.length with far | near
    · refine unlike next ?_
      rw [List.getElem?_append_left far] at follows ⊢
      exact follows
    · rw [show place + 3 = before.length by omega] at follows
      cases (getElem?_append_cons before _ left).symm.trans follows
      exact leftIs.ne_times
  · refine leftmost ⟨one, two, left, there, oneIs, adds, leftIs, fun next follows => ?_⟩
    rw [show place + 3 = before.length + 1 by omega, getElem?_append_add] at follows
    cases follows
    rw [plus]
    decide

end

/-! ## When nothing is left to be done -/

/-- Nothing can be put together. -/
def Stuck (marks : List Mark) : Prop :=
  ∀ place, ¬ParenAt marks place ∧ ¬ProductAt marks place ∧ ¬SumAt marks place

/-- What stands at a level as long as nothing can be put together. -/
inductive Spelled : Turn → List Mark → Prop where
  | first : Spelled .first []
  | single {turn : Turn} {operand : Mark} :
      turn.value? ≠ none → operand.IsOperand → Spelled turn [operand]
  | term {sum sign : Tree} {operand plus : Mark} :
      operand.IsOperand → plus.role = .plus → Spelled (.term sum sign) [operand, plus]
  | double {turn : Turn} {left plus right : Mark} :
      turn.value? ≠ none → left.IsOperand → plus.role = .plus → right.IsOperand →
      Spelled turn [left, plus, right]
  | factor {sum : Option (Tree × Tree)} {product sign : Tree} {front : List Mark}
      {operand times : Mark} :
      operand.IsOperand → times.role = .times →
      Spelled (.factor sum product sign) (front ++ [operand, times])

/-- The marks that have been read end with those of the innermost level, which come after the
parenthesis that opened it. -/
def Innermost (reader : Reader) (marks : List Mark) : Prop :=
  ∃ front word, marks = front ++ word ∧ Spelled reader.level.turn word ∧
    if reader.outer = [] then front = []
    else ∃ outside opening, front = outside ++ [opening] ∧ opening.role = .opening

/-- A level that stands for a value stands for it in one operand. -/
theorem Spelled.exists_operand {turn : Turn} {word front rest : List Mark} {value : Tree}
    (spelled : Spelled turn word) (valued : turn.value? = some value)
    (stuck : Stuck (front ++ (word ++ rest)))
    (unlike : ∀ next ∈ rest.head?, next.role ≠ .times) :
    ∃ operand, word = [operand] ∧ operand.IsOperand := by
  cases spelled with
  | single _ is => exact ⟨_, rfl, is⟩
  | @double _ left plus right _ leftIs adds rightIs =>
      refine absurd ⟨left, plus, right, at_append front rest left plus right, leftIs, adds,
        rightIs, fun next follows => unlike next ?_⟩ (stuck front.length).2.2
      exact (getElem?_behind front rest left plus right).symm.trans follows
  | first | term | factor => cases valued

/-- An operand makes the word of its level longer. -/
theorem Spelled.operand {before after : Turn} {word front rest : List Mark} {mark : Mark}
    (spelled : Spelled before word) (is : mark.IsOperand)
    (goes : before.Factor mark.tree after ∨ before = .first ∧ after = .total mark.tree)
    (stuck : Stuck (front ++ (word ++ mark :: rest))) : Spelled after (word ++ [mark]) := by
  rcases goes with goes | ⟨rfl, rfl⟩
  · cases goes with
    | first =>
        cases spelled with
        | first => exact .single nofun is
        | single valued | double valued => exact absurd rfl valued
    | term =>
        cases spelled with
        | term left plus => exact .double nofun left plus is
        | single valued | double valued => exact absurd rfl valued
    | factor =>
        cases spelled with
        | @factor _ _ _ inner left times leftIs multiplies =>
            refine absurd ⟨left, times, mark, ?_, leftIs, multiplies, is⟩
              (stuck (front ++ inner).length).2.1
            simpa using at_append (front ++ inner) rest left times mark
        | single valued | double valued => exact absurd rfl valued
  · cases spelled with
    | first => exact .single nofun is
    | single valued | double valued => exact absurd rfl valued

namespace Reader

variable {reader later : Reader} {mark : Mark} {marks rest : List Mark}

theorem Reads.innermost (reads : reader.Reads mark later)
    (stuck : Stuck (marks ++ mark :: rest)) (innermost : Innermost reader marks) :
    Innermost later (marks ++ [mark]) ∧ (later.outer = [] → reader.outer = []) := by
  obtain ⟨front, word, rfl, spelled, opened⟩ := innermost
  rw [List.append_assoc] at stuck ⊢
  have stays {turn : Turn} {room : Room} (longer : Spelled turn (word ++ [mark])) :
      Innermost ⟨⟨room, turn⟩, reader.outer⟩ (front ++ (word ++ [mark])) ∧
        (reader.outer = [] → reader.outer = []) :=
    ⟨⟨front, word ++ [mark], rfl, longer, opened⟩, id⟩
  have operand (is : mark.IsOperand) :
      Innermost later (front ++ (word ++ [mark])) ∧ (later.outer = [] → reader.outer = []) := by
    obtain ⟨after, rfl, goes⟩ := reads.of_operand is
    exact stays (spelled.operand is goes stuck)
  cases role : mark.role with
  | factor => exact operand (.inl role)
  | product => exact operand (.inr (.inl role))
  | sum => exact operand (.inr (.inr role))
  | other => cases reads <;> cases role
  | opening =>
      obtain ⟨_, rfl⟩ := reads.of_opening role
      exact ⟨⟨front ++ (word ++ [mark]), [], by simp, .first, front ++ word, mark, by simp, role⟩,
        nofun⟩
  | closing =>
      obtain ⟨_, _, _, _, _, _, valued, around, _, rfl⟩ := reads.of_closing role
      obtain ⟨inner, rfl, is⟩ := spelled.exists_operand valued stuck
        (by rintro _ ⟨⟩; rw [role]; decide)
      rw [around] at opened
      obtain ⟨outside, opening, rfl, opens⟩ := opened
      refine absurd ⟨opening, inner, mark, ?_, opens, role⟩ (stuck outside.length).1
      simpa using at_append outside rest opening inner mark
  | times =>
      obtain ⟨sum, product, next, same, _, rfl⟩ := reads.of_times role
      refine stays ?_
      rw [same] at spelled
      cases spelled with
      | single _ is => exact @Spelled.factor _ _ _ [] _ _ is role
      | double _ _ _ is => exact @Spelled.factor _ _ _ [_, _] _ _ is role
  | plus =>
      obtain ⟨_, _, valued, _, rfl⟩ := reads.of_plus role
      obtain ⟨left, rfl, is⟩ := spelled.exists_operand valued stuck
        (by rintro _ ⟨⟩; rw [role]; decide)
      exact stays (.term is role)

theorem ReadsAll.innermost (reads : reader.ReadsAll rest later) (stuck : Stuck (marks ++ rest))
    (innermost : Innermost reader marks) :
    Innermost later (marks ++ rest) ∧ (later.outer = [] → reader.outer = []) := by
  induction reads generalizing marks with
  | nil => exact ⟨by rwa [List.append_nil], id⟩
  | cons first _ induction =>
      obtain ⟨innermost', outermost⟩ := first.innermost stuck innermost
      rw [List.append_cons] at stuck ⊢
      obtain ⟨innermost'', outermost'⟩ := induction stuck innermost'
      exact ⟨innermost'', outermost ∘ outermost'⟩

end Reader

/-- A sentence in which nothing can be put together is a single operand. -/
theorem Sentence.single_of_stuck {tree : Tree} {marks : List Mark} (sentence : Sentence tree marks)
    (stuck : Stuck marks) : ∃ mark, marks = [mark] := by
  obtain ⟨room, turn, reads, valued⟩ := sentence
  have start : Innermost .start [] := ⟨[], [], rfl, .first, rfl⟩
  obtain ⟨⟨_, word, same, spelled, rfl⟩, _⟩ :=
    @Reader.ReadsAll.innermost _ _ [] _ reads stuck start
  have whole : Stuck ([] ++ (word ++ [])) := by
    rw [List.append_nil, ← same]
    exact stuck
  obtain ⟨operand, rfl, _⟩ := spelled.exists_operand valued whole nofun
  exact ⟨operand, same⟩

/-- A single operand stands for its tree. -/
theorem Sentence.eq_of_single {tree : Tree} {mark : Mark} (sentence : Sentence tree [mark]) :
    mark.tree = tree := by
  obtain ⟨room, turn, reads, valued⟩ := sentence
  cases reads with
  | cons read rest =>
      cases rest
      cases read with
      | factor goes => cases goes; exact Option.some.inj valued
      | product goes => cases goes; exact Option.some.inj valued
      | sum => exact Option.some.inj valued
      | plus => cases valued

end RowGrammar.Arithmetic
