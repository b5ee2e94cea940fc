import Mathlib.Data.List.Forall2
import RowGrammar.Proofs.Arithmetic.Expressions

/-!
# Sentences of arithmetic

An expression that has been reduced in part is a sequence of marks: signs and parentheses, and
operands that stand for a tree.  A reader that keeps the levels of open parentheses says whether
such a sequence is a sentence, and for which tree.  It keeps account of the room after every
parenthesis, and that is why what a rule takes is what belongs together.
-/

namespace RowGrammar.Arithmetic

/-- The part that a mark plays in a sentence. -/
inductive Role where
  | opening
  | closing
  | plus
  | times
  /-- A number or a parenthesized expression. -/
  | factor
  /-- A product of several factors. -/
  | product
  /-- A sum of several terms. -/
  | sum
  | other
  deriving DecidableEq, Repr

structure Mark where
  role : Role
  tree : Tree

/-- The mark stands for a value. -/
def Mark.IsOperand (mark : Mark) : Prop :=
  mark.role = .factor ∨ mark.role = .product ∨ mark.role = .sum

/-! ## The reader -/

/-- What has been read at a level. -/
inductive Turn where
  | first
  /-- A sum and a `+`, so a term comes next. -/
  | term (sum sign : Tree)
  /-- Any sum and a `+`, then a product and a `*`, so a factor comes next. -/
  | factor (sum : Option (Tree × Tree)) (product sign : Tree)
  /-- Any sum and a `+`, then a product. -/
  | after (sum : Option (Tree × Tree)) (product : Tree)
  /-- A sum that no factor may be added to. -/
  | total (sum : Tree)

namespace Turn

/-- What a level stands for if it ends here. -/
def value? : Turn → Option Tree
  | .after none product => some product
  | .after (some (sum, sign)) product => some (sumTree sum sign product)
  | .total sum => some sum
  | .first | .term _ _ | .factor _ _ _ => none

/-- Reading a factor. -/
inductive Factor (tree : Tree) : Turn → Turn → Prop where
  | first : Factor tree .first (.after none tree)
  | term {sum sign : Tree} : Factor tree (.term sum sign) (.after (some (sum, sign)) tree)
  | factor {sum : Option (Tree × Tree)} {product sign : Tree} :
      Factor tree (.factor sum product sign) (.after sum (productTree product sign tree))

/-- Reading a product that has been put together. -/
inductive Product (tree : Tree) : Turn → Turn → Prop where
  | first : Product tree .first (.after none tree)
  | term {sum sign : Tree} : Product tree (.term sum sign) (.after (some (sum, sign)) tree)

theorem Product.factor {tree : Tree} {before after : Turn} (goes : before.Product tree after) :
    before.Factor tree after := by
  cases goes with
  | first => exact .first
  | term => exact .term

end Turn

structure Level where
  room : Room
  turn : Turn

/-- How far a sentence has been read: the innermost level, and around it the levels that are still
open, each with the parenthesis that opened the next one. -/
structure Reader where
  level : Level
  outer : List (Tree × Level)

namespace Reader

def start : Reader := ⟨⟨.free, .first⟩, []⟩

/-- Reading a mark. -/
inductive Reads : Reader → Mark → Reader → Prop where
  | opening {room : Room} {turn : Turn} {outer : List (Tree × Level)} {tree : Tree} :
      turn.value? = none →
      Reads ⟨⟨room, turn⟩, outer⟩ ⟨.opening, tree⟩
        ⟨⟨.free, .first⟩, (tree, ⟨room, turn⟩) :: outer⟩
  | closing {room around : Room} {turn before after : Turn} {outer : List (Tree × Level)}
      {opening inner tree : Tree} :
      turn.value? = some inner → before.Factor (parenTree opening inner tree) after →
      Reads ⟨⟨room, turn⟩, (opening, ⟨around, before⟩) :: outer⟩ ⟨.closing, tree⟩
        ⟨⟨around.paren, after⟩, outer⟩
  | factor {room : Room} {before after : Turn} {outer : List (Tree × Level)} {tree : Tree} :
      before.Factor tree after →
      Reads ⟨⟨room, before⟩, outer⟩ ⟨.factor, tree⟩ ⟨⟨room, after⟩, outer⟩
  | product {room : Room} {before after : Turn} {outer : List (Tree × Level)} {tree : Tree} :
      before.Product tree after →
      Reads ⟨⟨room, before⟩, outer⟩ ⟨.product, tree⟩ ⟨⟨room, after⟩, outer⟩
  | sum {room : Room} {outer : List (Tree × Level)} {tree : Tree} :
      Reads ⟨⟨room, .first⟩, outer⟩ ⟨.sum, tree⟩ ⟨⟨room, .total tree⟩, outer⟩
  | times {room next : Room} {outer : List (Tree × Level)} {sum : Option (Tree × Tree)}
      {product sign : Tree} :
      room.times? = some next →
      Reads ⟨⟨room, .after sum product⟩, outer⟩ ⟨.times, sign⟩
        ⟨⟨next, .factor sum product sign⟩, outer⟩
  | plus {room next : Room} {turn : Turn} {outer : List (Tree × Level)} {sum sign : Tree} :
      turn.value? = some sum → room.plus? = some next →
      Reads ⟨⟨room, turn⟩, outer⟩ ⟨.plus, sign⟩ ⟨⟨next, .term sum sign⟩, outer⟩

/-- Reading marks one after the other. -/
inductive ReadsAll : Reader → List Mark → Reader → Prop where
  | nil {reader : Reader} : ReadsAll reader [] reader
  | cons {reader middle later : Reader} {mark : Mark} {marks : List Mark} :
      Reads reader mark middle → ReadsAll middle marks later → ReadsAll reader (mark :: marks) later

theorem ReadsAll.single {reader later : Reader} {mark : Mark} (reads : Reads reader mark later) :
    ReadsAll reader [mark] later :=
  .cons reads .nil

theorem ReadsAll.append {reader middle later : Reader} {marks others : List Mark}
    (before : ReadsAll reader marks middle) (after : ReadsAll middle others later) :
    ReadsAll reader (marks ++ others) later := by
  induction before with
  | nil => exact after
  | cons reads _ induction => exact .cons reads (induction after)

theorem readsAll_append_iff {reader later : Reader} {marks others : List Mark} :
    ReadsAll reader (marks ++ others) later ↔
      ∃ middle, ReadsAll reader marks middle ∧ ReadsAll middle others later := by
  constructor
  · intro reads
    induction marks generalizing reader with
    | nil => exact ⟨reader, .nil, reads⟩
    | cons mark marks induction =>
        cases reads with
        | cons first rest =>
            obtain ⟨middle, before, after⟩ := induction rest
            exact ⟨middle, .cons first before, after⟩
  · rintro ⟨middle, before, after⟩
    exact before.append after

/-! ### What a mark does -/

section

variable {reader later : Reader} {mark : Mark} (reads : reader.Reads mark later)

include reads

theorem Reads.of_opening (is : mark.role = .opening) : reader.level.turn.value? = none ∧
    later = ⟨⟨.free, .first⟩, (mark.tree, reader.level) :: reader.outer⟩ := by
  cases reads with
  | opening valueless => exact ⟨valueless, rfl⟩
  | _ => cases is

theorem Reads.of_closing (is : mark.role = .closing) :
    ∃ inner opening around before after outer, reader.level.turn.value? = some inner ∧
      reader.outer = (opening, ⟨around, before⟩) :: outer ∧
      before.Factor (parenTree opening inner mark.tree) after ∧
      later = ⟨⟨around.paren, after⟩, outer⟩ := by
  cases reads with
  | closing valued goes => exact ⟨_, _, _, _, _, _, valued, rfl, goes, rfl⟩
  | _ => cases is

theorem Reads.of_times (is : mark.role = .times) :
    ∃ sum product next, reader.level.turn = .after sum product ∧
      reader.level.room.times? = some next ∧
      later = ⟨⟨next, .factor sum product mark.tree⟩, reader.outer⟩ := by
  cases reads with
  | times goes => exact ⟨_, _, _, rfl, goes, rfl⟩
  | _ => cases is

theorem Reads.of_plus (is : mark.role = .plus) :
    ∃ sum next, reader.level.turn.value? = some sum ∧ reader.level.room.plus? = some next ∧
      later = ⟨⟨next, .term sum mark.tree⟩, reader.outer⟩ := by
  cases reads with
  | plus valued goes => exact ⟨_, _, valued, goes, rfl⟩
  | _ => cases is

/-- An operand is a factor of a product, or a sum that a level starts with. -/
theorem Reads.of_operand (is : mark.IsOperand) :
    ∃ after, later = ⟨⟨reader.level.room, after⟩, reader.outer⟩ ∧
      (reader.level.turn.Factor mark.tree after ∨
        reader.level.turn = .first ∧ after = .total mark.tree) := by
  cases reads with
  | factor goes => exact ⟨_, rfl, .inl goes⟩
  | product goes => exact ⟨_, rfl, .inl goes.factor⟩
  | sum => exact ⟨_, rfl, .inr ⟨rfl, rfl⟩⟩
  | _ => rcases is with is | is | is <;> cases is

end

theorem ReadsAll.ne_other {reader later : Reader} {marks : List Mark}
    (reads : reader.ReadsAll marks later) : ∀ mark ∈ marks, mark.role ≠ .other := by
  induction reads with
  | nil => exact nofun
  | cons first _ induction =>
      refine List.forall_mem_cons.mpr ⟨?_, induction⟩
      cases first <;> exact nofun

end Reader

/-- The marks complete what has been read to a sentence for a tree. -/
def Reader.Completes (reader : Reader) (tree : Tree) (marks : List Mark) : Prop :=
  ∃ room turn, reader.ReadsAll marks ⟨⟨room, turn⟩, []⟩ ∧ turn.value? = some tree

def Sentence (tree : Tree) (marks : List Mark) : Prop :=
  Reader.start.Completes tree marks

/-! ## More room -/

namespace Room

/-- Whatever there is room for in the second there is room for in the first. -/
def freer : Room → Room → Bool
  | .free, _ | _, .nothing => true
  | .factorOrTerm, .factorOrTerm | .factorOrTerm, .factor => true
  | .factors, .factors | .factors, .factor => true
  | .factor, .factor => true
  | _, _ => false

theorem freer_refl (room : Room) : room.freer room = true := by
  cases room <;> rfl

theorem freer_paren (room : Room) : room.freer room.paren = true := by
  cases room <;> rfl

theorem paren_freer {room other : Room} (more : room.freer other = true) :
    room.paren.freer other.paren = true := by
  cases room <;> cases other <;> first | rfl | cases more

theorem times?_freer {room other next : Room} (more : room.freer other = true)
    (goes : other.times? = some next) :
    ∃ after, room.times? = some after ∧ after.freer next = true := by
  cases room <;> cases other <;> cases goes <;> first | exact ⟨_, rfl, rfl⟩ | cases more

theorem plus?_freer {room other next : Room} (more : room.freer other = true)
    (goes : other.plus? = some next) :
    ∃ after, room.plus? = some after ∧ after.freer next = true := by
  cases room <;> cases other <;> cases goes <;> first | exact ⟨_, rfl, rfl⟩ | cases more

theorem freer_of_times? {room next : Room} (goes : room.times? = some next) :
    room.freer next = true := by
  cases room <;> cases goes <;> rfl

end Room

/-- The same has been read, with more room. -/
def Level.Freer (level other : Level) : Prop :=
  level.turn = other.turn ∧ level.room.freer other.room = true

namespace Reader

def Freer (reader other : Reader) : Prop :=
  reader.level.Freer other.level ∧
    List.Forall₂ (fun one two : Tree × Level => one.1 = two.1 ∧ one.2.Freer two.2)
      reader.outer other.outer

theorem Freer.of_room {room other : Room} (more : room.freer other = true) (turn : Turn)
    (outer : List (Tree × Level)) : Freer ⟨⟨room, turn⟩, outer⟩ ⟨⟨other, turn⟩, outer⟩ :=
  ⟨⟨rfl, more⟩, List.forall₂_same.mpr fun _ _ => ⟨rfl, rfl, Room.freer_refl _⟩⟩

theorem Reads.freer {reader other later : Reader} {mark : Mark} (reads : Reads other mark later)
    (more : reader.Freer other) : ∃ next, Reads reader mark next ∧ next.Freer later := by
  obtain ⟨⟨room, turn⟩, outer⟩ := reader
  obtain ⟨⟨same, roomy⟩, around⟩ := more
  cases reads with
  | opening valueless =>
      cases same
      exact ⟨_, .opening valueless, ⟨rfl, rfl⟩, .cons ⟨rfl, rfl, roomy⟩ around⟩
  | closing inner goes =>
      cases same
      obtain ⟨⟨opening, ⟨wider, before⟩⟩, others, ⟨same, same', roomy'⟩, rest, rfl⟩ :=
        List.forall₂_cons_right_iff.mp around
      cases same
      cases same'
      exact ⟨_, .closing inner goes, ⟨rfl, Room.paren_freer roomy'⟩, rest⟩
  | factor goes =>
      cases same
      exact ⟨_, .factor goes, ⟨rfl, roomy⟩, around⟩
  | product goes =>
      cases same
      exact ⟨_, .product goes, ⟨rfl, roomy⟩, around⟩
  | sum =>
      cases same
      exact ⟨_, .sum, ⟨rfl, roomy⟩, around⟩
  | times goes =>
      cases same
      obtain ⟨after, goes', more⟩ := Room.times?_freer roomy goes
      exact ⟨_, .times goes', ⟨rfl, more⟩, around⟩
  | plus valued goes =>
      cases same
      obtain ⟨after, goes', more⟩ := Room.plus?_freer roomy goes
      exact ⟨_, .plus valued goes', ⟨rfl, more⟩, around⟩

theorem ReadsAll.freer {reader other later : Reader} {marks : List Mark}
    (reads : ReadsAll other marks later) (more : reader.Freer other) :
    ∃ next, ReadsAll reader marks next ∧ next.Freer later := by
  induction reads generalizing reader with
  | nil => exact ⟨reader, .nil, more⟩
  | cons first _ induction =>
      obtain ⟨middle, reads, more⟩ := first.freer more
      obtain ⟨next, others, more⟩ := induction more
      exact ⟨next, .cons reads others, more⟩

end Reader

/-! ## Completing a sentence -/

namespace Reader

variable {tree : Tree} {marks others : List Mark}

theorem completes_append_iff {reader : Reader} : reader.Completes tree (marks ++ others) ↔
    ∃ middle, reader.ReadsAll marks middle ∧ middle.Completes tree others := by
  constructor
  · rintro ⟨room, turn, reads, valued⟩
    obtain ⟨middle, before, after⟩ := readsAll_append_iff.mp reads
    exact ⟨middle, before, room, turn, after, valued⟩
  · rintro ⟨middle, before, room, turn, after, valued⟩
    exact ⟨room, turn, before.append after, valued⟩

theorem Completes.cons {reader next : Reader} {mark : Mark} (reads : reader.Reads mark next)
    (completes : next.Completes tree marks) : reader.Completes tree (mark :: marks) :=
  completes_append_iff.mpr ⟨next, .single reads, completes⟩

theorem Completes.freer {reader other : Reader} (completes : other.Completes tree marks)
    (more : reader.Freer other) : reader.Completes tree marks := by
  obtain ⟨room, turn, reads, valued⟩ := completes
  obtain ⟨⟨⟨room', turn'⟩, outer⟩, reads', ⟨same, _⟩, around⟩ := reads.freer more
  cases same
  cases around
  exact ⟨room', turn, reads', valued⟩

/-- Only a `*` has to do with more than the value of a level. -/
theorem Completes.of_value {room : Room} {turn other : Turn} {outer : List (Tree × Level)}
    {value : Tree} (completes : Completes ⟨⟨room, turn⟩, outer⟩ tree marks)
    (valued : turn.value? = some value) (same : other.value? = some value)
    (unlike : ∀ mark ∈ marks.head?, mark.role ≠ .times) :
    Completes ⟨⟨room, other⟩, outer⟩ tree marks := by
  obtain ⟨last, final, reads, ends⟩ := completes
  cases reads with
  | nil => exact ⟨_, other, .nil, by rw [same, ← valued, ends]⟩
  | @cons _ middle _ mark marks first rest =>
      refine Completes.cons ?_ ⟨last, final, rest, ends⟩
      cases first with
      | opening valueless => cases valueless.symm.trans valued
      | closing valued' goes =>
          rw [valued', Option.some.injEq] at valued
          exact .closing (valued ▸ same) goes
      | factor goes => cases goes <;> cases valued
      | product goes => cases goes <;> cases valued
      | sum => cases valued
      | times => exact absurd rfl (unlike _ rfl)
      | plus valued' goes =>
          rw [valued', Option.some.injEq] at valued
          exact .plus (valued ▸ same) goes

end Reader

/-! ## What has been read last -/

/-- Operands before an operator have not been put together, or there is little room after it. -/
def Recent (reader : Reader) (marks : List Mark) : Prop :=
  match reader.level.turn with
  | .first => reader.level.room = .free ∧ ∀ last ∈ marks.getLast?, last.role = .opening
  | .term _ _ => ∃ front left sign, marks = front ++ [left, sign] ∧ sign.role = .plus ∧
      (left.IsOperand ∨ reader.level.room = .factors)
  | .factor _ _ _ => ∃ front left sign, marks = front ++ [left, sign] ∧ sign.role = .times ∧
      (left.IsOperand ∨ reader.level.room = .nothing)
  | .after _ _ | .total _ => ∃ front last, marks = front ++ [last] ∧
      (last.IsOperand ∨ ∃ room : Room, reader.level.room = room.paren)

namespace Reader

theorem Reads.recent {reader later : Reader} {mark : Mark} {marks : List Mark}
    (reads : Reads reader mark later) (recent : Recent reader marks) :
    Recent later (marks ++ [mark]) := by
  cases reads with
  | opening => exact ⟨rfl, by simp⟩
  | closing _ goes => cases goes <;> exact ⟨marks, _, rfl, .inr ⟨_, rfl⟩⟩
  | factor goes => cases goes <;> exact ⟨marks, _, rfl, .inl (.inl rfl)⟩
  | product goes => cases goes <;> exact ⟨marks, _, rfl, .inl (.inr (.inl rfl))⟩
  | sum => exact ⟨marks, _, rfl, .inl (.inr (.inr rfl))⟩
  | times goes =>
      obtain ⟨front, last, rfl, is⟩ := recent
      refine ⟨front, last, _, List.append_assoc _ _ _, rfl, is.imp_right ?_⟩
      rintro ⟨room, same⟩
      change _ = room.paren at same
      subst same
      cases room <;> cases goes <;> rfl
  | @plus _ _ turn _ _ _ valued goes =>
      obtain ⟨front, last, rfl, is⟩ : ∃ front last, marks = front ++ [last] ∧
          (last.IsOperand ∨ ∃ room : Room, _ = room.paren) := by
        cases turn <;> first | exact recent | cases valued
      refine ⟨front, last, _, List.append_assoc _ _ _, rfl, is.imp_right ?_⟩
      rintro ⟨room, same⟩
      subst same
      cases room <;> cases goes <;> rfl

theorem ReadsAll.recent {reader later : Reader} {front marks : List Mark}
    (reads : ReadsAll reader marks later) (recent : Recent reader front) :
    Recent later (front ++ marks) := by
  induction reads generalizing front with
  | nil => rwa [List.append_nil]
  | cons first _ induction =>
      rw [List.append_cons]
      exact induction (first.recent recent)

theorem recent_start : Recent start [] :=
  ⟨rfl, nofun⟩

end Reader

end RowGrammar.Arithmetic
