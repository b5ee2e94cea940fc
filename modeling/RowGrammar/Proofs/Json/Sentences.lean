import Mathlib.Data.List.Induction
import RowGrammar.Proofs.SymbolPattern.Words
import RowGrammar.Tree.Simplify

/-!
# Sentences of JSON

A JSON text that has been read in part is a sequence of marks: brackets, colons, commas, and values
and members, whether they are single tokens or have been put together already.  A reader that keeps
a stack of open brackets says whether such a sequence is a sentence, and for which value.  Putting
a member, an array or an object together changes nothing for the reader, and as long as a sentence
is not a single value, something in it can be put together.
-/

namespace RowGrammar.Json

open Simplify

inductive Bracket where
  | square
  | curly
  deriving DecidableEq, Repr

/-- The part that a mark plays in a sentence. -/
inductive Role where
  | opening (bracket : Bracket)
  | closing (bracket : Bracket)
  | colon
  | comma
  /-- A string, which may be a key. -/
  | text
  /-- A value that is no single string. -/
  | atom
  | member
  | other
  deriving DecidableEq, Repr

structure Mark where
  role : Role
  /-- What the mark stands for, if anything; a member stands for its key and its value. -/
  value : Option Json

/-- The mark is a value. -/
def Mark.IsValue (mark : Mark) : Prop :=
  mark.role = .text ∨ mark.role = .atom

namespace Bracket

/-- What may stand between brackets. -/
def Item : Bracket → Mark → Prop
  | .square, mark => mark.IsValue
  | .curly, mark => mark.role = .member

/-- What brackets and the values between them stand for. -/
def complete : Bracket → List Json → Json
  | .square, values => .array values
  | .curly, values => .object (collectList [] values)

end Bracket

/-- Neighbours that are put together, and the mark they become. -/
inductive Contracts : List Mark → Mark → Prop where
  | member {key colon value : Mark} :
      key.role = .text → colon.role = .colon → value.IsValue →
      Contracts [key, colon, value]
        ⟨.member, some (memberValue ([key, colon, value].filterMap Mark.value))⟩
  | list {bracket : Bracket} {opening closing : Mark} {inner : List Mark} :
      opening.role = .opening bracket → closing.role = .closing bracket →
      Listed bracket.Item (·.role = .comma) inner →
      Contracts (opening :: (inner ++ [closing]))
        ⟨.atom, some (bracket.complete
          ((opening :: (inner ++ [closing])).filterMap Mark.value))⟩

/-! ## The reader -/

/-- What may come next inside of a bracket. -/
inductive Turn where
  /-- The first item, or the closing bracket. -/
  | first
  /-- An item, after a comma. -/
  | next
  /-- A comma or the closing bracket, after an item. -/
  | after
  /-- A colon, after a key. -/
  | key (name : Json)
  /-- A value, after a key and a colon. -/
  | value (name : Json)

/-- A bracket that is still open, and the values found in it so far. -/
structure Level where
  bracket : Bracket
  turn : Turn
  values : List Json

/-- How far a sentence has been read: up to somewhere inside of brackets, or to its end. -/
inductive Reader where
  | inside (levels : List Level)
  | done (value : Json)

namespace Turn

/-- Whether an item may come next. -/
def expects : Turn → Bool
  | .first | .next => true
  | .after | .key _ | .value _ => false

/-- Whether the closing bracket may come next. -/
def closes : Turn → Bool
  | .first | .after => true
  | .next | .key _ | .value _ => false

end Turn

namespace Reader

/-- Adds an item to the innermost bracket. -/
def add (item : Json) : List Level → Reader
  | [] => .done item
  | level :: levels =>
      .inside ({ level with turn := .after, values := level.values ++ [item] } :: levels)

/-- Reads a value. -/
def put (levels : List Level) (value : Json) : Option Reader :=
  match levels with
  | [] => some (add value levels)
  | ⟨.square, turn, _⟩ :: _ => if turn.expects then some (add value levels) else none
  | ⟨.curly, .value name, _⟩ :: _ => some (add (.array [name, value]) levels)
  | ⟨.curly, _, _⟩ :: _ => none

/-- Reads a string, which is a key where a member is expected. -/
def putText (levels : List Level) (value : Json) : Option Reader :=
  match levels with
  | ⟨.curly, turn, values⟩ :: outer =>
      if turn.expects then some (.inside (⟨.curly, .key value, values⟩ :: outer))
      else put levels value
  | _ => put levels value

/-- Reads a member that has been put together. -/
def putMember (levels : List Level) (member : Json) : Option Reader :=
  match levels with
  | ⟨.curly, turn, _⟩ :: _ => if turn.expects then some (add member levels) else none
  | _ => none

def close (levels : List Level) (bracket : Bracket) : Option Reader :=
  match levels with
  | level :: outer =>
      if level.bracket = bracket ∧ level.turn.closes then
        put outer (bracket.complete level.values)
      else none
  | [] => none

def colon (levels : List Level) : Option Reader :=
  match levels with
  | ⟨.curly, .key name, values⟩ :: outer =>
      some (.inside (⟨.curly, .value name, values⟩ :: outer))
  | _ => none

def comma (levels : List Level) : Option Reader :=
  match levels with
  | ⟨bracket, .after, values⟩ :: outer => some (.inside (⟨bracket, .next, values⟩ :: outer))
  | _ => none

/-- Reads a mark inside of brackets. -/
def readInside (levels : List Level) (mark : Mark) : Option Reader :=
  match mark.role, mark.value with
  | .opening bracket, none => some (.inside (⟨bracket, .first, []⟩ :: levels))
  | .closing bracket, none => close levels bracket
  | .colon, none => colon levels
  | .comma, none => comma levels
  | .text, some value => putText levels value
  | .atom, some value => put levels value
  | .member, some member => putMember levels member
  | _, _ => none

/-- Reads the next mark; there is none after the end. -/
def read (reader : Reader) (mark : Mark) : Option Reader :=
  match reader with
  | .inside levels => readInside levels mark
  | .done _ => none

def readAll (reader : Reader) (marks : List Mark) : Option Reader :=
  marks.foldlM read reader

@[simp]
theorem readAll_nil (reader : Reader) : reader.readAll [] = some reader :=
  rfl

theorem readAll_cons (reader : Reader) (mark : Mark) (marks : List Mark) :
    reader.readAll (mark :: marks) = (reader.read mark).bind fun later => later.readAll marks :=
  rfl

theorem readAll_append (reader : Reader) (marks others : List Mark) :
    reader.readAll (marks ++ others) =
      (reader.readAll marks).bind fun later => later.readAll others :=
  List.foldlM_append

/-- Every mark but a bracket, a colon or a comma stands for something. -/
theorem readInside_eq_some {levels : List Level} {mark : Mark} {later : Reader}
    (reads : readInside levels mark = some later) :
    match mark.role with
    | .opening bracket => mark.value = none ∧ later = .inside (⟨bracket, .first, []⟩ :: levels)
    | .closing bracket => mark.value = none ∧ close levels bracket = some later
    | .colon => mark.value = none ∧ colon levels = some later
    | .comma => mark.value = none ∧ comma levels = some later
    | .text => ∃ value, mark.value = some value ∧ putText levels value = some later
    | .atom => ∃ value, mark.value = some value ∧ put levels value = some later
    | .member => ∃ value, mark.value = some value ∧ putMember levels value = some later
    | .other => False := by
  obtain ⟨role, value⟩ := mark
  cases role <;> cases value <;> simp_all [readInside]

theorem colon_eq_some {levels : List Level} {later : Reader} (reads : colon levels = some later) :
    ∃ name values outer, levels = ⟨.curly, .key name, values⟩ :: outer ∧
      later = .inside (⟨.curly, .value name, values⟩ :: outer) := by
  unfold colon at reads
  split at reads
  · cases reads
    exact ⟨_, _, _, rfl, rfl⟩
  · cases reads

theorem comma_eq_some {levels : List Level} {later : Reader} (reads : comma levels = some later) :
    ∃ bracket values outer, levels = ⟨bracket, .after, values⟩ :: outer ∧
      later = .inside (⟨bracket, .next, values⟩ :: outer) := by
  unfold comma at reads
  split at reads
  · cases reads
    exact ⟨_, _, _, rfl, rfl⟩
  · cases reads

theorem close_eq_some {levels : List Level} {bracket : Bracket} {later : Reader}
    (reads : close levels bracket = some later) :
    ∃ turn values outer, levels = ⟨bracket, turn, values⟩ :: outer ∧ turn.closes = true ∧
      put outer (bracket.complete values) = some later := by
  unfold close at reads
  split at reads
  · rename_i level outer
    split at reads
    · rename_i ends
      obtain ⟨rfl, closes⟩ := ends
      exact ⟨_, _, _, rfl, closes, reads⟩
    · cases reads
  · cases reads

/-- After a value, the innermost bracket waits for a comma or to be closed. -/
theorem put_eq_some {levels : List Level} {value : Json} {later : Reader}
    (reads : put levels value = some later) :
    (levels = [] ∧ later = .done value) ∨
    (∃ turn values outer, levels = ⟨.square, turn, values⟩ :: outer ∧ turn.expects = true ∧
      later = .inside (⟨.square, .after, values ++ [value]⟩ :: outer)) ∨
    ∃ name values outer, levels = ⟨.curly, .value name, values⟩ :: outer ∧
      later = .inside (⟨.curly, .after, values ++ [.array [name, value]]⟩ :: outer) := by
  unfold put at reads
  split at reads
  · cases reads
    exact .inl ⟨rfl, rfl⟩
  · split at reads
    · rename_i expects
      cases reads
      exact .inr (.inl ⟨_, _, _, rfl, expects, rfl⟩)
    · cases reads
  · cases reads
    exact .inr (.inr ⟨_, _, _, rfl, rfl⟩)
  · cases reads

theorem putText_eq_some {levels : List Level} {value : Json} {later : Reader}
    (reads : putText levels value = some later) :
    (∃ turn values outer, levels = ⟨.curly, turn, values⟩ :: outer ∧ turn.expects = true ∧
      later = .inside (⟨.curly, .key value, values⟩ :: outer)) ∨
    put levels value = some later := by
  unfold putText at reads
  split at reads
  · split at reads
    · rename_i expects
      cases reads
      exact .inl ⟨_, _, _, rfl, expects, rfl⟩
    · exact .inr reads
  · exact .inr reads

theorem putMember_eq_some {levels : List Level} {member : Json} {later : Reader}
    (reads : putMember levels member = some later) :
    ∃ turn values outer, levels = ⟨.curly, turn, values⟩ :: outer ∧ turn.expects = true ∧
      later = .inside (⟨.curly, .after, values ++ [member]⟩ :: outer) := by
  unfold putMember at reads
  split at reads
  · split at reads
    · rename_i expects
      cases reads
      exact ⟨_, _, _, rfl, expects, rfl⟩
    · cases reads
  · cases reads

/-- Where a value may stand, a string is a value. -/
theorem putText_eq_put {levels : List Level} {value : Json} {later : Reader}
    (reads : put levels value = some later) : putText levels value = some later := by
  rcases put_eq_some reads with ⟨rfl, _⟩ | ⟨_, _, _, rfl, _, _⟩ | ⟨_, _, _, rfl, _⟩
  · exact reads
  · exact reads
  · exact reads

/-- Reading an item adds what it stands for. -/
theorem readInside_item {bracket : Bracket} {turn : Turn} {values : List Json}
    {outer : List Level} {mark : Mark} {later : Reader} (item : bracket.Item mark)
    (expects : turn.expects = true)
    (reads : readInside (⟨bracket, turn, values⟩ :: outer) mark = some later) :
    ∃ value, mark.value = some value ∧
      later = .inside (⟨bracket, .after, values ++ [value]⟩ :: outer) := by
  have said := readInside_eq_some reads
  cases bracket with
  | square =>
      have added {value : Json}
          (reads : put (⟨.square, turn, values⟩ :: outer) value = some later) :
          later = .inside (⟨.square, .after, values ++ [value]⟩ :: outer) := by
        rw [put, if_pos expects] at reads
        exact (Option.some.inj reads).symm
      rcases item with role | role
      · rw [role] at said
        obtain ⟨value, stands, reads⟩ := said
        exact ⟨value, stands, added reads⟩
      · rw [role] at said
        obtain ⟨value, stands, reads⟩ := said
        exact ⟨value, stands, added reads⟩
  | curly =>
      rw [show mark.role = .member from item] at said
      obtain ⟨value, stands, reads⟩ := said
      rw [putMember, if_pos expects] at reads
      exact ⟨value, stands, (Option.some.inj reads).symm⟩

/-! ## Putting together -/

/-- Reading on from an item to the closing bracket puts in what stands between the brackets. -/
theorem readAll_further {bracket : Bracket} {closing : Mark} {marks : List Mark}
    (closes : closing.role = .closing bracket)
    (further : Further bracket.Item (·.role = .comma) marks) {values : List Json}
    {outer : List Level} {later : Reader}
    (reads : (inside (⟨bracket, .after, values⟩ :: outer)).readAll (marks ++ [closing]) =
      some later) :
    closing.value = none ∧
      put outer (bracket.complete (values ++ marks.filterMap Mark.value)) = some later := by
  induction further generalizing values with
  | nil =>
      rw [List.nil_append, readAll_cons] at reads
      obtain ⟨middle, said, same⟩ := Option.bind_eq_some_iff.mp reads
      rw [readAll_nil, Option.some.injEq] at same
      subst same
      have closed := readInside_eq_some said
      rw [closes] at closed
      obtain ⟨_, _, _, same, _, puts⟩ := close_eq_some closed.2
      cases same
      simpa using And.intro closed.1 puts
  | @cons before after rest separates item _ induction =>
      rw [List.cons_append, readAll_cons] at reads
      obtain ⟨middle, said, reads⟩ := Option.bind_eq_some_iff.mp reads
      have separated := readInside_eq_some said
      rw [separates] at separated
      obtain ⟨_, _, _, same, rfl⟩ := comma_eq_some separated.2
      cases same
      rw [List.cons_append, readAll_cons] at reads
      obtain ⟨middle, said, reads⟩ := Option.bind_eq_some_iff.mp reads
      obtain ⟨value, stands, rfl⟩ := readInside_item item rfl said
      have puts := induction reads
      rw [List.append_assoc, List.singleton_append] at puts
      rwa [List.filterMap_cons, separated.1, List.filterMap_cons, stands]

/-- Reading a list in brackets is reading what it stands for. -/
theorem readAll_listed {bracket : Bracket} {opening closing : Mark} {marks : List Mark}
    (opens : opening.role = .opening bracket) (closes : closing.role = .closing bracket)
    (listed : Listed bracket.Item (·.role = .comma) marks) {levels : List Level} {later : Reader}
    (reads : (inside levels).readAll (opening :: (marks ++ [closing])) = some later) :
    put levels (bracket.complete ((opening :: (marks ++ [closing])).filterMap Mark.value)) =
      some later := by
  rw [readAll_cons] at reads
  obtain ⟨middle, said, reads⟩ := Option.bind_eq_some_iff.mp reads
  have opened := readInside_eq_some said
  rw [opens] at opened
  obtain ⟨nothing, rfl⟩ := opened
  cases listed with
  | nil =>
      rw [List.nil_append, readAll_cons] at reads
      obtain ⟨middle, said, same⟩ := Option.bind_eq_some_iff.mp reads
      rw [readAll_nil, Option.some.injEq] at same
      subst same
      have closed := readInside_eq_some said
      rw [closes] at closed
      obtain ⟨_, _, _, same, _, puts⟩ := close_eq_some closed.2
      cases same
      simpa [nothing, closed.1] using puts
  | cons item further =>
      rw [List.cons_append, readAll_cons] at reads
      obtain ⟨middle, said, reads⟩ := Option.bind_eq_some_iff.mp reads
      obtain ⟨value, stands, rfl⟩ := readInside_item item rfl said
      obtain ⟨ends, puts⟩ := readAll_further closes further reads
      rw [List.nil_append, List.singleton_append] at puts
      rw [List.filterMap_cons, nothing, List.cons_append, List.filterMap_cons, stands,
        List.filterMap_append, List.filterMap_cons, ends, List.filterMap_nil, List.append_nil]
      exact puts

/-- Reading a key, a colon and a value is reading the member that they make. -/
theorem readAll_member {key colon_ value : Mark} (isKey : key.role = .text)
    (isColon : colon_.role = .colon) (isValue : value.IsValue) {levels : List Level}
    {later : Reader} (reads : (inside levels).readAll [key, colon_, value] = some later) :
    putMember levels (memberValue ([key, colon_, value].filterMap Mark.value)) = some later := by
  rw [readAll_cons] at reads
  obtain ⟨first, said, reads⟩ := Option.bind_eq_some_iff.mp reads
  rw [readAll_cons] at reads
  obtain ⟨second, followed, reads⟩ := Option.bind_eq_some_iff.mp reads
  rw [readAll_cons] at reads
  obtain ⟨third, ended, same⟩ := Option.bind_eq_some_iff.mp reads
  rw [readAll_nil, Option.some.injEq] at same
  subst same
  have keyed := readInside_eq_some said
  rw [isKey] at keyed
  obtain ⟨name, named, reads⟩ := keyed
  -- a colon follows, so the text is a key
  rcases putText_eq_some reads with ⟨turn, values, outer, rfl, expects, rfl⟩ | puts
  · have parted := readInside_eq_some followed
    rw [isColon] at parted
    obtain ⟨_, _, _, same, rfl⟩ := colon_eq_some parted.2
    cases same
    obtain ⟨item, stands, reads⟩ : ∃ item, value.value = some item ∧
        put (⟨.curly, .value name, values⟩ :: outer) item = some third := by
      have valued := readInside_eq_some ended
      rcases isValue with role | role
      · rw [role] at valued
        exact valued
      · rw [role] at valued
        exact valued
    rw [List.filterMap_cons, named, List.filterMap_cons, parted.1, List.filterMap_cons, stands]
    rw [put] at reads
    rw [memberValue, putMember, if_pos expects]
    exact reads
  · rcases put_eq_some puts with ⟨_, rfl⟩ | ⟨_, _, _, _, _, rfl⟩ | ⟨_, _, _, _, rfl⟩
    · cases followed
    · have parted := readInside_eq_some followed
      rw [isColon] at parted
      obtain ⟨_, _, _, same, _⟩ := colon_eq_some parted.2
      cases same
    · have parted := readInside_eq_some followed
      rw [isColon] at parted
      obtain ⟨_, _, _, same, _⟩ := colon_eq_some parted.2
      cases same

/-- What is put together reads as its parts did. -/
theorem read_contracted {word : List Mark} {mark : Mark} (contracts : Contracts word mark)
    {reader later : Reader} (reads : reader.readAll word = some later) :
    reader.read mark = some later := by
  cases reader with
  | done value => cases contracts <;> cases reads
  | inside levels =>
      cases contracts with
      | member isKey isColon isValue => exact readAll_member isKey isColon isValue reads
      | list opens closes listed => exact readAll_listed opens closes listed reads

/-- A sentence stays one for the same value when neighbours in it are put together. -/
theorem readAll_contracted {before word after : List Mark} {mark : Mark}
    (contracts : Contracts word mark) {reader later : Reader}
    (reads : reader.readAll (before ++ (word ++ after)) = some later) :
    reader.readAll (before ++ mark :: after) = some later := by
  rw [readAll_append] at reads
  obtain ⟨first, said, reads⟩ := Option.bind_eq_some_iff.mp reads
  rw [readAll_append] at reads
  obtain ⟨second, followed, reads⟩ := Option.bind_eq_some_iff.mp reads
  rw [readAll_append, said, Option.bind_some, readAll_cons, read_contracted contracts followed]
  exact reads

end Reader

/-! ## Getting on -/

/-- The marks since the innermost bracket was opened, or since the last key in it. -/
def Level.Spelled (level : Level) (word : List Mark) : Prop :=
  match level.turn with
  | .first => ∃ opening, opening.role = .opening level.bracket ∧ word = [opening]
  | .after => ∃ opening item rest, opening.role = .opening level.bracket ∧
      level.bracket.Item item ∧ Further level.bracket.Item (·.role = .comma) rest ∧
      word = opening :: item :: rest
  | .next => ∃ opening item rest comma, opening.role = .opening level.bracket ∧
      level.bracket.Item item ∧ Further level.bracket.Item (·.role = .comma) rest ∧
      comma.role = .comma ∧ word = opening :: item :: (rest ++ [comma])
  | .key _ => ∃ key, key.role = .text ∧ word = [key]
  | .value _ => ∃ key colon, key.role = .text ∧ colon.role = .colon ∧ word = [key, colon]

/-- An item after the marks of a bracket that expects one. -/
theorem Level.Spelled.add {level : Level} {word : List Mark} (spelled : level.Spelled word)
    (expects : level.turn.expects = true) {mark : Mark} (item : level.bracket.Item mark)
    (values : List Json) :
    Level.Spelled { level with turn := .after, values } (word ++ [mark]) := by
  obtain ⟨bracket, turn, _⟩ := level
  cases turn with
  | first =>
      obtain ⟨opening, opens, rfl⟩ := spelled
      exact ⟨opening, mark, [], opens, item, .nil, rfl⟩
  | next =>
      obtain ⟨opening, first, rest, comma, opens, is, further, separates, rfl⟩ := spelled
      refine ⟨opening, first, rest ++ [comma, mark], opens, is, further.concat separates item, ?_⟩
      simp
  | after => cases expects
  | key name => cases expects
  | value name => cases expects

/-- What has been read when nothing in it can be put together: a single value, or what brackets are
open for. -/
def Reader.Spelled : Reader → List Mark → Prop
  | .inside [], marks => marks = []
  | .inside (level :: _), marks => ∃ before word, marks = before ++ word ∧ level.Spelled word
  | .done value, marks => ∃ mark : Mark, marks = [mark] ∧ mark.IsValue ∧ mark.value = some value

namespace Reader

/-- Nothing at the end of some marks can be put together. -/
def Stuck (marks : List Mark) : Prop :=
  ∀ before word mark, marks = before ++ word → ¬Contracts word mark

theorem spelled_value {levels : List Level} {marks : List Mark} {mark : Mark} {value : Json}
    {later : Reader} (spelled : (inside levels).Spelled marks) (is : mark.IsValue)
    (stands : mark.value = some value) (stuck : Stuck (marks ++ [mark]))
    (reads : put levels value = some later) : later.Spelled (marks ++ [mark]) := by
  rcases put_eq_some reads with ⟨rfl, rfl⟩ | ⟨turn, values, outer, rfl, expects, rfl⟩ |
    ⟨name, values, outer, rfl, rfl⟩
  · rw [show marks = [] from spelled]
    exact ⟨mark, rfl, is, stands⟩
  · obtain ⟨before, word, rfl, spelled⟩ := spelled
    exact ⟨before, word ++ [mark], List.append_assoc .., spelled.add expects is _⟩
  · obtain ⟨before, _, rfl, key, colon, isKey, isColon, rfl⟩ := spelled
    exact absurd (.member isKey isColon is) (stuck before _ _ (List.append_assoc ..))

theorem spelled_read {reader later : Reader} {marks : List Mark} {mark : Mark}
    (spelled : reader.Spelled marks) (stuck : Stuck (marks ++ [mark]))
    (reads : reader.read mark = some later) : later.Spelled (marks ++ [mark]) := by
  cases reader with
  | done value => cases reads
  | inside levels =>
      have said := readInside_eq_some reads
      cases role : mark.role with
      | opening bracket =>
          rw [role] at said
          obtain ⟨_, rfl⟩ := said
          exact ⟨marks, [mark], rfl, mark, role, rfl⟩
      | closing bracket =>
          -- the marks since the bracket was opened can be put together
          rw [role] at said
          obtain ⟨turn, values, outer, rfl, closes, _⟩ := close_eq_some said.2
          obtain ⟨before, word, rfl, spelled⟩ := spelled
          cases turn with
          | first =>
              obtain ⟨opening, opens, rfl⟩ := spelled
              exact absurd (.list opens role .nil) (stuck before _ _ (List.append_assoc ..))
          | after =>
              obtain ⟨opening, item, rest, opens, is, further, rfl⟩ := spelled
              exact absurd (.list opens role (.cons is further))
                (stuck before _ _ (List.append_assoc ..))
          | next => cases closes
          | key name => cases closes
          | value name => cases closes
      | colon =>
          rw [role] at said
          obtain ⟨name, values, outer, rfl, rfl⟩ := colon_eq_some said.2
          obtain ⟨before, _, rfl, key, isKey, rfl⟩ := spelled
          exact ⟨before, [key, mark], List.append_assoc .., key, mark, isKey, role, rfl⟩
      | comma =>
          rw [role] at said
          obtain ⟨bracket, values, outer, rfl, rfl⟩ := comma_eq_some said.2
          obtain ⟨before, _, rfl, opening, item, rest, opens, is, further, rfl⟩ := spelled
          exact ⟨before, opening :: item :: (rest ++ [mark]), List.append_assoc .., opening, item,
            rest, mark, opens, is, further, role, rfl⟩
      | text =>
          rw [role] at said
          obtain ⟨value, stands, texts⟩ := said
          rcases putText_eq_some texts with ⟨turn, values, outer, rfl, _, rfl⟩ | puts
          · exact ⟨marks, [mark], rfl, mark, role, rfl⟩
          · exact spelled_value spelled (.inl role) stands stuck puts
      | atom =>
          rw [role] at said
          obtain ⟨value, stands, puts⟩ := said
          exact spelled_value spelled (.inr role) stands stuck puts
      | member =>
          rw [role] at said
          obtain ⟨value, stands, puts⟩ := said
          obtain ⟨turn, values, outer, rfl, expects, rfl⟩ := putMember_eq_some puts
          obtain ⟨before, word, rfl, spelled⟩ := spelled
          exact ⟨before, word ++ [mark], List.append_assoc .., spelled.add expects role _⟩
      | other =>
          rw [role] at said
          exact said.elim

/-- A single mark that is a sentence for a value stands for it. -/
theorem value_of_readAll_singleton {mark : Mark} {value : Json}
    (reads : (inside []).readAll [mark] = some (.done value)) : mark.value = some value := by
  rw [readAll_cons] at reads
  obtain ⟨_, said, same⟩ := Option.bind_eq_some_iff.mp reads
  rw [readAll_nil, Option.some.injEq] at same
  subst same
  have said := readInside_eq_some said
  cases role : mark.role with
  | text =>
      rw [role] at said
      obtain ⟨_, stands, same⟩ := said
      cases same
      exact stands
  | atom =>
      rw [role] at said
      obtain ⟨_, stands, same⟩ := said
      cases same
      exact stands
  | opening bracket =>
      rw [role] at said
      cases said.2
  | closing bracket =>
      rw [role] at said
      cases said.2
  | colon =>
      rw [role] at said
      cases said.2
  | comma =>
      rw [role] at said
      cases said.2
  | member =>
      rw [role] at said
      obtain ⟨_, _, same⟩ := said
      cases same
  | other =>
      rw [role] at said
      exact said.elim

/-- A sentence is a single value, or there is something in it to be put together. -/
theorem single_or_contracts {marks : List Mark} {value : Json}
    (reads : (inside []).readAll marks = some (.done value)) :
    (∃ mark : Mark, marks = [mark] ∧ mark.IsValue ∧ mark.value = some value) ∨
      ∃ before word after mark, marks = before ++ (word ++ after) ∧ Contracts word mark := by
  by_contra neither
  obtain ⟨several, none_⟩ := not_or.mp neither
  have stuck {front rest : List Mark} (split : marks = front ++ rest) : Stuck front := by
    rintro before word mark rfl contracts
    exact none_ ⟨before, word, rest, mark, by rw [split, List.append_assoc], contracts⟩
  have spelled (front : List Mark) (rest : List Mark) (split : marks = front ++ rest)
      (reader : Reader) (reads : (inside []).readAll front = some reader) :
      reader.Spelled front := by
    induction front using List.reverseRecOn generalizing rest reader with
    | nil =>
        cases reads
        rfl
    | append_singleton front mark induction =>
        rw [readAll_append] at reads
        obtain ⟨middle, said, reads⟩ := Option.bind_eq_some_iff.mp reads
        rw [readAll_cons] at reads
        obtain ⟨_, read_, same⟩ := Option.bind_eq_some_iff.mp reads
        rw [readAll_nil, Option.some.injEq] at same
        subst same
        exact spelled_read (induction _ (split.trans (List.append_assoc ..)) middle said)
          (stuck split) read_
  exact several (spelled marks [] (List.append_nil _).symm _ reads)

end Reader

end RowGrammar.Json
