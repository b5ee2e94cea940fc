import RowGrammar.Proofs.SymbolPattern.Printing

/-!
# Reading printed patterns

A printing is read back phrase by phrase: wherever a phrase may stand, its text leads to a reading
that has grown by just what the phrase stands for, and after which the next phrase may stand.
-/

namespace RowGrammar.SymbolPattern

open RowGrammar.Text

/-! ## Where phrases may stand -/

namespace Reading

/-- An item, a bar or the end of a group may come next. -/
def Stands (reading : Reading) : Prop :=
  match reading.expected with
  | .item | .quantifier | .laziness _ | .opened _ => True
  | _ => False

/-- The reading as it is when the next item starts: a parenthesis has opened a capturing group, and
no quantifier follows. -/
def ready (reading : Reading) : Reading :=
  match reading.expected with
  | .opened _ => reading.opening .capturing
  | _ => { reading with expected := .item }

/-- Reading on within the innermost group has made `frame` of it. -/
structure Reaches (reading : Reading) (frame : Frame) (next : Reading) : Prop where
  stands : next.Stands
  ready_eq : next.ready = ⟨frame, reading.ready.outer, .item⟩

theorem ready_expected (reading : Reading) : reading.ready.expected = .item := by
  obtain ⟨current, outer, expected⟩ := reading
  cases expected <;> rfl

theorem Stands.reaches {reading : Reading} (stands : reading.Stands) :
    reading.Reaches reading.ready.current reading := by
  refine ⟨stands, ?_⟩
  rw [← ready_expected reading]

theorem Reaches.trans {reading middle next : Reading} {frame after : Frame}
    (first : reading.Reaches frame middle) (second : middle.Reaches after next) :
    reading.Reaches after next :=
  ⟨second.stands, by rw [second.ready_eq, first.ready_eq]⟩

theorem Reaches.current_eq {reading next : Reading} {frame : Frame}
    (reaches : reading.Reaches frame next) : next.ready.current = frame := by
  rw [reaches.ready_eq]

end Reading

variable {registry : Registry} {nodeType : String}

/-- The first lexemes of items, bars and ends of groups. -/
def Leading : Lexeme → Prop
  | .name _ => True
  | .number _ => False
  | .sign c => c = '.' ∨ c = '[' ∨ c = '(' ∨ c = '|' ∨ c = ')'

theorem Leading.ne {lexeme : Lexeme} (leading : Leading lexeme) {c : Char}
    (other : c = '?' ∨ c = '*' ∨ c = '+' ∨ c = '\x7b') : lexeme ≠ .sign c := by
  rintro rfl
  rcases other with rfl | rfl | rfl | rfl <;> exact absurd leading (by simp [Leading])

theorem readItem_expecting (reading : Reading) (expected : Expected) (placed : Placed) :
    readItem registry nodeType { reading with expected := expected } placed =
      readItem registry nodeType reading placed := by
  unfold readItem
  split <;> rfl

theorem Leading.admits {placed : Placed} (leading : Leading placed.lexeme) {expected : Expected}
    (settled : expected.Settled) : expected.Admits placed := by
  cases expected with
  | item => trivial
  | quantifier => simp [Expected.Admits, leading.ne]
  | laziness stop =>
      rintro rfl
      exact leading.ne (.inl rfl) rfl
  | _ => cases settled

theorem readLexeme_ready {reading : Reading} {placed : Placed} (stands : reading.Stands)
    (leading : Leading placed.lexeme) :
    readLexeme registry nodeType reading placed =
      readItem registry nodeType reading.ready placed := by
  obtain ⟨current, outer, expected⟩ := reading
  have settled (settled : expected.Settled) :
      readLexeme registry nodeType ⟨current, outer, expected⟩ placed =
        readItem registry nodeType ⟨current, outer, .item⟩ placed := by
    rw [readLexeme_of_admits registry nodeType (leading.admits settled)]
    exact (readItem_expecting ⟨current, outer, expected⟩ .item placed).symm
  cases expected with
  | item => exact settled trivial
  | quantifier => exact settled trivial
  | laziness stop => exact settled trivial
  | opened offset =>
      apply readLexeme_captured registry nodeType rfl
      rintro rfl
      exact leading.ne (.inl rfl) rfl
  | _ => cases stands

/-! ## Texts and signs -/

theorem joins_of_left {x : Char} (apart : !isNameLetter x && !isAsciiDigit x) (y : Char) :
    joins x y = false := by
  simp only [Bool.and_eq_true, Bool.not_eq_true'] at apart
  simp [joins, apart]

theorem joins_of_right {y : Char} (apart : !isNameLetter y && !isAsciiDigit y) (x : Char) :
    joins x y = false := by
  simp only [Bool.and_eq_true, Bool.not_eq_true'] at apart
  simp [joins, apart]

theorem joins_of_letter {x y : Char} (letter : isNameLetter x) (apart : ¬isNameLetter y) :
    joins x y = false := by
  have digit : ¬isAsciiDigit x := fun digit => not_isNameLetter_of_isAsciiDigit digit letter
  rw [Bool.not_eq_true] at apart digit
  simp [joins, apart, digit]

theorem joins_eq_false {x y : Char} (letters : ¬(isNameLetter x ∧ isNameLetter y))
    (digit : ¬isAsciiDigit y) : joins x y = false := by
  rw [Bool.not_eq_true] at digit
  rw [joins, digit, Bool.and_false, Bool.or_false, ← Bool.not_eq_true, Bool.and_eq_true]
  exact letters

theorem Blank.apart {blanks : List Char} (blank : Blank blanks) {c : Char} (member : c ∈ blanks) :
    !isNameLetter c && !isAsciiDigit c := by
  have separator := blank c member
  by_contra belongs
  simp only [Bool.and_eq_true, Bool.not_eq_true', not_and_or, Bool.not_eq_false] at belongs
  rcases belongs with letter | digit
  · exact not_isSeparator_of_isNameLetter letter separator
  · exact not_isSeparator_of_isAsciiDigit digit separator

section

variable {offset : Nat} {text blanks : List Char} {reading middle next : Reading}

theorem Reads.after_blank (blank : Blank blanks)
    (rest : Reads registry nodeType (offset + blanks.length) text reading next) :
    Reads registry nodeType offset (blanks ++ text) reading next := by
  apply Reads.append (.blank blank) rest
  intro x last y _
  exact joins_of_left (blank.apart (List.mem_of_getLast? last)) y

theorem Reads.before_blank (blank : Blank blanks)
    (first : Reads registry nodeType offset text reading next) :
    Reads registry nodeType offset (text ++ blanks) reading next := by
  apply Reads.append first (.blank blank)
  intro x _ y head
  exact joins_of_right (blank.apart (List.mem_of_head? head)) x

theorem Reads.before_sign {c : Char} {chars : List Char}
    (first : Reads registry nodeType offset text reading middle)
    (rest : Reads registry nodeType (offset + text.length) (c :: chars) middle next)
    (apart : !isNameLetter c && !isAsciiDigit c) :
    Reads registry nodeType offset (text ++ c :: chars) reading next := by
  apply Reads.append first rest
  rintro x _ y ⟨⟩
  exact joins_of_right apart x

/-- A text ends with one more sign. -/
theorem Reads.closed {c : Char} (first : Reads registry nodeType offset text reading middle)
    (step : readLexeme registry nodeType middle ⟨offset + text.length, .sign c⟩ = .ok next)
    (sign : !isSeparator c && !isNameLetter c && !isAsciiDigit c) :
    Reads registry nodeType offset (text ++ [c]) reading next := by
  have rest : Reads registry nodeType (offset + text.length) [c] middle next :=
    .sign step (.blank blank_nil) sign
  apply first.before_sign rest
  simp only [Bool.and_eq_true] at sign
  simp [sign]

/-! ## Quantifiers -/

theorem Reads.count {before digits after : List Char} {count : Nat} (blank : Blank before)
    (counts : PrintsCount count digits) (blank_ : Blank after)
    (step : ∀ offset, readLexeme registry nodeType reading ⟨offset, .number digits⟩ = .ok next) :
    Reads registry nodeType offset (before ++ digits ++ after) reading next := by
  have number : Reads registry nodeType (offset + before.length) digits reading next :=
    .number counts.present counts.decimal (step _)
  exact (number.after_blank blank).before_blank blank_

theorem countOf?_eq {digits : List Char} {count : Nat} (counts : PrintsCount count digits)
    (small : count < Nat.pow 2 64) : countOf? digits = some count := by
  unfold countOf?
  rw [counts.value]
  exact if_pos small

theorem Reads.braces {least : Nat} {most : Option Nat} (expected : reading.expected = .quantifier)
    (inner : Reads registry nodeType (offset + 1) text { reading with expected := .least } middle)
    (step : ∀ offset, readLexeme registry nodeType middle ⟨offset, .sign '}'⟩ =
      .ok (reading.quantify least most (offset + 1))) :
    Reads registry nodeType offset ('{' :: (text ++ ['}'])) reading
      (reading.quantify least most (offset + ('{' :: (text ++ ['}'])).length)) := by
  have stop : offset + ('{' :: (text ++ ['}'])).length = offset + 1 + text.length + 1 := by
    simp only [List.length_cons, List.length_append, List.length_nil]
    omega
  rw [stop]
  have opened : readLexeme registry nodeType reading ⟨offset, .sign '{'⟩ =
      .ok { reading with expected := .least } := by
    simp only [readLexeme, expected]
  exact .sign opened (inner.closed (step _) (by decide)) (by decide)

/-- A quantifier is read as its bounds, with the offset right after it. -/
theorem PrintsBounds.reads {least : Nat} {most : Option Nat} {bounds : List Char}
    (printed : PrintsBounds least most bounds) (inBounds : InBounds least most)
    (expected : reading.expected = .quantifier) :
    Reads registry nodeType offset bounds reading
      (reading.quantify least most (offset + bounds.length)) := by
  have first {digits : List Char} (counts : PrintsCount least digits) (offset : Nat) :
      readLexeme registry nodeType { reading with expected := .least } ⟨offset, .number digits⟩ =
        .ok { reading with expected := .comma least } := by
    simp only [readLexeme, countOf?_eq counts inBounds.least_lt]
  have short {c : Char} {least : Nat} {most : Option Nat}
      (step : readLexeme registry nodeType reading ⟨offset, .sign c⟩ =
        .ok (reading.quantify least most (offset + 1)))
      (sign : !isSeparator c && !isNameLetter c && !isAsciiDigit c) :
      Reads registry nodeType offset [c] reading
        (reading.quantify least most (offset + [c].length)) :=
    .sign step (.blank blank_nil) sign
  cases printed with
  | star => exact short (by simp only [readLexeme, expected]) (by decide)
  | plus => exact short (by simp only [readLexeme, expected]) (by decide)
  | optional => exact short (by simp only [readLexeme, expected]) (by decide)
  | exactly before counts after =>
      exact .braces expected (.count before counts after (first counts)) fun _ => rfl
  | atLeast before counts after last =>
      have comma (offset : Nat) : Reads registry nodeType offset (',' :: _)
          { reading with expected := .comma least } { reading with expected := .most least } :=
        .sign rfl (.blank last) (by decide)
      apply Reads.braces expected
        (.before_sign (.count before counts after (first counts)) (comma _) rfl)
      intro offset
      rfl
  | @between _ limit _ _ _ _ more _ before counts after middle counts_ last =>
      have greatest : countOf? more = some limit :=
        countOf?_eq counts_ (inBounds.most_lt limit rfl)
      have ordered : ¬limit < least := Nat.not_lt.mpr (inBounds.ordered limit rfl)
      have second (offset : Nat) : readLexeme registry nodeType
          { reading with expected := .most least } ⟨offset, .number more⟩ =
            .ok { reading with expected := .brace least (some limit) } := by
        simp only [readLexeme, greatest]
      have comma (offset : Nat) : Reads registry nodeType offset (',' :: _)
          { reading with expected := .comma least }
          { reading with expected := .brace least (some limit) } :=
        .sign rfl (.count middle counts_ last second) (by decide)
      apply Reads.braces expected
        (.before_sign (.count before counts after (first counts)) (comma _) rfl)
      intro offset
      simp only [readLexeme, Option.any_some, decide_eq_true_eq, if_neg ordered]
      rfl

/-! ## Items -/

theorem Reads.item {pattern : SymbolPattern}
    (atom : Reads registry nodeType offset text reading (reading.ready.push pattern)) :
    ∃ next, Reads registry nodeType offset text reading next ∧
      reading.Reaches (reading.ready.current.push pattern) next :=
  ⟨_, atom, trivial, rfl⟩

theorem PrintsBounds.apart {least : Nat} {most : Option Nat} {bounds : List Char}
    (printed : PrintsBounds least most bounds) {more : List Char} {c : Char}
    (head : c ∈ (bounds ++ more).head?) : !isNameLetter c && !isAsciiDigit c := by
  cases printed <;> cases head <;> decide

theorem Reads.quantified {body : SymbolPattern} {least : Nat} {most : Option Nat} (greedy : Bool)
    {bounds : List Char}
    (atom : Reads registry nodeType offset text reading (reading.ready.push body))
    (blank : Blank blanks) (printed : PrintsBounds least most bounds)
    (inBounds : InBounds least most) :
    ∃ next, Reads registry nodeType offset (text ++ blanks ++ (bounds ++ lazyMark greedy))
        reading next ∧
      reading.Reaches (reading.ready.current.push (.loop body least most greedy)) next := by
  have bounded (offset : Nat) : Reads registry nodeType offset bounds (reading.ready.push body)
      ((reading.ready.push body).quantify least most (offset + bounds.length)) :=
    printed.reads inBounds rfl
  have marked (offset : Nat) :
      ∃ next, Reads registry nodeType offset (bounds ++ lazyMark greedy)
          (reading.ready.push body) next ∧
        reading.Reaches (reading.ready.current.push (.loop body least most greedy)) next := by
    cases greedy with
    | true =>
        refine ⟨_, (bounded offset).before_blank blank_nil, ?_⟩
        exact ⟨trivial, rfl⟩
    | false =>
        refine ⟨_, (bounded offset).closed (if_pos rfl) (by decide), ?_⟩
        exact ⟨trivial, rfl⟩
  obtain ⟨next, marks, reaches⟩ := marked (offset + (text ++ blanks).length)
  refine ⟨next, .append (atom.before_blank blank) marks ?_, reaches⟩
  exact fun x _ y head => joins_of_right (printed.apart head) x

end

/-! ## Groups -/

theorem readLexeme_close {reading next : Reading} {frame around : Frame} {outer : List Frame}
    (reaches : reading.Reaches frame next) (inside : reading.ready.outer = around :: outer)
    (offset : Nat) :
    readLexeme registry nodeType next ⟨offset, .sign ')'⟩ =
      .ok (Reading.push ⟨around, outer, .item⟩ frame.pattern) := by
  rw [readLexeme_ready reaches.stands (by simp [Leading]), reaches.ready_eq, inside]
  rfl

theorem readLexeme_open {reading : Reading} (stands : reading.Stands) (offset : Nat) :
    readLexeme registry nodeType reading ⟨offset, .sign '('⟩ =
      .ok { reading.ready with expected := .opened offset } := by
  rw [readLexeme_ready stands (by simp [Leading])]
  rfl

/-! ## Phrases -/

/-- The patterns of a phrase are well formed. -/
def Phrase.WellFormed (registry : Registry) : Phrase → Prop
  | .atom single | .item single | .pattern single => SymbolPattern.WellFormed registry single
  | .items parts | .branches parts => ∀ part ∈ parts, SymbolPattern.WellFormed registry part

/-- The branches of a group, the one being read among them. -/
def Frame.allBranches (frame : Frame) : List SymbolPattern :=
  frame.branches.reverse ++ [frame.branch]

/-- What a reading has become by a phrase. -/
def Phrase.Result (reading next : Reading) : Phrase → Prop
  | .atom single => next = reading.ready.push single
  | .item single => reading.Reaches (reading.ready.current.push single) next
  | .items parts => reading.Reaches (parts.foldl Frame.push reading.ready.current) next
  | .branches parts =>
      reading.ready.current.items = [] →
      ∃ frame, reading.Reaches frame next ∧ frame.kind = reading.ready.current.kind ∧
        frame.allBranches = reading.ready.current.branches.reverse ++ parts
  | .pattern whole =>
      ∀ kind, reading.ready.current = .fresh kind →
        ∃ frame, reading.Reaches frame next ∧ frame.kind = kind ∧ frame.body = whole

/-- From the reading that a group starts with, its text and a parenthesis lead to the item that the
group stands for. -/
theorem reads_group {body : SymbolPattern} {text : List Char} {kind : GroupKind}
    {opened reading : Reading} {offset : Nat}
    (ready : opened.ready = reading.opening kind)
    (inner : ∃ next, Reads registry nodeType offset text opened next ∧
      (Phrase.pattern body).Result opened next) :
    ∃ frame : Frame, frame.kind = kind ∧ frame.body = body ∧
      Reads registry nodeType offset (text ++ [')']) opened (reading.push frame.pattern) := by
  obtain ⟨next, reads, result⟩ := inner
  obtain ⟨frame, reaches, same, whole⟩ := result kind (by rw [ready]; rfl)
  refine ⟨frame, same, whole, reads.closed ?_ (by decide)⟩
  exact readLexeme_close reaches (by rw [ready]; rfl) _

theorem reads_lookMark (direction : Direction) (negated : Bool) {offset : Nat} {text : List Char}
    {reading next : Reading}
    (rest : Reads registry nodeType (offset + 1 + (lookMark direction negated).length) text
      (reading.opening (.look direction negated)) next) :
    Reads registry nodeType (offset + 1) (lookMark direction negated ++ text)
      { reading with expected := .special offset } next := by
  have ahead : readLexeme registry nodeType { reading with expected := .special offset }
      ⟨offset + 1, .sign '<'⟩ = .ok { reading with expected := .behind (offset + 1) } := by
    simp [readLexeme]
  cases direction with
  | ahead =>
      cases negated with
      | false => exact .sign (by simp [readLexeme]; rfl) rest (by decide)
      | true => exact .sign (by simp [readLexeme]; rfl) rest (by decide)
  | behind =>
      cases negated with
      | false =>
          exact .sign ahead (.sign (by simp [readLexeme]; rfl) rest (by decide)) (by decide)
      | true =>
          exact .sign ahead (.sign (by simp [readLexeme]; rfl) rest (by decide)) (by decide)

theorem readLexeme_bar {reading next : Reading} {frame : Frame}
    (reaches : reading.Reaches frame next) (offset : Nat) :
    readLexeme registry nodeType next ⟨offset, .sign '|'⟩ =
      .ok ⟨frame.divide, reading.ready.outer, .item⟩ := by
  rw [readLexeme_ready reaches.stands (by simp [Leading]), reaches.ready_eq]
  rfl

theorem Prints.branches_ne_nil {branches : List SymbolPattern} {text : List Char}
    (printed : Prints registry (.branches branches) text) : branches ≠ [] := by
  cases printed <;> simp

theorem foldl_push (frame : Frame) (items : List SymbolPattern) :
    items.foldl Frame.push frame = { frame with items := items.reverse ++ frame.items } := by
  induction items generalizing frame with
  | nil => rfl
  | cons item items induction =>
      rw [List.foldl_cons, induction]
      simp [Frame.push]

theorem kind_divide (frame : Frame) (items : List SymbolPattern) :
    (items.foldl Frame.push frame).divide.kind = frame.kind := by
  rw [foldl_push]
  rfl

theorem branches_divide {frame : Frame} (none : frame.items = []) (items : List SymbolPattern) :
    (items.foldl Frame.push frame).divide.branches = ofItems items :: frame.branches := by
  simp [foldl_push, Frame.divide, Frame.branch, none]

theorem head_append {first second : List Char} {c : Char} (head : c ∈ (first ++ second).head?) :
    c ∈ first.head? ∨ c ∈ second.head? := by
  cases first with
  | nil => exact .inr head
  | cons d first => exact .inl head

/-! ## Names -/

section

variable (named : registry.Named)

include named

theorem isNameLetter_of_resolved {name : String} {ids : List NodeTypeId}
    (resolved : registry.resolve? name = some ids) :
    name.toList ≠ [] ∧ ∀ c ∈ name.toList, isNameLetter c := by
  have valid := named.isValidName resolved
  rw [Registry.isValidName, Bool.and_eq_true, decide_eq_true_eq, List.all_eq_true] at valid
  exact ⟨List.ne_nil_of_length_pos (Nat.lt_of_lt_of_le (by decide) valid.1), valid.2⟩

theorem Reads.resolved {name : String} {ids : List NodeTypeId} {offset : Nat}
    {reading next : Reading} (resolved : registry.resolve? name = some ids)
    (step : readLexeme registry nodeType reading ⟨offset, .name name.toList⟩ = .ok next) :
    Reads registry nodeType offset name.toList reading next := by
  obtain ⟨present, letters⟩ := isNameLetter_of_resolved named resolved
  exact .name present letters step

theorem readsNames {names : List String} {text : List Char} (printed : PrintsNames names text)
    (known : ∀ name ∈ names, (registry.resolve? name).isSome) (offset : Nat) (reading : Reading)
    (members : List NodeTypeId) :
    ∃ members_, Reads registry nodeType offset text { reading with expected := .member members }
        { reading with expected := .member members_ } ∧
      ∀ id, id ∈ members_ ↔
        id ∈ members ∨ ∃ name ∈ names, ∃ ids ∈ registry.resolve? name, id ∈ ids := by
  induction printed generalizing offset members with
  | nothing blank => exact ⟨members, .blank blank, by simp⟩
  | @name name names blanks text blank printed apart induction =>
      obtain ⟨ids, resolved⟩ := Option.isSome_iff_exists.mp (known name List.mem_cons_self)
      have step (offset : Nat) : readLexeme registry nodeType
          { reading with expected := .member members } ⟨offset, .name name.toList⟩ =
            .ok { reading with expected := .member (members ++ ids) } := by
        simp only [readLexeme, resolve, String.ofList_toList, resolved]
        rfl
      obtain ⟨members_, rest, union⟩ :=
        induction (fun other inside => known other (List.mem_cons_of_mem _ inside))
          (offset + blanks.length + name.toList.length) (members ++ ids)
      have letters := (isNameLetter_of_resolved named resolved).2
      have first (offset : Nat) := Reads.resolved named resolved (step offset)
      refine ⟨members_, .after_blank blank (.append (first _) rest ?_), ?_⟩
      · intro x last y head
        exact joins_of_letter (letters x (List.mem_of_getLast? last)) (apart y head)
      · intro id
        simp [union, resolved, or_assoc]

theorem reads_name {name : String} {members : List NodeTypeId} {offset : Nat} {reading : Reading}
    (stands : reading.Stands) (ordered : members.Pairwise (· < ·))
    (denotes : registry.Denotes [name] members) :
    Reads registry nodeType offset name.toList reading
      (reading.ready.push (.symbols members)) := by
  obtain ⟨ids, resolved, same⟩ := denotes.resolved
  apply Reads.resolved named resolved
  have leading : Leading (.name name.toList) := trivial
  rw [readLexeme_ready stands leading, ← sortMembers_eq ordered same]
  simp only [readItem, resolve, String.ofList_toList, resolved]
  rfl

theorem reads_set {names : List String} {members : List NodeTypeId} {text : List Char}
    {offset : Nat} {reading : Reading} (stands : reading.Stands) (present : members ≠ [])
    (ordered : members.Pairwise (· < ·)) (denotes : registry.Denotes names members)
    (printed : PrintsNames names text) :
    Reads registry nodeType offset ('[' :: (text ++ [']'])) reading
      (reading.ready.push (.symbols members)) := by
  obtain ⟨ids, inner, union⟩ :=
    @readsNames registry nodeType named _ _ printed denotes.known (offset + 1) reading.ready []
  have same : ∀ id, id ∈ ids ↔ id ∈ members := by
    intro id
    rw [union, denotes.mem_iff]
    simp
  have filled : ids.isEmpty = false := by
    obtain ⟨id, member⟩ := List.exists_mem_of_ne_nil members present
    exact List.isEmpty_eq_false_iff_exists_mem.mpr ⟨id, (same id).mpr member⟩
  have opened : readLexeme registry nodeType reading ⟨offset, .sign '['⟩ =
      .ok { reading.ready with expected := .member [] } := by
    rw [readLexeme_ready stands (by simp [Leading])]
    rfl
  apply Reads.sign opened (inner.closed _ (by decide)) (by decide)
  rw [← sortMembers_eq ordered same]
  simp only [readLexeme, filled]
  rfl

/-- No phrase starts with a digit, so a number before it ends there. -/
theorem Prints.head {phrase : Phrase} {text : List Char} (printed : Prints registry phrase text)
    {c : Char} (head : c ∈ text.head?) : ¬isAsciiDigit c := by
  intro digit
  induction printed with
  | any => cases head; cases digit
  | name denotes =>
      obtain ⟨ids, resolved, _⟩ := denotes.resolved
      have letter := (isNameLetter_of_resolved named resolved).2 c (List.mem_of_head? head)
      exact not_isNameLetter_of_isAsciiDigit digit letter
  | set _ _ => cases head; cases digit
  | capture _ _ => cases head; cases digit
  | group _ _ => cases head; cases digit
  | look _ _ => cases head; cases digit
  | once _ induction => exact induction head
  | loop _ _ blank bounds induction =>
      rcases head_append head with before | bound
      · rcases head_append before with first | between
        · exact induction first
        · have := blank.apart (List.mem_of_head? between)
          simp [digit] at this
      · have := bounds.apart bound
        simp [digit] at this
  | nothing blank =>
      have := blank.apart (List.mem_of_head? head)
      simp [digit] at this
  | before blank _ _ _ first second =>
      rcases head_append head with between | later
      · have := blank.apart (List.mem_of_head? between)
        simp [digit] at this
      · exact (head_append later).elim first second
  | last _ induction => exact induction head
  | bar _ _ first _ =>
      rcases head_append head with item | bar
      · exact first item
      · cases bar; cases digit
  | whole _ induction => exact induction head

theorem Prints.reads {phrase : Phrase} {text : List Char} (printed : Prints registry phrase text)
    (wellFormed : phrase.WellFormed registry) (offset : Nat) (reading : Reading)
    (stands : reading.Stands) :
    ∃ next, Reads registry nodeType offset text reading next ∧ phrase.Result reading next := by
  induction printed generalizing offset reading with
  | any =>
      refine ⟨reading.ready.push .any, .sign ?_ (.blank blank_nil) (by decide), rfl⟩
      rw [readLexeme_ready stands (by simp [Leading])]
      rfl
  | name denotes =>
      cases wellFormed with
      | symbols present ordered _ => exact ⟨_, reads_name named stands ordered denotes, rfl⟩
  | set denotes printed =>
      cases wellFormed with
      | symbols present ordered _ =>
          exact ⟨_, reads_set named stands present ordered denotes printed, rfl⟩
  | capture _ induction =>
      cases wellFormed with
      | capture wellFormed =>
          obtain ⟨frame, kind, whole, group⟩ := reads_group rfl
            (induction wellFormed (offset + 1) { reading.ready with expected := .opened offset }
              trivial)
          refine ⟨_, .sign (readLexeme_open stands _) group (by decide), ?_⟩
          simp only [Phrase.Result, Frame.pattern, kind, whole]
          rfl
  | group _ induction =>
      obtain ⟨frame, kind, whole, group⟩ := reads_group rfl
        (induction wellFormed (offset + 3) (reading.ready.opening .plain) trivial)
      refine ⟨_, .sign (readLexeme_open stands _)
        (.sign (if_pos rfl) (.sign (if_pos rfl) group (by decide)) (by decide)) (by decide), ?_⟩
      simp only [Phrase.Result, Frame.pattern, kind, whole]
  | @look direction negated body text _ induction =>
      cases wellFormed with
      | look wellFormed =>
          obtain ⟨frame, kind, whole, group⟩ := reads_group rfl
            (induction wellFormed (offset + 2 + (lookMark direction negated).length)
              (reading.ready.opening (.look direction negated)) trivial)
          refine ⟨_, .sign (readLexeme_open stands _)
            (.sign (if_pos rfl) (reads_lookMark direction negated group) (by decide))
            (by decide), ?_⟩
          simp only [Phrase.Result, Frame.pattern, kind, whole]
  | once _ induction =>
      obtain ⟨next, atom, result⟩ := induction wellFormed offset reading stands
      cases result
      exact atom.item
  | loop greedy _ blank bounds induction =>
      cases wellFormed with
      | loop inBounds wellFormed =>
          obtain ⟨next, atom, result⟩ := induction wellFormed offset reading stands
          cases result
          exact atom.quantified greedy blank bounds inBounds
  | nothing blank => exact ⟨reading, .blank blank, stands.reaches⟩
  | @before item items blanks text rest blank _ others apart first second =>
      obtain ⟨middle, item, reaches⟩ :=
        first (wellFormed _ List.mem_cons_self) (offset + blanks.length) reading stands
      obtain ⟨next, items, further⟩ :=
        second (fun other member => wellFormed other (List.mem_cons_of_mem _ member))
          (offset + blanks.length + text.length) middle reaches.stands
      refine ⟨next, .after_blank blank (.append item items ?_), ?_⟩
      · exact fun x last y head =>
          joins_eq_false (apart x last y head) (others.head named head)
      · rw [Phrase.Result, reaches.current_eq] at further
        exact reaches.trans further
  | @last items _ _ induction =>
      obtain ⟨next, reads, reaches⟩ := induction
        (wellFormed_ofItems.mp (wellFormed _ List.mem_cons_self)) offset reading stands
      refine ⟨next, reads, fun none => ⟨_, reaches, ?_⟩⟩
      simp [foldl_push, Frame.allBranches, Frame.branch, none]
  | @bar items branches text rest _ _ first second =>
      obtain ⟨middle, items, reaches⟩ := first
        (wellFormed_ofItems.mp (wellFormed _ List.mem_cons_self)) offset reading stands
      obtain ⟨next, branches, further⟩ :=
        second (fun other member => wellFormed other (List.mem_cons_of_mem _ member))
          (offset + text.length + 1) ⟨_, reading.ready.outer, .item⟩ trivial
      refine ⟨next, items.before_sign (.sign (readLexeme_bar reaches _) branches (by decide))
        (by decide), fun none => ?_⟩
      obtain ⟨frame, final, kind, all⟩ := further rfl
      refine ⟨frame, ⟨final.stands, final.ready_eq⟩, kind.trans ?_, all.trans ?_⟩
      · exact kind_divide _ _
      · change (Frame.divide (List.foldl _ _ _)).branches.reverse ++ _ = _
        rw [branches_divide none, List.reverse_cons, List.append_assoc]
        rfl
  | @whole branches text printed induction =>
      obtain ⟨next, reads, result⟩ := induction
        ((wellFormed_ofBranches printed.branches_ne_nil).mp wellFormed) offset reading stands
      refine ⟨next, reads, fun kind fresh => ?_⟩
      rw [Phrase.Result, fresh] at result
      obtain ⟨frame, reaches, same, all⟩ := result rfl
      exact ⟨frame, reaches, same, congrArg ofBranches all⟩

end

/-! ## Whole patterns -/

theorem finish_of_stands {reading : Reading} {frame : Frame} (stands : reading.Stands)
    (ready : reading.ready = ⟨frame, [], .item⟩) (stop : Nat) :
    finish nodeType reading stop = .ok frame.body := by
  apply finish_eq_ok_iff.mpr
  obtain ⟨current, outer, expected⟩ := reading
  cases expected with
  | item => cases ready; exact ⟨trivial, rfl, rfl⟩
  | quantifier => cases ready; exact ⟨trivial, rfl, rfl⟩
  | laziness stop => cases ready; exact ⟨trivial, rfl, rfl⟩
  | opened offset => cases ready
  | _ => cases stands

/-- A printing of a well-formed pattern is read as that pattern. -/
theorem read_of_prints (named : registry.Named) {pattern : SymbolPattern} {text : String}
    (printed : Prints registry (.pattern pattern) text.toList)
    (wellFormed : WellFormed registry pattern) :
    read registry nodeType text = .ok pattern := by
  obtain ⟨next, reads, result⟩ := printed.reads named wellFormed 0 .start trivial
  obtain ⟨frame, reaches, _, rfl⟩ := result .plain rfl
  rw [read, reads]
  exact finish_of_stands reaches.stands reaches.ready_eq _

end RowGrammar.SymbolPattern
