import RowGrammar.Proofs.Digits
import RowGrammar.Proofs.SymbolPattern.Lexing

/-!
# Printings of symbol patterns

A symbol pattern can be written down in many ways: node types by any names that stand for them,
with or without brackets, numbers with leading zeros, blanks between all parts, and any part in a
plain group.  Every well-formed pattern has a printing.
-/

namespace RowGrammar

open RowGrammar.Text

/-- Some names of the registry together stand for exactly these node types. -/
structure Registry.Denotes (registry : Registry) (names : List String)
    (members : List NodeTypeId) : Prop where
  known : ∀ name ∈ names, (registry.resolve? name).isSome
  mem_iff : ∀ id, id ∈ members ↔ ∃ name ∈ names, ∃ ids ∈ registry.resolve? name, id ∈ ids

theorem Registry.denotes_nil (registry : Registry) : registry.Denotes [] [] :=
  ⟨nofun, by simp⟩

theorem Registry.Denotes.append {registry : Registry} {names : List String}
    {members ids : List NodeTypeId} {name : String} (denotes : registry.Denotes names members)
    (resolved : registry.resolve? name = some ids) :
    registry.Denotes (name :: names) (members ++ ids) := by
  constructor
  · intro other member
    rcases List.mem_cons.mp member with rfl | earlier
    · rw [resolved]
      rfl
    · exact denotes.known other earlier
  · intro id
    rw [List.mem_append, denotes.mem_iff]
    simp [resolved, or_comm]

theorem Registry.Denotes.resolved {registry : Registry} {name : String} {members : List NodeTypeId}
    (denotes : registry.Denotes [name] members) :
    ∃ ids, registry.resolve? name = some ids ∧ ∀ id, id ∈ ids ↔ id ∈ members := by
  obtain ⟨ids, resolved⟩ :=
    Option.isSome_iff_exists.mp (denotes.known name List.mem_cons_self)
  refine ⟨ids, resolved, fun id => ?_⟩
  rw [denotes.mem_iff]
  simp [resolved]

namespace SymbolPattern

/-! ## Well-formed patterns -/

/-- The bounds of a repetition are in order and have at most 64 binary digits. -/
structure InBounds (least : Nat) (most : Option Nat) : Prop where
  least_lt : least < Nat.pow 2 64
  most_lt : ∀ limit ∈ most, limit < Nat.pow 2 64
  ordered : ∀ limit ∈ most, least ≤ limit

/-- The patterns that a notation can describe. -/
inductive WellFormed (registry : Registry) : SymbolPattern → Prop where
  | empty : WellFormed registry .empty
  | any : WellFormed registry .any
  | symbols {members : List NodeTypeId} {names : List String} :
      members ≠ [] → members.Pairwise (· < ·) → registry.Denotes names members →
      WellFormed registry (.symbols members)
  | concat {items : List SymbolPattern} :
      2 ≤ items.length → (∀ item ∈ items, WellFormed registry item) →
      WellFormed registry (.concat items)
  | alternation {branches : List SymbolPattern} :
      2 ≤ branches.length → (∀ branch ∈ branches, WellFormed registry branch) →
      WellFormed registry (.alternation branches)
  | loop {body : SymbolPattern} {least : Nat} {most : Option Nat} {greedy : Bool} :
      InBounds least most → WellFormed registry body →
      WellFormed registry (.loop body least most greedy)
  | capture {body : SymbolPattern} :
      WellFormed registry body → WellFormed registry (.capture body)
  | look {direction : Direction} {negated : Bool} {body : SymbolPattern} :
      WellFormed registry body → WellFormed registry (.look direction negated body)

theorem ofItems_eq {items : List SymbolPattern} (several : 2 ≤ items.length) :
    ofItems items = .concat items := by
  match items, several with
  | _ :: _ :: _, _ => rfl

theorem ofBranches_eq {branches : List SymbolPattern} (several : 2 ≤ branches.length) :
    ofBranches branches = .alternation branches := by
  match branches, several with
  | _ :: _ :: _, _ => rfl

theorem wellFormed_ofItems {registry : Registry} {items : List SymbolPattern} :
    WellFormed registry (ofItems items) ↔ ∀ item ∈ items, WellFormed registry item := by
  match items with
  | [] => exact ⟨fun _ => nofun, fun _ => .empty⟩
  | [item] => simp [ofItems]
  | first :: second :: items =>
      constructor
      · intro wellFormed
        cases wellFormed with
        | concat _ all => exact all
      · exact .concat (by simp)

theorem wellFormed_ofBranches {registry : Registry} {branches : List SymbolPattern}
    (present : branches ≠ []) :
    WellFormed registry (ofBranches branches) ↔
      ∀ branch ∈ branches, WellFormed registry branch := by
  match branches, present with
  | [branch], _ => simp [ofBranches]
  | first :: second :: branches, _ =>
      constructor
      · intro wellFormed
        cases wellFormed with
        | alternation _ all => exact all
      · exact .alternation (by simp)

/-! ## Printings -/

/-- Names inside brackets, with a blank between any two of them. -/
inductive PrintsNames : List String → List Char → Prop where
  | nothing {blanks : List Char} : Blank blanks → PrintsNames [] blanks
  | name {name : String} {names : List String} {blanks text : List Char} :
      Blank blanks → PrintsNames names text → (∀ c ∈ text.head?, ¬isNameLetter c) →
      PrintsNames (name :: names) (blanks ++ (name.toList ++ text))

/-- Decimal digits of a number. -/
structure PrintsCount (count : Nat) (digits : List Char) : Prop where
  present : digits ≠ []
  decimal : ∀ c ∈ digits, isAsciiDigit c
  value : decimalValue digits = count

/-- The quantifiers, without the mark of a lazy one. -/
inductive PrintsBounds : Nat → Option Nat → List Char → Prop where
  | star : PrintsBounds 0 none ['*']
  | plus : PrintsBounds 1 none ['+']
  | optional : PrintsBounds 0 (some 1) ['?']
  | exactly {count : Nat} {before digits after : List Char} :
      Blank before → PrintsCount count digits → Blank after →
      PrintsBounds count (some count) ('{' :: (before ++ digits ++ after ++ ['}']))
  | atLeast {least : Nat} {before digits after last : List Char} :
      Blank before → PrintsCount least digits → Blank after → Blank last →
      PrintsBounds least none ('{' :: (before ++ digits ++ after ++ ',' :: last ++ ['}']))
  | between {least limit : Nat} {before digits after middle more last : List Char} :
      Blank before → PrintsCount least digits → Blank after →
      Blank middle → PrintsCount limit more → Blank last →
      PrintsBounds least (some limit)
        ('{' :: (before ++ digits ++ after ++ ',' :: (middle ++ more ++ last) ++ ['}']))

/-- What makes a quantifier lazy. -/
def lazyMark (greedy : Bool) : List Char :=
  if greedy then [] else ['?']

/-- What tells a lookaround from other groups, after the parenthesis and the question mark. -/
def lookMark : Direction → Bool → List Char
  | .ahead, false => ['=']
  | .ahead, true => ['!']
  | .behind, false => ['<', '=']
  | .behind, true => ['<', '!']

/-- What a part of a notation stands for. -/
inductive Phrase where
  /-- An item without a quantifier. -/
  | atom (pattern : SymbolPattern)
  | item (pattern : SymbolPattern)
  /-- The items of one branch. -/
  | items (patterns : List SymbolPattern)
  | branches (patterns : List SymbolPattern)
  | pattern (pattern : SymbolPattern)

/-- The ways to write down a phrase. -/
inductive Prints (registry : Registry) : Phrase → List Char → Prop where
  | any : Prints registry (.atom .any) ['.']
  | name {members : List NodeTypeId} {name : String} :
      registry.Denotes [name] members → Prints registry (.atom (.symbols members)) name.toList
  | set {members : List NodeTypeId} {names : List String} {text : List Char} :
      registry.Denotes names members → PrintsNames names text →
      Prints registry (.atom (.symbols members)) ('[' :: (text ++ [']']))
  | capture {body : SymbolPattern} {text : List Char} :
      Prints registry (.pattern body) text →
      Prints registry (.atom (.capture body)) ('(' :: (text ++ [')']))
  | group {body : SymbolPattern} {text : List Char} :
      Prints registry (.pattern body) text →
      Prints registry (.atom body) ('(' :: '?' :: ':' :: (text ++ [')']))
  | look {direction : Direction} {negated : Bool} {body : SymbolPattern} {text : List Char} :
      Prints registry (.pattern body) text →
      Prints registry (.atom (.look direction negated body))
        ('(' :: '?' :: (lookMark direction negated ++ (text ++ [')'])))
  | once {pattern : SymbolPattern} {text : List Char} :
      Prints registry (.atom pattern) text → Prints registry (.item pattern) text
  | loop {body : SymbolPattern} {least : Nat} {most : Option Nat} (greedy : Bool)
      {text blanks bounds : List Char} :
      Prints registry (.atom body) text → Blank blanks → PrintsBounds least most bounds →
      Prints registry (.item (.loop body least most greedy))
        (text ++ blanks ++ (bounds ++ lazyMark greedy))
  | nothing {blanks : List Char} : Blank blanks → Prints registry (.items []) blanks
  | before {item : SymbolPattern} {items : List SymbolPattern} {blanks text rest : List Char} :
      Blank blanks → Prints registry (.item item) text → Prints registry (.items items) rest →
      (∀ x ∈ text.getLast?, ∀ y ∈ rest.head?, ¬(isNameLetter x ∧ isNameLetter y)) →
      Prints registry (.items (item :: items)) (blanks ++ (text ++ rest))
  | last {items : List SymbolPattern} {text : List Char} :
      Prints registry (.items items) text → Prints registry (.branches [ofItems items]) text
  | bar {items branches : List SymbolPattern} {text rest : List Char} :
      Prints registry (.items items) text → Prints registry (.branches branches) rest →
      Prints registry (.branches (ofItems items :: branches)) (text ++ '|' :: rest)
  | whole {branches : List SymbolPattern} {text : List Char} :
      Prints registry (.branches branches) text →
      Prints registry (.pattern (ofBranches branches)) text

/-! ## Every well-formed pattern has a printing -/

theorem blank_nil : Blank [] :=
  nofun

theorem blank_space : Blank [' '] := by
  intro c member
  obtain rfl := List.mem_singleton.mp member
  decide

theorem exists_printsNames (names : List String) :
    ∃ text, PrintsNames names text ∧ ∀ c ∈ text.head?, ¬isNameLetter c := by
  induction names with
  | nil => exact ⟨[], .nothing blank_nil, nofun⟩
  | cons name names induction =>
      obtain ⟨text, printed, apart⟩ := induction
      refine ⟨_, .name blank_space printed apart, ?_⟩
      rintro c ⟨⟩
      decide

theorem printsCount_digitsIn (count : Nat) : PrintsCount count (digitsIn 10 count) where
  present := digitsIn_ne_nil count
  decimal _ member := isAsciiDigit_of_mem_digitsIn member
  value := decimalValue_digitsIn count

theorem exists_printsBounds (least : Nat) (most : Option Nat) :
    ∃ text, PrintsBounds least most text := by
  cases most with
  | none =>
      exact ⟨_, .atLeast blank_nil (printsCount_digitsIn least) blank_nil blank_nil⟩
  | some limit =>
      exact ⟨_, .between blank_nil (printsCount_digitsIn least) blank_nil blank_nil
        (printsCount_digitsIn limit) blank_nil⟩

section

variable {registry : Registry}

/-- Grouped and separated by blanks, items make up a branch. -/
theorem exists_prints_items {items : List SymbolPattern}
    (printed : ∀ item ∈ items, ∃ text, Prints registry (.pattern item) text) :
    ∃ text, Prints registry (.items items) text ∧ ∀ c ∈ text.head?, ¬isNameLetter c := by
  induction items with
  | nil => exact ⟨[], .nothing blank_nil, nofun⟩
  | cons item items induction =>
      obtain ⟨text, first⟩ := printed item List.mem_cons_self
      obtain ⟨rest, others, apart⟩ :=
        induction fun other member => printed other (List.mem_cons_of_mem _ member)
      refine ⟨_, .before blank_space (.once (.group first)) others ?_, ?_⟩
      · exact fun x _ y head both => apart y head both.2
      · rintro c ⟨⟩
        decide

/-- An item is the only one of the only branch. -/
theorem Prints.alone {item : SymbolPattern} {text : List Char}
    (printed : Prints registry (.item item) text) : Prints registry (.pattern item) text := by
  have branch : Prints registry (.items [item]) ([] ++ (text ++ [])) :=
    .before blank_nil printed (.nothing blank_nil) nofun
  rw [List.nil_append, List.append_nil] at branch
  exact .whole (.last branch)

theorem exists_prints_branches {branch : SymbolPattern} {branches : List SymbolPattern}
    (printed : ∀ other ∈ branch :: branches, ∃ text, Prints registry (.pattern other) text) :
    ∃ text, Prints registry (.branches (branch :: branches)) text := by
  have single : ∀ other ∈ branch :: branches, ∃ text, Prints registry (.items [other]) text := by
    intro other member
    obtain ⟨text, whole⟩ := printed other member
    exact ⟨_, .before blank_nil (.once (.group whole)) (.nothing blank_nil) nofun⟩
  clear printed
  induction branches generalizing branch with
  | nil =>
      obtain ⟨text, items⟩ := single branch List.mem_cons_self
      exact ⟨text, .last items⟩
  | cons next branches induction =>
      obtain ⟨text, items⟩ := single branch List.mem_cons_self
      obtain ⟨rest, others⟩ :=
        induction fun other member => single other (List.mem_cons_of_mem _ member)
      exact ⟨_, .bar items others⟩

theorem WellFormed.exists_prints {pattern : SymbolPattern}
    (wellFormed : WellFormed registry pattern) :
    ∃ text, Prints registry (.pattern pattern) text := by
  induction wellFormed with
  | empty => exact ⟨_, .whole (.last (.nothing blank_nil))⟩
  | any => exact ⟨_, .alone (.once .any)⟩
  | symbols _ _ denotes =>
      obtain ⟨text, printed, _⟩ := exists_printsNames _
      exact ⟨_, .alone (.once (.set denotes printed))⟩
  | concat several _ induction =>
      obtain ⟨text, printed, _⟩ := exists_prints_items induction
      rw [← ofItems_eq several]
      exact ⟨text, .whole (.last printed)⟩
  | @alternation branches several _ induction =>
      rw [← ofBranches_eq several]
      match branches, several with
      | branch :: branches, _ =>
          obtain ⟨text, printed⟩ := exists_prints_branches induction
          exact ⟨text, .whole printed⟩
  | @loop body least most greedy _ _ induction =>
      obtain ⟨text, printed⟩ := induction
      obtain ⟨bounds, quantified⟩ := exists_printsBounds least most
      exact ⟨_, .alone (.loop greedy (.group printed) blank_nil quantified)⟩
  | capture _ induction =>
      obtain ⟨text, printed⟩ := induction
      exact ⟨_, .alone (.once (.capture printed))⟩
  | look _ induction =>
      obtain ⟨text, printed⟩ := induction
      exact ⟨_, .alone (.once (.look printed))⟩

end

end SymbolPattern

end RowGrammar
