import RowGrammar.Proofs.Regex.Composite
import RowGrammar.Proofs.Regex.Matching
import RowGrammar.Proofs.Traversal
import RowGrammar.Token.Scan

/-!
# Tokenizers

The joined pattern of a tokenizer matches where one of its alternatives does, with the first one
that does, and only the group of this alternative takes part in the match.
-/

namespace RowGrammar

open RowGrammar.Text

namespace Alternative

/-- The pattern of an alternative within the pattern of the whole tokenizer. -/
def enclosed (alternative : Alternative) : Regex :=
  .group (some alternative.group) (alternative.regex.renumber (· + alternative.group))

theorem matchAt_enclosed (alternative : Alternative) (text : Array Char) (position : Nat) :
    (alternative.enclosed.matchAt text position).map Regex.Match.stop =
      (alternative.regex.matchAt text position).map Regex.Match.stop := by
  rw [enclosed, Regex.matchAt_group, Option.map_map,
    ← Regex.matchAt_renumber (· + alternative.group)]
  rfl

end Alternative

namespace Tokenizer

/-- Alternatives with consecutive groups from `first` on, the groups of their patterns included. -/
def Numbered : Nat → List Alternative → Prop
  | _, [] => True
  | first, alternative :: alternatives =>
      alternative.group = first ∧
        Numbered (first + alternative.regex.captureCount + 1) alternatives

theorem Numbered.le {first : Nat} {alternatives : List Alternative}
    (numbered : Numbered first alternatives) :
    ∀ alternative ∈ alternatives, first ≤ alternative.group := by
  induction alternatives generalizing first with
  | nil => simp
  | cons alternative alternatives induction =>
      obtain ⟨here, later⟩ := numbered
      intro other member
      rcases List.mem_cons.mp member with rfl | inside
      · exact here.ge
      · have := induction later other inside
        omega

theorem Numbered.pairwise {first : Nat} {alternatives : List Alternative}
    (numbered : Numbered first alternatives) :
    alternatives.Pairwise fun earlier later =>
      earlier.group + earlier.regex.captureCount < later.group := by
  induction alternatives generalizing first with
  | nil => exact .nil
  | cons alternative alternatives induction =>
      obtain ⟨here, later⟩ := numbered
      refine .cons ?_ (induction later)
      intro other member
      have := later.le other member
      omega

theorem Numbered.enclosed_eq {first : Nat} {alternatives : List Alternative}
    (numbered : Numbered first alternatives) :
    Regex.enclosed first (alternatives.map (·.regex)) = alternatives.map Alternative.enclosed := by
  induction alternatives generalizing first with
  | nil => rfl
  | cons alternative alternatives induction =>
      obtain ⟨rfl, later⟩ := numbered
      rw [List.map_cons, Regex.enclosed, induction later]
      rfl

theorem compileAlternatives_eq_ok {grammar : Grammar} {first : Nat}
    {types : List (NodeTypeId × String)} {alternatives : List Alternative}
    (compiled : compileAlternatives grammar first types = .ok alternatives) :
    Numbered first alternatives ∧
      List.Forall₂ (fun pair alternative => alternative.nodeType = pair.1 ∧
        Regex.parse? pair.2 = some alternative.regex ∧
        alternative.subparser = (grammar.tokenRule? pair.1).bind (·.subparser))
        types alternatives := by
  induction types generalizing first alternatives with
  | nil =>
      cases compiled
      exact ⟨trivial, .nil⟩
  | cons pair types induction =>
      obtain ⟨id, pattern⟩ := pair
      unfold compileAlternatives at compiled
      split at compiled
      · cases compiled
      · rename_i regex parsed
        obtain ⟨others, rest, made⟩ := bind_eq_ok_iff.mp compiled
        cases made
        obtain ⟨numbered, each⟩ := induction rest
        exact ⟨⟨rfl, numbered⟩, .cons ⟨rfl, parsed, rfl⟩ each⟩

/-- The token types of a parser with their expanded patterns. -/
def typesOf (expanded : List (NodeTypeId × String)) (table : ParserTable) :
    List (NodeTypeId × String) :=
  table.tokenTypes.filterMap fun id => (expanded.lookup id).map (id, ·)

theorem mem_typesOf {expanded : List (NodeTypeId × String)} {table : ParserTable}
    {pair : NodeTypeId × String} (member : pair ∈ typesOf expanded table) :
    pair.1 ∈ table.tokenTypes ∧ pair ∈ expanded := by
  obtain ⟨id, listed, looked⟩ := List.mem_filterMap.mp member
  obtain ⟨pattern, found, rfl⟩ := Option.map_eq_some_iff.mp looked
  obtain ⟨before, after, rfl, _⟩ := List.lookup_eq_some_iff.mp found
  exact ⟨listed, by simp⟩

section

variable {grammar : Grammar} {expanded : List (NodeTypeId × String)} {table : ParserTable}
  {tokenizer : Tokenizer} (compiled : compile grammar expanded table = .ok tokenizer)

include compiled

theorem compile_eq_ok : tokenizer.parser = table.name ∧
    compileAlternatives grammar 1 (typesOf expanded table) = .ok tokenizer.alternatives ∧
    (typesOf expanded table = [] ∧ tokenizer.composite = none ∨
      typesOf expanded table ≠ [] ∧ ∃ composite, tokenizer.composite = some composite ∧
        Regex.parse? (compositePattern ((typesOf expanded table).map (·.2))) =
          some composite) := by
  obtain ⟨alternatives, built, compiled⟩ := bind_eq_ok_iff.mp compiled
  change compileAlternatives grammar 1 (typesOf expanded table) = .ok alternatives at built
  split at compiled
  · rename_i empty
    have none_ : typesOf expanded table = [] := List.isEmpty_iff.mp empty
    cases compiled
    rw [none_] at built ⊢
    exact ⟨rfl, rfl, .inl ⟨rfl, rfl⟩⟩
  · rename_i present
    have some_ : typesOf expanded table ≠ [] := fun empty => present (List.isEmpty_iff.mpr empty)
    split at compiled
    · cases compiled
    · rename_i composite parsed
      cases compiled
      exact ⟨rfl, built, .inr ⟨some_, composite, rfl, parsed⟩⟩

/-- Each alternative is for a token type of the parser, with the sub-parser of its rule. -/
theorem mem_alternatives {alternative : Alternative}
    (member : alternative ∈ tokenizer.alternatives) :
    alternative.nodeType ∈ table.tokenTypes ∧
      alternative.subparser = (grammar.tokenRule? alternative.nodeType).bind (·.subparser) ∧
      ∃ pattern, (alternative.nodeType, pattern) ∈ expanded ∧
        Regex.parse? pattern = some alternative.regex := by
  obtain ⟨_, built, _⟩ := compile_eq_ok compiled
  obtain ⟨_, each⟩ := compileAlternatives_eq_ok built
  obtain ⟨place, inside, rfl⟩ := List.mem_iff_getElem.mp member
  have before : place < (typesOf expanded table).length := each.length_eq ▸ inside
  obtain ⟨same, parsed, delegates⟩ := each.get before inside
  obtain ⟨listed, known⟩ := mem_typesOf (List.getElem_mem before)
  simp only [List.get_eq_getElem] at same parsed delegates
  rw [same]
  exact ⟨listed, delegates, _, known, parsed⟩

end

/-- A tokenizer whose joined pattern is the choice between its alternatives, each in a group that no
other alternative uses. -/
structure Joined (tokenizer : Tokenizer) : Prop where
  composite : ∀ composite, tokenizer.composite = some composite →
    tokenizer.alternatives ≠ [] ∧
      composite = .choice (tokenizer.alternatives.map Alternative.enclosed)
  alternatives : tokenizer.composite = none → tokenizer.alternatives = []
  apart : tokenizer.alternatives.Pairwise fun earlier later =>
    earlier.group + earlier.regex.captureCount < later.group
  bounded : ∀ alternative ∈ tokenizer.alternatives, ∀ index ∈ alternative.regex.indices,
    1 ≤ index ∧ index ≤ alternative.regex.captureCount

/-- Without layout in the patterns, joining them changes none of them. -/
theorem joined_of_compile {grammar : Grammar} {expanded : List (NodeTypeId × String)}
    {table : ParserTable} {tokenizer : Tokenizer}
    (compiled : compile grammar expanded table = .ok tokenizer)
    (unspaced : ∀ pair ∈ expanded, Regex.switchesLayout pair.2 = false) : tokenizer.Joined := by
  obtain ⟨_, built, composed⟩ := compile_eq_ok compiled
  obtain ⟨numbered, each⟩ := compileAlternatives_eq_ok built
  constructor
  · intro composite composes
    rcases composed with ⟨_, none_⟩ | ⟨present, composite_, some_, parsed⟩
    · rw [none_] at composes
      cases composes
    · cases composes.symm.trans some_
      have regexes : List.Forall₂ (fun pattern regex => Regex.parse? pattern = some regex)
          ((typesOf expanded table).map (·.2)) (tokenizer.alternatives.map (·.regex)) := by
        rw [List.forall₂_map_left_iff, List.forall₂_map_right_iff]
        exact each.imp fun _ _ pair => pair.2.1
      refine ⟨?_, ?_⟩
      · intro empty
        rw [empty] at each
        exact present (List.forall₂_nil_right_iff.mp each)
      · rw [← numbered.enclosed_eq]
        refine Regex.parse?_compositePattern regexes ?_ (by simpa using present) parsed
        intro pattern member
        obtain ⟨pair, listed, rfl⟩ := List.mem_map.mp member
        exact unspaced pair (mem_typesOf listed).2
  · intro composes
    rcases composed with ⟨empty, _⟩ | ⟨_, composite, some_, _⟩
    · rw [empty] at each
      exact List.forall₂_nil_left_iff.mp each
    · rw [composes] at some_
      cases some_
  · exact numbered.pairwise
  · intro alternative member index inside
    obtain ⟨_, _, pattern, _, parsed⟩ := mem_alternatives compiled member
    exact Regex.bounds_of_mem_indices parsed inside

namespace Joined

variable {tokenizer : Tokenizer} (joined : tokenizer.Joined) {composite : Regex}
  (composes : tokenizer.composite = some composite) {text : Array Char} {position : Nat}

include joined composes

theorem matchAt_eq : composite.matchAt text position =
    tokenizer.alternatives.findSome? fun alternative =>
      alternative.enclosed.matchAt text position := by
  obtain ⟨present, rfl⟩ := joined.composite composite composes
  rw [Regex.matchAt_choice (by simpa using present), List.findSome?_map]
  rfl

omit composes in
theorem filter_eq_singleton {before after : List Alternative} {alternative : Alternative}
    (split : tokenizer.alternatives = before ++ alternative :: after) {found : Regex.Match}
    (matched : alternative.enclosed.matchAt text position = some found) :
    tokenizer.alternatives.filter (found.groups.contains ·.group) = [alternative] := by
  have apart := joined.apart
  rw [split, List.pairwise_append, List.pairwise_cons] at apart
  obtain ⟨_, ⟨later, _⟩, earlier⟩ := apart
  have groups := Regex.matchAt_groups matched
  have range : ∀ index ∈ found.groups, alternative.group ≤ index ∧
      index ≤ alternative.group + alternative.regex.captureCount := by
    intro index member
    have inside := groups member
    simp only [Alternative.enclosed, Regex.indices, Regex.indices_renumber, Option.toList_some,
      List.singleton_append, List.mem_cons, List.mem_map] at inside
    rcases inside with rfl | ⟨inner, numbered, rfl⟩
    · omega
    · have := joined.bounded alternative (by simp [split]) inner numbered
      omega
  have own : alternative.group ∈ found.groups := by
    rw [Alternative.enclosed, Regex.matchAt_group] at matched
    obtain ⟨inner, _, rfl⟩ := Option.map_eq_some_iff.mp matched
    exact List.mem_insert_self
  have others : ∀ other ∈ before ++ after, found.groups.contains other.group = false := by
    intro other member
    rw [Bool.eq_false_iff, ne_eq, List.contains_iff_mem]
    intro inside
    have bounds := range _ inside
    rcases List.mem_append.mp member with sooner | further
    · have := earlier other sooner alternative List.mem_cons_self
      omega
    · have := later other further
      omega
  have kept : found.groups.contains alternative.group = true := List.contains_iff_mem.mpr own
  rw [split, List.filter_append, List.filter_cons, if_pos kept,
    List.filter_eq_nil_iff.mpr, List.filter_eq_nil_iff.mpr, List.nil_append]
  · intro other member
    exact Bool.eq_false_iff.mp (others other (List.mem_append_right _ member))
  · intro other member
    exact Bool.eq_false_iff.mp (others other (List.mem_append_left _ member))

/-- Where the joined pattern matches, only the group of the first alternative with a match takes
part, and the match is as long as that of the alternative. -/
theorem matchAt_eq_some {found : Regex.Match}
    (matched : composite.matchAt text position = some found) :
    ∃ before alternative after own, tokenizer.alternatives = before ++ alternative :: after ∧
      (∀ earlier ∈ before, earlier.regex.matchAt text position = none) ∧
      alternative.regex.matchAt text position = some own ∧ own.stop = found.stop ∧
      tokenizer.alternatives.filter (found.groups.contains ·.group) = [alternative] := by
  rw [joined.matchAt_eq composes] at matched
  obtain ⟨before, alternative, after, split, here, sooner⟩ :=
    List.findSome?_eq_some_iff.mp matched
  have stops := alternative.matchAt_enclosed text position
  rw [here] at stops
  obtain ⟨own, matches_, same⟩ := Option.map_eq_some_iff.mp stops.symm
  refine ⟨before, alternative, after, own, split, ?_, matches_, same,
    joined.filter_eq_singleton split here⟩
  intro earlier member
  have stops := earlier.matchAt_enclosed text position
  rw [sooner earlier member] at stops
  exact Option.map_eq_none_iff.mp stops.symm

theorem matchAt_eq_none_iff :
    composite.matchAt text position = none ↔
      ∀ alternative ∈ tokenizer.alternatives, alternative.regex.matchAt text position = none := by
  rw [joined.matchAt_eq composes, List.findSome?_eq_none_iff]
  refine forall₂_congr fun alternative _ => ?_
  rw [← Option.map_eq_none_iff (f := Regex.Match.stop), alternative.matchAt_enclosed,
    Option.map_eq_none_iff]

end Joined

end Tokenizer

end RowGrammar
