import RowGrammar.Proofs.SymbolPattern.Words

/-!
# Patterns that look ahead at their end

A pattern may end with a look at the next symbol, which must not be of some types.  It takes the
words of what comes before the look, where the look lets them pass.
-/

namespace RowGrammar.SymbolPattern

open Route

/-- A pattern for items that no symbol of some types comes after. -/
def guarded (items : List SymbolPattern) (guard : List NodeTypeId) : SymbolPattern :=
  .concat (items ++ [.look .ahead true (.symbols guard)])

theorem word_guarded_iff {items : List SymbolPattern} {guard word : List NodeTypeId} :
    Word (guarded items guard) word ↔ WordItems items word := by
  rw [guarded, Word]
  induction items generalizing word with
  | nil => simp [WordItems, Word]
  | cons item items induction => simp only [List.cons_append, WordItems, induction]

section

variable {input : Array NodeTypeId} {idle : Bool} {items : List SymbolPattern}
  {guard : List NodeTypeId} {path reached : Path} {choices : Choices}

theorem sights_symbols_iff {position : Nat} :
    Sights .ahead (fun path choices reached =>
        Matches input false idle (.symbols guard) path choices reached) position ↔
      ∃ next, input[position]? = some next ∧ next ∈ guard := by
  constructor
  · rintro ⟨_, _, ⟨_, _, ⟨_, impossible, _⟩, _⟩ | ⟨_, _, ⟨next, here, listed⟩, _⟩⟩
    · cases impossible
    · exact ⟨next, here, List.contains_iff_mem.mp listed⟩
  · rintro ⟨next, here, listed⟩
    exact ⟨[1], _, .inr ⟨[], rfl, ⟨next, here, List.contains_iff_mem.mpr listed⟩, rfl, rfl⟩⟩

/-- A route through guarded items is one through the items that ends where the guard allows it. -/
theorem matches_guarded_iff :
    Matches input false idle (guarded items guard) path choices reached ↔
      MatchesItems input false idle items path choices reached ∧
        ∀ next, input[reached.stop]? = some next → next ∉ guard := by
  rw [guarded, Matches]
  induction items generalizing path choices with
  | nil =>
      have free : (Sights .ahead (fun path choices reached =>
          Matches input false idle (.symbols guard) path choices reached) path.stop ↔
            true = false) ↔ ∀ next, input[path.stop]? = some next → next ∉ guard := by
        simp [sights_symbols_iff]
      simp only [List.nil_append, MatchesItems, Matches, andThen, stay]
      constructor
      · rintro ⟨_, _, _, ⟨clear, rfl, rfl⟩, ⟨_, rfl, rfl⟩, rfl⟩
        exact ⟨⟨trivial, rfl, rfl⟩, free.mp clear⟩
      · rintro ⟨⟨_, rfl, rfl⟩, clear⟩
        exact ⟨[], reached, [], ⟨free.mpr clear, rfl, rfl⟩, ⟨trivial, rfl, rfl⟩, rfl⟩
  | cons item items induction =>
      simp only [List.cons_append, MatchesItems, andThen, induction]
      constructor
      · rintro ⟨before, middle, after, first, ⟨others, clear⟩, rfl⟩
        exact ⟨⟨before, middle, after, first, others, rfl⟩, clear⟩
      · rintro ⟨⟨before, middle, after, first, others, rfl⟩, clear⟩
        exact ⟨before, middle, after, first, ⟨others, clear⟩, rfl⟩

end

variable {items : List SymbolPattern} {guard : List NodeTypeId} {input : Array NodeTypeId}
  {start : Nat}

theorem not_mem_guard_of_matchAt {found : Match}
    (matched : (capture (guarded items guard)).matchAt input start false = some found) :
    ∀ next, input[found.stop]? = some next → next ∉ guard := by
  obtain ⟨_, _, choices, ⟨inner, leads, same⟩, _⟩ := exists_route matched
  obtain ⟨start', stop', span⟩ := found
  cases same
  exact (matches_guarded_iff.mp leads).2

/-- Guarded items match where a word of them stands that the guard lets pass. -/
theorem matchAt_guarded_ne_none (blind : looksList items = false) {word : List NodeTypeId}
    (are : WordItems items word) (filled : word ≠ []) (stands : word <+: input.toList.drop start)
    (clear : ∀ next, input[start + word.length]? = some next → next ∉ guard) :
    (capture (guarded items guard)).matchAt input start false ≠ none := by
  obtain ⟨choices, reached, leads, stop⟩ :=
    matchesItems_covers input items blind ⟨start, none⟩ word are stands
  refine matchAt_ne_none_of_matches (matches_guarded_iff.mpr ⟨leads, by rwa [stop]⟩) ?_
  rw [stop]
  exact Nat.lt_add_of_pos_right (List.length_pos_of_ne_nil filled)

end RowGrammar.SymbolPattern
