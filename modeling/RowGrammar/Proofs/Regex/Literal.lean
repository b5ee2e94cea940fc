import RowGrammar.Proofs.Prefixes
import RowGrammar.Proofs.Regex.Lexing
import RowGrammar.Proofs.Regex.Matching

/-!
# Patterns of literals

A pattern that is written as one position after the other, each for one character, is read as the
sequence of these positions, and matches where the text goes on with these characters.  Assertions
may follow, such as a word boundary; they have to hold at the end of the literal.
-/

namespace RowGrammar.Regex

open RowGrammar.Text

/-- A set with one character in it. -/
def CharSet.IsExactly (set : CharSet) (c : Char) : Prop :=
  ∀ other, set.contains other ↔ other = c

theorem CharSet.isExactly_singleton (c : Char) : (CharSet.singleton c).IsExactly c := by
  intro other
  simp only [singleton, contains, Bool.and_eq_true, decide_eq_true_eq]
  constructor
  · rintro ⟨above, below⟩
    exact Char.le_antisymm below above
  · rintro rfl
    exact ⟨Char.le_refl _, Char.le_refl _⟩

/-! ## Matching -/

section

variable {text : Array Char}

theorem paths_char {set : CharSet} {c : Char} (exact : set.IsExactly c) (path : Path) :
    paths text (.char set) path = if text[path.stop]? = some c then [path.advance] else [] := by
  rw [paths]
  cases present : text[path.stop]? with
  | none => simp
  | some other => simp [exact other]

theorem head?_paths_sequence_cons (first : Regex) (items : List Regex) (path : Path) :
    (paths text (sequence (first :: items)) path).head? =
      ((paths text first path).flatMap (paths text (sequence items))).head? := by
  cases items with
  | nil => simp [sequence, paths]
  | cons second items => exact head?_distinct _

/-- The path through a literal goes on from its end. -/
theorem head?_paths_sequence_append {chars : List Char} {sets : List CharSet}
    (exact : List.Forall₂ (fun c set => CharSet.IsExactly set c) chars sets) (rest : List Regex)
    {path last : Path} :
    (paths text (sequence (sets.map .char ++ rest)) path).head? = some last ↔
      chars <+: text.toList.drop path.stop ∧
        (paths text (sequence rest) ⟨path.stop + chars.length, path.groups⟩).head? = some last := by
  induction exact generalizing path with
  | nil => simp
  | @cons c set chars sets first _ induction =>
      rw [List.map_cons, List.cons_append, head?_paths_sequence_cons, paths_char first,
        cons_prefix_drop_iff]
      split_ifs with here
      · rw [List.flatMap_singleton, induction, and_iff_right here, List.length_cons,
          Nat.add_comm chars.length 1, ← Nat.add_assoc]
        rfl
      · simp [here]

/-- The path through assertions that hold stays where it is. -/
theorem head?_paths_assertions (conditions : List Assertion) {path last : Path} :
    (paths text (sequence (conditions.map .assertion)) path).head? = some last ↔
      (∀ condition ∈ conditions, assertionAt text condition path.stop) ∧ path = last := by
  induction conditions with
  | nil => simp [sequence, paths]
  | cons condition conditions induction =>
      rw [List.map_cons, head?_paths_sequence_cons, paths, List.forall_mem_cons]
      split_ifs with holds
      · rw [List.flatMap_singleton, induction, and_iff_right holds]
      · simp [holds]

/-- A literal with assertions after it matches where the text goes on with the literal and they hold
at its end, and then exactly the literal. -/
theorem matchAt_sequence {chars : List Char} {sets : List CharSet}
    (exact : List.Forall₂ (fun c set => CharSet.IsExactly set c) chars sets)
    (conditions : List Assertion) {position : Nat} {found : Match} :
    (sequence (sets.map .char ++ conditions.map .assertion)).matchAt text position = some found ↔
      chars <+: text.toList.drop position ∧
        (∀ condition ∈ conditions, assertionAt text condition (position + chars.length)) ∧
        found = ⟨position, position + chars.length, []⟩ := by
  simp only [matchAt_eq_some_iff, head?_paths_sequence_append exact, head?_paths_assertions]
  constructor
  · rintro ⟨path, ⟨goes, holds, rfl⟩, rfl⟩
    exact ⟨goes, holds, rfl⟩
  · rintro ⟨goes, holds, rfl⟩
    exact ⟨_, ⟨goes, holds, rfl⟩, rfl⟩

end

/-! ## Reading -/

/-- A pattern that is an assertion, or a position for a class without classes inside. -/
structure Simple (regex : Regex) : Prop where
  height_le : regex.height ≤ 1
  sequenceHeight_le : regex.sequenceHeight ≤ 1

theorem simple_char {set : CharSet} (shallow : set.depth ≤ 1) : Simple (.char set) :=
  ⟨shallow, shallow⟩

theorem simple_assertion (condition : Assertion) : Simple (.assertion condition) :=
  ⟨Nat.zero_le _, Nat.zero_le _⟩

theorem sequenceHeight_sequence {regexes : List Regex}
    (simple : ∀ regex ∈ regexes, regex.Simple) : (sequence regexes).sequenceHeight ≤ 1 := by
  induction regexes with
  | nil => exact Nat.zero_le _
  | cons regex regexes induction =>
      obtain ⟨first, rest⟩ := List.forall_mem_cons.mp simple
      cases regexes with
      | nil => exact first.sequenceHeight_le
      | cons second regexes => exact Nat.max_le.mpr ⟨first.height_le, induction rest⟩

theorem height_sequence {regexes : List Regex} (simple : ∀ regex ∈ regexes, regex.Simple) :
    (sequence regexes).height ≤ 2 := by
  cases regexes with
  | nil => exact Nat.zero_le _
  | cons regex regexes =>
      obtain ⟨first, rest⟩ := List.forall_mem_cons.mp simple
      cases regexes with
      | nil => exact Nat.le_succ_of_le first.height_le
      | cons second regexes =>
          exact Nat.succ_le_succ
            (Nat.max_le.mpr ⟨first.height_le, sequenceHeight_sequence rest⟩)

/-- Single positions are put behind what has been read of the innermost group. -/
theorem foldlM_atoms (regexes : List Regex) (builder : Builder) :
    (regexes.map Lexeme.atom).foldlM Builder.step? builder =
      some { builder with current := { builder.current with
        items := (regexes.map fun regex => ⟨regex, true⟩).reverse ++ builder.current.items } } := by
  induction regexes generalizing builder with
  | nil => rfl
  | cons regex regexes induction =>
      rw [List.map_cons, List.foldlM_cons]
      change (regexes.map Lexeme.atom).foldlM Builder.step? _ = _
      rw [induction]
      simp [Frame.push]

/-- A pattern whose lexemes are simple is read as the sequence of these. -/
theorem parse?_of_atoms {pattern : String} {regexes : List Regex}
    (simple : ∀ regex ∈ regexes, regex.Simple)
    (lexed : lexemes? pattern.toList = some (regexes.map .atom)) :
    parse? pattern = some (sequence regexes) := by
  have low : (sequence regexes).height ≤ maxHeight :=
    Nat.le_trans (height_sequence simple) (by decide)
  simp only [parse?, lexed, Option.bind_eq_bind, Option.bind_some, foldlM_atoms]
  simp [Builder.finish?, Builder.start, Frame.fresh, Frame.body, Frame.branch, choice,
    Function.comp_def, low]

/-! ## Spelling -/

/-- The characters are read as one position for just one character, whatever follows them. -/
def Spells (chars : List Char) (c : Char) : Prop :=
  ∀ rest, ∃ set : CharSet, set.IsExactly c ∧ set.depth ≤ 1 ∧
    lexeme? .initial (chars ++ rest) = some (.atom (.char set), rest)

theorem Spells.ne_nil {chars : List Char} {c : Char} (spells : Spells chars c) : chars ≠ [] := by
  rintro rfl
  obtain ⟨_, _, _, read⟩ := spells []
  cases read

/-- The lexemes of a spelled literal come before those of what follows it. -/
theorem exists_lexemesFrom_of_spells {literal rest : List Char} {pieces : List (List Char)}
    {lexemes : List Lexeme} (spelled : List.Forall₂ Spells pieces literal)
    (lexed : ∀ fuel, rest.length < fuel → lexemesFrom fuel .initial [] rest = some lexemes)
    {fuel : Nat} (enough : (pieces.flatten ++ rest).length < fuel) :
    ∃ sets : List CharSet, List.Forall₂ (fun c set => CharSet.IsExactly set c) literal sets ∧
      (∀ set ∈ sets, set.depth ≤ 1) ∧
      lexemesFrom fuel .initial [] (pieces.flatten ++ rest) =
        some ((sets.map Regex.char).map .atom ++ lexemes) := by
  induction spelled generalizing fuel with
  | nil => exact ⟨[], .nil, by simp, lexed fuel enough⟩
  | @cons piece c pieces literal first _ induction =>
      cases fuel with
      | zero => cases enough
      | succ fuel =>
          have filled := List.length_pos_iff.mpr first.ne_nil
          rw [List.flatten_cons, List.append_assoc] at enough ⊢
          rw [List.length_append] at enough
          obtain ⟨sets, exact, low, reads⟩ := induction (show _ < fuel by omega)
          obtain ⟨set, exactly, shallow, read⟩ := first (pieces.flatten ++ rest)
          refine ⟨set :: sets, .cons exactly exact, List.forall_mem_cons.mpr ⟨shallow, low⟩, ?_⟩
          apply (lexemesFrom_succ_eq_some_iff_of_unspaced rfl (by simp [first.ne_nil])).mpr
          exact ⟨_, _, _, _, _, read, rfl, reads, rfl⟩

/-- A literal spelled character by character, with assertions after it, is a pattern that matches
just this literal where the assertions hold at its end. -/
theorem exists_parse?_of_spells_before {pattern : String} {literal rest : List Char}
    {pieces : List (List Char)} (spelled : List.Forall₂ Spells pieces literal)
    {conditions : List Assertion}
    (lexed : ∀ fuel, rest.length < fuel → lexemesFrom fuel .initial [] rest =
      some ((conditions.map Regex.assertion).map .atom))
    (joined : pieces.flatten ++ rest = pattern.toList) :
    ∃ regex, parse? pattern = some regex ∧ ∀ text position found,
      regex.matchAt text position = some found ↔
        literal <+: text.toList.drop position ∧
          (∀ condition ∈ conditions, assertionAt text condition (position + literal.length)) ∧
          found = ⟨position, position + literal.length, []⟩ := by
  obtain ⟨sets, exact, low, reads⟩ :=
    exists_lexemesFrom_of_spells spelled lexed (Nat.lt_succ_self _)
  have simple : ∀ regex ∈ sets.map Regex.char ++ conditions.map Regex.assertion,
      regex.Simple := by
    intro regex member
    rcases List.mem_append.mp member with character | after
    · obtain ⟨set, among, rfl⟩ := List.mem_map.mp character
      exact simple_char (low set among)
    · obtain ⟨condition, _, rfl⟩ := List.mem_map.mp after
      exact simple_assertion condition
  refine ⟨_, parse?_of_atoms simple ?_, fun text position found =>
    matchAt_sequence exact conditions⟩
  rw [lexemes?, ← joined, List.map_append]
  exact reads

/-- A literal spelled character by character is a pattern that matches just this literal. -/
theorem exists_parse?_of_spells {pattern : String} {literal : List Char}
    {pieces : List (List Char)} (spelled : List.Forall₂ Spells pieces literal)
    (joined : pieces.flatten = pattern.toList) :
    ∃ regex, parse? pattern = some regex ∧ ∀ text position found,
      regex.matchAt text position = some found ↔
        literal <+: text.toList.drop position ∧
          found = ⟨position, position + literal.length, []⟩ := by
  have ends (fuel : Nat) (enough : ([] : List Char).length < fuel) :
      lexemesFrom fuel .initial [] [] =
        some ((([] : List Assertion).map .assertion).map .atom) := by
    cases fuel with
    | zero => cases enough
    | succ fuel => rfl
  obtain ⟨regex, parsed, matches_⟩ :=
    exists_parse?_of_spells_before spelled ends (by rw [List.append_nil, joined])
  exact ⟨regex, parsed, by simpa using matches_⟩

/-- A literal spelled character by character, with a word boundary after it, is a pattern that
matches just this literal, and only where a word starts or ends after it. -/
theorem exists_parse?_of_spells_bounded {pattern : String} {literal : List Char}
    {pieces : List (List Char)} (spelled : List.Forall₂ Spells pieces literal)
    (joined : pieces.flatten ++ ['\\', 'b'] = pattern.toList) :
    ∃ regex, parse? pattern = some regex ∧ ∀ text position found,
      regex.matchAt text position = some found ↔
        literal <+: text.toList.drop position ∧
          assertionAt text .wordBoundary (position + literal.length) ∧
          found = ⟨position, position + literal.length, []⟩ := by
  have bounds (fuel : Nat) (enough : ['\\', 'b'].length < fuel) :
      lexemesFrom fuel .initial [] ['\\', 'b'] =
        some (([Assertion.wordBoundary].map .assertion).map .atom) := by
    obtain ⟨fuel, rfl⟩ := Nat.exists_eq_add_of_le' enough
    rfl
  obtain ⟨regex, parsed, matches_⟩ := exists_parse?_of_spells_before spelled bounds joined
  exact ⟨regex, parsed, by simpa using matches_⟩

end RowGrammar.Regex
