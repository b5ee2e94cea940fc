import RowGrammar.Proofs.Regex.Paths

/-!
# Matches

The match at a position is the best path from there, and the match of a choice is that of its first
branch that has one.  A search takes the first position with a match.
-/

namespace RowGrammar

open RowGrammar.Text

namespace Regex

theorem head?_distinct (paths : List Path) : (distinct paths).head? = paths.head? := by
  have grows (paths : List Path) (found : Found) : ∃ later,
      (paths.foldl Found.add found).toList = found.toList ++ later := by
    induction paths generalizing found with
    | nil => exact ⟨[], by simp⟩
    | cons path paths induction =>
        obtain ⟨later, same⟩ := induction (found.add path)
        rw [List.foldl_cons, same]
        unfold Found.add
        split
        · exact ⟨later, rfl⟩
        · exact ⟨path :: later, by simp [Found.toList]⟩
  cases paths with
  | nil => rfl
  | cons path paths =>
      obtain ⟨later, same⟩ := grows paths (Found.empty.add path)
      have first : (Found.empty.add path).toList = [path] := by
        simp [Found.add, Found.empty, Found.toList]
      rw [distinct, List.foldl_cons, same, first]
      rfl

section

variable {text : Array Char} {regex : Regex} {position : Nat} {found : Match}

theorem matchAt_eq_some_iff :
    regex.matchAt text position = some found ↔
      ∃ path, (paths text regex (.start position)).head? = some path ∧
        ⟨position, path.stop, path.groups⟩ = found := by
  simp only [matchAt, Option.map_eq_some_iff]

theorem matchAt_start (matched : regex.matchAt text position = some found) :
    found.start = position := by
  obtain ⟨path, _, rfl⟩ := matchAt_eq_some_iff.mp matched
  rfl

theorem matchAt_stop (matched : regex.matchAt text position = some found)
    (inside : position ≤ text.size) : position ≤ found.stop ∧ found.stop ≤ text.size := by
  obtain ⟨path, best, rfl⟩ := matchAt_eq_some_iff.mp matched
  have bounds : (Path.start position).stop ≤ text.size := inside
  exact stop_of_mem_paths bounds (List.mem_of_head? best)

theorem matchAt_groups (matched : regex.matchAt text position = some found) :
    found.groups ⊆ regex.indices := by
  obtain ⟨path, best, rfl⟩ := matchAt_eq_some_iff.mp matched
  intro index left
  rcases groups_of_mem_paths (List.mem_of_head? best) left with before | inside
  · cases before
  · exact inside

/-- The numbers of the groups change which groups took part and nothing else. -/
theorem matchAt_renumber (number : Nat → Nat) :
    ((regex.renumber number).matchAt text position).map Match.stop =
      (regex.matchAt text position).map Match.stop := by
  have each : List.Forall₂ (fun left right : Path => left.stop = right.stop)
      (paths text regex (.start position)) (paths text (regex.renumber number) (.start position)) :=
    paths_related id (fun same _ => congrArg (· + 1) same) (fun _ _ same => same) rfl
  simp only [matchAt, Option.map_map]
  generalize paths text regex (.start position) = left at each
  generalize paths text (regex.renumber number) (.start position) = right at each
  cases each with
  | nil => rfl
  | cons same _ => exact congrArg some same.symm

theorem matchAt_group (index : Nat) :
    (Regex.group (some index) regex).matchAt text position =
      (regex.matchAt text position).map fun found =>
        { found with groups := found.groups.insert index } := by
  simp only [matchAt, paths, List.head?_map, Option.map_map]
  rfl

theorem matchAt_either (first second : Regex) :
    (Regex.either first second).matchAt text position =
      (first.matchAt text position).or (second.matchAt text position) := by
  simp only [matchAt, paths, head?_distinct, List.head?_append]
  cases (paths text first (.start position)).head? with
  | none => rfl
  | some path => rfl

theorem matchAt_choice {branches : List Regex} (present : branches ≠ []) :
    (choice branches).matchAt text position =
      branches.findSome? (·.matchAt text position) := by
  induction branches with
  | nil => exact absurd rfl present
  | cons branch branches induction =>
      cases branches with
      | nil =>
          simp only [choice, List.findSome?_cons, List.findSome?_nil]
          cases branch.matchAt text position with
          | none => rfl
          | some found => rfl
      | cons next branches =>
          have split : choice (branch :: next :: branches) =
              .either branch (choice (next :: branches)) := rfl
          rw [split, matchAt_either, induction (by simp)]
          conv => rhs; rw [List.findSome?_cons]
          cases branch.matchAt text position with
          | none => rfl
          | some found => rfl

/-! ## Searching -/

theorem findWithin_eq_none_iff {count : Nat} :
    findWithin regex text count position = none ↔
      ∀ place, position ≤ place → place < position + count → regex.matchAt text place = none := by
  induction count generalizing position with
  | zero => simp only [findWithin, true_iff]; omega
  | succ count induction =>
      unfold findWithin
      cases here : regex.matchAt text position with
      | some found =>
          simp only [reduceCtorEq, false_iff]
          intro absent
          rw [absent position (Nat.le_refl _) (by omega)] at here
          cases here
      | none =>
          simp only [induction]
          constructor
          · intro later place after before
            rcases Nat.eq_or_lt_of_le after with rfl | beyond
            · exact here
            · exact later place beyond (by omega)
          · intro all place after before
            exact all place (by omega) (by omega)

theorem findWithin_eq_some {count : Nat}
    (search : findWithin regex text count position = some found) :
    position ≤ found.start ∧ found.start < position + count ∧
      regex.matchAt text found.start = some found ∧
      ∀ place, position ≤ place → place < found.start → regex.matchAt text place = none := by
  induction count generalizing position with
  | zero => cases search
  | succ count induction =>
      unfold findWithin at search
      cases here : regex.matchAt text position with
      | some first =>
          rw [here] at search
          cases search
          have start := matchAt_start here
          rw [start]
          exact ⟨Nat.le_refl _, by omega, here, by omega⟩
      | none =>
          rw [here] at search
          obtain ⟨after, before, matched, absent⟩ := induction search
          refine ⟨by omega, by omega, matched, ?_⟩
          intro place beyond earlier
          rcases Nat.eq_or_lt_of_le beyond with rfl | further
          · exact here
          · exact absent place further earlier

theorem find?_eq_none_iff :
    regex.find? text position = none ↔
      ∀ place, position ≤ place → place ≤ text.size → regex.matchAt text place = none := by
  rw [find?, findWithin_eq_none_iff]
  constructor
  · intro absent place after inside
    exact absent place after (by omega)
  · intro absent place after before
    exact absent place after (by omega)

/-- A search finds the match at the first position that has one. -/
theorem find?_eq_some (search : regex.find? text position = some found) :
    position ≤ found.start ∧ found.start ≤ text.size ∧
      regex.matchAt text found.start = some found ∧
      ∀ place, position ≤ place → place < found.start → regex.matchAt text place = none := by
  obtain ⟨after, before, matched, absent⟩ := findWithin_eq_some search
  exact ⟨after, by omega, matched, absent⟩

/-- A match at the position where the search starts is the one that is found. -/
theorem find?_eq_some_here (inside : position ≤ text.size)
    (matched : regex.matchAt text position = some found) :
    regex.find? text position = some found := by
  cases search : regex.find? text position with
  | none =>
      rw [find?_eq_none_iff.mp search position (Nat.le_refl _) inside] at matched
      cases matched
  | some first =>
      obtain ⟨after, _, here, absent⟩ := find?_eq_some search
      have start : first.start = position := by
        by_contra later
        rw [absent position (Nat.le_refl _) (by omega)] at matched
        cases matched
      rw [start, matched] at here
      rw [here]

end

end Regex

end RowGrammar
