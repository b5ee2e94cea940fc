import Mathlib.Data.List.Basic
import Mathlib.Data.List.TakeWhile

/-!
# Prefixes

Items stand at a position of a longer list if they are a prefix of what is left there.  Then the
first of them stands at the position, and the others follow.  The longest prefix with a property
ends before the first item without it, so it stays the same when the list is continued behind that
item.
-/

namespace RowGrammar

variable {α : Type}

/-! ## At a position -/

theorem cons_prefix_drop_iff {array : Array α} {item : α} {items : List α} {position : Nat} :
    item :: items <+: array.toList.drop position ↔
      array[position]? = some item ∧ items <+: array.toList.drop (position + 1) := by
  rw [← Array.getElem?_toList, ← List.head?_drop, ← List.tail_drop]
  cases array.toList.drop position with
  | nil => simp
  | cons other rest => simp [List.cons_prefix_cons, eq_comm]

theorem append_prefix_drop_iff {list first second : List α} {position : Nat} :
    first ++ second <+: list.drop position ↔
      first <+: list.drop position ∧ second <+: list.drop (position + first.length) := by
  rw [← List.drop_drop]
  constructor
  · rintro ⟨rest, same⟩
    rw [← same, List.append_assoc, List.drop_left]
    exact ⟨List.prefix_append _ _, List.prefix_append _ _⟩
  · rintro ⟨⟨rest, same⟩, later⟩
    rw [← same, List.drop_left] at later
    rw [← same]
    exact (List.prefix_append_right_inj first).mpr later

/-! ## With a property -/

section

variable {holds : α → Bool} {list rest : List α} {item : α}
  (found : list.dropWhile holds = item :: rest)

include found

theorem split_at_found : list = list.takeWhile holds ++ item :: rest := by
  rw [← found, List.takeWhile_append_dropWhile]

theorem dropWhile_append_of_found (more : List α) :
    (list ++ more).dropWhile holds = item :: (rest ++ more) := by
  rw [List.dropWhile_append, found]
  rfl

theorem takeWhile_append_of_found (more : List α) :
    (list ++ more).takeWhile holds = list.takeWhile holds := by
  rw [List.takeWhile_append, if_neg]
  intro all
  have parts := congrArg List.length (List.takeWhile_append_dropWhile (p := holds) (l := list))
  rw [List.length_append, all, found, List.length_cons] at parts
  omega

end

theorem not_mem_takeWhile_ne [DecidableEq α] (item : α) (list : List α) :
    item ∉ list.takeWhile (· != item) := by
  intro member
  simpa using List.mem_takeWhile_imp member

theorem head?_ne_of_ne_cons {item : α} {list : List α} (apart : ∀ tail, list ≠ item :: tail) :
    list.head? ≠ some item := by
  intro head
  obtain ⟨tail, same⟩ := List.head?_eq_some_iff.mp head
  exact apart tail same

end RowGrammar
