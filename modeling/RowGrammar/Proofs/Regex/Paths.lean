import Mathlib.Data.List.Forall2
import RowGrammar.Regex.Match

/-!
# Paths through a pattern

Matching looks at the position of a path and at nothing else, so a relation between paths that
every step keeps is kept by a whole match.  Paths stay inside the text, take part only in groups of
their pattern, and do not depend on how these groups are numbered.
-/

namespace RowGrammar

open RowGrammar.Text

namespace Regex

/-- The numbers of the capturing groups. -/
def indices : Regex → List Nat
  | .empty | .char _ | .assertion _ => []
  | .seq first second | .either first second => first.indices ++ second.indices
  | .loop body _ _ _ => body.indices
  | .group index body => index.toList ++ body.indices

/-- The pattern with other numbers for its capturing groups. -/
def renumber (number : Nat → Nat) : Regex → Regex
  | .empty => .empty
  | .char set => .char set
  | .assertion condition => .assertion condition
  | .seq first second => .seq (first.renumber number) (second.renumber number)
  | .either first second => .either (first.renumber number) (second.renumber number)
  | .loop body least most greedy => .loop (body.renumber number) least most greedy
  | .group index body => .group (index.map number) (body.renumber number)

@[simp]
theorem length_indices (regex : Regex) : regex.indices.length = regex.captureCount := by
  induction regex with
  | empty => rfl
  | char set => rfl
  | assertion condition => rfl
  | seq first second one two => simp [indices, captureCount, one, two]
  | either first second one two => simp [indices, captureCount, one, two]
  | loop body least most greedy inner => simp [indices, captureCount, inner]
  | group index body inner =>
      cases index with
      | none => simp [indices, captureCount, inner]
      | some index => simp [indices, captureCount, inner, Nat.add_comm]

@[simp]
theorem indices_renumber (number : Nat → Nat) (regex : Regex) :
    (regex.renumber number).indices = regex.indices.map number := by
  induction regex with
  | empty => rfl
  | char set => rfl
  | assertion condition => rfl
  | seq first second one two => simp [renumber, indices, one, two]
  | either first second one two => simp [renumber, indices, one, two]
  | loop body least most greedy inner => simp [renumber, indices, inner]
  | group index body inner =>
      cases index with
      | none => simp [renumber, indices, inner]
      | some index => simp [renumber, indices, inner]

theorem renumber_eq_self {number : Nat → Nat} {regex : Regex}
    (fixed : ∀ index ∈ regex.indices, number index = index) : regex.renumber number = regex := by
  induction regex with
  | empty => rfl
  | char set => rfl
  | assertion condition => rfl
  | seq first second one two =>
      simp only [indices, List.mem_append] at fixed
      rw [renumber, one fun index member => fixed index (.inl member),
        two fun index member => fixed index (.inr member)]
  | either first second one two =>
      simp only [indices, List.mem_append] at fixed
      rw [renumber, one fun index member => fixed index (.inl member),
        two fun index member => fixed index (.inr member)]
  | loop body least most greedy inner => rw [renumber, inner fixed]
  | group index body inner =>
      simp only [indices, List.mem_append, Option.mem_toList] at fixed
      rw [renumber, inner fun index member => fixed index (.inr member)]
      cases index with
      | none => rfl
      | some index => rw [Option.map_some, fixed index (.inl rfl)]

section Related

variable {related : Path → Path → Prop} (level : ∀ {left right}, related left right →
  left.stop = right.stop)

/-- Paths found in the same order, each related to the one in its place. -/
def Found.Related (related : Path → Path → Prop) (left right : Found) : Prop :=
  left.stops = right.stops ∧ List.Forall₂ related left.reversed right.reversed

/-- Explorations that have tried the same iterations and found related paths. -/
def Exploration.Related (related : Path → Path → Prop) (left right : Exploration) : Prop :=
  left.tried = right.tried ∧ Found.Related related left.found right.found

theorem Found.related_empty : Found.Related related .empty .empty :=
  ⟨rfl, .nil⟩

theorem Found.Related.toList {left right : Found} (found : Found.Related related left right) :
    List.Forall₂ related left.toList right.toList :=
  List.rel_reverse found.2

theorem Exploration.related_start : Exploration.Related related .start .start :=
  ⟨rfl, Found.related_empty⟩

theorem Exploration.Related.foldl {left right : Exploration}
    (explored : Exploration.Related related left right) {paths others : List Path}
    (each : List.Forall₂ related paths others) {visit call : Exploration → Path → Exploration}
    (keeps : ∀ {left right}, Exploration.Related related left right → ∀ {path other},
      related path other → Exploration.Related related (visit left path) (call right other)) :
    Exploration.Related related (paths.foldl visit left) (others.foldl call right) := by
  induction each generalizing left right with
  | nil => exact explored
  | cons first rest induction => exact induction (keeps explored first)

include level

theorem Found.Related.add {left right : Found} (found : Found.Related related left right)
    {path other : Path} (paths : related path other) :
    Found.Related related (left.add path) (right.add other) := by
  obtain ⟨stops, reversed⟩ := found
  have same := level paths
  unfold Found.add
  rw [stops, same]
  split
  · exact ⟨stops, reversed⟩
  · exact ⟨rfl, .cons paths reversed⟩

theorem distinct_related {paths others : List Path} (each : List.Forall₂ related paths others) :
    List.Forall₂ related (distinct paths) (distinct others) := by
  apply Found.Related.toList
  exact List.rel_foldl (fun _ _ found _ _ paths => found.add level paths) Found.related_empty each

theorem Exploration.Related.emit {left right : Exploration}
    (explored : Exploration.Related related left right) {path other : Path}
    (paths : related path other) :
    Exploration.Related related (left.emit path) (right.emit other) :=
  ⟨explored.1, explored.2.add level paths⟩

omit level in
theorem Exploration.Related.once {left right : Exploration}
    (explored : Exploration.Related related left right) (key : Nat)
    {go gone : Exploration → Exploration}
    (goes : ∀ {left right}, Exploration.Related related left right →
      Exploration.Related related (go left) (gone right)) :
    Exploration.Related related (left.once key go) (right.once key gone) := by
  unfold Exploration.once
  rw [explored.1]
  split
  · exact explored
  · exact goes ⟨rfl, explored.2⟩

variable {step other : Path → List Path}
  (steps : ∀ {left right}, related left right → List.Forall₂ related (step left) (other right))

include steps

theorem iterations_related (count : Nat) {left right : List Path}
    (paths : List.Forall₂ related left right) :
    List.Forall₂ related (iterations step count left) (iterations other count right) := by
  induction count generalizing left right with
  | zero => simpa [iterations] using paths
  | succ count induction =>
      cases paths with
      | nil => simp [iterations]
      | cons first rest =>
          apply induction
          apply distinct_related level
          exact List.rel_flatMap (.cons first rest) fun _ _ => steps

theorem upTo_related (greedy : Bool) (size count : Nat) {path twin : Path}
    (paths : related path twin) {left right : Exploration}
    (explored : Exploration.Related related left right) :
    Exploration.Related related (upTo step greedy size count path left)
      (upTo other greedy size count twin right) := by
  induction count generalizing path twin left right with
  | zero => exact explored.emit level paths
  | succ count induction =>
      have deeper {left right : Exploration} (explored : Exploration.Related related left right) :
          Exploration.Related related
            ((step path).foldl
              (fun exploration next => upTo step greedy size count next exploration) left)
            ((other twin).foldl
              (fun exploration next => upTo other greedy size count next exploration) right) :=
        explored.foldl (steps paths) fun explored _ _ nexts => induction nexts explored
      unfold upTo
      rw [level paths]
      apply explored.once
      intro left right explored
      split
      · exact (deeper explored).emit level paths
      · exact deeper (explored.emit level paths)

theorem further_related (greedy : Bool) (fuel : Nat) {path twin : Path}
    (paths : related path twin) {left right : Exploration}
    (explored : Exploration.Related related left right) :
    Exploration.Related related (further step greedy fuel path left)
      (further other greedy fuel twin right) := by
  induction fuel generalizing path twin left right with
  | zero => exact explored.emit level paths
  | succ fuel induction =>
      unfold further
      rw [level paths]
      apply explored.once
      intro left right explored
      have deeper {left right : Exploration} (explored : Exploration.Related related left right) :
          Exploration.Related related
            ((step path).foldl (fun exploration next =>
              if next.stop = twin.stop then exploration
              else further step greedy fuel next exploration) left)
            ((other twin).foldl (fun exploration next =>
              if next.stop = twin.stop then exploration
              else further other greedy fuel next exploration) right) := by
        apply explored.foldl (steps paths)
        intro left right explored next follower nexts
        simp only [level nexts]
        split
        · exact explored
        · exact induction nexts explored
      split
      · exact (deeper explored).emit level paths
      · exact deeper (explored.emit level paths)

theorem oneOrMore_related (greedy : Bool) (fuel : Nat) {path twin : Path}
    (paths : related path twin) {left right : Exploration}
    (explored : Exploration.Related related left right) :
    Exploration.Related related (oneOrMore step greedy fuel path left)
      (oneOrMore other greedy fuel twin right) := by
  unfold oneOrMore
  rw [level paths]
  apply explored.foldl (steps paths)
  intro left right explored next follower nexts
  simp only [level nexts]
  split
  · exact explored.emit level nexts
  · exact further_related level steps greedy fuel nexts explored

theorem loopPaths_related (least : Nat) (most : Option Nat) (greedy : Bool) (size : Nat)
    {path twin : Path} (paths : related path twin) :
    List.Forall₂ related (loopPaths step least most greedy size path)
      (loopPaths other least most greedy size twin) := by
  have before (count : Nat) :
      List.Forall₂ related (iterations step count [path]) (iterations other count [twin]) :=
    iterations_related level steps count (.cons paths .nil)
  have start : Exploration.Related related .start .start := Exploration.related_start
  cases most with
  | some most =>
      apply Found.Related.toList
      exact (start.foldl (before least) fun explored _ _ paths =>
        upTo_related level steps greedy size _ paths explored).2
  | none =>
      cases least with
      | zero =>
          apply Found.Related.toList
          split
          · exact ((oneOrMore_related level steps greedy size paths start).emit level paths).2
          · exact (oneOrMore_related level steps greedy size paths (start.emit level paths)).2
      | succ least =>
          apply Found.Related.toList
          exact (start.foldl (before least) fun explored _ _ paths =>
            oneOrMore_related level steps greedy size paths explored).2

omit steps

/-- A relation that taking a character and leaving a group keep is kept by a whole pattern, also
when the groups of one side have other numbers. -/
theorem paths_related {text : Array Char} {number : Nat → Nat}
    (advances : ∀ {left right}, related left right → right.stop < text.size →
      related left.advance right.advance)
    {regex : Regex}
    (leaves : ∀ {left right}, ∀ index ∈ regex.indices, related left right →
      related (left.leave (some index)) (right.leave (some (number index))))
    {path twin : Path} (start : related path twin) :
    List.Forall₂ related (paths text regex path)
      (paths text (regex.renumber number) twin) := by
  induction regex generalizing path twin with
  | empty => exact .cons start .nil
  | char set =>
      simp only [paths, renumber]
      rw [level start]
      cases present : text[twin.stop]? with
      | none => exact .nil
      | some c =>
          by_cases member : set.contains c
          · have inside := (Array.getElem?_eq_some_iff.mp present).1
            simpa [member] using advances start inside
          · simp [member]
  | assertion condition =>
      simp only [paths, renumber]
      rw [level start]
      split
      · exact .cons start .nil
      · exact .nil
  | seq first second one two =>
      simp only [indices, List.mem_append] at leaves
      apply distinct_related level
      refine List.rel_flatMap (one (fun index member => leaves index (.inl member)) start) ?_
      intro middle follower middles
      exact two (fun index member => leaves index (.inr member)) middles
  | either first second one two =>
      simp only [indices, List.mem_append] at leaves
      apply distinct_related level
      exact List.rel_append (one (fun index member => leaves index (.inl member)) start)
        (two (fun index member => leaves index (.inr member)) start)
  | loop body least most greedy inner =>
      exact loopPaths_related level (inner leaves) least most greedy text.size start
  | group index body inner =>
      simp only [indices, List.mem_append, Option.mem_toList] at leaves
      have each := inner (fun index member => leaves index (.inr member)) start
      refine List.rel_map ?_ each
      intro left right paths
      cases index with
      | none => exact paths
      | some index => exact leaves index (.inl rfl) paths

end Related

/-- What holds at the start of a pattern and after every step holds of all its paths. -/
theorem forall_paths {text : Array Char} (holds : Path → Prop)
    (advances : ∀ {path}, holds path → path.stop < text.size → holds path.advance)
    {regex : Regex}
    (leaves : ∀ {path}, ∀ index ∈ regex.indices, holds path → holds (path.leave (some index)))
    {path : Path} (start : holds path) : ∀ arrived ∈ paths text regex path, holds arrived := by
  have unchanged : regex.renumber id = regex := renumber_eq_self fun _ _ => rfl
  have same : List.Forall₂ (fun left right => left = right ∧ holds left)
      (paths text regex path) (paths text (regex.renumber id) path) := by
    refine paths_related ?_ ?_ ?_ ⟨rfl, start⟩
    · intro left right paths
      exact congrArg Path.stop paths.1
    · intro left right paths inside
      obtain ⟨rfl, valid⟩ := paths
      exact ⟨rfl, advances valid inside⟩
    · intro left right index member paths
      obtain ⟨rfl, valid⟩ := paths
      exact ⟨rfl, leaves index member valid⟩
  rw [unchanged] at same
  intro arrived member
  obtain ⟨place, inside, rfl⟩ := List.mem_iff_getElem.mp member
  exact (same.get inside inside).2

theorem stop_of_mem_paths {text : Array Char} {regex : Regex} {path arrived : Path}
    (inside : path.stop ≤ text.size) (member : arrived ∈ paths text regex path) :
    path.stop ≤ arrived.stop ∧ arrived.stop ≤ text.size := by
  refine forall_paths (fun other => path.stop ≤ other.stop ∧ other.stop ≤ text.size)
    ?_ ?_ ⟨Nat.le_refl _, inside⟩ arrived member
  · intro other bounds before
    have : other.advance.stop = other.stop + 1 := rfl
    omega
  · intro other index _ bounds
    exact bounds

theorem groups_of_mem_paths {text : Array Char} {regex : Regex} {path arrived : Path}
    (member : arrived ∈ paths text regex path) {index : Nat} (left : index ∈ arrived.groups) :
    index ∈ path.groups ∨ index ∈ regex.indices := by
  refine forall_paths
    (fun other => ∀ index ∈ other.groups, index ∈ path.groups ∨ index ∈ regex.indices)
    ?_ ?_ ?_ arrived member index left
  · intro other known _
    exact known
  · intro other outer numbered known index left
    rcases List.mem_insert_iff.mp left with rfl | earlier
    · exact .inr numbered
    · exact known index earlier
  · intro index left
    exact .inl left

end Regex

end RowGrammar
