import Mathlib.Data.List.Forall2

/-!
# Steps that may fail

Two steps succeed when both do.  A traversal of a list succeeds exactly when every item does, with
one result for each item.  The same goes for steps that work on a state, where an invariant of the
state says what the earlier items leave behind.
-/

namespace RowGrammar

/-- Two steps succeed when both do. -/
theorem bind_eq_ok_iff {α β ε : Type} {first : Except ε α} {next : α → Except ε β} {result : β} :
    first >>= next = .ok result ↔ ∃ middle, first = .ok middle ∧ next middle = .ok result := by
  cases first with
  | error error => simp [bind, Except.bind]
  | ok middle => simp [bind, Except.bind]

theorem pure_eq_ok_iff {α ε : Type} {value result : α} :
    (pure value : Except ε α) = .ok result ↔ value = result := by
  simp [pure, Except.pure]

theorem map_eq_ok_iff {α β ε : Type} {f : α → β} {first : Except ε α} {result : β} :
    first.map f = .ok result ↔ ∃ middle, first = .ok middle ∧ f middle = result := by
  cases first with
  | error error => simp [Except.map]
  | ok middle => simp [Except.map]

/-- The result of a step that has one. -/
theorem eq_ok_get {α ε : Type} {result : Except ε α} (succeeds : result.toOption.isSome) :
    result = .ok (result.toOption.get succeeds) := by
  cases result with
  | error error => cases succeeds
  | ok value => rfl

theorem eq_ok_of_toOption {α ε : Type} {result : Except ε α} {value : α}
    (found : result.toOption = some value) : result = .ok value := by
  cases result with
  | error error => cases found
  | ok other =>
      cases found
      rfl

theorem mapM_eq_some_iff {α β : Type} {step : α → Option β} {items : List α}
    {results : List β} :
    items.mapM step = some results ↔
      List.Forall₂ (fun item result => step item = some result) items results := by
  induction items generalizing results with
  | nil => cases results <;> simp
  | cons item items induction =>
      rw [List.mapM_cons]
      constructor
      · intro traversed
        simp only [Option.bind_eq_bind, Option.bind_eq_some_iff, Option.pure_def,
          Option.some.injEq] at traversed
        obtain ⟨result, first, rest, others, rfl⟩ := traversed
        exact .cons first (induction.mp others)
      · intro related
        cases related with
        | cons first others => simp [first, induction.mpr others]

theorem mapM_eq_ok_iff {α β ε : Type} {step : α → Except ε β} {items : List α}
    {results : List β} :
    items.mapM step = .ok results ↔
      List.Forall₂ (fun item result => step item = .ok result) items results := by
  induction items generalizing results with
  | nil => cases results <;> simp [pure, Except.pure]
  | cons item items induction =>
      rw [List.mapM_cons]
      constructor
      · intro traversed
        simp only [bind_eq_ok_iff, pure_eq_ok_iff] at traversed
        obtain ⟨result, first, rest, others, rfl⟩ := traversed
        exact .cons first (induction.mp others)
      · intro related
        cases related with
        | cons first others =>
            simp [first, induction.mpr others, bind, Except.bind, pure, Except.pure]

/-! ## Steps on a state -/

section

variable {σ ε α β : Type} {state after : σ} {error : ε}

theorem run_bind_eq_ok_iff {first : StateT σ (Except ε) α} {next : α → StateT σ (Except ε) β}
    {value : β} :
    (first >>= next).run state = .ok (value, after) ↔
      ∃ middle between, first.run state = .ok (middle, between) ∧
        (next middle).run between = .ok (value, after) := by
  simp [StateT.run_bind, bind_eq_ok_iff]

theorem run_bind_eq_error_iff {first : StateT σ (Except ε) α}
    {next : α → StateT σ (Except ε) β} :
    (first >>= next).run state = .error error ↔
      first.run state = .error error ∨ ∃ middle between,
        first.run state = .ok (middle, between) ∧ (next middle).run between = .error error := by
  rw [StateT.run_bind]
  cases first.run state with
  | error other => simp [bind, Except.bind]
  | ok pair =>
      obtain ⟨middle, between⟩ := pair
      simp [bind, Except.bind]

/-- A traversal relates every item to its value when every step does that keeps the invariant. -/
theorem forall₂_of_run_mapM (holds : σ → Prop) (related : α → β → Prop)
    {step : α → StateT σ (Except ε) β} {items : List α} {values : List β}
    (each : ∀ item ∈ items, ∀ {before after value}, holds before →
      (step item).run before = .ok (value, after) → related item value ∧ holds after)
    (start : holds state) (traversed : (items.mapM step).run state = .ok (values, after)) :
    List.Forall₂ related items values ∧ holds after := by
  induction items generalizing state values with
  | nil =>
      cases traversed
      exact ⟨.nil, start⟩
  | cons item items induction =>
      rw [List.mapM_cons] at traversed
      obtain ⟨value, between, first, rest⟩ := run_bind_eq_ok_iff.mp traversed
      obtain ⟨others, _, later, done⟩ := run_bind_eq_ok_iff.mp rest
      cases done
      obtain ⟨here, kept⟩ := each item List.mem_cons_self start first
      obtain ⟨there, last⟩ :=
        induction (fun item member => each item (List.mem_cons_of_mem _ member)) kept later
      exact ⟨.cons here there, last⟩

/-- A traversal that fails has a step that fails. -/
theorem exists_of_run_mapM_eq_error {step : α → StateT σ (Except ε) β} {items : List α}
    (failed : (items.mapM step).run state = .error error) :
    ∃ item ∈ items, ∃ before, (step item).run before = .error error := by
  induction items generalizing state with
  | nil => cases failed
  | cons item items induction =>
      rw [List.mapM_cons, run_bind_eq_error_iff] at failed
      rcases failed with first | ⟨_, between, _, rest⟩
      · exact ⟨item, List.mem_cons_self, state, first⟩
      · rcases run_bind_eq_error_iff.mp rest with later | ⟨_, _, _, done⟩
        · obtain ⟨other, member, found⟩ := induction later
          exact ⟨other, List.mem_cons_of_mem _ member, found⟩
        · cases done

end

/-! ## Loops and lists -/

theorem foldlM_congr {σ α ε : Type} {step step_ : σ → α → Except ε σ} {items : List α}
    (same : ∀ item ∈ items, ∀ state, step state item = step_ state item) (state : σ) :
    items.foldlM step state = items.foldlM step_ state := by
  induction items generalizing state with
  | nil => rfl
  | cons item items induction =>
      rw [List.foldlM_cons, List.foldlM_cons, same item List.mem_cons_self]
      exact bind_congr fun next =>
        induction (fun other member => same other (List.mem_cons_of_mem _ member)) next

theorem foldlM_flatMap {α β σ ε : Type} (items : List α) (expand : α → List β)
    (step : σ → β → Except ε σ) (state : σ) :
    (items.flatMap expand).foldlM step state =
      items.foldlM (fun state item => (expand item).foldlM step state) state := by
  induction items generalizing state with
  | nil => rfl
  | cons item items induction =>
      rw [List.flatMap_cons, List.foldlM_append, List.foldlM_cons]
      exact bind_congr fun next => induction next

/-- A loop that stops with an error has a step that fails with it. -/
theorem exists_of_foldlM_eq_error {α σ ε : Type} {step : σ → α → Except ε σ} {items : List α}
    {state : σ} {error : ε} (failed : items.foldlM step state = .error error) :
    ∃ before item, item ∈ items ∧ step before item = .error error := by
  induction items generalizing state with
  | nil => cases failed
  | cons item items induction =>
      rw [List.foldlM_cons] at failed
      cases result : step state item with
      | error first =>
          rw [result] at failed
          cases failed
          exact ⟨state, item, List.mem_cons_self, result⟩
      | ok after =>
          rw [result] at failed
          obtain ⟨before, other, member, found⟩ := induction failed
          exact ⟨before, other, List.mem_cons_of_mem _ member, found⟩

/-- An item has its counterpart in a list that is related item by item. -/
theorem exists_of_forall₂ {α β : Type} {related : α → β → Prop} {items : List α}
    {others : List β} (same : List.Forall₂ related items others) {item : α}
    (member : item ∈ items) : ∃ other ∈ others, related item other := by
  obtain ⟨place, inside, rfl⟩ := List.mem_iff_getElem.mp member
  have inside' : place < others.length := same.length_eq ▸ inside
  exact ⟨_, List.getElem_mem inside', same.get inside inside'⟩

/-- Lists that are related item by item are so at every place. -/
theorem getElem?_related {α β : Type} {related : α → β → Prop} {items : List α} {others : List β}
    (same : List.Forall₂ related items others) (place : Nat) :
    Option.Rel related items[place]? others[place]? := by
  induction same generalizing place with
  | nil => exact .none
  | cons first _ induction =>
      cases place with
      | zero => exact .some first
      | succ place => exact induction place

theorem forall₂_trans {α : Type} {related : α → α → Prop}
    (transitive : ∀ first middle last, related first middle → related middle last →
      related first last)
    {items others results : List α} (one : List.Forall₂ related items others)
    (two : List.Forall₂ related others results) : List.Forall₂ related items results := by
  induction one generalizing results with
  | nil => exact two
  | cons first _ induction =>
      obtain ⟨result, rest, second, later, rfl⟩ := List.forall₂_cons_left_iff.mp two
      exact .cons (transitive _ _ _ first second) (induction later)

theorem forall₂_zipIdx {α β : Type} {related : α → β → Prop} {items : List α} {others : List β}
    (same : List.Forall₂ related items others) (start : Nat) :
    List.Forall₂ (fun item other => related item.1 other.1 ∧ item.2 = other.2)
      (items.zipIdx start) (others.zipIdx start) := by
  induction same generalizing start with
  | nil => exact .nil
  | cons first _ induction => exact .cons ⟨first, rfl⟩ (induction (start + 1))

/-- Items that are related to their images only are related to their images. -/
theorem eq_map_of_forall₂ {α β : Type} {image : α → β} {related : α → β → Prop} {items : List α}
    {values : List β} (same : List.Forall₂ related items values)
    (only : ∀ item ∈ items, ∀ value, related item value → value = image item) :
    values = items.map image := by
  induction same with
  | nil => rfl
  | cons first _ induction =>
      rw [List.map_cons, only _ List.mem_cons_self _ first,
        induction fun item member => only item (List.mem_cons_of_mem _ member)]

/-- Items that each have a counterpart have a list of counterparts. -/
theorem exists_forall₂ {α β : Type} {related : α → β → Prop} {items : List α}
    (each : ∀ item ∈ items, ∃ other, related item other) :
    ∃ others, List.Forall₂ related items others := by
  induction items with
  | nil => exact ⟨[], .nil⟩
  | cons item items induction =>
      obtain ⟨other, first⟩ := each item List.mem_cons_self
      obtain ⟨others, rest⟩ :=
        induction fun item member => each item (List.mem_cons_of_mem _ member)
      exact ⟨other :: others, .cons first rest⟩

/-- A search through two lists side by side finds related results. -/
theorem findSome?_related {α α' β β' : Type} {related : α → α' → Prop} {found : β → β' → Prop}
    {items : List α} {others : List α'} {search : α → Option β} {search' : α' → Option β'}
    (same : List.Forall₂ related items others)
    (each : ∀ {item other}, related item other → Option.Rel found (search item) (search' other)) :
    Option.Rel found (items.findSome? search) (others.findSome? search') := by
  induction same with
  | nil => exact .none
  | @cons item other items others first _ induction =>
      rw [List.findSome?_cons, List.findSome?_cons]
      have here := each first
      generalize search item = result at here
      generalize search' other = result' at here
      cases here with
      | none => exact induction
      | some match_ => exact .some match_

theorem eq_singleton_of_mem {α : Type} {items : List α} {item : α} (member : item ∈ items)
    (alone : ¬1 < items.length) : items = [item] := by
  obtain ⟨other, same⟩ := List.length_eq_one_iff.mp
    (Nat.le_antisymm (Nat.le_of_not_lt alone) (List.length_pos_of_mem member))
  rw [same, List.mem_singleton] at member
  rw [same, member]

theorem one_lt_length_iff {α : Type} {items : List α} (nodup : items.Nodup) {item : α}
    (member : item ∈ items) : 1 < items.length ↔ ∃ other ∈ items, other ≠ item := by
  constructor
  · intro several
    obtain ⟨first, second, rest, rfl⟩ : ∃ first second rest, items = first :: second :: rest := by
      match items, several with
      | first :: second :: rest, _ => exact ⟨first, second, rest, rfl⟩
    simp only [List.nodup_cons, List.mem_cons, not_or] at nodup
    by_cases same : first = item
    · exact ⟨second, by simp, same ▸ Ne.symm nodup.1.1⟩
    · exact ⟨first, by simp, same⟩
  · rintro ⟨other, inside, apart⟩
    by_contra alone
    rw [eq_singleton_of_mem member alone, List.mem_singleton] at inside
    exact apart inside

/-- A pair is found by its key when no other pair has the same. -/
theorem lookup_eq_some_of_mem {α β : Type} [BEq α] [LawfulBEq α] {pairs : List (α × β)}
    (nodup : (pairs.map (·.1)).Nodup) {pair : α × β} (member : pair ∈ pairs) :
    pairs.lookup pair.1 = some pair.2 := by
  induction pairs with
  | nil => simp at member
  | cons first pairs induction =>
      simp only [List.map_cons, List.nodup_cons] at nodup
      rw [List.lookup_cons]
      rcases List.mem_cons.mp member with rfl | later
      · simp
      · have apart : pair.1 ≠ first.1 := fun same =>
          nodup.1 (same ▸ List.mem_map_of_mem later)
        rw [beq_eq_false_iff_ne.mpr apart]
        exact induction nodup.2 later

end RowGrammar
