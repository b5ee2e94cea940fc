import Mathlib.Data.List.Nodup
import Mathlib.Data.Set.Card

/-!
# Orderings

An ordering arranges items into an ordered list of non-empty groups, as the precedence groups of a
parser arrange its rules.  One item after the other is put into a group or becomes a new one, and
this gives every ordering once.
-/

namespace RowGrammar

section

variable {α : Type}

/-- The ways to add an item to an ordered list of groups: as a group of its own somewhere, or to one
of the groups, where it comes first. -/
def placements (item : α) : List (List α) → List (List (List α))
  | [] => [[[item]]]
  | group :: groups =>
      ([item] :: group :: groups) :: ((item :: group) :: groups) ::
        (placements item groups).map (group :: ·)

/-- The ways to arrange items into an ordered list of non-empty groups.  Within a group they stay in
the order they are given in. -/
def orderings : List α → List (List (List α))
  | [] => [[]]
  | item :: items => (orderings items).flatMap (placements item)

theorem mem_placements {item : α} {groups placed : List (List α)} :
    placed ∈ placements item groups ↔
      (∃ before after, groups = before ++ after ∧ placed = before ++ [item] :: after) ∨
      ∃ before group after, groups = before ++ group :: after ∧
        placed = before ++ (item :: group) :: after := by
  induction groups generalizing placed with
  | nil =>
      rw [placements, List.mem_singleton]
      constructor
      · intro same
        exact .inl ⟨[], [], rfl, same⟩
      · intro placed
        obtain ⟨before, after, none, rfl⟩ | ⟨before, group, after, none, _⟩ := placed
        · obtain ⟨rfl, rfl⟩ := List.append_eq_nil_iff.mp none.symm
          rfl
        · exact absurd none.symm (by simp)
  | cons group groups induction =>
      rw [placements, List.mem_cons, List.mem_cons, List.mem_map]
      constructor
      · intro placed
        obtain rfl | rfl | ⟨later, member, rfl⟩ := placed
        · exact .inl ⟨[], group :: groups, rfl, rfl⟩
        · exact .inr ⟨[], group, groups, rfl, rfl⟩
        · obtain ⟨before, after, rfl, rfl⟩ | ⟨before, other, after, rfl, rfl⟩ :=
            induction.mp member
          · exact .inl ⟨group :: before, after, rfl, rfl⟩
          · exact .inr ⟨group :: before, other, after, rfl, rfl⟩
      · intro placed
        obtain ⟨before, after, split, rfl⟩ | ⟨before, other, after, split, rfl⟩ := placed
        · cases before with
          | nil =>
              cases split
              exact .inl rfl
          | cons first before =>
              cases split
              exact .inr (.inr ⟨_, induction.mpr (.inl ⟨before, after, rfl, rfl⟩), rfl⟩)
        · cases before with
          | nil =>
              cases split
              exact .inr (.inl rfl)
          | cons first before =>
              cases split
              exact .inr (.inr ⟨_, induction.mpr (.inr ⟨before, other, after, rfl, rfl⟩), rfl⟩)

/-- An ordering has every item once, in groups that are not empty and keep the order of the items.
-/
structure Orders (groups : List (List α)) (items : List α) : Prop where
  filled : ∀ group ∈ groups, group ≠ []
  kept : ∀ group ∈ groups, group.Sublist items
  complete : groups.flatten.Perm items

theorem Orders.of_placement {item : α} {items : List α} {groups placed : List (List α)}
    (orders : Orders groups items) (member : placed ∈ placements item groups) :
    Orders placed (item :: items) := by
  have origin (group : List α) (inside : group ∈ placed) :
      group = [item] ∨ (∃ other ∈ groups, group = item :: other) ∨ group ∈ groups := by
    obtain ⟨before, after, rfl, rfl⟩ | ⟨before, other, after, rfl, rfl⟩ := mem_placements.mp member
    · simp only [List.mem_append, List.mem_cons] at inside ⊢
      tauto
    · simp only [List.mem_append, List.mem_cons] at inside ⊢
      obtain early | rfl | late := inside
      · exact .inr (.inr (.inl early))
      · exact .inr (.inl ⟨other, .inr (.inl rfl), rfl⟩)
      · exact .inr (.inr (.inr (.inr late)))
  refine ⟨?_, ?_, ?_⟩
  · intro group inside
    obtain rfl | ⟨other, _, rfl⟩ | old := origin group inside
    · exact List.cons_ne_nil _ _
    · exact List.cons_ne_nil _ _
    · exact orders.filled group old
  · intro group inside
    obtain rfl | ⟨other, old, rfl⟩ | old := origin group inside
    · exact List.singleton_sublist.mpr List.mem_cons_self
    · exact (orders.kept other old).cons_cons item
    · exact (orders.kept group old).cons item
  · refine List.Perm.trans ?_ (orders.complete.cons item)
    obtain ⟨before, after, rfl, rfl⟩ | ⟨before, other, after, rfl, rfl⟩ := mem_placements.mp member
    · simp only [List.flatten_append, List.flatten_cons, List.singleton_append]
      exact List.perm_middle
    · simp only [List.flatten_append, List.flatten_cons, List.cons_append]
      exact List.perm_middle

/-- Without its first item an ordering is one of the other items. -/
theorem Orders.exists_placement {item : α} {items : List α} {groups : List (List α)}
    (orders : Orders groups (item :: items)) (distinct : (item :: items).Nodup) :
    ∃ rest, Orders rest items ∧ groups ∈ placements item rest := by
  obtain ⟨fresh, _⟩ := List.nodup_cons.mp distinct
  obtain ⟨filled, kept, complete⟩ := orders
  obtain ⟨group, member, holds⟩ := List.mem_flatten.mp
    (complete.mem_iff.mpr List.mem_cons_self)
  obtain ⟨before, after, rfl⟩ := List.append_of_mem member
  -- Only one group has the first item, and there it comes first.
  obtain ⟨rest, rfl, below⟩ : ∃ rest, group = item :: rest ∧ rest.Sublist items := by
    cases kept group member with
    | cons _ below => exact absurd (below.subset holds) fresh
    | cons_cons _ below => exact ⟨_, rfl, below⟩
  have others : (before.flatten ++ (rest ++ after.flatten)).Perm items := by
    simp only [List.flatten_append, List.flatten_cons, List.cons_append] at complete
    exact (List.perm_middle.symm.trans complete).cons_inv
  have apart (other : List α) (inside : other ∈ before ∨ other ∈ after) :
      other ≠ [] ∧ other.Sublist items := by
    have listed : other ∈ before ++ (item :: rest) :: after := by
      rw [List.mem_append, List.mem_cons]
      exact inside.imp id .inr
    have absent : item ∉ other := by
      intro held
      refine fresh (others.subset ?_)
      simp only [List.mem_append, List.mem_flatten]
      obtain early | late := inside
      · exact .inl ⟨other, early, held⟩
      · exact .inr (.inr ⟨other, late, held⟩)
    refine ⟨filled other listed, ?_⟩
    cases kept other listed with
    | cons _ below => exact below
    | cons_cons _ below => exact absurd List.mem_cons_self absent
  -- The item was a group of its own if nothing is left of its group.
  by_cases empty : rest = []
  · subst empty
    refine ⟨before ++ after, ⟨?_, ?_, by simpa using others⟩,
      mem_placements.mpr (.inl ⟨before, after, rfl, rfl⟩)⟩
    · exact fun other inside => (apart other (List.mem_append.mp inside)).1
    · exact fun other inside => (apart other (List.mem_append.mp inside)).2
  · refine ⟨before ++ rest :: after, ⟨?_, ?_, by simpa using others⟩,
      mem_placements.mpr (.inr ⟨before, rest, after, rfl, rfl⟩)⟩
    · rw [List.forall_mem_append, List.forall_mem_cons]
      exact ⟨fun other early => (apart other (.inl early)).1, empty,
        fun other late => (apart other (.inr late)).1⟩
    · rw [List.forall_mem_append, List.forall_mem_cons]
      exact ⟨fun other early => (apart other (.inl early)).2, below,
        fun other late => (apart other (.inr late)).2⟩

/-- The orderings are just the ways to order the items. -/
theorem mem_orderings {items : List α} (distinct : items.Nodup) {groups : List (List α)} :
    groups ∈ orderings items ↔ Orders groups items := by
  induction items generalizing groups with
  | nil =>
      rw [orderings, List.mem_singleton]
      constructor
      · intro none
        subst none
        exact ⟨by simp, by simp, .nil⟩
      · intro orders
        have empty := List.perm_nil.mp orders.complete
        rw [List.flatten_eq_nil_iff] at empty
        refine List.eq_nil_iff_forall_not_mem.mpr fun group member => ?_
        exact orders.filled group member (empty group member)
  | cons item items induction =>
      have later := (List.nodup_cons.mp distinct).2
      rw [orderings, List.mem_flatMap]
      constructor
      · intro placed
        obtain ⟨rest, member, placed⟩ := placed
        exact ((induction later).mp member).of_placement placed
      · intro orders
        obtain ⟨rest, orders, placed⟩ := orders.exists_placement distinct
        exact ⟨rest, (induction later).mpr orders, placed⟩

/-- Groups without one item, and without those it leaves empty. -/
def withoutItem [DecidableEq α] (item : α) (groups : List (List α)) : List (List α) :=
  (groups.map (·.erase item)).filter (· ≠ [])

theorem withoutItem_of_fresh [DecidableEq α] {item : α} {groups : List (List α)}
    (filled : ∀ group ∈ groups, group ≠ []) (fresh : item ∉ groups.flatten) :
    withoutItem item groups = groups := by
  have erased : groups.map (·.erase item) = groups := by
    conv_rhs => rw [← List.map_id groups]
    apply List.map_congr_left
    intro group inside
    apply List.erase_of_not_mem
    exact fun held => fresh (List.mem_flatten_of_mem inside held)
  rw [withoutItem, erased, List.filter_eq_self]
  simpa using filled

theorem withoutItem_of_placement [DecidableEq α] {item : α} {groups placed : List (List α)}
    (filled : ∀ group ∈ groups, group ≠ []) (fresh : item ∉ groups.flatten)
    (member : placed ∈ placements item groups) : withoutItem item placed = groups := by
  have kept := withoutItem_of_fresh filled fresh
  obtain ⟨before, after, rfl, rfl⟩ | ⟨before, group, after, rfl, rfl⟩ := mem_placements.mp member
  · rw [← kept]
    simp [withoutItem]
  · rw [List.forall_mem_append, List.forall_mem_cons] at filled
    simp only [List.flatten_append, List.flatten_cons, List.mem_append, not_or] at fresh
    rw [← kept]
    simp [withoutItem, List.erase_of_not_mem fresh.2.1, filled.2.1]

theorem nodup_placements {item : α} {groups : List (List α)}
    (filled : ∀ group ∈ groups, group ≠ []) (fresh : item ∉ groups.flatten) :
    (placements item groups).Nodup := by
  induction groups with
  | nil => exact List.nodup_singleton _
  | cons group groups induction =>
      rw [List.forall_mem_cons] at filled
      rw [List.flatten_cons, List.mem_append, not_or] at fresh
      have apart {first : List α} {rest : List (List α)} (held : item ∈ first) :
          first :: rest ∉ (placements item groups).map (group :: ·) := by
        intro member
        obtain ⟨later, _, same⟩ := List.mem_map.mp member
        exact fresh.1 (List.head_eq_of_cons_eq same ▸ held)
      rw [placements, List.nodup_cons, List.nodup_cons, List.mem_cons, not_or]
      refine ⟨⟨?_, apart List.mem_cons_self⟩, apart List.mem_cons_self,
        (induction filled.2 fresh.2).map List.cons_injective⟩
      intro same
      have empty := List.head_eq_of_cons_eq same
      exact filled.1 (List.tail_eq_of_cons_eq empty).symm

/-- No ordering is listed twice. -/
theorem nodup_orderings {items : List α} (distinct : items.Nodup) : (orderings items).Nodup := by
  classical
  induction items with
  | nil => exact List.nodup_singleton _
  | cons item items induction =>
      obtain ⟨fresh, later⟩ := List.nodup_cons.mp distinct
      have each (groups : List (List α)) (member : groups ∈ orderings items) :
          (∀ group ∈ groups, group ≠ []) ∧ item ∉ groups.flatten := by
        have orders := (mem_orderings later).mp member
        exact ⟨orders.filled, fun held => fresh (orders.complete.subset held)⟩
      rw [orderings, List.nodup_flatMap]
      constructor
      · intro groups member
        obtain ⟨filled, fresh⟩ := each groups member
        exact nodup_placements filled fresh
      · refine (induction later).pairwise_of_forall_ne fun groups member others member' apart => ?_
        intro placed here there
        obtain ⟨filled, fresh⟩ := each groups member
        obtain ⟨filled', fresh'⟩ := each others member'
        refine apart ?_
        rw [← withoutItem_of_placement filled fresh here,
          withoutItem_of_placement filled' fresh' there]

theorem ncard_orders {items : List α} (distinct : items.Nodup) :
    {groups | Orders groups items}.ncard = (orderings items).length := by
  classical
  have listed : {groups | Orders groups items} = ((orderings items).toFinset : Set _) := by
    ext groups
    rw [List.coe_toFinset, Set.mem_ofPred, Set.mem_ofPred, mem_orderings distinct]
  rw [listed, Set.ncard_coe_finset, List.toFinset_card_of_nodup (nodup_orderings distinct)]

example : (orderings [0, 1, 2]).length = 13 := by decide

end

end RowGrammar
