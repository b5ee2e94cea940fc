import Mathlib.Data.List.SplitBy

/-!
# Runs

A list falls into runs, the longest stretches on which a key does not change.  Runs stay runs when
every item is replaced by a block with its key.  A stretch with a true key that cannot be made any
longer is a run.
-/

namespace RowGrammar

section

variable {α β : Type} {key : α → Bool}

/-- The longest stretches of a list on which the key does not change. -/
def runs (key : α → Bool) (list : List α) : List (List α) :=
  list.splitBy (key · == key ·)

/-- The key is the same for all items. -/
def Level (key : α → Bool) (list : List α) : Prop :=
  ∀ one ∈ list, ∀ two ∈ list, key one = key two

theorem flatten_runs (key : α → Bool) (list : List α) : (runs key list).flatten = list :=
  List.flatten_splitBy _ list

theorem ne_nil_of_mem_runs {list run : List α} (member : run ∈ runs key list) : run ≠ [] :=
  List.ne_nil_of_mem_splitBy member

theorem level_of_mem_runs {list run : List α} (member : run ∈ runs key list) :
    Level key run := by
  have chain : run.IsChain fun one two => key one = key two :=
    (List.isChain_of_mem_splitBy member).imp fun _ _ same => beq_iff_eq.mp same
  have symmetric : Std.Symm fun one two : α => key one = key two := ⟨fun _ _ same => same.symm⟩
  intro one first two second
  have pairs : run.Pairwise fun one two => key one = key two := List.isChain_iff_pairwise.mp chain
  exact pairs.forall_of_forall (R := fun one two => key one = key two) (fun _ _ => rfl) first second

/-- Neighbouring runs have different keys. -/
theorem isChain_runs (key : α → Bool) (list : List α) :
    (runs key list).IsChain fun one two => ∀ a ∈ one, ∀ b ∈ two, key a ≠ key b := by
  refine (List.isChain_getLast_head_splitBy (key · == key ·) list).imp_of_mem_imp ?_
  rintro one two first second ⟨filled, filled_, differ⟩ a left b right
  rw [level_of_mem_runs first a left _ (List.getLast_mem filled),
    level_of_mem_runs second b right _ (List.head_mem filled_)]
  exact beq_eq_false_iff_ne.mp differ

theorem runs_flatMap {other : β → Bool} (block : α → List β) (filled : ∀ a, block a ≠ [])
    (same : ∀ a, ∀ b ∈ block a, other b = key a) (list : List α) :
    runs other (list.flatMap block) = (runs key list).map (·.flatMap block) := by
  have joined : list.flatMap block = ((runs key list).map (·.flatMap block)).flatten := by
    conv => lhs; rw [← flatten_runs key list]
    simp [List.flatMap_def, List.map_flatten, List.flatten_flatten, Function.comp_def]
  rw [joined]
  apply List.splitBy_flatten
  · intro empty
    obtain ⟨run, member, nothing⟩ := List.mem_map.mp empty
    obtain ⟨a, inside⟩ := List.exists_mem_of_ne_nil run (ne_nil_of_mem_runs member)
    exact filled a (List.flatMap_eq_nil_iff.mp nothing a inside)
  · intro blocks among
    obtain ⟨run, member, rfl⟩ := List.mem_map.mp among
    apply List.Pairwise.isChain
    apply List.pairwise_of_forall_mem_list
    intro one first two second
    obtain ⟨a, left, first⟩ := List.mem_flatMap.mp first
    obtain ⟨b, right, second⟩ := List.mem_flatMap.mp second
    rw [same a one first, same b two second]
    exact beq_iff_eq.mpr (level_of_mem_runs member a left b right)
  · apply (List.isChain_map _).mpr
    refine (isChain_runs key list).imp_of_mem_imp ?_
    intro one two first second differ
    have filled_ {run : List α} (member : run ∈ runs key list) : run.flatMap block ≠ [] := by
      intro nothing
      obtain ⟨a, inside⟩ := List.exists_mem_of_ne_nil run (ne_nil_of_mem_runs member)
      exact filled a (List.flatMap_eq_nil_iff.mp nothing a inside)
    refine ⟨filled_ first, filled_ second, beq_eq_false_iff_ne.mpr ?_⟩
    obtain ⟨a, left, last⟩ := List.mem_flatMap.mp (List.getLast_mem (filled_ first))
    obtain ⟨b, right, head⟩ := List.mem_flatMap.mp (List.head_mem (filled_ second))
    rw [same a _ last, same b _ head]
    exact differ a left b right

theorem takeWhile_append_eq {run after : List α} (holds : ∀ a ∈ run, key a)
    (stops : ∀ a ∈ after.head?, key a = false) : (run ++ after).takeWhile key = run := by
  rw [List.takeWhile_append_of_pos holds]
  cases after with
  | nil => simp
  | cons a after => simp [stops a rfl]

/-- Blocks of which the first has no true key do not start with one. -/
theorem forall_mem_head?_flatten {blocks : List (List α)} (filled : [] ∉ blocks)
    (unmarked : ∀ block ∈ blocks.head?, ∀ a ∈ block, key a = false) :
    ∀ a ∈ blocks.flatten.head?, key a = false := by
  cases blocks with
  | nil => simp
  | cons block blocks =>
      cases block with
      | nil => exact absurd List.mem_cons_self filled
      | cons c block =>
          rintro _ ⟨⟩
          exact unmarked (c :: block) rfl c List.mem_cons_self

/-- Blocks of which the last has no true key do not end in one. -/
theorem forall_mem_getLast?_flatten {blocks : List (List α)} (filled : [] ∉ blocks)
    (unmarked : ∀ block ∈ blocks.getLast?, ∀ a ∈ block, key a = false) :
    ∀ a ∈ blocks.flatten.getLast?, key a = false := by
  rcases List.eq_nil_or_concat blocks with rfl | ⟨blocks, block, rfl⟩
  · simp
  · have present : block ≠ [] := by
      rintro rfl
      exact filled (by simp)
    intro a last
    rw [List.concat_eq_append, List.flatten_append, List.flatten_singleton,
      List.getLast?_append_of_ne_nil _ present] at last
    exact unmarked block (by simp) a (List.mem_of_getLast? last)

/-- A run with a true key cannot be made any longer. -/
theorem unextended_of_runs_eq {list run : List α} {before after : List (List α)}
    (split : runs key list = before ++ run :: after) (holds : ∀ a ∈ run, key a) :
    (∀ a ∈ before.flatten.getLast?, key a = false) ∧
      ∀ a ∈ after.flatten.head?, key a = false := by
  have filled {each : List α} (member : each ∈ before ++ run :: after) : each ≠ [] :=
    ne_nil_of_mem_runs (split ▸ member)
  have chain := split ▸ isChain_runs key list
  obtain ⟨first, inside⟩ := List.exists_mem_of_ne_nil run (filled (by simp))
  constructor
  · apply forall_mem_getLast?_flatten (fun empty => filled (List.mem_append_left _ empty) rfl)
    intro block last a member
    have differ := (List.isChain_append.mp chain).2.2 block last run rfl a member first inside
    simpa [holds first inside] using differ
  · apply forall_mem_head?_flatten
      (fun empty => filled (List.mem_append_right _ (List.mem_cons_of_mem _ empty)) rfl)
    intro block next a member
    have differ := chain.right_of_append.rel_head? next first inside a member
    simpa [holds first inside] using differ

/-- A stretch of blocks with true keys that cannot be made any longer is one of the blocks, when no
two of these stand side by side. -/
theorem mem_of_unextended (key : α → Bool) {blocks : List (List α)} (filled : [] ∉ blocks)
    (level : ∀ block ∈ blocks, Level key block)
    (apart : blocks.IsChain fun one two => (∀ a ∈ one, key a = false) ∨ ∀ b ∈ two, key b = false)
    {before run after : List α} (present : run ≠ []) (holds : ∀ a ∈ run, key a)
    (starts : ∀ a ∈ before.getLast?, key a = false) (stops : ∀ a ∈ after.head?, key a = false)
    (joined : before ++ (run ++ after) = blocks.flatten) : run ∈ blocks := by
  induction blocks generalizing before with
  | nil =>
      rw [List.flatten_nil, List.append_eq_nil_iff, List.append_eq_nil_iff] at joined
      exact absurd joined.2.1 present
  | cons block blocks induction =>
      rw [List.mem_cons, not_or] at filled
      have later {before : List α} (starts : ∀ a ∈ before.getLast?, key a = false)
          (joined : before ++ (run ++ after) = blocks.flatten) : run ∈ block :: blocks :=
        List.mem_cons_of_mem _ (induction filled.2
          (fun block member => level block (List.mem_cons_of_mem _ member)) apart.tail starts
          joined)
      rw [List.flatten_cons] at joined
      rcases List.append_eq_append_iff.mp joined with ⟨inside, here, rest⟩ | ⟨more, rfl, rest⟩
      · obtain ⟨first, others, rfl⟩ := List.exists_cons_of_ne_nil present
        cases inside with
        | nil => exact @later [] (by simp) rest
        | cons c inside =>
            obtain ⟨rfl, _⟩ := List.cons.inj rest
            have within : first ∈ block := by simp [here]
            have marked (a : α) (member : a ∈ block) : key a := by
              rw [level block List.mem_cons_self a member first within]
              exact holds first List.mem_cons_self
            rcases List.eq_nil_or_concat before with rfl | ⟨_, last, rfl⟩
            · have ends := forall_mem_head?_flatten filled.2 fun next second =>
                ((List.isChain_cons.mp apart).1 next second).resolve_left fun unmarked =>
                  Bool.false_ne_true ((unmarked first within).symm.trans (marked first within))
              rw [List.nil_append] at joined
              rw [← takeWhile_append_eq holds stops, joined, takeWhile_append_eq marked ends]
              exact List.mem_cons_self
            · have unmarked := starts last (by simp)
              exact absurd ((marked last (by simp [here])).symm.trans unmarked) (by decide)
      · apply later _ rest.symm
        exact fun a last => starts a (List.mem_getLast?_append_of_mem_getLast? last)

end

end RowGrammar
