import Mathlib.Data.Set.Card
import Mathlib.Order.Bounds.Basic
import RowGrammar.Derivation.Derive
import RowGrammar.Proofs.Derivation.Widths

/-!
# Least context

The search tries every distribution of context over the patterns in conflict until a candidate
passes its test, those with less context first.  So a derived grammar has as little context as any
candidate that passes, and nothing is found only if nothing passes or too many candidates fail.
-/

namespace RowGrammar.Derivation

/-! ## Slots -/

theorem nodup_eraseDups {α : Type} [BEq α] [LawfulBEq α] (items : List α) :
    items.eraseDups.Nodup := by
  generalize size : items.length = bound
  induction bound using Nat.strong_induction_on generalizing items with
  | _ bound induction =>
      cases items with
      | nil => exact List.nodup_nil
      | cons item items =>
          have shorter : (items.filter fun other => !other == item).length < bound := by
            rw [← size, List.length_cons]
            exact Nat.lt_succ_of_le (List.length_filter_le _ _)
          rw [List.eraseDups_cons, List.nodup_cons, List.mem_eraseDups]
          exact ⟨by simp, induction _ shorter _ rfl⟩

theorem mem_conflicts {shapes : ShapeInference} {nodeType : String} {children : List String} :
    (nodeType, children) ∈ shapes.conflicts ↔
      ∃ shape ∈ shapes.shapes, shape.nodeType = nodeType ∧ shape.children = children ∧
        ∃ other ∈ shapes.shapes, other.children = children ∧ other.nodeType ≠ nodeType := by
  have shared {shape : Shape} (member : shape ∈ shapes.shapes) :
      shapes.isShared shape.children ↔ ∃ other ∈ shapes.shapes,
        other.children = shape.children ∧ other.nodeType ≠ shape.nodeType := by
    have listed : shape.nodeType ∈
        (shapes.shapes.filter (·.children == shape.children)).map (·.nodeType) :=
      List.mem_map.mpr ⟨shape, by simp [member], rfl⟩
    rw [ShapeInference.isShared, decide_eq_true_iff,
      one_lt_length_iff (nodup_eraseDups _) (List.mem_eraseDups.mpr listed)]
    simp [and_assoc]
  simp only [ShapeInference.conflicts, List.mem_eraseDups, List.mem_map, List.mem_filter,
    Prod.mk.injEq]
  constructor
  · rintro ⟨shape, ⟨member, conflict⟩, rfl, rfl⟩
    exact ⟨shape, member, rfl, rfl, (shared member).mp conflict⟩
  · rintro ⟨shape, member, rfl, rfl, other⟩
    exact ⟨shape, ⟨member, (shared member).mpr other⟩, rfl, rfl⟩

theorem isGreatest_foldl {shapes : List Shape} (width : Shape → Nat) (filled : shapes ≠ []) :
    IsGreatest {size | ∃ shape ∈ shapes, width shape = size}
      (shapes.foldl (fun size shape => max size (width shape)) 0) := by
  cases largest : (shapes.map width).max? with
  | none => simp_all
  | some greatest =>
      obtain ⟨member, bound⟩ := List.max?_eq_some_iff.mp largest
      have collected : shapes.foldl (fun size shape => max size (width shape)) 0 = greatest := by
        rw [← List.foldl_map, List.foldl_max, largest]
        exact Nat.zero_max _
      rw [collected]
      refine ⟨List.mem_map.mp member, ?_⟩
      rintro size ⟨shape, inside, rfl⟩
      exact bound _ (List.mem_map_of_mem inside)

/-- Slots for exactly the types and children in conflict, each as wide as the most siblings that
any occurrence has. -/
structure Covers (slots : List ContextSlot) (shapes : List Shape) : Prop where
  distinct : (slots.map fun slot => (slot.nodeType, slot.children)).Nodup
  conflicting : ∀ nodeType children,
    (∃ slot ∈ slots, slot.nodeType = nodeType ∧ slot.children = children) ↔
      ∃ shape ∈ shapes, shape.nodeType = nodeType ∧ shape.children = children ∧
        ∃ other ∈ shapes, other.children = children ∧ other.nodeType ≠ nodeType
  left : ∀ slot ∈ slots, IsGreatest
    {size | ∃ shape ∈ shapes, shape.nodeType = slot.nodeType ∧ shape.children = slot.children ∧
      shape.left.length = size} slot.left
  right : ∀ slot ∈ slots, IsGreatest
    {size | ∃ shape ∈ shapes, shape.nodeType = slot.nodeType ∧ shape.children = slot.children ∧
      shape.right.length = size} slot.right

theorem covers_contextSlots (shapes : ShapeInference) :
    Covers (contextSlots shapes) shapes.shapes := by
  have pairs : (contextSlots shapes).map (fun slot => (slot.nodeType, slot.children)) =
      shapes.conflicts := by
    simp [contextSlots, Function.comp_def]
  have listed (nodeType : String) (children : List String) :
      (∃ slot ∈ contextSlots shapes, slot.nodeType = nodeType ∧ slot.children = children) ↔
        (nodeType, children) ∈ shapes.conflicts := by
    simp [← pairs]
  have widest {nodeType : String} {children : List String} (width : Shape → Nat)
      (conflict : (nodeType, children) ∈ shapes.conflicts) :
      IsGreatest {size | ∃ shape ∈ shapes.shapes, shape.nodeType = nodeType ∧
          shape.children = children ∧ width shape = size}
        ((shapes.shapes.filter fun shape =>
          shape.nodeType == nodeType && shape.children == children).foldl
            (fun size shape => max size (width shape)) 0) := by
    obtain ⟨shape, member, rfl, rfl, _⟩ := mem_conflicts.mp conflict
    have greatest := @isGreatest_foldl
      (shapes.shapes.filter fun other =>
        other.nodeType == shape.nodeType && other.children == shape.children) width
      (List.ne_nil_of_mem (List.mem_filter.mpr ⟨member, by simp⟩))
    simpa [and_assoc] using greatest
  refine ⟨?_, fun nodeType children => ?_, fun slot member => ?_, fun slot member => ?_⟩
  · rw [pairs, ShapeInference.conflicts]
    exact nodup_eraseDups _
  · rw [listed, mem_conflicts]
  · obtain ⟨⟨nodeType, children⟩, conflict, rfl⟩ := List.mem_map.mp member
    exact widest (fun shape => shape.left.length) conflict
  · obtain ⟨⟨nodeType, children⟩, conflict, rfl⟩ := List.mem_map.mp member
    exact widest (fun shape => shape.right.length) conflict

/-! ## The order of the search -/

/-- Less context comes first, and then more of it in earlier places. -/
def Precedes (first second : List Nat) : Prop :=
  first.sum < second.sum ∨ first.sum = second.sum ∧ second < first

theorem Precedes.irrefl (widths : List Nat) : ¬Precedes widths widths := by
  rintro (less | ⟨_, less⟩)
  · exact Nat.lt_irrefl _ less
  · exact List.lt_irrefl _ less

theorem Precedes.asymm {first second : List Nat} (before : Precedes first second) :
    ¬Precedes second first := by
  rintro (less | ⟨same, less⟩) <;> rcases before with less' | ⟨same', less'⟩
  · omega
  · omega
  · omega
  · exact List.lt_asymm less less'

/-- The distributions within the capacities that come before one of them. -/
def predecessors (caps widths : List Nat) : Set (List Nat) :=
  {other | Fits caps other ∧ Precedes other widths}

/-- The distributions of all budgets up to a limit. -/
def attempts (limit : Nat) (caps : List Nat) : List (List Nat) :=
  (List.range (limit + 1)).flatMap fun budget => distributions budget caps

theorem mem_attempts {limit : Nat} {caps widths : List Nat} :
    widths ∈ attempts limit caps ↔ Fits caps widths ∧ widths.sum ≤ limit := by
  simp only [attempts, List.mem_flatMap, List.mem_range, mem_distributions]
  constructor
  · rintro ⟨budget, within, fits, rfl⟩
    exact ⟨fits, Nat.le_of_lt_succ within⟩
  · rintro ⟨fits, within⟩
    exact ⟨_, Nat.lt_succ_of_le within, fits, rfl⟩

theorem pairwise_attempts (limit : Nat) (caps : List Nat) :
    (attempts limit caps).Pairwise Precedes := by
  rw [attempts, List.pairwise_flatMap]
  constructor
  · intro budget _
    apply (pairwise_distributions budget caps).imp_of_mem
    intro first second member member' greater
    have total := (mem_distributions.mp member).2
    have total' := (mem_distributions.mp member').2
    exact .inr ⟨total.trans total'.symm, greater⟩
  · apply List.pairwise_lt_range.imp
    intro budget budget' less first member second member'
    have total := (mem_distributions.mp member).2
    have total' := (mem_distributions.mp member').2
    exact .inl (by omega)

section

variable {limit : Nat} {caps widths : List Nat} {before after : List (List Nat)}
  (split : attempts limit caps = before ++ widths :: after)

include split

theorem mem_predecessors {other : List Nat} :
    other ∈ predecessors caps widths ↔ other ∈ before := by
  have ordered := pairwise_attempts limit caps
  have inside : widths ∈ attempts limit caps := by simp [split]
  have listed (other : List Nat) :
      other ∈ attempts limit caps ↔ other ∈ before ∨ other = widths ∨ other ∈ after := by
    simp [split]
  rw [split, List.pairwise_append, List.pairwise_cons] at ordered
  obtain ⟨_, ⟨later, _⟩, earlier⟩ := ordered
  constructor
  · rintro ⟨fits, precedes⟩
    -- A predecessor has no larger total, so it is tried as well, and it is tried first.
    have within : other.sum ≤ limit := by
      have bound := (mem_attempts.mp inside).2
      rcases precedes with less | ⟨same, _⟩ <;> omega
    rcases (listed other).mp (mem_attempts.mpr ⟨fits, within⟩) with found | rfl | found
    · exact found
    · exact absurd precedes (Precedes.irrefl _)
    · exact absurd precedes (later other found).asymm
  · intro found
    exact ⟨(mem_attempts.mp ((listed other).mpr (.inl found))).1,
      earlier other found widths List.mem_cons_self⟩

/-- The search meets a distribution after all of its predecessors. -/
theorem ncard_predecessors : (predecessors caps widths).ncard = before.length := by
  classical
  have listed : predecessors caps widths = (before.toFinset : Set _) := by
    ext other
    rw [List.coe_toFinset, Set.mem_ofPred, mem_predecessors split]
  have nodup : before.Nodup := by
    have ordered := pairwise_attempts limit caps
    rw [split, List.pairwise_append] at ordered
    refine ordered.1.imp fun {first second} precedes => ?_
    rintro rfl
    exact Precedes.irrefl _ precedes
  rw [listed, Set.ncard_coe_finset, List.toFinset_card_of_nodup nodup]

end

/-! ## The end of the search -/

section

variable {candidate : List Nat → Except DeriveError (Option (List Row))} {options : DeriveOptions}

/-- The candidate for a distribution passes its test. -/
def Passes (candidate : List Nat → Except DeriveError (Option (List Row))) (widths : List Nat) :
    Prop :=
  ∃ rows, candidate widths = .ok (some rows)

/-- A distribution whose candidate passes, unlike those of all its predecessors. -/
structure FirstPassing (candidate : List Nat → Except DeriveError (Option (List Row)))
    (caps widths : List Nat) : Prop where
  fits : Fits caps widths
  passes : Passes candidate widths
  first : ∀ other ∈ predecessors caps widths, ¬Passes candidate other

/-- How a search ends that has visited some candidates. -/
def outcomeOf (visited : Except SearchResult Nat) : Outcome :=
  match visited with
  | .error result => result.outcome
  | .ok _ => .ok none

/-- The visit of one distribution, whose budget is its total. -/
def visit (candidate : List Nat → Except DeriveError (Option (List Row)))
    (options : DeriveOptions) (tested : Nat) (widths : List Nat) : Except SearchResult Nat :=
  visitCandidate candidate options widths.sum tested widths

theorem searchWidths_outcome (candidate : List Nat → Except DeriveError (Option (List Row)))
    (options : DeriveOptions) (caps : List Nat) :
    (searchWidths candidate options caps).outcome =
      outcomeOf ((attempts (min options.maxContext (capacity caps)) caps).foldlM
        (visit candidate options) 0) := by
  have visits : (List.range (min options.maxContext (capacity caps) + 1)).foldlM
      (fun tested budget =>
        visitWidths (visitCandidate candidate options budget) budget caps tested) 0 =
      (attempts (min options.maxContext (capacity caps)) caps).foldlM
        (visit candidate options) 0 := by
    rw [attempts, foldlM_flatMap]
    apply foldlM_congr
    intro budget _ tested
    rw [visitWidths_eq]
    apply foldlM_congr
    intro widths member state
    rw [visit, (mem_distributions.mp member).2]
  rw [searchWidths, visits]
  cases (attempts (min options.maxContext (capacity caps)) caps).foldlM
    (visit candidate options) 0 <;> rfl

theorem outcomeOf_fails {tries : List (List Nat)}
    (fails : ∀ widths ∈ tries, candidate widths = .ok none) (tested : Nat) :
    outcomeOf (tries.foldlM (visit candidate options) tested) = .ok none := by
  induction tries generalizing tested with
  | nil => rfl
  | cons widths tries induction =>
      rw [List.foldlM_cons, visit, visitCandidate]
      split_ifs
      · rfl
      · rw [fails widths List.mem_cons_self]
        exact induction (fun other member => fails other (List.mem_cons_of_mem _ member)) _

theorem outcomeOf_passes {before after : List (List Nat)} {widths : List Nat} {rows : List Row}
    (fails : ∀ other ∈ before, candidate other = .ok none)
    (passes : candidate widths = .ok (some rows)) (tested : Nat) :
    outcomeOf ((before ++ widths :: after).foldlM (visit candidate options) tested) =
      .ok (if tested + before.length < options.maxTrials then
        some ⟨rows, tested + before.length + 1, widths.sum⟩ else none) := by
  induction before generalizing tested with
  | nil =>
      rw [List.nil_append, List.foldlM_cons, visit, visitCandidate, passes]
      split_ifs with spent within within
      · exact absurd within (Nat.not_lt_of_le (Nat.le_of_lt_succ spent))
      · rfl
      · rfl
      · exact absurd (Nat.lt_succ_of_le (Nat.le_of_not_lt within)) spent
  | cons other before induction =>
      have rest := induction (fun widths member => fails widths (List.mem_cons_of_mem _ member))
        (tested + 1)
      rw [List.cons_append, List.foldlM_cons, visit, visitCandidate, fails other List.mem_cons_self,
        List.length_cons]
      by_cases spent : options.maxTrials < tested + 1
      · rw [if_pos spent, if_neg (by omega)]
        rfl
      · rw [if_neg spent]
        rw [Nat.add_right_comm, Nat.add_assoc] at rest
        exact rest

variable {caps : List Nat}
  (decided : ∀ widths, Fits caps widths → widths.sum ≤ options.maxContext →
    ∃ result, candidate widths = .ok result)

include decided

/-- Either no candidate passes and nothing is found, or the first one that passes is found unless
too many candidates come before it. -/
theorem searchWidths_cases :
    ((∀ widths, Fits caps widths → widths.sum ≤ min options.maxContext (capacity caps) →
        ¬Passes candidate widths) ∧
      (searchWidths candidate options caps).outcome = .ok none) ∨
    ∃ widths rows, FirstPassing candidate caps widths ∧ candidate widths = .ok (some rows) ∧
      (searchWidths candidate options caps).outcome =
        .ok (if (predecessors caps widths).ncard < options.maxTrials then
          some ⟨rows, (predecessors caps widths).ncard + 1, widths.sum⟩ else none) := by
  classical
  have failed {widths : List Nat}
      (member : widths ∈ attempts (min options.maxContext (capacity caps)) caps)
      (fails : ¬Passes candidate widths) : candidate widths = .ok none := by
    obtain ⟨fits, within⟩ := mem_attempts.mp member
    obtain ⟨result, found⟩ := decided widths fits (Nat.le_trans within (Nat.min_le_left _ _))
    cases result with
    | none => exact found
    | some rows => exact absurd ⟨rows, found⟩ fails
  cases found : (attempts (min options.maxContext (capacity caps)) caps).find?
      (decide <| Passes candidate ·) with
  | none =>
      have fails : ∀ widths ∈ attempts (min options.maxContext (capacity caps)) caps,
          ¬Passes candidate widths := by
        simpa using found
      refine .inl ⟨fun widths fits within => fails widths (mem_attempts.mpr ⟨fits, within⟩), ?_⟩
      rw [searchWidths_outcome]
      exact outcomeOf_fails (fun widths member => failed member (fails widths member)) 0
  | some widths =>
      obtain ⟨passes, before, after, split, fails⟩ := List.find?_eq_some_iff_append.mp found
      obtain ⟨rows, passes⟩ := of_decide_eq_true passes
      have fails : ∀ other ∈ before, ¬Passes candidate other := by
        simpa using fails
      refine .inr ⟨widths, rows, ⟨?_, ⟨rows, passes⟩, ?_⟩, passes, ?_⟩
      · have inside : widths ∈ attempts (min options.maxContext (capacity caps)) caps := by
          simp [split]
        exact (mem_attempts.mp inside).1
      · exact fun other member => fails other ((mem_predecessors split).mp member)
      · rw [searchWidths_outcome, split, ncard_predecessors split]
        have fails : ∀ other ∈ before, candidate other = .ok none :=
          fun other member => failed (by simp [split, member]) (fails other member)
        simpa using outcomeOf_passes fails passes 0

end

/-- No candidate that passes has less context than the first one. -/
theorem FirstPassing.isLeast {candidate : List Nat → Except DeriveError (Option (List Row))}
    {caps widths : List Nat} (first : FirstPassing candidate caps widths) :
    IsLeast {total | ∃ widths, Fits caps widths ∧ Passes candidate widths ∧ widths.sum = total}
      widths.sum := by
  refine ⟨⟨widths, first.fits, first.passes, rfl⟩, ?_⟩
  rintro total ⟨other, fits, passes, rfl⟩
  by_contra less
  exact first.first other ⟨fits, .inl (Nat.lt_of_not_le less)⟩ passes

/-- The rows of the candidate for a distribution. -/
def candidateRows (parser : String) (seeds : List Row) (tokens : TokenInference)
    (shapes : ShapeInference) (widths : List Nat) : List Row :=
  seeds ++ tokens.rows parser ++ parseRows parser shapes (contextSlots shapes) widths

/-- A search finds the first candidate that passes, with the least context there can be, unless too
many candidates come before it; without errors there is no other way for it to end. -/
theorem search_minimal {parser : String} {seeds : List Row} {tokens : TokenInference}
    {shapes : ShapeInference} {source : String} {example_ : Tree} {options : DeriveOptions}
    (decided : ∀ widths, Fits (capacities (contextSlots shapes)) widths →
      widths.sum ≤ options.maxContext → ∃ result,
        trial (candidateRows parser seeds tokens shapes widths) source example_ options =
          .ok result) :
    let caps := capacities (contextSlots shapes)
    let candidate := fun widths =>
      trial (candidateRows parser seeds tokens shapes widths) source example_ options
    let outcome := (search parser seeds tokens shapes source example_ options).outcome
    Covers (contextSlots shapes) shapes.shapes ∧
    (∃ found, outcome = .ok found) ∧
    (∀ derived, outcome = .ok (some derived) →
      IsLeast {total | ∃ widths, Fits caps widths ∧ Passes candidate widths ∧ widths.sum = total}
        derived.contextBudget ∧
      ∃ widths, FirstPassing candidate caps widths ∧
        candidate widths = .ok (some derived.rows) ∧ widths.sum = derived.contextBudget ∧
        derived.trials = (predecessors caps widths).ncard + 1) ∧
    (outcome = .ok none →
      (∀ widths, Fits caps widths → widths.sum ≤ min options.maxContext (capacity caps) →
        ¬Passes candidate widths) ∨
      ∃ widths, FirstPassing candidate caps widths ∧
        options.maxTrials ≤ (predecessors caps widths).ncard) := by
  intro caps candidate outcome
  refine ⟨covers_contextSlots shapes, ?_⟩
  have ended : outcome = (searchWidths candidate options caps).outcome := rfl
  clear_value outcome
  subst ended
  rcases searchWidths_cases decided with ⟨fails, ended⟩ | ⟨widths, rows, first, passes, ended⟩
  · rw [ended]
    exact ⟨⟨_, rfl⟩, nofun, fun _ => .inl fails⟩
  · rw [ended]
    refine ⟨⟨_, rfl⟩, fun derived found => ?_, fun found => .inr ⟨widths, first, ?_⟩⟩
    · split_ifs at found
      · cases found
        exact ⟨first.isLeast, widths, first, passes, rfl, rfl⟩
      · cases found
    · split_ifs at found with within
      · cases found
      · exact Nat.le_of_not_lt within

/-- Equal numbers on both sides of a comma, as branches of different types. -/
def pairExample : Tree :=
  .branch "Root" [.branch "Aa" [.leaf "Num" "1"], .leaf "Comma" ",", .branch "Bb" [.leaf "Num" "1"]]

def pairTokens : TokenInference :=
  ((inferTokens "Root" "1,1" pairExample []).toOption).get (by decide +kernel)

/-- The comma tells the numbers apart, and nothing less does. -/
theorem search_pair :
    ∃ derived, (search "Root" [] pairTokens (.infer pairExample) "1,1" pairExample
        { maxContext := 1 }).outcome = .ok (some derived) ∧
      derived.trials = 2 ∧
      IsLeast {total | ∃ widths, Fits (capacities (contextSlots (.infer pairExample))) widths ∧
        Passes (fun widths => trial
          (candidateRows "Root" [] pairTokens (.infer pairExample) widths) "1,1" pairExample
            { maxContext := 1 }) widths ∧ widths.sum = total} 1 := by
  have tried : ∀ widths ∈ attempts 1 (capacities (contextSlots (.infer pairExample))),
      (trial (candidateRows "Root" [] pairTokens (.infer pairExample) widths) "1,1" pairExample
        { maxContext := 1 }).toOption.isSome := by
    decide +kernel
  obtain ⟨_, ⟨found, ended⟩, minimal, _⟩ := @search_minimal "Root" [] pairTokens
    (.infer pairExample) "1,1" pairExample { maxContext := 1 } fun widths fits within =>
      ⟨_, eq_ok_get (tried widths (mem_attempts.mpr ⟨fits, within⟩))⟩
  have shown : ((search "Root" [] pairTokens (.infer pairExample) "1,1" pairExample
      { maxContext := 1 }).outcome.toOption.bind id).map
        (fun derived => (derived.contextBudget, derived.trials)) = some (1, 2) := by
    decide +kernel
  rw [ended] at shown
  obtain ⟨derived, rfl, counted⟩ := Option.map_eq_some_iff.mp shown
  obtain ⟨budget, trials⟩ := Prod.mk.inj counted
  exact ⟨derived, ended, trials, budget ▸ (minimal derived ended).1⟩

end RowGrammar.Derivation
