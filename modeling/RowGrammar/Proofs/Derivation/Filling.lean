import Mathlib.Data.Nat.PSub
import RowGrammar.Proofs.Derivation.Widths

/-!
# Filling slots one after the other

Distributions can be found with one stack of shares: a slot tries its shares from the largest down,
puts each of them on the stack while the other slots are filled with what is left, and stops at the
first share that leaves too much.  This comes to the same as going through the list of
distributions.  A visitor is shown every distribution once, or those up to the one where it breaks.
-/

namespace RowGrammar.Derivation

variable {σ ε : Type}

/-! ## The stack of shares -/

/-- Tries the shares of a slot below a bound, the largest first, until one of them leaves more than
the other slots can take.  The other slots are filled by `fill`, on top of the share.  What this
comes to is the end of the visits with the stack that is left, and nothing if more is taken from a
budget than there is. -/
def tryShares (fill : Nat → σ → List Nat → Option (Except ε σ × List Nat)) (budget rest : Nat) :
    Nat → σ → List Nat → Option (Except ε σ × List Nat)
  | 0, state, stack => some (.ok state, stack)
  | share + 1, state, stack => do
      let left ← budget.psub share
      if rest < left then
        return (.ok state, stack)
      let (visited, stack) ← fill left state (share :: stack)
      match visited with
      | .ok state => tryShares fill budget rest share state stack.tail
      | .error error => return (.error error, stack.tail)

/-- Fills the slots with the given capacities on top of a stack of shares, and visits all of the
stack whenever nothing is left of the budget. -/
def fillSlots (visit : σ → List Nat → Except ε σ) :
    List Nat → Nat → σ → List Nat → Option (Except ε σ × List Nat)
  | [], budget, state, stack =>
      some (if budget = 0 then visit state stack.reverse else .ok state, stack)
  | cap :: caps, budget, state, stack =>
      tryShares (fillSlots visit caps) budget (capacity caps) (min cap budget + 1) state stack

/-- Shares that are within the budget are tried without a difference below zero, down to the least
that the other slots allow. -/
theorem tryShares_eq {fill : Nat → σ → List Nat → Option (Except ε σ × List Nat)}
    {visits : Nat → σ → List Nat → Except ε σ}
    (fills : ∀ left state stack, fill left state stack = some (visits left state stack, stack))
    (budget rest : Nat) {bound : Nat} (within : bound ≤ budget + 1) (state : σ)
    (stack : List Nat) :
    tryShares fill budget rest bound state stack =
      some ((List.range' (budget - rest) (bound - (budget - rest))).reverse.foldlM
        (fun state share => visits (budget - share) state (share :: stack)) state, stack) := by
  induction bound generalizing state with
  | zero =>
      rw [tryShares, Nat.zero_sub]
      rfl
  | succ share induction =>
      have taken : budget.psub share = some (budget - share) :=
        Nat.psub_eq_sub (Nat.le_of_succ_le_succ within)
      rw [tryShares, taken]
      by_cases much : rest < budget - share
      · -- A smaller share would leave even more.
        have none_left : share + 1 - (budget - rest) = 0 := by omega
        simp [much, none_left, pure, Except.pure]
      · have one_more : share + 1 - (budget - rest) = share - (budget - rest) + 1 := by omega
        have last : budget - rest + (share - (budget - rest)) = share := by omega
        rw [one_more, List.range'_1_concat, last, List.reverse_append, List.reverse_singleton,
          List.singleton_append, List.foldlM_cons]
        simp only [Option.bind_eq_bind, Option.bind_some, if_neg much, fills, List.tail_cons]
        cases visits (budget - share) state (share :: stack) with
        | error error => rfl
        | ok state => exact induction (Nat.le_of_succ_le within) state

/-- Filling slots visits the distributions and leaves the stack as it was. -/
theorem fillSlots_eq (visit : σ → List Nat → Except ε σ) (caps : List Nat) (budget : Nat)
    (state : σ) (stack : List Nat) :
    fillSlots visit caps budget state stack =
      some (visitWidthsFrom visit stack budget caps state, stack) := by
  induction caps generalizing budget state stack with
  | nil => rw [fillSlots, visitWidthsFrom]
  | cons cap caps induction =>
      have below : min cap budget + 1 ≤ budget + 1 := Nat.succ_le_succ (Nat.min_le_right _ _)
      rw [fillSlots, tryShares_eq induction _ _ below, visitWidthsFrom, shares]

/-! ## What a visitor is shown -/

/-- A visitor that also notes what it is shown. -/
def noting (visit : σ → List Nat → Except ε σ) :
    σ × List (List Nat) → List Nat → Except (ε × List (List Nat)) (σ × List (List Nat))
  | (state, noted), widths =>
      match visit state widths with
      | .ok state => .ok (state, noted ++ [widths])
      | .error error => .error (error, noted ++ [widths])

/-- How a visitor that notes what it is shown gets through a list: it is shown the whole list, or it
breaks, and where it breaks is the last that it is shown. -/
inductive Shown (visit : σ → List Nat → Except ε σ) (state : σ) (noted listed : List (List Nat)) :
    Except (ε × List (List Nat)) (σ × List (List Nat)) → Prop where
  | whole {after : σ} :
      listed.foldlM visit state = .ok after →
      Shown visit state noted listed (.ok (after, noted ++ listed))
  | broken {before later : List (List Nat)} {widths : List Nat} {reached : σ} {error : ε} :
      listed = before ++ widths :: later →
      before.foldlM visit state = .ok reached →
      visit reached widths = .error error →
      Shown visit state noted listed (.error (error, noted ++ (before ++ [widths])))

theorem Shown.cons {visit : σ → List Nat → Except ε σ} {state next : σ}
    {noted listed : List (List Nat)} {widths : List Nat}
    {result : Except (ε × List (List Nat)) (σ × List (List Nat))}
    (first : visit state widths = .ok next)
    (rest : Shown visit next (noted ++ [widths]) listed result) :
    Shown visit state noted (widths :: listed) result := by
  have visits (items : List (List Nat)) :
      (widths :: items).foldlM visit state = items.foldlM visit next := by
    rw [List.foldlM_cons, first]
    rfl
  cases rest with
  | whole passed =>
      rw [List.append_assoc]
      exact .whole ((visits listed).trans passed)
  | @broken before later last reached error split passed breaks =>
      rw [List.append_assoc]
      exact .broken (congrArg (widths :: ·) split) ((visits before).trans passed) breaks

/-- Going through a list, a visitor notes a front of it, and all of it unless it breaks. -/
theorem shown_noting (visit : σ → List Nat → Except ε σ) (state : σ)
    (noted listed : List (List Nat)) :
    Shown visit state noted listed (listed.foldlM (noting visit) (state, noted)) := by
  induction listed generalizing state noted with
  | nil =>
      have nothing := @Shown.whole _ _ visit state noted [] state rfl
      rwa [List.append_nil] at nothing
  | cons widths listed induction =>
      rw [List.foldlM_cons, noting]
      cases first : visit state widths with
      | error error =>
          exact @Shown.broken _ _ visit state noted _ [] listed widths _ _ rfl rfl first
      | ok next => exact (induction next (noted ++ [widths])).cons first

/-- A visitor that breaks nowhere is shown everything. -/
theorem Shown.eq_whole {visit : σ → List Nat → Except ε σ} {state : σ}
    {noted listed : List (List Nat)}
    {result : Except (ε × List (List Nat)) (σ × List (List Nat))}
    (shown : Shown visit state noted listed result)
    (unbroken : ∀ state, ∀ widths ∈ listed, ∃ next, visit state widths = .ok next) :
    ∃ after, result = .ok (after, noted ++ listed) := by
  cases shown with
  | whole _ => exact ⟨_, rfl⟩
  | @broken _ _ _ reached _ split _ breaks =>
      obtain ⟨next, goes⟩ := unbroken reached _ (split ▸ List.mem_append_right _ List.mem_cons_self)
      rw [goes] at breaks
      cases breaks

/-! ## The order of the visits -/

/-- The distributions that the capacities allow are visited once each, in descending order, up to
the one where the visitor breaks.  With a stack of shares the visits are the same, and no difference
is below zero. -/
theorem visitWidths_enumerates (budget : Nat) (caps : List Nat) :
    ∃ listed : List (List Nat),
      (∀ widths, widths ∈ listed ↔ Fits caps widths ∧ widths.sum = budget) ∧
      listed.Nodup ∧ listed.Pairwise (· > ·) ∧
      ∀ {σ ε : Type} (visit : σ → List Nat → Except ε σ) (state : σ),
        fillSlots visit caps budget state [] =
          some (visitWidths visit budget caps state, []) ∧
        Shown visit state [] listed (visitWidths (noting visit) budget caps (state, [])) ∧
        ((∀ state, ∀ widths ∈ listed, ∃ next, visit state widths = .ok next) →
          ∃ after, visitWidths (noting visit) budget caps (state, []) = .ok (after, listed)) := by
  have descending := pairwise_distributions budget caps
  have nodup : (distributions budget caps).Nodup := by
    refine descending.imp fun {first second} greater => ?_
    rintro rfl
    exact List.lt_irrefl _ greater
  refine ⟨distributions budget caps, fun widths => mem_distributions, nodup, descending,
    fun visit state => ?_⟩
  have shown : Shown visit state [] (distributions budget caps)
      (visitWidths (noting visit) budget caps (state, [])) := by
    rw [visitWidths_eq]
    exact shown_noting visit state [] _
  exact ⟨fillSlots_eq visit caps budget state [], shown, shown.eq_whole⟩

/-- A visitor that counts what it is shown. -/
def counting (count : Nat) (_ : List Nat) : Except Unit Nat := .ok (count + 1)

theorem visitWidths_counting :
    ∃ listed : List (List Nat), listed.Pairwise (· > ·) ∧ [1, 0, 1] ∈ listed ∧
      visitWidths (noting counting) 2 [2, 1, 1] (0, []) = .ok (4, listed) := by
  obtain ⟨listed, member, _, descending, visits⟩ := visitWidths_enumerates 2 [2, 1, 1]
  obtain ⟨_, _, all⟩ := visits counting 0
  obtain ⟨after, run⟩ := all fun _ _ _ => ⟨_, rfl⟩
  have inside : [1, 0, 1] ∈ listed := (member _).mpr ⟨by decide, rfl⟩
  have counted : (visitWidths (noting counting) 2 [2, 1, 1] (0, [])).toOption.map (·.1) =
      some 4 := by decide
  rw [run] at counted
  cases counted
  exact ⟨listed, descending, inside, run⟩

/-- Nothing is shown to a visitor after the place where it breaks. -/
example :
    let visit := fun (_ : Unit) widths => if widths = [1, 1, 0] then .error () else .ok ()
    visitWidths (noting visit) 2 [2, 1, 1] ((), []) = .error ((), [[2, 0, 0], [1, 1, 0]]) := by
  decide

end RowGrammar.Derivation
