import Mathlib.Algebra.GroupWithZero.Nat
import Mathlib.Data.List.Forall2
import Mathlib.Data.List.Lex
import RowGrammar.Derivation.Search
import RowGrammar.Proofs.Traversal

/-!
# The order of distributions

The distributions of a budget are visited in one fixed order: every distribution that the
capacities allow comes up once, those with larger earlier shares first.
-/

namespace RowGrammar.Derivation

/-- Shares within the capacities of their slots. -/
abbrev Fits (caps widths : List Nat) : Prop :=
  List.Forall₂ (fun width cap => width ≤ cap) widths caps

/-- The distributions of a budget in the order in which they are visited. -/
def distributions : Nat → List Nat → List (List Nat)
  | budget, [] => if budget = 0 then [[]] else []
  | budget, cap :: caps =>
      (shares budget cap (capacity caps)).flatMap fun share =>
        (distributions (budget - share) caps).map (share :: ·)

theorem visitWidthsFrom_eq {σ ε : Type} (visit : σ → List Nat → Except ε σ) (before : List Nat)
    (budget : Nat) (caps : List Nat) (state : σ) :
    visitWidthsFrom visit before budget caps state =
      ((distributions budget caps).map (before.reverse ++ ·)).foldlM visit state := by
  induction caps generalizing before budget state with
  | nil =>
      rw [visitWidthsFrom, distributions]
      split_ifs with done
      · simp
      · rfl
  | cons cap caps induction =>
      rw [visitWidthsFrom, distributions, List.map_flatMap, foldlM_flatMap]
      congr 1
      funext state share
      rw [induction, List.map_map]
      congr 2
      funext widths
      simp

/-- Visiting distributions is going through the list of them. -/
theorem visitWidths_eq {σ ε : Type} (visit : σ → List Nat → Except ε σ) (budget : Nat)
    (caps : List Nat) (state : σ) :
    visitWidths visit budget caps state = (distributions budget caps).foldlM visit state := by
  rw [visitWidths, visitWidthsFrom_eq]
  simp

theorem mem_shares {budget cap rest share : Nat} :
    share ∈ shares budget cap rest ↔ share ≤ cap ∧ share ≤ budget ∧ budget ≤ share + rest := by
  simp only [shares, List.mem_reverse, List.mem_range'_1]
  omega

theorem pairwise_shares (budget cap rest : Nat) :
    (shares budget cap rest).Pairwise (· > ·) := by
  rw [shares, List.pairwise_reverse]
  exact List.pairwise_lt_range'

theorem sum_le_capacity {caps widths : List Nat} (fits : Fits caps widths) :
    widths.sum ≤ capacity caps := by
  induction fits with
  | nil => exact Nat.le_refl 0
  | cons first _ induction => exact Nat.add_le_add first induction

/-- What is visited are the distributions that the capacities allow. -/
theorem mem_distributions {budget : Nat} {caps widths : List Nat} :
    widths ∈ distributions budget caps ↔ Fits caps widths ∧ widths.sum = budget := by
  induction caps generalizing budget widths with
  | nil =>
      rw [distributions, Fits, List.forall₂_nil_right_iff]
      split_ifs with done
      · rw [List.mem_singleton, done]
        exact ⟨fun same => ⟨same, same ▸ rfl⟩, And.left⟩
      · simp only [List.not_mem_nil, false_iff]
        rintro ⟨rfl, same⟩
        exact done same.symm
  | cons cap caps induction =>
      simp only [distributions, List.mem_flatMap, List.mem_map, mem_shares, induction]
      constructor
      · rintro ⟨share, ⟨within, below, _⟩, widths, ⟨fits, total⟩, rfl⟩
        refine ⟨.cons within fits, ?_⟩
        rw [List.sum_cons]
        omega
      · rintro ⟨fits, total⟩
        cases fits with
        | @cons share _ widths _ within fits =>
            have rest := sum_le_capacity fits
            rw [List.sum_cons] at total
            exact ⟨share, ⟨within, by omega, by omega⟩, widths, ⟨fits, by omega⟩, rfl⟩

/-- Distributions are visited in descending order, so none is visited twice. -/
theorem pairwise_distributions (budget : Nat) (caps : List Nat) :
    (distributions budget caps).Pairwise (· > ·) := by
  induction caps generalizing budget with
  | nil =>
      rw [distributions]
      split_ifs
      · exact List.pairwise_singleton _ _
      · exact .nil
  | cons cap caps induction =>
      rw [distributions, List.pairwise_flatMap]
      constructor
      · intro share _
        rw [List.pairwise_map]
        exact (induction (budget - share)).imp fun later => .cons later
      · apply (pairwise_shares budget cap (capacity caps)).imp
        intro share other greater first member second member'
        obtain ⟨_, _, rfl⟩ := List.mem_map.mp member
        obtain ⟨_, _, rfl⟩ := List.mem_map.mp member'
        exact .rel greater

example : distributions 2 [1, 2] = [[1, 1], [0, 2]] := by decide

end RowGrammar.Derivation
