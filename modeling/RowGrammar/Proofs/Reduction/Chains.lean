import Mathlib.Data.List.Nodup
import RowGrammar.Proofs.Reduction.Totality

/-!
# Chains of only children

A reduction of a single symbol makes the chain of only children below it longer by a type that is
not on it.  So every step of a parser leaves less to do: either there are fewer symbols, or one of
the types of the parser is missing on one chain fewer.
-/

namespace RowGrammar

namespace Tree

mutual

/-- The node types on the chain of only children that starts at a tree. -/
def chain : Tree → List String
  | .leaf nodeType _ => [nodeType]
  | .branch nodeType children => nodeType :: onlyChain children

/-- The chain of an only child. -/
def onlyChain : List Tree → List String
  | [child] => child.chain
  | _ => []

end

theorem nodeType_mem_chain (tree : Tree) : tree.nodeType ∈ tree.chain := by
  cases tree with
  | leaf name text => exact List.mem_singleton_self name
  | branch name children => exact List.mem_cons_self

theorem onlyChain_of_length_ne_one {children : List Tree} (several : children.length ≠ 1) :
    onlyChain children = [] := by
  cases children with
  | nil => rfl
  | cons child children =>
      cases children with
      | nil => exact absurd rfl several
      | cons other children => rfl

/-- Building over a single tree keeps the types on its chain. -/
theorem Builds.chain_subset {tree : Tree} {types : List String} {forest : List Tree}
    (builds : Builds [tree] types forest) :
    ∃ tree', forest = [tree'] ∧ tree.chain ⊆ tree'.chain := by
  generalize start : [tree] = first at builds
  induction builds with
  | refl => exact ⟨tree, start.symm, List.Subset.refl _⟩
  | @step before captured after types nodeType _ nonempty induction =>
      obtain ⟨tree', single, kept⟩ := induction
      have positive := List.length_pos_iff.mpr nonempty
      have lengths := congrArg List.length single
      simp only [List.length_append, List.length_singleton] at lengths
      obtain rfl : before = [] := List.length_eq_zero_iff.mp (by omega)
      obtain rfl : after = [] := List.length_eq_zero_iff.mp (by omega)
      simp only [List.nil_append, List.append_nil] at single
      subst single
      exact ⟨.branch nodeType [tree'], rfl, List.subset_cons_of_subset _ kept⟩

/-- A tree in which no chain of only children has a type twice. -/
def Unrepeated (tree : Tree) : Prop :=
  ∀ subtree ∈ tree.subtrees, subtree.chain.Nodup

theorem unrepeated_leaf (nodeType text : String) : Unrepeated (.leaf nodeType text) := by
  intro subtree member
  rw [subtrees, List.mem_singleton] at member
  subst member
  exact List.nodup_singleton _

theorem unrepeated_branch {nodeType : String} {children : List Tree}
    (each : ∀ child ∈ children, Unrepeated child) (fresh : nodeType ∉ onlyChain children) :
    Unrepeated (.branch nodeType children) := by
  intro subtree member
  rw [subtrees, List.mem_cons] at member
  rcases member with rfl | inside
  · rw [chain, List.nodup_cons]
    refine ⟨fresh, ?_⟩
    by_cases single : children.length = 1
    · obtain ⟨child, rfl⟩ := List.length_eq_one_iff.mp single
      exact each child List.mem_cons_self child (mem_subtrees_self child)
    · rw [onlyChain_of_length_ne_one single]
      exact List.nodup_nil
  · obtain ⟨child, member, below⟩ := exists_of_mem_subtreesList inside
    exact each child member subtree below

/-! ## What is left to do -/

/-- How many of some types are not on the chain of a tree. -/
def missing (names : List String) (tree : Tree) : Nat :=
  names.countP fun name => name ∉ tree.chain

theorem missing_le (names : List String) (tree : Tree) : missing names tree ≤ names.length :=
  List.countP_le_length

theorem missing_lt_length {names : List String} {tree : Tree} {name : String}
    (member : name ∈ names) (present : name ∈ tree.chain) : missing names tree < names.length := by
  refine Nat.lt_of_le_of_ne (missing_le names tree) ?_
  intro all
  have absent := List.countP_eq_length.mp all name member
  exact absurd present (by simpa using absent)

theorem missing_lt {names : List String} {tree tree' : Tree} {name : String}
    (member : name ∈ names) (absent : name ∉ tree.chain) (present : name ∈ tree'.chain)
    (kept : tree.chain ⊆ tree'.chain) : missing names tree' < missing names tree := by
  unfold missing
  have fewer (list : List String) : list.countP (fun name => decide (name ∉ tree'.chain)) ≤
      list.countP fun name => decide (name ∉ tree.chain) := by
    apply List.countP_mono_left
    intro other _ lacks
    simp only [decide_eq_true_eq] at lacks ⊢
    exact fun inside => lacks (kept inside)
  obtain ⟨before, after, rfl⟩ := List.append_of_mem member
  simp only [List.countP_append, List.countP_cons, absent, present, not_true_eq_false,
    not_false_eq_true, decide_true, decide_false, if_true, Bool.false_eq_true, if_false]
  have one := fewer before
  have two := fewer after
  omega

/-- How many of some types are missing over all trees of a forest. -/
def missingList (names : List String) : List Tree → Nat
  | [] => 0
  | tree :: forest => missing names tree + missingList names forest

theorem missingList_append (names : List String) (forest forest' : List Tree) :
    missingList names (forest ++ forest') =
      missingList names forest + missingList names forest' := by
  induction forest with
  | nil => exact (Nat.zero_add _).symm
  | cons tree forest induction =>
      rw [List.cons_append, missingList, missingList, induction, Nat.add_assoc]

theorem missingList_le (names : List String) (forest : List Tree) :
    missingList names forest ≤ forest.length * names.length := by
  induction forest with
  | nil => exact Nat.zero_le _
  | cons tree forest induction =>
      have first := missing_le names tree
      rw [missingList, List.length_cons, Nat.succ_mul]
      omega

/-- More steps than rules with these types can still make: a step of one symbol brings a missing
type onto its chain, and a step of several leaves fewer symbols. -/
def potential (names : List String) (forest : List Tree) : Nat :=
  missingList names forest + (forest.length - 1) * names.length

theorem potential_le (names : List String) {forest : List Tree} (nonempty : forest ≠ []) :
    potential names forest ≤ (2 * forest.length - 1) * names.length := by
  have bound := missingList_le names forest
  have positive := List.length_pos_iff.mpr nonempty
  have split : 2 * forest.length - 1 = forest.length + (forest.length - 1) := by omega
  rw [potential, split, Nat.add_mul]
  omega

open SymbolPattern in
/-- Putting a new type over neighbours lowers the potential. -/
theorem potential_splice_lt {names : List String} {forest : List Tree} {tree : Tree} {span : Span}
    (filled : span.start < span.stop) (inside : span.stop ≤ forest.length)
    (member : tree.nodeType ∈ names)
    (fresh : ∀ single, span.slice forest = [single] →
      tree.nodeType ∉ single.chain ∧ single.chain ⊆ tree.chain) :
    potential names (span.splice tree forest) < potential names forest := by
  have whole := Span.take_slice_drop (Nat.le_of_lt filled) forest
  have nonempty := Span.slice_ne_nil filled inside
  have few := missing_lt_length member (nodeType_mem_chain tree)
  rw [Span.splice]
  generalize forest.take span.start = before at whole ⊢
  generalize forest.drop span.stop = after at whole ⊢
  generalize span.slice forest = captured at whole nonempty fresh
  subst whole
  simp only [potential, missingList_append, missingList, List.length_append, List.length_cons]
  by_cases single : captured.length = 1
  · obtain ⟨old, rfl⟩ := List.length_eq_one_iff.mp single
    obtain ⟨absent, kept⟩ := fresh old rfl
    have less := missing_lt member absent (nodeType_mem_chain tree) kept
    simp only [missingList, List.length_singleton]
    have count : before.length + 1 + after.length - 1 = before.length + (after.length + 1) - 1 := by
      omega
    rw [count]
    omega
  · have positive := List.length_pos_iff.mpr nonempty
    have fewer : (before.length + (after.length + 1) - 1) * names.length + names.length ≤
        (before.length + captured.length + after.length - 1) * names.length := by
      rw [← Nat.succ_mul]
      apply Nat.mul_le_mul_right
      omega
    omega

end Tree

end RowGrammar
