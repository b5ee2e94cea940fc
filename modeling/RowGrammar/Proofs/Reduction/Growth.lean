import RowGrammar.Proofs.NodeTable
import RowGrammar.Proofs.Reduction.Trees

/-!
# What runs carry along

A reduction changes its state by adding nodes, by stopping and by comparing nodes with the expected
tree.  Whatever relation between states these three respect holds between the two ends of a run,
whether the run succeeds or fails.  Above all, a reduction only adds nodes, so the nodes that
earlier runs of a session have made stay what they are.
-/

namespace RowGrammar

/-- What a reduction never takes back: nodes, a divergence and a stop. -/
structure ReductionState.Precedes (state later : ReductionState) : Prop where
  nodes : ∃ added, state.nodes.Grows added later.nodes
  agreed : later.divergence = none → state.divergence = none
  running : later.halted = false → state.halted = false

namespace Reduction

/-- The state that a reduction ends in, also when it fails. -/
def Result.final {α : Type} : Result α → ReductionState
  | .ok _ state | .error _ state => state

/-- A reduction ends in a state that is related to the one it starts in. -/
def Carries {α : Type} (related : ReductionState → ReductionState → Prop)
    (state : ReductionState) (result : Result α) : Prop :=
  related state result.final

/-- The nodes of a table come first in the state that a reduction ends in. -/
def Keeps {α : Type} (table : NodeTable) (result : Result α) : Prop :=
  ∃ added, table.Grows added result.final.nodes

end Reduction

namespace ReductionContext

open Reduction

/-- A relation between the states before and after anything that a reduction does. -/
structure Respects (context : ReductionContext)
    (related : ReductionState → ReductionState → Prop) : Prop where
  refl : ∀ state, related state state
  trans : ∀ {first middle last}, related first middle → related middle last → related first last
  push : ∀ state node, related state { state with nodes := state.nodes.push node }
  halt : ∀ state, context.mustHalt state = true → related state { state with halted := true }
  judge : ∀ candidate parser group node state,
    related state (context.judge candidate parser group node state)

namespace Respects

variable {context : ReductionContext} {related : ReductionState → ReductionState → Prop}
  (respects : context.Respects related)

include respects

theorem followed {α β : Type} {state : ReductionState} {result : Result α}
    {next : α → ReductionState → Result β} (first : Carries related state result)
    (later : ∀ value middle, Carries related middle (next value middle)) :
    Carries related state (followed result next) := by
  cases result with
  | error error middle => exact first
  | ok value middle => exact respects.trans first (later value middle)

section

variable {delegate : String → List Symbol → Reduction NodeId}
  (carries : ∀ parser symbols state, Carries related state (delegate parser symbols state))

include carries

theorem build (rule : ParserRule) (captured : List Symbol) (state : ReductionState) :
    Carries related state (build delegate rule captured state) := by
  cases delegation : rule.subparser with
  | none =>
      rw [build_direct delegate delegation]
      exact respects.push _ _
  | some other =>
      rw [build_delegated delegate delegation]
      exact respects.followed (carries other captured state) fun _ _ => respects.push _ _

theorem reduceGroup (parser : String) (groupIndex : Nat) (group : PrecedenceGroup)
    (fuel position : Nat) (progress : Progress) (state : ReductionState) :
    Carries related state
      (context.reduceGroup delegate parser groupIndex group fuel position progress state) := by
  induction fuel generalizing position progress state with
  | zero => exact respects.refl _
  | succ fuel induction =>
      cases halts : context.mustHalt state with
      | true =>
          rw [reduceGroup_halt context delegate halts]
          exact respects.halt state halts
      | false =>
          cases found : context.candidate? state.nodes group progress.symbols position with
          | none =>
              rw [reduceGroup_done context delegate halts found]
              exact respects.refl _
          | some candidate =>
              rw [reduceGroup_step context delegate halts found]
              refine respects.followed (respects.build carries _ _ _) fun node after => ?_
              exact respects.trans (respects.judge _ _ _ _ _) (induction _ _ _)

theorem reducePass (parser : String) (fuel : Nat) (groups : List (PrecedenceGroup × Nat))
    (progress : Progress) (state : ReductionState) :
    Carries related state (context.reducePass delegate parser fuel groups progress state) := by
  induction groups generalizing progress state with
  | nil => exact respects.refl _
  | cons first groups induction =>
      obtain ⟨group, index⟩ := first
      rw [reducePass_cons]
      refine respects.followed (respects.reduceGroup carries _ _ _ _ _ _ _) fun middle after => ?_
      split
      · exact respects.refl _
      · exact induction _ _

theorem reducePasses (parser : String) (groups : List (PrecedenceGroup × Nat)) (steps fuel : Nat)
    (symbols : List Symbol) (state : ReductionState) :
    Carries related state
      (context.reducePasses delegate parser groups steps fuel symbols state) := by
  induction fuel generalizing symbols state with
  | zero => exact respects.refl _
  | succ fuel induction =>
      rw [reducePasses_succ]
      refine respects.followed (respects.reducePass carries _ _ _ _ _) fun progress after => ?_
      split
      · exact respects.refl _
      · exact induction _ _

end

theorem wrap (parser : String) (symbols : List Symbol) (state : ReductionState) :
    Carries related state (context.wrap parser symbols state) := by
  by_cases single : symbols.length = 1
  · obtain ⟨symbol, rfl⟩ := List.length_eq_one_iff.mp single
    exact respects.refl _
  · rw [wrap_several context single]
    split
    · exact respects.refl _
    · exact respects.push _ _

theorem reduceWith (levels : Nat) (parser : String) (symbols : List Symbol)
    (state : ReductionState) :
    Carries related state (context.reduceWith levels parser symbols state) := by
  induction levels generalizing parser symbols state with
  | zero => exact respects.refl _
  | succ levels induction =>
      by_cases empty : symbols = []
      · subst empty
        exact respects.refl _
      · cases known : context.grammar.parser? parser with
        | none =>
            rw [reduceWith_unknown context known empty]
            exact respects.refl _
        | some table =>
            rw [reduceWith_succ context known empty]
            exact respects.followed (respects.reducePasses induction _ _ _ _ _ _)
              fun rest after => respects.wrap _ _ _

/-- A parse ends in a related state, also when it fails. -/
theorem parse (parser : String) (symbols : List Symbol) (state : ReductionState) :
    Carries related state (context.parse parser symbols state) := by
  rw [parse_eq]
  refine respects.followed (respects.reduceWith _ _ _ _) fun root after => ?_
  split
  · exact respects.refl _
  · exact respects.refl _

end Respects

/-- Whatever is respected may be forgotten in part. -/
theorem Respects.mono {context : ReductionContext}
    {related weaker : ReductionState → ReductionState → Prop} (respects : context.Respects related)
    (weaken : ∀ {state later}, related state later → weaker state later)
    (trans : ∀ {first middle last}, weaker first middle → weaker middle last → weaker first last) :
    context.Respects weaker where
  refl state := weaken (respects.refl state)
  trans := trans
  push state node := weaken (respects.push state node)
  halt state halts := weaken (respects.halt state halts)
  judge candidate parser group node state :=
    weaken (respects.judge candidate parser group node state)

/-- Nothing that a reduction does takes back a node, a divergence or a stop. -/
theorem respects_precedes (context : ReductionContext) :
    context.Respects ReductionState.Precedes where
  refl state := ⟨⟨[], .refl _⟩, id, id⟩
  trans := by
    rintro first middle last ⟨⟨added, grows⟩, agreed, running⟩ ⟨⟨further, grew⟩, agreed', running'⟩
    exact ⟨⟨added ++ further, grows.trans grew⟩, agreed ∘ agreed', running ∘ running'⟩
  push state node := ⟨⟨_, .push _ _⟩, id, id⟩
  halt state _ := ⟨⟨[], .refl _⟩, id, nofun⟩
  judge candidate parser group node state := by
    refine ⟨⟨[], by rw [judge_nodes]; exact .refl _⟩, ?_, by rw [judge_halted]; exact id⟩
    have verdict := context.judge_verdict candidate parser group node state
    generalize context.judge candidate parser group node state = after at verdict
    cases verdict with
    | ignored _ => exact id
    | agreed _ calm _ _ => exact fun _ => calm
    | diverged _ calm _ _ => exact fun _ => calm

theorem parse_keeps (context : ReductionContext) (parser : String) (symbols : List Symbol)
    (state : ReductionState) : Keeps state.nodes (context.parse parser symbols state) :=
  (context.respects_precedes.parse parser symbols state).nodes

end ReductionContext

end RowGrammar
