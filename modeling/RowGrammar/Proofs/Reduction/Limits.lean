import RowGrammar.Proofs.Reduction.Steps
import RowGrammar.Proofs.Reduction.Undisturbed

/-!
# Limited reductions

A node limit and an expected tree only ever cut a reduction short.  Beside the same reduction
without them, a run makes the same steps as long as it goes on; where no rule delegates, a run that
has stopped makes no further step, so its steps are a prefix of the others, and its nodes stay
within the limit but for one that holds what is left.
-/

namespace RowGrammar

open NodeTable Reduction Grammar

/-- Nothing keeps a reduction from going on. -/
structure ReductionState.Free (state : ReductionState) : Prop where
  running : state.halted = false
  agreed : state.divergence = none

namespace ReductionContext

/-- The same reduction without a node limit and an expected tree. -/
def unbound (context : ReductionContext) : ReductionContext :=
  { context with maxNodes := none, expected := none }

/-- A run that may have been cut short beside one that goes on: they are at the same point, or the
first one has stopped. -/
inductive Beside : Result Progress → Result Progress → List Step → List Step → Prop where
  | abreast (progress : Progress) (steps : List Step) {state state' : ReductionState} :
      state'.nodes = state.nodes → state'.Free →
      Beside (.ok progress state) (.ok progress state') steps steps
  | cut {progress : Progress} {state : ReductionState} {steps steps' : List Step}
      (result' : Result Progress) :
      progress.stopped = true → steps <+: steps' → Beside (.ok progress state) result' steps steps'

theorem Beside.append {result result' : Result Progress} {steps steps' : List Step}
    (beside : Beside result result' steps steps') (before : List Step) :
    Beside result result' (before ++ steps) (before ++ steps') := by
  cases beside with
  | abreast progress steps same free => exact .abreast progress _ same free
  | cut result' stopped short =>
      exact .cut result' stopped ((List.prefix_append_right_inj before).mpr short)

variable {context : ReductionContext}

theorem mustHalt_unbound {state : ReductionState} (free : state.Free) :
    context.unbound.mustHalt state = false := by
  rw [mustHalt, free.running, free.agreed]
  rfl

/-- A rule that can be applied does not delegate if none does. -/
theorem subparser_of_candidate?
    (direct : ∀ rule ∈ context.grammar.parserRules.toList, rule.subparser = none)
    {nodes : NodeTable} {group : PrecedenceGroup} {symbols : List Symbol} {position : Nat}
    {candidate : Candidate}
    (found : context.candidate? nodes group symbols position = some candidate) :
    candidate.rule.subparser = none := by
  obtain ⟨_, known, _⟩ := candidate?_eq_some found
  exact direct _ (Array.mem_toList_iff.mpr (Array.mem_of_getElem? known))

section

variable (direct : ∀ rule ∈ context.grammar.parserRules.toList, rule.subparser = none)
  (delegate delegate' : String → List Symbol → Reduction NodeId)
  (inner inner' : String → List Symbol → ReductionState → List Step)

include direct

theorem reduceGroup_beside (parser : String) (groupIndex : Nat) (group : PrecedenceGroup)
    (fuel position : Nat) (progress : Progress) {state state' : ReductionState}
    (same : state'.nodes = state.nodes) (free : state'.Free) :
    Beside
      (context.reduceGroup delegate parser groupIndex group fuel position progress state)
      (context.unbound.reduceGroup delegate' parser groupIndex group fuel position progress state')
      (context.groupSteps delegate inner parser groupIndex group fuel position progress state)
      (context.unbound.groupSteps delegate' inner' parser groupIndex group fuel position progress
        state') := by
  induction fuel generalizing position progress state state' with
  | zero => exact .abreast progress [] same free
  | succ fuel induction =>
      have runs' : context.unbound.mustHalt state' = false := mustHalt_unbound free
      rw [groupSteps, groupSteps, runs']
      cases halts : context.mustHalt state with
      | true =>
          rw [reduceGroup_halt context delegate halts]
          exact .cut _ rfl (List.nil_prefix)
      | false =>
          have alike : context.unbound.candidate? state'.nodes group progress.symbols position =
              context.candidate? state.nodes group progress.symbols position := by
            rw [same]
            rfl
          rw [if_neg Bool.false_ne_true, if_neg Bool.false_ne_true, alike]
          cases found : context.candidate? state.nodes group progress.symbols position with
          | none =>
              rw [reduceGroup_done context delegate halts found,
                reduceGroup_done context.unbound delegate' runs' (alike.trans found)]
              exact .abreast progress [] same free
          | some candidate =>
              have alone := subparser_of_candidate? direct found
              rw [reduceGroup_step context delegate halts found,
                reduceGroup_step context.unbound delegate' runs' (alike.trans found)]
              simp only [build_direct _ alone, followed_ok, thereafter_ok, buildSteps, alone,
                List.nil_append, same, stepOf]
              refine Beside.append (induction _ _ ?_ ?_) [_]
              · rw [judge_nodes, judge_nodes]
              · exact ⟨free.running, free.agreed⟩

theorem reducePass_beside (parser : String) (fuel : Nat) (groups : List (PrecedenceGroup × Nat))
    (progress : Progress) {state state' : ReductionState} (same : state'.nodes = state.nodes)
    (free : state'.Free) :
    Beside (context.reducePass delegate parser fuel groups progress state)
      (context.unbound.reducePass delegate' parser fuel groups progress state')
      (context.passSteps delegate inner parser fuel groups progress state)
      (context.unbound.passSteps delegate' inner' parser fuel groups progress state') := by
  induction groups generalizing progress state state' with
  | nil => exact .abreast progress [] same free
  | cons first groups induction =>
      obtain ⟨group, index⟩ := first
      have grouped := reduceGroup_beside direct delegate delegate' inner inner' parser index group
        fuel 0 progress same free
      rw [reducePass_cons, reducePass_cons, passSteps, passSteps]
      generalize context.reduceGroup delegate parser index group fuel 0 progress state = result
        at grouped ⊢
      generalize context.unbound.reduceGroup delegate' parser index group fuel 0 progress state' =
        result' at grouped ⊢
      generalize context.groupSteps delegate inner parser index group fuel 0 progress state = steps
        at grouped ⊢
      generalize context.unbound.groupSteps delegate' inner' parser index group fuel 0 progress
        state' = steps' at grouped ⊢
      cases grouped with
      | abreast middle _ same free =>
          rw [followed_ok, followed_ok, thereafter_ok, thereafter_ok]
          refine Beside.append ?_ steps
          split
          · exact .abreast middle [] same free
          · exact induction middle same free
      | @cut middle _ _ _ _ stopped short =>
          rw [followed_ok, thereafter_ok, if_pos stopped, if_pos stopped, List.append_nil]
          exact .cut _ stopped (short.trans (List.prefix_append _ _))

theorem passesSteps_beside (parser : String) (groups : List (PrecedenceGroup × Nat))
    (steps fuel : Nat) (symbols : List Symbol) {state state' : ReductionState}
    (same : state'.nodes = state.nodes) (free : state'.Free) :
    context.passesSteps delegate inner parser groups steps fuel symbols state <+:
      context.unbound.passesSteps delegate' inner' parser groups steps fuel symbols state' := by
  induction fuel generalizing symbols state state' with
  | zero => exact List.nil_prefix
  | succ fuel induction =>
      have passed := reducePass_beside direct delegate delegate' inner inner' parser steps groups
        ⟨symbols, false, false⟩ same free
      rw [passesSteps, passesSteps]
      generalize context.reducePass delegate parser steps groups ⟨symbols, false, false⟩ state =
        result at passed ⊢
      generalize context.unbound.reducePass delegate' parser steps groups ⟨symbols, false, false⟩
        state' = result' at passed ⊢
      generalize context.passSteps delegate inner parser steps groups ⟨symbols, false, false⟩
        state = made at passed ⊢
      generalize context.unbound.passSteps delegate' inner' parser steps groups
        ⟨symbols, false, false⟩ state' = made' at passed ⊢
      cases passed with
      | abreast progress _ same free =>
          rw [thereafter_ok, thereafter_ok, List.prefix_append_right_inj]
          split
          · exact List.nil_prefix
          · exact induction progress.symbols same free
      | @cut progress _ _ _ _ stopped short =>
          rw [thereafter_ok, stopped, Bool.true_or, if_pos rfl, List.append_nil]
          exact short.trans (List.prefix_append _ _)

/-- Where no rule delegates, the steps of a limited reduction come first among those of the same
reduction without limits. -/
theorem steps_beside (parser : String) (symbols : List Symbol) (nodes : NodeTable) :
    context.steps parser symbols (.start nodes) <+:
      context.unbound.steps parser symbols (.start nodes) := by
  have bounds : context.unbound.levelBound symbols.length = context.levelBound symbols.length := rfl
  rw [steps, steps, bounds]
  cases context.levelBound symbols.length with
  | zero => exact List.nil_prefix
  | succ levels =>
      have tables : context.unbound.grammar.parser? parser = context.grammar.parser? parser := rfl
      rw [stepsWith, stepsWith, tables]
      split
      · exact List.nil_prefix
      · cases context.grammar.parser? parser with
        | none => exact List.nil_prefix
        | some table =>
            exact passesSteps_beside direct _ _ _ _ parser _ _ _ symbols rfl ⟨rfl, rfl⟩

/-- Every step is made below the node limit. -/
theorem Reaches.size_le {limit : Nat} (limited : context.maxNodes = some limit) {parser : String}
    {symbols rest : List Symbol} {state after : ReductionState}
    (reaches : context.Reaches parser symbols state rest after) :
    after.nodes.size ≤ max state.nodes.size limit := by
  induction reaches with
  | refl => exact Nat.le_max_left _ _
  | halt _ _ induction => exact induction
  | @direct _ _ _ _ middle _ _ _ _ _ _ runs _ _ _ _ _ =>
      have below : middle.nodes.size < limit := by
        simp only [mustHalt, limited, Option.any_some, Bool.or_eq_false_iff,
          decide_eq_false_iff_not, Nat.not_le] at runs
        exact runs.2
      rw [judge_nodes, (Grows.push _ _).size_eq, List.length_singleton]
      exact Nat.le_trans below (Nat.le_max_right _ _)
  | delegated _ _ _ _ found delegation _ _ _ _ =>
      rw [subparser_of_candidate? direct found] at delegation
      cases delegation

end

theorem wrap_size_le (parser : String) (symbols : List Symbol) (state : ReductionState) :
    (Result.final (context.wrap parser symbols state)).nodes.size ≤ state.nodes.size + 1 := by
  by_cases single : symbols.length = 1
  · obtain ⟨symbol, rfl⟩ := List.length_eq_one_iff.mp single
    exact Nat.le_succ _
  · rw [wrap_several context single]
    split
    · exact Nat.le_succ _
    · exact Nat.le_of_eq (Grows.push _ _).size_eq

section

variable {rows : List Row} {groups : String → List PrecedenceGroup}
  (arranges : Arranges rows groups) (same : context.grammar = arranged rows groups)
  (direct : ∀ rule ∈ context.grammar.parserRules.toList, rule.subparser = none) {limit : Nat}
  (limited : context.maxNodes = some limit)

include arranges same direct limited

theorem reduceWith_size_le (levels : Nat) (parser : String) (symbols : List Symbol)
    (state : ReductionState) :
    (Result.final (context.reduceWith levels parser symbols state)).nodes.size ≤
      max state.nodes.size limit + 1 := by
  have unchanged : state.nodes.size ≤ max state.nodes.size limit + 1 :=
    Nat.le_succ_of_le (Nat.le_max_left _ _)
  cases levels with
  | zero => exact unchanged
  | succ levels =>
      by_cases empty : symbols = []
      · subst empty
        exact unchanged
      · cases known : context.grammar.parser? parser with
        | none =>
            rw [reduceWith_unknown context known empty]
            exact unchanged
        | some table =>
            have completes : context.Completes (context.reduceWith levels) parser :=
              completes_of_direct (fun rule member _ => direct rule member) _
            obtain ⟨rest, after, passes⟩ := reducePasses_total completes
              (owns_of_arranges arranges same known) (context.stepBound symbols.length)
              (context.stepBound symbols.length) symbols state
            rw [reduceWith_succ context known empty, passes, followed_ok]
            have within :=
              (reducePasses_reaches (reduceWith_sound levels) known passes).size_le direct limited
            exact Nat.le_trans (wrap_size_le parser rest after) (Nat.succ_le_succ within)

/-- A parse makes no more nodes than the limit allows, and one for what is left. -/
theorem parse_size_le (parser : String) (symbols : List Symbol) (state : ReductionState) :
    (Result.final (context.parse parser symbols state)).nodes.size ≤
      max state.nodes.size limit + 1 := by
  have reduced := reduceWith_size_le arranges same direct limited
    (context.levelBound symbols.length) parser symbols state
  rw [parse_eq]
  generalize context.reduceWith _ parser symbols state = result at reduced ⊢
  cases result with
  | error error after => exact reduced
  | ok root after =>
      rw [followed_ok]
      split
      · exact reduced
      · exact reduced

end

/-- A run that has never had a reason to stop is the same without any. -/
theorem tolerates_unbound (context : ReductionContext) :
    Tolerates (·.Undisturbed false) context context.unbound where
  grammar := rfl
  patterns := rfl
  lasting precedes calm := calm.of_precedes precedes
  agreed calm := calm.agreed
  limit := .inr ⟨rfl, fun calm => calm.running⟩
  strict := .inl rfl
  expected := nofun

/-- A parse that has not stopped makes the nodes that it makes without a reason to stop. -/
theorem parse_unbound {parser : String} {symbols : List Symbol} {forest : List Tree}
    {nodes : NodeTable} {report : ParseReport} {final : ReductionState}
    (shown : nodes.ShowsAll context.grammar.registry symbols forest)
    (parsed : context.parse parser symbols (.start nodes) = .ok report final)
    (running : report.halted = false) (agreed : report.divergence = none) :
    ∃ other final', context.unbound.parse parser symbols (.start nodes) = .ok other final' ∧
      other.root = report.root ∧ other.tree = report.tree ∧
      other.nodeCount = report.nodeCount := by
  have reports := parse_report parsed
  have quiet : final.Undisturbed false :=
    ⟨reports.halted ▸ running, reports.divergence ▸ agreed, nofun⟩
  have ends : (Result.final (context.parse parser symbols (.start nodes))).Undisturbed false := by
    rwa [parsed]
  obtain ⟨final', alike, parsed'⟩ :=
    ((tolerates_unbound context).simulates.parse_simulated shown (.start nodes) ends).1 report final
      parsed
  have renamed : Symbol.rename id = id := rfl
  rw [renamed, List.map_id] at parsed'
  refine ⟨_, final', parsed', rfl, rfl, ?_⟩
  rw [reports.nodeCount, alike.nodes]

end ReductionContext

end RowGrammar
