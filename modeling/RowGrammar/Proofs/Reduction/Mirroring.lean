import RowGrammar.Proofs.Reduction.Simulation

/-!
# Mirrored reductions

Under the same settings, reductions with the same rules end in the same way, whatever the numbers of
the node types and rules are: with the same tree and the same divergence, or with the same error.
-/

namespace RowGrammar

def Divergence.renumber (rules : RuleId → RuleId) (divergence : Divergence) : Divergence :=
  { divergence with rule := rules divergence.rule }

/-- The report with another number for the rule of a divergence. -/
def ParseReport.renumber (rules : RuleId → RuleId) (report : ParseReport) : ParseReport :=
  { report with divergence := report.divergence.map (.renumber rules) }

/-- The state with other numbers for the node types and rules. -/
def ReductionState.rename (types : NodeTypeId → NodeTypeId) (rules : RuleId → RuleId)
    (state : ReductionState) : ReductionState :=
  { state with
    nodes := state.nodes.rename types
    divergence := state.divergence.map (.renumber rules) }

namespace ReductionContext

open NodeTable

/-- Two reductions under the same settings with the same rules, apart from the numbers. -/
structure Mirrors (types : NodeTypeId → NodeTypeId) (rules : RuleId → RuleId)
    (context mirror : ReductionContext) : Prop where
  same : SameRules types rules context mirror
  strict : mirror.strict = context.strict
  maxNodes : mirror.maxNodes = context.maxNodes
  expected : mirror.expected = context.expected

namespace Mirrors

variable {types : NodeTypeId → NodeTypeId} {rules : RuleId → RuleId}
  {context mirror : ReductionContext} (mirrors : Mirrors types rules context mirror)

include mirrors

theorem mustHalt_rename (state : ReductionState) :
    mirror.mustHalt (state.rename types rules) = context.mustHalt state := by
  simp only [mustHalt, ReductionState.rename, Option.isSome_map, size_rename, mirrors.maxNodes]

theorem judge_rename {candidate candidate' : Candidate}
    (alike : SameCandidate types rules candidate candidate') (parser : String) (group : Nat)
    (node : NodeId) (state : ReductionState) :
    mirror.judge candidate' parser group node (state.rename types rules) =
      (context.judge candidate parser group node state).rename types rules := by
  have same : (state.rename types rules).nodes.tree? mirror.grammar.registry node =
      state.nodes.tree? context.grammar.registry node := tree?_rename mirrors.same.names _ _
  have calm_ (calm : state.divergence = none) : (state.rename types rules).divergence = none := by
    rw [ReductionState.rename, calm, Option.map_none]
  have verdict := context.judge_verdict candidate parser group node state
  generalize context.judge candidate parser group node state = after at verdict
  cases verdict with
  | ignored ignored =>
      apply Verdict.judge_eq
      apply Verdict.ignored
      rw [mirrors.expected, same]
      simpa [ReductionState.rename] using ignored
  | agreed watched calm shown expected =>
      have watched_ := mirrors.expected.trans watched
      rw [(Verdict.agreed watched_ (calm_ calm) (same.trans shown) expected).judge_eq]
      rfl
  | diverged watched calm shown unexpected =>
      have watched_ := mirrors.expected.trans watched
      rw [(Verdict.diverged watched_ (calm_ calm) (same.trans shown) unexpected).judge_eq]
      simp [ReductionState.rename, Divergence.renumber, alike.id, alike.rule.nodeType,
        mirrors.same.names]

theorem simulates : Simulates types rules (fun _ => True) (fun _ => False)
    (fun state state' => state' = state.rename types rules) context mirror where
  same := mirrors.same
  lasting := ⟨fun _ => id, fun one two => one ∘ two, fun _ _ => id, fun _ _ => id,
    fun _ _ _ _ _ => id⟩
  nodes := by
    rintro state _ rfl
    rfl
  push := by
    rintro state _ rfl node _
    simp only [ReductionState.rename, rename_push]
  run := by
    rintro state _ rfl _ runs
    exact (mirrors.mustHalt_rename state).trans runs
  halt := by
    rintro state _ rfl _ halts
    exact ⟨(mirrors.mustHalt_rename state).trans halts, rfl⟩
  absorbs _ _ _ _ := mirrors.same.absorbs_eq mirrors.strict _
  judge := by
    rintro state _ candidate candidate' node _ _ parser group rfl alike _ _
    exact mirrors.judge_rename alike parser group node state
  wrap := by
    rintro state _ parser symbols rfl _ _
    rw [mirrors.strict]
    exact .inl rfl

/-- Both reductions report the same, or fail with the same error. -/
theorem parse_rename (parser : String) {symbols : List Symbol} {forest : List Tree}
    (state : ReductionState)
    (shown : state.nodes.ShowsAll context.grammar.registry symbols forest) :
    mirror.parse parser (symbols.map (Symbol.rename types)) (state.rename types rules) =
      match context.parse parser symbols state with
      | .ok report final => .ok (report.renumber rules) (final.rename types rules)
      | .error error final => .error error (final.rename types rules) := by
  obtain ⟨succeeds, fails⟩ := mirrors.simulates.parse_simulated shown rfl
    (trivial : (fun _ => True) (Reduction.Result.final (context.parse parser symbols state)))
  cases parsed : context.parse parser symbols state with
  | error error final =>
      obtain ⟨_, rfl, parsed'⟩ := fails error final parsed id
      exact parsed'
  | ok report final =>
      obtain ⟨_, rfl, parsed'⟩ := succeeds report final parsed
      have reports := parse_report parsed
      rw [parsed']
      simp only [ParseReport.renumber, ReductionState.rename, size_rename, reports.divergence,
        reports.validSteps, reports.halted, reports.nodeCount]

end Mirrors

end ReductionContext

end RowGrammar
