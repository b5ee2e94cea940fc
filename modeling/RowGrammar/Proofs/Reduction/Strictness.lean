import RowGrammar.Proofs.Reduction.Simulation

/-!
# Strict reductions

A strict reduction takes no unrecognized symbol along, and it fails where several symbols are left
for no reason.  So it makes no unrecognized node before it has to stop, and a reduction that is not
strict does the same.  The other way round, a reduction that is not strict and ends without an
unrecognized node may as well be strict.
-/

namespace RowGrammar

open NodeTable

/-- As long as nothing has made reducing stop, the nodes have types with names of their own. -/
def ReductionState.Named (registry : Registry) (state : ReductionState) : Prop :=
  state.halted = false → ∀ {id : NodeId} {node : Node}, state.nodes.get? id = some node →
    registry.name node.nodeType ≠ unrecognizedName

def ReductionState.Recognized (state : ReductionState) : Prop :=
  ∀ {id : NodeId} {node : Node}, state.nodes.get? id = some node → node.nodeType ≠ unrecognized

theorem ReductionState.Named.push {registry : Registry} {state : ReductionState} {node : Node}
    (named : state.Named registry)
    (proper : state.halted = false → registry.name node.nodeType ≠ unrecognizedName) :
    ReductionState.Named registry { state with nodes := state.nodes.push node } := by
  intro running id other got
  rcases get?_push_eq_some got with old | ⟨_, rfl⟩
  · exact named running old
  · exact proper running

namespace ReductionContext

/-- The rules make nodes of types with names of their own. -/
structure Proper (context : ReductionContext) : Prop where
  unnamed : context.grammar.registry.name unrecognized = unrecognizedName
  rules : ∀ {id : RuleId} {rule : ParserRule}, context.grammar.parserRules[id]? = some rule →
    context.grammar.registry.name rule.nodeType ≠ unrecognizedName

variable {context : ReductionContext}

theorem judge_strict {candidate candidate' : Candidate}
    (alike : SameCandidate id id candidate candidate') (strict : Bool) (parser : String)
    (group : Nat) (node : NodeId) (state : ReductionState) :
    ReductionContext.judge { context with strict } candidate' parser group node state =
      context.judge candidate parser group node state := by
  simp only [judge, alike.id, alike.rule.nodeType, id_eq]

/-- A reduction that is not strict follows a strict one, unless that fails. -/
theorem lenient_simulates (proper : context.Proper) (strict : context.strict = true) :
    Simulates id id (fun _ => True) (fun _ => True)
      (fun state other => other = state ∧ state.Named context.grammar.registry)
      context { context with strict := false } where
  same := .of_eq rfl rfl
  lasting := ⟨fun _ => id, fun one two => one ∘ two, fun _ _ => id, fun _ _ => id,
    fun _ _ _ _ _ => id⟩
  nodes relates := by rw [rename_id, relates.1]
  push := by
    intro state other relates node makes
    obtain ⟨rfl, named⟩ := relates
    refine ⟨rfl, named.push ?_⟩
    intro running
    -- A strict reduction that has not stopped fails before it makes an unrecognized node.
    rcases makes with ⟨_, rule, listed, typed⟩ | ⟨_, stopped⟩
    · rw [typed]
      exact proper.rules listed
    · rw [strict, running] at stopped
      cases stopped
  run := by
    intro state other relates _ runs
    rw [relates.1]
    exact runs
  halt := by
    intro state other relates _ halts
    rw [relates.1]
    exact ⟨halts, rfl, nofun⟩
  absorbs := by
    intro state other symbols forest shown relates _ runs
    have running : state.halted = false := by
      simp only [mustHalt, Bool.or_eq_false_iff] at runs
      exact runs.1.1
    have recognized {number : NodeId} {node : Node} (got : state.nodes.get? number = some node) :
        node.nodeType ≠ unrecognized := by
      intro unknown
      apply relates.2 running got
      rw [unknown]
      exact proper.unnamed
    rw [Array.map_id, absorbs, absorbs, shown.contains_unrecognized recognized, Bool.and_false,
      Bool.and_false]
  judge := by
    intro state other candidate candidate' node nodeType children parser group relates alike _ _
    obtain ⟨rfl, named⟩ := relates
    refine ⟨judge_strict alike _ _ _ _ _, ?_⟩
    intro running number made got
    rw [judge_halted] at running
    rw [judge_nodes] at got
    exact named running got
  wrap := by
    intro state other parser symbols relates _ _
    obtain ⟨rfl, _⟩ := relates
    cases halted : other.halted with
    | true => exact .inl (by rw [Bool.not_true, Bool.and_false, Bool.and_false])
    | false => exact .inr ⟨by rw [strict]; rfl, fun _ => trivial⟩

/-- A strict reduction follows one that leaves nothing unrecognized. -/
theorem strict_simulates (lenient : context.strict = false) :
    Simulates id id ReductionState.Recognized (fun _ => False) (fun state other => other = state)
      context { context with strict := true } where
  same := .of_eq rfl rfl
  lasting := by
    refine context.respects_precedes.mono ?_ fun one two => one ∘ two
    intro state later precedes recognized id node got
    obtain ⟨added, grows⟩ := precedes.nodes
    exact recognized (grows.get? got)
  nodes relates := by rw [rename_id, relates]
  push := by
    intro state other relates node _
    rw [relates]
    rfl
  run := by
    intro state other relates _ runs
    rw [relates]
    exact runs
  halt := by
    intro state other relates _ halts
    rw [relates]
    exact ⟨halts, rfl⟩
  absorbs := by
    intro state other symbols forest shown _ recognized _
    rw [Array.map_id, absorbs, absorbs, shown.contains_unrecognized recognized, Bool.and_false,
      Bool.and_false]
  judge := by
    intro state other candidate candidate' node nodeType children parser group relates alike _ _
    rw [relates]
    exact judge_strict alike _ _ _ _ _
  wrap := by
    intro state other parser symbols _ several recognized
    -- The sequence would be put below an unrecognized node.
    rw [wrap_several context several, lenient] at recognized
    exact absurd rfl (recognized (get?_push_size _ _))

/-- A strict parse that succeeds ends in the same way when it is not strict, and nothing is
unrecognized unless it had to stop. -/
theorem parse_lenient (proper : context.Proper) (strict : context.strict = true) {parser : String}
    {symbols : List Symbol} {forest : List Tree} {state final : ReductionState}
    {report : ParseReport}
    (shown : state.nodes.ShowsAll context.grammar.registry symbols forest)
    (named : state.Named context.grammar.registry)
    (parsed : context.parse parser symbols state = .ok report final) :
    ReductionContext.parse { context with strict := false } parser symbols state =
        .ok report final ∧
      final.Named context.grammar.registry := by
  obtain ⟨final', relates, parsed'⟩ := ((lenient_simulates proper strict).parse_simulated shown
    ⟨rfl, named⟩ trivial).1 report final parsed
  obtain ⟨rfl, named⟩ := relates
  have kept : symbols.map (Symbol.rename id) = symbols := List.map_id symbols
  rw [kept] at parsed'
  rw [(parse_report parsed).eq]
  exact ⟨parsed', named⟩

/-- A parse that leaves nothing unrecognized ends in the same way when it is strict. -/
theorem parse_strict (lenient : context.strict = false) {parser : String}
    {symbols : List Symbol} {forest : List Tree} {state final : ReductionState}
    {report : ParseReport}
    (shown : state.nodes.ShowsAll context.grammar.registry symbols forest)
    (parsed : context.parse parser symbols state = .ok report final)
    (recognized : final.Recognized) :
    ReductionContext.parse { context with strict := true } parser symbols state =
      .ok report final := by
  have ends : ReductionState.Recognized
      (Reduction.Result.final (context.parse parser symbols state)) := by
    rw [parsed]
    exact recognized
  obtain ⟨_, rfl, parsed'⟩ :=
    ((strict_simulates lenient).parse_simulated shown rfl ends).1 report final parsed
  have kept : symbols.map (Symbol.rename id) = symbols := List.map_id symbols
  rw [kept] at parsed'
  rw [(parse_report parsed).eq]
  exact parsed'

end ReductionContext

end RowGrammar
