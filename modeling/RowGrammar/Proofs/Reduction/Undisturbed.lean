import RowGrammar.Proofs.Reduction.Watching

/-!
# Undisturbed reductions

A reduction that is watched may stop early, at the node limit or at the first tree that is not
expected.  When it has not stopped by the end, it never had a reason to, so it goes the same way
when nothing watches it.  If it has left no symbol unrecognized either, it may as well be strict.
-/

namespace RowGrammar

open NodeTable

/-- Nothing has made reducing stop so far.  Where `strict` asks for it, no node is unrecognized
either. -/
structure ReductionState.Undisturbed (strict : Bool) (state : ReductionState) : Prop where
  running : state.halted = false
  agreed : state.divergence = none
  recognized : strict = true → ∀ {id : NodeId} {node : Node}, state.nodes.get? id = some node →
    node.nodeType ≠ unrecognized

/-- Whatever has disturbed a reduction still shows later. -/
theorem ReductionState.Undisturbed.of_precedes {strict : Bool} {state later : ReductionState}
    (precedes : state.Precedes later) (calm : later.Undisturbed strict) :
    state.Undisturbed strict := by
  obtain ⟨⟨added, grows⟩, agreed, running⟩ := precedes
  refine ⟨running calm.running, agreed calm.agreed, ?_⟩
  intro strictly id node got
  exact calm.recognized strictly (grows.get? got)

namespace ReductionContext

variable {context : ReductionContext}

/-- An undisturbed run is the same without a node limit and an expected tree, strict or not. -/
theorem tolerates_unlimited (lenient : context.strict = false) (strict : Bool) :
    Tolerates (ReductionState.Undisturbed strict) context
      { context with strict, maxNodes := none, expected := none } where
  grammar := rfl
  patterns := rfl
  lasting precedes calm := calm.of_precedes precedes
  agreed calm := calm.agreed
  limit := .inr ⟨rfl, fun calm => calm.running⟩
  strict := by
    cases strict with
    | false => exact .inl lenient.symm
    | true => exact .inr ⟨lenient, fun calm _ _ got => calm.recognized rfl got⟩
  expected := nofun

/-! ## Reasons to stop -/

/-- Reducing has stopped at a divergence or at the node limit, if it has. -/
def Justified (context : ReductionContext) (state : ReductionState) : Prop :=
  state.halted = true →
    state.divergence.isSome ∨ context.maxNodes.any (· ≤ state.nodes.size) = true

theorem Justified.push {state : ReductionState} (justified : context.Justified state)
    (node : Node) : context.Justified { state with nodes := state.nodes.push node } := by
  intro halted
  rcases justified halted with diverged | full
  · exact .inl diverged
  · apply Or.inr
    cases given : context.maxNodes with
    | none => simp [given] at full
    | some limit =>
        have reached : limit ≤ state.nodes.size := by simpa [given] using full
        have grown := (NodeTable.Grows.push state.nodes node).size_eq
        simp only [Option.any_some, decide_eq_true_eq]
        omega

theorem Justified.halt {state : ReductionState} (justified : context.Justified state)
    (halts : context.mustHalt state = true) : context.Justified { state with halted := true } := by
  intro _
  rw [mustHalt, Bool.or_eq_true, Bool.or_eq_true] at halts
  rcases halts with (halted | diverged) | full
  · exact justified halted
  · exact .inl diverged
  · exact .inr full

theorem Justified.judge {state : ReductionState} (justified : context.Justified state)
    (candidate : Candidate) (parser : String) (group : Nat) (node : NodeId) :
    context.Justified (context.judge candidate parser group node state) := by
  have verdict := context.judge_verdict candidate parser group node state
  generalize context.judge candidate parser group node state = after at verdict
  cases verdict with
  | ignored _ => exact justified
  | agreed _ _ _ _ => exact justified
  | diverged _ _ _ _ => exact fun _ => .inl rfl

theorem respects_justified (context : ReductionContext) :
    context.Respects fun state later => context.Justified state → context.Justified later where
  refl _ := id
  trans one two := two ∘ one
  push _ node justified := justified.push node
  halt _ halts justified := justified.halt halts
  judge candidate parser group node _ justified := justified.judge candidate parser group node

/-- A parse below the node limit in which every tree is expected never had to stop. -/
theorem parse_running {parser : String} {symbols : List Symbol} {nodes : NodeTable}
    {report : ParseReport} {final : ReductionState}
    (parsed : context.parse parser symbols (.start nodes) = .ok report final)
    (agreed : report.divergence = none)
    (below : ∀ limit, context.maxNodes = some limit → final.nodes.size < limit) :
    final.halted = false := by
  have carried := context.respects_justified.parse parser symbols (.start nodes)
  rw [Reduction.Carries, parsed] at carried
  have fresh : context.Justified (.start nodes) := by
    intro halted
    cases halted
  have justified : context.Justified final := carried fresh
  apply Bool.eq_false_iff.mpr
  intro halted
  rcases justified halted with diverged | full
  · rw [← (parse_report parsed).divergence, agreed] at diverged
    cases diverged
  · cases given : context.maxNodes with
    | none => simp [given] at full
    | some limit =>
        have reached : limit ≤ final.nodes.size := by simpa [given] using full
        exact Nat.not_le_of_lt (below limit given) reached

end ReductionContext

end RowGrammar
