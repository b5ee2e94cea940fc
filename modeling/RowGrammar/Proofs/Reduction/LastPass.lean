import RowGrammar.Proofs.Reduction.Termination

/-!
# What the last pass leaves

A reduction that need not stop goes on until a whole pass finds no candidate.  The potential of the
symbols bounds the steps, so the loops never run out of fuel before that.  A divergence makes the
next test stop the reduction, and there always is a next test.
-/

namespace RowGrammar.ReductionContext

open NodeTable Reduction

variable {context : ReductionContext} {delegate : String → List Symbol → Reduction NodeId}
  {parser : String}

/-- How a loop leaves off: it had to stop, or it has made some progress and need not stop, or all
there was to see was `idle`. -/
inductive LeavesOff (context : ReductionContext) (idle : Prop) (progress : Progress)
    (state : ReductionState) (final : Progress) (after : ReductionState) : Prop where
  | stopped : final.stopped = true → after.halted = true →
      LeavesOff context idle progress state final after
  | changed : final.stopped = progress.stopped → final.changed = true →
      context.mustHalt after = false → LeavesOff context idle progress state final after
  | idle : idle → final = progress → after = state →
      LeavesOff context idle progress state final after

variable (apart : context.grammar.NamesApart) (sound : context.Sound delegate)

include apart sound

theorem reduceGroup_leavesOff {group : PrecedenceGroup} (owns : context.Owns parser group)
    {groupIndex fuel position : Nat} {progress final : Progress} {state after : ReductionState}
    {forest : List Tree}
    (shown : state.nodes.ShowsAll context.grammar.registry progress.symbols forest)
    (enough : Tree.potential (context.grammar.ownTypes parser) forest < fuel)
    (ran : context.reduceGroup delegate parser groupIndex group fuel position progress state =
      .ok final after) :
    context.LeavesOff (context.mustHalt state = false ∧
      context.candidate? state.nodes group progress.symbols position = none)
      progress state final after := by
  induction fuel generalizing position progress state forest with
  | zero => cases enough
  | succ fuel induction =>
      cases halts : context.mustHalt state with
      | true =>
          rw [reduceGroup_halt context delegate halts] at ran
          cases ran
          exact .stopped rfl rfl
      | false =>
          cases found : context.candidate? state.nodes group progress.symbols position with
          | none =>
              rw [reduceGroup_done context delegate halts found] at ran
              cases ran
              exact .idle ⟨rfl, rfl⟩ rfl rfl
          | some candidate =>
              rw [reduceGroup_step context delegate halts found, followed_eq_ok_iff] at ran
              obtain ⟨node, middle, built, rest⟩ := ran
              obtain ⟨forest', shown', lower⟩ := build_lowers apart sound owns shown found built
              rw [← judge_nodes candidate parser groupIndex node middle] at shown'
              cases induction shown' (Nat.lt_of_lt_of_le lower (Nat.le_of_lt_succ enough)) rest with
              | stopped stops halted => exact .stopped stops halted
              | changed stops changes runs => exact .changed stops changes runs
              | idle nothing same same' =>
                  subst same same'
                  exact .changed rfl rfl nothing.1

theorem reducePass_leavesOff {groups : List (PrecedenceGroup × Nat)}
    (owns : ∀ group ∈ groups, context.Owns parser group.1) {steps : Nat}
    {progress final : Progress} {state after : ReductionState} {forest : List Tree}
    (running : progress.stopped = false)
    (shown : state.nodes.ShowsAll context.grammar.registry progress.symbols forest)
    (enough : Tree.potential (context.grammar.ownTypes parser) forest < steps)
    (ran : context.reducePass delegate parser steps groups progress state = .ok final after) :
    context.LeavesOff (∀ group ∈ groups,
      context.candidate? state.nodes group.1 progress.symbols 0 = none)
      progress state final after := by
  induction groups generalizing progress state forest with
  | nil =>
      cases ran
      exact .idle nofun rfl rfl
  | cons first groups induction =>
      obtain ⟨group, index⟩ := first
      have later := fun group member => owns group (List.mem_cons_of_mem _ member)
      rw [reducePass_cons, followed_eq_ok_iff] at ran
      obtain ⟨middle, between, grouped, rest⟩ := ran
      obtain ⟨forest', shown', below, _⟩ :=
        reduceGroup_lowers apart sound (owns _ List.mem_cons_self) shown grouped
      cases reduceGroup_leavesOff apart sound (owns _ List.mem_cons_self) shown enough grouped with
      | stopped stops halted =>
          rw [if_pos stops] at rest
          cases rest
          exact .stopped stops halted
      | changed stops changes runs =>
          rw [stops, running, if_neg Bool.false_ne_true] at rest
          cases induction later (stops.trans running) shown' (by omega) rest with
          | stopped stops' halted => exact .stopped stops' halted
          | changed stops' changes' runs' => exact .changed (stops'.trans stops) changes' runs'
          | idle nothing same same' =>
              subst same same'
              exact .changed stops changes runs
      | idle nothing same same' =>
          subst same same'
          rw [running, if_neg Bool.false_ne_true] at rest
          cases induction later running shown enough rest with
          | stopped stops halted => exact .stopped stops halted
          | changed stops changes runs => exact .changed stops changes runs
          | idle others same same' =>
              exact .idle (List.forall_mem_cons.mpr ⟨nothing.2, others⟩) same same'

/-- Repeating passes ends with a stop or with symbols to which no rule applies. -/
theorem reducePasses_exhausts {groups : List (PrecedenceGroup × Nat)}
    (owns : ∀ group ∈ groups, context.Owns parser group.1) {steps fuel : Nat}
    {symbols rest : List Symbol} {state after : ReductionState} {forest : List Tree}
    (shown : state.nodes.ShowsAll context.grammar.registry symbols forest)
    (enough : Tree.potential (context.grammar.ownTypes parser) forest < steps)
    (more : Tree.potential (context.grammar.ownTypes parser) forest < fuel)
    (ran : context.reducePasses delegate parser groups steps fuel symbols state =
      .ok rest after) :
    after.halted = true ∨
      (∀ group ∈ groups, context.candidate? after.nodes group.1 rest 0 = none) ∧
        (state.divergence = none → after.divergence = none) := by
  induction fuel generalizing symbols state forest with
  | zero => cases more
  | succ fuel induction =>
      have whole : state.nodes.ShowsAll context.grammar.registry
          (Progress.mk symbols false false).symbols forest := shown
      rw [reducePasses_succ, followed_eq_ok_iff] at ran
      obtain ⟨progress, between, passed, later⟩ := ran
      obtain ⟨forest', shown', below, changes⟩ := reducePass_lowers apart sound owns whole passed
      cases reducePass_leavesOff apart sound owns rfl whole enough passed with
      | stopped stops halted =>
          rw [stops, Bool.true_or, if_pos rfl] at later
          cases later
          exact .inl halted
      | changed stops changed runs =>
          rw [stops, changed, Bool.false_or, Bool.not_true, if_neg Bool.false_ne_true] at later
          have lower := (changes changed).resolve_left Bool.false_ne_true
          have agreed : between.divergence = none := by
            simp only [mustHalt, Bool.or_eq_false_iff, Option.isSome_eq_false_iff,
              Option.isNone_iff_eq_none] at runs
            exact runs.1.2
          exact (induction shown' (by omega) (by omega) later).imp id
            fun ⟨nothing, calm⟩ => ⟨nothing, fun _ => calm agreed⟩
      | idle nothing same same' =>
          subst same same'
          cases later
          exact .inr ⟨nothing, id⟩

omit apart sound

/-- No rule of a group applies anywhere. -/
theorem candidate?_eq_none_iff {nodes : NodeTable} {group : PrecedenceGroup}
    {symbols : List Symbol} :
    context.candidate? nodes group symbols 0 = none ↔
      ∀ start < symbols.length, ∀ id ∈ group.rules,
        context.candidateAt? nodes symbols (symbols.map (·.nodeType)).toArray
          (context.absorbs (symbols.map (·.nodeType)).toArray) start id = none := by
  simp [candidate?, List.findSome?_eq_none_iff, List.mem_range'_1]

theorem wrap_final {symbols : List Symbol} {state final : ReductionState} {root : NodeId}
    (wrapped : context.wrap parser symbols state = .ok root final) :
    final.divergence = state.divergence ∧ final.validSteps = state.validSteps ∧
      final.halted = state.halted := by
  by_cases single : symbols.length = 1
  · obtain ⟨symbol, rfl⟩ := List.length_eq_one_iff.mp single
    cases wrapped
    exact ⟨rfl, rfl, rfl⟩
  · rw [wrap_several context single] at wrapped
    split at wrapped
    · cases wrapped
    · cases wrapped
      exact ⟨rfl, rfl, rfl⟩

/-- A reduction that meets a divergence stops there. -/
theorem reduceWith_halts (apart : context.grammar.NamesApart) {levels : Nat}
    (owns : ∀ table, context.grammar.parser? parser = some table →
      ∀ group ∈ table.groups.zipIdx, context.Owns parser group.1)
    {symbols : List Symbol} {state final : ReductionState} {forest : List Tree} {root : NodeId}
    (shown : state.nodes.ShowsAll context.grammar.registry symbols forest)
    (reduced : context.reduceWith levels parser symbols state = .ok root final)
    (agreed : state.divergence = none) : final.halted = true ∨ final.divergence = none := by
  cases levels with
  | zero => cases reduced
  | succ levels =>
      by_cases empty : symbols = []
      · subst empty
        cases reduced
      · cases known : context.grammar.parser? parser with
        | none =>
            rw [reduceWith_unknown context known empty] at reduced
            cases reduced
        | some table =>
            rw [reduceWith_succ context known empty, followed_eq_ok_iff] at reduced
            obtain ⟨rest, after, passes, wrapped⟩ := reduced
            have enough := context.potential_lt_stepBound parser (shown.ne_nil.mp empty)
            rw [← shown.length_eq] at enough
            obtain ⟨divergence, _, halted⟩ := wrap_final wrapped
            rw [divergence, halted]
            exact (reducePasses_exhausts apart (reduceWith_sound levels) (owns table known) shown
              enough enough passes).imp id fun calm => calm.2 agreed

/-- A report with a divergence is one of a reduction that has stopped. -/
theorem parse_halts (apart : context.grammar.NamesApart)
    (owns : ∀ table, context.grammar.parser? parser = some table →
      ∀ group ∈ table.groups.zipIdx, context.Owns parser group.1)
    {symbols : List Symbol} {nodes : NodeTable} {final : ReductionState} {forest : List Tree}
    {report : ParseReport}
    (shown : nodes.ShowsAll context.grammar.registry symbols forest)
    (parsed : context.parse parser symbols (.start nodes) = .ok report final) :
    report.halted = true ∨ report.divergence = none := by
  have reports := parse_report parsed
  rw [reports.halted, reports.divergence]
  rw [parse_eq, followed_eq_ok_iff] at parsed
  obtain ⟨root, after, reduced, reported⟩ := parsed
  have stops := reduceWith_halts apart owns shown reduced rfl
  split at reported
  · cases reported
    exact stops
  · cases reported

end RowGrammar.ReductionContext
