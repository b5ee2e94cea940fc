import RowGrammar.Proofs.Reduction.Simulation
import RowGrammar.Proofs.Reduction.Termination

/-!
# The steps of a reduction

What a run has reduced, in the order in which its nodes were made: over all passes and groups, with
the steps of a sub-parser before the step that they are made for.  Nodes that hold what is left are
no steps.  The divergence of a run and its number of valid steps can be read off the steps: the
first one whose tree is not expected is the divergence.
-/

namespace RowGrammar

open NodeTable Reduction

/-- The children of a node. -/
def NodeTable.children (table : NodeTable) (id : NodeId) : List NodeId :=
  match table.get? id with
  | some ⟨_, .children ids⟩ => ids
  | _ => []

/-- A rule of a group of a parser has put a node over others. -/
structure Step where
  rule : RuleId
  nodeType : NodeTypeId
  parser : String
  group : Nat
  children : List NodeId
  node : NodeId
  deriving DecidableEq, Repr

/-- The divergence at a step that has built a tree which is not expected. -/
def Step.divergence (registry : Registry) (step : Step) (tree : Tree) : Divergence :=
  ⟨step.rule, registry.name step.nodeType, step.parser, step.group, tree⟩

namespace Reduction

/-- The steps that come after a result, if there is one. -/
def thereafter {α : Type} (result : Result α) (next : α → ReductionState → List Step) :
    List Step :=
  match result with
  | .ok value state => next value state
  | .error _ _ => []

@[simp]
theorem thereafter_ok {α : Type} (value : α) (state : ReductionState)
    (next : α → ReductionState → List Step) :
    thereafter (.ok value state) next = next value state :=
  rfl

end Reduction

namespace ReductionContext

variable (context : ReductionContext) (delegate : String → List Symbol → Reduction NodeId)
  (inner : String → List Symbol → ReductionState → List Step)

/-- The steps of the parser that has to reduce the captured symbols first. -/
def buildSteps (rule : ParserRule) (captured : List Symbol) (state : ReductionState) : List Step :=
  match rule.subparser with
  | some parser => inner parser captured state
  | none => []

/-- The step that makes the node of a candidate. -/
def stepOf (candidate : Candidate) (parser : String) (groupIndex : Nat) (node : NodeId)
    (after : ReductionState) : Step :=
  ⟨candidate.id, candidate.rule.nodeType, parser, groupIndex, after.nodes.children node, node⟩

/-- The steps of applying the rules of a group. -/
def groupSteps (parser : String) (groupIndex : Nat) (group : PrecedenceGroup) :
    Nat → Nat → Progress → ReductionState → List Step
  | 0, _, _, _ => []
  | fuel + 1, position, progress, state =>
      if context.mustHalt state then []
      else
        match context.candidate? state.nodes group progress.symbols position with
        | none => []
        | some candidate =>
            let captured := candidate.found.capture.slice progress.symbols
            buildSteps inner candidate.rule captured state ++
              thereafter (build delegate candidate.rule captured state) fun node after =>
                stepOf candidate parser groupIndex node after ::
                  groupSteps parser groupIndex group fuel candidate.found.start
                    { progress with
                      symbols := candidate.found.capture.splice ⟨candidate.rule.nodeType, node⟩
                        progress.symbols
                      changed := true }
                    (context.judge candidate parser groupIndex node after)

/-- The steps of applying groups one after the other. -/
def passSteps (parser : String) (fuel : Nat) :
    List (PrecedenceGroup × Nat) → Progress → ReductionState → List Step
  | [], _, _ => []
  | (group, index) :: groups, progress, state =>
      context.groupSteps delegate inner parser index group fuel 0 progress state ++
        thereafter (context.reduceGroup delegate parser index group fuel 0 progress state)
          fun middle after =>
            if middle.stopped then [] else passSteps parser fuel groups middle after

/-- The steps of repeating passes. -/
def passesSteps (parser : String) (groups : List (PrecedenceGroup × Nat)) (steps : Nat) :
    Nat → List Symbol → ReductionState → List Step
  | 0, _, _ => []
  | fuel + 1, symbols, state =>
      context.passSteps delegate inner parser steps groups ⟨symbols, false, false⟩ state ++
        thereafter (context.reducePass delegate parser steps groups ⟨symbols, false, false⟩ state)
          fun progress after =>
            if progress.stopped || !progress.changed then []
            else passesSteps parser groups steps fuel progress.symbols after

/-- The steps of reducing symbols to one node. -/
def stepsWith : Nat → String → List Symbol → ReductionState → List Step
  | 0, _, _, _ => []
  | levels + 1, parser, symbols, state =>
      if symbols.isEmpty then []
      else
        match context.grammar.parser? parser with
        | none => []
        | some table =>
            context.passesSteps (context.reduceWith levels) (stepsWith levels) parser
              table.groups.zipIdx (context.stepBound symbols.length)
              (context.stepBound symbols.length) symbols state

/-- The steps of a parse. -/
def steps (parser : String) (symbols : List Symbol) (state : ReductionState) : List Step :=
  context.stepsWith (context.levelBound symbols.length) parser symbols state

/-! ## What steps say -/

variable {context delegate inner}

/-- A step has made a node for a rule of a group. -/
structure Made (context : ReductionContext) (nodes : NodeTable) (step : Step) : Prop where
  node : nodes.get? step.node = some ⟨step.nodeType, .children step.children⟩
  rule : ∃ rule, context.grammar.parserRules[step.rule]? = some rule ∧
    rule.nodeType = step.nodeType
  group : ∃ table group, context.grammar.parser? step.parser = some table ∧
    table.groups[step.group]? = some group ∧ step.rule ∈ group.rules

theorem Made.mono {nodes later : NodeTable} {added : List Node} {step : Step}
    (made : context.Made nodes step) (grows : nodes.Grows added later) : context.Made later step :=
  ⟨grows.get? made.node, made.rule, made.group⟩

/-- The tree that a step has built is one of those that are expected. -/
def Expected (context : ReductionContext) (subtrees : List Tree) (nodes : NodeTable) (step : Step) :
    Prop :=
  ∃ tree ∈ subtrees, nodes.tree? context.grammar.registry step.node = some tree

theorem Expected.mono {subtrees : List Tree} {nodes later : NodeTable} {added : List Node}
    {step : Step} (expected : context.Expected subtrees nodes step)
    (grows : nodes.Grows added later) : context.Expected subtrees later step := by
  obtain ⟨tree, member, found⟩ := expected
  exact ⟨tree, member, tree?_mono grows found⟩

/-- What the steps of a run mean for its divergence and its number of valid steps. -/
inductive Judged (context : ReductionContext) (subtrees : List Tree) (state : ReductionState)
    (steps : List Step) (after : ReductionState) : Prop where
  | agreed :
      state.divergence = none → after.divergence = none →
      after.validSteps = state.validSteps + steps.length →
      (∀ step ∈ steps, context.Expected subtrees after.nodes step) →
      Judged context subtrees state steps after
  | diverged (before : List Step) (step : Step) (later : List Step) (tree : Tree) :
      state.divergence = none → steps = before ++ step :: later →
      after.validSteps = state.validSteps + before.length →
      (∀ earlier ∈ before, context.Expected subtrees after.nodes earlier) →
      after.divergence = some (step.divergence context.grammar.registry tree) →
      after.nodes.tree? context.grammar.registry step.node = some tree → tree ∉ subtrees →
      Judged context subtrees state steps after
  | known (divergence : Divergence) :
      state.divergence = some divergence → after.divergence = some divergence →
      after.validSteps = state.validSteps →
      Judged context subtrees state steps after

namespace Judged

variable {subtrees : List Tree} {state middle after : ReductionState} {steps later : List Step}

/-- Nothing has happened that is compared with the expected tree. -/
theorem unseen (divergence : after.divergence = state.divergence)
    (validSteps : after.validSteps = state.validSteps) :
    context.Judged subtrees state [] after := by
  cases known : state.divergence with
  | none => exact .agreed known (divergence.trans known) validSteps nofun
  | some found => exact .known found known (divergence.trans known) validSteps

theorem trans {added : List Node} (one : context.Judged subtrees state steps middle)
    (two : context.Judged subtrees middle later after)
    (grows : middle.nodes.Grows added after.nodes) :
    context.Judged subtrees state (steps ++ later) after := by
  cases one with
  | agreed calm calm' counted expected =>
      have first : ∀ step ∈ steps, context.Expected subtrees after.nodes step :=
        fun step member => (expected step member).mono grows
      cases two with
      | agreed _ calm'' counted' expected' =>
          refine .agreed calm calm'' ?_ ?_
          · rw [counted', counted, List.length_append, Nat.add_assoc]
          · intro step member
            exact (List.mem_append.mp member).elim (first step) (expected' step)
      | diverged before step rest tree _ same counted' expected' found shown fresh =>
          subst same
          refine .diverged (steps ++ before) step rest tree calm (by rw [List.append_assoc]) ?_ ?_
            found shown fresh
          · rw [counted', counted, List.length_append, Nat.add_assoc]
          · intro earlier member
            exact (List.mem_append.mp member).elim (first earlier) (expected' earlier)
      | known divergence found =>
          rw [calm'] at found
          cases found
  | diverged before step rest tree calm same counted expected found shown fresh =>
      subst same
      cases two with
      | agreed calm' =>
          rw [found] at calm'
          cases calm'
      | diverged _ _ _ _ calm' =>
          rw [found] at calm'
          cases calm'
      | known divergence found' found'' counted' =>
          rw [found', Option.some.injEq] at found
          refine .diverged before step (rest ++ later) tree calm (by simp) (counted'.trans counted)
            (fun earlier member => (expected earlier member).mono grows)
            (found''.trans (congrArg some found)) (tree?_mono grows shown) fresh
  | known divergence found found' counted =>
      cases two with
      | agreed calm' =>
          rw [found'] at calm'
          cases calm'
      | diverged _ _ _ _ calm' =>
          rw [found'] at calm'
          cases calm'
      | known other same last counted' =>
          rw [found', Option.some.injEq] at same
          subst same
          exact .known divergence found last (counted'.trans counted)

/-- Comparing the tree of a step is what counts it or makes it the divergence. -/
theorem judge {candidate : Candidate} {parser : String} {group : Nat} {node : NodeId} {tree : Tree}
    (watched : context.expected = some subtrees)
    (shown : state.nodes.tree? context.grammar.registry node = some tree) :
    context.Judged subtrees state [stepOf candidate parser group node state]
      (context.judge candidate parser group node state) := by
  have verdict := context.judge_verdict candidate parser group node state
  generalize context.judge candidate parser group node state = after at verdict
  cases verdict with
  | ignored ignored =>
      rw [watched, shown] at ignored
      obtain ⟨divergence, known⟩ := Option.isSome_iff_exists.mp (by simpa using ignored)
      exact .known divergence known known rfl
  | agreed watches calm shows_ expected =>
      cases watched.symm.trans watches
      cases shown.symm.trans shows_
      refine .agreed calm calm rfl fun step member => ?_
      rw [List.mem_singleton] at member
      subst member
      exact ⟨tree, expected, shown⟩
  | diverged watches calm shows_ unexpected =>
      cases watched.symm.trans watches
      cases shown.symm.trans shows_
      exact .diverged [] (stepOf candidate parser group node state) [] tree calm rfl rfl nofun
        rfl shown unexpected

end Judged

/-- The steps are all that has been reduced between two tables, in the order of their nodes.  The
other new nodes hold what is left. -/
structure Accounts (context : ReductionContext) (table : NodeTable) (steps : List Step)
    (later : NodeTable) : Prop where
  made : ∀ step ∈ steps, context.Made later step
  fresh : ∀ step ∈ steps, table.size ≤ step.node
  ordered : steps.Pairwise fun step next => step.node < next.node
  complete : ∀ id node, later.get? id = some node → table.size ≤ id →
    node.nodeType = unrecognized ∨ ∃ step ∈ steps, step.node = id

namespace Accounts

variable {table middle later : NodeTable} {steps further : List Step}

theorem refl (table : NodeTable) : context.Accounts table [] table where
  made := nofun
  fresh := nofun
  ordered := .nil
  complete _ _ got new := absurd (lt_size_of_get? got) (Nat.not_lt.mpr new)

theorem trans {added added' : List Node} (one : context.Accounts table steps middle)
    (two : context.Accounts middle further later) (grows : table.Grows added middle)
    (grows' : middle.Grows added' later) : context.Accounts table (steps ++ further) later where
  made step member :=
    (List.mem_append.mp member).elim (fun first => (one.made step first).mono grows')
      (two.made step)
  fresh step member := by
    rcases List.mem_append.mp member with first | second
    · exact one.fresh step first
    · have after := two.fresh step second
      rw [grows.size_eq] at after
      exact Nat.le_of_add_right_le after
  ordered := by
    refine List.pairwise_append.mpr ⟨one.ordered, two.ordered, ?_⟩
    intro step first next second
    exact Nat.lt_of_lt_of_le (lt_size_of_get? (one.made step first).node) (two.fresh next second)
  complete id node got new := by
    rcases Nat.lt_or_ge id middle.size with early | late
    · obtain ⟨before, got'⟩ : ∃ before, middle.get? id = some before :=
        ⟨_, Array.getElem?_eq_getElem early⟩
      rw [grows'.get? got', Option.some.injEq] at got
      subst got
      exact (one.complete id before got' new).imp_right fun ⟨step, first, same⟩ =>
        ⟨step, List.mem_append_left _ first, same⟩
    · exact (two.complete id node got late).imp_right fun ⟨step, second, same⟩ =>
        ⟨step, List.mem_append_right _ second, same⟩

/-- A node that holds what is left is no step. -/
theorem push (table : NodeTable) (children : List NodeId) :
    context.Accounts table [] (table.push ⟨unrecognized, .children children⟩) where
  made := nofun
  fresh := nofun
  ordered := .nil
  complete id node got new := by
    rcases get?_push_eq_some got with old | ⟨_, rfl⟩
    · exact absurd (lt_size_of_get? old) (Nat.not_lt.mpr new)
    · exact .inl rfl

/-- A node that is made for a rule is one step. -/
theorem step {step : Step} (made : context.Made later step) (new : step.node = table.size)
    (grown : later.size = table.size + 1) : context.Accounts table [step] later where
  made other member := by rwa [List.mem_singleton.mp member]
  fresh other member := by rw [List.mem_singleton.mp member, new]
  ordered := List.pairwise_singleton _ _
  complete id node got after := by
    have below := lt_size_of_get? got
    rw [grown] at below
    exact .inr ⟨step, List.mem_singleton_self step,
      new.trans (Nat.le_antisymm after (Nat.le_of_lt_succ below))⟩

end Accounts

/-- The steps of a run account for its nodes, and they say how it compares with what is
expected. -/
structure Records (context : ReductionContext) (state : ReductionState) (steps : List Step)
    (after : ReductionState) : Prop where
  grows : ∃ added, state.nodes.Grows added after.nodes
  accounts : context.Accounts state.nodes steps after.nodes
  judged : ∀ subtrees, context.expected = some subtrees →
    context.Judged subtrees state steps after

namespace Records

variable {state middle after : ReductionState} {steps later : List Step}

theorem refl (state : ReductionState) : context.Records state [] state :=
  ⟨⟨[], .refl _⟩, .refl _, fun _ _ => .unseen rfl rfl⟩

theorem trans (one : context.Records state steps middle)
    (two : context.Records middle later after) : context.Records state (steps ++ later) after := by
  obtain ⟨⟨added, grows⟩, accounts, judged⟩ := one
  obtain ⟨⟨further, grew⟩, accounts', judged'⟩ := two
  exact ⟨⟨added ++ further, grows.trans grew⟩, accounts.trans accounts' grows grew,
    fun subtrees watched => (judged subtrees watched).trans (judged' subtrees watched) grew⟩

theorem push (state : ReductionState) (children : List NodeId) :
    context.Records state []
      { state with nodes := state.nodes.push ⟨unrecognized, .children children⟩ } :=
  ⟨⟨_, .push _ _⟩, .push _ _, fun _ _ => .unseen rfl rfl⟩

theorem halt (state : ReductionState) : context.Records state [] { state with halted := true } :=
  ⟨⟨[], .refl _⟩, .refl _, fun _ _ => .unseen rfl rfl⟩

/-- Making the node of a candidate and comparing its tree is a step. -/
theorem step {parser : String} {table : ParserTable}
    (known : context.grammar.parser? parser = some table) {group : PrecedenceGroup}
    {groupIndex : Nat} (member : (group, groupIndex) ∈ table.groups.zipIdx)
    {nodes : NodeTable} {symbols : List Symbol} {position : Nat} {candidate : Candidate}
    (found : context.candidate? nodes group symbols position = some candidate)
    {children : List NodeId} {tree : Tree}
    (pushed : middle = { state with
      nodes := state.nodes.push ⟨candidate.rule.nodeType, .children children⟩ })
    (shown : middle.nodes.tree? context.grammar.registry state.nodes.size = some tree) :
    context.Records state [stepOf candidate parser groupIndex state.nodes.size middle]
      (context.judge candidate parser groupIndex state.nodes.size middle) := by
  obtain ⟨listed, ruled, _⟩ := candidate?_eq_some found
  have grows : state.nodes.Grows [⟨candidate.rule.nodeType, .children children⟩]
      (context.judge candidate parser groupIndex state.nodes.size middle).nodes := by
    rw [judge_nodes, pushed]
    exact .push _ _
  have present : middle.nodes.get? state.nodes.size =
      some ⟨candidate.rule.nodeType, .children children⟩ := by
    rw [pushed]
    exact get?_push_size _ _
  refine ⟨⟨_, grows⟩, .step ?_ rfl grows.size_eq, ?_⟩
  · refine ⟨?_, ⟨_, ruled, rfl⟩, table, group, known, List.mk_mem_zipIdx_iff_getElem?.mp member,
      listed⟩
    rw [judge_nodes, stepOf, NodeTable.children, present]
  · intro subtrees watched
    have before : context.Judged subtrees state [] middle := by
      rw [pushed]
      exact .unseen rfl rfl
    have unchanged : middle.nodes.Grows []
        (context.judge candidate parser groupIndex state.nodes.size middle).nodes := by
      rw [judge_nodes]
      exact .refl _
    exact before.trans (.judge watched shown) unchanged

end Records

/-! ## The steps of every run -/

/-- A record of the steps of a way to reduce. -/
def Logs (context : ReductionContext) (delegate : String → List Symbol → Reduction NodeId)
    (inner : String → List Symbol → ReductionState → List Step) : Prop :=
  ∀ parser symbols state root final forest,
    state.nodes.ShowsAll context.grammar.registry symbols forest →
    delegate parser symbols state = .ok root final →
      context.Records state (inner parser symbols state) final

section

variable (sound : context.Sound delegate) (logs : context.Logs delegate inner)

include logs in
/-- Up to the node of a rule there are the steps of its sub-parser. -/
theorem build_records {rule : ParserRule} {captured : List Symbol} {forest : List Tree}
    {state middle : ReductionState} {node : NodeId}
    (shown : state.nodes.ShowsAll context.grammar.registry captured forest)
    (built : build delegate rule captured state = .ok node middle) :
    ∃ between children, context.Records state (buildSteps inner rule captured state) between ∧
      node = between.nodes.size ∧
      middle = { between with
        nodes := between.nodes.push ⟨rule.nodeType, .children children⟩ } := by
  cases delegation : rule.subparser with
  | none =>
      rw [build_direct delegate delegation] at built
      cases built
      simp only [buildSteps, delegation]
      exact ⟨state, _, .refl state, rfl, rfl⟩
  | some parser =>
      rw [build_delegated delegate delegation, followed_eq_ok_iff] at built
      obtain ⟨root, after, reduced, made⟩ := built
      cases made
      simp only [buildSteps, delegation]
      exact ⟨after, _, logs parser captured state root after forest shown reduced, rfl, rfl⟩

include sound logs

theorem reduceGroup_records {parser : String} {table : ParserTable}
    (known : context.grammar.parser? parser = some table) {group : PrecedenceGroup}
    {groupIndex : Nat} (member : (group, groupIndex) ∈ table.groups.zipIdx) {fuel position : Nat}
    {progress final : Progress} {state after : ReductionState} {forest : List Tree}
    (shown : state.nodes.ShowsAll context.grammar.registry progress.symbols forest)
    (ran : context.reduceGroup delegate parser groupIndex group fuel position progress state =
      .ok final after) :
    context.Records state
      (context.groupSteps delegate inner parser groupIndex group fuel position progress state)
      after := by
  induction fuel generalizing position progress state forest with
  | zero =>
      cases ran
      exact .refl _
  | succ fuel induction =>
      rw [groupSteps]
      cases halts : context.mustHalt state with
      | true =>
          rw [reduceGroup_halt context delegate halts] at ran
          cases ran
          rw [if_pos rfl]
          exact .halt state
      | false =>
          rw [if_neg Bool.false_ne_true]
          cases found : context.candidate? state.nodes group progress.symbols position with
          | none =>
              rw [reduceGroup_done context delegate halts found] at ran
              cases ran
              exact .refl _
          | some candidate =>
              rw [reduceGroup_step context delegate halts found, followed_eq_ok_iff] at ran
              obtain ⟨node, middle, built, rest⟩ := ran
              obtain ⟨_, _, filled, inside⟩ := candidate?_eq_some found
              have captured := shown.slice candidate.found.capture
              obtain ⟨between, children, before, rfl, pushed⟩ := build_records logs captured built
              obtain ⟨tree, extends_, shows_⟩ := build_shows sound captured
                (SymbolPattern.Span.slice_ne_nil filled inside) built
              have here := Records.step known member found pushed shows_.tree?_eq
              have shown' := (shown.extend extends_).splice candidate.found.capture shows_
              rw [← judge_nodes candidate parser groupIndex between.nodes.size middle] at shown'
              simp only [built, thereafter_ok]
              exact before.trans (here.trans (induction shown' rest))

theorem reducePass_records {parser : String} {table : ParserTable}
    (known : context.grammar.parser? parser = some table) {fuel : Nat}
    {groups : List (PrecedenceGroup × Nat)} (members : groups ⊆ table.groups.zipIdx)
    {progress final : Progress} {state after : ReductionState} {forest : List Tree}
    (shown : state.nodes.ShowsAll context.grammar.registry progress.symbols forest)
    (ran : context.reducePass delegate parser fuel groups progress state = .ok final after) :
    context.Records state (context.passSteps delegate inner parser fuel groups progress state)
      after := by
  induction groups generalizing progress state forest with
  | nil =>
      cases ran
      exact .refl _
  | cons first groups induction =>
      obtain ⟨group, index⟩ := first
      have member := members List.mem_cons_self
      rw [reducePass_cons, followed_eq_ok_iff] at ran
      obtain ⟨middle, between, grouped, rest⟩ := ran
      have one := reduceGroup_records sound logs known member shown grouped
      obtain ⟨forest', _, shown'⟩ :=
        (reduceGroup_reaches sound known member grouped).extends_ shown
      rw [passSteps, grouped, thereafter_ok]
      refine one.trans ?_
      split at rest
      · rename_i stops
        cases rest
        rw [if_pos stops]
        exact .refl _
      · rename_i goes
        rw [if_neg goes]
        exact induction (List.subset_of_cons_subset members) shown' rest

theorem reducePasses_records {parser : String} {table : ParserTable}
    (known : context.grammar.parser? parser = some table) {steps fuel : Nat}
    {symbols rest : List Symbol} {state after : ReductionState} {forest : List Tree}
    (shown : state.nodes.ShowsAll context.grammar.registry symbols forest)
    (ran : context.reducePasses delegate parser table.groups.zipIdx steps fuel symbols state =
      .ok rest after) :
    context.Records state (context.passesSteps delegate inner parser table.groups.zipIdx steps fuel
      symbols state) after := by
  induction fuel generalizing symbols state forest with
  | zero =>
      cases ran
      exact .refl _
  | succ fuel induction =>
      have whole : state.nodes.ShowsAll context.grammar.registry
          (Progress.mk symbols false false).symbols forest := shown
      rw [reducePasses_succ, followed_eq_ok_iff] at ran
      obtain ⟨progress, between, passed, later⟩ := ran
      have one := reducePass_records sound logs known (List.Subset.refl _) whole passed
      obtain ⟨forest', _, shown'⟩ :=
        (reducePass_reaches sound known (List.Subset.refl _) passed).extends_ whole
      rw [passesSteps, passed, thereafter_ok]
      refine one.trans ?_
      split at later
      · rename_i ends
        cases later
        rw [if_pos ends]
        exact .refl _
      · rename_i goes
        rw [if_neg goes]
        exact induction shown' later

end

theorem wrap_records {parser : String} {symbols : List Symbol} {state final : ReductionState}
    {root : NodeId} (wrapped : context.wrap parser symbols state = .ok root final) :
    context.Records state [] final := by
  by_cases single : symbols.length = 1
  · obtain ⟨symbol, rfl⟩ := List.length_eq_one_iff.mp single
    cases wrapped
    exact .refl _
  · rw [wrap_several context single] at wrapped
    split at wrapped
    · cases wrapped
    · cases wrapped
      exact .push state _

/-- The steps of a reduction are those that it makes. -/
theorem reduceWith_records (levels : Nat) :
    context.Logs (context.reduceWith levels) (context.stepsWith levels) := by
  induction levels with
  | zero =>
      intro parser symbols state root final forest _ ran
      cases ran
  | succ levels induction =>
      intro parser symbols state root final forest shown ran
      by_cases empty : symbols = []
      · subst empty
        cases ran
      · have filled : symbols.isEmpty = false := by simpa using empty
        cases known : context.grammar.parser? parser with
        | none =>
            rw [reduceWith_unknown context known empty] at ran
            cases ran
        | some table =>
            rw [reduceWith_succ context known empty, followed_eq_ok_iff] at ran
            obtain ⟨rest, after, passes, wrapped⟩ := ran
            have one := reducePasses_records (reduceWith_sound levels) induction known shown passes
            simp only [stepsWith, filled, Bool.false_eq_true, if_false, known]
            simpa using one.trans (wrap_records wrapped)

/-- The steps of a parse are those that it makes. -/
theorem parse_records {parser : String} {symbols : List Symbol} {state final : ReductionState}
    {forest : List Tree} {report : ParseReport}
    (shown : state.nodes.ShowsAll context.grammar.registry symbols forest)
    (parsed : context.parse parser symbols state = .ok report final) :
    context.Records state (context.steps parser symbols state) final := by
  rw [parse_eq, followed_eq_ok_iff] at parsed
  obtain ⟨root, after, reduced, reported⟩ := parsed
  have records := reduceWith_records _ parser symbols state root after forest shown reduced
  split at reported
  · cases reported
    exact records
  · cases reported

end ReductionContext

end RowGrammar
