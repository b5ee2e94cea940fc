import RowGrammar.Proofs.Reduction.Chains
import RowGrammar.Proofs.Session

/-!
# Reductions end by themselves

`RunsGroup`, `RunsPass`, `RunsPasses` and `RunsTo` describe reducing without any bound on the number
of steps, passes and levels.  The bounds of the reduction are never met: what it computes is what
the unbounded loops end with, and without delegation it makes no more nodes than the potential
allows.
-/

namespace RowGrammar

namespace Grammar

/-- The names of the node types of a parser's rules. -/
def ownTypes (grammar : Grammar) (parser : String) : List String :=
  (grammar.parserRules.toList.filter (·.parser == parser)).map fun rule =>
    grammar.registry.name rule.nodeType

/-- No other node type has the name of a parser rule. -/
def NamesApart (grammar : Grammar) : Prop :=
  ∀ rule ∈ grammar.parserRules.toList, ∀ id,
    grammar.registry.name id = grammar.registry.name rule.nodeType → id = rule.nodeType

theorem namesApart_arranged {rows : List Row} (readable : Readable rows)
    (groups : String → List PrecedenceGroup) : (arranged rows groups).NamesApart := by
  intro rule member id same
  obtain ⟨row, place, found, made⟩ := mem_parserRules.mp member
  rw [Row.parserRule?] at made
  split_ifs at made
  cases made
  have distinct : (unrecognizedName :: rows.map (·.nodeType)).Nodup := by
    refine List.nodup_cons.mpr ⟨?_, readable.distinct⟩
    intro inside
    obtain ⟨other, listed, equal⟩ := List.mem_map.mp inside
    exact (Registry.ne_of_isValidName (readable.each other listed).named).2 equal
  have valid := Registry.ne_of_isValidName (readable.each row (List.mem_of_getElem? found)).named
  have named (id : NodeTypeId) : (arranged rows groups).registry.name id =
      ((unrecognizedName :: rows.map (·.nodeType))[id]?).getD unrecognizedName := by
    simp [Registry.name, arranged, ungrouped]
  have here : (unrecognizedName :: rows.map (·.nodeType))[place + 1]? = some row.nodeType := by
    simp [found]
  rw [named, named, here] at same
  cases there : (unrecognizedName :: rows.map (·.nodeType))[id]? with
  | none =>
      rw [there] at same
      exact absurd same.symm valid.2
  | some name =>
      rw [there, Option.getD_some, Option.getD_some] at same
      subst same
      obtain ⟨inside, equal⟩ := List.getElem?_eq_some_iff.mp there
      obtain ⟨inside', equal'⟩ := List.getElem?_eq_some_iff.mp here
      exact distinct.getElem_inj_iff.mp (equal.trans equal'.symm)

end Grammar

theorem Engine.Compiled.namesApart {engine : Engine} (compiled : engine.Compiled) :
    engine.grammar.NamesApart := by
  obtain ⟨rows, groups, arranges, same, _⟩ := compiled.exists_arranged
  rw [same]
  exact Grammar.namesApart_arranged arranges.readable groups

namespace NodeTable

/-- A name on the chain of a tree stands for a type on the chain of the node. -/
theorem chainContains_of_mem_chain {table : NodeTable} {registry : Registry} {nodeType : NodeTypeId}
    (apart : ∀ id, registry.name id = registry.name nodeType → id = nodeType) {id : NodeId}
    {tree : Tree} (below : table.tree? registry id = some tree)
    (member : registry.name nodeType ∈ tree.chain) : table.chainContains id nodeType = true := by
  have within (fuel : Nat) (id : NodeId) (tree : Tree)
      (below : table.treeWithin registry fuel id = some tree)
      (member : registry.name nodeType ∈ tree.chain) :
      table.chainContainsWithin nodeType fuel id = true := by
    induction fuel generalizing id tree with
    | zero => cases below
    | succ fuel induction =>
        simp only [treeWithin, Option.bind_eq_bind, Option.bind_eq_some_iff] at below
        obtain ⟨⟨other, payload⟩, present, built⟩ := below
        simp only [chainContainsWithin, present, Bool.or_eq_true, beq_iff_eq]
        cases payload with
        | text text =>
            cases built
            rw [Tree.chain, List.mem_singleton] at member
            exact .inl (apart other member.symm)
        | children ids =>
            simp only [Option.bind_eq_some_iff] at built
            obtain ⟨trees, inside, same⟩ := built
            cases same
            rw [Tree.chain, List.mem_cons] at member
            rcases member with here | later
            · exact .inl (apart other here.symm)
            · rw [mapM_eq_some_iff] at inside
              by_cases single : trees.length = 1
              · obtain ⟨child, rfl⟩ := List.length_eq_one_iff.mp single
                obtain ⟨childId, _, found, none_, rfl⟩ := List.forall₂_cons_right_iff.mp inside
                rw [List.forall₂_nil_right_iff] at none_
                subst none_
                exact .inr (induction childId child found later)
              · rw [Tree.onlyChain_of_length_ne_one single] at later
                cases later
  exact within (id + 1) id tree below member

end NodeTable

namespace ReductionContext

open Grammar NodeTable Reduction

variable {context : ReductionContext}

/-! ## What a step leaves to do -/

/-- A rule that takes a single symbol is not on the chain below it. -/
theorem candidate?_unit {nodes : NodeTable} {group : PrecedenceGroup} {symbols : List Symbol}
    {position : Nat} {candidate : Candidate}
    (found : context.candidate? nodes group symbols position = some candidate) {symbol : Symbol}
    (single : candidate.found.capture.slice symbols = [symbol]) :
    nodes.chainContains symbol.node candidate.rule.nodeType = false := by
  obtain ⟨_, _, _, inside⟩ := candidate?_eq_some found
  have taken := (SymbolPattern.Span.slice_eq_singleton_iff inside).mp single
  simp only [candidate?] at found
  obtain ⟨start, _, foundAt⟩ := List.exists_of_findSome?_eq_some found
  obtain ⟨id, _, applies⟩ := List.exists_of_findSome?_eq_some foundAt
  simp only [candidateAt?, Option.bind_eq_bind, Option.bind_eq_some_iff] at applies
  obtain ⟨rule, _, pattern, _, matched, _, made⟩ := applies
  split at made
  · cases made
  · rename_i fresh
    cases made
    simpa [taken.1, taken.2] using fresh

/-- The node of a candidate has a tree that is built over those of the captured symbols. -/
theorem build_shows {delegate : String → List Symbol → Reduction NodeId}
    (sound : context.Sound delegate) {rule : ParserRule} {captured : List Symbol}
    {forest : List Tree} {state middle : ReductionState} {node : NodeId}
    (shown : state.nodes.ShowsAll context.grammar.registry captured forest)
    (nonempty : captured ≠ []) (built : build delegate rule captured state = .ok node middle) :
    ∃ tree, state.nodes.Extends context.grammar.registry forest middle.nodes [tree] ∧
      middle.nodes.Shows context.grammar.registry ⟨rule.nodeType, node⟩ tree := by
  cases delegation : rule.subparser with
  | none =>
      rw [build_direct delegate delegation] at built
      cases built
      exact ⟨_, .push _ _ _ (shown.ne_nil.mp nonempty), .push_branch _ shown.nodes⟩
  | some inner =>
      rw [build_delegated delegate delegation, followed_eq_ok_iff] at built
      obtain ⟨root, after, reduced, made⟩ := built
      cases made
      obtain ⟨tree, encloses, below⟩ := (sound _ _ _ _ _ reduced).encloses shown
      exact ⟨_, encloses.extends_.trans (.push _ _ _ (List.cons_ne_nil _ _)),
        .push_branch _ (.cons below .nil)⟩

section

variable (apart : context.grammar.NamesApart) {parser : String} {group : PrecedenceGroup}
  {position : Nat} {symbols : List Symbol} {state : ReductionState} {forest : List Tree}
  {candidate : Candidate}
  (shown : state.nodes.ShowsAll context.grammar.registry symbols forest)
  (found : context.candidate? state.nodes group symbols position = some candidate)

include apart shown found

/-- The type of a new node is not on the chain of a single tree below it. -/
theorem not_mem_chain {single : Tree} (taken : candidate.found.capture.slice forest = [single]) :
    context.grammar.registry.name candidate.rule.nodeType ∉ single.chain := by
  obtain ⟨_, known, _, _⟩ := candidate?_eq_some found
  have captured := shown.slice candidate.found.capture
  rw [taken] at captured
  obtain ⟨symbol, _, holds, none_, one⟩ := List.forall₂_cons_right_iff.mp captured
  rw [List.forall₂_nil_right_iff] at none_
  subst none_
  intro present
  have repeated := chainContains_of_mem_chain
    (apart _ (Array.mem_toList_iff.mpr (Array.mem_of_getElem? known))) holds.tree?_eq present
  rw [candidate?_unit found one] at repeated
  cases repeated

/-- A step lowers the potential of the forest. -/
theorem step_potential (owns : context.Owns parser group) {later : NodeTable} {tree : Tree}
    {node : NodeId}
    (extends_ : state.nodes.Extends context.grammar.registry
      (candidate.found.capture.slice forest) later [tree])
    (shows_ : later.Shows context.grammar.registry ⟨candidate.rule.nodeType, node⟩ tree) :
    Tree.potential (context.grammar.ownTypes parser) (candidate.found.capture.splice tree forest) <
      Tree.potential (context.grammar.ownTypes parser) forest := by
  obtain ⟨listed, known, filled, inside⟩ := candidate?_eq_some found
  have member : candidate.rule ∈ context.grammar.parserRules.toList :=
    Array.mem_toList_iff.mpr (Array.mem_of_getElem? known)
  have named : tree.nodeType = context.grammar.registry.name candidate.rule.nodeType :=
    shows_.nodeType_eq
  apply Tree.potential_splice_lt filled
  · rwa [← shown.length_eq]
  · rw [named]
    refine List.mem_map.mpr ⟨_, List.mem_filter.mpr ⟨member, ?_⟩, rfl⟩
    exact beq_iff_eq.mpr (owns _ listed _ known)
  · intro single taken
    rw [taken] at extends_
    obtain ⟨_, _, builds⟩ := extends_
    obtain ⟨_, same, kept⟩ := builds.chain_subset
    cases same
    exact ⟨named ▸ not_mem_chain apart shown found taken, kept⟩

end

/-! ## Loops without bounds -/

mutual

/-- How applying the rules of a group from a position on ends. -/
inductive RunsGroup (context : ReductionContext) : String → Nat → PrecedenceGroup → Nat →
    Progress → ReductionState → Result Progress → Prop where
  | halt {parser : String} {groupIndex position : Nat} {group : PrecedenceGroup}
      {progress : Progress} {state : ReductionState} :
      context.mustHalt state = true →
      RunsGroup context parser groupIndex group position progress state
        (.ok { progress with stopped := true } { state with halted := true })
  | done {parser : String} {groupIndex position : Nat} {group : PrecedenceGroup}
      {progress : Progress} {state : ReductionState} :
      context.mustHalt state = false →
      context.candidate? state.nodes group progress.symbols position = none →
      RunsGroup context parser groupIndex group position progress state (.ok progress state)
  | step {parser : String} {groupIndex position : Nat} {group : PrecedenceGroup}
      {progress : Progress} {state middle : ReductionState} {candidate : Candidate}
      {node : NodeId} {result : Result Progress} :
      context.mustHalt state = false →
      context.candidate? state.nodes group progress.symbols position = some candidate →
      RunsBuild context candidate.rule (candidate.found.capture.slice progress.symbols) state
        (.ok node middle) →
      RunsGroup context parser groupIndex group candidate.found.start
        { progress with
          symbols := candidate.found.capture.splice ⟨candidate.rule.nodeType, node⟩
            progress.symbols
          changed := true }
        (context.judge candidate parser groupIndex node middle) result →
      RunsGroup context parser groupIndex group position progress state result
  | failed {parser : String} {groupIndex position : Nat} {group : PrecedenceGroup}
      {progress : Progress} {state middle : ReductionState} {candidate : Candidate}
      {error : ParseError} :
      context.mustHalt state = false →
      context.candidate? state.nodes group progress.symbols position = some candidate →
      RunsBuild context candidate.rule (candidate.found.capture.slice progress.symbols) state
        (.error error middle) →
      RunsGroup context parser groupIndex group position progress state (.error error middle)

/-- How making the node of a rule ends. -/
inductive RunsBuild (context : ReductionContext) : ParserRule → List Symbol → ReductionState →
    Result NodeId → Prop where
  | direct {rule : ParserRule} {captured : List Symbol} {state : ReductionState} :
      rule.subparser = none →
      RunsBuild context rule captured state
        (.ok state.nodes.size
          { state with
            nodes := state.nodes.push ⟨rule.nodeType, .children (captured.map (·.node))⟩ })
  | delegated {rule : ParserRule} {inner : String} {captured : List Symbol}
      {state after : ReductionState} {root : NodeId} :
      rule.subparser = some inner →
      RunsTo context inner captured state (.ok root after) →
      RunsBuild context rule captured state
        (.ok after.nodes.size
          { after with nodes := after.nodes.push ⟨rule.nodeType, .children [root]⟩ })
  | failed {rule : ParserRule} {inner : String} {captured : List Symbol}
      {state after : ReductionState} {error : ParseError} :
      rule.subparser = some inner →
      RunsTo context inner captured state (.error error after) →
      RunsBuild context rule captured state (.error error after)

/-- How applying groups one after the other ends. -/
inductive RunsPass (context : ReductionContext) : String → List (PrecedenceGroup × Nat) →
    Progress → ReductionState → Result Progress → Prop where
  | done {parser : String} {progress : Progress} {state : ReductionState} :
      RunsPass context parser [] progress state (.ok progress state)
  | next {parser : String} {group : PrecedenceGroup} {index : Nat}
      {groups : List (PrecedenceGroup × Nat)} {progress middle : Progress}
      {state after : ReductionState} {result : Result Progress} :
      RunsGroup context parser index group 0 progress state (.ok middle after) →
      middle.stopped = false →
      RunsPass context parser groups middle after result →
      RunsPass context parser ((group, index) :: groups) progress state result
  | stopped {parser : String} {group : PrecedenceGroup} {index : Nat}
      {groups : List (PrecedenceGroup × Nat)} {progress middle : Progress}
      {state after : ReductionState} :
      RunsGroup context parser index group 0 progress state (.ok middle after) →
      middle.stopped = true →
      RunsPass context parser ((group, index) :: groups) progress state (.ok middle after)
  | failed {parser : String} {group : PrecedenceGroup} {index : Nat}
      {groups : List (PrecedenceGroup × Nat)} {progress : Progress}
      {state after : ReductionState} {error : ParseError} :
      RunsGroup context parser index group 0 progress state (.error error after) →
      RunsPass context parser ((group, index) :: groups) progress state (.error error after)

/-- How repeating passes ends. -/
inductive RunsPasses (context : ReductionContext) : String → List (PrecedenceGroup × Nat) →
    List Symbol → ReductionState → Result (List Symbol) → Prop where
  | last {parser : String} {groups : List (PrecedenceGroup × Nat)} {symbols : List Symbol}
      {progress : Progress} {state after : ReductionState} :
      RunsPass context parser groups ⟨symbols, false, false⟩ state (.ok progress after) →
      (progress.stopped || !progress.changed) = true →
      RunsPasses context parser groups symbols state (.ok progress.symbols after)
  | again {parser : String} {groups : List (PrecedenceGroup × Nat)} {symbols : List Symbol}
      {progress : Progress} {state after : ReductionState} {result : Result (List Symbol)} :
      RunsPass context parser groups ⟨symbols, false, false⟩ state (.ok progress after) →
      (progress.stopped || !progress.changed) = false →
      RunsPasses context parser groups progress.symbols after result →
      RunsPasses context parser groups symbols state result
  | failed {parser : String} {groups : List (PrecedenceGroup × Nat)} {symbols : List Symbol}
      {state after : ReductionState} {error : ParseError} :
      RunsPass context parser groups ⟨symbols, false, false⟩ state (.error error after) →
      RunsPasses context parser groups symbols state (.error error after)

/-- How reducing symbols to one node ends. -/
inductive RunsTo (context : ReductionContext) : String → List Symbol → ReductionState →
    Result NodeId → Prop where
  | empty {parser : String} {state : ReductionState} :
      RunsTo context parser [] state (.error (.emptyInput parser) state)
  | unknown {parser : String} {symbols : List Symbol} {state : ReductionState} :
      symbols ≠ [] → context.grammar.parser? parser = none →
      RunsTo context parser symbols state (.error (.unknownParser parser) state)
  | wrapped {parser : String} {table : ParserTable} {symbols rest : List Symbol}
      {state after : ReductionState} :
      symbols ≠ [] → context.grammar.parser? parser = some table →
      RunsPasses context parser table.groups.zipIdx symbols state (.ok rest after) →
      RunsTo context parser symbols state (context.wrap parser rest after)
  | failed {parser : String} {table : ParserTable} {symbols : List Symbol}
      {state after : ReductionState} {error : ParseError} :
      symbols ≠ [] → context.grammar.parser? parser = some table →
      RunsPasses context parser table.groups.zipIdx symbols state (.error error after) →
      RunsTo context parser symbols state (.error error after)

end

/-! ## The bounds are never met -/

/-- A way to reduce that ends, without any bound, for every parser that `parser` delegates to. -/
def Ends (context : ReductionContext) (delegate : String → List Symbol → Reduction NodeId)
    (parser : String) : Prop :=
  ∀ other, context.grammar.Delegates parser other → ∀ symbols state forest,
    state.nodes.ShowsAll context.grammar.registry symbols forest →
    context.RunsTo other symbols state (delegate other symbols state)

section

variable {delegate : String → List Symbol → Reduction NodeId} {parser : String}

theorem build_ends (ends : context.Ends delegate parser) {rule : ParserRule}
    (member : rule ∈ context.grammar.parserRules.toList) (owned : rule.parser = parser)
    {captured : List Symbol} {state : ReductionState} {forest : List Tree}
    (shown : state.nodes.ShowsAll context.grammar.registry captured forest) :
    context.RunsBuild rule captured state (build delegate rule captured state) := by
  cases delegation : rule.subparser with
  | none =>
      rw [build_direct delegate delegation]
      exact .direct delegation
  | some inner =>
      have inside := ends inner ⟨rule, member, owned, delegation⟩ captured state forest shown
      rw [build_delegated delegate delegation]
      cases reduced : delegate inner captured state with
      | ok root after =>
          rw [reduced] at inside
          exact .delegated delegation inside
      | error error after =>
          rw [reduced] at inside
          exact .failed delegation inside

/-- What is known of the progress a loop has made: its trees, and how much is left to do. -/
def Lowers (context : ReductionContext) (parser : String) (forest : List Tree) (changed : Bool)
    (final : Progress) (after : ReductionState) : Prop :=
  ∃ forest', after.nodes.ShowsAll context.grammar.registry final.symbols forest' ∧
    Tree.potential (context.grammar.ownTypes parser) forest' ≤
      Tree.potential (context.grammar.ownTypes parser) forest ∧
    (final.changed = true → changed = true ∨
      Tree.potential (context.grammar.ownTypes parser) forest' <
        Tree.potential (context.grammar.ownTypes parser) forest)

theorem Lowers.refl {forest : List Tree} {progress : Progress} {state : ReductionState}
    (shown : state.nodes.ShowsAll context.grammar.registry progress.symbols forest) :
    context.Lowers parser forest progress.changed progress state :=
  ⟨forest, shown, Nat.le_refl _, .inl⟩

/-- Progress that goes on from a forest with no more left to do. -/
theorem Lowers.after {forest forest' : List Tree} {changed changed' : Bool} {final : Progress}
    {state : ReductionState}
    (below : Tree.potential (context.grammar.ownTypes parser) forest' ≤
      Tree.potential (context.grammar.ownTypes parser) forest)
    (changes : changed' = true → changed = true ∨
      Tree.potential (context.grammar.ownTypes parser) forest' <
        Tree.potential (context.grammar.ownTypes parser) forest)
    (lowers : context.Lowers parser forest' changed' final state) :
    context.Lowers parser forest changed final state := by
  obtain ⟨rest, shown, below', changes'⟩ := lowers
  refine ⟨rest, shown, Nat.le_trans below' below, ?_⟩
  intro later
  rcases changes' later with earlier | lower
  · exact (changes earlier).imp id (Nat.lt_of_le_of_lt below')
  · exact .inr (Nat.lt_of_lt_of_le lower below)

variable (apart : context.grammar.NamesApart) (sound : context.Sound delegate)

include apart sound

/-- Making the node of a candidate leaves less to do. -/
theorem build_lowers {group : PrecedenceGroup} (owns : context.Owns parser group)
    {position : Nat} {symbols : List Symbol} {state middle : ReductionState} {forest : List Tree}
    {candidate : Candidate} {node : NodeId}
    (shown : state.nodes.ShowsAll context.grammar.registry symbols forest)
    (found : context.candidate? state.nodes group symbols position = some candidate)
    (built : build delegate candidate.rule (candidate.found.capture.slice symbols) state =
      .ok node middle) :
    ∃ forest', middle.nodes.ShowsAll context.grammar.registry
        (candidate.found.capture.splice ⟨candidate.rule.nodeType, node⟩ symbols) forest' ∧
      Tree.potential (context.grammar.ownTypes parser) forest' <
        Tree.potential (context.grammar.ownTypes parser) forest := by
  obtain ⟨_, _, filled, inside⟩ := candidate?_eq_some found
  obtain ⟨tree, extends_, shows_⟩ := build_shows sound (shown.slice candidate.found.capture)
    (SymbolPattern.Span.slice_ne_nil filled inside) built
  exact ⟨_, (shown.extend extends_).splice candidate.found.capture shows_,
    step_potential apart shown found owns extends_ shows_⟩

theorem reduceGroup_lowers {group : PrecedenceGroup} (owns : context.Owns parser group)
    {groupIndex fuel position : Nat} {progress final : Progress} {state after : ReductionState}
    {forest : List Tree}
    (shown : state.nodes.ShowsAll context.grammar.registry progress.symbols forest)
    (ran : context.reduceGroup delegate parser groupIndex group fuel position progress state =
      .ok final after) : context.Lowers parser forest progress.changed final after := by
  induction fuel generalizing position progress state forest with
  | zero =>
      cases ran
      exact .refl shown
  | succ fuel induction =>
      cases halts : context.mustHalt state with
      | true =>
          rw [reduceGroup_halt context delegate halts] at ran
          cases ran
          exact .refl shown
      | false =>
          cases found : context.candidate? state.nodes group progress.symbols position with
          | none =>
              rw [reduceGroup_done context delegate halts found] at ran
              cases ran
              exact .refl shown
          | some candidate =>
              rw [reduceGroup_step context delegate halts found, followed_eq_ok_iff] at ran
              obtain ⟨node, middle, built, rest⟩ := ran
              obtain ⟨forest', shown', lower⟩ := build_lowers apart sound owns shown found built
              rw [← judge_nodes candidate parser groupIndex node middle] at shown'
              exact (induction shown' rest).after (Nat.le_of_lt lower) fun _ => .inr lower

theorem reducePass_lowers {groups : List (PrecedenceGroup × Nat)}
    (owns : ∀ group ∈ groups, context.Owns parser group.1) {steps : Nat}
    {progress final : Progress} {state after : ReductionState} {forest : List Tree}
    (shown : state.nodes.ShowsAll context.grammar.registry progress.symbols forest)
    (ran : context.reducePass delegate parser steps groups progress state = .ok final after) :
    context.Lowers parser forest progress.changed final after := by
  induction groups generalizing progress state forest with
  | nil =>
      cases ran
      exact .refl shown
  | cons first groups induction =>
      obtain ⟨group, index⟩ := first
      rw [reducePass_cons, followed_eq_ok_iff] at ran
      obtain ⟨middle, between, grouped, rest⟩ := ran
      obtain ⟨forest', shown', below, changes⟩ :=
        reduceGroup_lowers apart sound (owns _ List.mem_cons_self) shown grouped
      split at rest
      · cases rest
        exact ⟨forest', shown', below, changes⟩
      · have later := induction (fun group member => owns group (List.mem_cons_of_mem _ member))
          shown' rest
        exact later.after below changes

variable (ends : context.Ends delegate parser)

include ends

theorem reduceGroup_ends {group : PrecedenceGroup} (owns : context.Owns parser group)
    (groupIndex position : Nat) {fuel : Nat} {progress : Progress} {state : ReductionState}
    {forest : List Tree}
    (shown : state.nodes.ShowsAll context.grammar.registry progress.symbols forest)
    (enough : Tree.potential (context.grammar.ownTypes parser) forest < fuel) :
    context.RunsGroup parser groupIndex group position progress state
      (context.reduceGroup delegate parser groupIndex group fuel position progress state) := by
  induction fuel generalizing position progress state forest with
  | zero => cases enough
  | succ fuel induction =>
      cases halts : context.mustHalt state with
      | true =>
          rw [reduceGroup_halt context delegate halts]
          exact .halt halts
      | false =>
          cases found : context.candidate? state.nodes group progress.symbols position with
          | none =>
              rw [reduceGroup_done context delegate halts found]
              exact .done halts found
          | some candidate =>
              obtain ⟨listed, known, _, _⟩ := candidate?_eq_some found
              have member : candidate.rule ∈ context.grammar.parserRules.toList :=
                Array.mem_toList_iff.mpr (Array.mem_of_getElem? known)
              have builds := build_ends ends member (owns _ listed _ known)
                (shown.slice candidate.found.capture)
              rw [reduceGroup_step context delegate halts found]
              cases built : build delegate candidate.rule
                  (candidate.found.capture.slice progress.symbols) state with
              | error error middle =>
                  rw [built] at builds
                  exact .failed halts found builds
              | ok node middle =>
                  rw [built] at builds
                  obtain ⟨forest', shown', lower⟩ := build_lowers apart sound owns shown found built
                  rw [← judge_nodes candidate parser groupIndex node middle] at shown'
                  exact .step halts found builds (induction _ shown'
                    (Nat.lt_of_lt_of_le lower (Nat.le_of_lt_succ enough)))

theorem reducePass_ends {groups : List (PrecedenceGroup × Nat)}
    (owns : ∀ group ∈ groups, context.Owns parser group.1) {steps : Nat} {progress : Progress}
    {state : ReductionState} {forest : List Tree}
    (shown : state.nodes.ShowsAll context.grammar.registry progress.symbols forest)
    (enough : Tree.potential (context.grammar.ownTypes parser) forest < steps) :
    context.RunsPass parser groups progress state
      (context.reducePass delegate parser steps groups progress state) := by
  induction groups generalizing progress state forest with
  | nil => exact .done
  | cons first groups induction =>
      obtain ⟨group, index⟩ := first
      have runs :=
        reduceGroup_ends apart sound ends (owns _ List.mem_cons_self) index 0 shown enough
      rw [reducePass_cons]
      cases grouped : context.reduceGroup delegate parser index group steps 0 progress state with
      | error error after =>
          rw [grouped] at runs
          exact .failed runs
      | ok middle after =>
          rw [grouped] at runs
          obtain ⟨forest', shown', below, _⟩ :=
            reduceGroup_lowers apart sound (owns _ List.mem_cons_self) shown grouped
          rw [followed_ok]
          cases stopped : middle.stopped with
          | true =>
              rw [if_pos rfl]
              exact .stopped runs stopped
          | false =>
              rw [if_neg Bool.false_ne_true]
              exact .next runs stopped (induction
                (fun group member => owns group (List.mem_cons_of_mem _ member)) shown' (by omega))

theorem reducePasses_ends {groups : List (PrecedenceGroup × Nat)}
    (owns : ∀ group ∈ groups, context.Owns parser group.1) {steps fuel : Nat}
    {symbols : List Symbol} {state : ReductionState} {forest : List Tree}
    (shown : state.nodes.ShowsAll context.grammar.registry symbols forest)
    (enough : Tree.potential (context.grammar.ownTypes parser) forest < steps)
    (more : Tree.potential (context.grammar.ownTypes parser) forest < fuel) :
    context.RunsPasses parser groups symbols state
      (context.reducePasses delegate parser groups steps fuel symbols state) := by
  induction fuel generalizing symbols state forest with
  | zero => cases more
  | succ fuel induction =>
      have whole : state.nodes.ShowsAll context.grammar.registry
          (Progress.mk symbols false false).symbols forest := shown
      have runs := reducePass_ends apart sound ends owns whole enough
      rw [reducePasses_succ]
      cases passed :
          context.reducePass delegate parser steps groups ⟨symbols, false, false⟩ state with
      | error error after =>
          rw [passed] at runs
          exact .failed runs
      | ok progress after =>
          rw [passed] at runs
          obtain ⟨forest', shown', below, changes⟩ :=
            reducePass_lowers apart sound owns whole passed
          rw [followed_ok]
          cases last : progress.stopped || !progress.changed with
          | true =>
              rw [if_pos rfl]
              exact .last runs last
          | false =>
              rw [if_neg Bool.false_ne_true]
              have changed : progress.changed = true := by
                rw [Bool.or_eq_false_iff] at last
                simpa using last.2
              have lower := (changes changed).resolve_left Bool.false_ne_true
              exact .again runs last (induction shown' (by omega) (by omega))

end

/-- Leaves have trees of one type each. -/
theorem exists_leaves {nodes : NodeTable} (registry : Registry) (symbols : List Symbol)
    (leaves : ∀ symbol ∈ symbols, ∃ text,
      nodes.get? symbol.node = some ⟨symbol.nodeType, .text text⟩) :
    ∃ forest, nodes.ShowsAll registry symbols forest ∧ ∀ tree ∈ forest, tree.Unrepeated := by
  induction symbols with
  | nil => exact ⟨[], .nil, nofun⟩
  | cons symbol symbols induction =>
      obtain ⟨forest, shown, unrepeated⟩ :=
        induction fun other member => leaves other (List.mem_cons_of_mem _ member)
      obtain ⟨text, leaf⟩ := leaves symbol List.mem_cons_self
      refine ⟨.leaf (registry.name symbol.nodeType) text :: forest, .cons ⟨?_, ?_⟩ shown, ?_⟩
      · rw [leaf]
        rfl
      · simp [tree?, treeWithin, leaf]
      · intro tree member
        rcases List.mem_cons.mp member with rfl | later
        · exact Tree.unrepeated_leaf _ _
        · exact unrepeated tree later

/-- There are more steps than the potential of the symbols. -/
theorem potential_lt_stepBound (context : ReductionContext) (parser : String) {forest : List Tree}
    (nonempty : forest ≠ []) :
    Tree.potential (context.grammar.ownTypes parser) forest < context.stepBound forest.length := by
  have few : (context.grammar.ownTypes parser).length ≤ context.grammar.parserRules.size := by
    rw [Grammar.ownTypes, List.length_map, ← Array.length_toList]
    exact List.length_filter_le _ _
  calc Tree.potential (context.grammar.ownTypes parser) forest
      ≤ (2 * forest.length - 1) * (context.grammar.ownTypes parser).length :=
        Tree.potential_le _ nonempty
    _ ≤ 2 * forest.length * (context.grammar.parserRules.size + 2) :=
        Nat.mul_le_mul (Nat.sub_le _ _) (by omega)
    _ < context.stepBound forest.length := Nat.lt_succ_self _

/-- With a level to spare, a reduction ends as it would without bounds. -/
theorem reduceWith_ends (apart : context.grammar.NamesApart) {levels : Nat} {parser : String}
    (owns : ∀ table, context.grammar.parser? parser = some table →
      ∀ group ∈ table.groups.zipIdx, context.Owns parser group.1)
    (ends : context.Ends (context.reduceWith levels) parser) {symbols : List Symbol}
    {state : ReductionState} {forest : List Tree}
    (shown : state.nodes.ShowsAll context.grammar.registry symbols forest) :
    context.RunsTo parser symbols state (context.reduceWith (levels + 1) parser symbols state) := by
  by_cases empty : symbols = []
  · subst empty
    exact .empty
  · cases known : context.grammar.parser? parser with
    | none =>
        rw [reduceWith_unknown context known empty]
        exact .unknown empty known
    | some table =>
        have enough := context.potential_lt_stepBound parser (shown.ne_nil.mp empty)
        rw [← shown.length_eq] at enough
        have runs := reducePasses_ends apart (reduceWith_sound levels) ends (owns table known) shown
          enough enough
        rw [reduceWith_succ context known empty]
        cases passes : context.reducePasses (context.reduceWith levels) parser table.groups.zipIdx
            (context.stepBound symbols.length) (context.stepBound symbols.length) symbols state with
        | error error after =>
            rw [passes] at runs
            exact .failed empty known runs
        | ok rest after =>
            rw [passes] at runs
            exact .wrapped empty known runs

theorem ends_of_direct {parser : String}
    (direct : ∀ rule ∈ context.grammar.parserRules.toList, rule.parser = parser →
      rule.subparser = none) (delegate : String → List Symbol → Reduction NodeId) :
    context.Ends delegate parser := by
  rintro other ⟨rule, member, owned, delegation⟩
  rw [direct rule member owned] at delegation
  cases delegation

/-- Where delegation ends, reductions end as they would without bounds. -/
theorem reduceWith_unbounded {rows : List Row} {groups : String → List PrecedenceGroup}
    (arranges : Arranges rows groups) (same : context.grammar = arranged rows groups)
    (apart : context.grammar.NamesApart) (ends : context.grammar.DelegationEnds) {levels : Nat}
    {parser : String} (enough : (parserNames rows).length < levels) {symbols : List Symbol}
    {state : ReductionState} {forest : List Tree}
    (shown : state.nodes.ShowsAll context.grammar.registry symbols forest) :
    context.RunsTo parser symbols state (context.reduceWith levels parser symbols state) := by
  by_cases known : parser ∈ parserNames rows
  · rw [same] at ends
    refine delegation_induction arranges ends
      (motive := fun levels parser => ∀ symbols state forest,
        state.nodes.ShowsAll context.grammar.registry symbols forest →
          context.RunsTo parser symbols state (context.reduceWith levels parser symbols state))
      ?_ known enough symbols state forest shown
    intro levels parser _ inner symbols state forest shown
    refine reduceWith_ends apart (fun table => owns_of_arranges arranges same) ?_ shown
    rw [Ends, same]
    rw [same] at inner
    exact inner
  · cases levels with
    | zero => cases enough
    | succ levels =>
        refine reduceWith_ends apart (fun table => owns_of_arranges arranges same)
          (ends_of_direct ?_ _) shown
        intro rule member owned
        rw [same] at member
        exact absurd (owned ▸ parser_mem_of_parserRule member) known

/-! ## Reductions without delegation -/

/-- Every node that a parser makes lowers the potential, as long as its rules do not delegate. -/
theorem Reaches.nodes_le (apart : context.grammar.NamesApart) {parser : String}
    (owns : ∀ table, context.grammar.parser? parser = some table →
      ∀ group ∈ table.groups.zipIdx, context.Owns parser group.1)
    (direct : ∀ rule ∈ context.grammar.parserRules.toList, rule.parser = parser →
      rule.subparser = none)
    {symbols rest : List Symbol} {state after : ReductionState}
    (reaches : context.Reaches parser symbols state rest after) {forest : List Tree}
    (shown : state.nodes.ShowsAll context.grammar.registry symbols forest)
    (unrepeated : ∀ tree ∈ forest, tree.Unrepeated) :
    ∃ forest', after.nodes.ShowsAll context.grammar.registry rest forest' ∧
      (∀ tree ∈ forest', tree.Unrepeated) ∧ (forest ≠ [] → forest' ≠ []) ∧
      after.nodes.size + Tree.potential (context.grammar.ownTypes parser) forest' ≤
        state.nodes.size + Tree.potential (context.grammar.ownTypes parser) forest := by
  induction reaches with
  | refl => exact ⟨forest, shown, unrepeated, id, Nat.le_refl _⟩
  | halt _ _ induction => exact induction owns direct shown
  | @direct parser _ current _ middle table _ _ _ candidate _ _ known member found _ induction =>
      obtain ⟨grown, shown', unrepeated', kept, below⟩ := induction owns direct shown
      obtain ⟨_, _, filled, inside⟩ := candidate?_eq_some found
      have captured := shown'.slice candidate.found.capture
      have nonempty := captured.ne_nil.mp (SymbolPattern.Span.slice_ne_nil filled inside)
      have one := Extends.push middle.nodes context.grammar.registry ⟨candidate.rule.nodeType,
        .children ((candidate.found.capture.slice current).map (·.node))⟩ nonempty
      have shows_ := Shows.push_branch candidate.rule.nodeType captured.nodes
      have lower := step_potential apart shown' found (owns table known _ member) one shows_
      have counted := (Grows.push middle.nodes ⟨candidate.rule.nodeType,
        .children ((candidate.found.capture.slice current).map (·.node))⟩).size_eq
      rw [judge_nodes]
      refine ⟨_, (shown'.extend one).splice _ shows_, ?_,
        fun _ => by simp [SymbolPattern.Span.splice], ?_⟩
      · intro tree listed
        simp only [SymbolPattern.Span.splice, List.mem_append, List.mem_cons] at listed
        rcases listed with before | rfl | after
        · exact unrepeated' tree (List.mem_of_mem_take before)
        · apply Tree.unrepeated_branch
          · intro child inside
            exact unrepeated' child (List.mem_of_mem_drop (List.mem_of_mem_take inside))
          · by_cases single : (candidate.found.capture.slice grown).length = 1
            · obtain ⟨child, taken⟩ := List.length_eq_one_iff.mp single
              rw [taken]
              exact not_mem_chain apart shown' found taken
            · rw [Tree.onlyChain_of_length_ne_one single]
              exact List.not_mem_nil
        · exact unrepeated' tree (List.mem_of_mem_drop after)
      · simp only [List.length_singleton] at counted lower ⊢
        omega
  | delegated _ _ known member found delegation _ _ _ _ =>
      obtain ⟨listed, present, _⟩ := candidate?_eq_some found
      have owned := owns _ known _ member _ listed _ present
      rw [direct _ (Array.mem_toList_iff.mpr (Array.mem_of_getElem? present)) owned] at delegation
      cases delegation

/-- The node for the rest of a sequence has no chain with a type twice. -/
theorem wrap_unrepeated (parser : String) {symbols : List Symbol} {state : ReductionState}
    {forest : List Tree} (shown : state.nodes.ShowsAll context.grammar.registry symbols forest)
    (unrepeated : ∀ tree ∈ forest, tree.Unrepeated) :
    (Result.final (context.wrap parser symbols state)).nodes.size ≤ state.nodes.size + 1 ∧
      ∀ root final, context.wrap parser symbols state = .ok root final →
        ∃ tree, final.nodes.tree? context.grammar.registry root = some tree ∧ tree.Unrepeated := by
  by_cases single : symbols.length = 1
  · obtain ⟨symbol, rfl⟩ := List.length_eq_one_iff.mp single
    obtain ⟨tree, _, shows_, _, rfl⟩ := List.forall₂_cons_left_iff.mp shown
    rw [wrap_single]
    refine ⟨Nat.le_succ _, ?_⟩
    rintro _ _ ⟨⟩
    exact ⟨tree, shows_.tree?_eq, unrepeated tree List.mem_cons_self⟩
  · rw [wrap_several context single]
    split_ifs
    · exact ⟨Nat.le_succ _, nofun⟩
    · refine ⟨?_, ?_⟩
      · have counted := (Grows.push state.nodes
          ⟨unrecognized, .children (symbols.map (·.node))⟩).size_eq
        exact Nat.le_of_eq counted
      · rintro _ _ ⟨⟩
        refine ⟨_, tree?_push_branch unrecognized shown.nodes, Tree.unrepeated_branch unrepeated ?_⟩
        rw [Tree.onlyChain_of_length_ne_one (shown.length_eq ▸ single)]
        exact List.not_mem_nil

/-- A parser that does not delegate makes no more nodes than the potential of the symbols allows,
and one for the rest. -/
theorem reduceWith_direct (apart : context.grammar.NamesApart) {parser : String}
    (owns : ∀ table, context.grammar.parser? parser = some table →
      ∀ group ∈ table.groups.zipIdx, context.Owns parser group.1)
    (direct : ∀ rule ∈ context.grammar.parserRules.toList, rule.parser = parser →
      rule.subparser = none)
    (levels : Nat) {symbols : List Symbol} (nonempty : symbols ≠ []) {state : ReductionState}
    {forest : List Tree} (shown : state.nodes.ShowsAll context.grammar.registry symbols forest)
    (unrepeated : ∀ tree ∈ forest, tree.Unrepeated) :
    (Result.final (context.reduceWith (levels + 1) parser symbols state)).nodes.size ≤
        state.nodes.size + (Tree.potential (context.grammar.ownTypes parser) forest + 1) ∧
      ∀ root final, context.reduceWith (levels + 1) parser symbols state = .ok root final →
        ∃ tree, final.nodes.tree? context.grammar.registry root = some tree ∧ tree.Unrepeated := by
  cases known : context.grammar.parser? parser with
  | none =>
      rw [reduceWith_unknown context known nonempty]
      refine ⟨Nat.le_add_right _ _, ?_⟩
      intro root final ends
      cases ends
  | some table =>
      obtain ⟨rest, after, passes⟩ := reducePasses_total
        (completes_of_direct direct (context.reduceWith levels)) (owns table known)
        (context.stepBound symbols.length) (context.stepBound symbols.length) symbols state
      have reaches := reducePasses_reaches (reduceWith_sound levels) known passes
      obtain ⟨forest', shown', unrepeated', _, below⟩ :=
        reaches.nodes_le apart owns direct shown unrepeated
      obtain ⟨few, chains⟩ := wrap_unrepeated parser shown' unrepeated'
      rw [reduceWith_succ context known nonempty, passes, followed_ok]
      exact ⟨by omega, chains⟩

end ReductionContext

namespace Engine

open Grammar ReductionContext NodeTable

/-- What reducing symbols to one node ends with. -/
def reduced (engine : Engine) (options : ParseOptions) (nodes : NodeTable) (parser : String)
    (symbols : List Symbol) : Reduction.Result NodeId :=
  (engine.reduction options).reduceWith ((engine.reduction options).levelBound symbols.length)
    parser symbols (.start nodes)

/-- Reducing leaves ends by itself as long as delegation does.  A parser that does not delegate
makes at most so many nodes, and no chain of only children in its tree has a type twice. -/
theorem reduce_terminates {engine : Engine} (compiled : engine.Compiled) (options : ParseOptions)
    {nodes : NodeTable} {symbols : List Symbol} (nonempty : symbols ≠ [])
    (leaves : ∀ symbol ∈ symbols, ∃ text,
      nodes.get? symbol.node = some ⟨symbol.nodeType, .text text⟩) (parser : String) :
    (engine.grammar.DelegationEnds →
      (engine.reduction options).RunsTo parser symbols (.start nodes)
        (engine.reduced options nodes parser symbols)) ∧
    ((∀ rule ∈ engine.grammar.parserRules.toList, rule.parser = parser → rule.subparser = none) →
      (engine.reduction options).RunsTo parser symbols (.start nodes)
        (engine.reduced options nodes parser symbols) ∧
      (engine.reduced options nodes parser symbols).final.nodes.size ≤
        nodes.size + ((2 * symbols.length - 1) *
          (engine.grammar.parserRules.toList.filter (·.parser == parser)).length + 1) ∧
      ∀ root final, engine.reduced options nodes parser symbols = .ok root final →
        ∃ tree, final.nodes.tree? engine.grammar.registry root = some tree ∧
          tree.Unrepeated) := by
  obtain ⟨rows, groups, arranges, same, _⟩ := compiled.exists_arranged
  have apart : (engine.reduction options).grammar.NamesApart := compiled.namesApart
  have owns (parser : String) (table : ParserTable)
      (known : (engine.reduction options).grammar.parser? parser = some table) :=
    owns_of_arranges arranges same known
  obtain ⟨forest, shown, unrepeated⟩ : ∃ forest,
      nodes.ShowsAll engine.grammar.registry symbols forest ∧
        ∀ tree ∈ forest, tree.Unrepeated := by
    exact exists_leaves engine.grammar.registry symbols leaves
  have whole : (ReductionState.start nodes).nodes.ShowsAll
      (engine.reduction options).grammar.registry symbols forest := shown
  refine ⟨?_, ?_⟩
  · intro ends
    exact reduceWith_unbounded arranges same apart ends (length_lt_levelBound same _) whole
  · intro direct
    obtain ⟨levels, counted⟩ : ∃ levels,
        (engine.reduction options).levelBound symbols.length = levels + 1 :=
      Nat.exists_eq_succ_of_ne_zero
        (Nat.ne_of_gt (Nat.zero_lt_of_lt (length_lt_levelBound same symbols.length)))
    have few := Tree.potential_le (engine.grammar.ownTypes parser) (shown.ne_nil.mp nonempty)
    rw [ownTypes, List.length_map, ← shown.length_eq] at few
    obtain ⟨bounded, chains⟩ :=
      reduceWith_direct apart (owns parser) direct levels nonempty whole unrepeated
    rw [reduced, counted]
    refine ⟨reduceWith_ends apart (owns parser) (ends_of_direct direct _) whole, ?_, chains⟩
    exact Nat.le_trans bounded (Nat.add_le_add_left (Nat.add_le_add_right few 1) _)

/-- Two types that are made of each other. -/
def cyclicRows : List Row := [
  .token "main" "Num" "\\d+",
  .production "main" "Aa" "Num | Bb" "1",
  .production "main" "Bb" "Aa" "2"]

def cyclicEngine : Engine :=
  ((ofRows cyclicRows).toOption).get (by decide +kernel)

theorem ofRows_cyclicRows : ofRows cyclicRows = .ok cyclicEngine :=
  eq_ok_get _

/-- The table of one leaf, and the symbol for it. -/
def oneLeaf : NodeTable := ⟨#[⟨1, .text "7"⟩]⟩

theorem oneLeaf_leaves : ∀ symbol ∈ [Symbol.mk 1 0], ∃ text,
    oneLeaf.get? symbol.node = some ⟨symbol.nodeType, .text text⟩ := by
  intro symbol member
  rw [List.mem_singleton] at member
  subst member
  exact ⟨"7", rfl⟩

/-- The cycle is gone through once at most, and the delegation ends as well. -/
theorem reduce_cyclic :
    (cyclicEngine.reduced {} oneLeaf "main" [⟨1, 0⟩]).final.nodes.size ≤
        oneLeaf.size + ((2 * 1 - 1) * 2 + 1) ∧
      (cyclicEngine.reduction {}).RunsTo "main" [⟨1, 0⟩] (.start oneLeaf)
        (cyclicEngine.reduced {} oneLeaf "main" [⟨1, 0⟩]) ∧
      (nestedEngine.reduction {}).RunsTo "outer" [⟨1, 0⟩] (.start oneLeaf)
        (nestedEngine.reduced {} oneLeaf "outer" [⟨1, 0⟩]) := by
  have direct : ∀ rule ∈ cyclicEngine.grammar.parserRules.toList, rule.parser = "main" →
      rule.subparser = none := by decide +kernel
  have count :
      (cyclicEngine.grammar.parserRules.toList.filter (·.parser == "main")).length = 2 := by
    decide +kernel
  have all := (reduce_terminates (.ofRows ofRows_cyclicRows) {} (List.cons_ne_nil _ _)
    oneLeaf_leaves "main").2 direct
  have nested := (reduce_terminates (.ofRows ofRows_nestedRows) {} (List.cons_ne_nil _ _)
    oneLeaf_leaves "outer").1 nestedEngine_delegationEnds
  rw [count] at all
  exact ⟨all.2.1, all.1, nested⟩

end Engine

end RowGrammar
