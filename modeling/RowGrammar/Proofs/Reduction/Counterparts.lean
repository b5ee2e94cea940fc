import RowGrammar.Proofs.Reduction.Termination

/-!
# The same reduction in two tables

Two tables may have the same trees at other places.  A reduction sees a symbol by its type and by
the chain of only children below it, and the tree tells both; so two sequences of symbols with the
same trees are reduced in the same way, step by step, and neither the numbers of the nodes nor the
other nodes of the tables matter.  Only a node limit would tell the tables apart.
-/

namespace RowGrammar

namespace NodeTable

/-- Two nodes, each of a table of its own, with the same tree below them. -/
def SameTree (registry : Registry) (table other : NodeTable) (id id' : NodeId) : Prop :=
  ∃ tree, table.tree? registry id = some tree ∧ other.tree? registry id' = some tree

/-- Two symbols of one type with the same tree. -/
def Twin (registry : Registry) (table other : NodeTable) (symbol symbol' : Symbol) : Prop :=
  symbol'.nodeType = symbol.nodeType ∧
    ∃ tree, table.Shows registry symbol tree ∧ other.Shows registry symbol' tree

/-- Two sequences of symbols with the same types and the same trees. -/
def Twins (registry : Registry) (table other : NodeTable) (symbols symbols' : List Symbol) : Prop :=
  List.Forall₂ (Twin registry table other) symbols symbols'

variable {registry : Registry} {table other : NodeTable}

theorem Twin.mono {later later' : NodeTable} {symbol symbol' : Symbol} {added added' : List Node}
    (twin : Twin registry table other symbol symbol') (grows : table.Grows added later)
    (grows' : other.Grows added' later') : Twin registry later later' symbol symbol' := by
  obtain ⟨same, tree, shows_, shows'⟩ := twin
  exact ⟨same, tree, shows_.mono grows, shows'.mono grows'⟩

theorem Twin.sameTree {symbol symbol' : Symbol} (twin : Twin registry table other symbol symbol') :
    SameTree registry table other symbol.node symbol'.node := by
  obtain ⟨_, tree, shows_, shows'⟩ := twin
  exact ⟨tree, shows_.tree?_eq, shows'.tree?_eq⟩

/-- New nodes of one type over the same trees are twins. -/
theorem Twin.push {ids ids' : List NodeId} (nodeType : NodeTypeId)
    (same : List.Forall₂ (SameTree registry table other) ids ids') :
    Twin registry (table.push ⟨nodeType, .children ids⟩) (other.push ⟨nodeType, .children ids'⟩)
      ⟨nodeType, table.size⟩ ⟨nodeType, other.size⟩ := by
  obtain ⟨forest, below, below'⟩ : ∃ forest,
      List.Forall₂ (fun id tree => table.tree? registry id = some tree) ids forest ∧
        List.Forall₂ (fun id tree => other.tree? registry id = some tree) ids' forest := by
    induction same with
    | nil => exact ⟨[], .nil, .nil⟩
    | cons first _ induction =>
        obtain ⟨tree, found, found'⟩ := first
        obtain ⟨forest, below, below'⟩ := induction
        exact ⟨tree :: forest, .cons found below, .cons found' below'⟩
  exact ⟨rfl, _, .push_branch nodeType below, .push_branch nodeType below'⟩

namespace Twins

variable {symbols symbols' : List Symbol} (twins : Twins registry table other symbols symbols')

include twins

theorem mono {later later' : NodeTable} {added added' : List Node}
    (grows : table.Grows added later) (grows' : other.Grows added' later') :
    Twins registry later later' symbols symbols' :=
  List.Forall₂.imp (fun _ _ twin => twin.mono grows grows') twins

theorem nodeTypes_eq : symbols'.map (·.nodeType) = symbols.map (·.nodeType) := by
  rw [← List.forall₂_eq_eq_eq, List.forall₂_map_left_iff, List.forall₂_map_right_iff]
  exact List.Forall₂.imp (fun _ _ twin => twin.1) twins.flip

theorem sameTrees :
    List.Forall₂ (SameTree registry table other) (symbols.map (·.node))
      (symbols'.map (·.node)) := by
  rw [List.forall₂_map_left_iff, List.forall₂_map_right_iff]
  exact List.Forall₂.imp (fun _ _ twin => twin.sameTree) twins

theorem slice (span : SymbolPattern.Span) :
    Twins registry table other (span.slice symbols) (span.slice symbols') :=
  List.forall₂_take _ (List.forall₂_drop _ twins)

theorem splice (span : SymbolPattern.Span) {symbol symbol' : Symbol}
    (twin : Twin registry table other symbol symbol') :
    Twins registry table other (span.splice symbol symbols) (span.splice symbol' symbols') :=
  List.rel_append (List.forall₂_take _ twins) (.cons twin (List.forall₂_drop _ twins))

end Twins

/-- A type on the chain of a node has its name on the chain of the tree. -/
theorem mem_chain_of_chainContains {nodeType : NodeTypeId} {id : NodeId} {tree : Tree}
    (below : table.tree? registry id = some tree)
    (present : table.chainContains id nodeType = true) : registry.name nodeType ∈ tree.chain := by
  have within (fuel : Nat) (id : NodeId) (tree : Tree)
      (below : table.treeWithin registry fuel id = some tree)
      (present : table.chainContainsWithin nodeType fuel id = true) :
      registry.name nodeType ∈ tree.chain := by
    induction fuel generalizing id tree with
    | zero => cases below
    | succ fuel induction =>
        simp only [treeWithin, Option.bind_eq_bind, Option.bind_eq_some_iff] at below
        obtain ⟨⟨found, payload⟩, got, built⟩ := below
        simp only [chainContainsWithin, got, Bool.or_eq_true, beq_iff_eq] at present
        cases payload with
        | text text =>
            cases built
            rcases present with rfl | absurd_
            · exact List.mem_singleton_self _
            · cases absurd_
        | children ids =>
            simp only [Option.bind_eq_some_iff, mapM_eq_some_iff] at built
            obtain ⟨trees, inside, same⟩ := built
            cases same
            rw [Tree.chain]
            rcases present with rfl | deeper
            · exact List.mem_cons_self
            · split at deeper
              · rename_i child only
                cases only
                obtain ⟨tree, _, found, none_, rfl⟩ := List.forall₂_cons_left_iff.mp inside
                rw [List.forall₂_nil_left_iff] at none_
                subst none_
                exact List.mem_cons_of_mem _ (induction child tree found deeper)
              · cases deeper
  exact within (id + 1) id tree below present

/-- The chains of two nodes with the same tree have the same types of rules. -/
theorem SameTree.chainContains_eq {nodeType : NodeTypeId}
    (apart : ∀ id, registry.name id = registry.name nodeType → id = nodeType) {id id' : NodeId}
    (same : SameTree registry table other id id') :
    other.chainContains id' nodeType = table.chainContains id nodeType := by
  obtain ⟨tree, below, below'⟩ := same
  rw [Bool.eq_iff_iff]
  constructor
  · intro present
    exact chainContains_of_mem_chain apart below (mem_chain_of_chainContains below' present)
  · intro present
    exact chainContains_of_mem_chain apart below' (mem_chain_of_chainContains below present)

end NodeTable

/-- Two states with the same verdicts so far. -/
structure ReductionState.Agrees (state other : ReductionState) : Prop where
  divergence : other.divergence = state.divergence
  validSteps : other.validSteps = state.validSteps
  halted : other.halted = state.halted

theorem ReductionState.Agrees.start (nodes nodes' : NodeTable) :
    (ReductionState.start nodes).Agrees (.start nodes') :=
  ⟨rfl, rfl, rfl⟩

/-- What a report says apart from the numbers of nodes: the tree, the divergence, the number of
valid steps and whether reducing has stopped. -/
def ParseReport.outcome (report : ParseReport) : Tree × Option Divergence × Nat × Bool :=
  (report.tree, report.divergence, report.validSteps, report.halted)

namespace Reduction

/-- Both reductions succeed in states that agree, with values that belong to each other, or they
fail with the same error. -/
inductive Abreast {α : Type} (alike : NodeTable → NodeTable → α → α → Prop) :
    Result α → Result α → Prop where
  | ok {value value' : α} {state state' : ReductionState} :
      state.Agrees state' → alike state.nodes state'.nodes value value' →
      Abreast alike (.ok value state) (.ok value' state')
  | error (error : ParseError) (state state' : ReductionState) :
      Abreast alike (.error error state) (.error error state')

/-- Two reductions stay abreast when they go on abreast after the first step. -/
theorem Abreast.followed {α β : Type} {alike : NodeTable → NodeTable → α → α → Prop}
    {alike' : NodeTable → NodeTable → β → β → Prop} {result result' : Result α}
    {next next' : α → ReductionState → Result β} (first : Abreast alike result result')
    (later : ∀ value value' middle middle', result = .ok value middle →
      result' = .ok value' middle' → middle.Agrees middle' →
      alike middle.nodes middle'.nodes value value' →
        Abreast alike' (next value middle) (next' value' middle')) :
    Abreast alike' (followed result next) (followed result' next') := by
  cases first with
  | error error state state' => exact .error error state state'
  | ok agrees same => exact later _ _ _ _ rfl rfl agrees same

end Reduction

/-- Progress over two sequences with the same trees. -/
structure Progress.Alike (registry : Registry) (table other : NodeTable)
    (progress progress' : Progress) : Prop where
  symbols : NodeTable.Twins registry table other progress.symbols progress'.symbols
  changed : progress'.changed = progress.changed
  stopped : progress'.stopped = progress.stopped

namespace ReductionContext

open NodeTable Reduction

variable {context : ReductionContext}

/-- A way to reduce that depends on the trees of the symbols only. -/
def Blind (context : ReductionContext) (delegate : String → List Symbol → Reduction NodeId) :
    Prop :=
  ∀ parser {symbols symbols' : List Symbol} {state state' : ReductionState},
    state.Agrees state' →
    Twins context.grammar.registry state.nodes state'.nodes symbols symbols' →
      Abreast (SameTree context.grammar.registry) (delegate parser symbols state)
        (delegate parser symbols' state')

theorem mustHalt_agrees (unlimited : context.maxNodes = none) {state state' : ReductionState}
    (agrees : state.Agrees state') : context.mustHalt state' = context.mustHalt state := by
  rw [mustHalt, mustHalt, agrees.halted, agrees.divergence, unlimited]
  rfl

/-- The same rule applies at the same place. -/
theorem candidate?_twins (apart : context.grammar.NamesApart) {table other : NodeTable}
    {symbols symbols' : List Symbol}
    (twins : Twins context.grammar.registry table other symbols symbols')
    (group : PrecedenceGroup) (position : Nat) :
    context.candidate? other group symbols' position =
      context.candidate? table group symbols position := by
  have applies (kinds : Array NodeTypeId) (absorb : Bool) (start : Nat) :
      context.candidateAt? other symbols' kinds absorb start =
        context.candidateAt? table symbols kinds absorb start := by
    funext id
    unfold candidateAt?
    cases known : context.grammar.parserRules[id]? with
    | none => rfl
    | some rule =>
        have alone :=
          apart rule (Array.mem_toList_iff.mpr (Array.mem_of_getElem? known))
        have repeats (place : Nat) :
            (symbols'[place]?.any fun symbol => other.chainContains symbol.node rule.nodeType) =
              symbols[place]?.any fun symbol => table.chainContains symbol.node rule.nodeType := by
          by_cases inside : place < symbols.length
          · have inside' : place < symbols'.length := twins.length_eq ▸ inside
            rw [List.getElem?_eq_getElem inside, List.getElem?_eq_getElem inside']
            exact (List.Forall₂.get twins inside inside').sameTree.chainContains_eq alone
          · have outside := Nat.le_of_not_lt inside
            rw [List.getElem?_eq_none outside,
              List.getElem?_eq_none (twins.length_eq ▸ outside)]
            rfl
        simp only [Option.bind_eq_bind, Option.bind_some, repeats]
  simp only [candidate?, twins.nodeTypes_eq, applies]

/-- The verdict on a node is one on its tree. -/
theorem judge_agrees (candidate : Candidate) (parser : String) (group : Nat) {node node' : NodeId}
    {state state' : ReductionState} (agrees : state.Agrees state')
    (same : SameTree context.grammar.registry state.nodes state'.nodes node node') :
    (context.judge candidate parser group node state).Agrees
      (context.judge candidate parser group node' state') := by
  obtain ⟨tree, below, below'⟩ := same
  have verdict := context.judge_verdict candidate parser group node state
  generalize context.judge candidate parser group node state = after at verdict
  cases verdict with
  | ignored ignored =>
      rw [below, ← below', ← agrees.divergence] at ignored
      rw [(Verdict.ignored ignored).judge_eq]
      exact agrees
  | agreed watched calm shown expected =>
      cases below.symm.trans shown
      rw [(Verdict.agreed watched (agrees.divergence.trans calm) below' expected).judge_eq]
      exact ⟨agrees.divergence, congrArg (· + 1) agrees.validSteps, agrees.halted⟩
  | diverged watched calm shown unexpected =>
      cases below.symm.trans shown
      rw [(Verdict.diverged watched (agrees.divergence.trans calm) below' unexpected).judge_eq]
      exact ⟨rfl, agrees.validSteps, agrees.halted⟩

section

variable {delegate : String → List Symbol → Reduction NodeId} (blind : context.Blind delegate)

include blind

theorem build_abreast (rule : ParserRule) {captured captured' : List Symbol}
    {state state' : ReductionState} (agrees : state.Agrees state')
    (twins : Twins context.grammar.registry state.nodes state'.nodes captured captured') :
    Abreast (fun table other node node' =>
        Twin context.grammar.registry table other ⟨rule.nodeType, node⟩ ⟨rule.nodeType, node'⟩)
      (build delegate rule captured state) (build delegate rule captured' state') := by
  cases delegation : rule.subparser with
  | none =>
      rw [build_direct delegate delegation, build_direct delegate delegation]
      exact .ok ⟨agrees.divergence, agrees.validSteps, agrees.halted⟩
        (.push rule.nodeType twins.sameTrees)
  | some inner =>
      rw [build_delegated delegate delegation, build_delegated delegate delegation]
      refine (blind inner agrees twins).followed ?_
      intro root root' after after' _ _ agrees same
      exact .ok ⟨agrees.divergence, agrees.validSteps, agrees.halted⟩
        (.push rule.nodeType (.cons same .nil))

variable (apart : context.grammar.NamesApart) (unlimited : context.maxNodes = none)
  (grows : ∀ parser symbols state,
    Carries ReductionState.Precedes state (delegate parser symbols state))

include apart unlimited grows

theorem reduceGroup_abreast (parser : String) (groupIndex : Nat) (group : PrecedenceGroup)
    (fuel position : Nat) {progress progress' : Progress} {state state' : ReductionState}
    (agrees : state.Agrees state')
    (alike : progress.Alike context.grammar.registry state.nodes state'.nodes progress') :
    Abreast (Progress.Alike context.grammar.registry)
      (context.reduceGroup delegate parser groupIndex group fuel position progress state)
      (context.reduceGroup delegate parser groupIndex group fuel position progress' state') := by
  induction fuel generalizing position progress progress' state state' with
  | zero => exact .ok agrees alike
  | succ fuel induction =>
      have halts' := mustHalt_agrees unlimited agrees
      have found' := candidate?_twins apart alike.symbols group position
      cases halts : context.mustHalt state with
      | true =>
          rw [reduceGroup_halt context delegate halts,
            reduceGroup_halt context delegate (halts'.trans halts)]
          exact .ok ⟨agrees.divergence, agrees.validSteps, rfl⟩
            ⟨alike.symbols, alike.changed, rfl⟩
      | false =>
          cases found : context.candidate? state.nodes group progress.symbols position with
          | none =>
              rw [reduceGroup_done context delegate halts found,
                reduceGroup_done context delegate (halts'.trans halts) (found'.trans found)]
              exact .ok agrees alike
          | some candidate =>
              rw [reduceGroup_step context delegate halts found,
                reduceGroup_step context delegate (halts'.trans halts) (found'.trans found)]
              refine (build_abreast blind candidate.rule agrees
                (alike.symbols.slice candidate.found.capture)).followed ?_
              intro node node' middle middle' built built' agrees' twin
              -- the symbols that are left keep their trees while both tables grow
              have more := context.respects_precedes.build grows candidate.rule
                (candidate.found.capture.slice progress.symbols) state
              have more' := context.respects_precedes.build grows candidate.rule
                (candidate.found.capture.slice progress'.symbols) state'
              rw [Carries, built] at more
              rw [Carries, built'] at more'
              obtain ⟨added, grown⟩ := more.nodes
              obtain ⟨added', grown'⟩ := more'.nodes
              refine induction candidate.found.start
                (judge_agrees candidate parser groupIndex agrees' twin.sameTree) ⟨?_, rfl,
                  alike.stopped⟩
              rw [judge_nodes, judge_nodes]
              exact (alike.symbols.mono grown grown').splice candidate.found.capture twin

theorem reducePass_abreast (parser : String) (fuel : Nat) (groups : List (PrecedenceGroup × Nat))
    {progress progress' : Progress} {state state' : ReductionState} (agrees : state.Agrees state')
    (alike : progress.Alike context.grammar.registry state.nodes state'.nodes progress') :
    Abreast (Progress.Alike context.grammar.registry)
      (context.reducePass delegate parser fuel groups progress state)
      (context.reducePass delegate parser fuel groups progress' state') := by
  induction groups generalizing progress progress' state state' with
  | nil => exact .ok agrees alike
  | cons first groups induction =>
      obtain ⟨group, index⟩ := first
      rw [reducePass_cons, reducePass_cons]
      refine (reduceGroup_abreast blind apart unlimited grows parser index group fuel 0 agrees
        alike).followed ?_
      intro middle middle' after after' _ _ agrees alike
      rw [alike.stopped]
      split
      · exact .ok agrees alike
      · exact induction agrees alike

theorem reducePasses_abreast (parser : String) (groups : List (PrecedenceGroup × Nat))
    (steps fuel : Nat) {symbols symbols' : List Symbol} {state state' : ReductionState}
    (agrees : state.Agrees state')
    (twins : Twins context.grammar.registry state.nodes state'.nodes symbols symbols') :
    Abreast (Twins context.grammar.registry)
      (context.reducePasses delegate parser groups steps fuel symbols state)
      (context.reducePasses delegate parser groups steps fuel symbols' state') := by
  induction fuel generalizing symbols symbols' state state' with
  | zero => exact .ok agrees twins
  | succ fuel induction =>
      rw [reducePasses_succ, reducePasses_succ]
      have fresh : Progress.Alike context.grammar.registry state.nodes state'.nodes
          ⟨symbols, false, false⟩ ⟨symbols', false, false⟩ := ⟨twins, rfl, rfl⟩
      refine (reducePass_abreast blind apart unlimited grows parser steps groups agrees
        fresh).followed ?_
      intro middle middle' after after' _ _ agrees alike
      rw [alike.stopped, alike.changed]
      split
      · exact .ok agrees alike.symbols
      · exact induction agrees alike.symbols

end

theorem wrap_abreast (parser : String) {symbols symbols' : List Symbol}
    {state state' : ReductionState} (agrees : state.Agrees state')
    (twins : Twins context.grammar.registry state.nodes state'.nodes symbols symbols') :
    Abreast (SameTree context.grammar.registry) (context.wrap parser symbols state)
      (context.wrap parser symbols' state') := by
  by_cases single : symbols.length = 1
  · obtain ⟨symbol, rfl⟩ := List.length_eq_one_iff.mp single
    obtain ⟨symbol', _, twin, none_, rfl⟩ := List.forall₂_cons_left_iff.mp twins
    rw [List.forall₂_nil_left_iff] at none_
    subst none_
    rw [wrap_single, wrap_single]
    exact .ok agrees twin.sameTree
  · have names : symbols'.map (fun symbol => context.grammar.registry.name symbol.nodeType) =
        symbols.map fun symbol => context.grammar.registry.name symbol.nodeType := by
      have types := congrArg (List.map context.grammar.registry.name) twins.nodeTypes_eq
      rwa [List.map_map, List.map_map] at types
    rw [wrap_several context single, wrap_several context (twins.length_eq ▸ single),
      agrees.halted, names]
    split
    · exact .error _ _ _
    · exact .ok ⟨agrees.divergence, agrees.validSteps, rfl⟩
        (Twin.push unrecognized twins.sameTrees).sameTree

/-- Reducing to one node depends on the trees of the symbols only, as long as no node limit counts
the nodes of the table. -/
theorem reduceWith_blind (apart : context.grammar.NamesApart) (unlimited : context.maxNodes = none)
    (levels : Nat) : context.Blind (context.reduceWith levels) := by
  induction levels with
  | zero =>
      intro parser symbols symbols' state state' _ _
      exact .error _ _ _
  | succ levels induction =>
      intro parser symbols symbols' state state' agrees twins
      by_cases empty : symbols = []
      · subst empty
        obtain rfl := List.forall₂_nil_left_iff.mp twins
        exact .error _ _ _
      · have filled : symbols' ≠ [] := by
          rw [← List.length_pos_iff, ← twins.length_eq, List.length_pos_iff]
          exact empty
        cases known : context.grammar.parser? parser with
        | none =>
            rw [reduceWith_unknown context known empty, reduceWith_unknown context known filled]
            exact .error _ _ _
        | some table =>
            rw [reduceWith_succ context known empty, reduceWith_succ context known filled,
              ← twins.length_eq]
            refine (reducePasses_abreast induction apart unlimited
              (context.respects_precedes.reduceWith levels) parser _ _ _ agrees twins).followed ?_
            intro rest rest' after after' _ _ agrees twins
            exact wrap_abreast parser agrees twins

/-- Symbols with the same trees are parsed to the same tree with the same verdicts, or they are
refused for the same reason. -/
theorem parse_abreast (apart : context.grammar.NamesApart) (unlimited : context.maxNodes = none)
    (parser : String) {symbols symbols' : List Symbol} {state state' : ReductionState}
    (agrees : state.Agrees state')
    (twins : Twins context.grammar.registry state.nodes state'.nodes symbols symbols') :
    Abreast (fun _ _ report report' => report'.outcome = report.outcome)
      (context.parse parser symbols state) (context.parse parser symbols' state') := by
  rw [parse_eq, parse_eq, ← twins.length_eq]
  refine (reduceWith_blind apart unlimited _ parser agrees twins).followed ?_
  intro root root' after after' _ _ agrees same
  obtain ⟨tree, below, below'⟩ := same
  rw [below, below']
  refine .ok agrees ?_
  rw [ParseReport.outcome, ParseReport.outcome, agrees.divergence, agrees.validSteps, agrees.halted]

end ReductionContext

end RowGrammar
