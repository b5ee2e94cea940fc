import RowGrammar.Proofs.Reduction.Growth

/-!
# Simulated reductions

Two grammars with the same rules may have other numbers for node types and rules, and two reductions
with the same rules may be watched or limited in other ways.  `Simulates` lists what one step needs
for the second reduction to keep up with the first.  It is only asked for where the first one is
calm, which it then was all along.  By induction the second reduction keeps up to the end, and fails
where the first one fails, unless the error excuses it.
-/

namespace RowGrammar

/-! ## Nodes with other numbers -/

def Symbol.rename (types : NodeTypeId → NodeTypeId) (symbol : Symbol) : Symbol :=
  { symbol with nodeType := types symbol.nodeType }

def Node.rename (types : NodeTypeId → NodeTypeId) (node : Node) : Node :=
  { node with nodeType := types node.nodeType }

namespace NodeTable

/-- The table with other numbers for the node types. -/
def rename (types : NodeTypeId → NodeTypeId) (table : NodeTable) : NodeTable :=
  ⟨table.nodes.map (Node.rename types)⟩

variable {types : NodeTypeId → NodeTypeId}

@[simp]
theorem rename_id (table : NodeTable) : table.rename id = table := by
  have same : Node.rename id = id := rfl
  rw [rename, same, Array.map_id]

@[simp]
theorem size_rename (table : NodeTable) : (table.rename types).size = table.size :=
  Array.size_map

theorem get?_rename (table : NodeTable) (id : NodeId) :
    (table.rename types).get? id = (table.get? id).map (Node.rename types) :=
  Array.getElem?_map

theorem rename_push (table : NodeTable) (node : Node) :
    (table.push node).rename types = (table.rename types).push (node.rename types) := by
  rw [rename, rename, push, push, Array.map_push]

theorem chainContains_rename (injective : Function.Injective types) (table : NodeTable)
    (id : NodeId) (nodeType : NodeTypeId) :
    (table.rename types).chainContains id (types nodeType) = table.chainContains id nodeType := by
  have within (fuel : Nat) : (table.rename types).chainContainsWithin (types nodeType) fuel id =
      table.chainContainsWithin nodeType fuel id := by
    induction fuel generalizing id with
    | zero => rfl
    | succ fuel induction =>
        unfold chainContainsWithin
        rw [get?_rename]
        cases table.get? id with
        | none => rfl
        | some node =>
            obtain ⟨other, payload⟩ := node
            have same : (types other == types nodeType) = (other == nodeType) := by
              rw [Bool.eq_iff_iff, beq_iff_eq, beq_iff_eq]
              exact injective.eq_iff
            simp only [Option.map_some, Node.rename, same, induction]
  exact within (id + 1)

theorem tree?_rename {registry registry' : Registry}
    (names : ∀ id, registry'.name (types id) = registry.name id) (table : NodeTable)
    (id : NodeId) : (table.rename types).tree? registry' id = table.tree? registry id := by
  have within (fuel : Nat) : (table.rename types).treeWithin registry' fuel =
      table.treeWithin registry fuel := by
    induction fuel with
    | zero => rfl
    | succ fuel induction =>
        funext id
        unfold treeWithin
        rw [get?_rename]
        cases table.get? id with
        | none => rfl
        | some node =>
            obtain ⟨nodeType, payload⟩ := node
            simp only [Option.map_some, Option.bind_eq_bind, Option.bind_some, Node.rename, names,
              induction]
  exact congrFun (within (id + 1)) id

end NodeTable

def Progress.rename (types : NodeTypeId → NodeTypeId) (progress : Progress) : Progress :=
  { progress with symbols := progress.symbols.map (Symbol.rename types) }

namespace Reduction

/-- Both reductions succeed or fail in related states, with the same error, or with a value that
belongs to the other one.  After an error that excuses the second one it may do anything. -/
inductive Imitates {α β : Type} (excused : ParseError → Prop) (value : α → β)
    (related : ReductionState → ReductionState → Prop) : Result α → Result β → Prop where
  | ok (result : α) {state state' : ReductionState} :
      related state state' →
      Imitates excused value related (.ok result state) (.ok (value result) state')
  | error (error : ParseError) {state state' : ReductionState} :
      related state state' →
      Imitates excused value related (.error error state) (.error error state')
  | excused (error : ParseError) {state : ReductionState} {result : Result β} :
      excused error → Imitates excused value related (.error error state) result

end Reduction

namespace ReductionContext

open NodeTable Reduction

/-- Two rules that do the same, apart from the numbers. -/
structure SameRule (types : NodeTypeId → NodeTypeId) (rule other : ParserRule) : Prop where
  nodeType : other.nodeType = types rule.nodeType
  subparser : other.subparser = rule.subparser

/-- Two patterns that match the same stretches. -/
def SamePattern (types : NodeTypeId → NodeTypeId) (pattern other : SymbolPattern) : Prop :=
  ∀ input start absorb,
    other.matchAt (input.map types) start absorb = pattern.matchAt input start absorb

/-- Two candidates apply the same rule to the same stretch. -/
structure SameCandidate (types : NodeTypeId → NodeTypeId) (rules : RuleId → RuleId)
    (candidate other : Candidate) : Prop where
  id : other.id = rules candidate.id
  rule : SameRule types candidate.rule other.rule
  found : other.found = candidate.found

/-- Two ways to reduce with the same rules, apart from the numbers of node types and rules. -/
structure SameRules (types : NodeTypeId → NodeTypeId) (rules : RuleId → RuleId)
    (context other : ReductionContext) : Prop where
  injective : Function.Injective types
  fixed : types unrecognized = unrecognized
  names : ∀ id, other.grammar.registry.name (types id) = context.grammar.registry.name id
  parserRules : ∀ id : RuleId, Option.Rel (SameRule types)
    context.grammar.parserRules[id]? other.grammar.parserRules[rules id]?
  patterns : ∀ id : RuleId, Option.Rel (SamePattern types)
    context.patterns[id]? other.patterns[rules id]?
  groups : ∀ parser,
    (other.grammar.parser? parser).map (·.groups.map (·.rules)) =
      (context.grammar.parser? parser).map (·.groups.map (·.rules.map rules))
  ruleCount : other.grammar.parserRules.size = context.grammar.parserRules.size
  parserCount : other.grammar.parsers.length = context.grammar.parsers.length

theorem samePattern_of_eq {patterns patterns' : Array SymbolPattern} (same : patterns' = patterns)
    (identity : RuleId) : Option.Rel (SamePattern id) patterns[identity]? patterns'[identity]? := by
  rw [same]
  cases patterns[identity]? with
  | none => exact .none
  | some pattern => exact .some fun input start absorb => by rw [Array.map_id]

namespace SameRules

variable {types : NodeTypeId → NodeTypeId} {rules : RuleId → RuleId}
  {context other : ReductionContext}

/-- A reduction with other settings has the same rules. -/
theorem of_eq (grammar : other.grammar = context.grammar)
    (patterns : other.patterns = context.patterns) : SameRules id id context other where
  injective := Function.injective_id
  fixed := rfl
  names _ := by rw [grammar]; rfl
  parserRules identity := by
    rw [grammar, id_eq]
    cases context.grammar.parserRules[identity]? with
    | none => exact .none
    | some rule => exact .some ⟨rfl, rfl⟩
  patterns := samePattern_of_eq patterns
  groups _ := by rw [grammar]; simp only [List.map_id]
  ruleCount := by rw [grammar]
  parserCount := by rw [grammar]

variable (same : SameRules types rules context other)

include same

theorem stepBound_eq (count : Nat) : other.stepBound count = context.stepBound count := by
  rw [stepBound, stepBound, same.ruleCount]

theorem levelBound_eq (count : Nat) : other.levelBound count = context.levelBound count := by
  rw [levelBound, levelBound, same.stepBound_eq, same.parserCount]

theorem contains_unrecognized (kinds : Array NodeTypeId) :
    (kinds.map types).contains unrecognized = kinds.contains unrecognized := by
  rw [Bool.eq_iff_iff, Array.contains_iff_mem, Array.contains_iff_mem, Array.mem_map]
  constructor
  · rintro ⟨id, member, equal⟩
    rwa [same.injective (equal.trans same.fixed.symm)] at member
  · intro inside
    exact ⟨unrecognized, inside, same.fixed⟩

/-- Equally strict reductions take unrecognized symbols along in the same sequences. -/
theorem absorbs_eq (strict : other.strict = context.strict) (kinds : Array NodeTypeId) :
    other.absorbs (kinds.map types) = context.absorbs kinds := by
  rw [absorbs, absorbs, strict, same.contains_unrecognized]

/-- A rule applies at the same places with the same captures. -/
theorem candidateAt?_related (nodes : NodeTable) (symbols : List Symbol)
    (kinds : Array NodeTypeId) (absorb : Bool) (start : Nat) (id : RuleId) :
    Option.Rel (SameCandidate types rules)
      (context.candidateAt? nodes symbols kinds absorb start id)
      (other.candidateAt? (nodes.rename types) (symbols.map (Symbol.rename types))
        (kinds.map types) absorb start (rules id)) := by
  have ruled := same.parserRules id
  have compiled := same.patterns id
  unfold candidateAt?
  generalize context.grammar.parserRules[id]? = found at ruled
  generalize other.grammar.parserRules[rules id]? = found' at ruled
  cases ruled with
  | none => exact .none
  | @some rule rule' alike =>
      generalize context.patterns[id]? = found at compiled
      generalize other.patterns[rules id]? = found' at compiled
      cases compiled with
      | none => exact .none
      | @some pattern pattern' agree =>
          simp only [Option.bind_eq_bind, Option.bind_some, agree kinds start absorb]
          cases pattern.matchAt kinds start absorb with
          | none => exact .none
          | some found =>
              have chained (symbol : Symbol) :
                  (nodes.rename types).chainContains (symbol.rename types).node rule'.nodeType =
                    nodes.chainContains symbol.node rule.nodeType := by
                rw [alike.nodeType]
                exact chainContains_rename same.injective _ _ _
              have repeats : ((symbols.map (Symbol.rename types))[found.capture.start]?.any
                  fun symbol => (nodes.rename types).chainContains symbol.node rule'.nodeType) =
                  symbols[found.capture.start]?.any fun symbol =>
                    nodes.chainContains symbol.node rule.nodeType := by
                rw [List.getElem?_map]
                cases symbols[found.capture.start]? with
                | none => rfl
                | some symbol => exact chained symbol
              simp only [Option.bind_some, repeats]
              split
              · exact .none
              · exact .some ⟨rfl, alike, rfl⟩

theorem candidate?_related {group group' : PrecedenceGroup}
    (members : group'.rules = group.rules.map rules) {symbols : List Symbol}
    (absorbs : other.absorbs ((symbols.map (·.nodeType)).toArray.map types) =
      context.absorbs (symbols.map (·.nodeType)).toArray)
    (nodes : NodeTable) (position : Nat) :
    Option.Rel (SameCandidate types rules) (context.candidate? nodes group symbols position)
      (other.candidate? (nodes.rename types) group' (symbols.map (Symbol.rename types))
        position) := by
  have kinds : ((symbols.map (Symbol.rename types)).map (·.nodeType)).toArray =
      (symbols.map (·.nodeType)).toArray.map types := by
    simp [Symbol.rename, Function.comp_def]
  simp only [candidate?, kinds, Array.size_map, absorbs]
  apply findSome?_related (List.forall₂_same.mpr fun _ _ => rfl)
  intro start _ equal
  cases equal
  rw [members]
  apply findSome?_related
    (List.forall₂_map_right_iff.mpr (List.forall₂_same.mpr fun id _ => rfl) :
      List.Forall₂ (fun id id' => rules id = id') group.rules (group.rules.map rules))
  intro id id' equal
  cases equal
  exact same.candidateAt?_related _ _ _ _ _ _

end SameRules

/-- A node that a reduction makes, for a rule or for a sequence that is not reduced any further. -/
def Makes (context : ReductionContext) (state : ReductionState) (node : Node) : Prop :=
  (∃ (id : RuleId) (rule : ParserRule), context.grammar.parserRules[id]? = some rule ∧
    node.nodeType = rule.nodeType) ∨
    node.nodeType = unrecognized ∧ (context.strict && !state.halted) = false

/-- What keeps two reductions with the same rules together, one step after the other.  Nothing is
asked for where the first one does not end calm, or ends with an error that excuses the other. -/
structure Simulates (types : NodeTypeId → NodeTypeId) (rules : RuleId → RuleId)
    (calm : ReductionState → Prop) (excused : ParseError → Prop)
    (related : ReductionState → ReductionState → Prop) (context other : ReductionContext) :
    Prop where
  same : SameRules types rules context other
  /-- A state before a calm one is calm. -/
  lasting : context.Respects fun state later => calm later → calm state
  nodes : ∀ {state state'}, related state state' → state'.nodes = state.nodes.rename types
  push : ∀ {state state'}, related state state' → ∀ {node : Node}, context.Makes state node →
    related { state with nodes := state.nodes.push node }
      { state' with nodes := state'.nodes.push (node.rename types) }
  run : ∀ {state state'}, related state state' → calm state →
    context.mustHalt state = false → other.mustHalt state' = false
  halt : ∀ {state state'}, related state state' → calm { state with halted := true } →
    context.mustHalt state = true →
      other.mustHalt state' = true ∧
        related { state with halted := true } { state' with halted := true }
  absorbs : ∀ {state state'} {symbols : List Symbol} {forest : List Tree},
    state.nodes.ShowsAll context.grammar.registry symbols forest → related state state' →
    calm state → context.mustHalt state = false →
      other.absorbs ((symbols.map (·.nodeType)).toArray.map types) =
        context.absorbs (symbols.map (·.nodeType)).toArray
  judge : ∀ {state state'} {candidate candidate' : Candidate} {node : NodeId}
    {nodeType : NodeTypeId} {children : List NodeId} (parser : String) (group : Nat),
    related state state' → SameCandidate types rules candidate candidate' →
    state.nodes.get? node = some ⟨nodeType, .children children⟩ →
    calm (context.judge candidate parser group node state) →
      related (context.judge candidate parser group node state)
        (other.judge candidate' parser group node state')
  wrap : ∀ {state state'} {parser : String} {symbols : List Symbol},
    related state state' → symbols.length ≠ 1 →
    calm (Result.final (context.wrap parser symbols state)) →
      (other.strict && !state'.halted) = (context.strict && !state.halted) ∨
        (context.strict && !state.halted) = true ∧
          ∀ remaining, excused (.incomplete parser remaining)

namespace Simulates

variable {types : NodeTypeId → NodeTypeId} {rules : RuleId → RuleId}
  {calm : ReductionState → Prop} {excused : ParseError → Prop}
  {related : ReductionState → ReductionState → Prop} {context other : ReductionContext}
  (simulates : Simulates types rules calm excused related context other)

/-- At some level of delegation the second reduction does what the first one does. -/
def Follows (types : NodeTypeId → NodeTypeId) (calm : ReductionState → Prop)
    (excused : ParseError → Prop) (related : ReductionState → ReductionState → Prop)
    (context other : ReductionContext) (levels : Nat) : Prop :=
  ∀ {symbols : List Symbol} {forest : List Tree} {state state' : ReductionState} (parser : String),
    state.nodes.ShowsAll context.grammar.registry symbols forest → related state state' →
    calm (Result.final (context.reduceWith levels parser symbols state)) →
      Imitates excused id related (context.reduceWith levels parser symbols state)
        (other.reduceWith levels parser (symbols.map (Symbol.rename types)) state')

/-- Two steps are imitated one after the other. -/
theorem imitates_followed {α α' β β' : Type} {value : α → α'} {value' : β → β'}
    {result : Result α} {result' : Result α'} {next : α → ReductionState → Result β}
    {next' : α' → ReductionState → Result β'}
    (lasting : ∀ item middle, Carries (fun state later => calm later → calm state) middle
      (next item middle))
    (first : calm result.final → Imitates excused value related result result')
    (later : ∀ item middle middle', result = .ok item middle → related middle middle' →
      calm (next item middle).final →
        Imitates excused value' related (next item middle) (next' (value item) middle'))
    (quiet : calm (followed result next).final) :
    Imitates excused value' related (followed result next) (followed result' next') := by
  cases result with
  | error error state =>
      cases first quiet with
      | error _ relates => exact .error error relates
      | excused _ excuse => exact .excused error excuse
  | ok item middle =>
      cases first (lasting item middle quiet) with
      | ok _ relates => exact later item middle _ rfl relates quiet

theorem build_get? {delegate : String → List Symbol → Reduction NodeId} {rule : ParserRule}
    {captured : List Symbol} {state middle : ReductionState} {node : NodeId}
    (built : build delegate rule captured state = .ok node middle) :
    ∃ children, middle.nodes.get? node = some ⟨rule.nodeType, .children children⟩ := by
  cases delegation : rule.subparser with
  | none =>
      rw [build_direct delegate delegation] at built
      cases built
      exact ⟨_, get?_push_size _ _⟩
  | some inner =>
      rw [build_delegated delegate delegation, followed_eq_ok_iff] at built
      obtain ⟨root, after, _, made⟩ := built
      cases made
      exact ⟨_, get?_push_size _ _⟩

include simulates

section

variable {levels : Nat} (inner : Follows types calm excused related context other levels)

include inner

theorem build_simulated {number : RuleId} {rule rule' : ParserRule}
    (listed : context.grammar.parserRules[number]? = some rule) (same : SameRule types rule rule')
    {captured : List Symbol} {forest : List Tree} {state state' : ReductionState}
    (shown : state.nodes.ShowsAll context.grammar.registry captured forest)
    (relates : related state state')
    (quiet : calm (Result.final (build (context.reduceWith levels) rule captured state))) :
    Imitates excused id related (build (context.reduceWith levels) rule captured state)
      (build (other.reduceWith levels) rule' (captured.map (Symbol.rename types)) state') := by
  have sizes {state state' : ReductionState} (relates : related state state') :
      state'.nodes.size = state.nodes.size := by
    rw [simulates.nodes relates, size_rename]
  have pushed {state state' : ReductionState} (relates : related state state')
      (children : List NodeId) := simulates.push relates
    (.inl ⟨number, rule, listed, rfl⟩ : context.Makes state ⟨rule.nodeType, .children children⟩)
  cases delegation : rule.subparser with
  | none =>
      rw [build_direct _ delegation, build_direct _ (same.subparser.trans delegation),
        same.nodeType, List.map_map, sizes relates]
      exact .ok _ (pushed relates _)
  | some parser =>
      rw [build_delegated _ delegation] at quiet ⊢
      rw [build_delegated _ (same.subparser.trans delegation), same.nodeType]
      refine imitates_followed (fun _ _ => simulates.lasting.push _ _) (inner parser shown relates)
        ?_ quiet
      intro root after after' _ relates _
      rw [id_eq, sizes relates]
      exact .ok _ (pushed relates _)

theorem reduceGroup_simulated {parser : String} {table : ParserTable}
    (known : context.grammar.parser? parser = some table) {group group' : PrecedenceGroup}
    {groupIndex : Nat} (member : (group, groupIndex) ∈ table.groups.zipIdx)
    (members : group'.rules = group.rules.map rules) {fuel position : Nat} {progress : Progress}
    {forest : List Tree} {state state' : ReductionState}
    (shown : state.nodes.ShowsAll context.grammar.registry progress.symbols forest)
    (relates : related state state')
    (quiet : calm (Result.final (context.reduceGroup (context.reduceWith levels) parser groupIndex
      group fuel position progress state))) :
    Imitates excused (Progress.rename types) related
      (context.reduceGroup (context.reduceWith levels) parser groupIndex group fuel position
        progress state)
      (other.reduceGroup (other.reduceWith levels) parser groupIndex group' fuel position
        (progress.rename types) state') := by
  induction fuel generalizing position progress forest state state' with
  | zero => exact .ok _ relates
  | succ fuel induction =>
      have before := simulates.lasting.reduceGroup (simulates.lasting.reduceWith levels) parser
        groupIndex group (fuel + 1) position progress state quiet
      cases halts : context.mustHalt state with
      | true =>
          rw [reduceGroup_halt context _ halts] at quiet ⊢
          obtain ⟨halts', after⟩ := simulates.halt relates quiet halts
          rw [reduceGroup_halt other _ halts']
          exact .ok _ after
      | false =>
          have runs := simulates.run relates before halts
          have alike : Option.Rel (SameCandidate types rules) _
              (other.candidate? state'.nodes group' (progress.rename types).symbols position) :=
            simulates.nodes relates ▸ simulates.same.candidate?_related members
              (simulates.absorbs shown relates before halts) state.nodes position
          cases found : context.candidate? state.nodes group progress.symbols position with
          | none =>
              rw [found] at alike
              generalize absent : other.candidate? _ _ _ _ = result at alike
              cases alike
              rw [reduceGroup_done context _ halts found, reduceGroup_done other _ runs absent]
              exact .ok _ relates
          | some candidate =>
              rw [found] at alike
              generalize found' : other.candidate? _ _ _ _ = result at alike
              cases alike with
              | @some _ candidate' alike =>
                  rw [reduceGroup_step context _ halts found] at quiet ⊢
                  rw [reduceGroup_step other _ runs found', alike.found]
                  obtain ⟨_, listed, _⟩ := candidate?_eq_some found
                  have made := simulates.build_simulated inner listed alike.rule
                    (shown.slice candidate.found.capture) relates
                  rw [← SymbolPattern.Span.slice_map] at made
                  refine imitates_followed (fun _ _ => simulates.lasting.trans
                    (simulates.lasting.judge _ _ _ _ _)
                    (simulates.lasting.reduceGroup (simulates.lasting.reduceWith levels) _ _ _ _ _
                      _ _)) made ?_ quiet
                  intro node middle middle' built relates quiet
                  have judged := simulates.lasting.reduceGroup
                    (simulates.lasting.reduceWith levels) _ _ _ _ _ _ _ quiet
                  obtain ⟨children, present⟩ := build_get? built
                  have next := simulates.judge parser groupIndex relates alike present judged
                  obtain ⟨_, _, shown'⟩ := (build_reaches (reduceWith_sound levels) known member
                    halts found built).extends_ shown
                  have spliced : candidate.found.capture.splice ⟨candidate'.rule.nodeType, node⟩
                      (progress.symbols.map (Symbol.rename types)) =
                      (candidate.found.capture.splice ⟨candidate.rule.nodeType, node⟩
                        progress.symbols).map (Symbol.rename types) := by
                    rw [alike.rule.nodeType]
                    exact SymbolPattern.Span.splice_map _ (Symbol.rename types)
                      ⟨candidate.rule.nodeType, node⟩ _
                  simp only [Progress.rename, id_eq, spliced]
                  exact induction shown' next quiet

theorem reducePass_simulated {parser : String} {table : ParserTable}
    (known : context.grammar.parser? parser = some table) {fuel : Nat}
    {groups groups' : List (PrecedenceGroup × Nat)} (members : groups ⊆ table.groups.zipIdx)
    (same : List.Forall₂ (fun group group' => group'.1.rules = group.1.rules.map rules ∧
      group'.2 = group.2) groups groups')
    {progress : Progress} {forest : List Tree} {state state' : ReductionState}
    (shown : state.nodes.ShowsAll context.grammar.registry progress.symbols forest)
    (relates : related state state')
    (quiet : calm (Result.final
      (context.reducePass (context.reduceWith levels) parser fuel groups progress state))) :
    Imitates excused (Progress.rename types) related
      (context.reducePass (context.reduceWith levels) parser fuel groups progress state)
      (other.reducePass (other.reduceWith levels) parser fuel groups' (progress.rename types)
        state') := by
  induction same generalizing progress forest state state' with
  | nil => exact .ok _ relates
  | @cons group group' groups groups' first _ induction =>
      obtain ⟨group, index⟩ := group
      obtain ⟨group', index'⟩ := group'
      obtain ⟨alike, rfl⟩ := first
      have member := members List.mem_cons_self
      have later := List.subset_of_cons_subset members
      rw [reducePass_cons] at quiet ⊢
      rw [reducePass_cons]
      refine imitates_followed (fun middle after => ?_)
        (simulates.reduceGroup_simulated inner known member alike shown relates) ?_ quiet
      · split
        · exact simulates.lasting.refl _
        · exact simulates.lasting.reducePass (simulates.lasting.reduceWith levels) _ _ _ _ _
      · intro middle after after' grouped relates quiet
        obtain ⟨_, _, shown'⟩ :=
          (reduceGroup_reaches (reduceWith_sound levels) known member grouped).extends_ shown
        have stops : (middle.rename types).stopped = middle.stopped := rfl
        rw [stops]
        split
        · exact .ok _ relates
        · rename_i running
          rw [if_neg running] at quiet
          exact induction later shown' relates quiet

theorem reducePasses_simulated {parser : String} {table : ParserTable}
    (known : context.grammar.parser? parser = some table)
    {groups' : List (PrecedenceGroup × Nat)} {steps fuel : Nat}
    (same : List.Forall₂ (fun group group' => group'.1.rules = group.1.rules.map rules ∧
      group'.2 = group.2) table.groups.zipIdx groups')
    {symbols : List Symbol} {forest : List Tree} {state state' : ReductionState}
    (shown : state.nodes.ShowsAll context.grammar.registry symbols forest)
    (relates : related state state')
    (quiet : calm (Result.final (context.reducePasses (context.reduceWith levels) parser
      table.groups.zipIdx steps fuel symbols state))) :
    Imitates excused (List.map (Symbol.rename types)) related
      (context.reducePasses (context.reduceWith levels) parser table.groups.zipIdx steps fuel
        symbols state)
      (other.reducePasses (other.reduceWith levels) parser groups' steps fuel
        (symbols.map (Symbol.rename types)) state') := by
  induction fuel generalizing symbols forest state state' with
  | zero => exact .ok _ relates
  | succ fuel induction =>
      have whole := List.Subset.refl table.groups.zipIdx
      have renamed : ⟨symbols.map (Symbol.rename types), false, false⟩ =
          Progress.rename types ⟨symbols, false, false⟩ := rfl
      rw [reducePasses_succ] at quiet ⊢
      rw [reducePasses_succ, renamed]
      refine imitates_followed (fun progress after => ?_)
        (simulates.reducePass_simulated inner known whole same shown relates) ?_ quiet
      · split
        · exact simulates.lasting.refl _
        · exact simulates.lasting.reducePasses (simulates.lasting.reduceWith levels) _ _ _ _ _ _
      · intro progress after after' passed relates quiet
        obtain ⟨_, _, shown'⟩ :=
          (reducePass_reaches (reduceWith_sound levels) known whole passed).extends_ shown
        have ends : ((progress.rename types).stopped || !(progress.rename types).changed) =
            (progress.stopped || !progress.changed) := rfl
        rw [ends]
        split
        · exact .ok _ relates
        · rename_i going
          rw [if_neg going] at quiet
          exact induction shown' relates quiet

end

theorem wrap_simulated {parser : String} {symbols : List Symbol} {state state' : ReductionState}
    (relates : related state state')
    (quiet : calm (Result.final (context.wrap parser symbols state))) :
    Imitates excused id related (context.wrap parser symbols state)
      (other.wrap parser (symbols.map (Symbol.rename types)) state') := by
  by_cases single : symbols.length = 1
  · obtain ⟨symbol, rfl⟩ := List.length_eq_one_iff.mp single
    exact .ok _ relates
  · have remaining : (symbols.map (Symbol.rename types)).map (fun symbol =>
        other.grammar.registry.name symbol.nodeType) =
        symbols.map fun symbol => context.grammar.registry.name symbol.nodeType := by
      simp only [List.map_map, Function.comp_def, Symbol.rename, simulates.same.names]
    rw [wrap_several context single, wrap_several other (by rwa [List.length_map]), remaining]
    rcases simulates.wrap relates single quiet with same | ⟨strictly, excuse⟩
    · rw [same]
      split
      · exact .error _ relates
      · rename_i lenient
        have pushed := simulates.push relates
          (.inr ⟨rfl, Bool.eq_false_iff.mpr lenient⟩ :
            context.Makes state ⟨unrecognized, .children (symbols.map (·.node))⟩)
        rw [Node.rename, simulates.same.fixed] at pushed
        have size : state'.nodes.size = state.nodes.size := by
          rw [simulates.nodes relates, size_rename]
        rw [List.map_map, size]
        exact .ok _ pushed
    · rw [if_pos strictly]
      exact .excused _ (excuse _)

/-- The groups of a parser hold the same rules in the same order. -/
theorem forall₂_groups {parser : String} {table table' : ParserTable}
    (known : context.grammar.parser? parser = some table)
    (known' : other.grammar.parser? parser = some table') :
    List.Forall₂ (fun group group' => group'.1.rules = group.1.rules.map rules ∧
      group'.2 = group.2) table.groups.zipIdx table'.groups.zipIdx := by
  have groups := simulates.same.groups parser
  rw [known, known', Option.map_some, Option.map_some, Option.some.injEq,
    ← List.forall₂_eq_eq_eq, List.forall₂_map_left_iff, List.forall₂_map_right_iff] at groups
  apply (forall₂_zipIdx groups.flip 0).imp
  rintro group group' ⟨alike, place⟩
  exact ⟨alike, place.symm⟩

/-- A reduction to one node is imitated at every level of delegation. -/
theorem reduceWith_simulated (levels : Nat) :
    Follows types calm excused related context other levels := by
  induction levels with
  | zero =>
      intro symbols forest state state' parser _ relates _
      exact .error _ relates
  | succ levels inner =>
      intro symbols forest state state' parser shown relates quiet
      by_cases empty : symbols = []
      · subst empty
        exact .error _ relates
      · have filled : symbols.map (Symbol.rename types) ≠ [] := by simpa using empty
        cases known : context.grammar.parser? parser with
        | none =>
            have unknown : other.grammar.parser? parser = none := by
              have groups := simulates.same.groups parser
              rwa [known, Option.map_none, Option.map_eq_none_iff] at groups
            rw [reduceWith_unknown context known empty, reduceWith_unknown other unknown filled]
            exact .error _ relates
        | some table =>
            obtain ⟨table', known', _⟩ : ∃ table', other.grammar.parser? parser = some table' ∧
                table'.groups.map (·.rules) = table.groups.map (·.rules.map rules) := by
              have groups := simulates.same.groups parser
              rwa [known, Option.map_some, Option.map_eq_some_iff] at groups
            rw [reduceWith_succ context known empty] at quiet ⊢
            rw [reduceWith_succ other known' filled, List.length_map,
              simulates.same.stepBound_eq]
            refine imitates_followed (fun _ _ => simulates.lasting.wrap _ _ _)
              (simulates.reducePasses_simulated inner known
                (simulates.forall₂_groups known known') shown relates) ?_ quiet
            intro rest after after' _ relates quiet
            exact simulates.wrap_simulated relates quiet

/-- A parse that ends calm is imitated: the same tree is reported, or the same error. -/
theorem parse_simulated {parser : String} {symbols : List Symbol} {forest : List Tree}
    {state state' : ReductionState}
    (shown : state.nodes.ShowsAll context.grammar.registry symbols forest)
    (relates : related state state')
    (quiet : calm (Result.final (context.parse parser symbols state))) :
    (∀ report final, context.parse parser symbols state = .ok report final →
      ∃ final', related final final' ∧
        other.parse parser (symbols.map (Symbol.rename types)) state' =
          .ok ⟨report.root, report.tree, final'.divergence, final'.validSteps, final'.halted,
            final'.nodes.size⟩ final') ∧
    (∀ error final, context.parse parser symbols state = .error error final → ¬excused error →
      ∃ final', related final final' ∧
        other.parse parser (symbols.map (Symbol.rename types)) state' = .error error final') := by
  have shows_ {state state' : ReductionState} (relates : related state state') (root : NodeId) :
      state'.nodes.tree? other.grammar.registry root =
        state.nodes.tree? context.grammar.registry root := by
    rw [simulates.nodes relates, tree?_rename simulates.same.names]
  have before : calm (Result.final
      (context.reduceWith (context.levelBound symbols.length) parser symbols state)) := by
    rw [parse_eq] at quiet
    generalize context.reduceWith _ parser symbols state = result at quiet ⊢
    cases result with
    | error error after => exact quiet
    | ok root after =>
        rw [followed_ok] at quiet
        split at quiet
        · exact quiet
        · exact quiet
  have reduced := simulates.reduceWith_simulated _ parser shown relates before
  rw [parse_eq, parse_eq, List.length_map, simulates.same.levelBound_eq]
  generalize context.reduceWith _ parser symbols state = result at reduced
  generalize other.reduceWith _ parser _ state' = result' at reduced
  cases reduced with
  | error error relates =>
      refine ⟨nofun, ?_⟩
      intro _ _ failed _
      cases failed
      exact ⟨_, relates, rfl⟩
  | excused error excuse =>
      refine ⟨nofun, ?_⟩
      intro _ _ failed unexcused
      cases failed
      exact absurd excuse unexcused
  | @ok root after after' relates =>
      simp only [followed_ok, id_eq, shows_ relates]
      cases after.nodes.tree? context.grammar.registry root with
      | none =>
          refine ⟨nofun, ?_⟩
          intro _ _ failed _
          cases failed
          exact ⟨_, relates, rfl⟩
      | some tree =>
          refine ⟨?_, nofun⟩
          intro _ _ reported
          cases reported
          exact ⟨_, relates, rfl⟩

end Simulates

end ReductionContext

end RowGrammar
