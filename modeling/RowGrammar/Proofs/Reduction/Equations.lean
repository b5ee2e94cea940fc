import RowGrammar.Reduction.Reduce

/-!
# Steps of a reduction

What the parts of a reduction do to a state, as equations between results.  Everything else about
reductions is derived from these.
-/

namespace RowGrammar

namespace Reduction

/-- What a reduction ends with. -/
abbrev Result (α : Type) := EStateM.Result ParseError ReductionState α

/-- Goes on after a step unless it has failed. -/
def followed {α β : Type} (result : Result α) (next : α → ReductionState → Result β) :
    Result β :=
  match result with
  | .ok value state => next value state
  | .error error state => .error error state

@[simp]
theorem followed_ok {α β : Type} (value : α) (state : ReductionState)
    (next : α → ReductionState → Result β) : followed (.ok value state) next = next value state :=
  rfl

@[simp]
theorem followed_error {α β : Type} (error : ParseError) (state : ReductionState)
    (next : α → ReductionState → Result β) :
    followed (.error error state) next = .error error state :=
  rfl

/-- Two steps succeed when both do. -/
theorem followed_eq_ok_iff {α β : Type} {result : Result α}
    {next : α → ReductionState → Result β} {value : β} {state : ReductionState} :
    followed result next = .ok value state ↔
      ∃ first middle, result = .ok first middle ∧ next first middle = .ok value state := by
  cases result with
  | ok first middle =>
      constructor
      · intro succeeded
        exact ⟨first, middle, rfl, succeeded⟩
      · rintro ⟨_, _, same, succeeded⟩
        cases same
        exact succeeded
  | error error middle => simp

theorem bind_apply {α β : Type} (first : Reduction α) (next : α → Reduction β)
    (state : ReductionState) : (first >>= next) state = followed (first state) next := by
  change EStateM.bind first next state = _
  unfold EStateM.bind
  cases first state with
  | ok value middle => rfl
  | error error middle => rfl

end Reduction

namespace SymbolPattern.Span

/-- The items of a span. -/
def slice {α : Type} (span : Span) (items : List α) : List α :=
  (items.drop span.start).take span.length

/-- The items with those of a span replaced by one. -/
def splice {α : Type} (span : Span) (item : α) (items : List α) : List α :=
  items.take span.start ++ item :: items.drop span.stop

theorem take_slice_drop {α : Type} {span : Span} (ordered : span.start ≤ span.stop)
    (items : List α) :
    items.take span.start ++ span.slice items ++ items.drop span.stop = items := by
  have rest : (items.drop span.start).drop span.length = items.drop span.stop := by
    rw [List.drop_drop, length]
    congr 1
    omega
  rw [List.append_assoc, slice, ← rest, List.take_append_drop, List.take_append_drop]

theorem slice_ne_nil {α : Type} {span : Span} {items : List α} (filled : span.start < span.stop)
    (inside : span.stop ≤ items.length) : span.slice items ≠ [] := by
  intro empty
  have lengths := congrArg List.length empty
  simp only [slice, length, List.length_take, List.length_drop, List.length_nil] at lengths
  omega

theorem slice_eq_singleton_iff {α : Type} {span : Span} {items : List α}
    (inside : span.stop ≤ items.length) {item : α} :
    span.slice items = [item] ↔ span.length = 1 ∧ items[span.start]? = some item := by
  have lengths : (span.slice items).length = span.length := by
    simp only [slice, length, List.length_take, List.length_drop]
    omega
  constructor
  · intro single
    have one : span.length = 1 := by rw [← lengths, single, List.length_singleton]
    have first := congrArg List.head? single
    rw [slice, one, List.head?_take, if_neg Nat.one_ne_zero, List.head?_drop] at first
    exact ⟨one, first⟩
  · rintro ⟨one, first⟩
    rw [slice, one, List.take_one, List.head?_drop, first]
    rfl

theorem slice_map {α β : Type} (span : Span) (f : α → β) (items : List α) :
    span.slice (items.map f) = (span.slice items).map f := by
  simp [slice, List.map_take, List.map_drop]

theorem splice_map {α β : Type} (span : Span) (f : α → β) (item : α) (items : List α) :
    span.splice (f item) (items.map f) = (span.splice item items).map f := by
  simp [splice, List.map_take, List.map_drop]

end SymbolPattern.Span

namespace ReductionContext

variable (context : ReductionContext) (delegate : String → List Symbol → Reduction NodeId)

theorem build_direct {rule : ParserRule} (direct : rule.subparser = none)
    (captured : List Symbol) (state : ReductionState) :
    build delegate rule captured state =
      .ok state.nodes.size
        { state with
          nodes := state.nodes.push ⟨rule.nodeType, .children (captured.map (·.node))⟩ } := by
  simp only [build, direct]
  rfl

theorem build_delegated {rule : ParserRule} {parser : String}
    (delegated : rule.subparser = some parser) (captured : List Symbol)
    (state : ReductionState) :
    build delegate rule captured state =
      Reduction.followed (delegate parser captured state) fun root after =>
        .ok after.nodes.size
          { after with nodes := after.nodes.push ⟨rule.nodeType, .children [root]⟩ } := by
  simp only [build, delegated, Reduction.bind_apply]
  rfl

/-- What comparing the tree below a node with the expected trees comes to. -/
inductive Verdict (context : ReductionContext) (candidate : Candidate) (parser : String)
    (group : Nat) (node : NodeId) (state : ReductionState) : ReductionState → Prop where
  /-- Nothing is expected, or the first divergence is already known, or there is no tree. -/
  | ignored :
      (context.expected = none ∨ state.divergence.isSome ∨
        state.nodes.tree? context.grammar.registry node = none) →
      Verdict context candidate parser group node state state
  | agreed {subtrees : List Tree} {tree : Tree} :
      context.expected = some subtrees → state.divergence = none →
      state.nodes.tree? context.grammar.registry node = some tree → tree ∈ subtrees →
      Verdict context candidate parser group node state
        { state with validSteps := state.validSteps + 1 }
  | diverged {subtrees : List Tree} {tree : Tree} :
      context.expected = some subtrees → state.divergence = none →
      state.nodes.tree? context.grammar.registry node = some tree → tree ∉ subtrees →
      Verdict context candidate parser group node state
        { state with
          divergence := some {
            rule := candidate.id
            nodeType := context.grammar.registry.name candidate.rule.nodeType
            parser
            group
            subtree := tree } }

theorem judge_verdict (candidate : Candidate) (parser : String) (group : Nat) (node : NodeId)
    (state : ReductionState) :
    context.Verdict candidate parser group node state
      (context.judge candidate parser group node state) := by
  unfold judge
  split
  · rename_i watched calm
    split
    · rename_i shown
      split
      · rename_i expected
        exact .agreed watched calm shown (List.contains_iff_mem.mp expected)
      · rename_i unexpected
        exact .diverged watched calm shown (mt List.contains_iff_mem.mpr unexpected)
    · exact .ignored (.inr (.inr ‹_›))
  · rename_i ignored
    cases watched : context.expected with
    | none => exact .ignored (.inl watched)
    | some subtrees =>
        cases known : state.divergence with
        | none => cases ignored subtrees watched known
        | some divergence => exact .ignored (.inr (.inl (Option.isSome_of_eq_some known)))

variable {context} in
theorem Verdict.judge_eq {candidate : Candidate} {parser : String} {group : Nat} {node : NodeId}
    {state after : ReductionState}
    (verdict : context.Verdict candidate parser group node state after) :
    context.judge candidate parser group node state = after := by
  cases verdict with
  | ignored ignored =>
      rcases ignored with unwatched | known | missing
      · simp [judge, unwatched]
      · obtain ⟨divergence, known⟩ := Option.isSome_iff_exists.mp known
        simp [judge, known]
      · unfold judge
        rw [missing]
        split
        · rfl
        · rfl
  | agreed watched calm shown expected => simp [judge, watched, calm, shown, expected]
  | diverged watched calm shown unexpected => simp [judge, watched, calm, shown, unexpected]

theorem reduceGroup_zero (parser : String) (groupIndex : Nat) (group : PrecedenceGroup)
    (position : Nat) (progress : Progress) (state : ReductionState) :
    context.reduceGroup delegate parser groupIndex group 0 position progress state =
      .ok progress state := rfl

theorem reduceGroup_halt {state : ReductionState} (halts : context.mustHalt state = true)
    (parser : String) (groupIndex : Nat) (group : PrecedenceGroup) (fuel position : Nat)
    (progress : Progress) :
    context.reduceGroup delegate parser groupIndex group (fuel + 1) position progress state =
      .ok { progress with stopped := true } { state with halted := true } := by
  rw [reduceGroup]
  change (if context.mustHalt state = true then _ else _ : Reduction Progress) state = _
  rw [if_pos halts]
  rfl

theorem reduceGroup_done {state : ReductionState} (runs : context.mustHalt state = false)
    {group : PrecedenceGroup} {position : Nat} {progress : Progress}
    (none_ : context.candidate? state.nodes group progress.symbols position = none)
    (parser : String) (groupIndex fuel : Nat) :
    context.reduceGroup delegate parser groupIndex group (fuel + 1) position progress state =
      .ok progress state := by
  rw [reduceGroup]
  change (if context.mustHalt state = true then _ else _ : Reduction Progress) state = _
  simp only [runs, Bool.false_eq_true, if_false, none_]
  rfl

theorem reduceGroup_step {state : ReductionState} (runs : context.mustHalt state = false)
    {group : PrecedenceGroup} {position : Nat} {progress : Progress} {candidate : Candidate}
    (found : context.candidate? state.nodes group progress.symbols position = some candidate)
    (parser : String) (groupIndex fuel : Nat) :
    context.reduceGroup delegate parser groupIndex group (fuel + 1) position progress state =
      Reduction.followed
        (build delegate candidate.rule (candidate.found.capture.slice progress.symbols) state)
        fun node after =>
          context.reduceGroup delegate parser groupIndex group fuel candidate.found.start
            { progress with
              symbols := candidate.found.capture.splice ⟨candidate.rule.nodeType, node⟩
                progress.symbols
              changed := true }
            (context.judge candidate parser groupIndex node after) := by
  rw [reduceGroup]
  change (if context.mustHalt state = true then _ else _ : Reduction Progress) state = _
  simp only [runs, Bool.false_eq_true, if_false, found]
  rw [Reduction.bind_apply]
  rfl

theorem reducePass_cons (parser : String) (fuel : Nat) (group : PrecedenceGroup) (index : Nat)
    (groups : List (PrecedenceGroup × Nat)) (progress : Progress) (state : ReductionState) :
    context.reducePass delegate parser fuel ((group, index) :: groups) progress state =
      Reduction.followed (context.reduceGroup delegate parser index group fuel 0 progress state)
        fun progress after =>
          if progress.stopped then .ok progress after
          else context.reducePass delegate parser fuel groups progress after := by
  rw [reducePass, Reduction.bind_apply]
  cases context.reduceGroup delegate parser index group fuel 0 progress state with
  | ok progress after =>
      change (if progress.stopped = true then _ else _ : Reduction Progress) after = ite _ _ _
      split
      · rfl
      · rfl
  | error error after => rfl

theorem reducePasses_succ (parser : String) (groups : List (PrecedenceGroup × Nat))
    (steps fuel : Nat) (symbols : List Symbol) (state : ReductionState) :
    context.reducePasses delegate parser groups steps (fuel + 1) symbols state =
      Reduction.followed
        (context.reducePass delegate parser steps groups ⟨symbols, false, false⟩ state)
        fun progress after =>
          if progress.stopped || !progress.changed then .ok progress.symbols after
          else context.reducePasses delegate parser groups steps fuel progress.symbols after := by
  rw [reducePasses, Reduction.bind_apply]
  cases context.reducePass delegate parser steps groups ⟨symbols, false, false⟩ state with
  | ok progress after =>
      change (if (progress.stopped || !progress.changed) = true then _ else _ :
        Reduction (List Symbol)) after = ite _ _ _
      split
      · rfl
      · rfl
  | error error after => rfl

theorem wrap_single (parser : String) (symbol : Symbol) (state : ReductionState) :
    context.wrap parser [symbol] state = .ok symbol.node state := rfl

theorem wrap_several {symbols : List Symbol} (several : symbols.length ≠ 1) (parser : String)
    (state : ReductionState) :
    context.wrap parser symbols state =
      if context.strict && !state.halted then
        .error (.incomplete parser
          (symbols.map fun symbol => context.grammar.registry.name symbol.nodeType)) state
      else
        .ok state.nodes.size
          { state with
            nodes := state.nodes.push ⟨unrecognized, .children (symbols.map (·.node))⟩ } := by
  have shape : context.wrap parser symbols = (do
      let state ← get
      if context.strict && !state.halted then
        throw (.incomplete parser
          (symbols.map fun symbol => context.grammar.registry.name symbol.nodeType))
      else modifyGet fun state => state.push unrecognized (symbols.map (·.node))) := by
    cases symbols with
    | nil => rfl
    | cons symbol symbols =>
        cases symbols with
        | nil => exact absurd rfl several
        | cons other symbols => rfl
  rw [shape]
  change (if (context.strict && !state.halted) = true then _ else _ : Reduction NodeId) state = _
  split
  · rfl
  · rfl

theorem reduceWith_succ {parser : String} {table : ParserTable}
    (known : context.grammar.parser? parser = some table) {symbols : List Symbol}
    (nonempty : symbols ≠ []) (levels : Nat) (state : ReductionState) :
    context.reduceWith (levels + 1) parser symbols state =
      Reduction.followed
        (context.reducePasses (context.reduceWith levels) parser table.groups.zipIdx
          (context.stepBound symbols.length) (context.stepBound symbols.length) symbols state)
        fun rest after => context.wrap parser rest after := by
  rw [reduceWith]
  have filled : symbols.isEmpty = false := by simpa using nonempty
  simp only [filled, Bool.false_eq_true, if_false, known, Reduction.bind_apply]

theorem reduceWith_unknown {parser : String} (unknown : context.grammar.parser? parser = none)
    {symbols : List Symbol} (nonempty : symbols ≠ []) (levels : Nat) (state : ReductionState) :
    context.reduceWith (levels + 1) parser symbols state =
      .error (.unknownParser parser) state := by
  rw [reduceWith]
  have filled : symbols.isEmpty = false := by simpa using nonempty
  simp only [filled, Bool.false_eq_true, if_false, unknown]
  rfl

/-- What a parse reports on: the node of the reduction and the tree below it. -/
theorem parse_eq (parser : String) (symbols : List Symbol) (state : ReductionState) :
    context.parse parser symbols state =
      Reduction.followed
        (context.reduceWith (context.levelBound symbols.length) parser symbols state)
        fun root after =>
          match after.nodes.tree? context.grammar.registry root with
          | some tree =>
              .ok ⟨root, tree, after.divergence, after.validSteps, after.halted,
                after.nodes.size⟩ after
          | none => .error (.emptyInput parser) after := by
  rw [parse, Reduction.bind_apply]
  cases context.reduceWith (context.levelBound symbols.length) parser symbols state with
  | error error after => rfl
  | ok root after =>
      simp only [Reduction.followed_ok]
      change (match after.nodes.tree? context.grammar.registry root with
        | some tree => _
        | none => _ : Reduction ParseReport) after = _
      cases after.nodes.tree? context.grammar.registry root with
      | some tree => rfl
      | none => rfl

end ReductionContext

end RowGrammar
