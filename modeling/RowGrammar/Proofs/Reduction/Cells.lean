import RowGrammar.Proofs.Irreducible

/-!
# Reductions of cells

What a rule can do depends on the types of the symbols and shows in the trees below them.  Where
nothing is delegated, watched or limited and every rule takes at least two symbols, a reduction
rewrites a sequence of types and trees: it stops where no rule applies, and what every group keeps
of the sequence, from one stage of a pass to the next, holds in the end.
-/

namespace RowGrammar

open NodeTable SymbolPattern

/-- A symbol as it shows: its type and the tree below its node. -/
structure Cell where
  nodeType : NodeTypeId
  tree : Tree

namespace Cell

/-- The cell of a new branch over some cells. -/
def branch (registry : Registry) (nodeType : NodeTypeId) (captured : List Cell) : Cell :=
  ⟨nodeType, .branch (registry.name nodeType) (captured.map (·.tree))⟩

/-- The types of cells, as patterns see them. -/
def kinds (cells : List Cell) : Array NodeTypeId :=
  (cells.map (·.nodeType)).toArray

end Cell

/-- The symbols show as the cells. -/
def NodeTable.Presents (table : NodeTable) (registry : Registry) (symbols : List Symbol)
    (cells : List Cell) : Prop :=
  symbols.map (·.nodeType) = cells.map (·.nodeType) ∧
    table.ShowsAll registry symbols (cells.map (·.tree))

namespace NodeTable.Presents

variable {table : NodeTable} {registry : Registry} {symbols : List Symbol} {cells : List Cell}

theorem kinds_eq (presents : table.Presents registry symbols cells) :
    (symbols.map (·.nodeType)).toArray = Cell.kinds cells :=
  congrArg List.toArray presents.1

theorem length_eq (presents : table.Presents registry symbols cells) :
    symbols.length = cells.length := by
  simpa using congrArg List.length presents.1

/-- A new branch over some of the symbols. -/
theorem splice (presents : table.Presents registry symbols cells) (span : Span)
    (nodeType : NodeTypeId) :
    (table.push ⟨nodeType, .children ((span.slice symbols).map (·.node))⟩).Presents registry
      (span.splice ⟨nodeType, table.size⟩ symbols)
      (span.splice (Cell.branch registry nodeType (span.slice cells)) cells) := by
  obtain ⟨types, shown⟩ := presents
  constructor
  · rw [← Span.splice_map, ← Span.splice_map, types]
    rfl
  · have captured := shown.slice span
    have made := (shown.mono (Grows.push table
      ⟨nodeType, .children ((span.slice symbols).map (·.node))⟩)).splice span
      (Shows.push_branch nodeType captured.nodes)
    rw [← Span.splice_map]
    rwa [Span.slice_map] at made

end NodeTable.Presents

namespace ReductionContext

variable {context : ReductionContext}

/-- Rules put nodes over two symbols or more, none delegates, and nothing stops or watches them. -/
structure Merges (context : ReductionContext) : Prop where
  unlimited : context.maxNodes = none
  unexpected : context.expected = none
  direct : ∀ rule ∈ context.grammar.parserRules.toList, rule.subparser = none
  broad : ∀ (id : RuleId) pattern, context.patterns[id]? = some pattern →
    ∀ kinds start absorb found, pattern.matchAt kinds start absorb = some found →
      2 ≤ found.capture.length

/-- Reducing goes on and nothing has been found amiss. -/
def Calm (state : ReductionState) : Prop :=
  state.halted = false ∧ state.divergence = none

/-- A rule of a group matches at a position of a sequence of types. -/
def Applies (context : ReductionContext) (group : PrecedenceGroup) (kinds : Array NodeTypeId)
    (start : Nat) (rule : ParserRule) (found : Match) : Prop :=
  ∃ id ∈ group.rules, context.grammar.parserRules[id]? = some rule ∧
    ∃ pattern, context.patterns[id]? = some pattern ∧
      pattern.matchAt kinds start (context.absorbs kinds) = some found

/-- No rule of a group matches from a position on, up to another one. -/
def Silent (context : ReductionContext) (group : PrecedenceGroup) (kinds : Array NodeTypeId)
    (position stop : Nat) : Prop :=
  ∀ start, position ≤ start → start < stop → ∀ rule found,
    ¬context.Applies group kinds start rule found

/-- What a rule of the group would match is not there, as far as has been looked. -/
theorem Silent.not_before {group : PrecedenceGroup} {kinds : Array NodeTypeId}
    {position stop : Nat} (silent : context.Silent group kinds position stop) {here : Nat → Prop}
    (earlier : ∀ start < position, ¬here start)
    (applies : ∀ start, here start →
      ∃ rule found, context.Applies group kinds start rule found) :
    ∀ start < stop, ¬here start := by
  intro start until_ is
  obtain ⟨rule, found, applies⟩ := applies start is
  rcases Nat.lt_or_ge start position with before | from_
  · exact earlier start before is
  · exact silent start from_ until_ rule found applies

section

variable (merges : context.Merges)

/-- Nothing is absorbed where unmatched text is an error. -/
theorem absorbs_eq_false_of_strict (strict : context.strict = true) (kinds : Array NodeTypeId) :
    context.absorbs kinds = false := by
  rw [absorbs, strict, Bool.not_true, Bool.false_and]

include merges

theorem Merges.mustHalt_eq {state : ReductionState} (calm : Calm state) :
    context.mustHalt state = false := by
  simp [mustHalt, calm.1, calm.2, merges.unlimited]

theorem Merges.judge_eq (candidate : Candidate) (parser : String) (group : Nat) (node : NodeId)
    (state : ReductionState) : context.judge candidate parser group node state = state :=
  (Verdict.ignored (.inl merges.unexpected)).judge_eq

/-- Every match of a rule makes a candidate. -/
theorem Merges.candidateAt?_eq_none {nodes : NodeTable} {symbols : List Symbol} {start : Nat}
    {id : RuleId}
    (nothing : context.candidateAt? nodes symbols (symbols.map (·.nodeType)).toArray
      (context.absorbs (symbols.map (·.nodeType)).toArray) start id = none)
    {rule : ParserRule} (known : context.grammar.parserRules[id]? = some rule)
    {pattern : SymbolPattern} (compiled : context.patterns[id]? = some pattern) :
    pattern.matchAt (symbols.map (·.nodeType)).toArray start
      (context.absorbs (symbols.map (·.nodeType)).toArray) = none := by
  cases matched : pattern.matchAt (symbols.map (·.nodeType)).toArray start
      (context.absorbs (symbols.map (·.nodeType)).toArray) with
  | none => rfl
  | some found =>
      obtain ⟨symbol, single, _⟩ :=
        (candidateAt?_eq_none_iff known compiled).mp nothing found matched
      have wide := merges.broad id pattern compiled _ _ _ found matched
      obtain ⟨_, _, _, inside, bounded⟩ := matchAt_bounds matched
      simp only [List.size_toArray, List.length_map] at bounded
      rw [Span.slice_eq_singleton_iff (by omega)] at single
      omega

theorem Merges.silent_of_findSome? {nodes : NodeTable} {group : PrecedenceGroup}
    {symbols : List Symbol} {starts : List Nat}
    (nothing : ∀ start ∈ starts, group.rules.findSome? (context.candidateAt? nodes symbols
      (symbols.map (·.nodeType)).toArray (context.absorbs (symbols.map (·.nodeType)).toArray)
      start) = none) {start : Nat} (member : start ∈ starts) (rule : ParserRule) (found : Match) :
    ¬context.Applies group (symbols.map (·.nodeType)).toArray start rule found := by
  rintro ⟨id, listed, known, pattern, compiled, matched⟩
  have absent := List.findSome?_eq_none_iff.mp (nothing start member) id listed
  rw [merges.candidateAt?_eq_none absent known compiled] at matched
  cases matched

/-- The next candidate is a rule that matches where none has matched before. -/
theorem Merges.candidate?_eq_some {nodes : NodeTable} {group : PrecedenceGroup}
    {symbols : List Symbol} {position : Nat} {candidate : Candidate}
    (found : context.candidate? nodes group symbols position = some candidate) :
    position ≤ candidate.found.start ∧
      context.Applies group (symbols.map (·.nodeType)).toArray candidate.found.start
        candidate.rule candidate.found ∧
      context.Silent group (symbols.map (·.nodeType)).toArray position candidate.found.start := by
  simp only [candidate?] at found
  obtain ⟨before, start, after, split, foundAt, sooner⟩ := List.findSome?_eq_some_iff.mp found
  obtain ⟨id, member, applies⟩ := List.exists_of_findSome?_eq_some foundAt
  obtain ⟨rfl, known, pattern, compiled, matched⟩ := candidateAt?_eq_some applies
  have starts := (matchAt_bounds matched).1
  obtain ⟨count, _, rfl, rest⟩ := List.range'_eq_append_iff.mp split
  obtain ⟨rfl, _⟩ := List.range'_eq_cons_iff.mp rest.symm
  rw [starts]
  refine ⟨Nat.le_add_right _ _, ⟨_, member, known, pattern, compiled, matched⟩, ?_⟩
  intro earlier from_ until_ rule other
  exact merges.silent_of_findSome? sooner (List.mem_range'_1.mpr ⟨from_, by omega⟩) rule other

/-- Without a candidate, no rule matches from the position on. -/
theorem Merges.silent_of_candidate?_eq_none {nodes : NodeTable} {group : PrecedenceGroup}
    {symbols : List Symbol} {position : Nat}
    (nothing : context.candidate? nodes group symbols position = none) (stop : Nat) :
    context.Silent group (symbols.map (·.nodeType)).toArray position stop := by
  simp only [candidate?] at nothing
  intro start from_ _ rule found applies
  refine merges.silent_of_findSome? (List.findSome?_eq_none_iff.mp nothing) ?_ rule found applies
  obtain ⟨_, _, _, pattern, _, matched⟩ := applies
  obtain ⟨_, _, _, _, bounded⟩ := matchAt_bounds matched
  rw [List.mem_range'_1]
  omega

/-! ## Stages -/

/-- What a group makes of a sequence of which something holds, starting at its front. -/
def Brings (context : ReductionContext) (parser : String) (group : PrecedenceGroup)
    (before after : List Cell → Prop) : Prop :=
  ∀ (delegate : String → List Symbol → Reduction NodeId) (index fuel : Nat)
    (progress final : Progress) (state later : ReductionState) (cells : List Cell),
    Calm state → state.nodes.Presents context.grammar.registry progress.symbols cells →
    cells.length < fuel → before cells →
    context.reduceGroup delegate parser index group fuel 0 progress state = .ok final later →
    Calm later ∧ final.stopped = progress.stopped ∧ ∃ rest,
      later.nodes.Presents context.grammar.registry final.symbols rest ∧
        rest.length ≤ cells.length ∧ after rest

omit merges in
theorem Brings.imp {parser : String} {group : PrecedenceGroup}
    {before after other : List Cell → Prop} (brings : context.Brings parser group before after)
    (follows : ∀ cells, after cells → other cells) : context.Brings parser group before other := by
  intro delegate index fuel progress final state later cells calm presents enough holds ran
  obtain ⟨calm', stops, rest, presents', shorter, left⟩ :=
    brings delegate index fuel progress final state later cells calm presents enough holds ran
  exact ⟨calm', stops, rest, presents', shorter, follows rest left⟩

/-- What every application of a rule keeps holds when a group ends, and no rule of the group matches
any more from where it has been looked for last. -/
theorem Merges.brings {parser : String} {group : PrecedenceGroup}
    {invariant : Nat → List Cell → Prop}
    (steps : ∀ {position start : Nat} {cells : List Cell} {rule : ParserRule} {found : Match},
      invariant position cells → position ≤ start →
      context.Applies group (Cell.kinds cells) start rule found →
      context.Silent group (Cell.kinds cells) position start →
      invariant start (found.capture.splice
        (Cell.branch context.grammar.registry rule.nodeType (found.capture.slice cells)) cells)) :
    context.Brings parser group (invariant 0) fun cells =>
      ∃ position, invariant position cells ∧
        ∀ stop, context.Silent group (Cell.kinds cells) position stop := by
  intro delegate index fuel
  generalize 0 = position
  induction fuel generalizing position with
  | zero => intro _ _ _ _ _ _ _ enough; cases enough
  | succ fuel induction =>
      intro progress final state later cells calm presents enough holds ran
      cases found : context.candidate? state.nodes group progress.symbols position with
      | none =>
          rw [reduceGroup_done context delegate (merges.mustHalt_eq calm) found] at ran
          cases ran
          have silent := merges.silent_of_candidate?_eq_none found
          rw [presents.kinds_eq] at silent
          exact ⟨calm, rfl, cells, presents, Nat.le_refl _, position, holds, silent⟩
      | some candidate =>
          obtain ⟨beyond, applies, silent⟩ := merges.candidate?_eq_some found
          rw [presents.kinds_eq] at applies silent
          have stepped := steps holds beyond applies silent
          obtain ⟨_, _, known, pattern, compiled, matched⟩ := applies
          have direct := merges.direct candidate.rule
            (Array.mem_toList_iff.mpr (Array.mem_of_getElem? known))
          have wide := merges.broad _ pattern compiled _ _ _ _ matched
          obtain ⟨_, _, _, inside, bounded⟩ := matchAt_bounds matched
          simp only [Cell.kinds, List.size_toArray, List.length_map] at bounded
          have shorter : (candidate.found.capture.splice (Cell.branch context.grammar.registry
              candidate.rule.nodeType (candidate.found.capture.slice cells)) cells).length <
              cells.length := by
            simp only [Span.length] at wide
            simp only [Span.splice, List.length_append, List.length_cons, List.length_take,
              List.length_drop]
            omega
          rw [reduceGroup_step context delegate (merges.mustHalt_eq calm) found,
            build_direct delegate direct, Reduction.followed_ok, merges.judge_eq] at ran
          have calm_ : Calm { state with nodes := state.nodes.push ⟨candidate.rule.nodeType,
              .children ((candidate.found.capture.slice progress.symbols).map (·.node))⟩ } := calm
          obtain ⟨calm', stops, rest, presents', shorter', after⟩ := induction _ _ _ _ _ _ calm_
            (presents.splice candidate.found.capture candidate.rule.nodeType) (by omega) stepped ran
          exact ⟨calm', stops, rest, presents', by omega, after⟩

omit merges

/-- The stages that a pass over some groups goes through. -/
inductive Stages (context : ReductionContext) (parser : String) :
    List PrecedenceGroup → (List Cell → Prop) → (List Cell → Prop) → Prop where
  | nil {holds : List Cell → Prop} : Stages context parser [] holds holds
  | cons {group : PrecedenceGroup} {groups : List PrecedenceGroup}
      {before middle after : List Cell → Prop} :
      context.Brings parser group before middle → Stages context parser groups middle after →
      Stages context parser (group :: groups) before after

variable {parser : String} {groups : List PrecedenceGroup} {before after : List Cell → Prop}
  (stages : context.Stages parser groups before after)

include stages

theorem Stages.reducePass {delegate : String → List Symbol → Reduction NodeId} {fuel offset : Nat}
    {progress final : Progress} {state later : ReductionState} {cells : List Cell}
    (calm : Calm state) (running : progress.stopped = false)
    (presents : state.nodes.Presents context.grammar.registry progress.symbols cells)
    (enough : cells.length < fuel) (holds : before cells)
    (ran : context.reducePass delegate parser fuel (groups.zipIdx offset) progress state =
      .ok final later) :
    Calm later ∧ final.stopped = false ∧ ∃ rest,
      later.nodes.Presents context.grammar.registry final.symbols rest ∧
        rest.length ≤ cells.length ∧ after rest := by
  induction stages generalizing progress state cells offset with
  | nil =>
      cases ran
      exact ⟨calm, running, cells, presents, Nat.le_refl _, holds⟩
  | cons brings _ induction =>
      rw [List.zipIdx_cons, reducePass_cons, Reduction.followed_eq_ok_iff] at ran
      obtain ⟨middle, between, grouped, others⟩ := ran
      obtain ⟨calm', stops, rest, presents', shorter, holds'⟩ :=
        brings _ _ _ _ _ _ _ _ calm presents enough holds grouped
      rw [stops, running, if_neg Bool.false_ne_true] at others
      obtain ⟨calm'', stops', rest', presents'', shorter', holds''⟩ :=
        induction calm' (stops.trans running) presents' (by omega) holds' others
      exact ⟨calm'', stops', rest', presents'', by omega, holds''⟩

/-- What holds at the start of every pass holds when there are no more passes. -/
theorem Stages.reducePasses {delegate : String → List Symbol → Reduction NodeId}
    (again : ∀ cells, after cells → before cells) {steps fuel : Nat} {symbols rest : List Symbol}
    {state later : ReductionState} {cells : List Cell} (calm : Calm state)
    (presents : state.nodes.Presents context.grammar.registry symbols cells)
    (enough : cells.length < steps) (holds : before cells)
    (ran : context.reducePasses delegate parser groups.zipIdx steps fuel symbols state =
      .ok rest later) :
    Calm later ∧ ∃ left, later.nodes.Presents context.grammar.registry rest left ∧ before left := by
  induction fuel generalizing symbols state cells with
  | zero =>
      cases ran
      exact ⟨calm, cells, presents, holds⟩
  | succ fuel induction =>
      rw [reducePasses_succ, Reduction.followed_eq_ok_iff] at ran
      obtain ⟨progress, between, passed, others⟩ := ran
      have whole : state.nodes.Presents context.grammar.registry
          (Progress.mk symbols false false).symbols cells := presents
      obtain ⟨calm', stops, left, presents', shorter, holds'⟩ :=
        stages.reducePass calm rfl whole enough holds passed
      split at others
      · cases others
        exact ⟨calm', left, presents', again left holds'⟩
      · exact induction calm' presents' (by omega) (again left holds') others

/-- Where what the passes keep lets a rule match until one cell is left, the parse ends with it. -/
theorem Stages.parse_single (merges : context.Merges) (again : ∀ cells, after cells → before cells)
    {rows : List Row} {arranged_ : String → List PrecedenceGroup}
    (arranges : Grammar.Arranges rows arranged_)
    (same : context.grammar = Grammar.arranged rows arranged_)
    (apart : context.grammar.NamesApart) {table : ParserTable}
    (known : context.grammar.parser? parser = some table) (listed : table.groups = groups)
    (single : ∀ cells, before cells → (∀ group ∈ groups, ∀ stop,
      context.Silent group (Cell.kinds cells) 0 stop) → ∃ cell, cells = [cell])
    {symbols : List Symbol} {nodes : NodeTable} {cells : List Cell} (nonempty : cells ≠ [])
    (presents : nodes.Presents context.grammar.registry symbols cells) (holds : before cells) :
    ∃ report final cell, context.parse parser symbols (.start nodes) = .ok report final ∧
      report.tree = cell.tree ∧ report.halted = false ∧ before [cell] := by
  subst listed
  have filled : symbols ≠ [] := by
    rw [← List.length_pos_iff, presents.length_eq, List.length_pos_iff]
    exact nonempty
  have shown : (ReductionState.start nodes).nodes.ShowsAll context.grammar.registry symbols _ :=
    presents.2
  have owns := owns_of_arranges arranges same known
  have enough := context.potential_lt_stepBound parser (shown.ne_nil.mp filled)
  rw [← shown.length_eq] at enough
  have steps : cells.length < context.stepBound symbols.length := by
    rw [stepBound, presents.length_eq]
    have bound : 2 * cells.length ≤ 2 * cells.length * (context.grammar.parserRules.size + 2) :=
      Nat.le_mul_of_pos_right _ (Nat.succ_pos _)
    omega
  obtain ⟨rest, later, passes⟩ := reducePasses_total
    (completes_of_direct (fun rule member _ => merges.direct rule member)
      (context.reduceWith (context.levelBound symbols.length - 1))) owns
    (context.stepBound symbols.length) (context.stepBound symbols.length) symbols (.start nodes)
  have ended : context.leftOver parser symbols (.start nodes) = .ok rest later := by
    rwa [leftOver, known]
  obtain ⟨calm, left, presents', holds'⟩ :=
    stages.reducePasses again ⟨rfl, rfl⟩ presents steps holds passes
  have exhausted := (reducePasses_exhausts apart (reduceWith_sound _) owns shown enough enough
    passes).resolve_left (by simp [calm.1])
  have silent : ∀ group ∈ table.groups, ∀ stop,
      context.Silent group (Cell.kinds left) 0 stop := by
    intro group member stop
    obtain ⟨index, place⟩ := List.getElem?_of_mem member
    rw [← presents'.kinds_eq]
    exact merges.silent_of_candidate?_eq_none
      (exhausted.1 (group, index) (List.mk_mem_zipIdx_iff_getElem?.mpr place)) stop
  obtain ⟨cell, rfl⟩ := single left holds' silent
  obtain ⟨symbol, rfl⟩ := List.length_eq_one_iff.mp presents'.length_eq
  have below := (List.forall₂_cons.mp presents'.2).1.tree?_eq
  rcases parse_concludes filled shown ended with
    ⟨report, final, parsed, concludes⟩ | ⟨error, final, parsed, concludes⟩
  · cases concludes with
    | reported wrapped found =>
        rw [wrap_single] at wrapped
        cases wrapped
        rw [below, Option.some.injEq] at found
        exact ⟨_, final, cell, parsed, found.symm, calm.1, holds'⟩
  · cases concludes with
    | failed wrapped =>
        rw [wrap_single] at wrapped
        cases wrapped

end

end ReductionContext

end RowGrammar
