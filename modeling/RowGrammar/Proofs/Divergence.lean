import RowGrammar.Proofs.Reduction.LastPass
import RowGrammar.Proofs.Reduction.Limits

/-!
# Divergences and limits

An expected tree and a node limit only watch a parse.  The divergence that is reported is the first
step whose tree is not expected, and the number of valid steps is the number of steps before it.  A
parse that has not been stopped is what it would have been unwatched.
-/

namespace RowGrammar

open NodeTable Reduction ReductionContext Grammar

/-- The same options without a node limit and an expected tree. -/
def ParseOptions.unbound (options : ParseOptions) : ParseOptions :=
  { options with maxNodes := none, expected := none }

namespace Engine

/-- The steps of parsing tokens in a session. -/
def steps (engine : Engine) (session : Session) (tokens : List Token) (options : ParseOptions) :
    List Step :=
  (engine.reduction options).steps (options.parser.getD engine.grammar.mainParser)
    (tokens.filterMap Token.symbol?) (.start session.nodes)

/-- A divergence is the first step of a run whose tree is no part of the expected tree, and it makes
the run stop. -/
structure FirstDivergence (engine : Engine) (nodes : NodeTable) (steps : List Step)
    (expected : Tree) (report : ParseReport) (divergence : Divergence) : Prop where
  unexpected : divergence.subtree ∉ expected.subtrees
  halted : report.halted = true
  first : ∃ before step later, steps = before ++ step :: later ∧
    before.length = report.validSteps ∧
    (∀ earlier ∈ before, ∃ tree ∈ expected.subtrees,
      nodes.tree? engine.grammar.registry earlier.node = some tree) ∧
    divergence = step.divergence engine.grammar.registry divergence.subtree ∧
    nodes.tree? engine.grammar.registry step.node = some divergence.subtree
  /-- The group with the rule is the only one. -/
  group : ∃ table group, engine.grammar.parser? divergence.parser = some table ∧
    table.groups[divergence.group]? = some group ∧ divergence.rule ∈ group.rules ∧
    ∀ (index : Nat) (other : PrecedenceGroup), table.groups[index]? = some other →
      divergence.rule ∈ other.rules → index = divergence.group

/-- The nodes of a session after a parse, whether it fails or not. -/
theorem parseIn_nodes_eq (engine : Engine) (session : Session) (tokens : List Token)
    (options : ParseOptions) :
    (engine.parseIn session tokens options).2.nodes =
      (Result.final ((engine.reduction options).parse
        (options.parser.getD engine.grammar.mainParser) (tokens.filterMap Token.symbol?)
        (.start session.nodes))).nodes := by
  rw [parseIn_eq]
  cases (engine.reduction options).parse (options.parser.getD engine.grammar.mainParser)
      (tokens.filterMap Token.symbol?) (.start session.nodes) with
  | ok result final => rfl
  | error error final => rfl

theorem parseIn_eq_ok_iff {engine : Engine} {session : Session} {tokens : List Token}
    {options : ParseOptions} {report : ParseReport} :
    (engine.parseIn session tokens options).1 = .ok report ↔
      ∃ final, (engine.reduction options).parse (options.parser.getD engine.grammar.mainParser)
        (tokens.filterMap Token.symbol?) (.start session.nodes) = .ok report final ∧
        (engine.parseIn session tokens options).2.nodes = final.nodes := by
  rw [parseIn_eq]
  cases (engine.reduction options).parse (options.parser.getD engine.grammar.mainParser)
      (tokens.filterMap Token.symbol?) (.start session.nodes) with
  | ok result final => simp
  | error error final => simp

/-- A run whose steps are known to lead to a divergence has met it at one of them. -/
theorem firstDivergence_of_records {engine : Engine} (compiled : engine.Compiled)
    {options : ParseOptions} {expected : Tree} (watched : options.expected = some expected)
    {nodes : NodeTable} {steps : List Step} {report : ParseReport} {final : ReductionState}
    (records : (engine.reduction options).Records (.start nodes) steps final)
    (reports : Reports report final)
    (halts : report.halted = true ∨ report.divergence = none) {divergence : Divergence}
    (diverged : report.divergence = some divergence) :
    engine.FirstDivergence final.nodes steps expected report divergence := by
  obtain ⟨rows, groups, arranges, same, _⟩ := compiled.exists_arranged
  have found : final.divergence = some divergence := by rw [← reports.divergence, diverged]
  have stops : report.halted = true :=
    halts.resolve_right (by rw [diverged]; exact Option.some_ne_none _)
  have subtrees : (engine.reduction options).expected = some expected.subtrees :=
    congrArg (Option.map Tree.subtrees) watched
  cases records.judged expected.subtrees subtrees with
  | agreed _ calm =>
      rw [found] at calm
      cases calm
  | known other before =>
      cases before
  | diverged before step later tree _ split counted valid met shown fresh =>
      rw [found, Option.some.injEq] at met
      subst met
      have made := records.accounts.made step (by rw [split]; simp)
      obtain ⟨table, group, known, place, member⟩ := made.group
      refine ⟨fresh, stops, ⟨before, step, later, split, ?_, valid, rfl, shown⟩,
        table, group, known, place, member, ?_⟩
      · rw [reports.validSteps, counted]
        exact (Nat.zero_add _).symm
      · intro index other place' member'
        have known' : (arranged rows groups).parser? step.parser = some table := same ▸ known
        exact arranges.group_unique known' place' place member' member

/-- Only a parse with an expected tree meets a divergence. -/
theorem exists_expected {engine : Engine} {options : ParseOptions} {parser : String}
    {symbols : List Symbol} {nodes : NodeTable} {report : ParseReport} {final : ReductionState}
    (parsed : (engine.reduction options).parse parser symbols (.start nodes) = .ok report final)
    {divergence : Divergence} (diverged : report.divergence = some divergence) :
    ∃ expected, options.expected = some expected := by
  rw [← Option.isSome_iff_exists]
  by_contra unwatched
  rw [Option.not_isSome_iff_eq_none] at unwatched
  have nothing : (engine.reduction options).expected = none :=
    congrArg (Option.map Tree.subtrees) unwatched
  have calm := (respects_unwatched nothing).parse parser symbols (.start nodes) rfl
  rw [parsed] at calm
  rw [(parse_report parsed).divergence] at diverged
  cases diverged.symm.trans calm

/-- Watching a parse only ever cuts it short.  The steps account for the nodes of a parse, and a
divergence is the first step that builds a tree which is not expected.  A parse that has not been
stopped ends as it does unwatched; and where no rule delegates, the steps up to a stop are the first
ones of the unwatched parse, with no more nodes than the limit allows and one for what is left. -/
theorem parseIn_watched {engine : Engine} (compiled : engine.Compiled) {session : Session}
    {made tokens : List Token} (reached : session.Reached engine made) (own : tokens ⊆ made)
    (options : ParseOptions) :
    (∀ report, (engine.parseIn session tokens options).1 = .ok report →
      (engine.reduction options).Accounts session.nodes (engine.steps session tokens options)
        (engine.parseIn session tokens options).2.nodes ∧
      (∀ divergence, report.divergence = some divergence →
        ∃ expected, options.expected = some expected ∧
          engine.FirstDivergence (engine.parseIn session tokens options).2.nodes
            (engine.steps session tokens options) expected report divergence) ∧
      (report.halted = false →
        ∃ other, (engine.parseIn session tokens options.unbound).1 = .ok other ∧
          other.root = report.root ∧ other.tree = report.tree ∧
          other.nodeCount = report.nodeCount)) ∧
    ((∀ rule ∈ engine.grammar.parserRules.toList, rule.subparser = none) →
      engine.steps session tokens options <+: engine.steps session tokens options.unbound ∧
      ∀ limit, options.maxNodes = some limit →
        (engine.parseIn session tokens options).2.nodes.size ≤ max session.nodes.size limit + 1 ∧
        ∀ report, (engine.parseIn session tokens options).1 = .ok report →
          report.nodeCount ≤ max session.nodes.size limit + 1) := by
  obtain ⟨rows, groups, arranges, same, _⟩ := compiled.exists_arranged
  have shown : session.nodes.ShowsAll (engine.reduction options).grammar.registry _ _ :=
    Session.showsAll_tokens (fun token member => reached.holds token (own member)) _
  have owns (parser : String) (table : ParserTable)
      (known : (engine.reduction options).grammar.parser? parser = some table) :=
    owns_of_arranges arranges same known
  refine ⟨?_, ?_⟩
  · intro report parsed
    obtain ⟨final, parsed, nodes⟩ := parseIn_eq_ok_iff.mp parsed
    have records := parse_records shown parsed
    have halts := parse_halts compiled.namesApart (owns _) shown parsed
    rw [nodes]
    refine ⟨records.accounts, ?_, ?_⟩
    · intro divergence diverged
      obtain ⟨expected, watched⟩ := exists_expected parsed diverged
      exact ⟨expected, watched, firstDivergence_of_records compiled watched records
        (parse_report parsed) halts diverged⟩
    · intro running
      have agreed := halts.resolve_left (by rw [running]; exact Bool.false_ne_true)
      obtain ⟨other, final', parsed', root, tree, count⟩ :=
        parse_unbound shown parsed running agreed
      refine ⟨other, ?_, root, tree, count⟩
      have unbound : (engine.reduction options.unbound).parse
          (options.unbound.parser.getD engine.grammar.mainParser) (tokens.filterMap Token.symbol?)
          (.start session.nodes) = .ok other final' := parsed'
      rw [parseIn_eq, unbound]
  · intro direct
    have alone : ∀ rule ∈ (engine.reduction options).grammar.parserRules.toList,
        rule.subparser = none := direct
    have arranged_ : (engine.reduction options).grammar = arranged rows groups := same
    refine ⟨steps_beside alone _ _ _, ?_⟩
    intro limit limited
    have within := parse_size_le arranges arranged_ alone limited
      (options.parser.getD engine.grammar.mainParser) (tokens.filterMap Token.symbol?)
      (.start session.nodes)
    refine ⟨engine.parseIn_nodes_eq session tokens options ▸ within, ?_⟩
    intro report parsed
    obtain ⟨after, parsed, _⟩ := parseIn_eq_ok_iff.mp parsed
    rw [parsed] at within
    rw [(parse_report parsed).nodeCount]
    exact within

/-- A session in which two letters have been read, and their tokens. -/
def lettersRead : Session :=
  (nestedEngine.tokenizeIn .start "aa" {}).2

def twoLetters : List Token :=
  [⟨1, "a", 0, some 0⟩, ⟨1, "a", 1, some 1⟩]

/-- A session in which a number has been read, and its token. -/
def numberRead : Session :=
  (cyclicEngine.tokenizeIn .start "7" {}).2

def oneNumber : List Token :=
  [⟨1, "7", 0, some 0⟩]

/-- A tree of the inner parser alone. -/
def letterInside : Tree :=
  .branch "Inner" [.leaf "Letter" "a"]

/-- The step of the inner parser is expected, and the one that it is made for is not.  A limit that
is not met changes nothing, and a limit of two nodes cuts a cycle in half. -/
theorem parseIn_watched_nested :
    (∃ report divergence,
      (nestedEngine.parseIn lettersRead twoLetters { expected := some letterInside }).1 =
        .ok report ∧
      report.divergence = some divergence ∧ report.validSteps = 1 ∧
      nestedEngine.FirstDivergence
        (nestedEngine.parseIn lettersRead twoLetters { expected := some letterInside }).2.nodes
        (nestedEngine.steps lettersRead twoLetters { expected := some letterInside })
        letterInside report divergence) ∧
    (∃ report other,
      (nestedEngine.parseIn lettersRead twoLetters { maxNodes := some 7 }).1 = .ok report ∧
      (nestedEngine.parseIn lettersRead twoLetters {}).1 = .ok other ∧
      other.nodeCount = report.nodeCount) ∧
    cyclicEngine.steps numberRead oneNumber { maxNodes := some 2 } <+:
      cyclicEngine.steps numberRead oneNumber {} ∧
    (cyclicEngine.parseIn numberRead oneNumber { maxNodes := some 2 }).2.nodes.size ≤
      max numberRead.nodes.size 2 + 1 := by
  have letters : (nestedEngine.tokenizeIn .start "aa" {}).1 = .ok twoLetters := by decide +kernel
  have number : (cyclicEngine.tokenizeIn .start "7" {}).1 = .ok oneNumber := by decide +kernel
  have nested (options : ParseOptions) := parseIn_watched (.ofRows ofRows_nestedRows)
    (.tokenized .start (Prod.ext letters rfl)) (List.Subset.refl _) options
  have cyclic := (parseIn_watched (.ofRows ofRows_cyclicRows)
    (.tokenized .start (Prod.ext number rfl)) (List.Subset.refl _) { maxNodes := some 2 }).2
    (by decide +kernel)
  refine ⟨?_, ?_, cyclic.1, (cyclic.2 2 rfl).1⟩
  · obtain ⟨report, parsed, met, count⟩ : ∃ report,
        (nestedEngine.parseIn lettersRead twoLetters { expected := some letterInside }).1 =
          .ok report ∧ report.divergence.isSome ∧ report.validSteps = 1 :=
      ⟨_, eq_ok_get (by decide +kernel), by decide +kernel, by decide +kernel⟩
    obtain ⟨divergence, diverged⟩ := Option.isSome_iff_exists.mp met
    obtain ⟨expected, ⟨⟩, diverges⟩ := ((nested _).1 report parsed).2.1 divergence diverged
    exact ⟨report, divergence, parsed, diverged, count, diverges⟩
  · obtain ⟨report, parsed, running⟩ : ∃ report,
        (nestedEngine.parseIn lettersRead twoLetters { maxNodes := some 7 }).1 = .ok report ∧
          report.halted = false :=
      ⟨_, eq_ok_get (by decide +kernel), by decide +kernel⟩
    obtain ⟨other, same, _, _, nodes⟩ := ((nested _).1 report parsed).2.2 running
    exact ⟨report, other, parsed, same, nodes⟩

end Engine

end RowGrammar
