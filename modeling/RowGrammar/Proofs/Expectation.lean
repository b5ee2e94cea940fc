import RowGrammar.Proofs.Parsing
import RowGrammar.Proofs.Reduction.Watching
import RowGrammar.Repair

/-!
# Expected trees

Comparing a parse with an expected tree stops it at the first subtree that the tree does not have,
and changes nothing else.  So a text is parsed into the expected tree without a divergence just when
it is parsed into this tree anyway, and that is when a repair has nothing to move.
-/

namespace RowGrammar

open ReductionContext

namespace Engine

/-- A parse without a divergence is the same when nothing is expected. -/
theorem parse_unwatched {engine : Engine} {text : String} {options : ParseOptions}
    {report : ParseReport} (parsed : engine.parse text options = .ok report)
    (agreed : report.divergence = none) :
    ∃ plain, engine.parse text { options with expected := none } = .ok plain ∧
      plain.tree = report.tree := by
  obtain ⟨tokens, session, final, tokenized, reduced⟩ := parse_eq_ok_iff.mp parsed
  obtain ⟨_, held⟩ := nodes_of_tokenized tokenized
  have quiet : final.divergence = none := (parse_report reduced).divergence.symm.trans agreed
  obtain ⟨plain, _, reduced', _, same⟩ := (tolerates_unwatched _).parse_eq_ok
    (Session.showsAll_tokens held _) reduced quiet
  exact ⟨plain, parse_eq_ok_iff.mpr ⟨_, _, _, tokenized, reduced'⟩, same⟩

/-- A parse that is compared with its own tree goes through. -/
theorem parse_watched {engine : Engine} {text : String} {options : ParseOptions}
    {report : ParseReport}
    (parsed : engine.parse text { options with expected := none } = .ok report) :
    ∃ checked, engine.parse text { options with expected := some report.tree } = .ok checked ∧
      checked.divergence = none ∧ checked.tree = report.tree := by
  obtain ⟨tokens, session, final, tokenized, reduced⟩ := parse_eq_ok_iff.mp parsed
  obtain ⟨_, held⟩ := nodes_of_tokenized tokenized
  have leaves {id : NodeId} {node : Node} (got : session.nodes.get? id = some node) :
      ∃ text, node.payload = .text text := by
    obtain ⟨token, _, _, rfl⟩ := exists_token_of_tokenized tokenized got
    exact ⟨token.text, rfl⟩
  have shown := Session.showsAll_tokens held engine.grammar.registry
  obtain ⟨checked, _, reduced', agreed, same⟩ :=
    (tolerates_watched (engine.reduction { options with expected := none })
      report.tree.subtrees).parse_eq_ok shown reduced (parse_within rfl shown leaves reduced)
  exact ⟨checked, parse_eq_ok_iff.mpr ⟨_, _, _, tokenized, reduced'⟩, agreed, same⟩

/-! ## Repairs without a move -/

/-- A repair never takes a move back. -/
theorem relocations_le {text : String} {expected found : Tree} {maxNodes : Option Nat}
    {budget relocations count : Nat} {seen : List String} {engine : Engine}
    (converged : (repairFrom text expected maxNodes budget seen relocations engine).1 =
      .ok (.converged count found)) : relocations ≤ count := by
  induction budget generalizing seen relocations engine with
  | zero => cases converged
  | succ budget induction =>
      rw [repairFrom] at converged
      split at converged
      · cases converged
      · split at converged
        · cases converged
        · split at converged
          · split at converged
            · cases converged
              exact Nat.le_refl _
            · cases converged
          · split at converged
            · exact Nat.le_of_succ_le (induction converged)
            · exact induction converged

/-- Trying the same configuration again leads nowhere. -/
theorem repairFrom_repeated {text : String} {expected found : Tree} {maxNodes : Option Nat}
    {budget relocations count : Nat} {seen : List String} {engine : Engine}
    (repeated : engine.grammar.signature ∈ seen) :
    (repairFrom text expected maxNodes budget seen relocations engine).1 ≠
      .ok (.converged count found) := by
  cases budget with
  | zero => nofun
  | succ budget =>
      rw [repairFrom, if_pos (List.contains_iff_mem.mpr repeated)]
      nofun

/-- A repair that moves nothing has found the text parsed as expected. -/
theorem repair_unmoved_iff {engine : Engine} {text : String} {expected : Tree} {budget : Nat}
    {maxNodes : Option Nat} :
    (∃ found, (engine.repair text expected ⟨budget + 1, maxNodes⟩).1 =
        .ok (.converged 0 found)) ↔
      ∃ report, engine.parse text { maxNodes, expected := some expected } = .ok report ∧
        report.divergence = none ∧ report.tree = expected := by
  rw [repair, repairFrom, if_neg (by simp)]
  cases engine.parse text { maxNodes, expected := some expected } with
  | error error => simp
  | ok report =>
      cases agreed : report.divergence with
      | none =>
          by_cases same : report.tree = expected
          · simp [agreed, same]
          · simp [agreed, same]
      | some divergence =>
          suffices moved : ¬∃ found, _ = Except.ok (RepairOutcome.converged 0 found) by
            simpa [agreed] using moved
          rintro ⟨found, converged⟩
          cases resolved : engine.resolve? divergence with
          | some moved =>
              rw [resolved] at converged
              exact absurd (relocations_le converged) (by decide)
          | none =>
              rw [resolved] at converged
              exact repairFrom_repeated List.mem_cons_self converged

/-- A parse is accepted against a tree just when it yields this tree anyway: comparing neither
changes a parse nor stops one that builds the expected tree. -/
theorem parse_expected (engine : Engine) (text : String) (options : ParseOptions) (tree : Tree) :
    ((∃ report, engine.parse text { options with expected := some tree } = .ok report ∧
        report.divergence = none ∧ report.tree = tree) ↔
      ∃ report, engine.parse text { options with expected := none } = .ok report ∧
        report.tree = tree) ∧
    (∀ report, engine.parse text { options with expected := none } = .ok report →
      ∃ checked, engine.parse text { options with expected := some report.tree } = .ok checked ∧
        checked.divergence = none ∧ checked.tree = report.tree) ∧
    ∀ budget maxNodes,
      (∃ found, (engine.repair text tree ⟨budget + 1, maxNodes⟩).1 = .ok (.converged 0 found)) ↔
        ∃ report, engine.parse text { maxNodes } = .ok report ∧ report.tree = tree := by
  have accepted (options : ParseOptions) :
      (∃ report, engine.parse text { options with expected := some tree } = .ok report ∧
          report.divergence = none ∧ report.tree = tree) ↔
        ∃ report, engine.parse text { options with expected := none } = .ok report ∧
          report.tree = tree := by
    constructor
    · rintro ⟨report, parsed, agreed, rfl⟩
      exact @parse_unwatched _ _ { options with expected := some report.tree } _ parsed agreed
    · rintro ⟨report, parsed, rfl⟩
      exact parse_watched parsed
  refine ⟨accepted options, fun report parsed => parse_watched parsed, ?_⟩
  intro budget maxNodes
  exact repair_unmoved_iff.trans (accepted { maxNodes })

end Engine

end RowGrammar
